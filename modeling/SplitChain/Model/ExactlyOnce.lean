import SplitChain.Model.NodeRuns
import SplitChain.Model.Runs
import SplitChain.Model.Signing

set_option relaxedAutoImplicit false
set_option autoImplicit false

/-!
# Exactly-once application

A node with an authenticator applies signed requests, and a request names a nonce of its actor.
Over a whole run, whatever is replayed, rejected or interrupted by a restart, the nonces of the
applied requests of one actor increase: no pair of an actor and a nonce is applied twice.

## Main definitions

* `SplitChain.ReferenceNode.Increasing` — the property of the applied requests.
* `SplitChain.ReferenceNode.Remembers` — the node knows the nonces of the applied requests.

## Main results

* `SplitChain.ReferenceNode.Remembers.step` — every event keeps it.
* `SplitChain.ReferenceNode.applied_increasing` — exactly-once application.
-/

namespace SplitChain

open Raise

variable {ν : Type} [PyNumber ν]

namespace ReferenceNode

/-- The requests name their origin, and the nonces that one actor uses increase. -/
structure Increasing (py : PyLib ν) (requests : List (Request ν)) : Prop where
  named : ∀ request ∈ requests, ∃ token, request.token py = .ok token
  increasing : requests.Pairwise fun r r' => ∀ token token', r.token py = .ok token →
    r'.token py = .ok token' → token.actor = token'.actor → token.nonce < token'.nonce

/-- The last nonces of an application are at least those of some requests. -/
def Covers (py : PyLib ν) (app : Application ν) (requests : List (Request ν)) : Prop :=
  ∀ request ∈ requests, ∀ token, request.token py = .ok token → token.nonce ≤ app.last token.actor

/-- **The invariant**: the nonces of the requests that have been applied are known, in memory and in
the file that the node would come back from. -/
structure Remembers (py : PyLib ν) (n : ReferenceNode ν) (requests : List (Request ν)) : Prop where
  authenticated : n.app.authenticator.isSome = true
  increasing : Increasing py requests
  memory : Covers py n.app requests
  disk : n.hasStore = true → ∀ s, n.disk = some s →
    s.app.authenticator.isSome = true ∧ Covers py s.app requests
  unsaved : n.hasStore = true → n.disk = none → requests = []

section Steps

variable {py : PyLib ν} {n t : ReferenceNode ν} {requests : List (Request ν)}

/-- Nonces that only grow still cover. -/
lemma Covers.mono {app app' : Application ν} (h : Covers py app requests)
    (hle : ∀ actor, app.last actor ≤ app'.last actor) : Covers py app' requests :=
  fun request hmem token htoken => (h request hmem token htoken).trans (hle _)

/-- An event that keeps the ledger and the nonces. -/
lemma Remembers.keeps (h : Remembers py n requests) (hkeeps : Keeps n t) :
    Remembers py t requests where
  authenticated := hkeeps.app.authenticated.trans h.authenticated
  increasing := h.increasing
  memory := h.memory.mono hkeeps.app.nonces
  disk hstore s hs := by
    rcases hkeeps.disk with hsame | ⟨s', hs', hsaved⟩
    · exact h.disk (hkeeps.hasStore ▸ hstore) s (hsame ▸ hs)
    · obtain rfl : s' = s := Option.some.inj (hs'.symm.trans hs)
      exact ⟨hsaved.authenticated.trans h.authenticated, h.memory.mono hsaved.nonces⟩
  unsaved hstore hnone := by
    rcases hkeeps.disk with hsame | ⟨s', hs', -⟩
    · exact h.unsaved (hkeeps.hasStore ▸ hstore) (hsame ▸ hnone)
    · rw [hnone] at hs'
      cases hs'

/-- An event that applies a request: its nonce is newer than those of all requests before it. -/
lemma Remembers.applies (h : Remembers py n requests) {request : Request ν} {c : Ledger.Call ν}
    (happlies : AppliesTo py n t request c) : Remembers py t (requests ++ [request]) := by
  obtain ⟨a, token, hadmits, hlast⟩ := happlies.admitted
  have htoken : request.token py = .ok token := (Authenticator.check_eq_ok.mp hadmits.checked).1
  have hfresh : n.app.last token.actor < token.nonce :=
    Application.last_lt_of_checked hadmits.loaded hadmits.checked
  have hmemory : Covers py t.app (requests ++ [request]) := by
    intro r hr k hk
    rw [hlast]
    rcases List.mem_append.mp hr with hr | hr
    · have hold := h.memory r hr k hk
      split_ifs with hactor
      · exact (hactor ▸ hold).trans hfresh.le
      · exact hold
    · obtain rfl := List.mem_singleton.mp hr
      obtain rfl : token = k := Except.ok.inj (htoken.symm.trans hk)
      rw [if_pos rfl]
  refine ⟨happlies.authenticated, ⟨fun r hr => ?_, ?_⟩, hmemory, fun hstore s hs => ?_,
    fun hs hnone => ?_⟩
  · rcases List.mem_append.mp hr with hr | hr
    · exact h.increasing.named r hr
    · exact ⟨token, List.mem_singleton.mp hr ▸ htoken⟩
  · refine List.pairwise_append.mpr ⟨h.increasing.increasing, List.pairwise_singleton _ _, ?_⟩
    intro r hr r' hr' k k' hk hk' hactor
    obtain rfl := List.mem_singleton.mp hr'
    obtain rfl : token = k' := Except.ok.inj (htoken.symm.trans hk')
    exact (h.memory r hr k hk).trans_lt (hactor ▸ hfresh)
  · rw [happlies.disk, if_pos (happlies.hasStore ▸ hstore)] at hs
    cases hs
    exact ⟨happlies.authenticated, hmemory⟩
  · rw [happlies.disk, if_pos (happlies.hasStore ▸ hs)] at hnone
    cases hnone

variable {keys : Keyring (Request ν)} {self : Option Role} {boot : Ledger ν}

/-- A restart: the nonces in the file cover what has been applied. -/
lemma Remembers.restarted {secrets : Dict String String} (h : Remembers py n requests)
    (hstep : restarted py keys boot n secrets = some t) : Remembers py t requests := by
  have hstore : n.hasStore = true := by
    unfold ReferenceNode.restarted at hstep
    split_ifs at hstep with hstore
    exact hstore
  cases hdisk : n.disk with
  | none =>
    obtain rfl := h.unsaved hstore hdisk
    unfold ReferenceNode.restarted at hstep
    rw [if_pos hstore, hdisk] at hstep
    obtain rfl := Option.some.inj hstep
    refine ⟨?_, h.increasing, fun r hr => (by cases hr), fun _ s hs => (by cases hs),
      fun _ _ => rfl⟩
    show (n.app.authenticator.map _).isSome = true
    rw [Option.isSome_map]
    exact h.authenticated
  | some s =>
    obtain ⟨hlast, hdisk', hstore', hauth⟩ := last_restarted hdisk hstep
    obtain ⟨hsaved, hcovers⟩ := h.disk hstore s hdisk
    refine ⟨hauth.trans hsaved, h.increasing, hcovers.mono fun actor => (hlast actor).ge, ?_, ?_⟩
    · intro _ s' hs'
      rw [hdisk'] at hs'
      cases hs'
      exact ⟨hsaved, hcovers⟩
    · intro _ hnone
      rw [hdisk'] at hnone
      cases hnone

/-- **Every event keeps the invariant.** -/
theorem Remembers.step [DecidableEq ν] {e : NodeEvent ν} (h : Remembers py n requests)
    (hstep : nodeStep py keys self boot n e = some t) :
    Remembers py t (requests ++ (appliedRequest n e t).toList.map Prod.snd) := by
  by_cases hrestart : ∃ secrets, e = .restart secrets
  · obtain ⟨secrets, rfl⟩ := hrestart
    have hnothing : appliedRequest n (.restart secrets) t = none := rfl
    rw [hnothing, Option.toList_none, List.map_nil, List.append_nil]
    exact h.restarted hstep
  · rw [not_exists] at hrestart
    rcases nodeStep_cases h.authenticated hrestart hstep with hkeeps | ⟨r, c, hcarried, happlies⟩
    · rw [appliedRequest_of_keeps hkeeps, Option.toList_none, List.map_nil, List.append_nil]
      exact h.keeps hkeeps
    · rw [appliedRequest_of_appliesTo hrestart hcarried happlies]
      exact h.applies happlies

end Steps

variable [DecidableEq ν]

/-- **Exactly-once application.** On a node with an authenticator, every request that a run applies
to the ledger names an actor and a nonce, and of two such requests of the same actor the later one
has the greater nonce. So no pair of an actor and a nonce is applied twice.

**Proof sketch.** Induction on the run. A request is applied only with a nonce above the last one of
its actor, which is then recorded and saved together with the ledger, so that restarts forget
none. -/
theorem applied_increasing (py : PyLib ν) (keys : Keyring (Request ν)) (self : Option Role)
    (boot : Ledger ν) (secrets : Dict String String) (registry : Option (Dict String (Json ν)))
    (hasStore : Bool) (events : List (NodeEvent ν)) :
    Increasing py ((applied py keys self boot
      (Node.fresh ⟨boot, some ⟨secrets, ∅⟩, registry⟩ hasStore) events).map Prod.snd) := by
  have hrun : ∀ (es : List (NodeEvent ν)) (n : ReferenceNode ν) (requests : List (Request ν)),
      Remembers py n requests →
        Increasing py (requests ++ (applied py keys self boot n es).map Prod.snd) := by
    intro es
    induction es with
    | nil =>
      intro n requests h
      rw [applied, List.map_nil, List.append_nil]
      exact h.increasing
    | cons e es ih =>
      intro n requests h
      unfold applied
      cases hstep : nodeStep py keys self boot n e with
      | none =>
        rw [List.map_nil, List.append_nil]
        exact h.increasing
      | some t =>
        rw [List.map_append, ← List.append_assoc]
        exact ih t _ (h.step hstep)
  exact hrun events _ [] ⟨rfl, ⟨fun r hr => (by cases hr), .nil⟩, fun r hr => (by cases hr),
    fun _ s hs => (by cases hs), fun _ _ => rfl⟩

end ReferenceNode

end SplitChain
