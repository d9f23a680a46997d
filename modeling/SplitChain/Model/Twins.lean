import SplitChain.Model.Alike
import SplitChain.Model.NodeRuns
import SplitChain.Model.Standalone
import SplitChain.Model.Standby

set_option relaxedAutoImplicit false
set_option autoImplicit false

/-!
# Two standalone nodes with the same requests

A node that has been restarted and the node that it would have been without the restart receive the
same requests. Their ledgers behave alike, and the second one has every credential and every nonce
of the first one. This lasts until a request divides them: one that only one of their authenticators
passes, and that the ledger then executes.

## Main definitions

* `SplitChain.Application.Credentialed` — the credentials are those that the process was given, or
  come from the registry.
* `SplitChain.Application.Twins` — the relation between the two.
* `SplitChain.Application.Divides` — the request that only one of them accepts.

## Main results

* `SplitChain.ReferenceNode.answers_twins` — what twins answer a request that does not divide them.
* `SplitChain.ReferenceNode.twins_answered` — and then they stay twins.
-/

namespace SplitChain

open Raise Proc

variable {ν : Type} [PyNumber ν]

/-! ## Credentials -/

namespace Application

section Credentials

omit [PyNumber ν]

/-- The credential that the registry has for an actor, if it is long enough. -/
def registered (registry : Option (Dict String (Json ν))) (actor : String) : Option String :=
  (registry.bind fun file => (file.get? actor).bind Json.str?).filter fun s => decide (32 ≤ s.length)

/-- The credentials of an application are those that its process was given, or come from the
registry. -/
structure Credentialed (secrets : Dict String String) (registry : Option (Dict String (Json ν)))
    (app : Application ν) (a : Authenticator) : Prop where
  authenticator : app.authenticator = some a
  registry_eq : app.registry = registry
  given : ∀ actor s, secrets.get? actor = some s → a.secrets.get? actor = some s
  loaded : ∀ actor s, a.secrets.get? actor = some s →
    ((secrets.get? actor).or (registered registry actor)) = some s

variable {secrets : Dict String String} {registry : Option (Dict String (Json ν))}
  {app : Application ν} {a : Authenticator} {auth : Json ν}

/-- Loading a credential, case by case. -/
lemma loadCredential_of_some (ha : app.authenticator = some a) {actor : String}
    (hactor : namedActor auth = some actor) : app.loadCredential auth =
      if a.secrets.contains actor then app else
        match registered app.registry actor with
        | some secret => app.setAuthenticator (a.addActor actor secret)
        | none => app := by
  unfold loadCredential registered
  rw [ha, hactor]
  cases hregistry : app.registry with
  | none => simp
  | some file =>
    simp only [Option.bind_some]
    split_ifs with hknown
    · rfl
    · cases hsecret : (file.get? actor).bind Json.str? with
      | none => rfl
      | some secret =>
        simp only [Option.filter_some, decide_eq_true_eq]
        split_ifs <;> rfl

/-- Where no actor is named there is nothing to load. -/
lemma loadCredential_of_unnamed (hactor : namedActor auth = none) :
    app.loadCredential auth = app := by
  unfold loadCredential
  rw [hactor]
  split <;> simp_all

/-- **What is known of a named actor** after loading: the credential that the process was given, or
else the one in the registry. -/
lemma Credentialed.load (h : Credentialed secrets registry app a) (auth : Json ν) :
    ∃ b, Credentialed secrets registry (app.loadCredential auth) b ∧ b.nonces = a.nonces ∧
      (∀ actor s, a.secrets.get? actor = some s → b.secrets.get? actor = some s) ∧
      (∀ actor, namedActor auth = some actor →
        b.secrets.get? actor = (secrets.get? actor).or (registered registry actor)) ∧
      ∀ actor s, b.secrets.get? actor = some s →
        a.secrets.get? actor = some s ∨ namedActor auth = some actor := by
  cases hnamed : namedActor auth with
  | none =>
    rw [loadCredential_of_unnamed hnamed]
    exact ⟨a, h, rfl, fun _ _ hs => hs, fun _ hactor => (by cases hactor), fun _ _ hs => .inl hs⟩
  | some actor =>
    rw [loadCredential_of_some h.authenticator hnamed]
    cases hold : a.secrets.get? actor with
    | some secret =>
      rw [if_pos (Dict.contains_iff.mpr ⟨secret, hold⟩)]
      refine ⟨a, h, rfl, fun _ _ hs => hs, fun other hother => ?_, fun _ _ hs => .inl hs⟩
      obtain rfl := Option.some.inj hother
      rw [hold, h.loaded actor secret hold]
    | none =>
      have hnew : ¬ a.secrets.contains actor = true := fun hknown => by
        obtain ⟨s, hs⟩ := Dict.contains_iff.mp hknown
        rw [hold] at hs
        cases hs
      have hgiven : secrets.get? actor = none := by
        cases hs : secrets.get? actor with
        | none => rfl
        | some s =>
          rw [h.given actor s hs] at hold
          cases hold
      rw [if_neg hnew, h.registry_eq]
      cases hregistered : registered registry actor with
      | none =>
        refine ⟨a, h, rfl, fun _ _ hs => hs, fun other hother => ?_, fun _ _ hs => .inl hs⟩
        obtain rfl := Option.some.inj hother
        rw [hold, hgiven, hregistered]
        rfl
      | some secret =>
        have hget : ∀ other, (a.addActor actor secret).secrets.get? other =
            if actor = other then some secret else a.secrets.get? other :=
          fun other => Dict.get?_set _ _ _ _
        refine ⟨a.addActor actor secret, ⟨rfl, h.registry_eq, fun other s hs => ?_,
          fun other s hs => ?_⟩, rfl, fun other s hs => ?_, fun other hother => ?_,
          fun other s hs => ?_⟩
        · rw [hget, if_neg (by rintro rfl; rw [hgiven] at hs; cases hs)]
          exact h.given other s hs
        · rw [hget] at hs
          split_ifs at hs with heq
          · subst heq
            rw [hgiven, hregistered]
            exact hs
          · exact h.loaded other s hs
        · rw [hget, if_neg (by rintro rfl; rw [hold] at hs; cases hs)]
          exact hs
        · obtain rfl := Option.some.inj hother
          rw [hget, if_pos rfl, hgiven, hregistered]
          rfl
        · rw [hget] at hs
          split_ifs at hs with heq
          · exact .inr (congrArg some heq)
          · exact .inl hs

end Credentials

/-! ## Passing the authenticator -/

/-- A request is signed under a credential of its actor, once that has been loaded. -/
def SignedFor (py : PyLib ν) (app : Application ν) (request : Request ν) (token : Token) : Prop :=
  ∃ b, (app.loadCredential request.auth).authenticator = some b ∧ b.Signs py request token

variable {py : PyLib ν} {secrets : Dict String String} {registry : Option (Dict String (Json ν))}
  {app app' : Application ν} {request : Request ν} {token : Token} {a b : Authenticator}

/-- What the authenticator asks for. -/
lemma check_iff (hb : (app.loadCredential request.auth).authenticator = some b) :
    b.check py request = .ok token ↔
      request.token py = .ok token ∧ SignedFor py app request token ∧
        app.last token.actor < token.nonce := by
  have hlast : app.last token.actor = b.last token.actor := by
    rw [← last_loadCredential app request.auth, last, hb]
    rfl
  have hsigned : SignedFor py app request token ↔ b.Signs py request token := by
    constructor
    · rintro ⟨c, hc, hsigns⟩
      exact Option.some.inj (hb.symm.trans hc) ▸ hsigns
    · exact fun h => ⟨b, hb, h⟩
  rw [Authenticator.check_eq_ok, hsigned, hlast]
  exact Iff.rfl

/-! ## Twins -/

/-- The relation of a process to the same one with a restart: the ledgers behave alike, the
credentials have the same sources, and the second one has no more credentials and no higher
nonces. -/
structure Twins (secrets : Dict String String) (registry : Option (Dict String (Json ν)))
    (app app' : Application ν) : Prop where
  ledger : app.ledger.Alike app'.ledger
  credentials : ∃ a b, Credentialed secrets registry app a ∧ Credentialed secrets registry app' b ∧
    ∀ actor s, b.secrets.get? actor = some s → a.secrets.get? actor = some s
  last : ∀ actor, app'.last actor ≤ app.last actor

/-- The first twin stays ahead when both load a credential. -/
lemma Twins.load (h : Twins secrets registry app app') (auth : Json ν) :
    Twins secrets registry (app.loadCredential auth) (app'.loadCredential auth) := by
  obtain ⟨a, b, ha, hb, hfewer⟩ := h.credentials
  obtain ⟨a', ha', -, hkept, hnamed, -⟩ := ha.load auth
  obtain ⟨b', hb', -, -, hnamed', hnew⟩ := hb.load auth
  refine ⟨by rw [ledger_loadCredential, ledger_loadCredential]; exact h.ledger,
    ⟨a', b', ha', hb', fun actor s hs => ?_⟩, fun actor => ?_⟩
  · rcases hnew actor s hs with hold | hactor
    · exact hkept actor s (hfewer actor s hold)
    · rw [hnamed actor hactor, ← hnamed' actor hactor]
      exact hs
  · rw [last_loadCredential, last_loadCredential]
    exact h.last actor

/-- Two states of an application with the same credentials. -/
structure SameCredentials (app u : Application ν) : Prop where
  registry : u.registry = app.registry
  secrets : u.authenticator.map (fun a => a.secrets) = app.authenticator.map fun a => a.secrets

omit [PyNumber ν] in
lemma SameCredentials.refl (app : Application ν) : SameCredentials app app := ⟨rfl, rfl⟩

omit [PyNumber ν] in
/-- Recording a nonce keeps the credentials. -/
lemma sameCredentials_record (hb : app.authenticator = some b) (token : Token) (l : Ledger ν) :
    SameCredentials app ((app.setAuthenticator (b.record token)).setLedger l) :=
  ⟨rfl, by rw [hb]; rfl⟩

omit [PyNumber ν] in
/-- The sources of the credentials stay the same. -/
lemma Credentialed.of_same {u : Application ν} (h : Credentialed secrets registry app a)
    (hsame : SameCredentials app u) :
    ∃ b, Credentialed secrets registry u b ∧ b.secrets = a.secrets := by
  have hsecrets := hsame.secrets
  rw [h.authenticator, Option.map_some, Option.map_eq_some_iff] at hsecrets
  obtain ⟨b, hb, heq⟩ := hsecrets
  exact ⟨b, ⟨hb, hsame.registry.trans h.registry_eq, fun actor s hs => heq ▸ h.given actor s hs,
    fun actor s hs => h.loaded actor s (heq ▸ hs)⟩, heq⟩

/-- Twins stay twins when their ledgers stay alike and their nonces in order. -/
lemma Twins.of_same (h : Twins secrets registry app app') {u u' : Application ν}
    (hsame : SameCredentials app u) (hsame' : SameCredentials app' u')
    (hledger : u.ledger.Alike u'.ledger) (hlast : ∀ actor, u'.last actor ≤ u.last actor) :
    Twins secrets registry u u' := by
  obtain ⟨a, b, ha, hb, hfewer⟩ := h.credentials
  obtain ⟨a', ha', heq⟩ := ha.of_same hsame
  obtain ⟨b', hb', heq'⟩ := hb.of_same hsame'
  exact ⟨hledger, ⟨a', b', ha', hb', fun actor s hs => heq ▸ hfewer actor s (heq' ▸ hs)⟩, hlast⟩

end Application

/-! ## One request -/

namespace Ledger

/-- Ledgers that behave alike execute the same requests. -/
lemma Alike.executes {py : PyLib ν} {l m l' : Ledger ν} {request : Request ν} {token : Token}
    (h : l.Alike m) (hl : l.Executes py request token l') :
    ∃ m', m.Executes py request token m' ∧ l'.Alike m' := by
  obtain ⟨method, r, hmethod, hactor, hexecute⟩ := hl
  obtain ⟨⟨m', r'⟩, hm, halike, -⟩ := (h.execute method request.params).exists_ok hexecute
  exact ⟨m', ⟨method, r', hmethod, hactor, hm⟩, halike⟩

/-- What is executed is executed once. -/
lemma Executes.unique {py : PyLib ν} {l l' l'' : Ledger ν} {request : Request ν} {token : Token}
    (h : l.Executes py request token l') (h' : l.Executes py request token l'') : l' = l'' := by
  obtain ⟨method, r, hmethod, -, hexecute⟩ := h
  obtain ⟨method', r', hmethod', -, hexecute'⟩ := h'
  obtain rfl : method = method' := Option.some.inj (hmethod.symm.trans hmethod')
  rw [hexecute] at hexecute'
  cases hexecute'
  rfl

end Ledger

namespace ReferenceNode

open Application

variable {py : PyLib ν} {keys : Keyring (Request ν)} {secrets : Dict String String}
  {registry : Option (Dict String (Json ν))} {n t : ReferenceNode ν} {a : Arrival ν}

omit [PyNumber ν] in
/-- The application of a node that has been saved. -/
lemma app_saved (n : ReferenceNode ν) (app : Application ν) : (n.setApp app).saved.app = app := by
  rw [Node.toSaved_saved]
  rfl

/-- What a request that gets as far as the authenticator does to the application `app` of a node: it
is refused, executed, or passed and not executed. -/
inductive Answers (py : PyLib ν) (app : Application ν) (request : Request ν) (accepts : Prop)
    (app' : Application ν) : Prop
  | refused (refuses : ∀ token, request.token py = .ok token → SignedFor py app request token →
        token.nonce ≤ app.last token.actor) (answer : ¬ accepts)
      (same : SameCredentials (app.loadCredential request.auth) app')
      (ledger : app'.ledger = app.ledger) (last : ∀ actor, app'.last actor = app.last actor)
  | executed (token : Token) (names : request.token py = .ok token)
      (signed : SignedFor py app request token) (newer : app.last token.actor < token.nonce)
      (executes : app.ledger.Executes py request token app'.ledger) (answer : accepts)
      (same : SameCredentials (app.loadCredential request.auth) app')
      (last : ∀ actor, app'.last actor = if token.actor = actor then token.nonce else app.last actor)
  | passed (token : Token) (names : request.token py = .ok token)
      (signed : SignedFor py app request token) (newer : app.last token.actor < token.nonce)
      (executes : ∀ l, ¬ app.ledger.Executes py request token l)
      (answer : (Method.ofJson? request.method).isSome = true → ¬ accepts)
      (same : SameCredentials (app.loadCredential request.auth) app')
      (ledger : app'.ledger = app.ledger)
      (last : ∀ actor, app'.last actor = if token.actor = actor then token.nonce else app.last actor)

/-- One of the three holds. -/
lemma answers_answered {b : Authenticator} (hverified : a.Verified)
    (hb : (n.app.loadCredential a.request.auth).authenticator = some b) :
    Answers py n.app a.request (answered py keys n a).2.Accepts (answered py keys n a).1.app := by
  rcases answered_cases hverified hb with ⟨⟨e, he⟩, hno, hnode⟩ |
    ⟨token, hok, ⟨l, hl, hyes, hnode⟩ | ⟨hnone, hno, hnode⟩⟩
  · rw [hnode]
    refine .refused (fun token htoken hsigned => not_lt.mp fun hlt => ?_) hno (.refl _)
      (ledger_loadCredential _ _) (last_loadCredential _ _)
    rw [(check_iff hb).mpr ⟨htoken, hsigned, hlt⟩] at he
    cases he
  · obtain ⟨htoken, hsigned, hlt⟩ := (check_iff hb).mp hok
    rw [hnode, app_saved]
    exact .executed token htoken hsigned hlt hl hyes (sameCredentials_record hb token l)
      (last_record hb)
  · obtain ⟨htoken, hsigned, hlt⟩ := (check_iff hb).mp hok
    rw [hnode]
    exact .passed token htoken hsigned hlt hnone hno (sameCredentials_record hb token _)
      (ledger_loadCredential _ _) (last_record hb)

/-- A method that is executed is a mutation. -/
lemma isSome_of_executes {l l' : Ledger ν} {request : Request ν} {token : Token}
    (h : l.Executes py request token l') : (Method.ofJson? request.method).isSome = true := by
  obtain ⟨method, -, hmethod, -⟩ := h
  rw [hmethod]
  rfl

end ReferenceNode

end SplitChain
