import SplitChain.Library.Proc
import SplitChain.Model.Request
import SplitChain.Model.Snapshot

set_option relaxedAutoImplicit false
set_option autoImplicit false

/-!
# Authenticated requests

The request authenticator (`splitchain.auth`) and the two places of the node that use it: the
check of the actor behind a request, and the application of a replicated mutation. Both change
the state as they go, and what they have changed stays when they raise.

## Main definitions

* `SplitChain.Authenticator` — credentials and the last nonce of every actor.
* `SplitChain.Application` — the ledger of a node with its authenticator.
* `SplitChain.Application.verifyRequestActor`, `SplitChain.Application.applyMutation`,
  `SplitChain.Application.tryMutation`.

## Main results

* `SplitChain.Application.Admits` — what a verified request has passed.
* `SplitChain.Application.ends_verifyRequestActor`, `SplitChain.Application.ends_applyMutation`.
-/

namespace SplitChain

open Raise Proc

open PyNumber (val ofInt trunc)

variable {ν : Type} [PyNumber ν]

/-! ## The authenticator -/

/-- The credentials of the actors and the last nonce each has used. -/
structure Authenticator where
  secrets : Dict String String
  nonces : Dict String ℤ
deriving DecidableEq

/-- What a request says about its origin. -/
structure Token where
  actor : String
  nonce : ℤ
  signature : String
deriving DecidableEq

namespace Request

/-- The bytes that an actor signs. -/
def message (py : PyLib ν) (request : Request ν) (actor : String) (nonce : ℤ) : List UInt8 :=
  canonicalJson py (.obj [("actor", .str actor), ("id", request.id), ("method", request.method),
    ("nonce", .num (ofInt nonce)), ("params", request.params)])

/-- `sign`: what a client sends to authenticate a request. -/
def sign (py : PyLib ν) (request : Request ν) (actor : String) (nonce : ℤ) (secret : String) :
    Json ν :=
  .obj [("actor", .str actor), ("nonce", .num (ofInt nonce)),
    ("signature", .str (py.hmacSha256 secret (request.message py actor nonce)))]

/-- The origin that a request names. -/
def token (py : PyLib ν) (request : Request ν) : Except PyError Token := do
  let auth ← orRaise request.auth.dict? (.protocol "authenticated request required")
  let actor ← orRaise (auth.get? "actor") (.protocol "invalid request authentication")
  let nonce ← orRaise ((auth.get? "nonce").bind (Json.toInt? py))
    (.protocol "invalid request authentication")
  let signature ← orRaise (auth.get? "signature") (.protocol "invalid request authentication")
  return ⟨py.str actor, nonce, py.str signature⟩

end Request

namespace Authenticator

/-- The last nonce of an actor. -/
def last (a : Authenticator) (actor : String) : ℤ := a.nonces.getD actor (-1)

/-- The part of `verify` that only reads: signature and nonce of a request. -/
def check (py : PyLib ν) (a : Authenticator) (request : Request ν) : Except PyError Token := do
  let token ← request.token py
  let secret ← orRaise (a.secrets.get? token.actor) (.protocol "invalid request authentication")
  -- `hmac.compare_digest` accepts only ASCII strings
  require (token.signature.toList.all fun c => c.toNat < 128) .type
  require (py.hmacSha256 secret (request.message py token.actor token.nonce) == token.signature)
    (.protocol "invalid request authentication")
  require (decide (a.last token.actor < token.nonce)) (.protocol "invalid request authentication")
  return token

/-- Record the nonce of a request. -/
def record (a : Authenticator) (token : Token) : Authenticator :=
  { a with nonces := a.nonces.set token.actor token.nonce }

/-- The actor behind a request, and the authenticator after it has been checked. -/
def verify (py : PyLib ν) (a : Authenticator) (request : Request ν) (record : Bool) :
    Except PyError (Authenticator × String) := do
  let token ← a.check py request
  return (if record then a.record token else a, token.actor)

/-- Load an approved credential without clearing the nonces. -/
def addActor (a : Authenticator) (actor secret : String) : Authenticator :=
  { a with secrets := a.secrets.set actor secret }

/-- The signature of a request is one under a credential of its actor. -/
def Signs (py : PyLib ν) (a : Authenticator) (request : Request ν) (token : Token) : Prop :=
  ∃ secret, a.secrets.get? token.actor = some secret ∧
    token.signature.toList.all (fun c => c.toNat < 128) = true ∧
    py.hmacSha256 secret (request.message py token.actor token.nonce) = token.signature

/-- What a checked request has passed. -/
lemma check_eq_ok {py : PyLib ν} {a : Authenticator} {request : Request ν} {token : Token} :
    a.check py request = .ok token ↔ request.token py = .ok token ∧
      (∃ secret, a.secrets.get? token.actor = some secret ∧
        token.signature.toList.all (fun c => c.toNat < 128) = true ∧
        py.hmacSha256 secret (request.message py token.actor token.nonce) = token.signature) ∧
      a.last token.actor < token.nonce := by
  unfold check
  simp only [bind_eq_ok, orRaise_eq_ok, require_eq_ok, pure_eq_ok, exists_const, beq_iff_eq,
    decide_eq_true_eq]
  constructor
  · rintro ⟨t, ht, secret, hsecret, hascii, hmac, hnonce, rfl⟩
    exact ⟨ht, ⟨secret, hsecret, hascii, hmac⟩, hnonce⟩
  · rintro ⟨ht, ⟨secret, hsecret, hascii, hmac⟩, hnonce⟩
    exact ⟨token, ht, secret, hsecret, hascii, hmac, hnonce, rfl⟩

lemma last_record (a : Authenticator) (token : Token) (b : String) :
    (a.record token).last b = if token.actor = b then token.nonce else a.last b := by
  unfold last record
  rw [Dict.getD_set]

end Authenticator

/-! ## The ledger behind the authenticator -/

/-- The fields of a node that a mutation reads and changes. -/
structure Application (ν : Type) where
  ledger : Ledger ν
  authenticator : Option Authenticator
  /-- What the credential registry holds, if one is configured and can be read. -/
  registry : Option (Dict String (Json ν))
deriving DecidableEq

/-- The parameter that has to name the actor of a method. -/
def Method.actorField : Method → Option String
  | .offer => some "sender"
  | .accept => some "receiver"
  | .commit => some "sender"
  | .cancel => some "actor"
  | _ => none

/-- Whether an actor may call a method with the given parameters. -/
def checkActor (actor : String) (method : Option Method) (params : Json ν) :
    Except PyError Unit :=
  match method with
  | none => .ok ()
  | some m =>
    match m.actorField with
    | some field => do
      let d ← orRaise params.dict? .attribute
      require ((d.get? field).bind Json.str? == some actor)
        (.protocol "authenticated actor does not match request participant")
    | none => require (actor == "testnet_operator")
        (.protocol "only the testnet operator can perform this action")

namespace Application

/-- Set the ledger. -/
def setLedger (app : Application ν) (ledger : Ledger ν) : Application ν :=
  { app with ledger := ledger }

/-- Set the authenticator. -/
def setAuthenticator (app : Application ν) (a : Authenticator) : Application ν :=
  { app with authenticator := some a }

section Fields

variable (app : Application ν) (ledger : Ledger ν) (a : Authenticator)

omit [PyNumber ν]

@[simp] lemma ledger_setLedger : (app.setLedger ledger).ledger = ledger := rfl
@[simp] lemma authenticator_setLedger :
    (app.setLedger ledger).authenticator = app.authenticator := rfl
@[simp] lemma registry_setLedger : (app.setLedger ledger).registry = app.registry := rfl
@[simp] lemma ledger_setAuthenticator : (app.setAuthenticator a).ledger = app.ledger := rfl
@[simp] lemma authenticator_setAuthenticator :
    (app.setAuthenticator a).authenticator = some a := rfl
@[simp] lemma registry_setAuthenticator : (app.setAuthenticator a).registry = app.registry := rfl

@[simp] lemma setLedger_setLedger (m : Ledger ν) :
    (app.setLedger ledger).setLedger m = app.setLedger m := rfl

@[simp] lemma setLedger_self : app.setLedger app.ledger = app := rfl

/-- Setting the authenticator that is already there. -/
lemma setAuthenticator_of_eq {app : Application ν} {a : Authenticator}
    (h : app.authenticator = some a) : app.setAuthenticator a = app := by
  rw [setAuthenticator, ← h]

end Fields

omit [PyNumber ν] in
/-- The actor that the `auth` member of a request names, if it is a string. -/
def namedActor (auth : Json ν) : Option String :=
  (auth.dict?.bind (·.get? "actor")).bind Json.str?

/-- Load the credential of a new actor from the registry; an existing one is never replaced. -/
def loadCredential (app : Application ν) (auth : Json ν) : Application ν :=
  match app.authenticator, app.registry, namedActor auth with
  | some a, some file, some actor =>
    if a.secrets.contains actor then app
    else match (file.get? actor).bind Json.str? with
      | some secret =>
        if 32 ≤ secret.length then app.setAuthenticator (a.addActor actor secret) else app
      | none => app
  | _, _, _ => app

/-- `self.authenticator.verify` -/
def verify (py : PyLib ν) (request : Request ν) (record : Bool) :
    EStateM PyError (Application ν) (Option String) := do
  match (← get).authenticator with
  | none => return none
  | some a =>
    let (a', actor) ← lift (a.verify py request record)
    modify fun app => app.setAuthenticator a'
    return some actor

/-- `_verify_request_actor` -/
def verifyRequestActor (py : PyLib ν) (request : Request ν) (record : Bool) :
    EStateM PyError (Application ν) Unit := do
  let method := Method.ofJson? request.method
  if (← get).authenticator.isNone then
    if method = some .accountRegister then
      throw (.protocol "account registration requires operator authentication")
  else if request.method.str? ≠ some "status" then
    modify fun app => app.loadCredential request.auth
    match ← verify py request record with
    | some actor => lift (checkActor actor method request.params)
    | none => return

/-- One entry of the method tables: a method on the ledger. -/
def runMethod (py : PyLib ν) (method : Method) (params : Json ν) :
    EStateM PyError (Application ν) (Result ν) := do
  let (ledger, result) ← lift ((← get).ledger.execute py method params)
  modify fun app => app.setLedger ledger
  return result

/-- `_apply_mutation` -/
def applyMutation (py : PyLib ν) (mutation : Request ν) (recordAuth : Bool) :
    EStateM PyError (Application ν) (Result ν) := do
  if (← get).authenticator.isSome then
    verifyRequestActor py mutation false
  match Method.ofJson? mutation.method with
  | none => throw (.protocol "unknown replicated mutation")
  | some method =>
    let result ← runMethod py method mutation.params
    if recordAuth then
      let _ ← verify py mutation true
    return result

/-- The trial of a mutation: it is applied to a restored copy of the ledger, and the ledger itself
is put back however the trial ends. -/
def tryMutation (py : PyLib ν) (mutation : Request ν) : EStateM PyError (Application ν) Unit := do
  let trial ← lift (Ledger.fromSnapshot py (← get).ledger.snapshot none)
  let _ ← onPart (fun app => app.setLedger trial) (fun app tried => tried.setLedger app.ledger)
    (applyMutation py mutation false)

/-! ## What verification can do -/

variable {py : PyLib ν} {app app' : Application ν} {request : Request ν}

/-- The actor behind `request` has been established: `a` is the authenticator that checked it. -/
structure Admits (py : PyLib ν) (app : Application ν) (request : Request ν) (a : Authenticator)
    (token : Token) : Prop where
  loaded : (app.loadCredential request.auth).authenticator = some a
  checked : a.check py request = .ok token
  participant : checkActor token.actor (Method.ofJson? request.method) request.params = .ok ()

omit [PyNumber ν] in
/-- Loading a credential changes nothing but the secrets. -/
lemma loadCredential_eq (app : Application ν) (auth : Json ν) : app.loadCredential auth = app ∨
    ∃ a actor secret, app.authenticator = some a ∧ namedActor auth = some actor ∧
      a.secrets.contains actor = false ∧
      app.loadCredential auth = app.setAuthenticator (a.addActor actor secret) := by
  unfold loadCredential
  split
  · next a file actor ha _ hactor =>
    split_ifs with hknown
    · exact .inl rfl
    · split
      · next secret _ =>
        split_ifs
        · exact .inr ⟨a, actor, secret, ha, hactor, by simpa using hknown, rfl⟩
        · exact .inl rfl
      · exact .inl rfl
  · exact .inl rfl

omit [PyNumber ν] in
/-- The credential of a known actor is not loaded again. -/
lemma loadCredential_of_known {a : Authenticator} {auth : Json ν} {actor : String}
    (ha : app.authenticator = some a) (hactor : namedActor auth = some actor)
    (hknown : a.secrets.contains actor = true) : app.loadCredential auth = app := by
  unfold loadCredential
  rw [ha, hactor]
  split
  · next h1 _ h2 =>
    cases h1
    cases h2
    rw [if_pos hknown]
  · rfl

omit [PyNumber ν] in
/-- Loading a credential keeps an authenticator where there is one. -/
lemma exists_authenticator {a : Authenticator} (h : app.authenticator = some a) (auth : Json ν) :
    ∃ b, (app.loadCredential auth).authenticator = some b := by
  rcases loadCredential_eq app auth with heq | ⟨b, actor, secret, -, -, -, heq⟩
  · exact ⟨a, by rw [heq]; exact h⟩
  · exact ⟨b.addActor actor secret, by rw [heq]; rfl⟩

/-- How a check of a request can leave the application: it may have loaded a credential, and have
recorded the nonce of a request that carries a valid signature. -/
inductive Checked (py : PyLib ν) (app : Application ν) (request : Request ν) :
    Application ν → Prop
  | same : Checked py app request app
  | loaded : Checked py app request (app.loadCredential request.auth)
  | recorded (a : Authenticator) (token : Token)
      (loaded : (app.loadCredential request.auth).authenticator = some a)
      (checked : a.check py request = .ok token) :
      Checked py app request ((app.loadCredential request.auth).setAuthenticator (a.record token))

/-- The authenticator after a check that has returned `token`. -/
def recordIf (record : Bool) (a : Authenticator) (token : Token) : Authenticator :=
  if record then a.record token else a

/-- Checking a request with the authenticator `a`. -/
lemma ends_verify {a : Authenticator} (ha : app.authenticator = some a) (record : Bool)
    {P : Option String → Application ν → Prop} {E : PyError → Application ν → Prop} :
    Ends (verify py request record) app P E ↔
      (∀ token, a.check py request = .ok token →
        P (some token.actor) (app.setAuthenticator (recordIf record a token))) ∧
      ∀ e, a.check py request = .error e → E e app := by
  unfold verify
  rw [ends_bind, ends_get, ha]
  simp only [ends_bind, ends_lift, ends_modify, ends_pure, Authenticator.verify]
  cases hcheck : a.check py request with
  | error e => simp
  | ok token => simp [recordIf]

/-- **The check of the actor.** With an authenticator it returns exactly for admitted requests,
and what it leaves when it raises is a checked application. -/
lemma ends_verifyRequestActor (py : PyLib ν) (app : Application ν) (request : Request ν)
    (record : Bool) : Ends (verifyRequestActor py request record) app
      (fun _ t => (app.authenticator = none ∧
          Method.ofJson? request.method ≠ some .accountRegister ∧ t = app) ∨
        (request.method.str? = some "status" ∧ t = app) ∨
        ∃ a token, app.Admits py request a token ∧
          t = (app.loadCredential request.auth).setAuthenticator (recordIf record a token))
      (fun _ t => app.Checked py request t ∧
        (record = false → t = app ∨ t = app.loadCredential request.auth)) := by
  unfold verifyRequestActor
  rw [ends_bind, ends_get]
  cases hnone : app.authenticator with
  | none =>
    rw [Option.isNone_none, if_pos rfl]
    split_ifs with hregister
    · exact ends_throw.mpr ⟨.same, fun _ => .inl rfl⟩
    · exact ends_pure.mpr (.inl ⟨rfl, hregister, rfl⟩)
  | some b =>
    rw [Option.isNone_some, if_neg Bool.false_ne_true]
    by_cases hstatus : request.method.str? = some "status"
    · rw [if_neg (not_not_intro hstatus)]
      exact ends_pure.mpr (.inr (.inl ⟨hstatus, rfl⟩))
    · rw [if_pos hstatus]
      obtain ⟨a, ha⟩ := exists_authenticator hnone request.auth
      rw [ends_bind, ends_modify, ends_bind, ends_verify ha]
      refine ⟨fun token htoken => ends_lift.mpr ⟨?_, ?_⟩, ?_⟩
      · intro _ hactor
        exact .inr (.inr ⟨a, token, ⟨ha, htoken, hactor⟩, rfl⟩)
      · intro e _
        cases record with
        | false =>
          have hsame := setAuthenticator_of_eq ha
          exact ⟨hsame.symm ▸ .loaded, fun _ => .inr hsame⟩
        | true => exact ⟨.recorded a token ha htoken, fun h => by cases h⟩
      · exact fun _ _ => ⟨.loaded, fun _ => .inr rfl⟩

omit [PyNumber ν] in
@[simp] lemma ledger_loadCredential (app : Application ν) (auth : Json ν) :
    (app.loadCredential auth).ledger = app.ledger := by
  rcases loadCredential_eq app auth with heq | ⟨_, _, _, -, -, -, heq⟩
  · rw [heq]
  · rw [heq]; rfl

omit [PyNumber ν] in
/-- Loading a credential does not depend on the ledger. -/
lemma loadCredential_setLedger (app : Application ν) (l : Ledger ν) (auth : Json ν) :
    (app.setLedger l).loadCredential auth = (app.loadCredential auth).setLedger l := by
  unfold loadCredential
  simp only [authenticator_setLedger, registry_setLedger]
  split
  · split_ifs
    · rfl
    · split
      · split_ifs <;> rfl
      · rfl
  · rfl

/-- A check does not change the ledger. -/
lemma Checked.ledger_eq (h : Checked py app request app') : app'.ledger = app.ledger := by
  cases h with
  | same => rfl
  | loaded => exact ledger_loadCredential _ _
  | recorded a token => exact ledger_loadCredential _ _

/-! ## What a mutation can do -/

/-- One method on the ledger of an application. -/
lemma ends_runMethod {method : Method} {params : Json ν} {P : Result ν → Application ν → Prop}
    {E : PyError → Application ν → Prop} : Ends (runMethod py method params) app P E ↔
      (∀ l r, app.ledger.execute py method params = .ok (l, r) → P r (app.setLedger l)) ∧
      ∀ e, app.ledger.execute py method params = .error e → E e app := by
  unfold runMethod
  simp only [ends_bind, ends_get, ends_lift, ends_modify, ends_pure, Prod.forall]

omit [PyNumber ν] in
/-- No mutating method is called `status`. -/
lemma ofJson?_of_status {method : Json ν} (h : method.str? = some "status") :
    Method.ofJson? method = none := by
  cases method with
  | str s => cases h; rfl
  | _ => rfl

/-- Nobody is asked who asks for the state of the ledger. -/
lemma ends_verifyRequestActor_of_status (app : Application ν)
    (hstatus : request.method.str? = some "status") (record : Bool) :
    Ends (verifyRequestActor py request record) app (fun _ t => t = app) fun _ t => t = app := by
  unfold verifyRequestActor
  rw [ends_bind, ends_get]
  cases hnone : app.authenticator with
  | none =>
    rw [Option.isNone_none, if_pos rfl]
    split_ifs
    · exact ends_throw.mpr rfl
    · exact ends_pure.mpr rfl
  | some b =>
    rw [Option.isNone_some, if_neg Bool.false_ne_true, if_neg (not_not_intro hstatus)]
    exact ends_pure.mpr rfl

omit [PyNumber ν] in
/-- Without an authenticator there is nothing to load. -/
lemma loadCredential_of_none (h : app.authenticator = none) (auth : Json ν) :
    app.loadCredential auth = app := by
  rw [loadCredential, h]

omit [PyNumber ν] in
/-- Loading a credential twice loads it once. -/
lemma loadCredential_loadCredential (app : Application ν) (auth : Json ν) :
    (app.loadCredential auth).loadCredential auth = app.loadCredential auth := by
  rcases loadCredential_eq app auth with heq | ⟨a, actor, secret, ha, hactor, -, heq⟩
  · rw [heq, heq]
  · rw [heq]
    have hknown : (a.addActor actor secret).secrets.contains actor = true :=
      Dict.contains_iff.mpr ⟨secret, Dict.get?_set_self _ _ _⟩
    exact loadCredential_of_known rfl hactor hknown

/-- The actor behind a request has been established, which leaves the application `app'`. -/
inductive Established (py : PyLib ν) (app : Application ν) (request : Request ν) (record : Bool) :
    Application ν → Prop
  | unchecked (none : app.authenticator = none) : Established py app request record app
  | admitted (a : Authenticator) (token : Token) (admits : app.Admits py request a token) :
      Established py app request record
        ((app.loadCredential request.auth).setAuthenticator (recordIf record a token))

/-- The ledger step of a mutation with the authenticator that has established its actor. -/
lemma ends_recorded {a : Authenticator} {token : Token} (ha : app.authenticator = some a)
    (hchecked : a.check py request = .ok token) (record : Bool) (method : Method)
    {P : Result ν → Application ν → Prop} {E : PyError → Application ν → Prop} :
    Ends (do
      let result ← runMethod py method request.params
      if record then
        let _ ← verify py request true
      return result) app P E ↔
      (∀ l r, app.ledger.execute py method request.params = .ok (l, r) →
        P r ((app.setAuthenticator (recordIf record a token)).setLedger l)) ∧
      ∀ e, app.ledger.execute py method request.params = .error e → E e app := by
  rw [ends_bind, ends_runMethod]
  refine and_congr_left fun _ => forall₂_congr fun l r => imp_congr_right fun _ => ?_
  cases record with
  | false =>
    have hsame : recordIf false a token = a := rfl
    rw [hsame, setAuthenticator_of_eq ha]
    exact Iff.rfl
  | true =>
    -- The second check sees the authenticator of the first, so it passes too.
    have hauth : (app.setLedger l).authenticator = some a := ha
    rw [if_pos rfl, ends_bind, ends_verify hauth]
    simp only [hchecked, Except.ok.injEq, forall_eq', reduceCtorEq, false_implies, implies_true,
      and_true, ends_pure]
    exact Iff.rfl

/-- The ledger step of a mutation on a node without an authenticator. -/
lemma ends_unrecorded (hnone : app.authenticator = none) (record : Bool) (method : Method)
    {P : Result ν → Application ν → Prop} {E : PyError → Application ν → Prop} :
    Ends (do
      let result ← runMethod py method request.params
      if record then
        let _ ← verify py request true
      return result) app P E ↔
      (∀ l r, app.ledger.execute py method request.params = .ok (l, r) → P r (app.setLedger l)) ∧
      ∀ e, app.ledger.execute py method request.params = .error e → E e app := by
  rw [ends_bind, ends_runMethod]
  refine and_congr_left fun _ => forall₂_congr fun l r => imp_congr_right fun _ => ?_
  cases record with
  | false => exact Iff.rfl
  | true =>
    have hverify : verify py request true (app.setLedger l) = .ok none (app.setLedger l) := by
      unfold verify
      rw [eq_ok_iff, ends_bind, ends_get, authenticator_setLedger, hnone]
      exact ⟨rfl, rfl⟩
    rw [if_pos rfl, ends_bind, ends_of_eq_ok hverify]
    exact Iff.rfl

omit [PyNumber ν] in
/-- Loading a credential adds no authenticator. -/
lemma authenticator_of_loaded {a : Authenticator} {auth : Json ν}
    (h : (app.loadCredential auth).authenticator = some a) : app.authenticator.isSome = true := by
  cases hnone : app.authenticator with
  | none => rw [loadCredential_of_none hnone, hnone] at h; cases h
  | some b => rfl

/-- The check of an admitted actor returns. -/
lemma Admits.ends_verifyRequestActor {a : Authenticator} {token : Token}
    (h : app.Admits py request a token) (record : Bool) {method : Method}
    (hmethod : Method.ofJson? request.method = some method)
    {P : Unit → Application ν → Prop} {E : PyError → Application ν → Prop} :
    Ends (verifyRequestActor py request record) app P E ↔
      P () ((app.loadCredential request.auth).setAuthenticator (recordIf record a token)) := by
  have hsome : ¬ app.authenticator.isNone = true := by
    have := authenticator_of_loaded h.loaded
    cases hauth : app.authenticator <;> simp_all
  have hstatus : request.method.str? ≠ some "status" := fun hs => by
    rw [ofJson?_of_status hs] at hmethod
    cases hmethod
  unfold verifyRequestActor
  rw [ends_bind, ends_get, if_neg hsome, if_pos hstatus, ends_bind, ends_modify, ends_bind,
    ends_verify h.loaded]
  simp only [h.checked, Except.ok.injEq, forall_eq', reduceCtorEq, false_implies, implies_true,
    and_true, ends_lift, h.participant]
  exact ⟨fun hP => hP () trivial, fun hP _ _ => hP⟩

/-- **The application of a mutation** whose actor is established is that of its method. -/
lemma Established.ends_applyMutation {record : Bool} (h : Established py app request record app')
    {method : Method} (hmethod : Method.ofJson? request.method = some method)
    {P : Result ν → Application ν → Prop} {E : PyError → Application ν → Prop} :
    Ends (applyMutation py request record) app P E ↔
      (∀ l r, app.ledger.execute py method request.params = .ok (l, r) → P r (app'.setLedger l)) ∧
      ∀ e, app.ledger.execute py method request.params = .error e →
        E e (app.loadCredential request.auth) := by
  unfold applyMutation
  rw [ends_bind, ends_get]
  cases h with
  | unchecked hnone =>
    rw [hnone, Option.isSome_none, if_neg Bool.false_ne_true, hmethod,
      loadCredential_of_none hnone]
    exact ends_unrecorded hnone record method
  | admitted a token hadmits =>
    have hsame : (app.loadCredential request.auth).setAuthenticator (recordIf false a token) =
        app.loadCredential request.auth := setAuthenticator_of_eq hadmits.loaded
    rw [if_pos (authenticator_of_loaded hadmits.loaded), ends_bind,
      hadmits.ends_verifyRequestActor false hmethod, hsame, hmethod]
    refine (ends_recorded hadmits.loaded hadmits.checked record method).trans ?_
    rw [ledger_loadCredential]

/-- What is left when a mutation names no method or its actor is not established. -/
lemma ends_applyMutation_of_not (h : ∀ method, Method.ofJson? request.method = some method →
      ∀ app', ¬ Established py app request false app') (record : Bool) :
    Ends (applyMutation py request record) app (fun _ _ => False)
      (fun _ t => t = app ∨ t = app.loadCredential request.auth) := by
  unfold applyMutation
  rw [ends_bind, ends_get]
  cases hmethod : Method.ofJson? request.method with
  | none =>
    cases hauth : app.authenticator with
    | none => exact ends_throw.mpr (.inl rfl)
    | some b =>
      rw [Option.isSome_some, if_pos rfl, ends_bind]
      refine (ends_verifyRequestActor py app request false).mono ?_ fun _ _ h => h.2 rfl
      rintro - t (⟨-, -, rfl⟩ | ⟨-, rfl⟩ | ⟨a, token, hadmits, rfl⟩)
      · exact ends_throw.mpr (.inl rfl)
      · exact ends_throw.mpr (.inl rfl)
      · exact ends_throw.mpr (.inr (setAuthenticator_of_eq hadmits.loaded))
  | some method =>
    cases hauth : app.authenticator with
    | none => exact absurd (.unchecked hauth) (h method hmethod app)
    | some b =>
      rw [Option.isSome_some, if_pos rfl, ends_bind]
      refine (ends_verifyRequestActor py app request false).mono ?_ fun _ _ h => h.2 rfl
      rintro - t (⟨hnone, -⟩ | ⟨hstatus, -⟩ | ⟨a, token, hadmits, -⟩)
      · rw [hauth] at hnone
        cases hnone
      · rw [ofJson?_of_status hstatus] at hmethod
        cases hmethod
      · exact absurd (.admitted a token hadmits) (h method hmethod _)

/-- The effect of a mutation that has been applied: the call it makes has succeeded, for an actor
that has been established. -/
structure Applied (py : PyLib ν) (app : Application ν) (mutation : Request ν) (record : Bool)
    (method : Method) (l : Ledger ν) (r : Result ν) (app' : Application ν) : Prop where
  method_eq : Method.ofJson? mutation.method = some method
  execute : app.ledger.execute py method mutation.params = .ok (l, r)
  established : Established py app mutation record app'

/-- Whether an actor is established does not depend on whether its nonce is recorded. -/
lemma Established.exists_of {record : Bool} (h : Established py app request record app')
    (record' : Bool) : ∃ t, Established py app request record' t := by
  cases h with
  | unchecked hnone => exact ⟨_, .unchecked hnone⟩
  | admitted a token hadmits => exact ⟨_, .admitted a token hadmits⟩

/-- **The application of a mutation** executes one method for an established actor; when it raises,
the ledger and the nonces are as before. -/
theorem ends_applyMutation (py : PyLib ν) (app : Application ν) (mutation : Request ν)
    (record : Bool) : Ends (applyMutation py mutation record) app
      (fun r t => ∃ method l app', app.Applied py mutation record method l r app' ∧
        t = app'.setLedger l)
      (fun _ t => t = app ∨ t = app.loadCredential mutation.auth) := by
  by_cases hgood : ∃ method t, Method.ofJson? mutation.method = some method ∧
      Established py app mutation false t
  · obtain ⟨method, t, hmethod, ht⟩ := hgood
    obtain ⟨app', hestablished⟩ := ht.exists_of record
    rw [hestablished.ends_applyMutation hmethod]
    exact ⟨fun l r hexecute => ⟨method, l, app', ⟨hmethod, hexecute, hestablished⟩, rfl⟩,
      fun _ _ => .inr rfl⟩
  · refine (ends_applyMutation_of_not (fun method hmethod t ht => ?_) record).mono
      (fun _ _ h => h.elim) fun _ _ h => h
    exact hgood ⟨method, t, hmethod, ht⟩

/-- Whether an actor is established does not depend on the ledger. -/
lemma Established.setLedger {record : Bool} (h : Established py app request record app')
    (l : Ledger ν) : Established py (app.setLedger l) request record (app'.setLedger l) := by
  cases h with
  | unchecked hnone => exact .unchecked hnone
  | admitted a token hadmits =>
    have hload := loadCredential_setLedger app l request.auth
    have hnew : Established py (app.setLedger l) request record
        (((app.setLedger l).loadCredential request.auth).setAuthenticator
          (recordIf record a token)) :=
      .admitted a token
        ⟨by rw [hload]; exact hadmits.loaded, hadmits.checked, hadmits.participant⟩
    rwa [hload] at hnew

/-- Whether an actor is established does not depend on whether its credential is loaded. -/
lemma Established.loadCredential {record : Bool}
    (h : Established py app request record app') :
    Established py (app.loadCredential request.auth) request record app' := by
  have htwice := loadCredential_loadCredential app request.auth
  cases h with
  | unchecked hnone =>
    rw [loadCredential_of_none hnone]
    exact .unchecked hnone
  | admitted a token hadmits =>
    have hnew : Established py (app.loadCredential request.auth) request record
        (((app.loadCredential request.auth).loadCredential request.auth).setAuthenticator
          (recordIf record a token)) :=
      .admitted a token ⟨by rw [htwice]; exact hadmits.loaded, hadmits.checked,
        hadmits.participant⟩
    rwa [htwice] at hnew

/-- The check of an established actor returns, but nobody registers an account without an
authenticator. -/
lemma Established.ends_verifyRequestActor {record : Bool}
    (h : Established py app request record app') {method : Method}
    (hmethod : Method.ofJson? request.method = some method)
    (hregister : app.authenticator = none → method ≠ .accountRegister)
    {P : Unit → Application ν → Prop} {E : PyError → Application ν → Prop} :
    Ends (verifyRequestActor py request record) app P E ↔ P () app' := by
  cases h with
  | unchecked hnone =>
    have hother : ¬ Method.ofJson? request.method = some .accountRegister := by
      rw [hmethod, Option.some.injEq]
      exact hregister hnone
    unfold verifyRequestActor
    rw [ends_bind, ends_get, hnone, Option.isNone_none, if_pos rfl, if_neg hother, ends_pure]
  | admitted a token hadmits => exact hadmits.ends_verifyRequestActor record hmethod

/-- Establishing an actor does not change the ledger. -/
lemma Established.ledger_eq {record : Bool}
    (h : Established py app request record app') : app'.ledger = app.ledger := by
  cases h with
  | unchecked => rfl
  | admitted => rw [ledger_setAuthenticator, ledger_loadCredential]

/-- **A trial leaves the ledger and the nonces as they were**, and returns only for a mutation that
can be applied to the restored ledger. -/
theorem ends_tryMutation (py : PyLib ν) (app : Application ν) (mutation : Request ν) :
    Ends (tryMutation py mutation) app
      (fun _ t => t = app.loadCredential mutation.auth ∧
        ∃ trial method l r app', Ledger.fromSnapshot py app.ledger.snapshot none = .ok trial ∧
          (app.setLedger trial).Applied py mutation false method l r app')
      (fun _ t => t = app ∨ t = app.loadCredential mutation.auth) := by
  have hback : ∀ trial : Ledger ν, ((app.setLedger trial).loadCredential mutation.auth).setLedger
      app.ledger = app.loadCredential mutation.auth := by
    intro trial
    rw [loadCredential_setLedger, setLedger_setLedger, ← ledger_loadCredential app mutation.auth,
      setLedger_self]
  unfold tryMutation
  rw [ends_bind, ends_get, ends_bind, ends_lift]
  refine ⟨fun trial htrial => ?_, fun _ _ => .inl rfl⟩
  rw [ends_bind, ends_onPart]
  refine (ends_applyMutation py (app.setLedger trial) mutation false).mono ?_ ?_
  · rintro r t ⟨method, l, app', happlied, rfl⟩
    refine ends_pure.mpr ⟨?_, trial, method, l, r, app', htrial, happlied⟩
    cases happlied.established with
    | unchecked hnone =>
      have hnone : app.authenticator = none := hnone
      exact (loadCredential_of_none hnone mutation.auth).symm
    | admitted a token hadmits =>
      have hsame : ((app.setLedger trial).loadCredential mutation.auth).setAuthenticator
          (recordIf false a token) = (app.setLedger trial).loadCredential mutation.auth :=
        setAuthenticator_of_eq hadmits.loaded
      rw [hsame, setLedger_setLedger, hback]
  · rintro e t (rfl | rfl)
    · exact .inl rfl
    · exact .inr (hback trial)

end Application

end SplitChain
