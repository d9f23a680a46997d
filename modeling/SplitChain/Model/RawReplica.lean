import SplitChain.Python.Values
import SplitChain.Model.Identity
import SplitChain.Model.ReplicaSteps
import SplitChain.Model.Signing

set_option relaxedAutoImplicit false
set_option autoImplicit false

/-!
# Envelopes as they arrive

What a replica is sent is any JSON object. `ReplicationAuthenticator.verify` reads four of its
members, after turning them into texts and an integer, and checks the signature of what it has
read; the replica keeps, compares and logs the object itself. This file has the replica at this
level, with the whole state that the node saves.

## Main definitions

* `SplitChain.RawEnvelope`, with `RawEnvelope.eqv`, `RawEnvelope.read` and `RawEnvelope.verify`.
* `SplitChain.EnvelopeScheme` — how signatures are checked.
* `SplitChain.RawNode`, with `prepareReplica`, `commitReplica` and `abortReplica`.

## Main results

* `SplitChain.RawEnvelope.read_set` — members that `verify` does not read can be added.
* `SplitChain.RawEnvelope.contains_of_eqv` — equal envelopes have the same members.
* `SplitChain.RawNode.after_prepareReplica`, `after_commitReplica`, `after_abortReplica` — what the
  operations do, each with its `_of_not` for where it does nothing.
-/

namespace SplitChain

open Raise Proc

variable {ν : Type} [PyNumber ν] {A ρ : Type}

/-! ## Envelopes -/

/-- An envelope: any dictionary. -/
structure RawEnvelope (ν : Type) where
  members : Dict String (Json ν)
deriving DecidableEq

/-- What `verify` reads from an envelope. -/
structure SignedMutation (ν : Type) where
  leader : String
  nonce : ℤ
  mutation : Json ν
  signature : String
deriving DecidableEq

/-- The bytes that are signed. -/
def SignedMutation.bytes (py : PyLib ν) (m : SignedMutation ν) : List UInt8 :=
  canonicalJson py (envelopePayload m.leader m.nonce m.mutation)

/-- How signatures are checked: with the secret of the cluster, or with the public keys of its
nodes. -/
structure EnvelopeScheme where
  verify : (leader : String) → (payload : List UInt8) → (signature : String) → Except PyError Bool

/-- Signatures with the secret of the cluster. -/
def EnvelopeScheme.ofSecret (py : PyLib ν) (secret : String) : EnvelopeScheme where
  verify _ payload signature := compareDigest (py.hmacSha256 secret payload) signature

namespace RawEnvelope

/-- `a == b` -/
def eqv (e f : RawEnvelope ν) : Bool := (Json.obj e.members.entries).eqv (.obj f.members.entries)

/-- `bool(envelope)` -/
def truthy (e : RawEnvelope ν) : Bool := !e.members.entries.isEmpty

/-- The members that are read, as texts and an integer. -/
def read (py : PyLib ν) (e : RawEnvelope ν) : Except PyError (SignedMutation ν) :=
  orRaise (do
      let leader ← e.members.get? "leader"
      let nonce ← (← e.members.get? "nonce").toInt? py
      let mutation ← e.members.get? "mutation"
      let signature ← e.members.get? "signature"
      return ⟨py.str leader, nonce, mutation, py.str signature⟩)
    (.protocol "invalid replication envelope")

/-- The check of the mutation: a dictionary that names a mutating method. A method that is a list or
a dictionary cannot be looked up. -/
def checkMutation (mutation : Json ν) : Except PyError Unit := do
  let d ← orRaise mutation.dict? (.protocol "replication envelope contains an invalid mutation")
  let method := d.getD "method" .null
  require method.hashable .type
  require (["offer", "accept", "commit", "cancel", "advance", "account.register"].any fun name =>
      method.eqv (.str name))
    (.protocol "replication envelope contains an invalid mutation")

/-- `ReplicationAuthenticator.verify` -/
def verify (py : PyLib ν) (scheme : EnvelopeScheme) (e : RawEnvelope ν) (lastNonce : ℤ)
    (expectedLeader : Role) : Except PyError (SignedMutation ν) := do
  let m ← e.read py
  let valid ← scheme.verify m.leader (m.bytes py) m.signature
  require (m.leader == expectedLeader.value && decide (lastNonce < m.nonce) && valid)
    (.protocol "invalid or replayed replication envelope")
  checkMutation m.mutation
  return m

/-! ## What is read and what is compared -/

variable {py : PyLib ν} {scheme : EnvelopeScheme} {e f : RawEnvelope ν} {m : SignedMutation ν}

/-- Add a member. -/
def set (e : RawEnvelope ν) (key : String) (value : Json ν) : RawEnvelope ν :=
  ⟨e.members.set key value⟩

/-- **A member that is not read** can be added without a change of what is read. -/
lemma read_set (e : RawEnvelope ν) {key : String} (value : Json ν)
    (h : key ∉ ["leader", "nonce", "mutation", "signature"]) :
    (e.set key value).read py = e.read py := by
  simp only [List.mem_cons, List.not_mem_nil, or_false, not_or] at h
  simp only [read, set, Dict.get?_set_of_ne _ _ h.1, Dict.get?_set_of_ne _ _ h.2.1,
    Dict.get?_set_of_ne _ _ h.2.2.1, Dict.get?_set_of_ne _ _ h.2.2.2]

lemma verify_set (e : RawEnvelope ν) {key : String} (value : Json ν) {lastNonce : ℤ}
    {expectedLeader : Role} (h : key ∉ ["leader", "nonce", "mutation", "signature"]) :
    (e.set key value).verify py scheme lastNonce expectedLeader =
      e.verify py scheme lastNonce expectedLeader := by
  unfold verify
  rw [read_set e value h]

/-- What a verified envelope has passed. -/
lemma verify_eq_ok {lastNonce : ℤ} {expectedLeader : Role} :
    e.verify py scheme lastNonce expectedLeader = .ok m ↔
      e.read py = .ok m ∧ scheme.verify m.leader (m.bytes py) m.signature = .ok true ∧
        m.leader = expectedLeader.value ∧ lastNonce < m.nonce ∧
        checkMutation m.mutation = .ok () := by
  unfold verify
  simp only [bind_eq_ok, require_eq_ok, exists_const, pure_eq_ok, Bool.and_eq_true, beq_iff_eq,
    decide_eq_true_iff]
  constructor
  · rintro ⟨m', hread, valid, hvalid, ⟨⟨hleader, hnonce⟩, rfl⟩, u, hmutation, rfl⟩
    exact ⟨hread, hvalid, hleader, hnonce, hmutation⟩
  · rintro ⟨hread, hvalid, hleader, hnonce, hmutation⟩
    exact ⟨m, hread, true, hvalid, ⟨⟨hleader, hnonce⟩, rfl⟩, (), hmutation, rfl⟩

/-- An envelope that can be read is not empty. -/
lemma truthy_of_read (h : e.read py = .ok m) : e.truthy = true := by
  unfold read at h
  rw [orRaise_eq_ok] at h
  simp only [Option.bind_eq_bind, Option.bind_eq_some_iff] at h
  obtain ⟨leader, hleader, -⟩ := h
  have hmem := Dict.get?_eq_some_iff.mp hleader
  rw [truthy, Bool.not_eq_true', List.isEmpty_eq_false_iff]
  exact List.ne_nil_of_mem hmem

/-- Equality with a dictionary finds every key there. -/
lemma get?_of_eqvMembers {kvs : List (String × Json ν)} {d : Dict String (Json ν)}
    (h : Json.eqvMembers kvs d = true) {k : String} {x : Json ν} (hk : (k, x) ∈ kvs) :
    ∃ y, d.get? k = some y := by
  induction kvs generalizing x with
  | nil => cases hk
  | cons p kvs ih =>
    obtain ⟨j, v⟩ := p
    simp only [Json.eqvMembers, Bool.and_eq_true, Bool.or_eq_true] at h
    rcases List.mem_cons.mp hk with heq | hk
    · obtain ⟨rfl, rfl⟩ := Prod.mk.inj heq
      rcases h.1 with hlater | hhere
      · -- the key is repeated, and the later member is compared
        obtain ⟨q, hq, hkey⟩ := List.any_eq_true.mp hlater
        rw [beq_iff_eq] at hkey
        exact ih h.2 (x := q.2) (hkey ▸ hq)
      · cases hget : d.get? k with
        | none => simp [hget] at hhere
        | some y => exact ⟨y, rfl⟩
    · exact ih h.2 hk

/-- Equal dictionaries have equally many members, and the same keys. -/
lemma eqv_eq_true (h : e.eqv f = true) :
    e.members.size = f.members.size ∧ Json.eqvMembers e.members.entries f.members = true := by
  have hofList : ∀ d : Dict String (Json ν), Dict.ofList d.entries = d := fun d =>
    Dict.ext (Dict.entries_ofList d.nodup_keys)
  simp only [eqv, Json.eqv, hofList, Bool.and_eq_true, beq_iff_eq] at h
  exact h

/-- **Equal envelopes** have the same members. -/
lemma contains_of_eqv (h : e.eqv f = true) {key : String} {value : Json ν}
    (hkey : e.members.get? key = some value) : key ∈ f.members.keys :=
  Dict.mem_keys_iff.mpr (get?_of_eqvMembers (eqv_eq_true h).2 (Dict.get?_eq_some_iff.mp hkey))

/-- An empty envelope is not equal to one that can be read. -/
lemma eqv_of_not_truthy (he : e.truthy = false) (hf : f.truthy = true) : e.eqv f = false := by
  rw [← Bool.not_eq_true]
  intro h
  have hsize := (eqv_eq_true h).1
  rw [truthy, Bool.not_eq_false', List.isEmpty_iff] at he
  rw [Dict.size, he, Dict.size, List.length_nil, eq_comm, List.length_eq_zero_iff] at hsize
  rw [truthy, hsize] at hf
  cases hf

end RawEnvelope

/-! ## The replica -/

/-- The state that a node saves. -/
structure RawSaved (A ν : Type) where
  app : A
  replicationNonces : Dict String ℤ
  replicationLog : List (RawEnvelope ν)
  replicationPending : Option (RawEnvelope ν)
  leadership : LeadershipState
deriving DecidableEq

/-- The state of a node, in memory and on file. -/
structure RawNode (A ν : Type) extends RawSaved A ν where
  hasStore : Bool
  disk : Option (RawSaved A ν)
deriving DecidableEq

/-- `_committed_position` -/
def RawSaved.committedPosition (s : RawSaved A ν) : ℤ := s.replicationNonces.values.max?.getD 0

namespace RawNode

/-- A new node. -/
def fresh (app : A) (hasStore : Bool) : RawNode A ν where
  app := app
  replicationNonces := ∅
  replicationLog := []
  replicationPending := none
  leadership := .initial 3
  hasStore := hasStore
  disk := none

/-- `_save` -/
def save (returns : Bool) : EStateM PyError (RawNode A ν) Unit := do
  if (← get).hasStore then
    if returns then modify fun n => { n with disk := some n.toRawSaved }
    else throw (.protocol "unable to persist ledger state")

/-- Set the state of the application. -/
def setApp (n : RawNode A ν) (a : A) : RawNode A ν := { n with app := a }

/-- Run an application step. -/
def onApp {α : Type} (x : EStateM PyError A α) : EStateM PyError (RawNode A ν) α :=
  onPart (fun n => n.app) setApp x

/-- Set the prepared record. -/
def setPending (n : RawNode A ν) (pending : Option (RawEnvelope ν)) : RawNode A ν :=
  { n with replicationPending := pending }

/-- Record an envelope as committed. -/
def appendLog (n : RawNode A ν) (m : SignedMutation ν) (envelope : RawEnvelope ν) : RawNode A ν :=
  { n with
    replicationNonces := n.replicationNonces.set m.leader m.nonce
    replicationLog := n.replicationLog ++ [envelope]
    replicationPending := none
    leadership := { n.leadership with committedNonce := m.nonce } }

/-- The prepared record, if there is one that counts: an empty dictionary does not. -/
def prepared (n : RawNode A ν) : Option (RawEnvelope ν) :=
  n.replicationPending.filter RawEnvelope.truthy

section Replica

variable (py : PyLib ν) (scheme : EnvelopeScheme) (app : App A (Json ν) ρ) (role : Role)

/-- `_verify_replica_envelope` -/
def verifyEnvelope (n : RawNode A ν) (envelope : RawEnvelope ν) :
    Except PyError (SignedMutation ν) := do
  require (n.leadership.leader == .primary ||
      !(envelope.members.getD "leader" .null).eqv (.str Role.primary.value))
    (.protocol "old Primary is fenced by a leadership certificate")
  require (role != n.leadership.leader)
    (.protocol "node does not accept replicated mutations")
  envelope.verify py scheme n.committedPosition n.leadership.leader

/-- `prepare_replica` -/
def prepareReplica (saves : Bool) (envelope : RawEnvelope ν) :
    EStateM PyError (RawNode A ν) ℤ := do
  let m ← lift (verifyEnvelope py scheme role (← get) envelope)
  match (← get).prepared with
  | some pending =>
    if pending.eqv envelope then return m.nonce
    else throw (.protocol "replica already has a different prepared mutation")
  | none =>
    onApp (app.trial m.mutation)
    modify fun n => n.setPending (some envelope)
    save saves
    return m.nonce

/-- `commit_replica` -/
def commitReplica (saves : Bool) (envelope : RawEnvelope ν) :
    EStateM PyError (RawNode A ν) (ℤ × ρ) := do
  let m ← lift (verifyEnvelope py scheme role (← get) envelope)
  if (← get).replicationPending.any (·.eqv envelope) then
    let result ← onApp (app.apply m.mutation)
    modify fun n => n.appendLog m envelope
    save saves
    return (m.nonce, result)
  else throw (.protocol "replica commit does not match its prepared mutation")

/-- `abort_replica` -/
def abortReplica (saves : Bool) (envelope : RawEnvelope ν) :
    EStateM PyError (RawNode A ν) ℤ := do
  let m ← lift (verifyEnvelope py scheme role (← get) envelope)
  if (← get).prepared.any (!·.eqv envelope) then
    throw (.protocol "replica abort does not match its prepared mutation")
  else
    modify fun n => n.setPending none
    save saves
    return m.nonce

end Replica

/-! ## The ledger of a replica -/

end RawNode

/-- Run a mutation that is given as a document. -/
def onMutation {α : Type} (run : Request ν → EStateM PyError A α) (mutation : Json ν) :
    EStateM PyError A α :=
  match mutation.dict? with
  | some d => run (Request.ofDict d)
  | none => throw .type

/-- The ledger, as what mutations in documents are applied to. -/
def documentApp (py : PyLib ν) : App (Application ν) (Json ν) (Result ν) where
  apply := onMutation (ledgerApp py).apply
  trial := onMutation (ledgerApp py).trial
  wellFormed mutation := mutation.dict?.any fun d => (ledgerApp py).wellFormed (Request.ofDict d)
  digest := (ledgerApp py).digest
  load := (ledgerApp py).load

namespace RawNode

/-! ## What the operations do -/

/-- The node after a call of `_save`. -/
def stored (n : RawNode A ν) (returns : Bool) : RawNode A ν :=
  if n.hasStore && returns then { n with disk := some n.toRawSaved } else n

omit [PyNumber ν] in
@[simp] lemma toRawSaved_stored (n : RawNode A ν) (returns : Bool) :
    (n.stored returns).toRawSaved = n.toRawSaved := by
  unfold stored
  split_ifs <;> rfl

section Outcomes

variable (py : PyLib ν) (scheme : EnvelopeScheme) (app : App A (Json ν) ρ) (role : Role)

/-- A preparation that becomes the record: nothing is prepared, and the trial returns. -/
structure Prepares (n : RawNode A ν) (envelope : RawEnvelope ν) (m : SignedMutation ν) (a : A) :
    Prop where
  verified : verifyEnvelope py scheme role n envelope = .ok m
  free : n.prepared = none
  tried : app.trial m.mutation n.app = .ok () a

/-- A commit that is carried out: the envelope is the record, and the mutation is applied. -/
structure Commits (n : RawNode A ν) (envelope : RawEnvelope ν) (m : SignedMutation ν) (r : ρ)
    (a : A) : Prop where
  verified : verifyEnvelope py scheme role n envelope = .ok m
  matching : n.replicationPending.any (·.eqv envelope) = true
  applied : app.apply m.mutation n.app = .ok r a

/-- An abort that is carried out: no other envelope is the record. -/
structure Aborts (n : RawNode A ν) (envelope : RawEnvelope ν) (m : SignedMutation ν) : Prop where
  verified : verifyEnvelope py scheme role n envelope = .ok m
  matching : n.prepared.any (!·.eqv envelope) = false

end Outcomes

section Operations

variable {py : PyLib ν} {scheme : EnvelopeScheme} {app : App A (Json ν) ρ} {role : Role}
  {saves : Bool} {n : RawNode A ν} {envelope : RawEnvelope ν} {m : SignedMutation ν} {a : A} {r : ρ}

omit [PyNumber ν] in
/-- After a change, the node is saved or not. -/
lemma ends_save {P : Unit → RawNode A ν → Prop} {E : PyError → RawNode A ν → Prop}
    (hP : P () (n.stored saves)) (hE : ∀ e, E e (n.stored saves)) : Ends (save saves) n P E := by
  unfold save
  unfold stored at hP hE
  rw [ends_bind, ends_get]
  split_ifs with hstore hreturns
  · rw [if_pos (Bool.and_eq_true_iff.mpr ⟨hstore, hreturns⟩)] at hP
    exact hP
  · rw [Bool.eq_false_iff.mpr hreturns, Bool.and_false, if_neg Bool.false_ne_true] at hE
    exact hE _
  · rw [Bool.eq_false_iff.mpr hstore, Bool.false_and, if_neg Bool.false_ne_true] at hP
    exact hP

/-- An envelope that a replica takes has been verified. -/
lemma verify_of_verifyEnvelope (h : verifyEnvelope py scheme role n envelope = .ok m) :
    envelope.verify py scheme n.committedPosition n.leadership.leader = .ok m := by
  simp only [verifyEnvelope, bind_eq_ok, require_eq_ok, exists_const] at h
  exact h.2.2

/-- **Preparing**, where the envelope becomes the record. -/
theorem after_prepareReplica (h : Prepares py scheme app role n envelope m a) : after
    (prepareReplica py scheme app role saves envelope) n =
      ((n.setApp a).setPending (some envelope)).stored saves := by
  refine after_eq_iff.mpr ?_
  unfold prepareReplica
  rw [ends_bind, ends_get, ends_bind, ends_lift]
  refine ⟨fun m' hm' => ?_, fun e he => ?_⟩
  · obtain rfl : m = m' := Except.ok.inj (h.verified.symm.trans hm')
    rw [ends_bind, ends_get, h.free, ends_bind]
    refine ends_onPart.mpr ((ends_of_eq_ok h.tried).mpr ?_)
    rw [ends_bind, ends_modify, ends_bind]
    exact ends_save rfl fun _ => rfl
  · cases h.verified.symm.trans he

/-- **Preparing**, where it does not. -/
theorem after_prepareReplica_of_not (saves : Bool)
    (h : ∀ m a, ¬ Prepares py scheme app role n envelope m a) :
    ∃ a, after (prepareReplica py scheme app role saves envelope) n = n.setApp a := by
  refine after_iff (P := fun t => ∃ a, t = n.setApp a) |>.mpr ?_
  unfold prepareReplica
  rw [ends_bind, ends_get, ends_bind, ends_lift]
  refine ⟨fun m hm => ?_, fun e _ => ⟨n.app, rfl⟩⟩
  rw [ends_bind, ends_get]
  cases hprepared : n.prepared with
  | some pending =>
    dsimp only
    split_ifs
    · exact ⟨n.app, rfl⟩
    · exact ⟨n.app, rfl⟩
  | none =>
    rw [ends_bind]
    refine ends_onPart.mpr (ends_iff.mpr ⟨fun u a ha => ?_, fun e a _ => ⟨a, rfl⟩⟩)
    exact absurd ⟨hm, hprepared, ha⟩ (h m a)

/-- **Committing**, where the envelope is the record and its mutation is applied. -/
theorem after_commitReplica (h : Commits py scheme app role n envelope m r a) : after
    (commitReplica py scheme app role saves envelope) n =
      ((n.setApp a).appendLog m envelope).stored saves := by
  refine after_eq_iff.mpr ?_
  unfold commitReplica
  rw [ends_bind, ends_get, ends_bind, ends_lift]
  refine ⟨fun m' hm' => ?_, fun e he => ?_⟩
  · obtain rfl : m = m' := Except.ok.inj (h.verified.symm.trans hm')
    rw [ends_bind, ends_get, if_pos h.matching, ends_bind]
    refine ends_onPart.mpr ((ends_of_eq_ok h.applied).mpr ?_)
    rw [ends_bind, ends_modify, ends_bind]
    exact ends_save rfl fun _ => rfl
  · cases h.verified.symm.trans he

/-- **Committing**, where it is refused. -/
theorem after_commitReplica_of_not (saves : Bool)
    (h : ∀ m r a, ¬ Commits py scheme app role n envelope m r a) :
    ∃ a, after (commitReplica py scheme app role saves envelope) n = n.setApp a := by
  refine after_iff (P := fun t => ∃ a, t = n.setApp a) |>.mpr ?_
  unfold commitReplica
  rw [ends_bind, ends_get, ends_bind, ends_lift]
  refine ⟨fun m hm => ?_, fun e _ => ⟨n.app, rfl⟩⟩
  rw [ends_bind, ends_get]
  split_ifs with hmatching
  · rw [ends_bind]
    refine ends_onPart.mpr (ends_iff.mpr ⟨fun r a ha => ?_, fun e a _ => ⟨a, rfl⟩⟩)
    exact absurd ⟨hm, hmatching, ha⟩ (h m r a)
  · exact ⟨n.app, rfl⟩

/-- **Aborting**, where no other envelope is the record. -/
theorem after_abortReplica (h : Aborts py scheme role n envelope m) : after
    (abortReplica py scheme role saves envelope) n = (n.setPending none).stored saves := by
  refine after_eq_iff.mpr ?_
  unfold abortReplica
  rw [ends_bind, ends_get, ends_bind, ends_lift]
  refine ⟨fun m' hm' => ?_, fun e he => ?_⟩
  · rw [ends_bind, ends_get, h.matching, if_neg Bool.false_ne_true, ends_bind, ends_modify,
      ends_bind]
    exact ends_save rfl fun _ => rfl
  · cases h.verified.symm.trans he

/-- **Aborting**, where it is refused. -/
theorem after_abortReplica_of_not (h : ∀ m, ¬ Aborts py scheme role n envelope m) :
    after (abortReplica py scheme role saves envelope) n = n := by
  refine after_eq_iff.mpr ?_
  unfold abortReplica
  rw [ends_bind, ends_get, ends_bind, ends_lift]
  refine ⟨fun m hm => ?_, fun e _ => rfl⟩
  rw [ends_bind, ends_get]
  split_ifs with hmatching
  · rfl
  · exact absurd ⟨hm, Bool.eq_false_iff.mpr hmatching⟩ (h m)

end Operations

end RawNode

end SplitChain
