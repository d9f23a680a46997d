import SplitChain.Library.Proc
import SplitChain.Model.Failover

set_option relaxedAutoImplicit false
set_option autoImplicit false

/-!
# A node of the cluster

The replication and failover operations of one node (`splitchain.node`), each as far as it runs
without waiting for another node. What is replicated is a parameter: an application that can
apply a mutation, try it on a copy of its state and digest its state. A node keeps its state in
memory and saves it, all of it at once, to a file that survives a crash.

Whether a call of `_save` returns is an argument of each operation; it is the last thing the
operation does.

## Main definitions

* `SplitChain.App` — the replicated application.
* `SplitChain.Envelope`, `SplitChain.ReplicationAuthenticator` — signed mutations.
* `SplitChain.Node` — the state of a node, with the state it has saved.
* `SplitChain.Node.prepareReplica`, `commitReplica`, `abortReplica` — the replica's part.
* `SplitChain.Node.abortUncommitted`, `propose`, `abandon`, `commitLocal` — the leader's part,
  cut where `replicate_mutation` waits for its peers.
* `SplitChain.Node.receiveHeartbeat`, `receiveTimeoutVote`, `recordCertificate`, `startClock`,
  `recordBeat`.
* `SplitChain.Node.restart` — a node that comes back from its file.
* `SplitChain.Node.replicateMutation` — the leader's part in one piece.
-/

namespace SplitChain

open Raise Proc

/-! ## The application and its envelopes -/

/-- What a cluster replicates. -/
structure App (A μ ρ : Type) where
  /-- `_apply_mutation` -/
  apply : μ → EStateM PyError A ρ
  /-- The trial of a mutation on a restored copy of the state. -/
  trial : μ → EStateM PyError A Unit
  /-- Whether a mutation names a mutating method. -/
  wellFormed : μ → Bool
  /-- `_ledger_digest` -/
  digest : A → String
  /-- The state that a restart makes of a saved one. -/
  load : A → Except PyError A

/-- A mutation, numbered and signed by its leader. -/
structure Envelope (μ : Type) where
  leader : Role
  nonce : ℤ
  mutation : μ
  signature : String
deriving DecidableEq

/-- The keys that sign envelopes. -/
structure ReplicationAuthenticator (μ : Type) where
  signature : (leader : Role) → (nonce : ℤ) → μ → String
  verifies : (leader : Role) → (nonce : ℤ) → μ → String → Bool
  verifies_signature : ∀ leader nonce mutation,
    verifies leader nonce mutation (signature leader nonce mutation) = true

namespace ReplicationAuthenticator

variable {μ : Type} (keys : ReplicationAuthenticator μ)

/-- Sign a mutation. -/
def sign (leader : Role) (nonce : ℤ) (mutation : μ) : Except PyError (Envelope μ) := do
  require (decide (1 ≤ nonce)) (.protocol "replication nonce must be positive")
  return ⟨leader, nonce, mutation, keys.signature leader nonce mutation⟩

/-- Check an envelope against the last committed nonce and the leader. -/
def verify (wellFormed : μ → Bool) (envelope : Envelope μ) (lastNonce : ℤ)
    (expectedLeader : Role) : Except PyError Unit := do
  require (envelope.leader == expectedLeader && decide (lastNonce < envelope.nonce) &&
      keys.verifies envelope.leader envelope.nonce envelope.mutation envelope.signature)
    (.protocol "invalid or replayed replication envelope")
  require (wellFormed envelope.mutation)
    (.protocol "replication envelope contains an invalid mutation")

end ReplicationAuthenticator

/-- The keys of a node. -/
structure Keyring (μ : Type) where
  replication : ReplicationAuthenticator μ
  failover : FailoverAuthority

/-! ## The state -/

/-- The state that a node saves. A standalone node leaves the fields of the cluster as they are
at the start. -/
structure Saved (A μ : Type) where
  app : A
  replicationNonces : Dict Role ℤ
  replicationLog : List (Envelope μ)
  replicationPending : Option (Envelope μ)
  leadership : LeadershipState
deriving DecidableEq

/-- The state of a node: what it has in memory, and what it has saved. -/
structure Node (A μ : Type) extends Saved A μ where
  /-- Whether the node is configured with a file. -/
  hasStore : Bool
  disk : Option (Saved A μ)
deriving DecidableEq

variable {A μ ρ : Type}

/-- `_committed_position` -/
def Saved.committedPosition (s : Saved A μ) : ℤ := s.replicationNonces.values.max?.getD 0

namespace Node

/-- A new node. -/
def fresh (app : A) (hasStore : Bool) : Node A μ where
  app := app
  replicationNonces := ∅
  replicationLog := []
  replicationPending := none
  leadership := .initial 3
  hasStore := hasStore
  disk := none

/-- Set the state of the application. -/
def setApp (n : Node A μ) (a : A) : Node A μ := { n with app := a }

/-- Run an application step. -/
def onApp {α : Type} (x : EStateM PyError A α) : EStateM PyError (Node A μ) α :=
  onPart (fun n => n.app) setApp x

/-- `_save` -/
def save (returns : Bool) : EStateM PyError (Node A μ) Unit := do
  if (← get).hasStore then
    if returns then modify fun n => { n with disk := some n.toSaved }
    else throw (.protocol "unable to persist ledger state")

/-- Set the prepared record. -/
def setPending (n : Node A μ) (pending : Option (Envelope μ)) : Node A μ :=
  { n with replicationPending := pending }

/-- Record an envelope as committed. -/
def appendLog (n : Node A μ) (envelope : Envelope μ) : Node A μ :=
  { n with
    replicationNonces := n.replicationNonces.set envelope.leader envelope.nonce
    replicationLog := n.replicationLog ++ [envelope]
    replicationPending := none
    leadership := { n.leadership with committedNonce := envelope.nonce } }

variable [DecidableEq μ] (app : App A μ ρ) (keys : Keyring μ) (self : Role)

/-! ## The replica -/

/-- `_verify_replica_envelope` -/
def verifyEnvelope (n : Node A μ) (envelope : Envelope μ) : Except PyError Unit := do
  require (n.leadership.leader == .primary || envelope.leader != .primary)
    (.protocol "old Primary is fenced by a leadership certificate")
  require (self != n.leadership.leader)
    (.protocol "node does not accept replicated mutations")
  keys.replication.verify app.wellFormed envelope n.committedPosition n.leadership.leader

/-- `prepare_replica` -/
def prepareReplica (saves : Bool) (envelope : Envelope μ) : EStateM PyError (Node A μ) Unit := do
  lift (verifyEnvelope app keys self (← get) envelope)
  match (← get).replicationPending with
  | some pending =>
    if pending = envelope then return ()
    else throw (.protocol "replica already has a different prepared mutation")
  | none =>
    onApp (app.trial envelope.mutation)
    modify fun n => n.setPending (some envelope)
    save saves

/-- `commit_replica` -/
def commitReplica (saves : Bool) (envelope : Envelope μ) : EStateM PyError (Node A μ) ρ := do
  lift (verifyEnvelope app keys self (← get) envelope)
  if (← get).replicationPending ≠ some envelope then
    throw (.protocol "replica commit does not match its prepared mutation")
  else
    let result ← onApp (app.apply envelope.mutation)
    modify fun n => n.appendLog envelope
    save saves
    return result

/-- `abort_replica` -/
def abortReplica (saves : Bool) (envelope : Envelope μ) : EStateM PyError (Node A μ) Unit := do
  lift (verifyEnvelope app keys self (← get) envelope)
  if (← get).replicationPending.any (· != envelope) then
    throw (.protocol "replica abort does not match its prepared mutation")
  else
    modify fun n => n.setPending none
    save saves

/-! ## The leader -/

/-- `_abort_uncommitted_primary`, once the peers have been told. -/
def abortUncommitted (saves : Bool) : EStateM PyError (Node A μ) Unit := do
  if (← get).replicationPending.isSome then
    modify fun n => n.setPending none
    save saves

/-- The first part of `replicate_mutation`: try a mutation, sign it and keep it as the prepared
record. -/
def propose (saves : Bool) (mutation : μ) : EStateM PyError (Node A μ) (Envelope μ) := do
  onApp (app.trial mutation)
  let envelope ← lift (keys.replication.sign self ((← get).committedPosition + 1) mutation)
  modify fun n => n.setPending (some envelope)
  save saves
  return envelope

/-- The end of `replicate_mutation` for a mutation that no replica has prepared. -/
def abandon (saves : Bool) : EStateM PyError (Node A μ) ρ := do
  modify fun n => n.setPending none
  save saves
  throw (.protocol "mutation did not receive a 2/3 cluster quorum")

/-- The second part of `replicate_mutation`: commit a mutation that a replica has prepared. -/
def commitLocal (saves : Bool) (envelope : Envelope μ) : EStateM PyError (Node A μ) ρ := do
  let result ← onApp (app.apply envelope.mutation)
  modify fun n => n.appendLog envelope
  save saves
  return result

/-! ## Leadership -/

/-- `receive_heartbeat` -/
def receiveHeartbeat (saves : Bool) (heartbeat : Heartbeat) : EStateM PyError (Node A μ) Unit := do
  lift (require (keys.failover.verifyHeartbeat heartbeat)
    (.protocol "invalid leadership heartbeat"))
  let n ← get
  lift (require (heartbeat.nonce == n.committedPosition)
    (.protocol "heartbeat position differs from local replica"))
  if heartbeat.tick ≠ n.leadership.lastHeartbeatTick then
    let leadership ← lift (n.leadership.heartbeat heartbeat.leader heartbeat.term heartbeat.tick
      heartbeat.nonce)
    modify fun n => { n with leadership := leadership }
    save saves

/-- `receive_timeout_vote`, at the time `now` in ticks. It changes nothing. -/
def receiveTimeoutVote (now : ℤ) (n : Node A μ) (vote : FailureVote) (digest : String) :
    Except PyError FailureVote := do
  require (n.leadership.leader != .tertiary) (.protocol "ordered leadership is exhausted")
  let successor ← n.leadership.successor
  let witness ← orRaise (Role.witness? n.leadership.leader successor) .stopIteration
  require (self == witness && vote.voter == successor && keys.failover.verifyVote vote &&
      vote.term == n.leadership.term + 1 && vote.accused == n.leadership.leader &&
      vote.candidate == successor &&
      decide (n.leadership.timeoutTicks ≤ vote.observedTick - n.leadership.lastHeartbeatTick) &&
      decide (|vote.observedTick - now| ≤ 1) && vote.committedNonce == n.committedPosition &&
      n.replicationPending.isNone && (n.replicationLog.length : ℤ) == n.committedPosition &&
      digest == app.digest n.app)
    (.protocol "timeout vote lacks a matching clean replica")
  return keys.failover.vote { vote.toBallot with voter := self }

/-- `record_leadership_certificate` -/
def recordCertificate (saves : Bool) (certificate : LeadershipCertificate) :
    EStateM PyError (Node A μ) Unit := do
  let n ← get
  if n.leadership.certificates.getLast? ≠ some certificate then
    lift (require (n.leadership.committedNonce == n.committedPosition)
      (.protocol "leadership position is behind the replica"))
    let leadership ← lift (n.leadership.acceptCertificate keys.failover certificate)
    modify fun n => { n with leadership := leadership, replicationPending := none }
    save saves

/-- The first lines of `failover_step`: start the clock of a new node. -/
def startClock (saves : Bool) (tick : ℤ) : EStateM PyError (Node A μ) Unit := do
  if (← get).leadership.lastHeartbeatTick = 0 then
    modify fun n => { n with leadership := { n.leadership with lastHeartbeatTick := tick } }
    save saves

/-- The leader's part of `failover_step`: record its own heartbeat. -/
def recordBeat (saves : Bool) (tick : ℤ) : EStateM PyError (Node A μ) Unit := do
  let n ← get
  if n.leadership.lastHeartbeatTick < tick then
    let leadership ← lift (n.leadership.heartbeat self n.leadership.term tick n.committedPosition)
    modify fun n => { n with leadership := leadership }
    save saves

/-! ## Restarts -/

/-- The leader that must have signed the envelope after a position. -/
def expectedLeader (certificates : List LeadershipCertificate) (lastNonce : ℤ) : Role :=
  certificates.foldl (fun expected c => if c.committedNonce ≤ lastNonce then c.leader else expected)
    .primary

/-- Check the envelopes of a log one after the other; the nonce of the last one. -/
def checkEnvelopes (certificates : List LeadershipCertificate) :
    ℤ → List (Envelope μ) → Except PyError ℤ
  | lastNonce, [] => .ok lastNonce
  | lastNonce, envelope :: envelopes => do
    keys.replication.verify app.wellFormed envelope lastNonce
      (expectedLeader certificates lastNonce)
    checkEnvelopes certificates envelope.nonce envelopes

/-- The check of a saved log in the constructor. -/
def checkLog (certificates : List LeadershipCertificate) (s : Saved A μ) : Except PyError Unit := do
  if s.replicationLog.isEmpty then return ()
  else
    require (decide (0 ≤ s.committedPosition - s.replicationLog.length))
      (.protocol "replication log exceeds committed position")
    let lastNonce ← checkEnvelopes app keys certificates
      (s.committedPosition - s.replicationLog.length) s.replicationLog
    require (lastNonce == s.committedPosition)
      (.protocol "replication log does not match committed position")

/-- The constructor of a node whose file holds `s`. On a node without a role the fields of the
cluster are as at the start, and pass their checks. -/
def restart (load : A → Except PyError A) (s : Saved A μ) : Except PyError (Node A μ) := do
  let a ← load s.app
  let leadership ← LeadershipState.fromSnapshot keys.failover s.leadership
  require (leadership.committedNonce == s.committedPosition)
    (.protocol "leadership record does not match committed replica position")
  checkLog app keys leadership.certificates s
  return {
    app := a
    replicationNonces := s.replicationNonces
    replicationLog := s.replicationLog
    replicationPending := s.replicationPending
    leadership := leadership
    hasStore := true
    disk := some s }

/-! ## A mutation from start to end -/

/-- What the world does to a mutation: which calls of `_save` return, whether a replica has
prepared it, and whether a replica has confirmed its commit. -/
structure Outcome where
  abortSaves : Bool
  pendingSaves : Bool
  finalSaves : Bool
  acknowledged : Bool
  confirmed : Bool
deriving DecidableEq

/-- What the client of a committed mutation is told. -/
def commitUncertain : PyError :=
  .commitUncertain ("commit outcome is uncertain: Primary committed locally but no replica " ++
    "confirmed; inspect cluster state before retrying")

/-- `replicate_mutation` -/
def replicateMutation (o : Outcome) (mutation : μ) : EStateM PyError (Node A μ) ρ := do
  if (← get).leadership.leader ≠ self then
    throw (.protocol "old Primary is fenced by a leadership certificate")
  else
    abortUncommitted o.abortSaves
    let envelope ← propose app keys self o.pendingSaves mutation
    if o.acknowledged then
      let result ← commitLocal app o.finalSaves envelope
      if o.confirmed then return result else throw commitUncertain
    else abandon o.finalSaves

/-! ## Saving -/

section Saving

omit [DecidableEq μ]

variable {n : Node A μ}

/-- The node after it has saved its state, if it is configured to. -/
def saved (n : Node A μ) : Node A μ :=
  if n.hasStore then { n with disk := some n.toSaved } else n

/-- A call of `_save` returns: the node has no file, or it can be written. -/
def CanSave (n : Node A μ) (returns : Bool) : Prop := n.hasStore = true → returns = true

@[simp] lemma toSaved_saved (n : Node A μ) : n.saved.toSaved = n.toSaved := by
  unfold saved
  split_ifs <;> rfl

@[simp] lemma hasStore_saved (n : Node A μ) : n.saved.hasStore = n.hasStore := by
  unfold saved
  split_ifs <;> rfl

@[simp] lemma toSaved_setPending (n : Node A μ) (pending : Option (Envelope μ)) :
    (n.setPending pending).toSaved = { n.toSaved with replicationPending := pending } := rfl

@[simp] lemma toSaved_setApp (n : Node A μ) (a : A) :
    (n.setApp a).toSaved = { n.toSaved with app := a } := rfl

@[simp] lemma hasStore_setApp (n : Node A μ) (a : A) : (n.setApp a).hasStore = n.hasStore := rfl

@[simp] lemma hasStore_setPending (n : Node A μ) (pending : Option (Envelope μ)) :
    (n.setPending pending).hasStore = n.hasStore := rfl

@[simp] lemma hasStore_appendLog (n : Node A μ) (envelope : Envelope μ) :
    (n.appendLog envelope).hasStore = n.hasStore := rfl

/-- Saving changes nothing in memory, and raises where the file cannot be written. -/
lemma ends_save {returns : Bool} {P : Unit → Node A μ → Prop} {E : PyError → Node A μ → Prop} :
    Ends (save returns) n P E ↔ (n.CanSave returns → P () n.saved) ∧
      (¬ n.CanSave returns → E (.protocol "unable to persist ledger state") n) := by
  unfold save
  rw [ends_bind, ends_get]
  cases hstore : n.hasStore with
  | false => simp [CanSave, saved, hstore]
  | true =>
    cases returns with
    | false => simp [CanSave, hstore]
    | true => simp [CanSave, saved, hstore]

/-- A step of the application changes nothing else. -/
lemma ends_onApp {α : Type} {x : EStateM PyError A α} {P : α → Node A μ → Prop}
    {E : PyError → Node A μ → Prop} : Ends (onApp x) n P E ↔
      Ends x n.app (fun a t => P a (n.setApp t)) fun e t => E e (n.setApp t) :=
  ends_onPart

end Saving

end Node

end SplitChain
