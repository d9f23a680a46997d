import SplitChain.Model.Election

set_option relaxedAutoImplicit false
set_option autoImplicit false

/-!
# What an operation does to the record of a node

The record of a node is what is replicated: the committed nonces, the log and the prepared
envelope. Every operation of a node whose saves return either leaves the record as it is or saves a
new one, so that a node that comes back from its file has the record that it had in memory.

## Main definitions

* `SplitChain.Saved.record` — the nonces, the log and the prepared envelope.
* `SplitChain.Node.Kept` — the file holds the record in memory.
* `SplitChain.Node.Turns` — what an operation makes of the record.

## Main results

* `SplitChain.Node.turns_prepareReplica`, `turns_commitReplica`, `turns_abortReplica`,
  `turns_propose`, `turns_commitLocal`, `turns_clear`, `turns_recordCertificate` — one for each
  operation that changes the record.
* `SplitChain.Node.Kept.reboot` — a node that comes back.
-/

namespace SplitChain

open Raise Proc

variable {A μ ρ : Type}

/-- What is replicated: the committed nonces, the log and the prepared envelope. -/
def Saved.record (s : Saved A μ) : Dict Role ℤ × List (Envelope μ) × Option (Envelope μ) :=
  (s.replicationNonces, s.replicationLog, s.replicationPending)

namespace Node

variable {app : App A μ ρ} {keys : Keyring μ} {self : Role} {n t : Node A μ}
  {envelope : Envelope μ} {r : Dict Role ℤ × List (Envelope μ) × Option (Envelope μ)}

/-- The file of a node holds the record that the node has in memory; a node that has saved nothing
has an empty one. -/
def Kept (n : Node A μ) : Prop :=
  n.hasStore = true → (n.disk.map Saved.record).getD (∅, [], none) = n.record

/-- A new node has an empty record. -/
lemma kept_fresh (a : A) (hasStore : Bool) : (fresh a hasStore : Node A μ).Kept := fun _ => rfl

/-- **What an operation makes of the record**: it becomes `r`, and the file goes with it. -/
structure Turns (n : Node A μ) (r : Dict Role ℤ × List (Envelope μ) × Option (Envelope μ))
    (t : Node A μ) : Prop where
  store : t.hasStore = n.hasStore
  record : t.record = r
  kept : n.Kept → t.Kept

/-- Nothing has happened to the record. -/
lemma turns_of_same (hstore : t.hasStore = n.hasStore) (hrecord : t.record = n.record)
    (hdisk : t.disk = n.disk) : n.Turns n.record t where
  store := hstore
  record := hrecord
  kept h hs := by
    rw [hdisk, hrecord]
    exact h (hstore.symm.trans hs)

/-- The node itself. -/
lemma turns_self : n.Turns n.record n := turns_of_same rfl rfl rfl

/-- A record that has been saved. -/
lemma turns_saved {m : Node A μ} (hstore : m.hasStore = n.hasStore) (hrecord : m.record = r) :
    n.Turns r m.saved where
  store := (hasStore_saved m).trans hstore
  record := (congrArg Saved.record (toSaved_saved m)).trans hrecord
  kept _ hs := by
    rw [hasStore_saved] at hs
    rw [toSaved_saved, saved, if_pos hs]
    rfl

/-- What holds of the record, position included, is read off it. -/
lemma Turns.position (h : n.Turns r t) : t.committedPosition = r.1.values.max?.getD 0 := by
  rw [← h.record]
  rfl

lemma Turns.log (h : n.Turns r t) : t.replicationLog = r.2.1 := by
  rw [← h.record]
  rfl

lemma Turns.pending (h : n.Turns r t) : t.replicationPending = r.2.2 := by
  rw [← h.record]
  rfl

/-- Saves return. -/
lemma canSave_true (n : Node A μ) : n.CanSave true := fun _ => rfl

section Operations

variable [DecidableEq μ] (app keys self n envelope)

/-- **Preparing** keeps the envelope as the prepared record. -/
theorem turns_prepareReplica : Ends (prepareReplica app keys self true envelope) n
    (fun _ t => verifyEnvelope app keys self n envelope = .ok () ∧
      n.Turns (n.replicationNonces, n.replicationLog, some envelope) t)
    fun _ t => n.Turns n.record t := by
  rw [ends_prepareReplica]
  refine ⟨fun _ _ => turns_self, fun hverify => ⟨fun hsame => ⟨hverify, ?_⟩,
    fun _ _ _ => turns_self, fun _ => ?_⟩⟩
  · rw [← hsame]
    exact turns_self
  · refine ends_iff.mpr ⟨fun _ a _ => ⟨fun _ => ⟨hverify, turns_saved rfl rfl⟩, fun hnot => ?_⟩,
      fun _ a _ => turns_of_same rfl rfl rfl⟩
    exact absurd (canSave_true n) hnot

/-- **Committing** appends the prepared envelope to the log. -/
theorem turns_commitReplica : Ends (commitReplica app keys self true envelope) n
    (fun _ t => verifyEnvelope app keys self n envelope = .ok () ∧
      n.replicationPending = some envelope ∧
      n.Turns (n.replicationNonces.set envelope.leader envelope.nonce,
        n.replicationLog ++ [envelope], none) t)
    fun _ t => n.Turns n.record t := by
  rw [ends_commitReplica]
  refine ⟨fun _ _ => turns_self, fun hverify => ⟨fun _ => turns_self, fun hpending => ?_⟩⟩
  refine ends_iff.mpr ⟨fun _ b _ => ⟨fun _ => ⟨hverify, hpending, turns_saved rfl rfl⟩,
    fun hnot => absurd (canSave_true n) hnot⟩, fun _ b _ => turns_of_same rfl rfl rfl⟩

/-- **Aborting** drops the prepared envelope. -/
theorem turns_abortReplica : Ends (abortReplica app keys self true envelope) n
    (fun _ t => verifyEnvelope app keys self n envelope = .ok () ∧
      (∀ pending, n.replicationPending = some pending → pending = envelope) ∧
      n.Turns (n.replicationNonces, n.replicationLog, none) t)
    fun _ t => n.Turns n.record t := by
  rw [ends_abortReplica]
  refine ⟨fun _ _ => turns_self, fun hverify => ⟨fun _ => turns_self, fun hpending =>
    ⟨fun _ => ⟨hverify, hpending, turns_saved rfl rfl⟩, fun hnot => ?_⟩⟩⟩
  exact absurd (canSave_true n) hnot

omit [DecidableEq μ] in
/-- **Proposing** keeps a new envelope, numbered after the position, as the prepared record. -/
theorem turns_propose (mutation : μ) : Ends (propose app keys self true mutation) n
    (fun e t => e = ⟨self, n.committedPosition + 1, mutation,
        keys.replication.signature self (n.committedPosition + 1) mutation⟩ ∧
      n.Turns (n.replicationNonces, n.replicationLog, some e) t)
    fun _ t => n.Turns n.record t := by
  unfold propose
  rw [ends_bind, ends_onApp, ends_iff]
  refine ⟨fun _ a _ => ?_, fun _ a _ => turns_of_same rfl rfl rfl⟩
  rw [ends_bind, ends_get, ends_bind, ends_lift]
  refine ⟨fun e he => ?_, fun _ _ => turns_of_same rfl rfl rfl⟩
  simp only [ReplicationAuthenticator.sign, bind_eq_ok, require_eq_ok, exists_const,
    pure_eq_ok] at he
  obtain ⟨-, rfl⟩ := he
  rw [ends_bind, ends_modify, ends_bind, ends_save]
  exact ⟨fun _ => ends_pure.mpr ⟨rfl, turns_saved rfl rfl⟩,
    fun hnot => absurd (canSave_true _) hnot⟩

omit [DecidableEq μ] in
/-- **Committing as the leader** appends the envelope to the log. -/
theorem turns_commitLocal : Ends (commitLocal app true envelope) n
    (fun _ t => n.Turns (n.replicationNonces.set envelope.leader envelope.nonce,
      n.replicationLog ++ [envelope], none) t)
    fun _ t => n.Turns n.record t := by
  unfold commitLocal
  rw [ends_bind, ends_onApp, ends_iff]
  refine ⟨fun _ a _ => ?_, fun _ a _ => turns_of_same rfl rfl rfl⟩
  rw [ends_bind, ends_modify, ends_bind, ends_save]
  exact ⟨fun _ => ends_pure.mpr (turns_saved rfl rfl), fun hnot => absurd (canSave_true _) hnot⟩

variable {keys n}

omit [DecidableEq μ] in
/-- **Clearing** drops the prepared envelope. -/
theorem turns_clear : n.Turns (n.replicationNonces, n.replicationLog, none)
    (n.setPending none).saved :=
  turns_saved rfl rfl

omit [DecidableEq μ] in
/-- **A certificate** is adopted at the position that it names, and the prepared envelope is
dropped, or nothing happens. -/
theorem turns_recordCertificate {c : LeadershipCertificate} :
    Ends (recordCertificate keys true c) n
      (fun _ t => (t = n ∧ n.leadership.certificates.getLast? = some c) ∨
        (c.committedNonce = n.committedPosition ∧
          n.leadership.certificates.getLast? ≠ some c ∧
          (∃ leadership, n.leadership.acceptCertificate keys.failover c = .ok leadership ∧
            t.leadership = leadership) ∧
          n.Turns (n.replicationNonces, n.replicationLog, none) t))
      fun _ t => t = n := by
  refine ends_recordCertificate (fun hlast => .inl ⟨rfl, hlast⟩) (fun _ => rfl)
    fun leadership hnew hposition haccept => ⟨fun _ => .inr ⟨?_, hnew, ⟨leadership, haccept, ?_⟩,
      turns_saved rfl rfl⟩, fun hnot => absurd (fun _ => rfl) hnot⟩
  · rcases LeadershipState.acceptCertificate_eq_ok haccept with ⟨hlast, -⟩ | ⟨-, -, -, hnonce, -⟩
    · exact absurd hlast hnew
    · exact hnonce.trans hposition
  · exact congrArg (fun s : Saved A μ => s.leadership) (toSaved_saved _)

end Operations

/-- What a node does in the background: all that leaves its record as it is. -/
inductive Background (A : Type) where
  | serve (app : A)
  | heartbeat (heartbeat : Heartbeat)
  | startClock (tick : ℤ)
  | recordBeat (tick : ℤ)

/-- What a node does in the background is among its operations. -/
def Background.operation : Background A → Operation A μ
  | .serve a => .serve true a
  | .heartbeat beat => .heartbeat true beat
  | .startClock tick => .startClock true tick
  | .recordBeat tick => .recordBeat true tick

/-- Whether it goes on without the lock of the node. -/
def Background.lockless : Background A → Bool
  | .startClock _ => true
  | _ => false

/-- Another leadership state with the same record is saved. -/
lemma turns_setLeadership {leadership : LeadershipState} :
    n.Turns n.record ({ n with leadership := leadership } : Node A μ).saved :=
  turns_saved rfl rfl

/-- **The background** leaves the record as it is. -/
theorem turns_background [DecidableEq μ] (b : Background A) :
    n.Turns n.record ((b.operation : Operation A μ).run app keys self n) := by
  cases b with
  | serve a => exact after_iff.mpr (ends_modify_save.mpr ⟨fun _ => turns_saved rfl rfl,
      fun hnot => absurd (canSave_true _) hnot⟩)
  | heartbeat beat =>
    exact after_iff.mpr (ends_receiveHeartbeat turns_self (fun _ => turns_self)
      fun leadership _ _ => ⟨fun _ => turns_setLeadership,
        fun hnot => absurd (canSave_true _) hnot⟩)
  | startClock tick =>
    refine after_iff.mpr ?_
    unfold startClock
    rw [ends_bind, ends_get]
    split_ifs
    · exact ends_modify_save.mpr ⟨fun _ => turns_setLeadership,
        fun hnot => absurd (canSave_true _) hnot⟩
    · exact turns_self
  | recordBeat tick =>
    refine after_iff.mpr ?_
    unfold recordBeat
    rw [ends_bind, ends_get]
    split_ifs
    · rw [ends_bind, ends_lift]
      exact ⟨fun leadership _ => ends_modify_save.mpr ⟨fun _ => turns_setLeadership,
        fun hnot => absurd (canSave_true _) hnot⟩, fun _ _ => turns_self⟩
    · exact turns_self

/-- **A node that comes back** has its record. -/
theorem Kept.reboot [DecidableEq μ] {boot : A} (h : n.Kept)
    (hreboot : n.reboot app keys boot = some t) : t.record = n.record ∧ t.Kept := by
  unfold Node.reboot at hreboot
  split_ifs at hreboot with hstore
  have hfile := h hstore
  cases hdisk : n.disk with
  | none =>
    rw [hdisk] at hreboot hfile
    obtain rfl := Option.some.inj hreboot
    exact ⟨hfile, kept_fresh boot true⟩
  | some s =>
    rw [hdisk] at hreboot hfile
    have hrestart : restart app keys app.load s = .ok t := toOption_eq_some.mp hreboot
    unfold restart at hrestart
    simp only [bind_eq_ok, require_eq_ok, exists_const, pure_eq_ok] at hrestart
    obtain ⟨a, -, leadership, -, -, -, -, rfl⟩ := hrestart
    exact ⟨hfile, fun _ => rfl⟩

end Node

end SplitChain
