import SplitChain.Library.Transition
import SplitChain.Model.Election
import SplitChain.Model.RawReplica

set_option relaxedAutoImplicit false
set_option autoImplicit false

/-!
# Nodes that can restart

The constructor of a node checks what its file says of the cluster: the history of certificates, the
committed position against the leadership record, and the log, whose envelopes have to be numbered
one after the other up to the committed position, each signed by the leader of its time. The calls
that commit an envelope only ask for a larger number. So a node can restart as long as the envelopes
that it commits are consecutive, and not after one that leaves a gap in its log.

## Main definitions

* `SplitChain.LeadershipState.Valid` — the constructor accepts a leadership record.
* `SplitChain.RawSaved.checkCluster` — the checks of the constructor.
* `SplitChain.RawNode.perform`, `SplitChain.RawNode.clusterStep` — the calls that change the record
  of the cluster.
* `SplitChain.RawNode.Restarts` — the file is accepted, and gives back what is in memory.
* `SplitChain.RawNode.Consecutive` — the condition on commits.
* `SplitChain.RawNode.Recorded` — the invariant.

## Main results

* `SplitChain.RawNode.saved_restarts_iff` — the nodes that can restart after every call.
* `SplitChain.RawNode.gap_not_restarted` — a log with a gap.
-/

namespace SplitChain

open Raise Proc

variable {ν : Type} [PyNumber ν] {A ρ : Type}

/-! ## Leadership records -/

namespace LeadershipState

variable {authority : FailoverAuthority} {s t : LeadershipState}

/-- `snapshot`: what is recorded of a leadership state, which is all but the votes. -/
def snapshot (s : LeadershipState) : LeadershipState := { s with votes := ∅ }

/-- The record of a leadership state is accepted. -/
def Valid (authority : FailoverAuthority) (s : LeadershipState) : Prop :=
  fromSnapshot authority s = .ok s.snapshot

/-- What an accepted record has passed. -/
lemma valid_iff : s.Valid authority ↔ 2 ≤ s.timeoutTicks ∧
    (s.term = s.certificates.length ∧ 0 ≤ s.term ∧ s.term < Role.order.length ∧
      0 ≤ s.lastHeartbeatTick ∧ 0 ≤ s.committedNonce) ∧
    ∃ tick nonce, checkHistory authority s.timeoutTicks 1 .primary 0 0 s.certificates =
      .ok (s.leader, tick, nonce) ∧ tick ≤ s.lastHeartbeatTick ∧ nonce ≤ s.committedNonce := by
  unfold Valid fromSnapshot snapshot
  simp only [bind_eq_ok, require_eq_ok, exists_const, pure_eq_ok, Bool.and_eq_true, beq_iff_eq,
    decide_eq_true_iff, Prod.exists, and_true, and_assoc]
  constructor
  · rintro ⟨htimeout, hterm, hpos, hlt, htick, hnonce, leader, tick, nonce, hhistory, rfl, h⟩
    exact ⟨htimeout, hterm, hpos, hlt, htick, hnonce, tick, nonce, hhistory, h⟩
  · rintro ⟨htimeout, hterm, hpos, hlt, htick, hnonce, tick, nonce, hhistory, h⟩
    exact ⟨htimeout, hterm, hpos, hlt, htick, hnonce, _, tick, nonce, hhistory, rfl, h⟩

/-- A record that has been restored is accepted. -/
lemma valid_of_fromSnapshot (h : fromSnapshot authority s = .ok t) :
    s.Valid authority ∧ t = s.snapshot := by
  have heq : t = s.snapshot := by
    unfold fromSnapshot at h
    simp only [bind_eq_ok, require_eq_ok, exists_const, pure_eq_ok] at h
    obtain ⟨-, -, -, -, -, -, rfl⟩ := h
    rfl
  exact ⟨h.trans (congrArg Except.ok heq), heq⟩

/-- Later heartbeats and positions are accepted as well. -/
lemma Valid.advance (h : s.Valid authority) (hhistory : t.history = s.history)
    (htimeout : t.timeoutTicks = s.timeoutTicks) (htick : s.lastHeartbeatTick ≤ t.lastHeartbeatTick)
    (hnonce : s.committedNonce ≤ t.committedNonce) : t.Valid authority := by
  obtain ⟨hterm, hleader, hcertificates⟩ := history_eq_iff.mp hhistory
  obtain ⟨htwo, ⟨hlength, hpos, hlt, htick0, hnonce0⟩, tick, nonce, hcheck, htick', hnonce'⟩ :=
    valid_iff.mp h
  refine valid_iff.mpr ⟨htimeout ▸ htwo, ⟨?_, hterm ▸ hpos, hterm ▸ hlt, htick0.trans htick,
    hnonce0.trans hnonce⟩, tick, nonce, ?_, htick'.trans htick, hnonce'.trans hnonce⟩
  · rw [hterm, hcertificates, hlength]
  · rw [htimeout, hcertificates, hleader]
    exact hcheck

lemma snapshot_eq_iff : s.snapshot = t.snapshot ↔ s.timeoutTicks = t.timeoutTicks ∧
    s.term = t.term ∧ s.leader = t.leader ∧ s.lastHeartbeatTick = t.lastHeartbeatTick ∧
    s.committedNonce = t.committedNonce ∧ s.certificates = t.certificates := by
  simp only [snapshot, mk.injEq, true_and]

/-- The votes are not recorded. -/
lemma Valid.congr (h : s.Valid authority) (hsame : t.snapshot = s.snapshot) :
    t.Valid authority := by
  obtain ⟨htimeout, hterm, hleader, htick, hnonce, hcertificates⟩ := snapshot_eq_iff.mp hsame
  exact h.advance (history_eq_iff.mpr ⟨hterm, hleader, hcertificates⟩) htimeout htick.ge hnonce.ge

/-- **A certificate that is adopted** keeps the record acceptable. -/
lemma Valid.accept (h : s.Valid authority) {c : LeadershipCertificate}
    (haccept : s.acceptCertificate authority c = .ok t) : t.Valid authority := by
  unfold acceptCertificate at haccept
  split_ifs at haccept with hmem
  · simp only [bind_eq_ok, require_eq_ok, exists_const, pure_eq_ok] at haccept
    obtain ⟨-, rfl⟩ := haccept
    exact h
  · simp only [bind_eq_ok, require_eq_ok, exists_const, pure_eq_ok, orRaise_eq_ok] at haccept
    obtain ⟨next, -, -, -, first, -, verified, hverified, rfl⟩ := haccept
    obtain ⟨hvalid, rfl⟩ := valid_of_fromSnapshot hverified
    exact hvalid.advance rfl rfl le_rfl le_rfl

/-- Positions only grow along a history that has been checked, and its last leader is the one that
is expected after it. -/
lemma expectedLeader_of_checkHistory {timeoutTicks expectedTerm tick nonce tick' nonce' : ℤ}
    {leader leader' : Role} {cs : List LeadershipCertificate} {position : ℤ}
    (h : checkHistory authority timeoutTicks expectedTerm leader tick nonce cs =
      .ok (leader', tick', nonce')) (hposition : nonce' ≤ position) :
    nonce ≤ nonce' ∧ cs.foldl (fun expected c =>
      if c.committedNonce ≤ position then c.leader else expected) leader = leader' := by
  induction cs generalizing expectedTerm leader tick nonce with
  | nil =>
    obtain ⟨rfl, -, rfl⟩ : leader = leader' ∧ tick = tick' ∧ nonce = nonce' := by
      simpa [checkHistory] using h
    exact ⟨le_rfl, rfl⟩
  | cons c cs ih =>
    simp only [checkHistory, bind_eq_ok, require_eq_ok, exists_const, orRaise_eq_ok, continues,
      Bool.and_eq_true, beq_iff_eq, decide_eq_true_iff] at h
    obtain ⟨next, -, hc, hrest⟩ := h
    obtain ⟨hgrow, hlast⟩ := ih hrest
    have hleader : c.leader = next := hc.1.1.1.1.1.2
    have hnonce : nonce ≤ c.committedNonce := hc.1.1.2
    refine ⟨hnonce.trans hgrow, ?_⟩
    rw [List.foldl_cons, if_pos (hgrow.trans hposition), hleader]
    exact hlast

/-- The leader of a record is the one that is expected to sign at its position. -/
lemma Valid.expectedLeader (h : s.Valid authority) {position : ℤ}
    (hposition : s.committedNonce ≤ position) :
    Node.expectedLeader s.certificates position = s.leader := by
  obtain ⟨-, -, tick, nonce, hcheck, -, hnonce⟩ := valid_iff.mp h
  exact (expectedLeader_of_checkHistory hcheck (hnonce.trans hposition)).2

end LeadershipState

/-! ## The constructor -/

section Constructor

variable (py : PyLib ν) (scheme : EnvelopeScheme) (authority : FailoverAuthority)

/-- Check the envelopes of a log one after the other; the nonce of the last one. -/
def checkRawEnvelopes (certificates : List LeadershipCertificate) :
    ℤ → List (RawEnvelope ν) → Except PyError ℤ
  | lastNonce, [] => .ok lastNonce
  | lastNonce, envelope :: envelopes => do
    let m ← envelope.verify py scheme lastNonce (Node.expectedLeader certificates lastNonce)
    checkRawEnvelopes certificates m.nonce envelopes

/-- What the constructor checks of a saved state that belongs to the cluster; the leadership state
that it restores. -/
def RawSaved.checkCluster (s : RawSaved A ν) : Except PyError LeadershipState := do
  let leadership ← LeadershipState.fromSnapshot authority s.leadership
  require (leadership.committedNonce == s.committedPosition)
    (.protocol "leadership record does not match committed replica position")
  if s.replicationLog.isEmpty then return leadership
  else
    require (decide (0 ≤ s.committedPosition - s.replicationLog.length))
      (.protocol "replication log exceeds committed position")
    let lastNonce ← checkRawEnvelopes py scheme leadership.certificates
      (s.committedPosition - s.replicationLog.length) s.replicationLog
    require (lastNonce == s.committedPosition)
      (.protocol "replication log does not match committed position")
    return leadership

/-- The constructor of a node whose file holds `s`. -/
def RawSaved.restart (load : A → Except PyError A) (s : RawSaved A ν) :
    Except PyError (RawNode A ν) := do
  let app ← load s.app
  let leadership ← s.checkCluster py scheme authority
  return {
    app := app
    replicationNonces := s.replicationNonces
    replicationLog := s.replicationLog
    replicationPending := s.replicationPending
    leadership := leadership
    hasStore := true
    disk := some s }

end Constructor

/-! ## The calls -/

namespace RawNode

/-- Set the leadership state. -/
def setLeadership (n : RawNode A ν) (leadership : LeadershipState) : RawNode A ν :=
  { n with leadership := leadership }

section Calls

variable (py : PyLib ν) (scheme : EnvelopeScheme) (authority : FailoverAuthority)
  (app : App A (Json ν) ρ) (role : Role)

/-- `receive_heartbeat` -/
def receiveHeartbeat (saves : Bool) (heartbeat : Heartbeat) :
    EStateM PyError (RawNode A ν) Unit := do
  lift (require (authority.verifyHeartbeat heartbeat) (.protocol "invalid leadership heartbeat"))
  let n ← get
  lift (require (heartbeat.nonce == n.committedPosition)
    (.protocol "heartbeat position differs from local replica"))
  if heartbeat.tick ≠ n.leadership.lastHeartbeatTick then
    let leadership ← lift (n.leadership.heartbeat heartbeat.leader heartbeat.term heartbeat.tick
      heartbeat.nonce)
    modify fun n => n.setLeadership leadership
    save saves

/-- `record_leadership_certificate` -/
def recordCertificate (saves : Bool) (certificate : LeadershipCertificate) :
    EStateM PyError (RawNode A ν) Unit := do
  let n ← get
  if n.leadership.certificates.getLast? ≠ some certificate then
    lift (require (n.leadership.committedNonce == n.committedPosition)
      (.protocol "leadership position is behind the replica"))
    let leadership ← lift (n.leadership.acceptCertificate authority certificate)
    modify fun n => (n.setLeadership leadership).setPending none
    save saves

/-- The first lines of `failover_step`: start the clock of a new node. -/
def startClock (saves : Bool) (tick : ℤ) : EStateM PyError (RawNode A ν) Unit := do
  if (← get).leadership.lastHeartbeatTick = 0 then
    modify fun n => n.setLeadership { n.leadership with lastHeartbeatTick := tick }
    save saves

/-- The leader's part of `failover_step`. -/
def recordBeat (saves : Bool) (tick : ℤ) : EStateM PyError (RawNode A ν) Unit := do
  let n ← get
  if n.leadership.lastHeartbeatTick < tick then
    let leadership ← lift (n.leadership.heartbeat role n.leadership.term tick n.committedPosition)
    modify fun n => n.setLeadership leadership
    save saves

/-- What `failover_step` does to the node before it waits for an answer. -/
def failoverStep (saves : Bool) (tick : ℤ) : EStateM PyError (RawNode A ν) Unit := do
  startClock saves tick
  if (← get).leadership.leader = role then
    recordBeat role saves tick

/-- The calls that change the record of the cluster. What `failover_step` does after it has waited
is to prepare and commit envelopes of a peer, and to record a certificate. -/
inductive ClusterCall (ν : Type) where
  | prepare (envelope : RawEnvelope ν)
  | commit (envelope : RawEnvelope ν)
  | abort (envelope : RawEnvelope ν)
  | heartbeat (heartbeat : Heartbeat)
  | certificate (certificate : LeadershipCertificate)
  | failoverStep (tick : ℕ)

/-- The node after a call, whether it returns or raises. The file can be written. -/
def perform (n : RawNode A ν) : ClusterCall ν → RawNode A ν
  | .prepare envelope => after (prepareReplica py scheme app role true envelope) n
  | .commit envelope => after (commitReplica py scheme app role true envelope) n
  | .abort envelope => after (abortReplica py scheme role true envelope) n
  | .heartbeat beat => after (receiveHeartbeat authority true beat) n
  | .certificate c => after (recordCertificate authority true c) n
  | .failoverStep tick => after (RawNode.failoverStep role true tick) n

/-- Every call can be made at any time. -/
def clusterStep (n : RawNode A ν) (c : ClusterCall ν) : Option (RawNode A ν) :=
  some (n.perform py scheme authority app role c)

/-- A node that its constructor has made, from nothing or from a file. -/
def Constructed (n : RawNode A ν) : Prop :=
  (∃ a, n = fresh a true) ∨ ∃ s : RawSaved A ν, s.restart py scheme authority app.load = .ok n

/-- **The file of a node can be loaded**, and gives back the position, the log, the prepared record,
the leader and the term. -/
def Restarts (n : RawNode A ν) : Prop :=
  ∀ s, n.disk = some s → ∃ leadership, s.checkCluster py scheme authority = .ok leadership ∧
    s.committedPosition = n.committedPosition ∧ s.replicationLog = n.replicationLog ∧
    s.replicationPending = n.replicationPending ∧ leadership.leader = n.leadership.leader ∧
    leadership.term = n.leadership.term

/-- **Commits are consecutive.** A commit that is carried out has the number after the committed
position, or is the first one in the log. -/
def Consecutive (n : RawNode A ν) (c : ClusterCall ν) : Prop :=
  ∀ envelope, c = .commit envelope → ∀ m r a, Commits py scheme app role n envelope m r a →
    n.replicationLog = [] ∨ m.nonce = n.committedPosition + 1

end Calls

end RawNode

/-! ## Positions and logs -/

section Logs

variable (py : PyLib ν) (scheme : EnvelopeScheme)

/-- **Envelopes one after the other**: each is signed by the leader of its time and has the number
after the one before. -/
def Chained (certificates : List LeadershipCertificate) : ℤ → List (RawEnvelope ν) → Prop
  | _, [] => True
  | start, envelope :: envelopes =>
    (∃ m, envelope.verify py scheme start (Node.expectedLeader certificates start) = .ok m ∧
      m.nonce = start + 1) ∧ Chained certificates (start + 1) envelopes

variable {py : PyLib ν} {scheme : EnvelopeScheme} {certificates : List LeadershipCertificate}
  {start last : ℤ} {log log' : List (RawEnvelope ν)}

/-- A chain is checked up to its end. -/
lemma Chained.check (h : Chained py scheme certificates start log) :
    checkRawEnvelopes py scheme certificates start log = .ok (start + log.length) := by
  induction log generalizing start with
  | nil => simp [checkRawEnvelopes]
  | cons e log ih =>
    obtain ⟨⟨m, hm, hnonce⟩, hrest⟩ := h
    rw [checkRawEnvelopes, hm, ok_bind, hnonce, ih hrest, List.length_cons]
    push_cast
    exact congrArg Except.ok (by ring)

/-- A log that is checked has larger and larger numbers; if they end as early as they can, it is a
chain. -/
lemma chained_of_check (h : checkRawEnvelopes py scheme certificates start log = .ok last) :
    start + log.length ≤ last ∧
      (last = start + log.length → Chained py scheme certificates start log) := by
  induction log generalizing start with
  | nil =>
    obtain rfl : start = last := by simpa [checkRawEnvelopes] using h
    exact ⟨by simp, fun _ => trivial⟩
  | cons e log ih =>
    simp only [checkRawEnvelopes, bind_eq_ok] at h
    obtain ⟨m, hm, hrest⟩ := h
    have hnonce : start < m.nonce := (RawEnvelope.verify_eq_ok.mp hm).2.2.2.1
    obtain ⟨hle, hchain⟩ := ih hrest
    simp only [List.length_cons, Nat.cast_add, Nat.cast_one]
    refine ⟨by omega, fun hlast => ?_⟩
    have hnext : m.nonce = start + 1 := by omega
    exact ⟨⟨m, hm, hnext⟩, hnext ▸ hchain (by omega)⟩

/-- Chains that follow each other. -/
lemma chained_append : Chained py scheme certificates start (log ++ log') ↔
    Chained py scheme certificates start log ∧
      Chained py scheme certificates (start + log.length) log' := by
  induction log generalizing start with
  | nil => simp [Chained]
  | cons e log ih =>
    simp only [List.cons_append, Chained, ih, and_assoc, List.length_cons, Nat.cast_add,
      Nat.cast_one, add_assoc, add_comm (1 : ℤ)]

/-- The certificates matter as far as they name the leaders of the log. -/
lemma Chained.congr {certificates' : List LeadershipCertificate}
    (h : Chained py scheme certificates start log)
    (hleader : ∀ position < start + log.length, Node.expectedLeader certificates' position =
      Node.expectedLeader certificates position) : Chained py scheme certificates' start log := by
  induction log generalizing start with
  | nil => trivial
  | cons e log ih =>
    obtain ⟨hfirst, hrest⟩ := h
    simp only [List.length_cons, Nat.cast_add, Nat.cast_one] at hleader
    refine ⟨?_, ih hrest fun position hposition => hleader position (by omega)⟩
    rw [hleader start (by omega)]
    exact hfirst

/-- A chain that starts too late is refused. -/
lemma Chained.not_check (h : Chained py scheme certificates start log) (hlog : log ≠ [])
    {certificates' : List LeadershipCertificate} {start' : ℤ} (hstart : start < start') :
    checkRawEnvelopes py scheme certificates' start' (log ++ log') ≠ .ok last := by
  obtain ⟨e, rest, rfl⟩ := List.exists_cons_of_ne_nil hlog
  obtain ⟨⟨m, hm, hnonce⟩, -⟩ := h
  intro hcheck
  simp only [List.cons_append, checkRawEnvelopes, bind_eq_ok] at hcheck
  obtain ⟨m', hm', -⟩ := hcheck
  have hread := (RawEnvelope.verify_eq_ok.mp hm).1
  obtain ⟨hread', -, -, hlt, -⟩ := RawEnvelope.verify_eq_ok.mp hm'
  obtain rfl := Except.ok.inj (hread.symm.trans hread')
  omega

end Logs

/-! ## The invariant -/

section Invariant

variable (py : PyLib ν) (scheme : EnvelopeScheme) (authority : FailoverAuthority)

/-- A state that the constructor accepts. -/
structure RawSaved.Sound (s : RawSaved A ν) : Prop where
  leadership : s.leadership.Valid authority
  position : s.leadership.committedNonce = s.committedPosition
  start : 0 ≤ s.committedPosition - s.replicationLog.length
  log : Chained py scheme s.leadership.certificates
    (s.committedPosition - s.replicationLog.length) s.replicationLog

/-- Two states have the same record of the cluster. -/
structure RawSaved.SameCluster (s t : RawSaved A ν) : Prop where
  nonces : s.replicationNonces = t.replicationNonces
  log : s.replicationLog = t.replicationLog
  pending : s.replicationPending = t.replicationPending
  leadership : s.leadership.snapshot = t.leadership.snapshot

/-- **The invariant**: a node with a file, in a state that the constructor accepts, and whose file
has the same record of the cluster, if it has been written. -/
structure RawNode.Recorded (n : RawNode A ν) : Prop where
  store : n.hasStore = true
  sound : n.toRawSaved.Sound py scheme authority
  disk : ∀ s, n.disk = some s → s.SameCluster n.toRawSaved

end Invariant

variable {py : PyLib ν} {scheme : EnvelopeScheme} {authority : FailoverAuthority}

/-- The constructor accepts a sound state. -/
lemma RawSaved.Sound.checkCluster {s : RawSaved A ν} (h : s.Sound py scheme authority) :
    s.checkCluster py scheme authority = .ok s.leadership.snapshot := by
  refine bind_eq_ok.mpr ⟨_, h.leadership, bind_eq_ok.mpr
    ⟨(), require_eq_ok.mpr (beq_iff_eq.mpr h.position), ?_⟩⟩
  split_ifs
  · rfl
  · refine bind_eq_ok.mpr ⟨(), require_eq_ok.mpr (decide_eq_true h.start), ?_⟩
    refine bind_eq_ok.mpr ⟨_, h.log.check, bind_eq_ok.mpr ⟨(), ?_, rfl⟩⟩
    exact require_eq_ok.mpr (beq_iff_eq.mpr (sub_add_cancel _ _))

/-- A state that the constructor accepts is sound. -/
lemma RawSaved.sound_of_checkCluster {s : RawSaved A ν} {leadership : LeadershipState}
    (h : s.checkCluster py scheme authority = .ok leadership) :
    s.Sound py scheme authority ∧ leadership = s.leadership.snapshot := by
  simp only [RawSaved.checkCluster, bind_eq_ok, require_eq_ok, exists_const, beq_iff_eq] at h
  obtain ⟨restored, hrestored, hposition, hlog⟩ := h
  obtain ⟨hvalid, rfl⟩ := LeadershipState.valid_of_fromSnapshot hrestored
  have hnonneg : 0 ≤ s.committedPosition :=
    hposition ▸ (LeadershipState.valid_iff.mp hvalid).2.1.2.2.2.2
  split_ifs at hlog with hempty
  · rw [List.isEmpty_iff] at hempty
    obtain rfl := Except.ok.inj hlog
    refine ⟨⟨hvalid, hposition, ?_, ?_⟩, rfl⟩
    · rw [hempty, List.length_nil, Nat.cast_zero, sub_zero]
      exact hnonneg
    · rw [hempty]
      trivial
  · simp only [bind_eq_ok, require_eq_ok, exists_const, beq_iff_eq, decide_eq_true_iff,
      pure_eq_ok] at hlog
    obtain ⟨hstart, last, hcheck, hlast, rfl⟩ := hlog
    exact ⟨⟨hvalid, hposition, hstart, (chained_of_check hcheck).2 (by omega)⟩, rfl⟩

namespace RawNode

variable {app : App A (Json ν) ρ} {role : Role} {n : RawNode A ν}

/-- A node that is recorded can restart. -/
lemma Recorded.restarts (h : n.Recorded py scheme authority) : n.Restarts py scheme authority := by
  intro s hs
  obtain ⟨hnonces, hlog, hpending, hleadership⟩ := h.disk s hs
  have hposition : s.committedPosition = n.committedPosition :=
    congrArg (fun d : Dict String ℤ => d.values.max?.getD 0) hnonces
  obtain ⟨-, hterm, hleader, -, hnonce, hcertificates⟩ :=
    LeadershipState.snapshot_eq_iff.mp hleadership
  have hsound : s.Sound py scheme authority := by
    refine ⟨h.sound.leadership.congr hleadership, ?_, ?_, ?_⟩
    · rw [hposition, ← h.sound.position]
      exact hnonce
    · rw [hposition, hlog]
      exact h.sound.start
    · rw [hposition, hlog, hcertificates]
      exact h.sound.log
  exact ⟨_, hsound.checkCluster, hposition, hlog, hpending, hleader, hterm⟩

omit [PyNumber ν] in
/-- What is saved. -/
lemma stored_eq (hstore : n.hasStore = true) :
    n.stored true = { n with disk := some n.toRawSaved } := by
  rw [stored, if_pos (Bool.and_eq_true_iff.mpr ⟨hstore, rfl⟩)]

/-- A sound state is saved. -/
lemma recorded_stored (hstore : n.hasStore = true) (h : n.toRawSaved.Sound py scheme authority) :
    (n.stored true).Recorded py scheme authority := by
  rw [stored_eq hstore]
  exact ⟨hstore, h, fun s hs => Option.some.inj hs ▸ ⟨rfl, rfl, rfl, rfl⟩⟩

/-- What the constructor makes is recorded. -/
lemma Constructed.recorded (h : n.Constructed py scheme authority app) :
    n.Recorded py scheme authority := by
  rcases h with ⟨a, rfl⟩ | ⟨s, hs⟩
  · refine ⟨rfl, ⟨rfl, rfl, le_rfl, trivial⟩, fun s hs => by cases hs⟩
  · simp only [RawSaved.restart, bind_eq_ok, pure_eq_ok] at hs
    obtain ⟨a, -, leadership, hcheck, rfl⟩ := hs
    obtain ⟨⟨hvalid, hposition, hstart, hlog⟩, rfl⟩ := RawSaved.sound_of_checkCluster hcheck
    refine ⟨rfl, ⟨hvalid.congr rfl, hposition, hstart, hlog⟩, fun t ht => ?_⟩
    exact Option.some.inj ht ▸ ⟨rfl, rfl, rfl, rfl⟩

/-! ## What a call does -/

/-- A change of the leadership state that is saved. -/
lemma recorded_setLeadership (h : n.Recorded py scheme authority) {leadership : LeadershipState}
    (hhistory : leadership.history = n.leadership.history)
    (htimeout : leadership.timeoutTicks = n.leadership.timeoutTicks)
    (htick : n.leadership.lastHeartbeatTick ≤ leadership.lastHeartbeatTick)
    (hnonce : leadership.committedNonce = n.leadership.committedNonce) :
    ((n.setLeadership leadership).stored true).Recorded py scheme authority := by
  have hcertificates := (LeadershipState.history_eq_iff.mp hhistory).2.2
  refine recorded_stored h.store ⟨h.sound.leadership.advance hhistory htimeout htick hnonce.ge,
    hnonce.trans h.sound.position, h.sound.start, ?_⟩
  show Chained py scheme leadership.certificates _ _
  rw [hcertificates]
  exact h.sound.log

/-- A heartbeat at the committed position. -/
lemma recorded_heartbeat (h : n.Recorded py scheme authority) {leadership : LeadershipState}
    {leader : Role} {term tick nonce : ℤ} (hnonce : nonce = n.committedPosition)
    (hbeat : n.leadership.heartbeat leader term tick nonce = .ok leadership) :
    ((n.setLeadership leadership).stored true).Recorded py scheme authority := by
  unfold LeadershipState.heartbeat at hbeat
  simp only [bind_eq_ok, require_eq_ok, exists_const, pure_eq_ok, Bool.and_eq_true,
    decide_eq_true_iff] at hbeat
  obtain ⟨-, ⟨htick, -⟩, rfl⟩ := hbeat
  exact recorded_setLeadership h rfl rfl htick.le (hnonce.trans h.sound.position.symm)

omit [PyNumber ν] in
/-- A call of `_save` at the end of a change. -/
lemma ends_modify_save {f : RawNode A ν → RawNode A ν} {P : RawNode A ν → Prop}
    (h : P ((f n).stored true)) :
    Ends (do modify f; save true) n (fun _ t => P t) fun _ t => P t :=
  ends_bind.mpr (ends_modify.mpr (ends_save h fun _ => h))

lemma recorded_receiveHeartbeat (h : n.Recorded py scheme authority) (beat : Heartbeat) :
    (after (receiveHeartbeat authority true beat) n).Recorded py scheme authority := by
  refine after_iff.mpr ?_
  unfold receiveHeartbeat
  rw [ends_bind, ends_lift]
  refine ⟨fun _ _ => ?_, fun _ _ => h⟩
  rw [ends_bind, ends_get, ends_bind, ends_lift]
  refine ⟨fun _ hnonce => ?_, fun _ _ => h⟩
  rw [require_eq_ok, beq_iff_eq] at hnonce
  split_ifs
  · rw [ends_bind, ends_lift]
    exact ⟨fun _ hbeat => ends_modify_save (recorded_heartbeat h hnonce hbeat), fun _ _ => h⟩
  · exact h

lemma recorded_failoverStep (h : n.Recorded py scheme authority) (tick : ℕ) :
    (after (failoverStep role true tick) n).Recorded py scheme authority := by
  refine after_iff.mpr ?_
  unfold failoverStep
  have hclock : Ends (startClock true (tick : ℤ)) n
      (fun _ t => t.Recorded py scheme authority) fun _ t => t.Recorded py scheme authority := by
    unfold startClock
    rw [ends_bind, ends_get]
    split_ifs with hzero
    · exact ends_modify_save (recorded_setLeadership h rfl rfl
        (hzero.le.trans (Int.natCast_nonneg tick)) rfl)
    · exact h
  refine hclock.bind fun _ t ht => ?_
  rw [ends_bind, ends_get]
  split_ifs
  · unfold recordBeat
    rw [ends_bind, ends_get]
    split_ifs
    · rw [ends_bind, ends_lift]
      exact ⟨fun _ hbeat => ends_modify_save (recorded_heartbeat ht rfl hbeat), fun _ _ => ht⟩
    · exact ht
  · exact ht

/-- **A certificate** is for the position, so the leaders before it stay as they were. -/
lemma recorded_recordCertificate (h : n.Recorded py scheme authority) (c : LeadershipCertificate) :
    (after (recordCertificate authority true c) n).Recorded py scheme authority := by
  refine after_iff.mpr ?_
  unfold recordCertificate
  rw [ends_bind, ends_get]
  split_ifs with hnew
  · rw [ends_bind, ends_lift]
    refine ⟨fun _ _ => ?_, fun _ _ => h⟩
    rw [ends_bind, ends_lift]
    refine ⟨fun leadership haccept => ends_modify_save ?_, fun _ _ => h⟩
    have hvalid := h.sound.leadership.accept haccept
    rcases LeadershipState.acceptCertificate_eq_ok haccept with ⟨hlast, -⟩ |
      ⟨-, -, -, hnonce, tick, rfl⟩
    · exact absurd hlast hnew
    · refine recorded_stored h.store ⟨hvalid, h.sound.position, h.sound.start,
        h.sound.log.congr fun position hposition => ?_⟩
      rw [sub_add_cancel] at hposition
      show Node.expectedLeader (n.leadership.certificates ++ [c]) position = _
      rw [Node.expectedLeader, List.foldl_append, List.foldl_cons, List.foldl_nil, if_neg]
      · rfl
      · rw [hnonce, h.sound.position]
        exact not_le.mpr hposition
  · exact h

/-- A change of the application is not one of the record. -/
lemma Recorded.setApp (h : n.Recorded py scheme authority) (a : A) :
    (n.setApp a).Recorded py scheme authority :=
  ⟨h.store, ⟨h.sound.leadership, h.sound.position, h.sound.start, h.sound.log⟩, fun s hs =>
    have hsame := h.disk s hs
    ⟨hsame.nonces, hsame.log, hsame.pending, hsame.leadership⟩⟩

/-- A change of the application and the prepared record is saved. -/
lemma recorded_setPending (h : n.Recorded py scheme authority) (a : A)
    (pending : Option (RawEnvelope ν)) :
    (((n.setApp a).setPending pending).stored true).Recorded py scheme authority :=
  recorded_stored h.store ⟨h.sound.leadership, h.sound.position, h.sound.start, h.sound.log⟩

omit [PyNumber ν] in
/-- The position after a commit. -/
lemma committedPosition_appendLog (n : RawNode A ν) (envelope : RawEnvelope ν)
    {m : SignedMutation ν} (h : n.committedPosition < m.nonce) :
    (n.appendLog m envelope).committedPosition = m.nonce :=
  max?_values_set n.replicationNonces m.leader h

section Commit

variable {envelope : RawEnvelope ν} {m : SignedMutation ν} {r : ρ} {a : A}

/-- **A consecutive commit** is recorded.

**Proof sketch.** A commit after the last one goes to the end of the chain. The first commit of a
log is a chain of its own: no certificate is for a later position than the one before it. -/
lemma recorded_commit (h : n.Recorded py scheme authority)
    (hcommits : Commits py scheme app role n envelope m r a)
    (hnext : n.replicationLog = [] ∨ m.nonce = n.committedPosition + 1) :
    (((n.setApp a).appendLog m envelope).stored true).Recorded py scheme authority := by
  obtain ⟨hread, hvalid, hleader, hlt, hmutation⟩ :=
    RawEnvelope.verify_eq_ok.mp (verify_of_verifyEnvelope hcommits.verified)
  have hposition := committedPosition_appendLog (n.setApp a) envelope hlt
  have hnonce : n.leadership.committedNonce = n.committedPosition := h.sound.position
  have hstart : 0 ≤ n.committedPosition - n.replicationLog.length := h.sound.start
  have hlast : Chained py scheme n.leadership.certificates (m.nonce - 1) [envelope] := by
    have hexpected : Node.expectedLeader n.leadership.certificates (m.nonce - 1) =
        n.leadership.leader := h.sound.leadership.expectedLeader (by omega)
    refine ⟨⟨m, RawEnvelope.verify_eq_ok.mpr ⟨hread, hvalid, ?_, by omega, hmutation⟩, by omega⟩,
      trivial⟩
    rw [hexpected]
    exact hleader
  have hlog : Chained py scheme n.leadership.certificates
      (m.nonce - 1 - n.replicationLog.length) n.replicationLog := by
    rcases hnext with hempty | hconsecutive
    · rw [hempty]
      trivial
    · rw [hconsecutive, add_sub_cancel_right]
      exact h.sound.log
  refine recorded_stored h.store ⟨h.sound.leadership.advance rfl rfl le_rfl (hnonce ▸ hlt.le),
    hposition.symm, ?_, ?_⟩
  · show 0 ≤ ((n.setApp a).appendLog m envelope).committedPosition -
      ((n.replicationLog ++ [envelope]).length : ℤ)
    rw [hposition, List.length_append, List.length_singleton]
    rcases hnext with hempty | hconsecutive
    · rw [hempty] at hstart ⊢
      simp only [List.length_nil, Nat.cast_zero, sub_zero, zero_add, Nat.cast_one] at hstart ⊢
      omega
    · push_cast
      omega
  · show Chained py scheme n.leadership.certificates
      (((n.setApp a).appendLog m envelope).committedPosition -
        ((n.replicationLog ++ [envelope]).length : ℤ)) (n.replicationLog ++ [envelope])
    rw [hposition, List.length_append, List.length_singleton, Nat.cast_add, Nat.cast_one,
      sub_add_eq_sub_sub_swap, chained_append, sub_add_cancel]
    exact ⟨hlog, hlast⟩

/-- **A commit that leaves a gap** makes a file that is refused.

**Proof sketch.** The constructor starts the log at the committed position less its length, which is
after the number of the first envelope. -/
lemma not_restarts_of_gap (h : n.Recorded py scheme authority)
    (hcommits : Commits py scheme app role n envelope m r a)
    (hgap : ¬ (n.replicationLog = [] ∨ m.nonce = n.committedPosition + 1)) :
    ¬ (((n.setApp a).appendLog m envelope).stored true).Restarts py scheme authority := by
  rw [not_or] at hgap
  have hlt := (RawEnvelope.verify_eq_ok.mp
    (verify_of_verifyEnvelope hcommits.verified)).2.2.2.1
  have hposition := committedPosition_appendLog (n.setApp a) envelope hlt
  intro hrestarts
  rw [stored_eq (show ((n.setApp a).appendLog m envelope).hasStore = true from h.store)]
    at hrestarts
  obtain ⟨leadership, hcheck, -⟩ := hrestarts _ rfl
  simp only [RawSaved.checkCluster, bind_eq_ok, require_eq_ok, exists_const] at hcheck
  obtain ⟨restored, -, -, hcheck⟩ := hcheck
  rw [if_neg (by simp [appendLog])] at hcheck
  simp only [bind_eq_ok, require_eq_ok, exists_const] at hcheck
  obtain ⟨-, last, hlast, -⟩ := hcheck
  refine h.sound.log.not_check hgap.1 ?_ hlast
  rw [hposition]
  show n.committedPosition - (n.replicationLog.length : ℤ) <
    m.nonce - ((n.replicationLog ++ [envelope]).length : ℤ)
  rw [List.length_append, List.length_singleton]
  push_cast
  omega

end Commit

/-! ## Which nodes can restart -/

/-- **Every call with consecutive commits** is recorded. -/
theorem Recorded.perform (h : n.Recorded py scheme authority) {c : ClusterCall ν}
    (hc : n.Consecutive py scheme app role c) :
    (n.perform py scheme authority app role c).Recorded py scheme authority := by
  cases c with
  | prepare envelope =>
    by_cases hex : ∃ m a, Prepares py scheme app role n envelope m a
    · obtain ⟨m, a, hm⟩ := hex
      rw [RawNode.perform, after_prepareReplica hm]
      exact recorded_setPending h a _
    · push Not at hex
      obtain ⟨a, ha⟩ := after_prepareReplica_of_not true hex
      rw [RawNode.perform, ha]
      exact h.setApp a
  | commit envelope =>
    by_cases hex : ∃ m r a, Commits py scheme app role n envelope m r a
    · obtain ⟨m, r, a, hm⟩ := hex
      rw [RawNode.perform, after_commitReplica hm]
      exact recorded_commit h hm (hc envelope rfl m r a hm)
    · push Not at hex
      obtain ⟨a, ha⟩ := after_commitReplica_of_not true hex
      rw [RawNode.perform, ha]
      exact h.setApp a
  | abort envelope =>
    by_cases hex : ∃ m, Aborts py scheme role n envelope m
    · obtain ⟨m, hm⟩ := hex
      rw [RawNode.perform, after_abortReplica hm]
      exact recorded_setPending h n.app none
    · push Not at hex
      rw [RawNode.perform, after_abortReplica_of_not hex]
      exact h
  | heartbeat beat => exact recorded_receiveHeartbeat h beat
  | certificate c => exact recorded_recordCertificate h c
  | failoverStep tick => exact recorded_failoverStep h tick

/-- **Saved nodes restart.** For a node of any role that its constructor has made and any calls: the
file is accepted after every call, and gives back what is in memory, exactly when every commit that
is carried out has the number after the committed position, or is the first one in the log.

**Proof sketch.** Consecutive commits keep the log a chain that ends at the committed position, and
a certificate is only adopted at that position. A commit that leaves a gap moves the start of the
log past its first envelope. -/
theorem saved_restarts_iff (py : PyLib ν) (scheme : EnvelopeScheme)
    (authority : FailoverAuthority) (app : App A (Json ν) ρ) (role : Role)
    (hn : n.Constructed py scheme authority app) (calls : List (ClusterCall ν)) :
    Transition.Always (clusterStep py scheme authority app role)
        (fun t => t.Restarts py scheme authority) n calls ↔
      Transition.Meets (clusterStep py scheme authority app role)
        (fun t c => t.Consecutive py scheme app role c) n calls := by
  refine Transition.always_iff_meets (I := fun t => t.Recorded py scheme authority)
    (fun t ht => ht.restarts) (fun t c t' ht hc hstep => ?_) (fun t c ht hc => ?_) hn.recorded
  · obtain rfl := Option.some.inj hstep
    exact ht.perform hc
  · refine ⟨_, rfl, ?_⟩
    simp only [Consecutive, not_forall] at hc
    obtain ⟨envelope, rfl, m, r, a, hm, hgap⟩ := hc
    rw [RawNode.perform, after_commitReplica hm]
    exact not_restarts_of_gap ht hm hgap

/-! ## A log with a gap -/

section Example

open Ledger (integerLib)

/-- A secret of a cluster. -/
def replicaScheme : EnvelopeScheme := .ofSecret integerLib "a secret of the cluster, long enough"

/-- An offer of `alice` with a number, as the leader signs it. -/
def numberedOffer (nonce : ℤ) : RawEnvelope ℤ :=
  let mutation : Json ℤ := .obj [("method", .str "offer"),
    ("params", .obj [("sender", .str "alice"), ("receiver", .str "bob"), ("value", .num 2)])]
  let signature := integerLib.hmacSha256 "a secret of the cluster, long enough"
    (canonicalJson integerLib (envelopePayload "primary" nonce mutation))
  ⟨Dict.ofList [("leader", .str "primary"), ("mutation", mutation), ("nonce", .num nonce),
    ("signature", .str signature)]⟩

/-- A replica that has done nothing. -/
def newReplica : RawNode (Application ℤ) ℤ :=
  fresh ⟨Ledger.ofBalances integerLib (Dict.ofList [("alice", 10), ("bob", 0)]), none, none⟩ true

/-- The calls that prepare and commit offers with the given numbers. -/
def committing (nonces : List ℤ) : List (ClusterCall ℤ) :=
  nonces.flatMap fun nonce => [.prepare (numberedOffer nonce), .commit (numberedOffer nonce)]

/-- A replica that commits the numbers 1 and 3 cannot restart. -/
theorem gap_not_restarted : ∃ n s, Transition.run
      (clusterStep integerLib replicaScheme (sharedKeys integerLib "cluster").failover
        (documentApp integerLib) .secondary) newReplica (committing [1, 3]) = some n ∧
    n.disk = some s ∧ n.replicationLog = [numberedOffer 1, numberedOffer 3] ∧
    s.checkCluster integerLib replicaScheme (sharedKeys integerLib "cluster").failover =
      .error (.protocol "invalid or replayed replication envelope") := by
  have hrun : (Transition.run (clusterStep integerLib replicaScheme
      (sharedKeys integerLib "cluster").failover (documentApp integerLib) .secondary) newReplica
      (committing [1, 3])).any (fun n => n.disk.any fun s =>
        decide (n.replicationLog = [numberedOffer 1, numberedOffer 3]) &&
          match s.checkCluster integerLib replicaScheme
              (sharedKeys integerLib "cluster").failover with
          | .error e => decide (e = .protocol "invalid or replayed replication envelope")
          | .ok _ => false) = true := by
    decide +kernel
  obtain ⟨n, hn, hdisk⟩ := (Option.any_eq_true _ _).mp hrun
  obtain ⟨s, hs, hrefused⟩ := (Option.any_eq_true _ _).mp hdisk
  obtain ⟨hlog, hcheck⟩ := Bool.and_eq_true_iff.mp hrefused
  refine ⟨n, s, hn, hs, of_decide_eq_true hlog, ?_⟩
  split at hcheck
  next e he => rw [he, of_decide_eq_true hcheck]
  next => cases hcheck

/-- A commit is consecutive if the number that is read from its envelope is. -/
lemma consecutive_commit {scheme : EnvelopeScheme} {app : App A (Json ν) ρ} {role : Role}
    {n : RawNode A ν} {envelope : RawEnvelope ν} {m : SignedMutation ν}
    (hread : envelope.read py = .ok m)
    (h : n.replicationLog = [] ∨ m.nonce = n.committedPosition + 1) :
    n.Consecutive py scheme app role (.commit envelope) := by
  rintro e ⟨⟩ m' r a hm
  have hread' := (RawEnvelope.verify_eq_ok.mp (verify_of_verifyEnvelope hm.verified)).1
  obtain rfl := Except.ok.inj (hread.symm.trans hread')
  exact h

/-- A replica that commits the numbers 1 and 2 can. -/
theorem saved_restarts_consecutive : Transition.Always
    (clusterStep integerLib replicaScheme (sharedKeys integerLib "cluster").failover
      (documentApp integerLib) .secondary)
    (fun t => t.Restarts integerLib replicaScheme (sharedKeys integerLib "cluster").failover)
    newReplica (committing [1, 2]) := by
  refine (saved_restarts_iff integerLib replicaScheme (sharedKeys integerLib "cluster").failover
    (documentApp integerLib) .secondary (.inl ⟨_, rfl⟩) _).mpr ?_
  refine ⟨nofun, ?_⟩
  rintro _ ⟨⟩
  refine ⟨consecutive_commit rfl (.inl (by decide +kernel)), ?_⟩
  rintro _ ⟨⟩
  refine ⟨nofun, ?_⟩
  rintro _ ⟨⟩
  exact ⟨consecutive_commit rfl (.inr (by decide +kernel)), fun _ _ => trivial⟩

end Example

end RawNode

end SplitChain
