import Mathlib.Data.Option.Basic
import Mathlib.Logic.Function.Basic
import SplitChain.Library.Transition
import SplitChain.Model.ReplicaSteps
import SplitChain.Model.Signing
import SplitChain.Model.ReferenceNode
import SplitChain.Model.Runs

set_option relaxedAutoImplicit false
set_option autoImplicit false

/-!
# Elections in the cluster of three

The candidate's part of `failover_step`, cut where it waits for its witness, and the network in
which three honest nodes elect their leaders. A message that has been sent can arrive at any later
time, in any order, more than once or never. A node that crashes comes back from its file; a crash
while a certificate is being saved is a crash before it was received, since nothing is answered in
between. Saving a certificate does not fail otherwise.

A candidate can form any number of certificates for one term, but it sends them to its witness
alone, and it adopts none that the witness has not recorded. So every certificate that a node has
adopted is the one that the witness of the election has adopted for that term, and no two nodes
disagree.

## Main definitions

* `SplitChain.Node.candidacy`, `SplitChain.LeadershipState.certify`,
  `SplitChain.LeadershipState.recover` — the candidate.
* `SplitChain.Operation` — what a node does without adopting a certificate.
* `SplitChain.Network`, `SplitChain.NetworkEvent`, `SplitChain.Network.step` — the three nodes and
  the messages between them.
* `SplitChain.Network.Elected` — the invariant.

## Main results

* `SplitChain.Network.Elected.step` — every event keeps the invariant.
* `SplitChain.Network.certificates_agree` — nodes that have reached a term hold one certificate
  for it.
-/

namespace SplitChain

open Raise Proc

variable {A μ ρ : Type}

/-! ## The candidate -/

/-- The successor of a leader that has been silent for too long votes against it and asks the third
node, its witness, for a second vote. -/
def Node.candidacy (keys : Keyring μ) (self : Role) (tick : ℤ) (n : Node A μ) :
    Option (Role × FailureVote) := do
  let state := n.leadership
  guard (state.leader ≠ .tertiary ∧ state.leader.successor? = some self)
  guard (state.timeoutTicks ≤ tick - state.lastHeartbeatTick)
  let witness ← Role.witness? state.leader self
  return (witness, keys.failover.vote {
    voter := self
    term := state.term + 1
    accused := state.leader
    candidate := self
    observedTick := tick
    committedNonce := n.committedPosition })

namespace LeadershipState

/-- The certificate that a candidate forms, on a copy of its state, from its vote and the answer of
its witness. -/
def certify (authority : FailoverAuthority) (s : LeadershipState) (vote signed : FailureVote) :
    Except PyError (Option LeadershipCertificate) := do
  let trial ← fromSnapshot authority s
  let (trial, _) ← trial.submit authority vote
  let (_, certificate) ← trial.submit authority signed
  return certificate

/-- The certificate that a candidate recovers from the leadership of its witness, if the witness has
reached the next term already. -/
def recover (authority : FailoverAuthority) (s remote : LeadershipState) :
    Except PyError (Option LeadershipCertificate) :=
  if remote.term = s.term + 1 then do
    let restored ← fromSnapshot authority remote
    return restored.certificates.getLast?
  else return none

end LeadershipState

/-! ## The network -/

/-- The messages of `failover_step`: the calls that carry a vote or a certificate, and the answers
that a candidate waits for. The answer to a certificate names the certificate that was sent. -/
inductive Message where
  | timeoutVote (sender receiver : Role) (vote : FailureVote) (ledgerDigest : String)
  | vote (sender receiver : Role) (signed : FailureVote)
  | certificate (sender receiver : Role) (certificate : LeadershipCertificate)
  | recorded (sender receiver : Role) (certificate : LeadershipCertificate)
  | leadership (sender receiver : Role) (snapshot : LeadershipState)
deriving DecidableEq

/-- What a node does without adopting a certificate, with arguments of any kind. All that is not
replicated (demonstrations that are served, credentials that are loaded) changes the application
alone. -/
inductive Operation (A μ : Type) where
  | serve (saves : Bool) (app : A)
  | prepare (saves : Bool) (envelope : Envelope μ)
  | commit (saves : Bool) (envelope : Envelope μ)
  | abort (saves : Bool) (envelope : Envelope μ)
  | abortUncommitted (saves : Bool)
  | propose (saves : Bool) (mutation : μ)
  | abandon (saves : Bool)
  | commitLocal (saves : Bool) (envelope : Envelope μ)
  | heartbeat (saves : Bool) (heartbeat : Heartbeat)
  | startClock (saves : Bool) (tick : ℤ)
  | recordBeat (saves : Bool) (tick : ℤ)

/-- The node after an operation, whether it returns or raises. -/
def Operation.run [DecidableEq μ] (app : App A μ ρ) (keys : Keyring μ) (self : Role) :
    Operation A μ → Node A μ → Node A μ
  | .serve saves a => after do
      modify fun n => n.setApp a
      Node.save saves
  | .prepare saves envelope => after (Node.prepareReplica app keys self saves envelope)
  | .commit saves envelope => after (Node.commitReplica app keys self saves envelope)
  | .abort saves envelope => after (Node.abortReplica app keys self saves envelope)
  | .abortUncommitted saves => after (Node.abortUncommitted saves)
  | .propose saves mutation => after (Node.propose app keys self saves mutation)
  | .abandon saves => after (Node.abandon (ρ := ρ) saves)
  | .commitLocal saves envelope => after (Node.commitLocal app saves envelope)
  | .heartbeat saves beat => after (Node.receiveHeartbeat keys saves beat)
  | .startClock saves tick => after (Node.startClock saves tick)
  | .recordBeat saves tick => after (Node.recordBeat self saves tick)

/-- A node that has crashed and comes back: from its file, or as it was made where it has never
saved anything. A node without a file does not come back. -/
def Node.reboot (app : App A μ ρ) (keys : Keyring μ) (boot : A) (n : Node A μ) :
    Option (Node A μ) :=
  if n.hasStore then
    match n.disk with
    | some s => (Node.restart app keys app.load s).toOption
    | none => some (.fresh boot true)
  else none

/-- The cluster, and everything that has been sent. -/
structure Network (A μ : Type) where
  nodes : Role → Node A μ
  sent : List Message

/-- What can happen: a node does something on its own, a candidate asks for a vote or takes an
answer, a node answers, the leader tells its last certificate, a node crashes. -/
inductive NetworkEvent (A μ : Type) where
  | perform (self : Role) (operation : Operation A μ)
  | requestVote (self : Role) (tick : ℤ)
  | answerVote (self sender : Role) (vote : FailureVote) (ledgerDigest : String) (now : ℤ)
  | formCertificate (self witness : Role) (vote : FailureVote) (ledgerDigest : String)
      (signed : FailureVote)
  | receiveCertificate (self sender : Role) (certificate : LeadershipCertificate)
  | takeRecorded (self witness : Role) (certificate : LeadershipCertificate)
  | answerLeadership (self receiver : Role)
  | takeLeadership (self witness : Role) (snapshot : LeadershipState)
  | tellCertificate (self receiver : Role)
  | crash (self : Role)

namespace Network

variable [DecidableEq μ]

/-- The cluster at the start. Some nodes may have no file. -/
def initial (boot : Role → A) (hasStore : Role → Bool) : Network A μ where
  nodes r := .fresh (boot r) (hasStore r)
  sent := []

/-- A node changes. -/
def become (s : Network A μ) (self : Role) (n : Node A μ) : Network A μ :=
  { s with nodes := Function.update s.nodes self n }

/-- A message is sent. -/
def send (s : Network A μ) (m : Message) : Network A μ := { s with sent := s.sent ++ [m] }

/-- A node records a certificate. -/
def record (keys : Keyring μ) (s : Network A μ) (self : Role)
    (certificate : LeadershipCertificate) : Network A μ :=
  s.become self (after (Node.recordCertificate keys true certificate) (s.nodes self))

/-- **The three nodes and the messages between them.** -/
def step (app : App A μ ρ) (keys : Keyring μ) (boot : Role → A) (s : Network A μ) :
    NetworkEvent A μ → Option (Network A μ)
  | .perform self operation => some (s.become self (operation.run app keys self (s.nodes self)))
  | .requestVote self tick => do
      let (witness, vote) ← (s.nodes self).candidacy keys self tick
      return s.send (.timeoutVote self witness vote (app.digest (s.nodes self).app))
  | .answerVote self sender vote ledgerDigest now => do
      guard (.timeoutVote sender self vote ledgerDigest ∈ s.sent)
      let signed ← ((s.nodes self).receiveTimeoutVote app keys self now vote ledgerDigest).toOption
      return s.send (.vote self sender signed)
  | .formCertificate self witness vote ledgerDigest signed => do
      guard (.timeoutVote self witness vote ledgerDigest ∈ s.sent)
      guard (.vote witness self signed ∈ s.sent)
      let formed ← ((s.nodes self).leadership.certify keys.failover vote signed).toOption
      let certificate ← formed
      return s.send (.certificate self witness certificate)
  | .receiveCertificate self sender certificate => do
      guard (.certificate sender self certificate ∈ s.sent)
      let recorded := s.record keys self certificate
      if returns (Node.recordCertificate keys true certificate) (s.nodes self) then
        return recorded.send (.recorded self sender certificate)
      else return recorded
  | .takeRecorded self witness certificate => do
      guard (.recorded witness self certificate ∈ s.sent)
      return s.record keys self certificate
  | .answerLeadership self receiver =>
      some (s.send (.leadership self receiver (s.nodes self).leadership))
  | .takeLeadership self witness snapshot => do
      guard (.leadership witness self snapshot ∈ s.sent)
      let recovered ← ((s.nodes self).leadership.recover keys.failover snapshot).toOption
      let certificate ← recovered
      return s.record keys self certificate
  | .tellCertificate self receiver => do
      guard ((s.nodes self).leadership.leader = self)
      let certificate ← (s.nodes self).leadership.certificates.getLast?
      return s.send (.certificate self receiver certificate)
  | .crash self => do
      let n ← (s.nodes self).reboot app keys (boot self)
      return s.become self n

end Network

/-! ## Histories -/

namespace LeadershipState

/-- The terms that a state has gone through. -/
def history (s : LeadershipState) : ℤ × Role × List LeadershipCertificate :=
  (s.term, s.leader, s.certificates)

/-- The certificates of a state are those of its terms, and the last one names its leader. -/
structure Ranked (s : LeadershipState) : Prop where
  term : s.term = s.certificates.length
  leader : Role.order[s.certificates.length]? = some s.leader
  terms : ∀ (i : ℕ) (c : LeadershipCertificate), s.certificates[i]? = some c → c.term = i + 1

variable {s t : LeadershipState}

lemma history_eq_iff : s.history = t.history ↔
    s.term = t.term ∧ s.leader = t.leader ∧ s.certificates = t.certificates := by
  simp only [history, Prod.mk.injEq]

lemma ranked_initial (timeoutTicks : ℤ) : (initial timeoutTicks).Ranked where
  term := rfl
  leader := rfl
  terms i c h := by simp [initial] at h

lemma Ranked.congr (h : s.Ranked) (heq : t.history = s.history) : t.Ranked := by
  obtain ⟨hterm, hleader, hcertificates⟩ := history_eq_iff.mp heq
  refine ⟨?_, ?_, ?_⟩
  · rw [hterm, hcertificates, h.term]
  · rw [hleader, hcertificates, h.leader]
  · rw [hcertificates]
    exact h.terms

/-- A certificate of a state is the one of its term. -/
lemma Ranked.get?_of_mem (h : s.Ranked) {c : LeadershipCertificate} (hc : c ∈ s.certificates)
    {i : ℕ} (hi : c.term = i + 1) : s.certificates[i]? = some c := by
  obtain ⟨j, hj⟩ := List.mem_iff_getElem?.mp hc
  have hterm := h.terms j c hj
  obtain rfl : j = i := by omega
  exact hj

/-- The role that follows in the order. -/
lemma successor?_of_order {i : ℕ} {leader next : Role} (h : Role.order[i]? = some leader)
    (hnext : leader.successor? = some next) : Role.order[i + 1]? = some next := by
  match i with
  | 0 => cases h; exact hnext
  | 1 => cases h; exact hnext
  | 2 => cases h; cases hnext
  | i + 3 => simp [Role.order] at h

/-- **Adoption** of a new certificate adds the one of the next term. -/
lemma Ranked.accept {authority : FailoverAuthority} {c : LeadershipCertificate} (h : s.Ranked)
    (hnew : s.certificates.getLast? ≠ some c) (haccept : s.acceptCertificate authority c = .ok t) :
    t.Ranked ∧ t.certificates = s.certificates ++ [c] ∧ c.term = s.certificates.length + 1 := by
  rcases acceptCertificate_eq_ok haccept with ⟨hlast, -⟩ | ⟨-, hterm, hleader, -, tick, rfl⟩
  · exact absurd hlast hnew
  · have hc : c.term = s.certificates.length + 1 := by rw [hterm, h.term]
    refine ⟨⟨?_, ?_, fun i d hd => ?_⟩, rfl, hc⟩
    · simp only [hc, List.length_append, List.length_singleton, Nat.cast_add, Nat.cast_one]
    · rw [List.length_append, List.length_singleton]
      exact successor?_of_order h.leader hleader
    · rcases lt_trichotomy i s.certificates.length with hi | rfl | hi
      · rw [List.getElem?_append_left hi] at hd
        exact h.terms i d hd
      · rw [List.getElem?_concat_length, Option.some.injEq] at hd
        exact hd ▸ hc
      · rw [List.getElem?_eq_none (by simp; omega)] at hd
        cases hd

/-- The certificate of a state for a term. -/
def certificateOf (s : LeadershipState) (term : ℕ) : Option LeadershipCertificate :=
  s.certificates.find? fun c => c.term == term

/-- The position at which the last certificate of a state fences the leader before it. -/
def fencedPosition (s : LeadershipState) : Option ℤ :=
  s.certificates.getLast?.map fun c => c.committedNonce

/-- The timeout on which the votes of the last certificate agree. -/
def certifiedTimeout (s : LeadershipState) : Option ℤ := s.certificates.getLast?.map certifiedTick

/-- The certificates stand in the order of their terms. -/
lemma Ranked.certificateOf (h : s.Ranked) {c : LeadershipCertificate} {i : ℕ}
    (hc : s.certificates[i]? = some c) : s.certificateOf (i + 1) = some c := by
  have hterm := h.terms i c hc
  cases hd : s.certificateOf (i + 1) with
  | none =>
    have hnone := List.find?_eq_none.mp hd c (List.mem_of_getElem? hc)
    simp [hterm] at hnone
  | some d =>
    have hdterm : d.term = i + 1 := by
      have := List.find?_some hd
      rw [beq_iff_eq] at this
      exact_mod_cast this
    rw [← hc, h.get?_of_mem (List.mem_of_find?_eq_some hd) hdterm]

/-- A heartbeat starts no term. -/
lemma history_heartbeat {leader : Role} {term tick nonce : ℤ}
    (h : s.heartbeat leader term tick nonce = .ok t) : t.history = s.history := by
  unfold heartbeat at h
  simp only [bind_eq_ok, require_eq_ok, exists_const, pure_eq_ok] at h
  obtain ⟨-, -, rfl⟩ := h
  rfl

/-- A snapshot is restored with its terms. -/
lemma history_fromSnapshot {authority : FailoverAuthority} (h : fromSnapshot authority s = .ok t) :
    t.history = s.history := by
  unfold fromSnapshot at h
  simp only [bind_eq_ok, require_eq_ok, exists_const, pure_eq_ok] at h
  obtain ⟨-, -, -, -, -, -, rfl⟩ := h
  rfl

/-- A vote that is taken is for the next term. -/
lemma submit_eq_ok {authority : FailoverAuthority} {vote : FailureVote}
    {formed : Option LeadershipCertificate} (h : s.submit authority vote = .ok (t, formed)) :
    vote.term = s.term + 1 ∧ (s.votes = ∅ → t.term = s.term) ∧
      ∀ c, formed = some c → c.term = s.term + 1 := by
  unfold submit at h
  simp only [bind_eq_ok, require_eq_ok, exists_const] at h
  obtain ⟨candidate, -, hfits, h⟩ := h
  simp only [fits, Bool.and_eq_true, beq_iff_eq] at hfits
  refine ⟨hfits.1.1.1.1.1.2, ?_⟩
  cases hvotes : s.votes.get? vote.voter with
  | some existing =>
    simp only [hvotes, bind_eq_ok, require_eq_ok, exists_const, pure_eq_ok] at h
    obtain ⟨-, h⟩ := h
    cases h
    exact ⟨fun _ => rfl, fun _ hc => by cases hc⟩
  | none =>
    simp only [hvotes, bind_eq_ok, require_eq_ok, exists_const] at h
    obtain ⟨-, h⟩ := h
    split_ifs at h with hquorum
    · cases h
      exact ⟨fun _ => rfl, fun _ hc => by cases hc⟩
    · cases h
      refine ⟨fun hempty => absurd ?_ hquorum, fun c hc => by cases hc; rfl⟩
      rw [Dict.size_set_of_none _ hvotes, hempty]
      decide

/-- **The certificate of a candidate** is for the term that its vote is for. -/
lemma certify_eq_ok {authority : FailoverAuthority} {vote signed : FailureVote}
    {c : LeadershipCertificate} (h : s.certify authority vote signed = .ok (some c)) :
    c.term = vote.term := by
  unfold certify at h
  simp only [bind_eq_ok, pure_eq_ok, Prod.exists] at h
  obtain ⟨trial, hrestored, first, formed, hfirst, second, certificate, hsecond, rfl⟩ := h
  have hempty : trial.votes = ∅ := by
    unfold fromSnapshot at hrestored
    simp only [bind_eq_ok, require_eq_ok, exists_const, pure_eq_ok] at hrestored
    obtain ⟨-, -, -, -, -, -, rfl⟩ := hrestored
    rfl
  obtain ⟨hvote, hterm, -⟩ := submit_eq_ok hfirst
  rw [(submit_eq_ok hsecond).2.2 c rfl, hterm hempty, hvote]

/-- **The certificate that is recovered** is one of those of the witness. -/
lemma recover_eq_ok {authority : FailoverAuthority} {remote : LeadershipState}
    {c : LeadershipCertificate} (h : s.recover authority remote = .ok (some c)) :
    c ∈ remote.certificates := by
  unfold recover at h
  split_ifs at h
  · simp only [bind_eq_ok, pure_eq_ok] at h
    obtain ⟨restored, hrestored, hlast⟩ := h
    rw [← (history_eq_iff.mp (history_fromSnapshot hrestored)).2.2]
    exact List.mem_of_getLast? hlast
  · cases h

end LeadershipState

/-! ## What the file keeps -/

namespace Node

/-- The terms that the file of a node records; a node that has saved nothing is in its first one. -/
def filed (n : Node A μ) : ℤ × Role × List LeadershipCertificate :=
  (n.disk.map fun s => s.leadership.history).getD (LeadershipState.initial 3).history

/-- A node with the given terms, in memory and on file. -/
structure Holds (hasStore : Bool) (history : ℤ × Role × List LeadershipCertificate)
    (n : Node A μ) : Prop where
  store : n.hasStore = hasStore
  memory : n.leadership.history = history
  file : hasStore = true → n.filed = history

section Holds

variable {app : App A μ ρ} {keys : Keyring μ} {self : Role} {saves hasStore : Bool}
  {history history' : ℤ × Role × List LeadershipCertificate} {n t : Node A μ}
  {envelope : Envelope μ}

/-- A change of something else. -/
lemma Holds.congr (h : n.Holds hasStore history) (hstore : t.hasStore = n.hasStore)
    (hleadership : t.leadership.history = n.leadership.history) (hdisk : t.disk = n.disk) :
    t.Holds hasStore history where
  store := hstore.trans h.store
  memory := hleadership.trans h.memory
  file hs := by
    rw [filed, hdisk]
    exact h.file hs

/-- Saving writes the terms in memory. -/
lemma Holds.saved (hstore : n.hasStore = hasStore) (h : n.leadership.history = history) :
    n.saved.Holds hasStore history where
  store := (hasStore_saved n).trans hstore
  memory := by
    rw [← h]
    exact congrArg (fun s : Saved A μ => s.leadership.history) (toSaved_saved n)
  file hs := by
    rw [filed, Node.saved, if_pos (hstore.trans hs)]
    exact h

lemma preserves_save : Preserves (Holds (A := A) (μ := μ) hasStore history) (save saves) :=
  fun _ h => ends_save.mpr ⟨fun _ => .saved h.store h.memory, fun _ => h⟩

/-- A change of something else than the leadership. -/
lemma preserves_change {f : Node A μ → Node A μ} (hstore : ∀ n, (f n).hasStore = n.hasStore)
    (hleadership : ∀ n, (f n).leadership.history = n.leadership.history)
    (hdisk : ∀ n, (f n).disk = n.disk) : Preserves (Holds hasStore history)
      (modify f : EStateM PyError (Node A μ) PUnit) :=
  preserves_modify fun n h => h.congr (hstore n) (hleadership n) (hdisk n)

lemma preserves_setPending (pending : Option (Envelope μ)) : Preserves (Holds hasStore history)
    (modify fun n => n.setPending pending : EStateM PyError (Node A μ) PUnit) :=
  preserves_change (fun _ => rfl) (fun _ => rfl) fun _ => rfl

lemma preserves_appendLog (envelope : Envelope μ) : Preserves (Holds hasStore history)
    (modify fun n => n.appendLog envelope : EStateM PyError (Node A μ) PUnit) :=
  preserves_change (fun _ => rfl) (fun _ => rfl) fun _ => rfl

lemma preserves_onApp {α : Type} (x : EStateM PyError A α) :
    Preserves (Holds (μ := μ) hasStore history) (onApp x) :=
  Preserves.onPart (J := fun _ => True) (fun _ _ => ends_iff.mpr ⟨fun _ _ _ => trivial,
    fun _ _ _ => trivial⟩) (fun _ _ => trivial) fun _ _ h _ => h.congr rfl rfl rfl

/-- The state is read first. -/
lemma preserves_get {α : Type} {I : Node A μ → Prop} {f : Node A μ → EStateM PyError (Node A μ) α}
    (h : ∀ n, Preserves I (f n)) : Preserves I (get >>= f) := fun n hn =>
  ends_bind.mpr (ends_get.mpr (h n n hn))

/-- A leadership state of the same terms is saved. -/
lemma Holds.setLeadership (h : n.Holds hasStore history) {leadership : LeadershipState}
    (hleadership : leadership.history = n.leadership.history) :
    Ends (do modify fun n => { n with leadership := leadership }; save saves) n
      (fun _ t => t.Holds hasStore history) fun _ t => t.Holds hasStore history :=
  ends_modify_save.mpr ⟨fun _ => .saved h.store (hleadership.trans h.memory),
    fun _ => h.congr rfl hleadership rfl⟩

section Replica

variable [DecidableEq μ]

lemma preserves_prepareReplica : Preserves (Holds (A := A) hasStore history)
    (prepareReplica app keys self saves envelope) := by
  refine preserves_get fun n => .bind (preserves_lift _) fun _ => preserves_get fun n' => ?_
  split
  · split_ifs
    · exact preserves_pure _
    · exact preserves_throw _
  · exact .bind (preserves_onApp _) fun _ => .bind (preserves_setPending _) fun _ => preserves_save

lemma preserves_commitReplica : Preserves (Holds (A := A) hasStore history)
    (commitReplica app keys self saves envelope) := by
  refine preserves_get fun n => .bind (preserves_lift _) fun _ => preserves_get fun n' => ?_
  split_ifs
  · exact preserves_throw _
  · exact .bind (preserves_onApp _) fun _ => .bind (preserves_appendLog _) fun _ =>
      .bind preserves_save fun _ => preserves_pure _

lemma preserves_abortReplica : Preserves (Holds (A := A) hasStore history)
    (abortReplica app keys self saves envelope) := by
  refine preserves_get fun n => .bind (preserves_lift _) fun _ => preserves_get fun n' => ?_
  split_ifs
  · exact preserves_throw _
  · exact .bind (preserves_setPending _) fun _ => preserves_save

end Replica

lemma preserves_abortUncommitted :
    Preserves (Holds (A := A) (μ := μ) hasStore history) (abortUncommitted saves) := by
  refine preserves_get fun n => ?_
  split_ifs
  · exact .bind (preserves_setPending _) fun _ => preserves_save
  · exact preserves_pure _

lemma preserves_propose {mutation : μ} : Preserves (Holds (A := A) hasStore history)
    (propose app keys self saves mutation) :=
  .bind (preserves_onApp _) fun _ => preserves_get fun _ => .bind (preserves_lift _) fun _ =>
    .bind (preserves_setPending _) fun _ => .bind preserves_save fun _ => preserves_pure _

lemma preserves_abandon :
    Preserves (Holds (A := A) (μ := μ) hasStore history) (abandon (ρ := ρ) saves) :=
  .bind (preserves_setPending _) fun _ => .bind preserves_save fun _ => preserves_throw _

lemma preserves_commitLocal : Preserves (Holds (A := A) hasStore history)
    (commitLocal app saves envelope) :=
  .bind (preserves_onApp _) fun _ => .bind (preserves_appendLog _) fun _ =>
    .bind preserves_save fun _ => preserves_pure _

lemma preserves_receiveHeartbeat {heartbeat : Heartbeat} :
    Preserves (Holds (A := A) hasStore history) (receiveHeartbeat keys saves heartbeat) :=
  fun _ h => ends_receiveHeartbeat h (fun _ => h) fun _ hlead _ =>
    ends_modify_save.mp (h.setLeadership (LeadershipState.history_heartbeat hlead))

lemma preserves_startClock {tick : ℤ} :
    Preserves (Holds (A := A) (μ := μ) hasStore history) (startClock saves tick) := by
  refine preserves_get fun n => ?_
  split_ifs
  · exact .bind (preserves_change (fun _ => rfl) (fun _ => rfl) fun _ => rfl) fun _ =>
      preserves_save
  · exact preserves_pure _

lemma preserves_recordBeat {tick : ℤ} :
    Preserves (Holds (A := A) (μ := μ) hasStore history) (recordBeat self saves tick) := by
  intro n h
  unfold recordBeat
  rw [ends_bind, ends_get]
  split_ifs
  · rw [ends_bind, ends_lift]
    exact ⟨fun _ hlead => h.setLeadership (LeadershipState.history_heartbeat hlead), fun _ _ => h⟩
  · exact h

/-- **An operation** leaves the terms of a node as they are. -/
theorem Holds.run [DecidableEq μ] (h : n.Holds hasStore history) (operation : Operation A μ) :
    (operation.run app keys self n).Holds hasStore history := by
  cases operation with
  | serve saves a =>
    exact after_iff.mpr (ends_modify_save.mpr
      ⟨fun _ => .saved h.store h.memory, fun _ => h.congr rfl rfl rfl⟩)
  | prepare => exact after_iff.mpr (preserves_prepareReplica n h)
  | commit => exact after_iff.mpr (preserves_commitReplica n h)
  | abort => exact after_iff.mpr (preserves_abortReplica n h)
  | abortUncommitted => exact after_iff.mpr (preserves_abortUncommitted n h)
  | propose => exact after_iff.mpr (preserves_propose n h)
  | abandon => exact after_iff.mpr (preserves_abandon n h)
  | commitLocal => exact after_iff.mpr (preserves_commitLocal n h)
  | heartbeat => exact after_iff.mpr (preserves_receiveHeartbeat n h)
  | startClock => exact after_iff.mpr (preserves_startClock n h)
  | recordBeat => exact after_iff.mpr (preserves_recordBeat n h)

/-- **A crash** leaves them too. -/
lemma Holds.reboot {boot : A} (h : n.Holds hasStore history)
    (hreboot : n.reboot app keys boot = some t) : t.Holds hasStore history := by
  unfold Node.reboot at hreboot
  split_ifs at hreboot with hstore
  have hfile := h.file (h.store.symm.trans hstore)
  unfold filed at hfile
  cases hdisk : n.disk with
  | none =>
    rw [hdisk] at hreboot hfile
    obtain rfl := Option.some.inj hreboot
    exact ⟨hstore.symm.trans h.store, hfile, fun _ => hfile⟩
  | some s =>
    rw [hdisk] at hreboot hfile
    have hrestart : restart app keys app.load s = .ok t := toOption_eq_some.mp hreboot
    unfold restart at hrestart
    simp only [bind_eq_ok, require_eq_ok, exists_const, pure_eq_ok] at hrestart
    obtain ⟨a, -, leadership, hleadership, -, -, -, rfl⟩ := hrestart
    exact ⟨hstore.symm.trans h.store,
      (LeadershipState.history_fromSnapshot hleadership).trans hfile, fun _ => hfile⟩

/-- What becomes of a node that is to record a certificate: it has adopted it as the one of its next
term, or nothing has changed, and if it has returned the certificate is one of its own. -/
def Records (n : Node A μ) (c : LeadershipCertificate) (returned : Bool) (t : Node A μ) : Prop :=
  (t = n ∧ (returned = true → c ∈ n.leadership.certificates)) ∨
    (t.leadership.certificates = n.leadership.certificates ++ [c] ∧
      c.term = n.leadership.certificates.length + 1 ∧ t.leadership.Ranked ∧
      t.Holds n.hasStore t.leadership.history)

/-- **A certificate** is recorded as the one of the next term. -/
theorem records_recordCertificate (keys : Keyring μ) (hranked : n.leadership.Ranked)
    (c : LeadershipCertificate) :
    n.Records c (returns (recordCertificate keys true c) n)
      (after (recordCertificate keys true c) n) := by
  refine returns_after_iff.mpr (ends_recordCertificate
    (fun hlast => .inl ⟨rfl, fun _ => List.mem_of_getLast? hlast⟩) (fun _ => .inl ⟨rfl, nofun⟩)
    fun leadership hnew _ haccept => ⟨fun _ => .inr ?_, fun hnot => absurd (fun _ => rfl) hnot⟩)
  obtain ⟨hgrown, hcertificates, hterm⟩ := hranked.accept hnew haccept
  have hmemory : ({ n with leadership := leadership, replicationPending := none } :
      Node A μ).saved.leadership = leadership :=
    congrArg (fun s : Saved A μ => s.leadership) (toSaved_saved _)
  rw [hmemory]
  exact ⟨hcertificates, hterm, hgrown, .saved rfl rfl⟩

end Holds

end Node

/-! ## Agreement -/

/-- The witness of the election for the term after the first `i` ones: the node that neither leads
nor follows in the order. -/
def electionWitness : ℕ → Role
  | 0 => .tertiary
  | _ + 1 => .primary

/-- A candidate asks the witness of its election. -/
lemma Node.candidacy_eq_some {keys : Keyring μ} {self witness : Role} {tick : ℤ} {n : Node A μ}
    {vote : FailureVote} (hranked : n.leadership.Ranked)
    (h : n.candidacy keys self tick = some (witness, vote)) :
    vote.term = n.leadership.certificates.length + 1 ∧
      witness = electionWitness n.leadership.certificates.length := by
  unfold Node.candidacy at h
  simp only [Option.bind_eq_bind, Option.bind_eq_some_iff, Option.guard_eq_some', exists_const,
    Option.pure_def, Option.some.injEq, Prod.mk.injEq] at h
  obtain ⟨⟨hleader, hself⟩, -, w, hw, rfl, rfl⟩ := h
  refine ⟨congrArg (· + 1) hranked.term, ?_⟩
  have horder := hranked.leader
  generalize n.leadership.certificates.length = i at horder ⊢
  match i with
  | 0 =>
    obtain hl := Option.some.inj horder
    rw [← hl] at hself hw
    cases hself
    cases hw
    rfl
  | 1 =>
    obtain hl := Option.some.inj horder
    rw [← hl] at hself hw
    cases hself
    cases hw
    rfl
  | 2 =>
    obtain hl := Option.some.inj horder
    exact absurd hl.symm hleader
  | i + 3 => simp [Role.order] at horder

namespace Network

section Agreement

variable {app : App A μ ρ} {keys : Keyring μ} {boot : Role → A} {s t : Network A μ} {self : Role}
  {c : LeadershipCertificate}

/-- The certificates that a node has adopted. -/
def certificates (s : Network A μ) (r : Role) : List LeadershipCertificate :=
  (s.nodes r).leadership.certificates

/-- What a message shows about the cluster. A certificate that a candidate has formed goes to the
witness of its election; all others have been adopted. -/
def Warranted (s : Network A μ) : Message → Prop
  | .timeoutVote _ receiver vote _ =>
      ∃ i : ℕ, vote.term = i + 1 ∧ receiver = electionWitness i
  | .vote _ _ _ => True
  | .certificate _ receiver c =>
      (∃ i : ℕ, c.term = i + 1 ∧ receiver = electionWitness i) ∨ ∃ r, c ∈ s.certificates r
  | .recorded sender _ c => c ∈ s.certificates sender
  | .leadership sender _ snapshot => ∀ c ∈ snapshot.certificates, c ∈ s.certificates sender

/-- **The invariant.** Every certificate is the one that the witness of its election holds. -/
structure Elected (s : Network A μ) : Prop where
  ranked : ∀ r, (s.nodes r).leadership.Ranked
  filed : ∀ r, (s.nodes r).Holds (s.nodes r).hasStore (s.nodes r).leadership.history
  held : ∀ (r : Role) (i : ℕ) (c : LeadershipCertificate), (s.certificates r)[i]? = some c →
    (s.certificates (electionWitness i))[i]? = some c
  sent : ∀ m ∈ s.sent, s.Warranted m

/-- What has been shown stays true while nodes only adopt more certificates. -/
lemma Warranted.mono {m : Message} (h : s.Warranted m)
    (hgrows : ∀ r, s.certificates r ⊆ t.certificates r) : t.Warranted m := by
  cases m with
  | timeoutVote => exact h
  | vote => trivial
  | certificate => exact h.imp_right fun ⟨r, hr⟩ => ⟨r, hgrows r hr⟩
  | recorded sender => exact hgrows sender h
  | leadership sender => exact fun c hc => hgrows sender (h c hc)

lemma elected_initial (boot : Role → A) (hasStore : Role → Bool) :
    (initial boot hasStore : Network A μ).Elected where
  ranked _ := LeadershipState.ranked_initial 3
  filed _ := ⟨rfl, rfl, fun _ => rfl⟩
  held r i c h := by simp [certificates, initial, Node.fresh, LeadershipState.initial] at h
  sent m hm := by cases hm

/-- A message that shows what is true is sent. -/
lemma Elected.send {m : Message} (h : s.Elected) (hm : s.Warranted m) : (s.send m).Elected where
  ranked := h.ranked
  filed := h.filed
  held := h.held
  sent m' hm' := by
    rcases List.mem_append.mp hm' with hold | hnew
    · exact h.sent m' hold
    · exact List.mem_singleton.mp hnew ▸ hm

lemma nodes_become (s : Network A μ) (self r : Role) (n : Node A μ) :
    (s.become self n).nodes r = if r = self then n else s.nodes r :=
  Function.update_apply _ _ _ _

/-- A node changes and keeps its terms. -/
lemma Elected.become (h : s.Elected) {n : Node A μ}
    (hn : n.Holds (s.nodes self).hasStore (s.nodes self).leadership.history) :
    (s.become self n).Elected := by
  have hcertificates : ∀ r, (s.become self n).certificates r = s.certificates r := by
    intro r
    rw [certificates, nodes_become]
    split_ifs with hr
    · rw [hr]
      exact (LeadershipState.history_eq_iff.mp hn.memory).2.2
    · rfl
  refine ⟨fun r => ?_, fun r => ?_, fun r i c hc => ?_, fun m hm => ?_⟩
  · rw [nodes_become]
    split_ifs
    · exact (h.ranked self).congr hn.memory
    · exact h.ranked r
  · rw [nodes_become]
    split_ifs
    · rw [hn.store, hn.memory]
      exact hn
    · exact h.filed r
  · rw [hcertificates] at hc ⊢
    exact h.held r i c hc
  · exact (h.sent m hm).mono fun r => (hcertificates r).symm ▸ List.Subset.refl _

/-- **Adoption.** A node adopts a certificate that it may get as the witness of the election, or
that another node holds.

**Proof sketch.** A certificate that the witness adopts is held by nobody before, since the witness
would hold it too. One that another node adopts is held by somebody, so the witness holds the same
one. -/
theorem Elected.record (keys : Keyring μ) (h : s.Elected)
    (hsource : (∃ i : ℕ, c.term = i + 1 ∧ self = electionWitness i) ∨
      ∃ r, c ∈ s.certificates r) :
    (s.record keys self c).Elected ∧
      (returns (Node.recordCertificate keys true c) (s.nodes self) = true →
        c ∈ (s.record keys self c).certificates self) := by
  have hself : ∀ n, (s.become self n).certificates self = n.leadership.certificates := fun n => by
    rw [certificates, nodes_become, if_pos rfl]
  have hrecords := Node.records_recordCertificate keys (h.ranked self) c
  unfold Network.record
  generalize after (Node.recordCertificate keys true c) (s.nodes self) = n at hrecords ⊢
  rcases hrecords with ⟨rfl, hmem⟩ | ⟨hcertificates, hterm, hranked, hholds⟩
  · exact ⟨h.become (h.filed self), fun hreturned => hself _ ▸ hmem hreturned⟩
  · have hother : ∀ r, r ≠ self → (s.become self n).certificates r = s.certificates r :=
      fun r hr => by rw [certificates, nodes_become, if_neg hr, certificates]
    have hgrows : ∀ r, s.certificates r <+: (s.become self n).certificates r := by
      intro r
      by_cases hr : r = self
      · rw [hr, hself, hcertificates]
        exact List.prefix_append _ _
      · exact (hother r hr).symm ▸ List.prefix_rfl
    have hheld : ∀ r i d, (s.certificates r)[i]? = some d →
        ((s.become self n).certificates (electionWitness i))[i]? = some d :=
      fun r i d hd => by
        obtain ⟨later, hlater⟩ := hgrows (electionWitness i)
        have hold := h.held r i d hd
        rw [← hlater, List.getElem?_append_left (List.getElem?_eq_some_iff.mp hold).1]
        exact hold
    refine ⟨⟨fun r => ?_, fun r => ?_, fun r i d hd => ?_, fun m hm => ?_⟩, fun _ => ?_⟩
    · rw [nodes_become]
      split_ifs
      · exact hranked
      · exact h.ranked r
    · rw [nodes_become]
      split_ifs
      · rw [hholds.store]
        exact hholds
      · exact h.filed r
    · by_cases hr : r = self
      · rw [hr, hself, hcertificates] at hd
        rcases lt_trichotomy i (s.certificates self).length with hi | hi | hi
        · exact hheld self i d (List.getElem?_append_left hi ▸ hd)
        · -- the certificate of the new term
          have hindex : c.term = i + 1 := hi ▸ hterm
          rcases hsource with ⟨j, hj, hwitness⟩ | ⟨r', hr'⟩
          · obtain rfl : j = i := by omega
            rw [← hwitness, hself, hcertificates]
            exact hd
          · obtain rfl : c = d := by simpa [certificates, hi] using hd
            exact hheld r' i c ((h.ranked r').get?_of_mem hr' hindex)
        · rw [List.getElem?_eq_none (by simp [certificates] at hi ⊢; omega)] at hd
          cases hd
      · rw [hother r hr] at hd
        exact hheld r i d hd
    · exact (h.sent m hm).mono fun r => (hgrows r).subset
    · rw [hself, hcertificates]
      exact List.mem_append_right _ (List.mem_singleton_self c)

/-- **Every event keeps the invariant.** -/
theorem Elected.step [DecidableEq μ] (h : s.Elected) {e : NetworkEvent A μ}
    (hstep : step app keys boot s e = some t) : t.Elected := by
  cases e with
  | perform self operation =>
    obtain rfl := Option.some.inj hstep
    exact h.become ((h.filed self).run operation)
  | requestVote self tick =>
    simp only [Network.step, Option.bind_eq_bind, Option.bind_eq_some_iff, Option.pure_def,
      Option.some.injEq] at hstep
    obtain ⟨⟨witness, vote⟩, hvote, rfl⟩ := hstep
    exact h.send ⟨_, Node.candidacy_eq_some (h.ranked self) hvote⟩
  | answerVote self sender vote ledgerDigest now =>
    simp only [Network.step, Option.bind_eq_bind, Option.bind_eq_some_iff, Option.pure_def,
      Option.some.injEq] at hstep
    obtain ⟨-, -, signed, -, rfl⟩ := hstep
    exact h.send trivial
  | formCertificate self witness vote ledgerDigest signed =>
    simp only [Network.step, Option.bind_eq_bind, Option.bind_eq_some_iff, Option.pure_def,
      Option.some.injEq, Option.guard_eq_some', exists_const, toOption_eq_some] at hstep
    obtain ⟨hvote, -, formed, hformed, certificate, rfl, rfl⟩ := hstep
    obtain ⟨i, hterm, hwitness⟩ := h.sent _ hvote
    exact h.send (.inl ⟨i, (LeadershipState.certify_eq_ok hformed).trans hterm, hwitness⟩)
  | receiveCertificate self sender certificate =>
    simp only [Network.step, Option.bind_eq_bind, Option.bind_eq_some_iff, Option.pure_def,
      Option.guard_eq_some', exists_const] at hstep
    obtain ⟨hsent, hstep⟩ := hstep
    obtain ⟨hrecord, hadopted⟩ := h.record keys (h.sent _ hsent)
    split_ifs at hstep with hreturns
    · obtain rfl := Option.some.inj hstep
      exact hrecord.send (hadopted hreturns)
    · obtain rfl := Option.some.inj hstep
      exact hrecord
  | takeRecorded self witness certificate =>
    simp only [Network.step, Option.bind_eq_bind, Option.bind_eq_some_iff, Option.pure_def,
      Option.some.injEq, Option.guard_eq_some', exists_const] at hstep
    obtain ⟨hsent, rfl⟩ := hstep
    exact (h.record keys (.inr ⟨witness, h.sent _ hsent⟩)).1
  | answerLeadership self receiver =>
    obtain rfl := Option.some.inj hstep
    exact h.send fun c hc => hc
  | takeLeadership self witness snapshot =>
    simp only [Network.step, Option.bind_eq_bind, Option.bind_eq_some_iff, Option.pure_def,
      Option.some.injEq, Option.guard_eq_some', exists_const, toOption_eq_some] at hstep
    obtain ⟨hsent, recovered, hrecovered, certificate, rfl, rfl⟩ := hstep
    exact (h.record keys (.inr ⟨witness, h.sent _ hsent _
      (LeadershipState.recover_eq_ok hrecovered)⟩)).1
  | tellCertificate self receiver =>
    simp only [Network.step, Option.bind_eq_bind, Option.bind_eq_some_iff, Option.pure_def,
      Option.some.injEq, Option.guard_eq_some', exists_const] at hstep
    obtain ⟨-, certificate, hlast, rfl⟩ := hstep
    exact h.send (.inr ⟨self, List.mem_of_getLast? hlast⟩)
  | crash self =>
    simp only [Network.step, Option.bind_eq_bind, Option.bind_eq_some_iff, Option.pure_def,
      Option.some.injEq] at hstep
    obtain ⟨n, hn, rfl⟩ := hstep
    exact h.become ((h.filed self).reboot hn)

/-- Two nodes agree on the certificates of the terms that both have reached. -/
lemma Elected.agree (h : s.Elected) (x y : Role) {i : ℕ} (hx : i < (s.certificates x).length)
    (hy : i < (s.certificates y).length) : (s.certificates x)[i]? = (s.certificates y)[i]? := by
  have hfirst := h.held x i _ (List.getElem?_eq_getElem hx)
  have hsecond := h.held y i _ (List.getElem?_eq_getElem hy)
  rw [List.getElem?_eq_getElem hx, List.getElem?_eq_getElem hy, ← hfirst, ← hsecond]

/-- **One certificate for each term.** In every run of the cluster, whatever is lost, delayed,
repeated or reordered and whichever nodes crash and come back from their files, any two nodes that
have reached a term hold one certificate for it. Nodes in one term have the same leader, the same
fenced position and the same certified timeout.

**Proof sketch.** The certificate of either node is the one that the witness of the election
holds. -/
theorem certificates_agree [DecidableEq μ] (app : App A μ ρ) (keys : Keyring μ) (boot : Role → A)
    (hasStore : Role → Bool) {es : List (NetworkEvent A μ)}
    (h : Transition.run (step app keys boot) (initial boot hasStore) es = some s) (x y : Role) :
    (∀ term : ℕ, 1 ≤ term → term ≤ (s.nodes x).leadership.term →
      term ≤ (s.nodes y).leadership.term → ∃ c : LeadershipCertificate, c.term = term ∧
        (s.nodes x).leadership.certificateOf term = some c ∧
        (s.nodes y).leadership.certificateOf term = some c) ∧
      ((s.nodes x).leadership.term = (s.nodes y).leadership.term →
        (s.nodes x).leadership.leader = (s.nodes y).leadership.leader ∧
        (s.nodes x).leadership.fencedPosition = (s.nodes y).leadership.fencedPosition ∧
        (s.nodes x).leadership.certifiedTimeout = (s.nodes y).leadership.certifiedTimeout) := by
  have hs : s.Elected := Transition.run_induction (I := Elected)
    (fun _ _ _ helected hstep => helected.step hstep) (elected_initial boot hasStore) h
  have hx := hs.ranked x
  have hy := hs.ranked y
  constructor
  · intro term hpos hreachx hreachy
    obtain ⟨i, rfl⟩ := Nat.exists_eq_add_of_le' hpos
    rw [hx.term] at hreachx
    rw [hy.term] at hreachy
    have hix : i < (s.certificates x).length := by exact_mod_cast hreachx
    have hiy : i < (s.certificates y).length := by exact_mod_cast hreachy
    have hc := List.getElem?_eq_getElem hix
    refine ⟨(s.certificates x)[i], ?_, hx.certificateOf hc, hy.certificateOf ?_⟩
    · exact_mod_cast hx.terms i _ hc
    · exact (hs.agree x y hix hiy) ▸ hc
  · intro hterm
    rw [hx.term, hy.term, Nat.cast_inj] at hterm
    have hcertificates : s.certificates x = s.certificates y := by
      refine List.ext_getElem? fun i => ?_
      by_cases hi : i < (s.certificates x).length
      · exact hs.agree x y hi (hterm ▸ hi)
      · rw [List.getElem?_eq_none (Nat.le_of_not_lt hi),
          List.getElem?_eq_none (hterm ▸ Nat.le_of_not_lt hi)]
    refine ⟨Option.some.inj ?_, ?_, ?_⟩
    · rw [← hx.leader, ← hy.leader, hterm]
    · exact congrArg (fun cs => cs.getLast?.map fun c => c.committedNonce) hcertificates
    · exact congrArg (fun cs => cs.getLast?.map LeadershipState.certifiedTick) hcertificates

end Agreement

/-! ## An election -/

section Example

open Ledger (integerLib)

/-- The keys of nodes that replicate nothing. -/
def clusterKeys : Keyring Unit where
  replication := .ofSecret integerLib "cluster" fun _ => .null
  failover := .ofKeys integerLib (failoverKey integerLib "cluster")

/-- An application without mutations. -/
def idleApp : App Unit Unit Unit where
  apply _ := throw .type
  trial _ := throw .type
  wellFormed _ := false
  digest _ := "nothing"
  load := pure

/-- The vote that a role casts on the timeout of the first leader. -/
def timeoutBallot (voter : Role) : FailureVote := clusterKeys.failover.vote {
  voter := voter
  term := 1
  accused := .primary
  candidate := .secondary
  observedTick := 13
  committedNonce := 0 }

/-- The certificate of the second leader. -/
def firstCertificate : LeadershipCertificate where
  term := 1
  leader := .secondary
  committedNonce := 0
  votes := [timeoutBallot .secondary, timeoutBallot .tertiary]
  digest := clusterKeys.failover.digest 0 .secondary 1
    [timeoutBallot .secondary, timeoutBallot .tertiary]

/-- The Secondary is elected while its witness crashes and comes back. -/
def election : List (NetworkEvent Unit Unit) :=
  [.perform .secondary (.startClock true 10),
    .perform .tertiary (.startClock true 10),
    .requestVote .secondary 13,
    .answerVote .tertiary .secondary (timeoutBallot .secondary) "nothing" 13,
    .formCertificate .secondary .tertiary (timeoutBallot .secondary) "nothing"
      (timeoutBallot .tertiary),
    .receiveCertificate .tertiary .secondary firstCertificate,
    .crash .tertiary,
    .takeRecorded .secondary .tertiary firstCertificate]

/-- Two nodes that agree on their second leader. -/
theorem certificates_agree_elected :
    ∃ s, Transition.run (step idleApp clusterKeys fun _ => ())
        (initial (fun _ => ()) fun _ => true) election = some s ∧
      (s.nodes .secondary).leadership.term = 1 ∧ (s.nodes .tertiary).leadership.term = 1 ∧
      (s.nodes .secondary).leadership.leader = (s.nodes .tertiary).leadership.leader := by
  have hrun : (Transition.run (step idleApp clusterKeys fun _ => ())
      (initial (fun _ => ()) fun _ => true) election).any (fun s =>
        decide ((s.nodes .secondary).leadership.term = 1 ∧
          (s.nodes .tertiary).leadership.term = 1)) = true := by
    decide +kernel
  obtain ⟨s, hs, hterms⟩ := (Option.any_eq_true _ _).mp hrun
  have hterms := of_decide_eq_true hterms
  exact ⟨s, hs, hterms.1, hterms.2, ((certificates_agree idleApp clusterKeys
    (fun _ => ()) (fun _ => true) hs .secondary .tertiary).2
      (hterms.1.trans hterms.2.symm)).1⟩

end Example

end Network

end SplitChain
