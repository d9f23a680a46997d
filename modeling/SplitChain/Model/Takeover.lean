import SplitChain.Model.Adoption
import SplitChain.Model.Rejoining

set_option relaxedAutoImplicit false
set_option autoImplicit false

/-!
# The cluster survives its leader

When the leader of a term is gone, its successor asks the third node, brings both logs to one length
and collects its vote. The two survivors reach the next term, and go on to replicate, unless one of
them holds the prepared record of an envelope that the other one has not committed, or the candidate
lacks more than ninety envelopes.

## Main definitions

* `SplitChain.Node.reconcile` — `_reconcile_with_witness` with a witness that answers every call.
* `SplitChain.Node.takeOver` — `failover_step` of the successor, with such a witness.
* `SplitChain.Node.Clear` — no survivor holds a record that is in the way.

## Main results

* `SplitChain.LeadershipState.certify_of_fits`, `accept_counted` — two votes that fit.
* `SplitChain.LiveCluster.poised_of_run` — the leadership states of a run.
* `SplitChain.ReferenceNode.Level.elects` — the election at one position.
* `SplitChain.LiveCluster.takeOver_iff` — when the successor takes over.
-/

namespace SplitChain

open Raise Proc

/-! ## Two votes -/

namespace LeadershipState

section Votes

variable {authority : FailoverAuthority} {s t : LeadershipState} {vote signed : FailureVote}
  {candidate : Role}

/-- A state that has collected two votes. -/
def counted (s : LeadershipState) (vote signed : FailureVote) : LeadershipState :=
  { s with votes := ((∅ : Dict Role FailureVote).set vote.voter vote).set signed.voter signed }

/-- **Two votes that fit** a state, cast by two voters about one timeout. -/
structure Agrees (authority : FailoverAuthority) (s : LeadershipState) (candidate : Role)
    (vote signed : FailureVote) : Prop where
  valid : s.Valid authority
  next : s.leader.successor? = some candidate
  own : s.fits authority candidate vote = true
  answer : s.fits authority candidate signed = true
  voters : vote.voter ≠ signed.voter
  tick : vote.observedTick = signed.observedTick

/-- The second vote finds the first one. -/
lemma Agrees.second (h : s.Agrees authority candidate vote signed) :
    ((∅ : Dict Role FailureVote).set vote.voter vote).get? signed.voter = none ∧
      ((∅ : Dict Role FailureVote).set vote.voter vote).values.head?.all
        (fun first => first.observedTick == signed.observedTick) = true := by
  refine ⟨?_, ?_⟩
  · rw [Dict.get?_set, if_neg h.voters]
    rfl
  · have hhead : ((∅ : Dict Role FailureVote).set vote.voter vote).values.head? = some vote := rfl
    rw [hhead, Option.all_some, beq_iff_eq]
    exact h.tick

/-- The state that has collected them stands, and they are a quorum. -/
lemma Agrees.counted (h : s.Agrees authority candidate vote signed) :
    (s.counted vote signed).Standing authority ∧ quorum ≤ (s.counted vote signed).votes.size := by
  obtain ⟨hnew, hfirst⟩ := h.second
  have hone : Standing authority { s with votes := (∅ : Dict Role FailureVote).set vote.voter vote } :=
    (standing_of_valid (h.valid.congr (t := s.snapshot) rfl) rfl).record h.next h.own rfl
  refine ⟨hone.record h.next h.answer hfirst, ?_⟩
  have hempty : (∅ : Dict Role FailureVote).get? vote.voter = none := rfl
  have hsize : (s.counted vote signed).votes.size = 2 := by
    show (((∅ : Dict Role FailureVote).set vote.voter vote).set signed.voter signed).size = 2
    rw [Dict.size_set_of_none _ hnew, Dict.size_set_of_none _ hempty]
    rfl
  exact hsize.ge

/-- **They form a certificate.** -/
theorem certify_of_fits (h : s.Agrees authority candidate vote signed) :
    s.certify authority vote signed =
      .ok (some ((s.counted vote signed).certificate authority candidate)) := by
  obtain ⟨hnew, hfirst⟩ := h.second
  have hempty : (∅ : Dict Role FailureVote).get? vote.voter = none := rfl
  have hone : s.snapshot.submit authority vote =
      .ok ({ s with votes := (∅ : Dict Role FailureVote).set vote.voter vote }, none) := by
    rw [submit_of_fits (s := s.snapshot) h.next h.own hempty rfl]
    rfl
  have htwo : LeadershipState.submit authority
      { s with votes := (∅ : Dict Role FailureVote).set vote.voter vote } signed =
      .ok ((s.counted vote signed).certified authority candidate,
        some ((s.counted vote signed).certificate authority candidate)) := by
    rw [submit_of_fits (s := { s with votes := (∅ : Dict Role FailureVote).set vote.voter vote })
      h.next h.answer hnew hfirst]
    exact if_neg (not_lt.mpr h.counted.2)
  have hrestored : fromSnapshot authority s = .ok s.snapshot := h.valid
  unfold certify
  rw [hrestored, ok_bind, hone, ok_bind]
  dsimp only
  rw [htwo]
  rfl

/-- **It is adopted** by every state of the term that the votes fit. -/
theorem accept_counted (h : s.Agrees authority candidate vote signed) :
    ∃ t, s.acceptCertificate authority ((s.counted vote signed).certificate authority candidate) =
        .ok t ∧ t.leader = candidate ∧ t.committedNonce = s.committedNonce ∧
      t.certificates = s.certificates ++ [(s.counted vote signed).certificate authority candidate] := by
  obtain ⟨hstanding, hquorum⟩ := h.counted
  obtain ⟨t, ht, hsame⟩ := hstanding.acceptCertificate hquorum h.next (t := s) rfl
  obtain ⟨-, -, hleader, -, hnonce, hcertificates⟩ := snapshot_eq_iff.mp hsame
  exact ⟨t, ht, hleader, hnonce, hcertificates⟩

/-- The certificate names nothing of a state but the term and the position. -/
lemma certificate_counted_congr (hterm : t.term = s.term)
    (hnonce : t.committedNonce = s.committedNonce) :
    (t.counted vote signed).certificate authority candidate =
      (s.counted vote signed).certificate authority candidate := by
  unfold certificate counted
  rw [hterm, hnonce]

end Votes

/-! ## Checked certificates -/

section Certified

variable {authority : FailoverAuthority} {s t : LeadershipState}

/-- What a history of certificates ends with: the position of one of them, at least a timeout after
the tick that it starts with. -/
lemma checkHistory_last {timeoutTicks expectedTerm tick nonce tick' nonce' : ℤ}
    {leader leader' : Role} {cs : List LeadershipCertificate} (htimeout : 0 ≤ timeoutTicks)
    (h : checkHistory authority timeoutTicks expectedTerm leader tick nonce cs =
      .ok (leader', tick', nonce')) :
    (cs = [] ∧ tick' = tick ∧ nonce' = nonce) ∨
      (∃ c ∈ cs, nonce' = c.committedNonce) ∧ tick + timeoutTicks ≤ tick' := by
  induction cs generalizing expectedTerm leader tick nonce with
  | nil =>
    obtain ⟨-, rfl, rfl⟩ : leader = leader' ∧ tick = tick' ∧ nonce = nonce' := by
      simpa [checkHistory] using h
    exact .inl ⟨rfl, rfl, rfl⟩
  | cons c cs ih =>
    simp only [checkHistory, bind_eq_ok, require_eq_ok, exists_const, orRaise_eq_ok] at h
    obtain ⟨next, -, hc, hrest⟩ := h
    have hlater : tick + timeoutTicks ≤ certifiedTick c := by
      simp only [continues, Bool.and_eq_true, decide_eq_true_iff, List.all_eq_true] at hc
      obtain ⟨⟨⟨⟨⟨-, hquorum⟩, -⟩, -⟩, hsupports⟩, -⟩ := hc
      cases hvotes : c.votes with
      | nil =>
        rw [hvotes] at hquorum
        cases hquorum
      | cons v votes =>
        have hv := hsupports v (hvotes ▸ List.mem_cons_self)
        simp only [supports, Bool.and_eq_true, decide_eq_true_iff] at hv
        have hfirst : certifiedTick c = v.observedTick := by
          rw [certifiedTick, hvotes]
          rfl
        have hsilent := hv.2
        omega
    refine .inr ?_
    rcases ih hrest with ⟨-, rfl, rfl⟩ | ⟨⟨d, hd, hnonce⟩, hlast⟩
    · exact ⟨⟨c, List.mem_cons_self, rfl⟩, hlater⟩
    · exact ⟨⟨d, List.mem_cons_of_mem _ hd, hnonce⟩, by omega⟩

/-- **The certificates of a state have been checked**, and its clock shows no time before the last
one of them. -/
structure Certified (authority : FailoverAuthority) (s : LeadershipState) : Prop where
  timeout : 2 ≤ s.timeoutTicks
  history : ∃ tick nonce, checkHistory authority s.timeoutTicks 1 .primary 0 0 s.certificates =
    .ok (s.leader, tick, nonce) ∧ (s.certificates ≠ [] → tick ≤ s.lastHeartbeatTick)

/-- A record that is accepted has certificates that have been checked. -/
lemma Valid.certified (h : s.Valid authority) : s.Certified authority := by
  obtain ⟨htwo, -, tick, nonce, hcheck, htick, -⟩ := valid_iff.mp h
  exact ⟨htwo, tick, nonce, hcheck, fun _ => htick⟩

/-- It is accepted, if its clock does not show a time before the start, and its position is not
before the one of a certificate. -/
lemma Certified.valid (h : s.Certified authority) (hranked : s.Ranked)
    (hclock : 0 ≤ s.lastHeartbeatTick) (hnonce : 0 ≤ s.committedNonce)
    (hposition : ∀ c ∈ s.certificates, c.committedNonce ≤ s.committedNonce) :
    s.Valid authority := by
  obtain ⟨tick, nonce, hcheck, htick⟩ := h.history
  have hbound : s.certificates.length < Role.order.length :=
    (List.getElem?_eq_some_iff.mp hranked.leader).1
  refine valid_iff.mpr ⟨h.timeout, ⟨hranked.term, ?_, ?_, hclock, hnonce⟩, tick, nonce, hcheck, ?_⟩
  · rw [hranked.term]
    exact Int.natCast_nonneg _
  · rw [hranked.term]
    exact_mod_cast hbound
  · rcases checkHistory_last (by have := h.timeout; omega) hcheck with
      ⟨-, rfl, rfl⟩ | ⟨⟨c, hc, rfl⟩, -⟩
    · exact ⟨hclock, hnonce⟩
    · exact ⟨htick (List.ne_nil_of_mem hc), hposition c hc⟩

/-- The clock is started only before the first certificate. -/
lemma Certified.clock (h : s.Certified authority) (hzero : s.lastHeartbeatTick = 0) (tick : ℤ) :
    Certified authority { s with lastHeartbeatTick := tick } := by
  obtain ⟨last, nonce, hcheck, htick⟩ := h.history
  refine ⟨h.timeout, last, nonce, hcheck, fun hne => ?_⟩
  have htimeout := h.timeout
  rcases checkHistory_last (by omega) hcheck with ⟨hnil, -⟩ | ⟨-, hlast⟩
  · exact absurd hnil hne
  · have hbefore := htick hne
    omega

/-- A heartbeat comes later. -/
lemma Certified.heartbeat (h : s.Certified authority) {leader : Role} {term tick nonce : ℤ}
    (hbeat : s.heartbeat leader term tick nonce = .ok t) :
    t.Certified authority ∧ t.committedNonce = nonce := by
  unfold LeadershipState.heartbeat at hbeat
  simp only [bind_eq_ok, require_eq_ok, exists_const, pure_eq_ok, Bool.and_eq_true, beq_iff_eq,
    decide_eq_true_iff] at hbeat
  obtain ⟨-, ⟨hlater, -⟩, rfl⟩ := hbeat
  obtain ⟨last, position, hcheck, htick⟩ := h.history
  exact ⟨⟨h.timeout, last, position, hcheck, fun hne => (htick hne).trans hlater.le⟩, rfl⟩

/-- A certificate is checked with the ones before it. -/
lemma Certified.accept (h : s.Certified authority) {c : LeadershipCertificate}
    (haccept : s.acceptCertificate authority c = .ok t) :
    t.Certified authority ∧ t.committedNonce = s.committedNonce := by
  have hnonce : t.committedNonce = s.committedNonce := by
    rcases acceptCertificate_eq_ok haccept with ⟨-, rfl⟩ | ⟨-, -, -, -, tick, rfl⟩
    · rfl
    · rfl
  refine ⟨?_, hnonce⟩
  unfold acceptCertificate at haccept
  split_ifs at haccept
  · simp only [bind_eq_ok, require_eq_ok, exists_const, pure_eq_ok] at haccept
    exact haccept.2 ▸ h
  · simp only [bind_eq_ok, require_eq_ok, exists_const, pure_eq_ok, orRaise_eq_ok] at haccept
    obtain ⟨next, -, -, -, first, -, verified, hverified, rfl⟩ := haccept
    obtain ⟨hvalid, rfl⟩ := valid_of_fromSnapshot hverified
    refine Valid.certified ?_
    exact hvalid.advance rfl rfl le_rfl le_rfl

end Certified

end LeadershipState

/-! ## The leadership states of a run -/

section Poised

variable {A μ ρ : Type} {app : App A μ ρ} {keys : Keyring μ}

/-- A log without gaps, as long as the position. -/
def Saved.Whole (s : Saved A μ) : Prop :=
  (s.replicationLog.length : ℤ) = s.committedPosition ∧
    ∀ (i : ℕ) e, s.replicationLog[i]? = some e → e.nonce = i + 1

/-- **The leadership state of a node**: its certificates have been checked, and its position is the
one of the log, if this has no gaps. -/
def Node.Poised (keys : Keyring μ) (n : Node A μ) : Prop :=
  n.leadership.Certified keys.failover ∧
    (n.toSaved.Whole → n.leadership.committedNonce = n.committedPosition)

namespace Node

variable {n m : Node A μ}

/-- What is saved counts. -/
lemma Poised.congr (h : n.Poised keys) (hsaved : m.toSaved = n.toSaved) : m.Poised keys := by
  have hsame : Poised keys m = Poised keys n :=
    congrArg (fun s : Saved A μ => s.leadership.Certified keys.failover ∧
      (s.Whole → s.leadership.committedNonce = s.committedPosition)) hsaved
  exact hsame ▸ h

/-- Another state of the application. -/
lemma Poised.setApp (h : n.Poised keys) (a : A) : (n.setApp a).Poised keys := h

/-- **Every part of an operation keeps it.** -/
lemma stable_poised : Stable app keys (Poised (A := A) keys) where
  saved n h := h.congr (toSaved_saved n)
  pending _ _ h := h
  leadership n l hl h := by
    cases hl with
    | heartbeat hbeat =>
      obtain ⟨hcertified, hnonce⟩ := h.1.heartbeat hbeat
      exact ⟨hcertified, fun _ => hnonce⟩
    | clock hzero tick => exact ⟨h.1.clock hzero tick, h.2⟩
    | certificate haccept =>
      obtain ⟨hcertified, hnonce⟩ := h.1.accept haccept
      exact ⟨hcertified, fun hwhole => hnonce.trans (h.2 hwhole)⟩
  trial mutation := Preserves.onPart (J := fun _ => True)
    (fun _ _ => ends_iff.mpr ⟨fun _ _ _ => trivial, fun _ _ _ => trivial⟩) (fun _ _ => trivial)
    fun _ a h _ => h.setApp a
  commit envelope n h := by
    rw [ends_onApp, ends_iff]
    refine ⟨fun r a _ => ⟨⟨h.1.timeout, h.1.history⟩, fun hwhole => ?_⟩, fun e a _ => h.setApp a⟩
    -- the new envelope ends the log, so it has the number of its length
    have hlast : ((n.setApp a).appendLog envelope).replicationLog[n.replicationLog.length]? =
        some envelope := List.getElem?_concat_length
    have hnumber := hwhole.2 _ _ hlast
    have hlength := hwhole.1
    have hone : (((n.setApp a).appendLog envelope).replicationLog.length : ℤ) =
        n.replicationLog.length + 1 := by
      show ((n.replicationLog ++ [envelope]).length : ℤ) = _
      rw [List.length_append]
      rfl
    exact hnumber.trans (hone.symm.trans hlength)

/-- A new node. -/
lemma poised_fresh (a : A) (hasStore : Bool) : (fresh a hasStore : Node A μ).Poised keys :=
  ⟨(LeadershipState.standing_initial (by decide)).valid.certified, fun _ => rfl⟩

/-- A node that comes back. -/
lemma Poised.reboot [DecidableEq μ] {boot : A} (hm : n.reboot app keys boot = some m) :
    m.Poised keys := by
  unfold Node.reboot at hm
  split_ifs at hm
  cases hdisk : n.disk with
  | none =>
    rw [hdisk] at hm
    exact Option.some.inj hm ▸ poised_fresh boot true
  | some s =>
    rw [hdisk] at hm
    have hrestart := toOption_eq_some.mp hm
    unfold Node.restart at hrestart
    simp only [bind_eq_ok, require_eq_ok, exists_const, pure_eq_ok, beq_iff_eq] at hrestart
    obtain ⟨a, -, leadership, hleadership, hposition, -, -, rfl⟩ := hrestart
    obtain ⟨hvalid, rfl⟩ := LeadershipState.valid_of_fromSnapshot hleadership
    exact ⟨(hvalid.congr (t := s.leadership.snapshot) rfl).certified, fun _ => hposition⟩

end Node

namespace LiveCluster

variable {boot : Role → A} {hasStore : Role → Bool} {s : LiveCluster A μ}
  {es : List (ClusterEvent A μ)} {r : Role}

/-- **The leadership states of a run**: the position is the one of the node, and the state can be
restored, unless its clock shows a time before the start. -/
theorem poised_of_run [DecidableEq μ]
    (h : Transition.run (step app keys boot) (initial boot hasStore) es = some s) :
    (s.nodes r).leadership.committedNonce = (s.nodes r).committedPosition ∧
      (0 ≤ (s.nodes r).leadership.lastHeartbeatTick →
        (s.nodes r).leadership.Valid keys.failover) := by
  have hs := sound_of_run h
  have hpoised : ∀ r, (s.nodes r).Poised keys := Transition.run_induction
    (I := fun s : LiveCluster A μ => ∀ r, (s.nodes r).Poised keys)
    (fun _ _ _ hv hstep => step_keeps (fun _ => Node.stable_poised)
      (fun r a _ hr => after_iff.mpr (Node.ends_modify_save.mpr
        ⟨fun _ => (hr.setApp a).congr (Node.toSaved_saved _), fun _ => hr.setApp a⟩))
      (fun _ _ _ _ hm => Node.Poised.reboot hm) hv hstep)
    (fun r => Node.poised_fresh _ _) h
  have hposition := (hpoised r).2 ⟨hs.length r, hs.numbered r⟩
  refine ⟨hposition, fun hclock => (hpoised r).1.valid (hs.ranked r) hclock ?_ fun c hc => ?_⟩
  · rw [hposition, ← hs.length r]
    exact Int.natCast_nonneg _
  · rw [hposition, ← hs.length r]
    exact hs.certified r c hc

end LiveCluster

end Poised

/-! ## The steps of a takeover -/

namespace Node

section Takeover

variable {A μ ρ : Type} [DecidableEq μ] (app : App A μ ρ) (keys : Keyring μ)

/-- The saves of a node whose disk works. -/
def saving : ℕ → Bool × Bool := fun _ => (true, true)

/-- `_sync_from_peer` of a node whose saves return: whether it returns true, and the node after
it. -/
def fetch (self : Role) (peer n : Node A μ) : Bool × Node A μ :=
  match sync app keys self saving peer ⟨n, []⟩ with
  | .ok reached s => (reached, s.node)
  | .error _ s => (false, s.node)

omit [DecidableEq μ] in
/-- Whether the peer has the position and the ledger of a node. -/
def confirms (peer n : Node A μ) : Bool :=
  match history app peer n.committedPosition with
  | .ok remote => remote.nonce == n.committedPosition && remote.ledgerDigest == app.digest n.app
  | .error _ => false

/-- `_reconcile_with_witness` with a witness that answers every call: whether it returns true, and
both nodes after it. -/
def reconcile (self witness : Role) (n w : Node A μ) : Bool × Node A μ × Node A μ :=
  -- a node that leads does not tell its position
  if w.leadership.leader = witness then (false, n, w)
  else
    let (fetched, n₁) :=
      if n.committedPosition < w.committedPosition then fetch app keys self w n
      else (n.replicationPending.isNone, n)
    if fetched = true ∧ n₁.replicationPending = none ∧
        (n₁.replicationLog.length : ℤ) = n₁.committedPosition then
      let (pushed, w₁) :=
        if w.committedPosition < n₁.committedPosition then syncHistory app keys witness n₁ w
        else (true, w)
      (pushed && confirms app w₁ n₁, n₁, w₁)
    else (false, n₁, w)

/-- The end of `failover_step`: the candidate recovers the certificate of a witness that has gone on
already, or collects its vote. The clock of the witness shows `now`. -/
def elect (self witness : Role) (tick now : ℤ) (n w : Node A μ) : Node A μ × Node A μ :=
  if w.leadership.term = n.leadership.term + 1 then
    match n.leadership.recover keys.failover w.leadership with
    | .ok (some certificate) => (after (recordCertificate keys true certificate) n, w)
    | _ => (n, w)
  else
    let vote := n.candidateVote keys self tick
    match receiveTimeoutVote app keys witness now w vote (app.digest n.app) with
    | .error _ => (n, w)
    | .ok signed =>
      match n.leadership.certify keys.failover vote signed with
      | .ok (some certificate) =>
        let w₁ := after (recordCertificate keys true certificate) w
        if returns (recordCertificate keys true certificate) w then
          (after (recordCertificate keys true certificate) n, w₁)
        else (n, w₁)
      | _ => (n, w)

/-- `failover_step` of a node that does not lead, when its clock shows `tick`, with a witness that
answers every call: both nodes after it. -/
def takeOver (self : Role) (tick now : ℤ) (n w : Node A μ) : Node A μ × Node A μ :=
  let n := after (startClock true tick) n
  let state := n.leadership
  if state.leader = .tertiary ∨ state.leader.successor? ≠ some self ∨
      tick - state.lastHeartbeatTick < state.timeoutTicks then (n, w)
  else
    match Role.witness? state.leader self with
    | none => (n, w)
    | some witness =>
      let (reconciled, n₁, w₁) := reconcile app keys self witness n w
      if reconciled then elect app keys self witness tick now n₁ w₁ else (n₁, w₁)

variable {app keys} {self witness : Role} {tick now : ℤ} {n w : Node A μ}

omit [DecidableEq μ] in
/-- A certificate that is adopted as a new one is saved, and the prepared record is dropped. -/
lemma recordCertificate_of_accept {c : LeadershipCertificate} {l : LeadershipState}
    (hposition : n.leadership.committedNonce = n.committedPosition)
    (haccept : n.leadership.acceptCertificate keys.failover c = .ok l)
    (hnew : l.certificates = n.leadership.certificates ++ [c]) :
    returns (recordCertificate keys true c) n = true ∧
      (after (recordCertificate keys true c) n).toSaved =
        { n.toSaved with leadership := l, replicationPending := none } := by
  have hlast : n.leadership.certificates.getLast? ≠ some c := by
    intro hlast
    rcases LeadershipState.acceptCertificate_eq_ok haccept with ⟨-, rfl⟩ | ⟨hfresh, -⟩
    · exact List.cons_ne_nil _ _ (List.append_right_eq_self.mp hnew.symm)
    · exact hfresh (List.mem_of_getLast? hlast)
  refine returns_after_iff (P := fun r (t : Node A μ) => r = true ∧
    t.toSaved = { n.toSaved with leadership := l, replicationPending := none }).mpr ?_
  unfold recordCertificate
  rw [ends_bind, ends_get, if_pos hlast, ends_bind, ends_lift]
  refine ⟨fun _ _ => ?_, fun e he => ?_⟩
  · rw [ends_bind, ends_lift]
    refine ⟨fun l' hl' => ends_modify_save.mpr ⟨fun _ => ⟨rfl, ?_⟩, fun hnot => ?_⟩, fun e he => ?_⟩
    · obtain rfl := Except.ok.inj (hl'.symm.trans haccept)
      exact toSaved_saved _
    · exact absurd (canSave_true _) hnot
    · cases he.symm.trans haccept
  · rw [require, if_pos (beq_iff_eq.mpr hposition)] at he
    cases he

omit [DecidableEq μ] in
/-- **Both survivors adopt the certificate** that their votes form.

**Proof sketch.** Each vote fits the states of both, so that each state adopts the certificate of
the votes that it would have collected itself; this is one certificate, since it names nothing but
the term, the position and the votes. -/
theorem elect_of_fits {candidate : Role} {signed : FailureVote}
    (hterm : w.leadership.term = n.leadership.term)
    (hsigned : receiveTimeoutVote app keys witness now w (n.candidateVote keys self tick)
      (app.digest n.app) = .ok signed)
    (hn : n.leadership.Agrees keys.failover candidate (n.candidateVote keys self tick) signed)
    (hw : w.leadership.Agrees keys.failover candidate (n.candidateVote keys self tick) signed)
    (hnposition : n.leadership.committedNonce = n.committedPosition)
    (hwposition : w.leadership.committedNonce = w.committedPosition)
    (hsame : w.committedPosition = n.committedPosition) :
    ∃ l l', l.leader = candidate ∧ l'.leader = candidate ∧
      l.certificates = n.leadership.certificates ++ [(n.leadership.counted
        (n.candidateVote keys self tick) signed).certificate keys.failover candidate] ∧
      l'.certificates = w.leadership.certificates ++ [(n.leadership.counted
        (n.candidateVote keys self tick) signed).certificate keys.failover candidate] ∧
      (elect app keys self witness tick now n w).1.toSaved =
        { n.toSaved with leadership := l, replicationPending := none } ∧
      (elect app keys self witness tick now n w).2.toSaved =
        { w.toSaved with leadership := l', replicationPending := none } := by
  obtain ⟨l, haccept, hleader, -, hcertificates⟩ := LeadershipState.accept_counted hn
  obtain ⟨l', haccept', hleader', -, hcertificates'⟩ := LeadershipState.accept_counted hw
  have hone : (w.leadership.counted (n.candidateVote keys self tick) signed).certificate
      keys.failover candidate = (n.leadership.counted (n.candidateVote keys self tick)
        signed).certificate keys.failover candidate :=
    LeadershipState.certificate_counted_congr hterm
      (hwposition.trans (hsame.trans hnposition.symm))
  rw [hone] at haccept' hcertificates'
  obtain ⟨-, hsaved⟩ := recordCertificate_of_accept hnposition haccept hcertificates
  obtain ⟨hreturns, hsaved'⟩ := recordCertificate_of_accept hwposition haccept' hcertificates'
  refine ⟨l, l', hleader, hleader', hcertificates, hcertificates', ?_⟩
  have hnext : ¬ w.leadership.term = n.leadership.term + 1 := by
    rw [hterm]
    exact (lt_add_one _).ne
  rw [elect, if_neg hnext]
  simp only [hsigned, LeadershipState.certify_of_fits hn, hreturns, if_true]
  exact ⟨hsaved, hsaved'⟩

/-! ### Fetching -/

/-- The node after it has taken an envelope of a page. -/
def take? (app : App A μ ρ) (keys : Keyring μ) (self : Role) (s : Catching A μ)
    (envelope : Envelope μ) : Option (Catching A μ) :=
  match takePage app keys self saving [envelope] s with
  | .ok true t => some t
  | _ => none

/-- **An envelope of a page is taken.** -/
lemma Takes.take? {role : Role} {envelope : Envelope μ} {b : A} {s : Catching A μ}
    (h : Takes app keys role envelope s.node b) :
    ∃ t, take? app keys role s envelope = some t ∧
      t.node.toSaved = ((s.node.setApp b).appendLog envelope).toSaved := by
  have hcommit : ∀ u : Catching A μ, u.node.toSaved = (s.node.setPending (some envelope)).toSaved →
      Ends (stepOf (commitReplica app keys role true envelope)) u (fun _ t =>
        t.node.toSaved = ((s.node.setApp b).appendLog envelope).toSaved) fun _ _ => False := by
    intro u hu
    obtain ⟨hreturns, hsaved⟩ := h.commit hu
    obtain ⟨r, hr⟩ := returns_iff.mp hreturns
    exact ends_stepOf.mpr ((ends_of_eq_ok hr).mpr hsaved)
  have hentry : Ends (takeEntry app keys role saving envelope) s (fun _ t =>
      t.node.toSaved = ((s.node.setApp b).appendLog envelope).toSaved) fun _ _ => False := by
    unfold takeEntry
    rw [ends_bind, ends_get]
    rcases h.pending with hnone | hsome
    · simp only [hnone, Option.isNone_none, if_true, ends_bind, ends_stepOf, ends_pure]
      obtain ⟨hreturns, hsaved⟩ := h.prepare
      obtain ⟨_, hprepared⟩ := returns_iff.mp hreturns
      generalize after (prepareReplica app keys role true envelope) s.node = m at hprepared hsaved
      exact (ends_of_eq_ok hprepared).mpr (ends_stepOf.mp (hcommit ⟨m, s.steps ++ [m]⟩ hsaved))
    · simp only [hsome, Option.isNone_some, Bool.false_eq_true, if_false, ends_bind, ends_pure]
      exact hcommit s (by rw [toSaved_setPending, ← hsome])
  have hpage : Ends (takePage app keys role saving [envelope]) s (fun taken t => taken = true ∧
      t.node.toSaved = ((s.node.setApp b).appendLog envelope).toSaved) fun _ _ => False := by
    unfold takePage
    rw [ends_bind, ends_get]
    have hfree : ¬ (s.node.replicationPending.any (· != envelope)) = true := by
      rcases h.pending with hnone | hsome
      · rw [hnone]
        exact Bool.false_ne_true
      · rw [hsome, Option.any_some, bne_self_eq_false]
        exact Bool.false_ne_true
    rw [if_neg hfree, ends_bind, ends_caught]
    exact hentry.mono (fun _ t ht => ⟨rfl, ht⟩) fun _ _ hfalse => hfalse.elim
  obtain ⟨taken, t, ht, rfl, hsaved⟩ := hpage.exists_ok
  exact ⟨t, by rw [Node.take?, ht], hsaved⟩

/-- Envelopes that are taken one after the other are a page that is taken. -/
lemma takePage_of_run {entries : List (Envelope μ)} {s t : Catching A μ}
    (h : Transition.run (take? app keys self) s entries = some t) :
    takePage app keys self saving entries s = .ok true t := by
  induction entries generalizing s with
  | nil => rw [← Option.some.inj h]; rfl
  | cons envelope entries ih =>
    obtain ⟨u, hu, hrest⟩ := Transition.run_cons_eq_some_iff.mp h
    have hfirst : takePage app keys self saving [envelope] s = .ok true u := by
      unfold Node.take? at hu
      split at hu
      · next ht => rw [ht, Option.some.inj hu]
      · cases hu
    rw [← List.singleton_append, takePage_append, eq_ok_iff, ends_bind]
    refine (ends_of_eq_ok hfirst).mpr ?_
    exact eq_ok_iff.mp (ih hrest)

/-! ### Voting -/

/-- The vote that the witness signs. -/
def witnessVote (keys : Keyring μ) (self witness : Role) (tick : ℤ) (n : Node A μ) : FailureVote :=
  keys.failover.vote { (n.candidateVote keys self tick).toBallot with voter := witness }

omit [DecidableEq μ] in
/-- **The two votes fit** every state of the term that has the position of the candidate and has
heard nothing of the leader for the failover time. -/
lemma agrees_of_silent {s : LeadershipState} (hvalid : s.Valid keys.failover)
    (hnext : s.leader.successor? = some self) (hwitness : Role.witness? s.leader self = some witness)
    (hsilent : s.timeoutTicks ≤ tick - s.lastHeartbeatTick) (hterm : n.leadership.term = s.term)
    (hleader : n.leadership.leader = s.leader) (hposition : n.committedPosition = s.committedNonce) :
    s.Agrees keys.failover self (n.candidateVote keys self tick)
      (n.witnessVote keys self witness tick) := by
  have hroles : self ≠ s.leader ∧ witness ≠ s.leader ∧ self ≠ witness := by
    revert hnext hwitness
    cases s.leader <;> cases self <;> cases witness <;> decide
  refine ⟨hvalid, hnext, ?_, ?_, hroles.2.2, rfl⟩
  · simp only [LeadershipState.fits, Bool.and_eq_true, beq_iff_eq, bne_iff_ne, decide_eq_true_eq]
    exact ⟨⟨⟨⟨⟨⟨keys.failover.verify_sign _ _, congrArg (fun t => t + 1) hterm⟩, hleader⟩, rfl⟩,
      hsilent⟩, hposition⟩, hroles.1⟩
  · simp only [LeadershipState.fits, Bool.and_eq_true, beq_iff_eq, bne_iff_ne, decide_eq_true_eq]
    exact ⟨⟨⟨⟨⟨⟨keys.failover.verify_sign _ _, congrArg (fun t => t + 1) hterm⟩, hleader⟩, rfl⟩,
      hsilent⟩, hposition⟩, hroles.2.1⟩

omit [DecidableEq μ] in
/-- **When the witness votes.** It is asked by the successor of its leader, at its own position and
with its own ledger; it votes if and only if it holds no prepared record. -/
lemma receiveTimeoutVote_iff (hnext : w.leadership.leader.successor? = some self)
    (hwitness : Role.witness? w.leadership.leader self = some witness)
    (hsilent : w.leadership.timeoutTicks ≤ tick - w.leadership.lastHeartbeatTick)
    (hnow : |tick - now| ≤ 1) (hterm : n.leadership.term = w.leadership.term)
    (hleader : n.leadership.leader = w.leadership.leader)
    (hposition : n.committedPosition = w.committedPosition)
    (hlength : (w.replicationLog.length : ℤ) = w.committedPosition)
    (hdigest : app.digest n.app = app.digest w.app) {signed : FailureVote} :
    receiveTimeoutVote app keys witness now w (n.candidateVote keys self tick)
        (app.digest n.app) = .ok signed ↔
      w.replicationPending = none ∧ signed = n.witnessVote keys self witness tick := by
  have hlast : w.leadership.leader ≠ .tertiary := by
    intro heq
    rw [heq] at hnext
    cases hnext
  have hverify : keys.failover.verifyVote (n.candidateVote keys self tick) = true :=
    keys.failover.verify_sign _ _
  simp only [receiveTimeoutVote, bind_eq_ok, require_eq_ok, exists_const, pure_eq_ok,
    LeadershipState.successor, orRaise_eq_ok, bne_iff_ne, Bool.and_eq_true, beq_iff_eq,
    decide_eq_true_eq, Option.isNone_iff_eq_none]
  constructor
  · rintro ⟨-, _, -, _, -, ⟨⟨⟨-, hclean⟩, -⟩, -⟩, rfl⟩
    exact ⟨hclean, rfl⟩
  · rintro ⟨hclean, rfl⟩
    exact ⟨hlast, self, hnext, witness, hwitness, ⟨⟨⟨⟨⟨⟨⟨⟨⟨⟨⟨rfl, rfl⟩, hverify⟩,
      congrArg (fun t => t + 1) hterm⟩, hleader⟩, rfl⟩, hsilent⟩, hnow⟩, hposition⟩, hclean⟩,
      hlength⟩, hdigest⟩, rfl⟩

/-! ### The step -/

/-- **When the step goes on**: the clock has been started, and the leader has been silent for the
failover time. -/
lemma takeOver_eq (hclock : n.leadership.lastHeartbeatTick ≠ 0)
    (hnext : n.leadership.leader.successor? = some self)
    (hwitness : Role.witness? n.leadership.leader self = some witness)
    (hsilent : n.leadership.timeoutTicks ≤ tick - n.leadership.lastHeartbeatTick) :
    takeOver app keys self tick now n w =
      let (reconciled, n₁, w₁) := reconcile app keys self witness n w
      if reconciled then elect app keys self witness tick now n₁ w₁ else (n₁, w₁) := by
  have hstart : after (startClock true tick) n = n := by
    refine after_eq_iff.mpr ?_
    unfold startClock
    rw [ends_bind, ends_get, if_neg hclock]
    rfl
  have hstays : ¬ (n.leadership.leader = .tertiary ∨
      n.leadership.leader.successor? ≠ some self ∨
      tick - n.leadership.lastHeartbeatTick < n.leadership.timeoutTicks) := by
    rintro (hlast | hother | hearly)
    · rw [hlast] at hnext
      cases hnext
    · exact hother hnext
    · exact hearly.not_ge hsilent
  rw [takeOver]
  dsimp only
  rw [hstart, if_neg hstays, hwitness]

omit [DecidableEq μ] in
/-- A vote that is refused ends the election. -/
lemma elect_of_refused (hterm : w.leadership.term = n.leadership.term) {e : PyError}
    (hrefused : receiveTimeoutVote app keys witness now w (n.candidateVote keys self tick)
      (app.digest n.app) = .error e) :
    elect app keys self witness tick now n w = (n, w) := by
  have hnext : ¬ w.leadership.term = n.leadership.term + 1 := by
    rw [hterm]
    exact (lt_add_one _).ne
  rw [elect, if_neg hnext]
  simp only [hrefused]

end Takeover

end Node

/-! ## Two survivors -/

namespace Ledger

variable {py : PyLib ℤ} {l m : Ledger ℤ} {app app' : Application ℤ}

/-- **Plain ledgers that agree on what the operations read have one snapshot.** -/
lemma Alike.snapshot (h : l.Alike m) (hl : l.genesis = none) (hm : m.genesis = none) :
    l.snapshot = m.snapshot := by
  have hlocked : ∀ a, l.locked.get? a = m.locked.get? a := fun a => by
    have ha := h.locked a
    cases hl : l.locked.get? a <;> cases hm : m.locked.get? a <;> rw [hl, hm] at ha
    · cases ha
    · cases ha
    · cases ha with
      | some hv => exact congrArg some (Int.cast_injective hv)
  unfold Ledger.snapshot
  rw [h.round, h.canonicalHeight, h.canonicalDigest, Dict.sorted_congr h.balances,
    Dict.sorted_congr hlocked, h.branches, h.finalized, Dict.sorted_congr h.canonicalHistory, hl,
    hm]

/-- Nodes that follow one plain ledger have one digest. -/
lemma Mirrored.digest (h : Mirrored py l app) (h' : Mirrored py l app') (hl : l.genesis = none) :
    (ledgerApp py).digest app = (ledgerApp py).digest app' := by
  have hsnapshot : app.ledger.snapshot = app'.ledger.snapshot :=
    (h.alike.symm.trans h'.alike).snapshot (h.plain hl) (h'.plain hl)
  exact congrArg (fun t => py.sha256 (canonicalJson py t.document)) hsnapshot

end Ledger

namespace Node

variable {A μ : Type}

/-- **No survivor holds a record that is in the way**: the prepared record of the candidate or of
the witness is the one that the other log has at its place; and the candidate lacks ninety envelopes
at most. -/
structure Clear (n w : Node A μ) : Prop where
  candidate : ∀ record, n.replicationPending = some record →
    w.replicationLog[n.replicationLog.length]? = some record
  witness : ∀ record, w.replicationPending = some record →
    n.replicationLog[w.replicationLog.length]? = some record
  near : w.replicationLog.length ≤ n.replicationLog.length + 90

variable {n w : Node A μ} {rest : List (Envelope μ)}

/-- What this means for a candidate that lacks some envelopes. -/
lemma clear_behind_iff (hlog : w.replicationLog = n.replicationLog ++ rest) :
    n.Clear w ↔ (∀ record, n.replicationPending = some record → rest.head? = some record) ∧
      w.replicationPending = none ∧ rest.length ≤ 90 := by
  have hfirst : w.replicationLog[n.replicationLog.length]? = rest.head? := by
    rw [hlog, List.getElem?_append_right le_rfl, Nat.sub_self, List.head?_eq_getElem?]
  have hcount : w.replicationLog.length = n.replicationLog.length + rest.length := by
    rw [hlog, List.length_append]
  have hnone : n.replicationLog[w.replicationLog.length]? = none :=
    List.getElem?_eq_none (by omega)
  constructor
  · intro h
    refine ⟨fun record hrecord => hfirst ▸ h.candidate record hrecord, ?_, by have := h.near; omega⟩
    refine Option.eq_none_iff_forall_ne_some.mpr fun record hrecord => ?_
    cases hnone.symm.trans (h.witness record hrecord)
  · rintro ⟨hcandidate, hclean, hnear⟩
    refine ⟨fun record hrecord => hfirst ▸ hcandidate record hrecord, fun record hrecord => ?_,
      by omega⟩
    cases hclean.symm.trans hrecord

/-- What it means for a witness that lacks some envelopes, or none. -/
lemma clear_ahead_iff (hlog : n.replicationLog = w.replicationLog ++ rest) :
    n.Clear w ↔ n.replicationPending = none ∧
      ∀ record, w.replicationPending = some record → rest.head? = some record := by
  have hfirst : n.replicationLog[w.replicationLog.length]? = rest.head? := by
    rw [hlog, List.getElem?_append_right le_rfl, Nat.sub_self, List.head?_eq_getElem?]
  have hcount : n.replicationLog.length = w.replicationLog.length + rest.length := by
    rw [hlog, List.length_append]
  have hnone : w.replicationLog[n.replicationLog.length]? = none :=
    List.getElem?_eq_none (by omega)
  constructor
  · intro h
    refine ⟨Option.eq_none_iff_forall_ne_some.mpr fun record hrecord => ?_,
      fun record hrecord => hfirst ▸ h.witness record hrecord⟩
    cases hnone.symm.trans (h.candidate record hrecord)
  · rintro ⟨hclean, hwitness⟩
    refine ⟨fun record hrecord => ?_, fun record hrecord => hfirst ▸ hwitness record hrecord,
      by omega⟩
    cases hclean.symm.trans hrecord

end Node

namespace ReferenceNode

variable {py : PyLib ℤ} {keys : Keyring (Request ℤ)} {leader self witness : Role}
  {x y : Ledger ℤ} {n w : ReferenceNode ℤ} {rest : List (Envelope (Request ℤ))}

/-- The envelopes that the candidate lacks. -/
lemma Trails.missing (h : Trails py keys leader w n x y rest) : Node.missing w n = rest := by
  have hcount : n.committedPosition.toNat = n.replicationLog.length := by
    have hposition := h.position
    omega
  rw [Node.missing, hcount, h.log, List.drop_left]

/-- **What the candidate fetches**, if it holds no prepared record, or the one of the first envelope
that it lacks: a hundred envelopes at most. -/
theorem Trails.fetched (h : Trails py keys leader w n x y rest) (hrole : self ≠ leader)
    (hcomplete : w.Complete)
    (hpending : ∀ record, n.replicationPending = some record → rest.head? = some record)
    (hne : rest ≠ []) :
    ∃ m z, Node.fetch (ledgerApp py) keys self w n = (decide (rest.length ≤ 90), m) ∧
      Ready py leader z m ∧ Took (rest.take 100) n m ∧ (rest.length ≤ 90 → z = y) := by
  have hsplit : rest.take 100 ++ rest.drop 100 = rest := List.take_append_drop 100 rest
  have hreplays := h.replays
  have hactive := h.active
  rw [← hsplit, List.map_append] at hreplays hactive
  obtain ⟨z, hz, hlater⟩ := Transition.run_append_eq_some_iff.mp hreplays
  have hheld : n.replicationPending = none ∨ n.replicationPending = (rest.take 100).head? := by
    rw [List.head?_take, if_neg (by decide)]
    cases hrecord : n.replicationPending with
    | none => exact .inl rfl
    | some record => exact .inr (hpending record hrecord).symm
  obtain ⟨t, ht, hready, htook⟩ := run_of_ready (s := (⟨n, []⟩ : Node.Catching _ _))
    Node.Catching.node (Node.take? (ledgerApp py) keys self) (fun _ _ _ htakes => htakes.take?) hrole
    (rest.take 100) h.replica hz ((Transition.meets_append hz).mp hactive).1 (fun i e he => by
      rw [List.getElem?_take] at he
      split_ifs at he
      exact h.next i e he) hheld
  have hzy : rest.length ≤ 90 → z = y := by
    intro hshort
    rw [List.drop_eq_nil_of_le (by omega)] at hlater
    exact Option.some.inj hlater
  have hclean : t.node.replicationPending = none := by
    have htaken : (rest.take 100).isEmpty = false :=
      List.isEmpty_eq_false_iff.mpr fun hnil => hne (by simpa using hnil)
    rw [htook.pending, htaken]
    rfl
  have hpositions := h.positions
  have hbelow : n.committedPosition ≤ w.committedPosition := by omega
  have hstart : 0 ≤ n.committedPosition := h.position ▸ Int.natCast_nonneg _
  have hsync : Node.sync (ledgerApp py) keys self Node.saving w ⟨n, []⟩ =
      .ok (decide (rest.length ≤ 90)) t := by
    rw [Node.sync, eq_ok_iff, Node.ends_syncFromPeer hcomplete 10 ⟨n, []⟩ hstart hbelow]
    dsimp only
    rw [h.missing]
    refine (ends_of_eq_ok (Node.takePage_of_run ht)).mpr ⟨?_, rfl⟩
    by_cases hshort : rest.length ≤ 90
    · have hdigest := h.sender.mirrored.digest (hzy hshort ▸ hready.mirrored) h.sender.exact.genesis
      rw [decide_eq_true hshort, decide_eq_true (by omega), hdigest, beq_self_eq_true, hclean]
      rfl
    · rw [decide_eq_false hshort, decide_eq_false (by omega)]
      rfl
  refine ⟨t.node, z, ?_, hready, htook, hzy⟩
  rw [Node.fetch, hsync]

/-- **It fetches nothing** if it holds the prepared record of another envelope. -/
lemma Trails.fetch_stuck (h : Trails py keys leader w n x y rest) (hcomplete : w.Complete)
    {record : Envelope (Request ℤ)} (hrecord : n.replicationPending = some record)
    (hother : rest.head? ≠ some record) (hne : rest ≠ []) :
    Node.fetch (ledgerApp py) keys self w n = (false, n) := by
  obtain ⟨e, later, rfl⟩ := List.exists_cons_of_ne_nil hne
  have hconflict : (n.replicationPending.any (· != e)) = true := by
    rw [hrecord, Option.any_some, bne_iff_ne]
    exact fun hsame => hother (congrArg some hsame.symm)
  have hpositions := h.positions
  have hbelow : n.committedPosition ≤ w.committedPosition := by omega
  have hstart : 0 ≤ n.committedPosition := h.position ▸ Int.natCast_nonneg _
  have hpage : Node.takePage (ledgerApp py) keys self Node.saving ((e :: later).take 100) ⟨n, []⟩ =
      .ok false ⟨n, []⟩ := by
    rw [List.take_succ_cons, eq_ok_iff, Node.takePage, ends_bind, ends_get, if_pos hconflict]
    exact ⟨rfl, rfl⟩
  have hsync : Node.sync (ledgerApp py) keys self Node.saving w ⟨n, []⟩ = .ok false ⟨n, []⟩ := by
    rw [Node.sync, eq_ok_iff, Node.ends_syncFromPeer hcomplete 10 ⟨n, []⟩ hstart hbelow]
    dsimp only
    rw [h.missing]
    exact (ends_of_eq_ok hpage).mpr ⟨rfl, rfl⟩
  rw [Node.fetch, hsync]

/-- **Two nodes at one position**: they have one log, and ledgers that follow one machine. -/
structure Level (py : PyLib ℤ) (leader : Role) (y : Ledger ℤ) (n w : ReferenceNode ℤ) : Prop where
  candidate : Ready py leader y n
  witness : Ready py leader y w
  log : n.replicationLog = w.replicationLog
  position : w.committedPosition = n.committedPosition
  length : (n.replicationLog.length : ℤ) = n.committedPosition
  clean : n.replicationPending = none

/-- They have one digest. -/
lemma Level.digest (h : Level py leader y n w) :
    (ledgerApp py).digest n.app = (ledgerApp py).digest w.app :=
  h.candidate.mirrored.digest h.witness.mirrored h.candidate.exact.genesis

/-- The witness confirms it. -/
lemma Level.confirms (h : Level py leader y n w) : Node.confirms (ledgerApp py) w n = true := by
  have hstart : 0 ≤ n.committedPosition := h.length ▸ Int.natCast_nonneg _
  have hwhole : (w.replicationLog.length : ℤ) = n.committedPosition := h.log ▸ h.length
  have hhistory : Node.history (ledgerApp py) w n.committedPosition = .ok ⟨n.committedPosition,
      (w.replicationLog.drop n.committedPosition.toNat).take 10, (ledgerApp py).digest w.app⟩ := by
    simp only [Node.history, h.position, hstart, le_refl, hwhole, decide_true, beq_self_eq_true,
      Bool.and_self, require, if_true]
    rfl
  rw [Node.confirms, hhistory]
  simp only [h.digest, beq_self_eq_true, Bool.and_self]

/-- **What the reconciliation leaves**: both nodes have taken some envelopes; if it succeeds, they
have the longer log. It succeeds, and the witness holds no record after it, if nothing is in the
way. -/
structure Reconciled (py : PyLib ℤ) (leader : Role) (y : Ledger ℤ)
    (log : List (Envelope (Request ℤ))) (n w : ReferenceNode ℤ)
    (r : Bool × ReferenceNode ℤ × ReferenceNode ℤ) : Prop where
  candidate : ∃ es, Took es n r.2.1
  witness : ∃ es, Took es w r.2.2
  level : r.1 = true → Level py leader y r.2.1 r.2.2 ∧ r.2.1.replicationLog = log
  clear : (r.1 = true ∧ r.2.2.replicationPending = none) ↔ n.Clear w

section Reconciled

variable {m v : ReferenceNode ℤ} {es es' log : List (Envelope (Request ℤ))}

/-- It fails. -/
lemma Reconciled.failed (hn : Took es n m) (hw : Took es' w v) (hnot : ¬ n.Clear w) :
    Reconciled py leader y log n w (false, m, v) :=
  ⟨⟨es, hn⟩, ⟨es', hw⟩, fun hfalse => absurd hfalse Bool.false_ne_true,
    iff_of_false (fun h => Bool.false_ne_true h.1) hnot⟩

/-- It succeeds. -/
lemma Reconciled.reached (hn : Took es n m) (hw : Took es' w v) (hlevel : Level py leader y m v)
    (hlog : m.replicationLog = log) (hclear : v.replicationPending = none ↔ n.Clear w) :
    Reconciled py leader y log n w (true, m, v) :=
  ⟨⟨es, hn⟩, ⟨es', hw⟩, fun _ => ⟨hlevel, hlog⟩, (and_iff_right rfl).trans hclear⟩

end Reconciled

/-- The candidate lacks some envelopes. -/
lemma Trails.reconciled_behind (h : Trails py keys leader w n x y rest) (hself : self ≠ leader)
    (hwitness : witness ≠ leader) (hcomplete : w.Complete) (hne : rest ≠ []) :
    Reconciled py leader y w.replicationLog n w
      (Node.reconcile (ledgerApp py) keys self witness n w) := by
  have hpositions := h.positions
  have hlack : 0 < rest.length := List.length_pos_of_ne_nil hne
  have hlt : n.committedPosition < w.committedPosition := by omega
  have hleads : ¬ w.leadership.leader = witness := fun heq => hwitness (heq ▸ h.sender.leader)
  have hclear := Node.clear_behind_iff h.log
  unfold Node.reconcile
  rw [if_neg hleads, if_pos hlt]
  by_cases hfree : ∀ record, n.replicationPending = some record → rest.head? = some record
  · obtain ⟨m, z, hfetch, hready, htook, hzy⟩ := h.fetched hself hcomplete hfree hne
    rw [hfetch]
    by_cases hshort : rest.length ≤ 90
    · obtain rfl := hzy hshort
      have htake : rest.take 100 = rest := List.take_of_length_le (by omega)
      rw [htake] at htook
      have hempty : rest.isEmpty = false := List.isEmpty_eq_false_iff.mpr hne
      have hposition : m.committedPosition = w.committedPosition := by
        rw [htook.position, hpositions]
      have hlevel : Level py leader z m w := by
        refine ⟨hready, h.sender, htook.log.trans h.log.symm, hposition.symm, ?_, ?_⟩
        · rw [htook.log, ← h.log, hposition]
          exact h.length
        · rw [htook.pending, hempty]
          rfl
      simp only [decide_eq_true hshort, hlevel.clean, hlevel.length, hposition, lt_irrefl,
        hlevel.confirms, and_self, if_true, if_false, Bool.and_self]
      exact .reached htook (.refl w) hlevel hlevel.log
        ⟨fun hclean => hclear.mpr ⟨hfree, hclean, hshort⟩, fun hfree => (hclear.mp hfree).2.1⟩
    · simp only [decide_eq_false hshort, Bool.false_eq_true, false_and, if_false]
      exact .failed htook (.refl w) fun hfree => hshort (hclear.mp hfree).2.2
  · obtain ⟨record, hrecord, hother⟩ : ∃ record, n.replicationPending = some record ∧
        rest.head? ≠ some record := by simpa using hfree
    rw [h.fetch_stuck hcomplete hrecord hother hne]
    simp only [Bool.false_eq_true, false_and, if_false]
    exact .failed (.refl n) (.refl w) fun hall => hfree (hclear.mp hall).1

/-- The witness lacks some envelopes, or none. -/
lemma Trails.reconciled_ahead (h : Trails py keys leader n w x y rest)
    (hwitness : witness ≠ leader) :
    Reconciled py leader y n.replicationLog n w
      (Node.reconcile (ledgerApp py) keys self witness n w) := by
  have hpositions := h.positions
  have hnot : ¬ n.committedPosition < w.committedPosition := by omega
  have hleads : ¬ w.leadership.leader = witness := fun heq => hwitness (heq ▸ h.replica.leader)
  have hclear := Node.clear_ahead_iff h.log
  unfold Node.reconcile
  rw [if_neg hleads, if_neg hnot]
  by_cases hclean : n.replicationPending = none
  · simp only [hclean, Option.isNone_none, h.length, and_self, if_true]
    by_cases hlt : w.committedPosition < n.committedPosition
    · -- the witness is sent what it lacks
      have hne : rest ≠ [] := by
        rintro rfl
        rw [List.length_nil, Nat.cast_zero, add_zero] at hpositions
        exact hlt.ne hpositions.symm
      have hleader : w.leadership.leader ≠ witness := hleads
      rw [if_pos hlt, Node.syncHistory_eq hleader h.log h.length h.position]
      by_cases hfree : ∀ record, w.replicationPending = some record → rest.head? = some record
      · have hheld : w.replicationPending = none ∨ w.replicationPending = rest.head? := by
          cases hrecord : w.replicationPending with
          | none => exact .inl rfl
          | some record => exact .inr (hfree record hrecord).symm
        obtain ⟨m, hm, hready, htook⟩ :=
          resendAll_of_ready hwitness rest h.replica h.replays h.active h.next hheld
        have hempty : rest.isEmpty = false := List.isEmpty_eq_false_iff.mpr hne
        have hclean' : m.replicationPending = none := by
          rw [htook.pending, hempty]
          rfl
        have hlevel : Level py leader y n m := ⟨h.sender, hready, h.log.trans htook.log.symm,
          htook.position.trans hpositions.symm, h.length, hclean⟩
        simp only [hm, hlevel.confirms, Bool.and_self]
        exact .reached (.refl n) htook hlevel rfl (iff_of_true hclean' (hclear.mpr ⟨hclean, hfree⟩))
      · obtain ⟨record, hrecord, hother⟩ : ∃ record, w.replicationPending = some record ∧
            rest.head? ≠ some record := by simpa using hfree
        obtain ⟨e, later, rfl⟩ := List.exists_cons_of_ne_nil hne
        have hfirst : record ≠ e := fun hsame => hother (congrArg some hsame.symm)
        simp only [Node.resendAll_stuck hrecord hfirst, Bool.false_and]
        exact .failed (.refl n) (.refl w) fun hall => hfree (hclear.mp hall).2
    · have hnil : rest = [] := List.length_eq_zero_iff.mp (by omega)
      subst hnil
      obtain rfl := Option.some.inj h.replays
      have hsame : w.committedPosition = n.committedPosition := by
        rw [hpositions, List.length_nil, Nat.cast_zero, add_zero]
      have hlevel : Level py leader x n w := ⟨h.sender, h.replica,
        h.log.trans (List.append_nil _), hsame, h.length, hclean⟩
      simp only [if_neg hlt, hlevel.confirms, Bool.and_self]
      refine .reached (.refl n) (.refl w) hlevel rfl ⟨fun hnone => hclear.mpr
        ⟨hclean, fun record hrecord => ?_⟩, fun hall => ?_⟩
      · cases hnone.symm.trans hrecord
      · refine Option.eq_none_iff_forall_ne_some.mpr fun record hrecord => ?_
        cases (hclear.mp hall).2 record hrecord
  · have hnone : n.replicationPending.isNone = false := by
      rw [Option.isNone_eq_false_iff, Option.isSome_iff_ne_none]
      exact hclean
    simp only [hnone, Bool.false_eq_true, false_and, if_false]
    exact .failed (.refl n) (.refl w) fun hall => hclean (hclear.mp hall).1

/-! ### The vote -/

section Vote

variable {z : Ledger ℤ} {m : ReferenceNode ℤ} {es : List (Envelope (Request ℤ))} {tick now : ℤ}
  {mutation : Request ℤ}

/-- **A node that has heard nothing of its leader** for the failover time. -/
structure Overdue (keys : Keyring (Request ℤ)) (leader : Role) (tick : ℤ) (n : ReferenceNode ℤ) :
    Prop where
  leader : n.leadership.leader = leader
  posed : n.leadership.committedNonce = n.committedPosition
  valid : n.leadership.Valid keys.failover
  silent : n.leadership.timeoutTicks ≤ tick - n.leadership.lastHeartbeatTick

/-- The envelopes that it takes do not count as heartbeats. -/
lemma Overdue.took (h : Overdue keys leader tick n) (htook : Took es n m) :
    Overdue keys leader tick m ∧ m.leadership.term = n.leadership.term ∧
      m.leadership.certificates = n.leadership.certificates := by
  have hleadership := htook.leadership h.posed
  have hlater : n.leadership.committedNonce ≤ m.committedPosition := by
    rw [h.posed, htook.position]
    exact le_add_of_nonneg_right (Int.natCast_nonneg _)
  refine ⟨⟨?_, ?_, ?_, ?_⟩, ?_, ?_⟩ <;> rw [hleadership]
  · exact h.leader
  · exact h.valid.advance rfl rfl le_rfl hlater
  · exact h.silent

/-- Two nodes at one position are a sender and a replica that lacks nothing. -/
lemma Level.trails (h : Level py leader y n w) : Trails py keys leader n w y y [] where
  replica := h.witness
  sender := h.candidate
  replays := rfl
  active := trivial
  next i e he := by cases he
  log := by rw [h.log, List.append_nil]
  position := by rw [← h.log, h.position]; exact h.length
  length := h.length

/-- **They go on**: the witness acknowledges every mutation that the ledger executes. -/
lemma Level.replicates (h : Level py leader y n w) (hclean : w.replicationPending = none)
    (hrole : witness ≠ leader) (hspare : Ledger.SparesActive py y mutation)
    (hz : y.replay py mutation = some z) :
    (Node.replicateWith (ledgerApp py) keys leader witness mutation n w).1 = true := by
  have hbehind : Behind py keys leader mutation n w y y z [] := ⟨h.trails, hz⟩
  obtain ⟨n', w', htaken, -⟩ :=
    hbehind.taken hrole hspare fun record hrecord => by cases hclean.symm.trans hrecord
  rw [htaken]

/-- A node that follows the ledger follows it in the next term. -/
lemma Ready.led (h : Ready py leader y n) {l : LeadershipState} (hleader : l.leader = self)
    (hm : m.toSaved = { n.toSaved with leadership := l, replicationPending := none }) :
    Ready py self y m := by
  have happ : m.app = n.app := congrArg (fun s => s.app) hm
  have hleadership : m.leadership = l := congrArg (fun s => s.leadership) hm
  exact ⟨happ ▸ h.mirrored, h.exact, happ ▸ h.unauthenticated, hleadership ▸ hleader⟩

/-- **The election at one position.** It succeeds if and only if the witness holds no record. -/
theorem Level.elects (h : Level py leader y n w) (hn : Overdue keys leader tick n)
    (hw : Overdue keys leader tick w) (hterm : w.leadership.term = n.leadership.term)
    (hself : leader.successor? = some self) (hwitness : Role.witness? leader self = some witness)
    (hnow : |tick - now| ≤ 1) :
    (w.replicationPending = none →
      ∃ n' w' c, Node.elect (ledgerApp py) keys self witness tick now n w = (n', w') ∧
        Level py self y n' w' ∧ n'.replicationLog = n.replicationLog ∧
        w'.replicationPending = none ∧
        n'.leadership.certificates = n.leadership.certificates ++ [c] ∧
        w'.leadership.certificates = w.leadership.certificates ++ [c]) ∧
    (w.replicationPending ≠ none →
      Node.elect (ledgerApp py) keys self witness tick now n w = (n, w)) := by
  have hvote : ∀ {signed}, Node.receiveTimeoutVote (ledgerApp py) keys witness now w
      (n.candidateVote keys self tick) ((ledgerApp py).digest n.app) = .ok signed ↔
      w.replicationPending = none ∧ signed = n.witnessVote keys self witness tick :=
    Node.receiveTimeoutVote_iff (hw.leader.symm ▸ hself) (hw.leader.symm ▸ hwitness) hw.silent hnow
      hterm.symm (hn.leader.trans hw.leader.symm) h.position.symm
      (by rw [← h.log, h.position]; exact h.length) h.digest
  constructor
  · intro hclean
    have hagrees : ∀ {s : LeadershipState}, s.Valid keys.failover → s.leader = leader →
        n.leadership.term = s.term → n.committedPosition = s.committedNonce →
        s.timeoutTicks ≤ tick - s.lastHeartbeatTick →
        s.Agrees keys.failover self (n.candidateVote keys self tick)
          (n.witnessVote keys self witness tick) := by
      intro s hvalid hleader hsame hposition hsilent
      exact Node.agrees_of_silent hvalid (hleader.symm ▸ hself) (hleader.symm ▸ hwitness) hsilent
        hsame (hn.leader.trans hleader.symm) hposition
    obtain ⟨l, l', hleader, hleader', hcertificates, hcertificates', hsaved, hsaved'⟩ :=
      Node.elect_of_fits hterm (hvote.mpr ⟨hclean, rfl⟩)
        (hagrees hn.valid hn.leader rfl hn.posed.symm hn.silent)
        (hagrees hw.valid hw.leader hterm.symm (h.position.symm.trans hw.posed.symm) hw.silent)
        hn.posed hw.posed h.position
    generalize Node.elect (ledgerApp py) keys self witness tick now n w = r at hsaved hsaved' ⊢
    obtain ⟨n', w'⟩ := r
    have hcandidate := h.candidate.led hleader hsaved
    have hlog : n'.replicationLog = n.replicationLog := congrArg (fun s => s.replicationLog) hsaved
    have hlog' : w'.replicationLog = w.replicationLog :=
      congrArg (fun s => s.replicationLog) hsaved'
    have hposition : n'.committedPosition = n.committedPosition :=
      (congrArg Saved.committedPosition hsaved).trans rfl
    have hposition' : w'.committedPosition = w.committedPosition :=
      (congrArg Saved.committedPosition hsaved').trans rfl
    refine ⟨n', w', _, rfl, ⟨hcandidate, h.witness.led hleader' hsaved', ?_, ?_, ?_,
      congrArg (fun s => s.replicationPending) hsaved⟩, hlog,
      congrArg (fun s => s.replicationPending) hsaved',
      (congrArg (fun s => s.leadership.certificates) hsaved).trans hcertificates,
      (congrArg (fun s => s.leadership.certificates) hsaved').trans hcertificates'⟩
    · rw [hlog, hlog', h.log]
    · rw [hposition, hposition', h.position]
    · rw [hlog, hposition, h.length]
  · intro hheld
    cases hanswer : Node.receiveTimeoutVote (ledgerApp py) keys witness now w
        (n.candidateVote keys self tick) ((ledgerApp py).digest n.app) with
    | error e => exact Node.elect_of_refused hterm hanswer
    | ok signed => exact absurd (hvote.mp hanswer).1 hheld

end Vote

end ReferenceNode

/-! ## The survivors of a run -/

namespace LiveCluster

/-- **Nodes of one term**: the shorter log is the beginning of the longer one. -/
lemma Recorded.begins_of_le {A μ : Type} {s : LiveCluster A μ} (h : s.Recorded) {r r' : Role}
    (hleader : (s.nodes r).leadership.leader = (s.nodes r').leadership.leader)
    (hle : (s.log r).length ≤ (s.log r').length) : s.log r <+: s.log r' := by
  refine List.prefix_iff_getElem?.mpr fun i hi => ?_
  have he := List.getElem?_eq_getElem hi
  obtain ⟨e, he'⟩ : ∃ e, (s.log r')[i]? = some e :=
    ⟨_, List.getElem?_eq_getElem (hi.trans_le hle)⟩
  have hsigner : (s.log r)[i].leader = e.leader := by
    rw [h.signed r i _ he, h.signed r' i _ he', h.certificates_eq hleader]
  have howned := h.owned r i _ he
  rw [hsigner, h.owned r' i _ he'] at howned
  rw [he', howned]

variable {py : PyLib ℤ} {keys : Keyring (Request ℤ)} {boot : Role → Application ℤ}
  {hasStore : Role → Bool} {s : LiveCluster (Application ℤ) (Request ℤ)}
  {es : List (ClusterEvent (Application ℤ) (Request ℤ))} {start : Ledger ℤ}
  {leader self witness r : Role} {tick now : ℤ}

/-- **The leader of two nodes is gone**: both have heard nothing of it for the failover time, by the
clocks of both. -/
structure Abandoned (s : LiveCluster (Application ℤ) (Request ℤ)) (leader candidate third : Role)
    (tick now : ℤ) : Prop where
  successor : leader.successor? = some candidate
  witness : Role.witness? leader candidate = some third
  term : ∀ r, r = candidate ∨ r = third → (s.nodes r).leadership.leader = leader
  started : (s.nodes candidate).leadership.lastHeartbeatTick ≠ 0
  clock : ∀ r, r = candidate ∨ r = third → 0 ≤ (s.nodes r).leadership.lastHeartbeatTick
  silent : ∀ r, r = candidate ∨ r = third → (s.nodes r).leadership.timeoutTicks ≤
    tick - (s.nodes r).leadership.lastHeartbeatTick
  skew : |tick - now| ≤ 1

/-- The three nodes are different. -/
lemma Abandoned.roles (h : s.Abandoned leader self witness tick now) :
    self ≠ leader ∧ witness ≠ self ∧ witness ≠ leader := by
  have hnext := h.successor
  have hthird := h.witness
  revert hnext hthird
  cases leader <;> cases self <;> cases witness <;> decide

/-- They are overdue. -/
lemma Abandoned.overdue (h : s.Abandoned leader self witness tick now)
    (hrun : PlainRun py keys boot hasStore start es s) (hr : r = self ∨ r = witness) :
    ReferenceNode.Overdue keys leader tick (s.nodes r) := by
  obtain ⟨hposed, hvalid⟩ := poised_of_run hrun.run (r := r)
  exact ⟨h.term r hr, hposed, hvalid (h.clock r hr), h.silent r hr⟩

/-- **What the survivors reconcile.** -/
lemma Abandoned.reconciled (h : s.Abandoned leader self witness tick now)
    (hrun : PlainRun py keys boot hasStore start es s)
    (hactive : ∀ r, r = self ∨ r = witness → Transition.Meets (Ledger.replay py)
      (Ledger.SparesActive py) start (s.nodes r).mutations) :
    ∃ r y, (r = self ∨ r = witness) ∧ s.log self <+: s.log r ∧ s.log witness <+: s.log r ∧
      Transition.run (Ledger.replay py) start (s.nodes r).mutations = some y ∧
      ReferenceNode.Reconciled py leader y (s.log r) (s.nodes self) (s.nodes witness)
        (Node.reconcile (ledgerApp py) keys self witness (s.nodes self) (s.nodes witness)) := by
  have hs := sound_of_run hrun.run
  obtain ⟨hself, -, hwitness⟩ := h.roles
  have hsame : (s.nodes self).leadership.leader = (s.nodes witness).leadership.leader :=
    (h.term self (.inl rfl)).trans (h.term witness (.inr rfl)).symm
  rcases le_or_gt (s.log witness).length (s.log self).length with hle | hlt
  · obtain ⟨rest, hrest⟩ := hs.begins_of_le hsame.symm hle
    obtain ⟨x, y, hy, htrails⟩ := hrun.trails h.term (hactive self (.inl rfl)) hrest
    exact ⟨self, y, .inl rfl, List.prefix_rfl, ⟨rest, hrest⟩, hy,
      htrails.reconciled_ahead hwitness⟩
  · obtain ⟨rest, hrest⟩ := hs.begins_of_le hsame hlt.le
    obtain ⟨x, y, hy, htrails⟩ := hrun.trails (fun a ha => h.term a ha.symm)
      (hactive witness (.inr rfl)) hrest
    have hne : rest ≠ [] := by
      rintro rfl
      rw [List.append_nil] at hrest
      exact hlt.ne (congrArg List.length hrest)
    exact ⟨witness, y, .inr rfl, ⟨rest, hrest⟩, List.prefix_rfl, hy,
      htrails.reconciled_behind hself hwitness ⟨hs.length witness, hs.numbered witness⟩ hne⟩

/-- **The survivors go on** in a term of their own: they have the longer one of their logs, which
the witness of the election takes on from the new leader for every mutation that the ledger
executes. -/
structure Resumed (py : PyLib ℤ) (keys : Keyring (Request ℤ)) (start : Ledger ℤ)
    (s : LiveCluster (Application ℤ) (Request ℤ)) (candidate third : Role) (n w : ReferenceNode ℤ) :
    Prop where
  leaders : n.leadership.leader = candidate ∧ w.leadership.leader = candidate
  certificates : w.leadership.certificates = n.leadership.certificates
  logs : w.replicationLog = n.replicationLog
  longer : n.replicationLog = s.log candidate ∨ n.replicationLog = s.log third
  kept : s.log candidate <+: n.replicationLog ∧ s.log third <+: n.replicationLog
  clean : n.replicationPending = none ∧ w.replicationPending = none
  replicates : ∀ mutation z,
    Transition.Meets (Ledger.replay py) (Ledger.SparesActive py) start (n.mutations ++ [mutation]) →
    Transition.run (Ledger.replay py) start (n.mutations ++ [mutation]) = some z →
    (Node.replicateWith (ledgerApp py) keys candidate third mutation n w).1 = true

/-- **Two survivors that are level go on** with the log of one of them. -/
lemma Abandoned.resumed (habandoned : s.Abandoned leader self witness tick now) {y : Ledger ℤ}
    {n w : ReferenceNode ℤ} (hr : r = self ∨ r = witness)
    (hkept : s.log self <+: s.log r ∧ s.log witness <+: s.log r)
    (hy : Transition.run (Ledger.replay py) start (s.nodes r).mutations = some y)
    (hlevel : ReferenceNode.Level py self y n w) (hlog : n.replicationLog = s.log r)
    (hclean : w.replicationPending = none)
    (hcertificates : w.leadership.certificates = n.leadership.certificates) :
    Resumed py keys start s self witness n w where
  leaders := ⟨hlevel.candidate.leader, hlevel.witness.leader⟩
  certificates := hcertificates
  logs := hlevel.log.symm
  longer := by
    rw [hlog]
    rcases hr with rfl | rfl
    · exact .inl rfl
    · exact .inr rfl
  kept := by
    rw [hlog]
    exact hkept
  clean := ⟨hlevel.clean, hclean⟩
  replicates mutation z hmeets hz := by
    have hmutations : n.mutations = (s.nodes r).mutations :=
      congrArg (List.map fun e : Envelope (Request ℤ) => e.mutation) hlog
    rw [hmutations] at hmeets hz
    obtain ⟨y', hy', hlast⟩ := Transition.run_append_eq_some_iff.mp hz
    obtain rfl := Option.some.inj (hy.symm.trans hy')
    obtain ⟨z', hz', -⟩ := Transition.run_cons_eq_some_iff.mp hlast
    exact hlevel.replicates hclean habandoned.roles.2.1
      ((Transition.meets_append hy).mp hmeets).2.1 hz'

/-- **The successor takes over or nothing happens.** No prepared record is in the way and it lacks
ninety envelopes at most, and both survivors go on in a term of their own; or one of these fails,
and both stay in their term.

**Proof sketch.** The shorter log is the beginning of the longer one, whose envelopes its node can
take: its ledger follows the one of a single machine, which executes them all. At one position the
two digests agree, so that the vote of the witness depends on its prepared record alone; and the two
votes fit the states of both nodes. -/
lemma Abandoned.settles (habandoned : s.Abandoned leader self witness tick now)
    (h : PlainRun py keys boot hasStore start es s)
    (hactive : ∀ r, r = self ∨ r = witness → Transition.Meets (Ledger.replay py)
      (Ledger.SparesActive py) start (s.nodes r).mutations)
    {n w : ReferenceNode ℤ} (htake : Node.takeOver (ledgerApp py) keys self tick now
      (s.nodes self) (s.nodes witness) = (n, w)) :
    (s.nodes self).Clear (s.nodes witness) ∧ Resumed py keys start s self witness n w ∨
      ¬ (s.nodes self).Clear (s.nodes witness) ∧ n.leadership.leader = leader ∧
        w.leadership.leader = leader := by
  have hs := sound_of_run h.run
  have hself := habandoned.term self (.inl rfl)
  have hthird := habandoned.term witness (.inr rfl)
  obtain ⟨r, y, hr, hkept, hkept', hy, hreconciled⟩ := habandoned.reconciled h hactive
  rw [Node.takeOver_eq habandoned.started (hself.symm ▸ habandoned.successor)
    (hself.symm ▸ habandoned.witness) (habandoned.silent self (.inl rfl))] at htake
  generalize Node.reconcile (ledgerApp py) keys self witness (s.nodes self) (s.nodes witness) = p
    at hreconciled htake
  obtain ⟨reached, n₁, w₁⟩ := p
  obtain ⟨es, htook⟩ := hreconciled.candidate
  obtain ⟨es', htook'⟩ := hreconciled.witness
  obtain ⟨hn, hterm, hcertificates⟩ := (habandoned.overdue h (.inl rfl)).took htook
  obtain ⟨hw, hterm', hcertificates'⟩ := (habandoned.overdue h (.inr rfl)).took htook'
  have hsame : s.certificates witness = s.certificates self :=
    hs.certificates_eq (hthird.trans hself.symm)
  have hstuck : (n₁, w₁) = (n, w) →
      n.leadership.leader = leader ∧ w.leadership.leader = leader := by
    intro hend
    obtain ⟨rfl, rfl⟩ := Prod.mk.inj hend
    exact ⟨hn.leader, hw.leader⟩
  cases reached with
  | false =>
    exact .inr ⟨fun hclear => Bool.false_ne_true (hreconciled.clear.mpr hclear).1, hstuck htake⟩
  | true =>
    obtain ⟨hlevel, hlog⟩ := hreconciled.level rfl
    have hterms : w₁.leadership.term = n₁.leadership.term := by
      rw [hterm, hterm', (hs.ranked self).term, (hs.ranked witness).term]
      exact congrArg (fun cs : List LeadershipCertificate => (cs.length : ℤ)) hsame
    obtain ⟨helected, hrefused⟩ := hlevel.elects hn hw hterms habandoned.successor
      habandoned.witness habandoned.skew
    by_cases hclean : w₁.replicationPending = none
    · obtain ⟨n', w', c, helect, hlevel', hlog', hclean', hc, hc'⟩ := helected hclean
      have hend : (n', w') = (n, w) := helect.symm.trans htake
      obtain ⟨rfl, rfl⟩ := Prod.mk.inj hend
      refine .inl ⟨hreconciled.clear.mp ⟨rfl, hclean⟩, habandoned.resumed hr ⟨hkept, hkept'⟩ hy hlevel'
        (hlog'.trans hlog) hclean' ?_⟩
      rw [hc, hc', hcertificates, hcertificates']
      exact congrArg (fun cs => cs ++ [c]) hsame
    · exact .inr ⟨fun hclear => hclean (hreconciled.clear.mpr hclear).2,
        hstuck ((hrefused hclean).symm.trans htake)⟩

end LiveCluster

end SplitChain
