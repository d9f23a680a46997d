import SplitChain.Model.ClusterWork

set_option relaxedAutoImplicit false
set_option autoImplicit false

/-!
# Runs of the cluster

The candidate, and every step of the cluster: it keeps the invariant, and takes nothing back.

## Main results

* `SplitChain.LeadershipState.certify_fits` — the two votes of a certificate.
* `SplitChain.LiveCluster.Sound.step`, `SplitChain.LiveCluster.Sound.run`.
-/

namespace SplitChain

open Raise Proc

variable {A μ ρ : Type}

/-! ## The certificate of a candidate -/

namespace LeadershipState

variable {authority : FailoverAuthority} {s t : LeadershipState} {vote signed : FailureVote}
  {c : LeadershipCertificate}

/-- A state that is restored has no votes. -/
lemma fromSnapshot_eq_ok (h : fromSnapshot authority s = .ok t) : t = { s with votes := ∅ } := by
  unfold fromSnapshot at h
  simp only [bind_eq_ok, require_eq_ok, exists_const, pure_eq_ok] at h
  obtain ⟨-, -, -, -, -, -, rfl⟩ := h
  rfl

/-- **The two votes of a certificate** fit the state of the candidate, are cast by two voters and
describe one timeout. -/
theorem certify_fits (h : s.certify authority vote signed = .ok (some c)) :
    ∃ candidate, s.leader.successor? = some candidate ∧
      s.fits authority candidate vote = true ∧ s.fits authority candidate signed = true ∧
      vote.voter ≠ signed.voter ∧ vote.observedTick = signed.observedTick ∧
      c.term = s.term + 1 ∧ c.leader = candidate ∧ c.committedNonce = s.committedNonce ∧
      c.votes = Role.order.filterMap
        (((∅ : Dict Role FailureVote).set vote.voter vote).set signed.voter signed).get? := by
  unfold certify at h
  simp only [bind_eq_ok, pure_eq_ok, Prod.exists] at h
  obtain ⟨trial, hrestored, first, formed, hfirst, second, certificate, hsecond, rfl⟩ := h
  obtain rfl := fromSnapshot_eq_ok hrestored
  unfold submit at hfirst
  simp only [bind_eq_ok, require_eq_ok, exists_const, successor, orRaise_eq_ok] at hfirst
  obtain ⟨candidate, hcandidate, hfits, hfirst⟩ := hfirst
  have hempty : (∅ : Dict Role FailureVote).get? vote.voter = none := rfl
  simp only [hempty, bind_eq_ok, require_eq_ok, exists_const] at hfirst
  obtain ⟨-, hfirst⟩ := hfirst
  rw [if_pos (by rw [Dict.size_set_of_none _ hempty]; decide)] at hfirst
  simp only [pure_eq_ok, Prod.mk.injEq] at hfirst
  obtain ⟨rfl, rfl⟩ := hfirst
  unfold submit at hsecond
  simp only [bind_eq_ok, require_eq_ok, exists_const, successor, orRaise_eq_ok] at hsecond
  obtain ⟨candidate', hcandidate', hfits', hsecond⟩ := hsecond
  obtain rfl : candidate = candidate' := Option.some.inj (hcandidate.symm.trans hcandidate')
  cases hexisting : ((∅ : Dict Role FailureVote).set vote.voter vote).get? signed.voter with
  | some existing =>
    simp only [hexisting, bind_eq_ok, require_eq_ok, exists_const, pure_eq_ok,
      Prod.mk.injEq] at hsecond
    obtain ⟨-, -, hnone⟩ := hsecond
    cases hnone
  | none =>
    simp only [hexisting, bind_eq_ok, require_eq_ok, exists_const] at hsecond
    obtain ⟨htick, hsecond⟩ := hsecond
    have hvoter : vote.voter ≠ signed.voter := by
      intro heq
      rw [← heq, Dict.get?_set_self] at hexisting
      cases hexisting
    split_ifs at hsecond with hsize
    · cases hsecond
    · obtain ⟨-, hformed⟩ := Prod.mk.inj (Except.ok.inj hsecond)
      obtain rfl := Option.some.inj hformed
      refine ⟨candidate, hcandidate, hfits, hfits', hvoter, ?_, rfl, rfl, rfl, rfl⟩
      have hhead : ((∅ : Dict Role FailureVote).set vote.voter vote).values.head? = some vote := rfl
      rw [hhead, Option.all_some, beq_iff_eq] at htick
      exact htick

/-- **The certificate that is recovered** is the last one of the witness, which is in the next
term. -/
lemma recover_getLast {remote : LeadershipState}
    (h : s.recover authority remote = .ok (some c)) : remote.term = s.term + 1 ∧
      remote.term = remote.certificates.length ∧ remote.certificates.getLast? = some c := by
  unfold recover at h
  split_ifs at h with hterm
  · simp only [bind_eq_ok, pure_eq_ok] at h
    obtain ⟨restored, hrestored, hlast⟩ := h
    have hsame := congrArg LeadershipState.certificates (fromSnapshot_eq_ok hrestored)
    refine ⟨hterm, ?_, hsame ▸ hlast⟩
    unfold fromSnapshot at hrestored
    simp only [bind_eq_ok, require_eq_ok, exists_const, Bool.and_eq_true, beq_iff_eq] at hrestored
    exact hrestored.2.1.1.1.1.1
  · cases h

end LeadershipState
namespace LiveCluster

variable {app : App A μ ρ} {keys : Keyring μ} {boot : Role → A} {s t : LiveCluster A μ}
  {self : Role}

/-! ## The candidate -/

section Candidate

variable {c : Candidacy μ} {stage : Stage μ} {call : PeerCall μ} {term : ℕ}

/-- The successor of a leader wins the next election. -/
lemma winner_of_successor {i : ℕ} {leader : Role} (hleader : Role.order[i]? = some leader)
    (hself : leader.successor? = some self) : self = electionWinner i ∧ i < 2 := by
  match i with
  | 0 => cases hleader; cases hself; exact ⟨rfl, by decide⟩
  | 1 => cases hleader; cases hself; exact ⟨rfl, by decide⟩
  | 2 => cases hleader; cases hself
  | i + 3 => simp [Role.order] at hleader

/-- The third node is the witness of the next election. -/
lemma witness_of_successor {i : ℕ} {leader witness : Role} (hleader : Role.order[i]? = some leader)
    (hself : leader.successor? = some self) (hwitness : Role.witness? leader self = some witness) :
    witness = electionWitness i := by
  match i with
  | 0 => cases hleader; cases hself; cases hwitness; rfl
  | 1 => cases hleader; cases hself; cases hwitness; rfl
  | 2 => cases hleader; cases hself
  | i + 3 => simp [Role.order] at hleader

/-- A node wins one election. -/
lemma eq_of_electionWinner {i j : ℕ} (hi : i < 2) (hj : j < 2)
    (h : electionWinner i = electionWinner j) : i = j := by
  obtain rfl | rfl : i = 0 ∨ i = 1 := by omega
  all_goals obtain rfl | rfl : j = 0 ∨ j = 1 := by omega
  all_goals first | rfl | cases h

/-- A candidate stops. -/
lemma LeadsTo.stop (h : s.LeadsTo t) : s.LeadsTo (t.stop self) :=
  h.trans ⟨h.1.stop, grows_of_eq rfl rfl rfl⟩

/-- A candidate reaches a stage. -/
lemma LeadsTo.reach (h : s.LeadsTo t) (hc : s.Standing self c)
    (hstage : ∀ term, self = electionWinner term → term < 2 →
      s.Staged self c.witness term c.stage → t.Staged self c.witness term stage) :
    s.LeadsTo (t.reach self c stage) := by
  refine h.trans ⟨h.1.setCandidacy fun c' hc' => ?_, grows_of_eq rfl rfl rfl⟩
  obtain rfl := Option.some.inj hc'
  obtain ⟨term, hself, hwitness, hlast, hterm, hstaged⟩ := hc
  exact ⟨term, hself, hwitness, hlast, hterm.trans (h.2.certificates_length self),
    hstage term hself hlast hstaged⟩

/-- **A candidate asks its witness.** -/
lemma Sound.ask (h : s.Sound) (hc : s.Standing self c) {stage : ℕ → Stage μ}
    (hp : s.Justified ⟨self, c.witness, call⟩)
    (hstage : ∀ term, self = electionWinner term → term < 2 →
      s.Staged self c.witness term c.stage → (s.send self c.witness call).Staged self c.witness term
        (stage s.packets.length)) : s.LeadsTo (s.ask self c call stage) :=
  LeadsTo.reach ⟨h.send hp, grows_send ..⟩ hc hstage

/-- **A node becomes a candidate.** -/
lemma Sound.stand (h : s.Sound) {tick : ℤ} (hstep : s.stand self tick = some t) :
    s.LeadsTo t := by
  unfold LiveCluster.stand at hstep
  simp only [Option.bind_eq_bind, Option.bind_eq_some_iff, Option.guard_eq_some', exists_const,
    Option.pure_def, Option.some.injEq] at hstep
  obtain ⟨-, ⟨-, hself⟩, -, witness, hwitness, rfl⟩ := hstep
  have hleader := (h.ranked self).leader
  obtain ⟨hwinner, hlast⟩ := winner_of_successor hleader hself
  exact h.ask (c := ⟨tick, witness, .locating 0⟩)
    ⟨_, hwinner, witness_of_successor hleader hself hwitness, hlast, le_rfl, trivial⟩
    trivial fun _ _ _ _ => trivial

/-- A candidate changes its node, and goes on if it can. -/
lemma LeadsTo.changeBy {α : Type} {x : EStateM PyError (Node A μ) α}
    (hleads : s.LeadsTo (s.become self (after x (s.nodes self))))
    (hc : s.Standing self c)
    (hstep : s.changeBy self c x stage = some t)
    (hstage : returns x (s.nodes self) = true → ∀ term, s.Staged self c.witness term c.stage →
      (s.become self (after x (s.nodes self))).Staged self c.witness term stage) :
    s.LeadsTo t := by
  unfold LiveCluster.changeBy at hstep
  split_ifs at hstep with hfree hreturns
  · exact Option.some.inj hstep ▸ hleads.reach hc fun term _ _ => hstage hreturns term
  · exact Option.some.inj hstep ▸ hleads.stop

variable [DecidableEq μ]

/-- **A candidate adopts a certificate** of its election that its witness has adopted, or a later
one after its winner. -/
lemma Sound.adoptHeld (h : s.Sound) {certificate : LeadershipCertificate} {j : ℕ}
    (hstep : s.adopt keys self certificate = some t) (hj : certificate.term = j + 1)
    (hsource : (self = electionWinner j ∧ ∃ r, certificate ∈ s.certificates r) ∨
      certificate ∈ s.certificates (electionWinner j)) : s.LeadsTo t := by
  unfold LiveCluster.adopt at hstep
  split_ifs at hstep with hfree
  obtain rfl := Option.some.inj hstep
  exact (h.adopt keys (tasks_eq_none_of_free hfree) hj (.inr hsource)).1.stop

/-- **What a candidate may do next**, while it stands for the election after the first `term`
terms. -/
def Allowed (s : LiveCluster A μ) (self witness : Role) (term : ℕ) : Intent μ → Prop
  | .stop => True
  | .ask call stage => s.Justified ⟨self, witness, call⟩ ∧
    (s.send self witness call).Staged self witness term (stage s.packets.length)
  | .reach stage => s.Staged self witness term stage
  | .prepare _ _ entry entries => s.Behind witness self none (entry :: entries)
  | .commit _ _ entry entries => s.Behind witness self none (entry :: entries)
  | .adopt certificate => ∃ j : ℕ, certificate.term = j + 1 ∧
    ((self = electionWinner j ∧ ∃ r, certificate ∈ s.certificates r) ∨
      certificate ∈ s.certificates (electionWinner j))

/-- **A candidate does what it may do.** -/
theorem Sound.move (h : s.Sound) (hc : s.Standing self c) {intent : Intent μ}
    (hallowed : ∀ term, self = electionWinner term → c.witness = electionWitness term → term < 2 →
      s.Staged self c.witness term c.stage → s.Allowed self c.witness term intent)
    (hstep : s.move app keys self c intent = some t) : s.LeadsTo t := by
  have hc' := hc
  obtain ⟨term, hself, hwitness, hlast, -, hstaged⟩ := hc'
  have hmove := hallowed term hself hwitness hlast hstaged
  cases intent with
  | stop => exact Option.some.inj hstep ▸ (LeadsTo.refl h).stop
  | ask call stage =>
    exact Option.some.inj hstep ▸ h.ask hc hmove.1 fun later hlater hbound _ =>
      eq_of_electionWinner hlast hbound (hself.symm.trans hlater) ▸ hmove.2
  | reach stage =>
    exact Option.some.inj hstep ▸ (LeadsTo.refl h).reach hc fun later hlater hbound _ =>
      eq_of_electionWinner hlast hbound (hself.symm.trans hlater) ▸ hmove
  | prepare remote turns entry entries =>
    obtain ⟨i, hi, -, hnonce⟩ := Behind.head hmove h.toRecorded
    have hleads := (h.prepare app keys (e := entry)
      (hnonce.le.trans (add_le_add_left (Nat.cast_le.mpr hi) 1))).1
    exact hleads.changeBy hc hstep fun _ _ _ =>
      Behind.mono hmove hleads.2 fun hsome => by cases hsome
  | commit remote turns entry entries =>
    have hfree : s.tasks self = none := by
      unfold LiveCluster.move LiveCluster.changeBy at hstep
      dsimp only at hstep
      split_ifs at hstep with hfree <;> exact tasks_eq_none_of_free hfree
    obtain ⟨i, -, he, -⟩ := Behind.head hmove h.toRecorded
    obtain ⟨hleads, hhas⟩ := h.commit app keys hfree
      (h.toRecorded.has_leader he)
    exact hleads.changeBy hc hstep fun hreturns _ _ =>
      (Behind.mono hmove hleads.2 fun hsome => by cases hsome).tail hleads.1.toRecorded
        (hhas hreturns)
  | adopt certificate =>
    obtain ⟨j, hj, hsource⟩ := hmove
    exact h.adoptHeld hstep hj hsource

omit [DecidableEq μ] in
/-- **A candidate recovers a certificate** from its witness. It is the one of its own election, or
the one of the election that its witness has won in the meantime. -/
lemma Sound.allowed_recover (h : s.Sound) {remote : LeadershipState}
    {certificate : LeadershipCertificate} (hself : self = electionWinner term) (hlast : term < 2)
    (hreached : term ≤ (s.certificates self).length)
    (hremote : remote.certificates <+: s.certificates (electionWitness term))
    (hrecover : (s.nodes self).leadership.recover keys.failover remote = .ok (some certificate)) :
    s.Allowed self (electionWitness term) term (.adopt certificate) := by
  obtain ⟨hnext, hlength, hlastOf⟩ := LeadershipState.recover_getLast hrecover
  have hown := (h.ranked self).term
  change _ = ((s.certificates self).length : ℤ) at hown
  have hplace : remote.certificates.length - 1 = (s.certificates self).length := by omega
  rw [List.getLast?_eq_getElem?, hplace] at hlastOf
  have hheld := getElem?_of_prefix hremote hlastOf
  have hmem := List.mem_of_getElem? hheld
  refine ⟨_, (h.ranked _).terms _ _ hheld, ?_⟩
  rcases hreached.lt_or_eq with hlater | hsame
  · -- the witness of the first election wins the second one
    have hbound := (List.getElem?_eq_some_iff.mp hheld).1.trans_le (h.length_certificates_le _)
    obtain ⟨rfl, hone⟩ : term = 0 ∧ (s.certificates self).length = 1 := by omega
    rw [hone]
    exact .inr hmem
  · exact .inl ⟨hsame ▸ hself, _, hmem⟩

omit [DecidableEq μ] in
/-- A candidate may form a certificate for its witness. -/
lemma Sound.allowed_certify (h : s.Sound) {vote signed : FailureVote}
    {certificate : LeadershipCertificate} (hself : self = electionWinner term) (hlast : term < 2)
    (hvote : vote.candidate = self)
    (hcertify : (s.nodes self).leadership.certify keys.failover vote signed =
      .ok (some certificate)) : s.Allowed self (electionWitness term) term
        (.ask (.certificate certificate) (.certifying certificate)) := by
  obtain ⟨candidate, hsuccessor, hfits, -, -, -, hnumber, -⟩ :=
    LeadershipState.certify_fits hcertify
  simp only [LeadershipState.fits, Bool.and_eq_true, beq_iff_eq] at hfits
  have hcandidate : candidate = self := hfits.1.1.1.2.symm.trans hvote
  obtain ⟨hwinner, hbound⟩ := winner_of_successor (h.ranked self).leader
    (hcandidate ▸ hsuccessor)
  have hplace : (s.certificates self).length = term :=
    eq_of_electionWinner hbound hlast (hwinner.symm.trans hself)
  have hterm : certificate.term = term + 1 := by
    rw [hnumber, (h.ranked self).term, ← hplace]
    rfl
  exact ⟨⟨term, hterm, .inl rfl⟩, packets_send .., hterm⟩

omit [DecidableEq μ] in
/-- A turn of `_sync_from_peer`. -/
lemma Sound.allowed_pull (h : s.Sound) (witness : Role) (remote : ℤ) (turns : ℕ) :
    s.Allowed self witness term ((s.nodes self).pull remote turns) := by
  cases turns with
  | zero => trivial
  | succ turns => exact ⟨trivial, packets_send .., (h.length self).ge⟩

omit [DecidableEq μ] in
/-- The end of `_reconcile_with_witness`. -/
lemma allowed_push (s : LiveCluster A μ) (self witness : Role) (term : ℕ) (remote : ℤ) :
    s.Allowed self witness term ((s.nodes self).push remote) := by
  unfold Node.push
  split_ifs
  · trivial
  · exact ⟨trivial, packets_send ..⟩
  · exact ⟨trivial, trivial⟩

/-- **The candidate goes on** as it may. -/
theorem Sound.allowed_proceed (h : s.Sound) {tick : ℤ} {witness : Role}
    {result : Option (PeerResult μ)} (hself : self = electionWinner term)
    (hwitness : witness = electionWitness term) (hlast : term < 2)
    (hterm : term ≤ (s.certificates self).length) (hstaged : s.Staged self witness term stage)
    (hreceived : s.received stage.call? result = true) : s.Allowed self witness term
      ((s.nodes self).proceed app keys self tick s.packets.length result stage) := by
  have hanswered : ∀ k r call, stage.call? = some k → result = some r →
      s.packets[k]? = some ⟨self, witness, call⟩ → s.Answered ⟨self, witness, call⟩ r := by
    rintro k r call hk rfl hcall
    rw [hk] at hreceived
    obtain ⟨p, hp, hanswered⟩ := h.answered k r (of_decide_eq_true hreceived)
    rw [hcall] at hp
    exact Option.some.inj hp ▸ hanswered
  unfold Node.proceed
  cases stage with
  | locating k =>
    cases result with
    | none => trivial
    | some r =>
      cases r with
      | position remote =>
        dsimp only
        split_ifs
        · exact h.allowed_pull ..
        · trivial
        · exact allowed_push ..
      | _ => trivial
  | pulling remote turns position k =>
    cases result with
    | none => trivial
    | some r =>
      have hr := hanswered k r _ rfl rfl hstaged.1
      cases r with
      | history history =>
        dsimp only
        split_ifs
        · trivial
        · exact allowed_push ..
        · trivial
        · trivial
        · exact ⟨position.toNat, Int.toNat_le.mpr hstaged.2, hr.2, fun hsome => by cases hsome⟩
      | _ => trivial
  | taking remote turns entries =>
    cases entries with
    | nil => exact h.allowed_pull ..
    | cons entry entries =>
      dsimp only
      cases (s.nodes self).replicationPending with
      | some pending =>
        dsimp only
        split_ifs
        · exact hstaged
        · trivial
      | none => exact hstaged
  | settling remote turns entry entries => exact hstaged
  | pushing transfer =>
    have hcontinues := h.continues (fun e he => by cases he) hstaged hreceived
    unfold log at hcontinues
    dsimp only
    generalize transfer.answer none s.packets.length (s.nodes self).replicationLog
      (s.nodes self).committedPosition result = answer at hcontinues ⊢
    obtain ⟨after, next⟩ := answer
    cases next with
    | some call => exact ⟨hcontinues.justified call rfl, hcontinues.waits call rfl⟩
    | none =>
      cases after with
      | ended success =>
        cases success with
        | true => exact ⟨trivial, trivial⟩
        | false => trivial
      | _ => trivial
  | confirming k =>
    cases result with
    | none => trivial
    | some r =>
      cases r with
      | history history =>
        dsimp only
        split_ifs
        · exact ⟨trivial, packets_send ..⟩
        · trivial
      | _ => trivial
  | inquiring k =>
    have hpoll : s.Allowed self witness term ((s.nodes self).poll app keys self tick) :=
      ⟨trivial, rfl⟩
    cases result with
    | none => exact hpoll
    | some r =>
      have hr := hanswered k r _ rfl rfl hstaged
      cases r with
      | leadership remote =>
        dsimp only
        split_ifs
        · cases hrecover : (s.nodes self).leadership.recover keys.failover remote with
          | error e => trivial
          | ok recovered =>
            cases recovered with
            | none => trivial
            | some certificate =>
              subst hwitness
              exact h.allowed_recover hself hlast hterm hr hrecover
        · exact hpoll
      | _ => exact hr.elim
  | voting vote k =>
    cases result with
    | none => trivial
    | some r =>
      cases r with
      | vote signed =>
        dsimp only
        cases hcertify : (s.nodes self).leadership.certify keys.failover vote signed with
        | error e => trivial
        | ok formed =>
          cases formed with
          | none => trivial
          | some certificate =>
            subst hwitness
            exact h.allowed_certify hself hlast hstaged hcertify
      | _ => trivial
  | certifying certificate k =>
    cases result with
    | none => trivial
    | some r =>
      have hr := hanswered k r _ rfl rfl hstaged.1
      cases r with
      | recorded => exact ⟨term, hstaged.2, .inl ⟨hself, _, hr⟩⟩
      | _ => exact hr.elim

/-- **The candidate goes on.** -/
theorem Sound.proceed (h : s.Sound) (hc : s.Standing self c) {result : Option (PeerResult μ)}
    (hreceived : s.received c.stage.call? result = true)
    (hstep : s.move app keys self c ((s.nodes self).proceed app keys self c.tick s.packets.length
      result c.stage) = some t) : s.LeadsTo t := by
  obtain ⟨term, hself, hwitness, hlast, hterm, hstaged⟩ := hc
  refine h.move ⟨term, hself, hwitness, hlast, hterm, hstaged⟩
    (fun later hlater _ hbound _ => ?_) hstep
  obtain rfl := eq_of_electionWinner hlast hbound (hself.symm.trans hlater)
  exact h.allowed_proceed hself hwitness hlast hterm hstaged hreceived

end Candidate

/-! ## Steps and runs -/

section Steps

/-- A new node has an empty log. -/
lemma recorded_initial (boot : Role → A) (hasStore : Role → Bool) :
    (initial boot hasStore : LiveCluster A μ).Recorded where
  kept r := Node.kept_fresh _ _
  elected := Network.elected_initial boot hasStore
  followed r j hj := absurd hj (Nat.not_lt_zero j)
  length r := rfl
  numbered r i e he := by simp [log, initial, Node.fresh] at he
  signed r i e he := by simp [log, initial, Node.fresh] at he
  owned r i e he := by simp [log, initial, Node.fresh] at he
  certified r c hc := by simp [certificates, initial, Node.fresh, LeadershipState.initial] at hc
  pending r e he := by cases he

/-- **The cluster starts** with the invariant. -/
theorem sound_initial (boot : Role → A) (hasStore : Role → Bool) :
    (initial boot hasStore : LiveCluster A μ).Sound where
  toRecorded := recorded_initial boot hasStore
  justified p hp := by cases hp
  answered k result hmem := by cases hmem
  led r hr := by
    rcases hr with hwaiting | htask
    · exact absurd rfl hwaiting
    · exact absurd rfl htask
  working r task htask := by cases htask
  standing r c hc := by cases hc

/-- A leader leads its own term. -/
lemma Recorded.index_of_leader (h : s.Recorded) (hself : (s.nodes self).leadership.leader = self) :
    self.index = (s.certificates self).length := by
  have hindex := h.index_leader self
  rwa [hself] at hindex

variable [DecidableEq μ]

/-- The leader tells its last certificate. -/
lemma Sound.tell (h : s.Sound) (hstep : s.step app keys boot (.tell self) = some t) :
    s.LeadsTo t := by
  simp only [LiveCluster.step, Option.bind_eq_bind, Option.bind_eq_some_iff,
    Option.guard_eq_some', exists_const, Option.pure_def, Option.some.injEq] at hstep
  obtain ⟨⟨-, hself⟩, certificate, hlast, rfl⟩ := hstep
  have hindex := h.index_of_leader hself
  have hget := hlast
  change (s.certificates self).getLast? = some certificate at hget
  rw [List.getLast?_eq_getElem?, ← hindex] at hget
  have hbound := h.length_certificates_le self
  refine (LeadsTo.refl h).broadcast _ fun receiver =>
    ⟨_, (h.ranked self).terms _ _ hget, .inr ?_⟩
  have hwinner : self = electionWinner (self.index - 1) := by
    have hpos := (List.getElem?_eq_some_iff.mp hget).1
    cases self with
    | primary =>
      rw [← hindex] at hpos
      exact absurd hpos (lt_irrefl 0)
    | secondary => rfl
    | tertiary => rfl
  rw [← hwinner]
  exact List.mem_of_getLast? hlast

/-- **Every step** keeps the invariant, and takes nothing back. -/
theorem Sound.step (h : s.Sound) {event : ClusterEvent A μ}
    (hstep : s.step app keys boot event = some t) : s.LeadsTo t := by
  cases event with
  | handle k now =>
    simp only [LiveCluster.step, Option.bind_eq_bind, Option.bind_eq_some_iff] at hstep
    obtain ⟨p, hk, hserve⟩ := hstep
    exact h.serve hk hserve
  | perform self background =>
    unfold LiveCluster.step at hstep
    dsimp only at hstep
    split_ifs at hstep
    exact Option.some.inj hstep ▸ h.keep_record (h.toRecorded.holds background.operation self)
      (Node.turns_background background)
  | tell self => exact h.tell hstep
  | submit self work =>
    unfold LiveCluster.step at hstep
    dsimp only at hstep
    split_ifs at hstep with hself
    exact Option.some.inj hstep ▸ ⟨h.setWaiting fun _ => (h.index_of_leader hself).le,
      grows_of_eq rfl rfl rfl⟩
  | start self k =>
    simp only [LiveCluster.step, Option.bind_eq_bind, Option.bind_eq_some_iff,
      Option.guard_eq_some', exists_const, Option.pure_def, Option.some.injEq] at hstep
    obtain ⟨-, work, hwork, rfl⟩ := hstep
    have hled := h.led self (.inl (List.ne_nil_of_mem (List.mem_of_getElem? hwork)))
    exact LeadsTo.start (s := s) ⟨h.setWaiting fun _ => hled, grows_of_eq rfl rfl rfl⟩ hled work
  | cleared self =>
    unfold LiveCluster.step at hstep
    dsimp only at hstep
    cases htask : s.tasks self with
    | none => rw [htask] at hstep; cases hstep
    | some task =>
      rw [htask] at hstep
      cases task with
      | clearing work =>
        have hled := h.led self (.inr (htask ▸ Option.some_ne_none _))
        have hleads := h.drop_pending (h.toRecorded.holds (.abortUncommitted true) self)
          (turns_abortUncommitted app keys self _)
        exact Option.some.inj hstep ▸
          hleads.begin (hled.trans (hleads.2.certificates_length self)) work
      | _ => cases hstep
  | resume self peer result => exact h.resume hstep
  | decide self =>
    unfold LiveCluster.step at hstep
    dsimp only at hstep
    cases htask : s.tasks self with
    | none => rw [htask] at hstep; cases hstep
    | some task =>
      rw [htask] at hstep
      cases task with
      | transferring offer transfers =>
        dsimp only at hstep
        cases hfirst : transfers self.peers.1 with
        | ended first =>
          cases hsecond : transfers self.peers.2 with
          | ended second =>
            rw [hfirst, hsecond] at hstep
            exact Option.some.inj hstep ▸ h.conclude htask hfirst hsecond
          | _ => rw [hfirst, hsecond] at hstep; cases hstep
        | _ => rw [hfirst] at hstep; cases hstep
      | _ => cases hstep
  | abandoned self =>
    unfold LiveCluster.step at hstep
    dsimp only at hstep
    cases htask : s.tasks self with
    | none => rw [htask] at hstep; cases hstep
    | some task =>
      rw [htask] at hstep
      cases task with
      | abandoning e =>
        exact Option.some.inj hstep ▸ (h.drop_pending (h.toRecorded.holds (.abandon true) self)
          (turns_abandon app keys self _)).release
      | _ => cases hstep
  | finish self first second =>
    unfold LiveCluster.step at hstep
    dsimp only at hstep
    cases htask : s.tasks self with
    | none => rw [htask] at hstep; cases hstep
    | some task =>
      rw [htask] at hstep
      cases task with
      | confirming e firstCall secondCall =>
        dsimp only at hstep
        split_ifs at hstep
        exact Option.some.inj hstep ▸ (LeadsTo.refl h).release
      | _ => cases hstep
  | stand self tick => exact h.stand hstep
  | proceed self result =>
    simp only [LiveCluster.step, Option.bind_eq_bind, Option.bind_eq_some_iff,
      Option.guard_eq_some', exists_const] at hstep
    obtain ⟨c, hc, hreceived, hmove⟩ := hstep
    exact h.proceed (h.standing self c hc) hreceived hmove
  | crash self =>
    simp only [LiveCluster.step, Option.bind_eq_bind, Option.bind_eq_some_iff, Option.pure_def,
      Option.some.injEq] at hstep
    obtain ⟨n, hn, rfl⟩ := hstep
    obtain ⟨hrecord, hkept⟩ := (h.kept self).reboot hn
    have hholds := (h.elected.filed self).reboot hn
    have hleads := h.keep_record hholds ⟨hholds.store, hrecord, fun _ => hkept⟩
    have hwaiting : s.LeadsTo ((s.become self n).setWaiting self []) :=
      hleads.trans ⟨hleads.1.setWaiting fun hnil => absurd rfl hnil, grows_of_eq rfl rfl rfl⟩
    exact hwaiting.release.stop

/-- **Every run** keeps the invariant, and takes nothing back. -/
theorem Sound.run (h : s.Sound) {es : List (ClusterEvent A μ)}
    (hrun : Transition.run (LiveCluster.step app keys boot) s es = some t) : s.LeadsTo t :=
  ⟨Transition.run_induction (I := Sound) (fun _ _ _ hs hstep => (hs.step hstep).1) h hrun,
    Transition.run_rel (I := Sound) (R := Grows) Grows.refl (fun _ _ _ => Grows.trans)
      (fun _ _ _ hs hstep => hs.step hstep) h hrun⟩

end Steps

end LiveCluster

end SplitChain
