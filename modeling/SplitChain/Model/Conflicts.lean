import SplitChain.Model.Counterproofs

set_option relaxedAutoImplicit false
set_option autoImplicit false

/-!
# Repeated and conflicting votes

What becomes of an observer who votes twice. A vote that comes again is refused once its round is
over, and changes nothing. A vote that conflicts with the candidate quarantines the observer it
names before anybody looks at its certificate and signature, and votes are verified with the key
that comes with the call: so an observer can be framed, unless those who call have made sure of
both. And the quarantine is not consulted again, here or in the recovery of roles: it keeps an
observer out of the count only where no vote of a quarantined observer is recorded, and no observer
is quarantined whose vote counts.

## Main definitions

* `SplitChain.ThreeRoundFinality.Genuine` — a vote signed with its observer's own key.
* `SplitChain.ThreeRoundFinality.Guilty` — an observer that has signed conflicting votes.
* `SplitChain.ThreeRoundFinality.Fair` — a call whose conflicts are genuine.
* `SplitChain.ThreeRoundFinality.Spares`, `SplitChain.RecoveryCoordinator.Spares` — a call after
  which the count and the quarantine are apart.

## Main results

* `SplitChain.ThreeRoundFinality.redelivered_vote` — what a repeated call does.
* `SplitChain.ThreeRoundFinality.quarantined_guilty` — fair calls frame nobody.
* `SplitChain.quarantined_not_counted` — quorums without quarantined observers.
-/

namespace SplitChain

open Raise Proc

variable {ν : Type} [PyNumber ν]

namespace ThreeRoundFinality

variable {py : PyLib ν} {f : ThreeRoundFinality} {s t : FinalityState} {a : Acknowledgement}

/-! ## Redelivery -/

/-- A vote that is recorded in the current round is taken again without effect. -/
lemma acknowledge_recorded (hrunning : s.finalized = false) (hbacks : f.Backs py a s.currentRound)
    (hrecorded : (s.votesIn a.vote.round).get? a.vote.observer = some a.vote) :
    f.acknowledge py a.vote a.certificate a.key s = .ok false s := by
  rw [hbacks.inRound] at hrecorded
  cases hvotes : s.votes.get? s.currentRound with
  | some votes =>
    rw [votesIn_of_get? hvotes] at hrecorded
    rw [acknowledge_of_backs hrunning hbacks hvotes, hrecorded]
    exact if_pos rfl
  | none =>
    rw [FinalityState.votesIn, Dict.getD, hvotes] at hrecorded
    cases hrecorded

/-- A call for a final candidate is refused. -/
lemma acknowledge_of_finalized (h : s.finalized = true) :
    f.acknowledge py a.vote a.certificate a.key s =
      .error (.protocol "candidate is already final") s := by
  refine eq_error_iff.mpr ?_
  unfold acknowledge
  simp [ends_lift, require, h]

/-- A call for another round is refused. -/
lemma acknowledge_of_round_ne (h : s.finalized = false) (hround : a.vote.round ≠ s.currentRound) :
    f.acknowledge py a.vote a.certificate a.key s =
      .error (.protocol "vote is not for the current finality round") s := by
  refine eq_error_iff.mpr ?_
  unfold acknowledge
  simp [ends_lift, require, h, hround]

/-- A call that records its vote has passed the checks of its round. -/
lemma records_of_step (hstep : f.step py s a = some t)
    (hfirst : (s.votesIn a.vote.round).get? a.vote.observer = none)
    (hrecorded : (t.votesIn a.vote.round).get? a.vote.observer = some a.vote) :
    f.Records py s a := by
  obtain rfl := Option.some.inj hstep
  have houtcome := acknowledge_outcome py f s a
  generalize returns (f.acknowledge py a.vote a.certificate a.key) s = returned at houtcome
  generalize after (f.acknowledge py a.vote a.certificate a.key) s = t at houtcome hrecorded
  have hnone : (s.votesIn a.vote.round).get? a.vote.observer ≠ some a.vote := by
    rw [hfirst]
    exact nofun
  cases houtcome with
  | refused => exact (hnone hrecorded).elim
  | duplicate => exact (hnone hrecorded).elim
  | conflict => exact (hnone hrecorded).elim
  | vote hrecords => exact hrecords

/-- **Redelivered votes change nothing.** When a call has recorded its vote, then whatever calls
follow, the same call leaves the state as it is. It raises nothing exactly while the candidate is
not final and the round of the vote is the current one.

**Proof sketch.** The vote stays in its round, so that while this is the current one the call finds
it there after passing the checks that it has passed before. -/
theorem redelivered_vote (py : PyLib ν) (f : ThreeRoundFinality)
    {before later : List Acknowledgement} {u v : FinalityState}
    (hbefore : Transition.run (f.step py) start before = some u) (hstep : f.step py u a = some v)
    (hfirst : (u.votesIn a.vote.round).get? a.vote.observer = none)
    (hrecorded : (v.votesIn a.vote.round).get? a.vote.observer = some a.vote)
    (hlater : Transition.run (f.step py) v later = some s) :
    f.acknowledge py a.vote a.certificate a.key s =
      if s.finalized = true then .error (.protocol "candidate is already final") s
      else if a.vote.round = s.currentRound then .ok false s
      else .error (.protocol "vote is not for the current finality round") s := by
  have hbacks := (records_of_step hstep hfirst hrecorded).backs
  split_ifs with hfinal hround
  · exact acknowledge_of_finalized hfinal
  · have hrunning : s.finalized = false := Bool.eq_false_iff.mpr hfinal
    have hreach : Transition.run (f.step py) start (before ++ [a]) = some v :=
      Transition.run_append_eq_some_iff.mpr
        ⟨u, hbefore, Transition.run_cons_eq_some_iff.mpr ⟨v, hstep, rfl⟩⟩
    obtain ⟨hprogress, -⟩ := (progress_start py f (before ++ [a] ++ later)).run
      (List.subset_append_left _ _) hreach
    obtain ⟨-, hextends⟩ := hprogress.run (List.subset_append_right _ _) hlater
    have hsame : s.currentRound = u.currentRound := by
      rw [← hround, hbacks.inRound]
    exact acknowledge_recorded hrunning (hsame ▸ hbacks) (hextends.kept _ _ _ hrecorded)
  · exact acknowledge_of_round_ne (Bool.eq_false_iff.mpr hfinal) hround

section Example

/-- The authority of the example. -/
def exampleAuthority : CertificateAuthority := ⟨"local-finality-ca", "ca-secret"⟩

/-- The observer of a role, with a certificate for ten rounds. -/
def exampleSigner (role : FinalityRole) : FinalitySigner :=
  let c : NodeCertificate :=
    ⟨role.value, role.value ++ "-public", ["observer"], 0, 10, exampleAuthority.issuer, ""⟩
  ⟨{ c with signature := exampleAuthority.sign Ledger.integerLib c }, role,
    encodeUtf8 (role.value ++ "-secret").toList⟩

/-- One observer for each role. -/
def exampleFinality : ThreeRoundFinality where
  authority := exampleAuthority
  branchId := "branch-1"
  candidateDigest := "candidate-a"
  observers := Dict.ofList
    [("primary", .primary), ("secondary", .secondary), ("tertiary", .tertiary)]
  three_le := by decide
  roles role := by cases role <;> decide

/-- The observer of a role votes. -/
def exampleVote (role : FinalityRole) (candidateDigest : String) (round : ℤ) : Acknowledgement :=
  let s := exampleSigner role
  ⟨s.vote Ledger.integerLib "branch-1" candidateDigest round, s.certificate, s.key⟩

/-- The certificates of the example are valid in the first ten rounds. -/
lemma verify_exampleSigner (role : FinalityRole) {round : ℤ} (hfrom : 0 ≤ round)
    (huntil : round < 10) :
    exampleAuthority.verify Ledger.integerLib (exampleSigner role).certificate round "observer" =
      .ok true := by
  have hissued : exampleAuthority.issue Ledger.integerLib role.value (role.value ++ "-public")
      ["observer"] 0 10 = .ok (exampleSigner role).certificate := rfl
  exact CertificateAuthority.verify_issue hissued hfrom huntil (List.mem_singleton_self _)

/-- The votes of the example are backed. -/
lemma backs_exampleVote (role : FinalityRole) :
    exampleFinality.Backs Ledger.integerLib (exampleVote role "candidate-a" 1) 1 :=
  backs_vote (by cases role <;> decide) (verify_exampleSigner role (by decide) (by decide))

/-- The state after the vote of the primary observer. -/
def exampleFirst : FinalityState :=
  exampleFinality.complete 1 (start.record (exampleVote .primary "candidate-a" 1).vote)

/-- The state after the votes of the primary and the secondary observers. -/
def exampleSecond : FinalityState :=
  exampleFinality.complete 1 (exampleFirst.record (exampleVote .secondary "candidate-a" 1).vote)

/-- The first vote of the example. -/
lemma step_exampleFirst : exampleFinality.step Ledger.integerLib start
    (exampleVote .primary "candidate-a" 1) = some exampleFirst :=
  step_of_records ⟨rfl, backs_exampleVote .primary, by decide⟩ (by decide)

/-- The second vote of the example. -/
lemma step_exampleSecond : exampleFinality.step Ledger.integerLib exampleFirst
    (exampleVote .secondary "candidate-a" 1) = some exampleSecond :=
  step_of_records ⟨by decide +kernel, backs_exampleVote .secondary, by decide +kernel⟩
    (by decide +kernel)

/-- The vote that completes a round is refused when it comes again. -/
theorem completing_vote_refused : ∃ s,
    Transition.run (exampleFinality.step Ledger.integerLib) start
        [exampleVote .primary "candidate-a" 1, exampleVote .secondary "candidate-a" 1] = some s ∧
      (s.votesIn 1).get? "secondary" = some (exampleVote .secondary "candidate-a" 1).vote ∧
      exampleFinality.acknowledge Ledger.integerLib (exampleVote .secondary "candidate-a" 1).vote
        (exampleVote .secondary "candidate-a" 1).certificate
        (exampleVote .secondary "candidate-a" 1).key s =
          .error (.protocol "vote is not for the current finality round") s := by
  refine ⟨exampleSecond, ?_, rfl, acknowledge_of_round_ne (by decide +kernel) (by decide +kernel)⟩
  rw [Transition.run_cons_eq_some_iff]
  exact ⟨_, step_exampleFirst, Transition.run_cons_eq_some_iff.mpr ⟨_, step_exampleSecond, rfl⟩⟩

/-- A vote that comes again in its round is taken without effect. -/
theorem redelivered_vote_first :
    exampleFinality.acknowledge Ledger.integerLib (exampleVote .primary "candidate-a" 1).vote
      (exampleVote .primary "candidate-a" 1).certificate
      (exampleVote .primary "candidate-a" 1).key exampleFirst = .ok false exampleFirst :=
  redelivered_vote Ledger.integerLib exampleFinality (Transition.run_nil) step_exampleFirst
    (by decide) rfl (Transition.run_nil)

end Example

/-! ## Framing -/

section Framing

variable (py f) (keyOf : String → List UInt8)

/-- A vote is signed with the key of its observer. -/
def Genuine (vote : FinalityVote) : Prop :=
  vote.signature = hmacDigest py (keyOf vote.observer) vote.unsigned

/-- An observer has signed, with a certificate valid in its round, a vote for the branch that
conflicts with the candidate or with another vote that it has signed in the round. -/
def Guilty (signed : Set FinalityVote) (observer : String) : Prop :=
  ∃ vote ∈ signed, vote.observer = observer ∧ vote.branchId = f.branchId ∧
    (∃ certificate : NodeCertificate, certificate.nodeId = observer ∧
      f.authority.verify py certificate vote.round "observer" = .ok true) ∧
    (vote.candidateDigest ≠ f.candidateDigest ∨
      ∃ other ∈ signed, other.observer = observer ∧ other.branchId = f.branchId ∧
        other.round = vote.round ∧ other.candidateDigest ≠ vote.candidateDigest)

/-- A call is fair: a vote against the candidate that comes to be looked at is under a valid
certificate and genuine, and so is a vote that passes all the checks with the key of the call. -/
structure Fair (s : FinalityState) (a : Acknowledgement) : Prop where
  conflicting : f.Addressed s a → a.vote.candidateDigest ≠ f.candidateDigest →
    f.authority.verify py a.certificate a.vote.round "observer" = .ok true ∧
      Genuine py keyOf a.vote
  backed : s.finalized = false → f.Backs py a s.currentRound → Genuine py keyOf a.vote

/-- **The invariant of fair calls.** Recorded votes are genuine, for the branch, the candidate and
their round, in the role of their observer; and whoever is quarantined is guilty. -/
structure Unframed (signed : Set FinalityVote) (s : FinalityState) : Prop where
  genuine : ∀ r observer vote, (s.votesIn r).get? observer = some vote →
    vote.observer = observer ∧ vote.round = r ∧ vote.branchId = f.branchId ∧
      vote.candidateDigest = f.candidateDigest ∧ f.observers.get? observer = some vote.role ∧
      Genuine py keyOf vote
  guilty : ∀ observer ∈ s.quarantined, f.Guilty py signed observer

end Framing

section Framed

variable {keyOf : String → List UInt8} {signed : Set FinalityVote}

/-- Genuine votes of one observer in one role that say the same are the same vote. -/
lemma Genuine.eq {vote other : FinalityVote} (h : Genuine py keyOf vote)
    (h' : Genuine py keyOf other) (hobserver : vote.observer = other.observer)
    (hrole : vote.role = other.role) (hbranch : vote.branchId = other.branchId)
    (hdigest : vote.candidateDigest = other.candidateDigest) (hround : vote.round = other.round) :
    vote = other := by
  obtain ⟨observer, role, branchId, digest, round, signature⟩ := vote
  obtain ⟨observer', role', branchId', digest', round', signature'⟩ := other
  dsimp only at hobserver hrole hbranch hdigest hround
  subst hobserver hrole hbranch hdigest hround
  have hsignature : signature = signature' := by
    simp only [Genuine, FinalityVote.unsigned] at h h'
    rw [h, h']
  rw [hsignature]

/-- Quarantining a guilty observer. -/
lemma Unframed.quarantine (h : f.Unframed py keyOf signed s) {observer : String}
    (hguilty : f.Guilty py signed observer) :
    f.Unframed py keyOf signed (s.quarantine observer) := by
  refine ⟨h.genuine, fun o ho => ?_⟩
  rcases Finset.mem_insert.mp ho with rfl | ho
  · exact hguilty
  · exact h.guilty o ho

/-- A backed vote does not differ from a recorded one: both are genuine. -/
lemma Unframed.not_differs (h : f.Unframed py keyOf signed s)
    (hbacks : f.Backs py a s.currentRound) (hgenuine : Genuine py keyOf a.vote)
    {existing : FinalityVote}
    (hrecorded : (s.votesIn a.vote.round).get? a.vote.observer = some existing) :
    existing = a.vote := by
  obtain ⟨hobserver, hround, hbranch, hdigest, hrole, hexisting⟩ := h.genuine _ _ _ hrecorded
  have hroles : existing.role = a.vote.role := Option.some.inj (hrole.symm.trans hbacks.assigned)
  apply hexisting.eq hgenuine hobserver hroles
  · rw [hbranch, hbacks.branchId]
  · rw [hdigest, hbacks.candidate]
  · exact hround

/-- A fair call that quarantines its observer has shown it to be guilty. -/
lemma Unframed.guilty_of_conflicts (h : f.Unframed py keyOf signed s)
    (hfair : f.Fair py keyOf s a) (hsigned : Genuine py keyOf a.vote → a.vote ∈ signed)
    (hconflicts : f.Conflicts py s a) : f.Guilty py signed a.vote.observer := by
  cases hconflicts with
  | candidate haddressed hdiffers =>
    obtain ⟨hcertified, hgenuine⟩ := hfair.conflicting haddressed hdiffers
    exact ⟨a.vote, hsigned hgenuine, rfl, haddressed.branchId,
      ⟨a.certificate, haddressed.named, hcertified⟩, .inl hdiffers⟩
  | vote hrunning hbacks hrecorded hdiffers =>
    have hgenuine := hfair.backed hrunning hbacks
    exact (hdiffers (h.not_differs hbacks hgenuine hrecorded)).elim

/-- **A fair call frames nobody.** -/
lemma Unframed.step (h : f.Unframed py keyOf signed s) (hfair : f.Fair py keyOf s a)
    (hsigned : Genuine py keyOf a.vote → a.vote ∈ signed) (hstep : f.step py s a = some t) :
    f.Unframed py keyOf signed t := by
  obtain rfl := Option.some.inj hstep
  have houtcome := acknowledge_outcome py f s a
  generalize returns (f.acknowledge py a.vote a.certificate a.key) s = returned at houtcome
  generalize after (f.acknowledge py a.vote a.certificate a.key) s = t at houtcome ⊢
  cases houtcome with
  | refused => exact h
  | duplicate => exact h
  | conflict hconflicts => exact h.quarantine (h.guilty_of_conflicts hfair hsigned hconflicts)
  | vote hrecords =>
    have hbacks := hrecords.backs
    have hgenuine := hfair.backed hrecords.running hbacks
    refine ⟨fun r observer vote hvote => ?_, fun observer hobserver => ?_⟩
    · rw [votesIn_complete, votesIn_record] at hvote
      split_ifs at hvote with hround
      · subst hround
        rw [Dict.get?_set] at hvote
        split_ifs at hvote with hobserver
        · obtain rfl := Option.some.inj hvote
          subst hobserver
          exact ⟨rfl, rfl, hbacks.branchId, hbacks.candidate, hbacks.assigned, hgenuine⟩
        · exact h.genuine _ _ _ hvote
      · exact h.genuine _ _ _ hvote
    · rw [quarantined_complete] at hobserver
      exact h.guilty observer hobserver

/-- Nobody is quarantined before the first call. -/
lemma unframed_start (py : PyLib ν) (f : ThreeRoundFinality) (keyOf : String → List UInt8)
    (signed : Set FinalityVote) : f.Unframed py keyOf signed start := by
  refine ⟨fun r observer vote hvote => ?_, fun observer hobserver => ?_⟩
  · obtain ⟨-, a, ha, -⟩ := (progress_start py f []).backed r observer vote hvote
    cases ha
  · cases hobserver

/-- **Fair calls frame nobody.** Let `signed` be the votes that the observers have signed, and let
nobody forge their signatures: every genuine vote of a call is among them. If every call is fair,
then every observer that is quarantined at any time has itself signed, with a certificate valid in
its round, a vote for the branch that conflicts with the candidate or with another vote it has
signed in the round.

**Proof sketch.** Recorded votes are genuine, and so are the votes that are compared with them:
these do not differ. So the observer is quarantined for a vote against the candidate, which it has
signed. -/
theorem quarantined_guilty (py : PyLib ν) (f : ThreeRoundFinality) (keyOf : String → List UInt8)
    (signed : Set FinalityVote) (calls : List Acknowledgement)
    (hsigned : ∀ a ∈ calls, Genuine py keyOf a.vote → a.vote ∈ signed)
    (hfair : Transition.Meets (f.step py) (f.Fair py keyOf) start calls) :
    Transition.Always (f.step py) (fun s => ∀ observer ∈ s.quarantined, f.Guilty py signed observer)
      start calls := by
  have hknown : Transition.Meets (f.step py)
      (fun _ a => Genuine py keyOf a.vote → a.vote ∈ signed) start calls :=
    Transition.meets_of_forall hsigned
  apply Transition.always_of_meets (I := f.Unframed py keyOf signed) (fun s h => h.guilty) ?_
    (unframed_start py f keyOf signed) (hfair.and hknown)
  intro s a t h hmeets hstep
  exact h.step hmeets.1 hmeets.2 hstep

section Example

/-- The keys of the example's observers. -/
def exampleKey (observer : String) : List UInt8 := encodeUtf8 (observer ++ "-secret").toList

/-- A vote against the candidate in the name of the primary observer, which it has not signed. -/
def exampleForgery : Acknowledgement :=
  { exampleVote .primary "candidate-b" 1 with
    vote := ⟨"primary", .primary, "branch-1", "candidate-b", 1, ""⟩ }

/-- The votes of the example are genuine. -/
lemma genuine_exampleVote (role : FinalityRole) (candidateDigest : String) (round : ℤ) :
    Genuine Ledger.integerLib exampleKey (exampleVote role candidateDigest round).vote := by
  simp only [Genuine, exampleVote, FinalitySigner.vote, FinalityVote.unsigned]
  rfl

/-- **A framed observer.** A vote in the name of the primary observer that it has not signed
quarantines it. -/
theorem unsigned_vote_quarantines :
    ∃ s, Transition.run (exampleFinality.step Ledger.integerLib) start [exampleForgery] = some s ∧
      (∀ a ∈ [exampleForgery],
        Genuine Ledger.integerLib exampleKey a.vote → a.vote ∈ (∅ : Set FinalityVote)) ∧
      "primary" ∈ s.quarantined ∧ ¬exampleFinality.Guilty Ledger.integerLib ∅ "primary" := by
  have hstep : exampleFinality.step Ledger.integerLib start exampleForgery =
      some (start.quarantine "primary") :=
    step_of_candidate ⟨rfl, rfl, rfl, rfl, by decide⟩ (by decide)
  refine ⟨_, Transition.run_cons_eq_some_iff.mpr ⟨_, hstep, rfl⟩, fun a ha hgenuine => ?_,
    Finset.mem_insert_self _ _, ?_⟩
  · obtain rfl := List.mem_singleton.mp ha
    exact (Sha256.hexDigest_ne _ hgenuine.symm).elim
  · rintro ⟨vote, hvote, -⟩
    exact hvote

/-- An observer that signs a vote against the candidate. -/
theorem quarantined_guilty_conflicting :
    Transition.Always (exampleFinality.step Ledger.integerLib)
      (fun s => ∀ observer ∈ s.quarantined, exampleFinality.Guilty Ledger.integerLib
        {(exampleVote .primary "candidate-b" 1).vote} observer)
      start [exampleVote .primary "candidate-b" 1] := by
  apply quarantined_guilty Ledger.integerLib exampleFinality exampleKey _ _
  · intro a ha _
    exact List.mem_singleton.mp ha ▸ Set.mem_singleton _
  · apply Transition.Meets.mono (G := fun _ a => a = exampleVote .primary "candidate-b" 1)
    · rintro s a rfl
      have hgenuine := genuine_exampleVote .primary "candidate-b" 1
      exact ⟨fun _ _ => ⟨verify_exampleSigner .primary (by decide) (by decide), hgenuine⟩,
        fun _ _ => hgenuine⟩
    · exact Transition.meets_of_forall fun a ha => List.mem_singleton.mp ha

end Example

end Framed

/-! ## Counting -/

section Counting

variable (py f)

/-- A call completes a round: the next one begins, or the candidate becomes final. -/
def Completes (s t : FinalityState) : Prop :=
  s.currentRound < t.currentRound ∨ (s.finalized = false ∧ t.finalized = true)

/-- If a call completes a round, none of the votes counted in it is of an observer that is
quarantined then. -/
def CountsUnquarantined (s : FinalityState) (a : Acknowledgement) : Prop :=
  ∀ t, f.step py s a = some t → Completes s t →
    ∀ observer ∈ (t.votesIn s.currentRound).keys, observer ∉ t.quarantined

/-- A call keeps the count and the quarantine apart: it records no vote of a quarantined observer,
and quarantines no observer whose vote is recorded in the current round. -/
structure Spares (s : FinalityState) (a : Acknowledgement) : Prop where
  record : f.Records py s a → a.vote.observer ∉ s.quarantined
  conflict : f.Conflicts py s a → (s.votesIn s.currentRound).get? a.vote.observer = none

end Counting

/-- The observers of the current round are not quarantined. -/
def Apart (s : FinalityState) : Prop :=
  ∀ observer vote, (s.votesIn s.currentRound).get? observer = some vote → observer ∉ s.quarantined

/-- After a call, the votes of the round it came in are apart from the quarantine. -/
lemma Apart.after (h : Apart s) (hspares : f.Spares py s a) (hstep : f.step py s a = some t)
    {observer : String} {vote : FinalityVote}
    (hvote : (t.votesIn s.currentRound).get? observer = some vote) : observer ∉ t.quarantined := by
  obtain rfl := Option.some.inj hstep
  have houtcome := acknowledge_outcome py f s a
  generalize returns (f.acknowledge py a.vote a.certificate a.key) s = returned at houtcome
  generalize Proc.after (f.acknowledge py a.vote a.certificate a.key) s = t at houtcome hvote ⊢
  cases houtcome with
  | refused => exact h observer vote hvote
  | duplicate => exact h observer vote hvote
  | conflict hconflicts =>
    intro hmem
    rcases Finset.mem_insert.mp hmem with rfl | hmem
    · have hnone := hspares.conflict hconflicts
      rw [show (s.quarantine a.vote.observer).votesIn s.currentRound = s.votesIn s.currentRound from
        rfl, hnone] at hvote
      cases hvote
    · exact h observer vote hvote hmem
  | vote hrecords =>
    rw [votesIn_complete, votesIn_record, hrecords.backs.inRound, if_pos rfl,
      Dict.get?_set] at hvote
    rw [quarantined_complete]
    split_ifs at hvote with hobserver
    · exact hobserver ▸ hspares.record hrecords
    · exact h observer vote hvote

/-- A call that keeps the count and the quarantine apart does so for the round that is current
afterwards: a round that begins has no votes. -/
lemma Apart.step {calls : List Acknowledgement} (h : Apart s) (hprogress : f.Progress py calls s)
    (ha : a ∈ calls) (hspares : f.Spares py s a) (hstep : f.step py s a = some t) : Apart t := by
  obtain ⟨-, hextends⟩ := hprogress.step ha hstep
  rcases hextends.current.eq_or_lt with hsame | hlt
  · intro observer vote hvote
    exact h.after hspares hstep (hsame ▸ hvote)
  · have hempty : t.votesIn t.currentRound = ∅ := by
      rw [votesIn_of_step hstep hlt.ne']
      exact hprogress.empty _ hlt
    intro observer vote hvote
    rw [hempty] at hvote
    cases hvote

/-- The calls of a run that keep the count and the quarantine apart complete no round with the vote
of a quarantined observer.

**Proof sketch.** The observers of the current round are not quarantined before the call, and its
own vote is not of one. -/
lemma counts_unquarantined (py : PyLib ν) (f : ThreeRoundFinality) (calls : List Acknowledgement)
    (hspares : Transition.Meets (f.step py) (f.Spares py) start calls) :
    Transition.Meets (f.step py) (f.CountsUnquarantined py) start calls := by
  have hcalls : Transition.Meets (f.step py) (fun _ a => a ∈ calls) start calls :=
    Transition.meets_of_forall fun _ ha => ha
  have hstart : Apart start := fun observer vote _ hmem => by cases hmem
  refine Transition.Meets.of_invariant (I := fun s => f.Progress py calls s ∧ Apart s) ?_ ?_
    ⟨progress_start py f calls, hstart⟩ (hspares.and hcalls)
  · rintro s a ⟨-, h⟩ ⟨hspares, -⟩ t hstep - observer hobserver
    obtain ⟨vote, hvote⟩ := Dict.mem_keys_iff.mp hobserver
    exact h.after hspares hstep hvote
  · rintro s a t ⟨hprogress, h⟩ ⟨hspares, ha⟩ hstep
    exact ⟨(hprogress.step ha hstep).1, h.step hprogress ha hspares hstep⟩

end ThreeRoundFinality

namespace RecoveryCoordinator

section Counting

variable (py : PyLib ν) (r : RecoveryCoordinator)

/-- If a call opens a challenge, none of the claims counted for it is of a reporter that is
quarantined then. -/
def CountsUnquarantined (s : RecoveryState) (e : RecoveryCall) : Prop :=
  ∀ t, r.step py s e = some t → s.pendingDeadline = none → t.pendingDeadline ≠ none →
    ∀ reporter ∈ t.claims.keys, reporter ∉ t.quarantined

/-- A call keeps the count and the quarantine apart: it records no claim of a quarantined reporter,
and quarantines no reporter, since it is one whose claim is recorded. -/
structure Spares (s : RecoveryState) (e : RecoveryCall) : Prop where
  record : ∀ claim certificate key, e = .claim claim certificate key →
    r.Records py s claim certificate key → claim.reporter ∉ s.quarantined
  conflict : ∀ claim certificate key, e = .claim claim certificate key →
    ¬r.Conflicts py s claim certificate key

end Counting

/-- The reporters of the claims at hand are not quarantined. -/
def Apart (s : RecoveryState) : Prop :=
  ∀ reporter claim, s.claims.get? reporter = some claim → reporter ∉ s.quarantined

/-- Nobody's claim counts once the claims are forgotten. -/
lemma apart_of_claims {s : RecoveryState} (h : s.claims = ∅) : Apart s := by
  intro reporter claim hclaim
  rw [h] at hclaim
  cases hclaim

/-- The claims are forgotten when the active role is deposed. -/
lemma claims_depose (s : RecoveryState) : s.depose.claims = ∅ := by
  unfold RecoveryState.depose
  cases s.activeRole.successor? <;> rfl

/-- A call keeps the count and the quarantine apart. -/
lemma Apart.step {py : PyLib ν} {r : RecoveryCoordinator} {s t : RecoveryState} {e : RecoveryCall}
    (h : Apart s) (hspares : r.Spares py s e) (hstep : r.step py s e = some t) : Apart t := by
  have heffect := effect_of_step hstep
  cases e with
  | claim claim certificate key =>
    obtain rfl := Option.some.inj hstep
    have houtcome := submitClaim_outcome py r s claim certificate key
    generalize r.accepts py s (.claim claim certificate key) = accepted at houtcome
    generalize after (r.perform py (.claim claim certificate key)) s = t at houtcome ⊢
    cases houtcome with
    | refused => exact h
    | duplicate => exact h
    | conflict hconflicts => exact (hspares.conflict _ _ _ rfl hconflicts).elim
    | claim hrecords =>
      intro reporter other hother
      rw [(take_eq r s claim).2.2, Dict.get?_set] at hother
      rw [quarantined_take]
      split_ifs at hother with hreporter
      · exact hreporter ▸ hspares.record _ _ _ rfl hrecords
      · exact h reporter other hother
  | counterproof proof certificate key currentRound =>
    generalize r.accepts py s (.counterproof proof certificate key currentRound) = accepted at heffect
    cases heffect with
    | rejected => exact h
    | counterproof => exact apart_of_claims rfl
  | advance currentRound =>
    generalize r.accepts py s (.advance currentRound) = accepted at heffect
    cases heffect with
    | rejected => exact h
    | advance => exact apart_of_claims (claims_depose s)

/-- The calls of a run that keep the count and the quarantine apart open no challenge with the claim
of a quarantined reporter. -/
lemma counts_unquarantined (py : PyLib ν) (r : RecoveryCoordinator) (calls : List RecoveryCall)
    (hspares : Transition.Meets (r.step py) (r.Spares py) start calls) :
    Transition.Meets (r.step py) (r.CountsUnquarantined py) start calls := by
  refine Transition.Meets.of_invariant (I := Apart) ?_ (fun s e t h hspares => h.step hspares)
    (apart_of_claims rfl) hspares
  rintro s e h hspares t hstep - - reporter hreporter
  obtain ⟨claim, hclaim⟩ := Dict.mem_keys_iff.mp hreporter
  exact h.step hspares hstep reporter claim hclaim

end RecoveryCoordinator

/-! ## Quorums without quarantined observers -/

/-- **Quarantine is effective where nothing depends on it.** In a run of calls none of which records
a vote or a claim of a quarantined observer or quarantines an observer whose vote or claim is
recorded, no quorum counts an observer that is quarantined when it is reached. -/
theorem quarantined_not_counted (py : PyLib ν) (f : ThreeRoundFinality) (r : RecoveryCoordinator)
    (votes : List Acknowledgement) (calls : List RecoveryCall)
    (hvotes : Transition.Meets (f.step py) (f.Spares py) ThreeRoundFinality.start votes)
    (hcalls : Transition.Meets (r.step py) (r.Spares py) RecoveryCoordinator.start calls) :
    Transition.Meets (f.step py) (f.CountsUnquarantined py) ThreeRoundFinality.start votes ∧
      Transition.Meets (r.step py) (r.CountsUnquarantined py) RecoveryCoordinator.start calls :=
  ⟨f.counts_unquarantined py votes hvotes, r.counts_unquarantined py calls hcalls⟩

section Example

open ThreeRoundFinality

open RecoveryCoordinator (exampleCoordinator exampleSigner)

/-- The claim of an observer against the primary for round 4. -/
def evidenceClaim (name evidence : String) : FailureClaim :=
  (exampleSigner name).claim Ledger.integerLib .primary "branch-1" 4 .noReveal evidence

/-- An observer submits its claim. -/
def evidenceCall (name evidence : String) : RecoveryCall :=
  .claim (evidenceClaim name evidence) (exampleSigner name).certificate (exampleSigner name).key

/-- The coordinator after the claim of the first observer. -/
def exampleAccused : RecoveryState :=
  exampleCoordinator.take RecoveryCoordinator.start (evidenceClaim "observer-a" "evidence-a")

/-- The claims of the example are admitted while no challenge is open. -/
lemma admits_evidence (name evidence : String) {s : RecoveryState} (hrunning : s.aborted = false)
    (hopen : s.pendingDeadline = none) (hrole : s.activeRole = .primary) :
    exampleCoordinator.Admits Ledger.integerLib s (evidenceClaim name evidence)
      (exampleSigner name).certificate (exampleSigner name).key := by
  have hissued : RecoveryCoordinator.exampleAuthority.issue Ledger.integerLib name (name ++ "-public")
      ["observer"] 0 100 = .ok (exampleSigner name).certificate := rfl
  have hfrom : (0 : ℤ) ≤ 4 := by decide
  have huntil : (4 : ℤ) < 100 := by decide
  exact ⟨hrunning, hopen, rfl, hrole.symm, RecoveryCoordinator.proves_claim
    (CertificateAuthority.verify_issue hissued hfrom huntil (List.mem_singleton_self _))⟩

/-- The first claim of the example. -/
lemma step_exampleAccused : exampleCoordinator.step Ledger.integerLib RecoveryCoordinator.start
    (evidenceCall "observer-a" "evidence-a") = some exampleAccused := by
  have hcall := RecoveryCoordinator.perform_of_records
    ⟨admits_evidence "observer-a" "evidence-a" (s := RecoveryCoordinator.start) rfl rfl rfl, rfl,
      nofun⟩
  rw [RecoveryCoordinator.step, after, evidenceCall, hcall]
  rfl

/-- **Quarantined observers count.** The primary observer votes, votes against the candidate and is
quarantined, and its vote counts when the secondary observer completes the round; and so does the
claim of a reporter that has submitted another one. -/
theorem quarantined_counted :
    ¬Transition.Meets (exampleFinality.step Ledger.integerLib)
        (exampleFinality.CountsUnquarantined Ledger.integerLib) ThreeRoundFinality.start
        [exampleVote .primary "candidate-a" 1, exampleVote .primary "candidate-b" 1,
          exampleVote .secondary "candidate-a" 1] ∧
      ¬Transition.Meets (exampleCoordinator.step Ledger.integerLib)
        (exampleCoordinator.CountsUnquarantined Ledger.integerLib) RecoveryCoordinator.start
        [evidenceCall "observer-a" "evidence-a", evidenceCall "observer-a" "evidence-b",
          evidenceCall "observer-b" "evidence-a"] := by
  constructor
  · have hconflict : exampleFinality.step Ledger.integerLib exampleFirst
        (exampleVote .primary "candidate-b" 1) = some (exampleFirst.quarantine "primary") :=
      step_of_candidate ⟨by decide +kernel, by decide +kernel, rfl, rfl, by decide⟩
        (by decide +kernel)
    have hlast : exampleFinality.step Ledger.integerLib (exampleFirst.quarantine "primary")
        (exampleVote .secondary "candidate-a" 1) = some (exampleFinality.complete 1
          ((exampleFirst.quarantine "primary").record (exampleVote .secondary "candidate-a" 1).vote)) :=
      step_of_records ⟨by decide +kernel, backs_exampleVote .secondary, by decide +kernel⟩
        (by decide +kernel)
    intro h
    have hcounts := ((h.2 _ step_exampleFirst).2 _ hconflict).1 _ hlast
    exact hcounts (by unfold Completes; decide +kernel) "primary" (by decide +kernel)
      (by decide +kernel)
  · have hconflict : exampleCoordinator.step Ledger.integerLib exampleAccused
        (evidenceCall "observer-a" "evidence-b") = some (exampleAccused.quarantine "observer-a") := by
      have hcall := RecoveryCoordinator.perform_of_conflicts
        ⟨admits_evidence "observer-a" "evidence-b" (s := exampleAccused) (by decide +kernel)
          (by decide +kernel) (by decide +kernel), evidenceClaim "observer-a" "evidence-a", rfl,
          fun h => absurd (congrArg FailureClaim.evidenceDigest h) (by decide)⟩
      rw [RecoveryCoordinator.step, after, evidenceCall, hcall]
      rfl
    have hlast : exampleCoordinator.step Ledger.integerLib (exampleAccused.quarantine "observer-a")
        (evidenceCall "observer-b" "evidence-a") = some (exampleCoordinator.take
          (exampleAccused.quarantine "observer-a") (evidenceClaim "observer-b" "evidence-a")) := by
      have hcall := RecoveryCoordinator.perform_of_records
        ⟨admits_evidence "observer-b" "evidence-a" (s := exampleAccused.quarantine "observer-a")
          (by decide +kernel) (by decide +kernel) (by decide +kernel), rfl, by decide +kernel⟩
      rw [RecoveryCoordinator.step, after, evidenceCall, hcall]
    intro h
    have hcounts := ((h.2 _ step_exampleAccused).2 _ hconflict).1 _ hlast
    exact hcounts (by decide +kernel) (by decide +kernel) "observer-a" (by decide +kernel)
      (by decide +kernel)

/-- Two observers who agree complete a round, and open a challenge. -/
theorem quarantined_not_counted_agreeing :
    Transition.Meets (exampleFinality.step Ledger.integerLib)
        (exampleFinality.CountsUnquarantined Ledger.integerLib) ThreeRoundFinality.start
        [exampleVote .primary "candidate-a" 1, exampleVote .secondary "candidate-a" 1] ∧
      Transition.Meets (exampleCoordinator.step Ledger.integerLib)
        (exampleCoordinator.CountsUnquarantined Ledger.integerLib) RecoveryCoordinator.start
        [evidenceCall "observer-a" "evidence-a", evidenceCall "observer-b" "evidence-a"] := by
  apply quarantined_not_counted
  · have hspares : ∀ s role, s.quarantined = ∅ → (s.votesIn 1).get? role.value = none →
        exampleFinality.Spares Ledger.integerLib s (exampleVote role "candidate-a" 1) := by
      intro s role hnone hfirst
      refine ⟨fun _ => by rw [hnone]; exact Finset.notMem_empty _, fun hconflicts => ?_⟩
      cases hconflicts with
      | candidate _ hdiffers => exact (hdiffers rfl).elim
      | vote _ _ hrecorded => cases hfirst.symm.trans hrecorded
    refine ⟨hspares _ .primary rfl (by decide), fun s hs => ⟨?_, fun _ _ => trivial⟩⟩
    obtain rfl := Option.some.inj (step_exampleFirst.symm.trans hs)
    exact hspares _ .secondary (by decide +kernel) (by decide +kernel)
  · have hspares : ∀ s name, s.quarantined = ∅ → s.claims.get? name = none →
        exampleCoordinator.Spares Ledger.integerLib s (evidenceCall name "evidence-a") := by
      intro s name hnone hfirst
      constructor
      · rintro _ _ _ - -
        rw [hnone]
        exact Finset.notMem_empty _
      · rintro _ _ _ he ⟨-, existing, hexisting, -⟩
        cases he
        cases hfirst.symm.trans hexisting
    refine ⟨hspares _ "observer-a" rfl rfl, fun s hs => ⟨?_, fun _ _ => trivial⟩⟩
    obtain rfl := Option.some.inj (step_exampleAccused.symm.trans hs)
    exact hspares _ "observer-b" (by decide +kernel) (by decide +kernel)

end Example

end SplitChain
