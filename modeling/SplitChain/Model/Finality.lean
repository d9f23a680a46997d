import SplitChain.Library.Proc
import SplitChain.Library.Quorum
import SplitChain.Library.Transition
import SplitChain.Model.Identity

set_option relaxedAutoImplicit false
set_option autoImplicit false

/-!
# Certified finality

The finality experiment `splitchain.finality`: certified observers acknowledge a candidate in three
successive rounds, each of which takes votes from two thirds of them. What a vote is checked for is
checked in the order of the program; a conflicting vote quarantines its observer before it is
refused.

## Main definitions

* `SplitChain.FinalityVote`, `SplitChain.FinalitySigner`.
* `SplitChain.ThreeRoundFinality`, `SplitChain.ThreeRoundFinality.acknowledge`.
* `SplitChain.ThreeRoundFinality.Backs` — what a recorded vote has passed.

## Main results

* `SplitChain.ThreeRoundFinality.acknowledge_outcome` — how a call ends.
* `SplitChain.ThreeRoundFinality.acknowledge_cases` — what a call can do.
* `SplitChain.ThreeRoundFinality.finality_sound` — every run of calls.
-/

namespace SplitChain

open Raise Proc

open PyNumber (ofInt)

variable {ν : Type} [PyNumber ν]

/-! ## Votes -/

/-- The roles of observers. -/
inductive FinalityRole where
  | primary | secondary | tertiary
deriving DecidableEq, Repr

/-- The name of a role. -/
def FinalityRole.value : FinalityRole → String
  | primary => "primary"
  | secondary => "secondary"
  | tertiary => "tertiary"

/-- The vote of an observer for a candidate. -/
structure FinalityVote where
  observer : String
  role : FinalityRole
  branchId : String
  candidateDigest : String
  round : ℤ
  signature : String
deriving DecidableEq

/-- The part of a vote that is signed. -/
def FinalityVote.unsigned (vote : FinalityVote) : Json ν :=
  .obj [("branch_id", .str vote.branchId), ("candidate_digest", .str vote.candidateDigest),
    ("observer", .str vote.observer), ("role", .str vote.role.value),
    ("round", .num (ofInt vote.round))]

/-- An observer with its certificate and key. -/
structure FinalitySigner where
  certificate : NodeCertificate
  role : FinalityRole
  key : List UInt8

/-- A signed vote. -/
def FinalitySigner.vote (py : PyLib ν) (s : FinalitySigner) (branchId candidateDigest : String)
    (round : ℤ) : FinalityVote :=
  let unsigned : FinalityVote :=
    ⟨s.certificate.nodeId, s.role, branchId, candidateDigest, round, ""⟩
  { unsigned with signature := hmacDigest py s.key unsigned.unsigned }

/-! ## The rounds -/

/-- The finality of one candidate: at least three observers, with each of the roles. -/
structure ThreeRoundFinality where
  authority : CertificateAuthority
  branchId : String
  candidateDigest : String
  observers : Dict String FinalityRole
  three_le : 3 ≤ observers.size
  roles : ∀ role, role ∈ observers.values

/-- The votes so far, in their rounds. -/
structure FinalityState where
  currentRound : ℤ
  votes : Dict ℤ (Dict String FinalityVote)
  quarantined : Finset String
  finalized : Bool

namespace FinalityState

/-- The votes of a round. -/
def votesIn (s : FinalityState) (round : ℤ) : Dict String FinalityVote := s.votes.getD round ∅

/-- Quarantine an observer. -/
def quarantine (s : FinalityState) (observer : String) : FinalityState :=
  { s with quarantined := insert observer s.quarantined }

/-- Record a vote in its round. -/
def record (s : FinalityState) (vote : FinalityVote) : FinalityState :=
  { s with votes := s.votes.set vote.round ((s.votesIn vote.round).set vote.observer vote) }

end FinalityState

/-- The arguments of a call of `acknowledge`. -/
structure Acknowledgement where
  vote : FinalityVote
  certificate : NodeCertificate
  key : List UInt8

namespace ThreeRoundFinality

/-- `ROUNDS` -/
def rounds : ℤ := 3

/-- The state before the first vote. -/
def start : FinalityState := ⟨1, Dict.ofList [(1, ∅), (2, ∅), (3, ∅)], ∅, false⟩

variable (py : PyLib ν) (f : ThreeRoundFinality)

/-- The number of votes that completes a round. -/
def quorumSize : ℕ := (2 * f.observers.size + 2) / 3

/-- Complete the round of a vote if it has enough votes: the next round begins, or the candidate is
final. -/
def complete (round : ℤ) (s : FinalityState) : FinalityState :=
  if f.quorumSize ≤ (s.votesIn round).size then
    if round = rounds then { s with finalized := true }
    else { s with currentRound := s.currentRound + 1 }
  else s

/-- Take the vote of an observer. -/
def acknowledge (vote : FinalityVote) (certificate : NodeCertificate) (key : List UInt8) :
    EStateM PyError FinalityState Bool := do
  lift (require (!(← get).finalized) (.protocol "candidate is already final"))
  lift (require (vote.round == (← get).currentRound)
    (.protocol "vote is not for the current finality round"))
  lift (require (vote.branchId == f.branchId) (.protocol "vote is for a different branch"))
  lift (require (vote.observer == certificate.nodeId)
    (.protocol "vote observer does not match certificate"))
  lift (require (f.observers.get? vote.observer == some vote.role)
    (.protocol "observer is not assigned to this finality role"))
  if vote.candidateDigest ≠ f.candidateDigest then
    modify (·.quarantine vote.observer)
    throw (.protocol "conflicting candidate vote")
  let valid ← lift (f.authority.verify py certificate vote.round "observer")
  lift (require valid (.protocol "observer certificate is invalid"))
  let signed ← lift (compareDigest (hmacDigest py key vote.unsigned) vote.signature)
  lift (require signed (.protocol "invalid finality vote signature"))
  let votes ← lift (orRaise ((← get).votes.get? vote.round) .key)
  match votes.get? vote.observer with
  | some existing =>
    if existing = vote then return (← get).finalized
    modify (·.quarantine vote.observer)
    throw (.protocol "observer equivocated in the same round")
  | none =>
    modify fun s => f.complete vote.round (s.record vote)
    return (← get).finalized

/-- The state after a call, whether it returns or raises. -/
def step (s : FinalityState) (a : Acknowledgement) : Option FinalityState :=
  some (after (f.acknowledge py a.vote a.certificate a.key) s)

/-! ## What a call can do -/

/-- What a vote has passed that is recorded in a round: it is for the branch and the candidate, in
the role its observer is assigned, under a certificate valid in the round and a signature. -/
structure Backs (a : Acknowledgement) (round : ℤ) : Prop where
  inRound : a.vote.round = round
  branchId : a.vote.branchId = f.branchId
  candidate : a.vote.candidateDigest = f.candidateDigest
  assigned : f.observers.get? a.vote.observer = some a.vote.role
  named : a.certificate.nodeId = a.vote.observer
  certified : f.authority.verify py a.certificate round "observer" = .ok true
  signed : a.vote.signature = hmacDigest py a.key a.vote.unsigned

/-- A call has passed the checks that come before the one of the candidate. -/
structure Addressed (s : FinalityState) (a : Acknowledgement) : Prop where
  running : s.finalized = false
  inRound : a.vote.round = s.currentRound
  branchId : a.vote.branchId = f.branchId
  named : a.certificate.nodeId = a.vote.observer
  assigned : f.observers.get? a.vote.observer = some a.vote.role

/-- A call quarantines its observer: for a vote against the candidate, whose certificate and
signature nobody has looked at, or for a vote that is backed and differs from the recorded one. -/
inductive Conflicts (s : FinalityState) (a : Acknowledgement) : Prop
  | candidate (addressed : f.Addressed s a)
      (differs : a.vote.candidateDigest ≠ f.candidateDigest)
  | vote (running : s.finalized = false) (backs : f.Backs py a s.currentRound)
      {existing : FinalityVote}
      (recorded : (s.votesIn a.vote.round).get? a.vote.observer = some existing)
      (differs : existing ≠ a.vote)

/-- A call records its vote. -/
structure Records (s : FinalityState) (a : Acknowledgement) : Prop where
  running : s.finalized = false
  backs : f.Backs py a s.currentRound
  first : (s.votesIn a.vote.round).get? a.vote.observer = none

/-- How a call ends: whether it returns, and what it makes of the state. -/
inductive Outcome (s : FinalityState) (a : Acknowledgement) : Bool → FinalityState → Prop
  | refused : Outcome s a false s
  | duplicate (running : s.finalized = false) (backs : f.Backs py a s.currentRound)
      (recorded : (s.votesIn a.vote.round).get? a.vote.observer = some a.vote) :
      Outcome s a true s
  | conflict (conflicts : f.Conflicts py s a) : Outcome s a false (s.quarantine a.vote.observer)
  | vote (records : f.Records py s a) :
      Outcome s a true (f.complete a.vote.round (s.record a.vote))

/-- What a call makes of the state: nothing, a quarantine, or a recorded vote. -/
inductive Effect (s : FinalityState) (a : Acknowledgement) : FinalityState → Prop
  | nothing : Effect s a s
  | quarantine (observer : String) (running : s.finalized = false) :
      Effect s a (s.quarantine observer)
  | vote (running : s.finalized = false) (backs : f.Backs py a s.currentRound)
      (first : (s.votesIn a.vote.round).get? a.vote.observer = none) :
      Effect s a (f.complete a.vote.round (s.record a.vote))

variable {py f} {s : FinalityState} {a : Acknowledgement}

/-- The votes of a round that has some. -/
lemma votesIn_of_get? {r : ℤ} {votes : Dict String FinalityVote} (h : s.votes.get? r = some votes) :
    s.votesIn r = votes := by
  rw [FinalityState.votesIn, Dict.getD, h, Option.getD_some]

/-- **How a call ends.**

**Proof sketch.** The guards are passed one after the other; each that fails leaves the state as it
is, or has quarantined the observer. -/
theorem acknowledge_outcome (py : PyLib ν) (f : ThreeRoundFinality) (s : FinalityState)
    (a : Acknowledgement) :
    f.Outcome py s a (returns (f.acknowledge py a.vote a.certificate a.key) s)
      (after (f.acknowledge py a.vote a.certificate a.key) s) := by
  refine (returns_after_iff (P := f.Outcome py s a)).mpr ?_
  unfold acknowledge
  simp only [ends_bind, ends_get, ends_guard, require_eq_ok, Bool.not_eq_true', beq_iff_eq]
  refine ⟨fun _ _ => .refused, fun hrunning => ⟨fun _ _ => .refused, fun hround =>
    ⟨fun _ _ => .refused, fun hbranch => ⟨fun _ _ => .refused, fun hnamed =>
      ⟨fun _ _ => .refused, fun hassigned => ?_⟩⟩⟩⟩⟩
  split_ifs with hcandidate
  · rw [ends_bind, ends_modify, ends_bind]
    exact ends_throw.mpr (.conflict (.candidate
      ⟨hrunning, hround, hbranch, hnamed.symm, hassigned⟩ hcandidate))
  simp only [ends_bind, ends_get, ends_lift, require_eq_ok, orRaise_eq_ok]
  refine ⟨fun valid hvalid => ⟨fun _ hcertified => ⟨fun signed hsigned => ⟨fun _ hsignature =>
    ⟨fun votes hvotes => ?_, fun _ _ => .refused⟩, fun _ _ => .refused⟩, fun _ _ => .refused⟩,
      fun _ _ => .refused⟩, fun _ _ => .refused⟩
  have hin : s.votesIn a.vote.round = votes := votesIn_of_get? hvotes
  have hbacks : f.Backs py a s.currentRound := by
    refine ⟨hround, hbranch, not_not.mp hcandidate, hassigned, hnamed.symm, ?_, ?_⟩
    · rw [← hround, hvalid, hcertified]
    · exact (eq_of_compareDigest (hsigned.trans (congrArg _ hsignature))).symm
  cases hexisting : votes.get? a.vote.observer with
  | some existing =>
    rw [← hin] at hexisting
    dsimp only
    split_ifs with hsame
    · rw [ends_bind, ends_get]
      exact ends_pure.mpr (.duplicate hrunning hbacks (hsame ▸ hexisting))
    · rw [ends_bind, ends_modify]
      exact ends_throw.mpr (.conflict (.vote hrunning hbacks hexisting hsame))
  | none =>
    simp only [ends_bind, ends_modify, ends_get, ends_pure]
    exact .vote ⟨hrunning, hbacks, hin ▸ hexisting⟩

/-- **What a call can do.** -/
theorem acknowledge_cases (py : PyLib ν) (f : ThreeRoundFinality) (s : FinalityState)
    (a : Acknowledgement) :
    f.Effect py s a (after (f.acknowledge py a.vote a.certificate a.key) s) := by
  have houtcome := acknowledge_outcome py f s a
  generalize returns (f.acknowledge py a.vote a.certificate a.key) s = returned at houtcome
  generalize after (f.acknowledge py a.vote a.certificate a.key) s = t at houtcome ⊢
  cases houtcome with
  | refused => exact .nothing
  | duplicate => exact .nothing
  | conflict hconflicts =>
    cases hconflicts with
    | candidate haddressed => exact .quarantine _ haddressed.running
    | vote hrunning => exact .quarantine _ hrunning
  | vote hrecords => exact .vote hrecords.running hrecords.backs hrecords.first

/-- A backed vote whose round is open goes on to what its observer has recorded there. -/
lemma acknowledge_of_backs {votes : Dict String FinalityVote} (hrunning : s.finalized = false)
    (hbacks : f.Backs py a s.currentRound) (hvotes : s.votes.get? s.currentRound = some votes) :
    f.acknowledge py a.vote a.certificate a.key s =
      match votes.get? a.vote.observer with
      | some existing =>
        if existing = a.vote then .ok false s
        else .error (.protocol "observer equivocated in the same round")
          (s.quarantine a.vote.observer)
      | none => .ok (f.complete a.vote.round (s.record a.vote)).finalized
          (f.complete a.vote.round (s.record a.vote)) := by
  have hsigned : compareDigest (hmacDigest py a.key a.vote.unsigned) a.vote.signature = .ok true := by
    rw [hbacks.signed]
    exact compareDigest_self ..
  cases hexisting : votes.get? a.vote.observer with
  | some existing =>
    dsimp only
    split_ifs with hsame
    · refine eq_ok_iff.mpr ?_
      unfold acknowledge
      simp [ends_lift, require, orRaise, hrunning, hbacks.inRound, hbacks.branchId, hbacks.named,
        hbacks.assigned, hbacks.candidate, hbacks.certified, hsigned, hvotes, hexisting, hsame]
    · refine eq_error_iff.mpr ?_
      unfold acknowledge
      simp [ends_lift, require, orRaise, hrunning, hbacks.inRound, hbacks.branchId, hbacks.named,
        hbacks.assigned, hbacks.candidate, hbacks.certified, hsigned, hvotes, hexisting, hsame]
  | none =>
    refine eq_ok_iff.mpr ?_
    unfold acknowledge
    simp [ends_lift, require, orRaise, hrunning, hbacks.inRound, hbacks.branchId, hbacks.named,
      hbacks.assigned, hbacks.candidate, hbacks.certified, hsigned, hvotes, hexisting]

/-- A call that records its vote does so when its round is open. -/
lemma step_of_records (h : f.Records py s a) (hopen : s.currentRound ∈ s.votes.keys) :
    f.step py s a = some (f.complete a.vote.round (s.record a.vote)) := by
  obtain ⟨votes, hvotes⟩ := Dict.mem_keys_iff.mp hopen
  have hfirst : votes.get? a.vote.observer = none := by
    rw [← votesIn_of_get? hvotes, ← h.backs.inRound]
    exact h.first
  have hcall := acknowledge_of_backs h.running h.backs hvotes
  rw [hfirst] at hcall
  rw [step, after, hcall]

/-- A vote against the candidate quarantines the observer it names, unless an earlier check
fails. -/
lemma step_of_candidate (h : f.Addressed s a)
    (hdiffers : a.vote.candidateDigest ≠ f.candidateDigest) :
    f.step py s a = some (s.quarantine a.vote.observer) := by
  have hcall : f.acknowledge py a.vote a.certificate a.key s =
      .error (.protocol "conflicting candidate vote") (s.quarantine a.vote.observer) := by
    refine eq_error_iff.mpr ?_
    unfold acknowledge
    simp [ends_lift, require, h.running, h.inRound, h.branchId, h.named, h.assigned, hdiffers]
  rw [step, after, hcall]

/-- An observer's vote for the candidate is backed, with a certificate valid in its round. -/
lemma backs_vote {signer : FinalitySigner} {round : ℤ}
    (hassigned : f.observers.get? signer.certificate.nodeId = some signer.role)
    (hcertified : f.authority.verify py signer.certificate round "observer" = .ok true) :
    f.Backs py ⟨signer.vote py f.branchId f.candidateDigest round, signer.certificate, signer.key⟩
      round where
  inRound := rfl
  branchId := rfl
  candidate := rfl
  assigned := hassigned
  named := rfl
  certified := hcertified
  signed := by simp only [FinalitySigner.vote, FinalityVote.unsigned]

/-! ## The invariant -/

/-- **The invariant of the rounds.** Recorded votes come from calls and have passed their checks;
the rounds before the current one are complete and those after it empty; the current round is
complete when the candidate is final. -/
structure Progress (py : PyLib ν) (f : ThreeRoundFinality) (calls : List Acknowledgement)
    (s : FinalityState) : Prop where
  current : 1 ≤ s.currentRound ∧ s.currentRound ≤ rounds
  backed : ∀ r observer vote, (s.votesIn r).get? observer = some vote →
    vote.observer = observer ∧ ∃ a ∈ calls, a.vote = vote ∧ f.Backs py a r
  done : ∀ r, 1 ≤ r → r < s.currentRound → f.quorumSize ≤ (s.votesIn r).size
  empty : ∀ r, s.currentRound < r → s.votesIn r = ∅
  final : s.finalized = true → s.currentRound = rounds ∧ f.quorumSize ≤ (s.votesIn rounds).size

/-- What a later state keeps of an earlier one: its votes, all that the complete rounds have, and
everything once the candidate is final. -/
structure Extends (s t : FinalityState) : Prop where
  current : s.currentRound ≤ t.currentRound
  kept : ∀ r observer vote, (s.votesIn r).get? observer = some vote →
    (t.votesIn r).get? observer = some vote
  done : ∀ r, r < s.currentRound → t.votesIn r = s.votesIn r
  final : s.finalized = true → t = s

variable {t u : FinalityState} {calls : List Acknowledgement}

lemma Extends.refl (s : FinalityState) : Extends s s :=
  ⟨le_rfl, fun _ _ _ h => h, fun _ _ => rfl, fun _ => rfl⟩

lemma Extends.trans (h : Extends s t) (h' : Extends t u) : Extends s u where
  current := h.current.trans h'.current
  kept r o v hv := h'.kept r o v (h.kept r o v hv)
  done r hr := (h'.done r (hr.trans_le h.current)).trans (h.done r hr)
  final hs := by
    obtain rfl := h.final hs
    exact h'.final hs

/-- Recording a vote changes its round only. -/
lemma votesIn_record (s : FinalityState) (vote : FinalityVote) (r : ℤ) :
    (s.record vote).votesIn r =
      if vote.round = r then (s.votesIn vote.round).set vote.observer vote else s.votesIn r :=
  Dict.getD_set ..

/-- Completing a round changes no votes. -/
@[simp] lemma votesIn_complete (f : ThreeRoundFinality) (round : ℤ) (s : FinalityState) (r : ℤ) :
    (f.complete round s).votesIn r = s.votesIn r := by
  unfold complete
  split_ifs <;> rfl

/-- Completing a round quarantines nobody. -/
@[simp] lemma quarantined_complete (f : ThreeRoundFinality) (round : ℤ) (s : FinalityState) :
    (f.complete round s).quarantined = s.quarantined := by
  unfold complete
  split_ifs <;> rfl

/-- Nothing is recorded before the first call. -/
lemma progress_start (py : PyLib ν) (f : ThreeRoundFinality) (calls : List Acknowledgement) :
    f.Progress py calls start := by
  have hnone : ∀ r, start.votesIn r = ∅ := by
    intro r
    simp only [FinalityState.votesIn, start, Dict.ofList, List.foldl_cons, List.foldl_nil,
      Dict.getD_set]
    split_ifs <;> rfl
  refine ⟨⟨le_rfl, by decide⟩, fun r observer vote h => ?_, fun r hr hlt => ?_, fun r _ => hnone r,
    fun h => by cases h⟩
  · rw [hnone] at h
    cases h
  · exact absurd hlt (not_lt.mpr hr)

/-- **A recorded vote keeps the invariant.**

**Proof sketch.** The vote goes into the current round, whose votes decide whether the next round
begins, or the candidate is final after the last one. -/
lemma Progress.vote (h : f.Progress py calls s) (ha : a ∈ calls) (hrunning : s.finalized = false)
    (hbacks : f.Backs py a s.currentRound) :
    f.Progress py calls (f.complete a.vote.round (s.record a.vote)) := by
  have hround := hbacks.inRound
  have hother : ∀ r, s.currentRound ≠ r → (s.record a.vote).votesIn r = s.votesIn r :=
    fun r hr => by
    rw [votesIn_record, hround, if_neg hr]
  have hbacked : ∀ r observer vote, ((s.record a.vote).votesIn r).get? observer = some vote →
      vote.observer = observer ∧ ∃ b ∈ calls, b.vote = vote ∧ f.Backs py b r := by
    intro r observer vote hvote
    rw [votesIn_record, hround] at hvote
    split_ifs at hvote with hr
    · rw [Dict.get?_set] at hvote
      split_ifs at hvote with hobserver
      · obtain rfl := Option.some.inj hvote
        exact ⟨hobserver, a, ha, rfl, hr ▸ hbacks⟩
      · exact h.backed r observer vote (hr ▸ hvote)
    · exact h.backed r observer vote hvote
  have hdone : ∀ r, 1 ≤ r → r < s.currentRound →
      f.quorumSize ≤ ((s.record a.vote).votesIn r).size := fun r hr hlt => by
    rw [hother r hlt.ne']
    exact h.done r hr hlt
  have hempty : ∀ r, s.currentRound < r → (s.record a.vote).votesIn r = ∅ := fun r hr =>
    (hother r hr.ne).trans (h.empty r hr)
  have hnotfinal : ∀ {P : Prop}, (s.record a.vote).finalized = true → P := fun hfinal => by
    rw [show (s.record a.vote).finalized = s.finalized from rfl, hrunning] at hfinal
    cases hfinal
  rw [hround]
  unfold complete
  split_ifs with hquorum hlast
  -- The last round is complete.
  · exact ⟨h.current, hbacked, hdone, hempty, fun _ => ⟨hlast, hlast ▸ hquorum⟩⟩
  -- The next round begins.
  · refine ⟨⟨h.current.1.trans (Int.le_add_one le_rfl), ?_⟩, hbacked, fun r hr hlt => ?_,
      fun r hr => hempty r ((Int.lt_succ _).trans hr), fun hfinal => hnotfinal hfinal⟩
    · exact Int.add_one_le_of_lt (lt_of_le_of_ne h.current.2 hlast)
    · rcases (Int.lt_add_one_iff.mp hlt).lt_or_eq with hlt | rfl
      · exact hdone r hr hlt
      · exact hquorum
  · exact ⟨h.current, hbacked, hdone, hempty, fun hfinal => hnotfinal hfinal⟩

/-- A call changes the votes of the round only in which it comes. -/
lemma votesIn_of_step (hstep : f.step py s a = some t) {r : ℤ} (hr : r ≠ s.currentRound) :
    t.votesIn r = s.votesIn r := by
  obtain rfl := Option.some.inj hstep
  have heffect := acknowledge_cases py f s a
  generalize after (f.acknowledge py a.vote a.certificate a.key) s = t at heffect ⊢
  cases heffect with
  | nothing => rfl
  | quarantine => rfl
  | vote hrunning hbacks =>
    rw [votesIn_complete, votesIn_record, hbacks.inRound, if_neg hr.symm]

/-- **Every call keeps the invariant**, and what is complete.

**Proof sketch.** The three effects of a call. -/
lemma Progress.step (h : f.Progress py calls s) (ha : a ∈ calls) (hstep : f.step py s a = some t) :
    f.Progress py calls t ∧ Extends s t := by
  obtain rfl := Option.some.inj hstep
  have heffect := acknowledge_cases py f s a
  generalize after (f.acknowledge py a.vote a.certificate a.key) s = t at heffect ⊢
  cases heffect with
  | nothing => exact ⟨h, .refl s⟩
  | quarantine observer hrunning =>
    exact ⟨⟨h.current, h.backed, h.done, h.empty, h.final⟩, le_rfl, fun _ _ _ h => h,
      fun _ _ => rfl, fun hfinal => by rw [hrunning] at hfinal; cases hfinal⟩
  | vote hrunning hbacks hfirst =>
    refine ⟨h.vote ha hrunning hbacks, ?_, fun r o v hv => ?_, fun r hr => ?_,
      fun hfinal => by rw [hrunning] at hfinal; cases hfinal⟩
    · unfold complete
      split_ifs
      · exact le_rfl
      · exact Int.le_add_one le_rfl
      · exact le_rfl
    · rw [votesIn_complete, votesIn_record]
      split_ifs with hr
      · subst hr
        rw [Dict.get?_set_of_ne]
        · exact hv
        · rintro rfl
          rw [hfirst] at hv
          cases hv
      · exact hv
    · rw [votesIn_complete, votesIn_record, hbacks.inRound, if_neg hr.ne']

/-- Every run keeps the invariant, and what is complete. -/
lemma Progress.run {es : List Acknowledgement} (h : f.Progress py calls s) (hes : es ⊆ calls)
    (hrun : Transition.run (f.step py) s es = some t) :
    f.Progress py calls t ∧ Extends s t := by
  induction es generalizing s with
  | nil =>
    rw [Transition.run_nil, Option.some.injEq] at hrun
    exact hrun ▸ ⟨h, .refl s⟩
  | cons e es ih =>
    obtain ⟨u, hu, hrest⟩ := Transition.run_cons_eq_some_iff.mp hrun
    obtain ⟨hfirst, hextends⟩ := h.step (hes List.mem_cons_self) hu
    obtain ⟨hlast, hextends'⟩ := ih hfirst (fun _ he => hes (List.mem_cons_of_mem _ he)) hrest
    exact ⟨hlast, hextends.trans hextends'⟩

/-- The threshold is two thirds of the observers, rounded up. -/
lemma quorumSize_eq_ceil (f : ThreeRoundFinality) :
    (f.quorumSize : ℤ) = ⌈(2 * f.observers.size : ℚ) / 3⌉ := Quorum.twoThirds_eq_ceil _

/-- **Finality is sound.** After every sequence of calls: the candidate is final only if each of the
three rounds has recorded two thirds of the observers; every recorded vote is one of a call, has
passed its checks for its round, and is recorded under its observer; the current round is one of the
three, the rounds before it are complete, and those after it are empty. Whatever calls follow, the
current round does not decrease, votes stay, complete rounds get no others, and nothing changes any
more once the candidate is final.

**Proof sketch.** The invariant of the rounds, kept by every call. -/
theorem finality_sound (py : PyLib ν) (f : ThreeRoundFinality) (calls : List Acknowledgement) :
    ∃ s, Transition.run (f.step py) start calls = some s ∧
      (s.finalized = true → ∀ r, 1 ≤ r → r ≤ rounds →
        ⌈(2 * f.observers.size : ℚ) / 3⌉ ≤ ((s.votesIn r).keys.toFinset.card : ℤ)) ∧
      (∀ r observer vote, (s.votesIn r).get? observer = some vote →
        vote.observer = observer ∧ ∃ a ∈ calls, a.vote = vote ∧ f.Backs py a r) ∧
      (1 ≤ s.currentRound ∧ s.currentRound ≤ rounds) ∧
      (∀ r, 1 ≤ r → r < s.currentRound →
        ⌈(2 * f.observers.size : ℚ) / 3⌉ ≤ ((s.votesIn r).keys.toFinset.card : ℤ)) ∧
      (∀ r, s.currentRound < r → s.votesIn r = ∅) ∧
      ∀ more t, Transition.run (f.step py) s more = some t →
        s.currentRound ≤ t.currentRound ∧
        (∀ r observer vote, (s.votesIn r).get? observer = some vote →
          (t.votesIn r).get? observer = some vote) ∧
        (∀ r, r < s.currentRound → t.votesIn r = s.votesIn r) ∧ (s.finalized = true → t = s) := by
  obtain ⟨s, hs⟩ := Transition.exists_run (fun s a => ⟨_, rfl⟩ : ∀ s a, ∃ t, f.step py s a = some t)
    start calls
  obtain ⟨h, -⟩ := (progress_start py f calls).run (List.Subset.refl _) hs
  have hcard : ∀ r, f.quorumSize ≤ (s.votesIn r).size →
      ⌈(2 * f.observers.size : ℚ) / 3⌉ ≤ ((s.votesIn r).keys.toFinset.card : ℤ) := fun r hr => by
    have hnodup : (s.votesIn r).keys.Nodup := (s.votesIn r).nodup_keys
    rw [← quorumSize_eq_ceil, List.toFinset_card_of_nodup hnodup, ← Dict.size_eq_length_keys]
    exact_mod_cast hr
  refine ⟨s, hs, fun hfinal r hr hr' => hcard r ?_, h.backed, h.current,
    fun r hr hlt => hcard r (h.done r hr hlt), h.empty, fun more t ht => ?_⟩
  · obtain ⟨hcurrent, hquorum⟩ := h.final hfinal
    rcases hr'.lt_or_eq with hlt | rfl
    · exact h.done r hr (hcurrent ▸ hlt)
    · exact hquorum
  · have hfrom : f.Progress py (calls ++ more) s :=
      ⟨h.current, fun r o v hv => (h.backed r o v hv).imp_right fun ⟨a, ha, hav⟩ =>
        ⟨a, List.mem_append_left _ ha, hav⟩, h.done, h.empty, h.final⟩
    obtain ⟨-, hextends⟩ := hfrom.run (List.subset_append_right _ _) ht
    exact ⟨hextends.current, hextends.kept, hextends.done, hextends.final⟩

end ThreeRoundFinality

end SplitChain
