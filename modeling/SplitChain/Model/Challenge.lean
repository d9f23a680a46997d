import Mathlib.Data.Finset.Card
import SplitChain.Model.Counterproofs

set_option relaxedAutoImplicit false
set_option autoImplicit false

/-!
# Opening a challenge

Claims against the active role are submitted one after the other until one of them opens a
challenge. The first claim that is recorded fixes the round, and claims for other rounds are refused
from then on, so it depends on the round of the first claim whether a challenge opens.

## Main definitions

* `SplitChain.RecoveryCoordinator.submitAll` — submit claims until one opens a challenge.
* `SplitChain.RecoveryCoordinator.backers` — who supports a challenge for a round.

## Main results

* `SplitChain.RecoveryCoordinator.submitAll_iff` — when claims in a given order open a challenge.
* `SplitChain.RecoveryCoordinator.challenge_opens_iff` — when they do so in every order.
-/

namespace SplitChain

open Raise Proc

variable {ν : Type} [PyNumber ν]

/-- A claim with what it is submitted with. -/
structure Accusation where
  claim : FailureClaim
  certificate : NodeCertificate
  key : List UInt8

namespace RecoveryCoordinator

variable (py : PyLib ν) (r : RecoveryCoordinator)

/-- Submit claims until one opens a challenge, whatever the others raise: whether one does. -/
def submitAll (s : RecoveryState) : List Accusation → Bool
  | [] => false
  | x :: xs =>
    match r.submitClaim py x.claim x.certificate x.key s with
    | .ok true _ => true
    | .ok false t => submitAll t xs
    | .error _ t => submitAll t xs

/-- A validly signed claim against the active role and the branch. -/
structure Accuses (s : RecoveryState) (x : Accusation) : Prop where
  branchId : x.claim.branchId = r.branchId
  accused : x.claim.accusedRole = s.activeRole
  proves : r.Proves py x.certificate x.claim.reporter x.claim.protocolRound x.claim.unsigned
    x.claim.signature x.key

/-- The reporters of the claims for a round. -/
def reporters (round : ℤ) (xs : List Accusation) : Finset String :=
  ((xs.filter fun x => x.claim.protocolRound = round).map (·.claim.reporter)).toFinset

/-- Who supports a challenge for a round: the reporters of the claims that are recorded and of those
that are submitted. -/
def backers (s : RecoveryState) (round : ℤ) (xs : List Accusation) : Finset String :=
  s.claims.keys.toFinset ∪ reporters round xs

/-- The reporters of claims for a round who do not contradict themselves: all their claims, recorded
or submitted, are the same. -/
def consistentReporters (s : RecoveryState) (round : ℤ) (xs : List Accusation) : Finset String :=
  (reporters round xs).filter fun reporter =>
    ∀ x ∈ xs, x.claim.reporter = reporter →
      (∀ c ∈ s.claims.get? reporter, c = x.claim) ∧
        ∀ y ∈ xs, y.claim.reporter = reporter → y.claim = x.claim

variable {py r} {s : RecoveryState}

/-- What a claim that passes the first checks does. -/
lemma submitClaim_eq {claim : FailureClaim} {certificate : NodeCertificate} {key : List UInt8}
    (h : r.Admits py s claim certificate key) :
    r.submitClaim py claim certificate key s =
      match s.claims.get? claim.reporter with
      | some existing =>
        if existing = claim then .ok false s
        else .error (.protocol "reporter submitted conflicting failure evidence")
          (s.quarantine claim.reporter)
      | none =>
        if s.claims.values.head?.all (fun c => c.protocolRound == claim.protocolRound) then
          .ok (r.take s claim).pendingDeadline.isSome (r.take s claim)
        else .error (.protocol "failure claims are from different protocol rounds") s := by
  obtain ⟨hrunning, hopen, hbranch, haccused, hproves⟩ := h
  have hverified := verifyProof_of_proves hproves
  cases hexisting : s.claims.get? claim.reporter with
  | some existing =>
    by_cases hsame : existing = claim
    · refine (eq_ok_iff.mpr ?_).trans (if_pos hsame).symm
      simp only [submitClaim, ends_bind, ends_get, ends_lift, hverified, hrunning, hopen, hbranch,
        haccused, hexisting, if_pos hsame]
      simp [require]
    · refine (eq_error_iff.mpr ?_).trans (if_neg hsame).symm
      simp only [submitClaim, ends_bind, ends_get, ends_lift, hverified, hrunning, hopen, hbranch,
        haccused, hexisting, if_neg hsame]
      simp [require]
  | none =>
    cases hround : s.claims.values.head?.all fun c => c.protocolRound == claim.protocolRound with
    | true =>
      refine (eq_ok_iff.mpr ?_).trans (if_pos rfl).symm
      simp only [submitClaim, ends_bind, ends_get, ends_lift, hverified, hrunning, hopen, hbranch,
        haccused, hexisting, hround]
      simp [require]
    | false =>
      refine (eq_error_iff.mpr ?_).trans (if_neg Bool.false_ne_true).symm
      simp only [submitClaim, ends_bind, ends_get, ends_lift, hverified, hrunning, hopen, hbranch,
        haccused, hexisting, hround]
      simp [require]

/-! ## Claims in a given order -/

/-- A coordinator that accepts claims: no challenge is pending, and the claims at hand are for one
round and too few to open one. -/
structure Collecting (r : RecoveryCoordinator) (s : RecoveryState) (round : ℤ) : Prop where
  running : s.aborted = false
  unchallenged : s.pendingDeadline = none
  few : s.claims.size < r.quorumSize
  common : ∀ x c, s.claims.get? x = some c → c.protocolRound = round

/-- More claims have more supporters. -/
lemma backers_cons (round : ℤ) (x : Accusation) (xs : List Accusation) :
    backers s round (x :: xs) =
      if x.claim.protocolRound = round then insert x.claim.reporter (backers s round xs)
      else backers s round xs := by
  unfold backers reporters
  split_ifs with h
  · rw [List.filter_cons_of_pos (by simpa using h), List.map_cons, List.toFinset_cons,
      Finset.union_insert]
  · rw [List.filter_cons_of_neg (by simpa using h)]

/-- The order of the claims does not matter for who supports a challenge. -/
lemma backers_perm {round : ℤ} {xs ys : List Accusation} (h : ys.Perm xs) :
    backers s round ys = backers s round xs := by
  unfold backers reporters
  rw [List.toFinset_eq_of_perm _ _ ((h.filter _).map _)]

/-- A claim that is recorded supports its challenge as much as one that is submitted. -/
lemma backers_take {round : ℤ} {xs : List Accusation} {claim : FailureClaim} :
    backers (r.take s claim) round xs = insert claim.reporter (backers s round xs) := by
  unfold backers
  rw [(take_eq r s claim).2.2]
  ext a
  simp only [Finset.mem_union, List.mem_toFinset, Finset.mem_insert, Dict.mem_keys_iff,
    Dict.get?_set]
  by_cases ha : claim.reporter = a
  · simp [ha]
  · simp [ha, Ne.symm ha]

/-- There are as many recorded claims as reporters of them. -/
lemma card_keys : s.claims.keys.toFinset.card = s.claims.size :=
  (List.toFinset_card_of_nodup s.claims.nodup_keys).trans (Dict.size_eq_length_keys _).symm

/-- Enough claims open a challenge. -/
lemma take_of_le {claim : FailureClaim}
    (h : r.quorumSize ≤ (s.claims.set claim.reporter claim).size) :
    (r.take s claim).pendingDeadline.isSome = true := by
  unfold take
  rw [if_pos h]
  rfl

/-- A claim that is not yet enough is recorded, and more are accepted. -/
lemma Collecting.take {claim : FailureClaim} (hrunning : s.aborted = false)
    (hopen : s.pendingDeadline = none)
    (hfew : (s.claims.set claim.reporter claim).size < r.quorumSize)
    (hcommon : ∀ x c, s.claims.get? x = some c → c.protocolRound = claim.protocolRound) :
    (r.take s claim).pendingDeadline.isSome = false ∧
      r.Collecting (r.take s claim) claim.protocolRound := by
  have htake : r.take s claim = { s with claims := s.claims.set claim.reporter claim } := by
    unfold RecoveryCoordinator.take
    exact if_neg (Nat.not_le.mpr hfew)
  rw [htake]
  refine ⟨by simp [hopen], hrunning, hopen, hfew, fun x c hc => ?_⟩
  rw [Dict.get?_set] at hc
  split_ifs at hc
  · exact Option.some.inj hc ▸ rfl
  · exact hcommon x c hc

/-- **Claims in a given order**, when claims for a round are recorded already: they open a challenge
when it has enough supporters.

**Proof sketch.** Induction on the claims. A claim for another round or of a reporter who has one
changes neither the recorded claims nor the supporters of the round; any other claim is recorded. -/
theorem submitAll_iff {round : ℤ} {xs : List Accusation} (hs : r.Collecting s round)
    (hclaims : 0 < s.claims.size) (hxs : ∀ x ∈ xs, r.Accuses py s x) :
    r.submitAll py s xs = true ↔ r.quorumSize ≤ (backers s round xs).card := by
  induction xs generalizing s with
  | nil =>
    have hcard : (backers s round []).card = s.claims.size := by
      rw [← card_keys]
      simp [backers, reporters]
    rw [hcard]
    exact iff_of_false Bool.false_ne_true (Nat.not_le.mpr hs.few)
  | cons x xs ih =>
    have hx := hxs x List.mem_cons_self
    have hrest := fun y hy => hxs y (List.mem_cons_of_mem _ hy)
    have hadmits : r.Admits py s x.claim x.certificate x.key :=
      ⟨hs.running, hs.unchallenged, hx.branchId, hx.accused, hx.proves⟩
    rw [submitAll, submitClaim_eq hadmits]
    cases hexisting : s.claims.get? x.claim.reporter with
    | some existing =>
      have hknown : x.claim.reporter ∈ backers s round xs :=
        Finset.mem_union_left _ (List.mem_toFinset.mpr (Dict.mem_keys_iff.mpr ⟨_, hexisting⟩))
      have hbackers : backers s round (x :: xs) = backers s round xs := by
        rw [backers_cons]
        split_ifs
        · exact Finset.insert_eq_self.mpr hknown
        · rfl
      rw [hbackers]
      by_cases hsame : existing = x.claim
      · simp only [if_pos hsame]
        exact ih hs hclaims hrest
      · simp only [if_neg hsame]
        have hquarantine : r.Collecting (s.quarantine x.claim.reporter) round :=
          ⟨hs.running, hs.unchallenged, hs.few, hs.common⟩
        exact ih hquarantine hclaims fun y hy =>
          ⟨(hrest y hy).branchId, (hrest y hy).accused, (hrest y hy).proves⟩
    | none =>
      have hsameRound : (s.claims.values.head?.all fun c =>
          c.protocolRound == x.claim.protocolRound) = decide (round = x.claim.protocolRound) := by
        cases hhead : s.claims.values.head? with
        | none =>
          rw [List.head?_eq_none_iff, Dict.values, List.map_eq_nil_iff] at hhead
          simp [Dict.size, hhead] at hclaims
        | some c =>
          obtain ⟨a, ha⟩ := Dict.mem_values_iff.mp (List.mem_of_head? hhead)
          rw [Option.all_some, hs.common a c ha]
          rfl
      dsimp only
      rw [hsameRound, backers_cons]
      by_cases hround : round = x.claim.protocolRound
      · subst hround
        have hgrows := Dict.size_set_of_none x.claim hexisting
        simp only [decide_true, if_true]
        by_cases hquorum : r.quorumSize ≤ (s.claims.set x.claim.reporter x.claim).size
        · rw [take_of_le hquorum]
          refine iff_of_true rfl (hquorum.trans ?_)
          have hnew : x.claim.reporter ∉ s.claims.keys.toFinset := fun hmem => by
            obtain ⟨c, hc⟩ := Dict.mem_keys_iff.mp (List.mem_toFinset.mp hmem)
            rw [hexisting] at hc
            cases hc
          rw [hgrows, ← card_keys, ← Finset.card_insert_of_notMem hnew]
          exact Finset.card_le_card (Finset.insert_subset_insert _ Finset.subset_union_left)
        · obtain ⟨hnone, hcollecting⟩ := Collecting.take hs.running hs.unchallenged
            (Nat.not_le.mp hquorum) hs.common
          rw [hnone, ← backers_take (r := r)]
          obtain ⟨hrole, -, hset⟩ := take_eq r s x.claim
          refine ih hcollecting (by rw [hset, hgrows]; exact Nat.succ_pos _) fun y hy =>
            ⟨(hrest y hy).branchId, (hrest y hy).accused.trans hrole.symm, (hrest y hy).proves⟩
      · simp only [hround, Ne.symm hround, decide_false, if_false, Bool.false_eq_true]
        exact ih hs hclaims hrest

/-- **Claims in a given order**, when none is recorded: the first one fixes the round. -/
theorem submitAll_cons_iff {x : Accusation} {xs : List Accusation} (hrunning : s.aborted = false)
    (hopen : s.pendingDeadline = none) (hclaims : s.claims = ∅)
    (hxs : ∀ y ∈ x :: xs, r.Accuses py s y) :
    r.submitAll py s (x :: xs) = true ↔
      r.quorumSize ≤ (backers s x.claim.protocolRound (x :: xs)).card := by
  have hx := hxs x List.mem_cons_self
  have hadmits : r.Admits py s x.claim x.certificate x.key :=
    ⟨hrunning, hopen, hx.branchId, hx.accused, hx.proves⟩
  have hnone : s.claims.get? x.claim.reporter = none := by rw [hclaims, Dict.get?_empty]
  have hsize : (s.claims.set x.claim.reporter x.claim).size = 1 := by
    rw [Dict.size_set_of_none _ hnone, hclaims]
    rfl
  have hfew : (s.claims.set x.claim.reporter x.claim).size < r.quorumSize := by
    have hthree := r.three_le
    rw [hsize, quorumSize]
    omega
  obtain ⟨hpending, hcollecting⟩ := Collecting.take hrunning hopen hfew fun a c hc => by
    rw [hclaims, Dict.get?_empty] at hc
    cases hc
  obtain ⟨hrole, -, hset⟩ := take_eq r s x.claim
  have hfirst : (s.claims.values.head?.all fun c =>
      c.protocolRound == x.claim.protocolRound) = true := by
    rw [hclaims]
    rfl
  rw [submitAll, submitClaim_eq hadmits]
  simp only [hnone, hfirst, if_true, hpending]
  rw [backers_cons, if_pos rfl, ← backers_take (r := r)]
  refine submitAll_iff hcollecting (by rw [hset, hsize]; exact Nat.one_pos) fun y hy => ?_
  have hy := hxs y (List.mem_cons_of_mem _ hy)
  exact ⟨hy.branchId, hy.accused.trans hrole.symm, hy.proves⟩

/-! ## Claims in every order -/

/-- A round that the first claim may fix: that of the recorded claims or, where there are none, that
of any claim. -/
def FirstRound (s : RecoveryState) (xs : List Accusation) (round : ℤ) : Prop :=
  (∃ a c, s.claims.get? a = some c ∧ c.protocolRound = round) ∨
    s.claims = ∅ ∧ ∃ x ∈ xs, x.claim.protocolRound = round

/-- While no challenge is pending, the claims at hand are too few for one. -/
lemma few_of_run {calls : List RecoveryCall}
    (hrun : Transition.run (r.step py) start calls = some s) :
    s.pendingDeadline = none → s.claims.size < r.quorumSize := by
  have hpos : 0 < r.quorumSize := by
    have hthree := r.three_le
    rw [quorumSize]
    omega
  refine Transition.run_induction
    (I := fun s => s.pendingDeadline = none → s.claims.size < r.quorumSize) ?_ (fun _ => hpos) hrun
  intro s e t hs hstep hopen
  have heffect := effect_of_step hstep
  generalize r.accepts py s e = accepted at heffect
  cases heffect with
  | rejected => exact hs hopen
  | duplicate => exact hs hopen
  | conflicting => exact hs hopen
  | claim claim certificate key =>
    by_contra hmany
    rw [(take_eq r s claim).2.2] at hmany
    have hpending := take_of_le (Nat.not_lt.mp hmany)
    rw [hopen] at hpending
    cases hpending
  | counterproof => exact hpos
  | advance =>
    have hcleared : s.depose.claims = ∅ := by
      unfold RecoveryState.depose
      split <;> rfl
    rw [hcleared]
    exact hpos

/-- A coordinator that has aborted accepts no claim. -/
lemma submitAll_of_aborted {xs : List Accusation} (haborted : s.aborted = true) :
    r.submitAll py s xs = false := by
  induction xs with
  | nil => rfl
  | cons x xs ih =>
    have hrefused : r.submitClaim py x.claim x.certificate x.key s =
        .error (.protocol "recovery is not accepting failure claims") s := by
      rw [eq_error_iff]
      simp [submitClaim, haborted, require]
    rw [submitAll, hrefused]
    exact ih

/-- **When a challenge opens.** In every state that is reached without a pending challenge, claims
with a quorum of reporters for some round open a challenge in every order exactly when the
coordinator has not aborted and every round that the first claim may fix has a quorum of supporters.

**Proof sketch.** The first claim fixes the round, and then the supporters of the round decide
(`submitAll_iff`, `submitAll_cons_iff`); they do not depend on the order. -/
theorem challenge_opens_iff (py : PyLib ν) (r : RecoveryCoordinator) (calls : List RecoveryCall)
    (s : RecoveryState) (hrun : Transition.run (r.step py) start calls = some s)
    (hopen : s.pendingDeadline = none) (xs : List Accusation) (hxs : ∀ x ∈ xs, r.Accuses py s x)
    (round : ℤ) (hquorum : r.quorumSize ≤ (consistentReporters s round xs).card) :
    (∀ ys, ys.Perm xs → r.submitAll py s ys = true) ↔
      s.aborted = false ∧ ∀ q, FirstRound s xs q → r.quorumSize ≤ (backers s q xs).card := by
  have hfew := few_of_run hrun hopen
  have hcommon := (standing_of_run hrun).common
  by_cases hrunning : s.aborted = false
  swap
  · refine iff_of_false (fun h => ?_) fun h => hrunning h.1
    have hrefused : r.submitAll py s xs = false :=
      submitAll_of_aborted (Bool.not_eq_false _ ▸ hrunning)
    rw [h xs (List.Perm.refl xs)] at hrefused
    cases hrefused
  rw [eq_true hrunning, true_and]
  by_cases hclaims : s.claims = ∅
  · constructor
    · rintro h q (⟨a, c, hc, -⟩ | ⟨-, x, hx, rfl⟩)
      · rw [hclaims, Dict.get?_empty] at hc
        cases hc
      · -- the order in which this claim comes first
        classical
        have hperm : (x :: xs.erase x).Perm xs := (List.perm_cons_erase hx).symm
        have hfirst := h _ hperm
        rw [submitAll_cons_iff hrunning hopen hclaims fun y hy => hxs y (hperm.mem_iff.mp hy),
          backers_perm hperm] at hfirst
        exact hfirst
    · intro h ys hys
      cases ys with
      | nil =>
        obtain rfl : xs = [] := hys.symm.eq_nil
        have hthree := r.three_le
        have hnone : (consistentReporters s round []).card = 0 := rfl
        rw [hnone, quorumSize] at hquorum
        omega
      | cons y ys =>
        rw [submitAll_cons_iff hrunning hopen hclaims fun z hz => hxs z (hys.mem_iff.mp hz),
          backers_perm hys]
        exact h _ (.inr ⟨hclaims, y, hys.mem_iff.mp List.mem_cons_self, rfl⟩)
  · have hentries : s.claims.entries ≠ [] := fun h => hclaims (Dict.ext h)
    have hsize : 0 < s.claims.size := List.length_pos_iff.mpr hentries
    obtain ⟨⟨a, c⟩, hmem⟩ := List.exists_mem_of_ne_nil _ hentries
    have hc : s.claims.get? a = some c := Dict.get?_eq_some_iff.mpr hmem
    have hcollecting : r.Collecting s c.protocolRound :=
      ⟨hrunning, hopen, hfew, fun x c' hc' => hcommon a c x c' hc hc'⟩
    have horder : ∀ ys, ys.Perm xs → (r.submitAll py s ys = true ↔
        r.quorumSize ≤ (backers s c.protocolRound xs).card) := fun ys hys => by
      rw [submitAll_iff hcollecting hsize fun y hy => hxs y (hys.mem_iff.mp hy), backers_perm hys]
    constructor
    · rintro h q (⟨b, d, hd, rfl⟩ | ⟨hempty, -⟩)
      · rw [hcommon a c b d hc hd]
        exact (horder xs (List.Perm.refl xs)).mp (h xs (List.Perm.refl xs))
      · exact (hclaims hempty).elim
    · exact fun h ys hys => (horder ys hys).mpr (h _ (.inl ⟨a, c, hc, rfl⟩))

/-! ## A claim for another round -/

section Example

/-- An observer accuses the primary of a round. -/
def exampleAccusation (name : String) (round : ℤ) : Accusation :=
  let s := exampleSigner name
  ⟨s.claim Ledger.integerLib .primary "branch-1" round .noReveal "evidence-a", s.certificate, s.key⟩

omit [PyNumber ν] in
/-- A certificate that its authority has signed is valid in its rounds. -/
lemma verify_signed (a : CertificateAuthority) (c : NodeCertificate) {round : ℤ} {role : String}
    (hissuer : c.issuer = a.issuer) (hfrom : c.validFrom ≤ round) (huntil : round < c.validUntil)
    (hrole : role ∈ c.roles) :
    a.verify Ledger.integerLib { c with signature := a.sign Ledger.integerLib c } round role =
      .ok true :=
  (if_pos ⟨hissuer, hfrom, huntil, hrole⟩).trans (compareDigest_self ..)

/-- The claims of the example are validly signed. -/
lemma accuses_exampleAccusation {name : String} {round : ℤ} (hfrom : 0 ≤ round)
    (huntil : round < 100) :
    exampleCoordinator.Accuses Ledger.integerLib start (exampleAccusation name round) where
  branchId := rfl
  accused := rfl
  proves := proves_claim (verify_signed exampleAuthority _ rfl hfrom huntil
    (List.mem_singleton_self _))

omit [PyNumber ν] in
@[simp] lemma reporter_exampleAccusation (name : String) (round : ℤ) :
    (exampleAccusation name round).claim.reporter = name := rfl

omit [PyNumber ν] in
@[simp] lemma protocolRound_exampleAccusation (name : String) (round : ℤ) :
    (exampleAccusation name round).claim.protocolRound = round := rfl

/-- The third observer accuses the primary of round 9, then the others of round 4. -/
def exampleAccusations : List Accusation :=
  [exampleAccusation "observer-c" 9, exampleAccusation "observer-a" 4,
    exampleAccusation "observer-b" 4]

/-- **One claim for another round prevents a challenge.** Two of three observers accuse the primary
of round 4, but the third one accused it of round 9 before. -/
theorem faulty_claim_prevents_challenge :
    (∀ x ∈ exampleAccusations, exampleCoordinator.Accuses Ledger.integerLib start x) ∧
    exampleCoordinator.quorumSize ≤ (consistentReporters start 4 exampleAccusations).card ∧
    exampleCoordinator.submitAll Ledger.integerLib start exampleAccusations = false := by
  have hvalid : ∀ x ∈ exampleAccusations,
      exampleCoordinator.Accuses Ledger.integerLib start x := by
    intro x hx
    simp only [exampleAccusations, List.mem_cons, List.not_mem_nil, or_false] at hx
    rcases hx with rfl | rfl | rfl <;> exact accuses_exampleAccusation (by decide) (by decide)
  refine ⟨hvalid, ?_, ?_⟩
  · have hsub : {"observer-a", "observer-b"} ⊆ consistentReporters start 4 exampleAccusations := by
      intro a ha
      rw [Finset.mem_insert, Finset.mem_singleton] at ha
      rcases ha with rfl | rfl <;>
        simp [consistentReporters, reporters, exampleAccusations, start]
    exact Finset.card_le_card hsub
  · have hone : (backers start 9 exampleAccusations).card = 1 := by
      simp [backers, reporters, exampleAccusations, start, Dict.keys]
    rw [← Bool.not_eq_true, exampleAccusations,
      submitAll_cons_iff rfl rfl rfl hvalid, protocolRound_exampleAccusation]
    exact Nat.not_le.mpr (hone.trans_lt (by decide))

/-- **The claims of round 4 alone** open a challenge, in the second of their two orders too. -/
theorem challenge_opens_iff_agreeing :
    exampleCoordinator.submitAll Ledger.integerLib start
      [exampleAccusation "observer-b" 4, exampleAccusation "observer-a" 4] = true := by
  refine (challenge_opens_iff Ledger.integerLib exampleCoordinator [] start rfl rfl
    [exampleAccusation "observer-a" 4, exampleAccusation "observer-b" 4] ?_ 4 ?_).mpr
      ⟨rfl, ?_⟩ _ (List.Perm.swap ..)
  · intro x hx
    simp only [List.mem_cons, List.not_mem_nil, or_false] at hx
    rcases hx with rfl | rfl <;> exact accuses_exampleAccusation (by decide) (by decide)
  · have hsub : {"observer-a", "observer-b"} ⊆ consistentReporters start 4
        [exampleAccusation "observer-a" 4, exampleAccusation "observer-b" 4] := by
      intro a ha
      rw [Finset.mem_insert, Finset.mem_singleton] at ha
      rcases ha with rfl | rfl <;> simp [consistentReporters, reporters, start]
    exact Finset.card_le_card hsub
  · rintro q (⟨a, c, hc, -⟩ | ⟨-, x, hx, rfl⟩)
    · cases hc
    · have hround : x.claim.protocolRound = 4 := by
        simp only [List.mem_cons, List.not_mem_nil, or_false] at hx
        rcases hx with rfl | rfl <;> rfl
      rw [hround]
      simp [backers, reporters, start, Dict.keys]
      decide

end Example

end RecoveryCoordinator

end SplitChain
