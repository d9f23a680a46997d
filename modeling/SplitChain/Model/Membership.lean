import SplitChain.Library.Quorum
import SplitChain.Library.Raise
import SplitChain.Python.Json

set_option relaxedAutoImplicit false
set_option autoImplicit false

/-!
# Memberships

The rules of `splitchain.membership` for the validators of an epoch and for the transition from one
epoch to the next, in which a decision needs a quorum of the old validators and one of the new.

## Main definitions

* `SplitChain.Membership`, `SplitChain.Membership.create` — the validators of an epoch.
* `SplitChain.JointMembership`, `SplitChain.JointMembership.create` — a transition.

## Main results

* `SplitChain.JointMembership.quorums_intersect` — what two approved sets of voters share.
-/

namespace SplitChain

open Raise

/-! ## Epochs -/

/-- The validators of an epoch: at least three, with distinct names that are not empty. -/
structure Membership where
  epoch : ℤ
  validators : List String
  epoch_nonneg : 0 ≤ epoch
  three_le : 3 ≤ validators.length
  nodup : validators.Nodup
  named : ∀ name ∈ validators, name ≠ ""

namespace Membership

/-- `Membership(epoch, validators)` -/
def create (epoch : ℤ) (validators : List String) : Except PyError Membership :=
  if h : 0 ≤ epoch ∧ 3 ≤ validators.length ∧ validators.Nodup ∧ ∀ name ∈ validators, name ≠ "" then
    .ok ⟨epoch, validators, h.1, h.2.1, h.2.2.1, h.2.2.2⟩
  else .error (.protocol "invalid validator membership")

/-- A membership is created again from its parts. -/
lemma create_self (m : Membership) : create m.epoch m.validators = .ok m :=
  dif_pos ⟨m.epoch_nonneg, m.three_le, m.nodup, m.named⟩

/-- The number of votes that a decision needs. -/
def quorum (m : Membership) : ℕ := (2 * m.validators.length + 2) / 3

/-- Whether enough validators are among the voters. -/
def approves (m : Membership) (voters : Finset String) : Bool :=
  decide (m.quorum ≤ (voters ∩ m.validators.toFinset).card)

/-- An approval is a quorum of two thirds. -/
lemma approves_iff {m : Membership} {voters : Finset String} : m.approves voters = true ↔
    Quorum.Reaches m.validators.toFinset voters (Quorum.twoThirds m.validators.toFinset.card) := by
  rw [approves, decide_eq_true_iff, List.toFinset_card_of_nodup m.nodup]
  rfl

end Membership

/-! ## Transitions -/

/-- The transition to the next epoch, in which no validator leaves. -/
structure JointMembership where
  previous : Membership
  candidate : Membership
  next : candidate.epoch = previous.epoch + 1
  subset : previous.validators ⊆ candidate.validators

namespace JointMembership

/-- `JointMembership(previous, candidate)` -/
def create (previous candidate : Membership) : Except PyError JointMembership :=
  if h : candidate.epoch = previous.epoch + 1 ∧ previous.validators ⊆ candidate.validators then
    .ok ⟨previous, candidate, h.1, h.2⟩
  else .error (.protocol "invalid validator transition")

/-- A transition is created again from its parts. -/
lemma create_self (j : JointMembership) : create j.previous j.candidate = .ok j :=
  dif_pos ⟨j.next, j.subset⟩

/-- Whether both quorums are among the voters. -/
def approves (j : JointMembership) (voters : Finset String) : Bool :=
  j.previous.approves voters && j.candidate.approves voters

end JointMembership

/-! ## Intersections -/

/-- The validators among two sets of voters. -/
def Membership.shared (m : Membership) (a b : Finset String) : Finset String :=
  a ∩ b ∩ m.validators.toFinset

namespace Membership

variable {m : Membership} {a b : Finset String}

/-- Two approved sets of voters share two quorums less the validators. -/
lemma le_card_shared (ha : m.approves a = true) (hb : m.approves b = true) :
    2 * ⌈(2 * m.validators.length : ℚ) / 3⌉ - m.validators.length ≤ ((m.shared a b).card : ℤ) := by
  have hinter := (approves_iff.mp ha).inter_twoThirds (approves_iff.mp hb)
  rwa [List.toFinset_card_of_nodup m.nodup] at hinter

/-- Two quorums exceed the validators by a third of them. -/
lemma third_le_overlap (m : Membership) : (m.validators.length : ℚ) / 3 ≤
    (2 * ⌈(2 * m.validators.length : ℚ) / 3⌉ - m.validators.length : ℤ) := by
  rw [← Quorum.twoThirds_eq_ceil]
  exact (Int.le_ceil _).trans (by exact_mod_cast Quorum.ceil_third_le m.validators.length)

/-- Two approved sets of voters share a third of the validators, rounded up. -/
lemma third_le_card_shared (ha : m.approves a = true) (hb : m.approves b = true) :
    ⌈(m.validators.length : ℚ) / 3⌉ ≤ ((m.shared a b).card : ℤ) := by
  refine le_trans ?_ (le_card_shared ha hb)
  rw [← Quorum.twoThirds_eq_ceil]
  exact Quorum.ceil_third_le _

end Membership

/-- **Quorums intersect**, in every epoch and through every transition, whoever else is among the
voters: two sets that a membership approves share two quorums less the validators, which is a third
of the validators at least; and a set that a transition approves shares a third of the old
validators with any set the old membership approves, a third of the new ones with any set the new
membership approves, and both with any set the transition approves.

**Proof sketch.** A set that the transition approves is approved by both memberships. -/
theorem JointMembership.quorums_intersect :
    (∀ (m : Membership) (a b : Finset String), m.approves a = true → m.approves b = true →
      2 * ⌈(2 * m.validators.length : ℚ) / 3⌉ - m.validators.length ≤ ((m.shared a b).card : ℤ) ∧
      (m.validators.length : ℚ) / 3 ≤
        (2 * ⌈(2 * m.validators.length : ℚ) / 3⌉ - m.validators.length : ℤ) ∧
      (m.shared a b).Nonempty) ∧
    ∀ (j : JointMembership) (a b : Finset String), j.approves a = true →
      (j.previous.approves b = true →
        ⌈(j.previous.validators.length : ℚ) / 3⌉ ≤ ((j.previous.shared a b).card : ℤ)) ∧
      (j.candidate.approves b = true →
        ⌈(j.candidate.validators.length : ℚ) / 3⌉ ≤ ((j.candidate.shared a b).card : ℤ)) ∧
      (j.approves b = true →
        ⌈(j.previous.validators.length : ℚ) / 3⌉ ≤ ((j.previous.shared a b).card : ℤ) ∧
        ⌈(j.candidate.validators.length : ℚ) / 3⌉ ≤ ((j.candidate.shared a b).card : ℤ)) := by
  constructor
  · intro m a b ha hb
    refine ⟨Membership.le_card_shared ha hb, m.third_le_overlap, ?_⟩
    have hthird := Membership.third_le_card_shared ha hb
    have hpos : (0 : ℚ) < (m.validators.length : ℚ) / 3 := by
      have := m.three_le
      positivity
    exact Finset.card_pos.mp (by exact_mod_cast (Int.ceil_pos.mpr hpos).trans_le hthird)
  · intro j a b ha
    obtain ⟨hprevious, hcandidate⟩ := Bool.and_eq_true_iff.mp ha
    refine ⟨Membership.third_le_card_shared hprevious, Membership.third_le_card_shared hcandidate,
      fun hb => ?_⟩
    obtain ⟨hprevious', hcandidate'⟩ := Bool.and_eq_true_iff.mp hb
    exact ⟨Membership.third_le_card_shared hprevious hprevious',
      Membership.third_le_card_shared hcandidate hcandidate'⟩

/-- Three validators to whom three colleagues are added. -/
def JointMembership.six : JointMembership where
  previous := ⟨0, ["primary", "secondary", "tertiary"], by decide, by decide, by decide, by decide⟩
  candidate := ⟨1, ["primary", "secondary", "tertiary", "colleague-primary", "colleague-secondary",
    "colleague-tertiary"], by decide, by decide, by decide, by decide⟩
  next := rfl
  subset := by decide

/-- An outsider votes with two old validators and two new ones; the old membership approves other
two of its validators. -/
theorem JointMembership.quorums_intersect_six :
    ⌈((six.previous.validators.length : ℕ) : ℚ) / 3⌉ ≤ ((six.previous.shared
      {"primary", "secondary", "colleague-primary", "colleague-secondary", "outsider"}
      {"secondary", "tertiary"}).card : ℤ) :=
  (JointMembership.quorums_intersect.2 six _ _ (by decide)).1 (by decide)

end SplitChain
