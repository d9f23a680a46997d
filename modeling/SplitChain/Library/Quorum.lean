import Mathlib.Algebra.Order.Floor.Ring
import Mathlib.Data.Finset.Card
import Mathlib.Data.Rat.Floor
import Mathlib.Tactic.Linarith
import Mathlib.Tactic.NormNum

set_option relaxedAutoImplicit false
set_option autoImplicit false

/-!
# Quorums

A roster is a finite set of members, and a set of voters reaches a threshold if that many of them
are in the roster. Two sets that reach thresholds have members in common, as many as the
thresholds exceed the roster together; for two thirds of the roster that is a third of it.

## Main definitions

* `Quorum.twoThirds` — two thirds of a number, rounded up.
* `Quorum.Reaches` — enough voters are in the roster.

## Main results

* `Quorum.Reaches.inter` — the members that two sets of voters share.
* `Quorum.Reaches.inter_twoThirds` — the overlap of two quorums of two thirds.
* `Quorum.exists_of_count` — a vote among those that are counted.
-/

namespace Quorum

/-! ## Thresholds -/

/-- Two thirds, rounded up. -/
def twoThirds (n : ℕ) : ℕ := (2 * n + 2) / 3

variable {n : ℕ}

/-- The integer formula is the ceiling. -/
lemma twoThirds_eq_ceil (n : ℕ) : (twoThirds n : ℤ) = ⌈(2 * n : ℚ) / 3⌉ := by
  have hlow : 2 * n ≤ 3 * twoThirds n := by unfold twoThirds; omega
  have hhigh : 3 * twoThirds n < 2 * n + 3 := by unfold twoThirds; omega
  rw [eq_comm, Int.ceil_eq_iff]
  have hlow' : (2 * n : ℚ) ≤ 3 * twoThirds n := by exact_mod_cast hlow
  have hhigh' : (3 * twoThirds n : ℚ) < 2 * n + 3 := by exact_mod_cast hhigh
  push_cast
  constructor <;> linarith

/-- Two quorums of two thirds exceed the roster by a third of it at least, rounded up. -/
lemma ceil_third_le (n : ℕ) : ⌈(n : ℚ) / 3⌉ ≤ 2 * (twoThirds n : ℤ) - n := by
  have hlow : 2 * n ≤ 3 * twoThirds n := by unfold twoThirds; omega
  have hlow' : (2 * n : ℚ) ≤ 3 * twoThirds n := by exact_mod_cast hlow
  rw [Int.ceil_le]
  push_cast
  linarith

/-! ## Voters -/

variable {α : Type*} [DecidableEq α]

/-- At least `threshold` of the voters are in the roster. -/
def Reaches (roster voters : Finset α) (threshold : ℕ) : Prop :=
  threshold ≤ (voters ∩ roster).card

variable {roster a b : Finset α} {s t : ℕ}

/-- **Quorum intersection.** Two sets of voters share as many members as their thresholds exceed the
roster.

**Proof sketch.** Inclusion and exclusion in the roster, which contains the members of both. -/
theorem Reaches.inter (ha : Reaches roster a s) (hb : Reaches roster b t) :
    s + t ≤ (a ∩ b ∩ roster).card + roster.card := by
  have hunion : (a ∩ roster ∪ b ∩ roster).card ≤ roster.card :=
    Finset.card_le_card (Finset.union_subset Finset.inter_subset_right Finset.inter_subset_right)
  have hinter : a ∩ roster ∩ (b ∩ roster) = a ∩ b ∩ roster := by
    ext x
    simp only [Finset.mem_inter]
    tauto
  have hcount := Finset.card_union_add_card_inter (a ∩ roster) (b ∩ roster)
  rw [hinter] at hcount
  unfold Reaches at ha hb
  omega

/-- The same overlap, for one threshold of two thirds. -/
lemma Reaches.inter_twoThirds (ha : Reaches roster a (twoThirds roster.card))
    (hb : Reaches roster b (twoThirds roster.card)) :
    2 * ⌈(2 * roster.card : ℚ) / 3⌉ - roster.card ≤ ((a ∩ b ∩ roster).card : ℤ) := by
  rw [← twoThirds_eq_ceil]
  have := ha.inter hb
  omega

/-! ## Votes in order -/

section Votes

variable {β : Type*} {R : β → Bool → Prop} {S : β → β → Prop} {xs : List β} {bs : List Bool}

/-- A vote that is counted. -/
lemma exists_of_count (h : List.Forall₂ R xs bs) (hone : 1 ≤ bs.count true) :
    ∃ x ∈ xs, R x true := by
  induction h with
  | nil => simp at hone
  | @cons x b xs bs hx _ ih =>
    cases b with
    | true => exact ⟨x, List.mem_cons_self, hx⟩
    | false =>
      obtain ⟨y, hy, hR⟩ := ih (by simpa using hone)
      exact ⟨y, List.mem_cons_of_mem x hy, hR⟩

end Votes

end Quorum
