import Mathlib.Algebra.BigOperators.Group.Finset.Basic
import Mathlib.Logic.Function.Basic
import SplitChain.Library.Transition

set_option relaxedAutoImplicit false
set_option autoImplicit false

/-!
# The multi-branch model

The module `SplitChainMultiBranch` of the TLA+ specification, for any finite sets of accounts and
branches in place of two each. Its next-state relation is a disjunction of actions; here each action
with its parameters is an event, and a state has at most one successor under it.

## Main definitions

* `MultiBranch.Constants`, `MultiBranch.State` — the constants and the variables.
* `MultiBranch.Init` — the initial states.
* `MultiBranch.step` — the actions.
-/

namespace MultiBranch

/-- The states of a branch. -/
inductive Phase where
  | none | offered | accepted | committed | final | cancelled | expired
deriving DecidableEq

/-- The constants, with what is assumed of them. `anyAccount` is the account that `CHOOSE` picks. -/
structure Constants (α β : Type) where
  accounts : Finset α
  branches : Finset β
  maxValue : ℤ
  ttl : ℤ
  anyAccount : α
  maxValue_pos : 1 ≤ maxValue
  ttl_covers : 3 ≤ ttl

/-- The variables. -/
structure State (α β : Type) where
  balance : α → ℤ
  locked : α → ℤ
  state : β → Phase
  sender : β → α
  receiver : β → α
  value : β → ℤ
  round : ℤ
  offeredRound : β → ℤ
  commitRound : β → ℤ
  initialSupply : α → ℤ

/-- The actions, with the parameters of their quantifiers. -/
inductive Action (α β : Type) where
  | offer (b : β) (s r : α) (v : ℤ)
  | accept (b : β)
  | commit (b : β)
  | cancel (b : β)
  | expire (b : β)
  | finalize (b : β)
  | tick

variable {α β : Type} (k : Constants α β)

/-- `Init` -/
structure Init (m : State α β) : Prop where
  balance : ∀ a ∈ k.accounts, 0 ≤ m.balance a ∧ m.balance a ≤ k.maxValue
  locked : ∀ a ∈ k.accounts, m.locked a = 0
  state : ∀ b ∈ k.branches, m.state b = .none
  sender : ∀ b ∈ k.branches, m.sender b = k.anyAccount
  receiver : ∀ b ∈ k.branches, m.receiver b = k.anyAccount
  value : ∀ b ∈ k.branches, m.value b = 0
  offeredRound : ∀ b ∈ k.branches, m.offeredRound b = 0
  commitRound : ∀ b ∈ k.branches, m.commitRound b = 0
  round : m.round = 0
  initialSupply : ∀ a ∈ k.accounts, m.initialSupply a = m.balance a

/-- The initial state with given balances. -/
def State.initial (balance : α → ℤ) : State α β where
  balance := balance
  locked _ := 0
  state _ := .none
  sender _ := k.anyAccount
  receiver _ := k.anyAccount
  value _ := 0
  round := 0
  offeredRound _ := 0
  commitRound _ := 0
  initialSupply := balance

/-- Balances within the bound make an initial state. -/
lemma init_initial {balance : α → ℤ}
    (h : ∀ a ∈ k.accounts, 0 ≤ balance a ∧ balance a ≤ k.maxValue) :
    Init k (State.initial k balance) :=
  ⟨h, fun _ _ => rfl, fun _ _ => rfl, fun _ _ => rfl, fun _ _ => rfl, fun _ _ => rfl,
    fun _ _ => rfl, fun _ _ => rfl, rfl, fun _ _ => rfl⟩

variable [DecidableEq α] [DecidableEq β]

open Function (update)

/-- Give back what a branch has locked. -/
def State.unlocked (m : State α β) (b : β) : α → ℤ :=
  update m.locked (m.sender b) (m.locked (m.sender b) - 2 * m.value b)

/-- Move the value of a branch. -/
def State.paid (m : State α β) (b : β) : α → ℤ :=
  let debited := update m.balance (m.sender b) (m.balance (m.sender b) - m.value b)
  update debited (m.receiver b) (debited (m.receiver b) + m.value b)

/-- The state after an action, where the action is enabled. -/
def step (m : State α β) : Action α β → Option (State α β)
  | .offer b s r v =>
    if b ∈ k.branches ∧ s ∈ k.accounts ∧ r ∈ k.accounts ∧ m.state b = .none ∧ s ≠ r ∧
        (1 ≤ v ∧ v ≤ k.maxValue) ∧ 2 * v ≤ m.balance s - m.locked s then
      some { m with
        state := update m.state b .offered
        sender := update m.sender b s
        receiver := update m.receiver b r
        value := update m.value b v
        offeredRound := update m.offeredRound b m.round
        locked := update m.locked s (m.locked s + 2 * v) }
    else none
  | .accept b =>
    if b ∈ k.branches ∧ m.state b = .offered ∧ m.round < m.offeredRound b + k.ttl then
      some { m with state := update m.state b .accepted }
    else none
  | .commit b =>
    if b ∈ k.branches ∧ m.state b = .accepted ∧ m.round < m.offeredRound b + k.ttl then
      some { m with
        state := update m.state b .committed
        commitRound := update m.commitRound b m.round }
    else none
  | .cancel b =>
    if b ∈ k.branches ∧ (m.state b = .offered ∨ m.state b = .accepted) then
      some { m with state := update m.state b .cancelled, locked := m.unlocked b }
    else none
  | .expire b =>
    if b ∈ k.branches ∧ (m.state b = .offered ∨ m.state b = .accepted) ∧
        m.offeredRound b + k.ttl ≤ m.round then
      some { m with state := update m.state b .expired, locked := m.unlocked b }
    else none
  | .finalize b =>
    if b ∈ k.branches ∧ m.state b = .committed ∧ m.commitRound b + 3 ≤ m.round then
      some { m with
        state := update m.state b .final
        balance := m.paid b
        locked := m.unlocked b }
    else none
  | .tick => some { m with round := m.round + 1 }

/-- The branches that no offer has used. -/
def unused (m : State α β) : Finset β := k.branches.filter fun b => m.state b = .none

omit [DecidableEq α] [DecidableEq β] in
/-- Initially all branches are unused. -/
lemma unused_initial (balance : α → ℤ) : unused k (State.initial k balance) = k.branches :=
  Finset.filter_true_of_mem fun _ _ => rfl

/-- An action uses a branch if it is an offer, and none otherwise.

**Proof sketch.** The other actions start from a state of the branch that is not `none`, and do not
lead back to it. -/
lemma card_unused_le {m m' : State α β} {action : Action α β}
    (h : step k m action = some m') :
    (unused k m).card ≤ (unused k m').card + match action with
      | .offer _ _ _ _ => 1
      | _ => 0 := by
  -- A branch that is in use moves to another state of use.
  have hmoved : ∀ {b : β} {p : Phase} {f : β → Phase}, m.state b ≠ .none → p ≠ .none →
      f = update m.state b p →
      (k.branches.filter fun c => m.state c = .none) = k.branches.filter fun c => f c = .none := by
    rintro b p f hb hp rfl
    refine Finset.filter_congr fun c _ => ?_
    by_cases hc : c = b
    · subst hc
      rw [Function.update_self]
      exact iff_of_false hb hp
    · rw [Function.update_of_ne hc]
  cases action with
  | offer b s r v =>
    simp only [step, Option.ite_none_right_eq_some, Option.some.injEq] at h
    obtain ⟨⟨hb, -, -, hnone, -⟩, rfl⟩ := h
    have herase : (k.branches.filter fun c => update m.state b .offered c = .none) =
        (unused k m).erase b := by
      ext c
      simp only [unused, Finset.mem_filter, Finset.mem_erase]
      by_cases hc : c = b
      · subst hc
        simp
      · rw [Function.update_of_ne hc]
        simp [hc]
    show (unused k m).card ≤ (k.branches.filter _).card + 1
    rw [herase]
    exact (Finset.card_erase_add_one (Finset.mem_filter.mpr ⟨hb, hnone⟩)).ge
  | accept b =>
    simp only [step, Option.ite_none_right_eq_some, Option.some.injEq] at h
    obtain ⟨⟨-, hs, -⟩, rfl⟩ := h
    exact (congrArg Finset.card (hmoved (by rw [hs]; exact nofun) (by exact nofun) rfl)).le
  | commit b =>
    simp only [step, Option.ite_none_right_eq_some, Option.some.injEq] at h
    obtain ⟨⟨-, hs, -⟩, rfl⟩ := h
    exact (congrArg Finset.card (hmoved (by rw [hs]; exact nofun) (by exact nofun) rfl)).le
  | cancel b =>
    simp only [step, Option.ite_none_right_eq_some, Option.some.injEq] at h
    obtain ⟨⟨-, hs⟩, rfl⟩ := h
    refine (congrArg Finset.card (hmoved ?_ (by exact nofun) rfl)).le
    rcases hs with hs | hs <;> rw [hs] <;> exact nofun
  | expire b =>
    simp only [step, Option.ite_none_right_eq_some, Option.some.injEq] at h
    obtain ⟨⟨-, hs, -⟩, rfl⟩ := h
    refine (congrArg Finset.card (hmoved ?_ (by exact nofun) rfl)).le
    rcases hs with hs | hs <;> rw [hs] <;> exact nofun
  | finalize b =>
    simp only [step, Option.ite_none_right_eq_some, Option.some.injEq] at h
    obtain ⟨⟨-, hs, -⟩, rfl⟩ := h
    exact (congrArg Finset.card (hmoved (by rw [hs]; exact nofun) (by exact nofun) rfl)).le
  | tick =>
    obtain rfl := Option.some.inj h
    exact le_rfl

end MultiBranch
