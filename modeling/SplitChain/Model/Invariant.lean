import Mathlib.Tactic.Ring
import SplitChain.Model.Steps

set_option relaxedAutoImplicit false
set_option autoImplicit false

/-!
# The lock invariant

The locked funds of an account cover the value and stake of its active branches, they are within
its balance, and no operation creates or destroys funds. The invariant also says why the
internal errors of the program (a missing key, a failed assertion) never occur.

## Main definitions

* `SplitChain.Ledger.lockedBy` — the funds the active branches of an account hold.
* `SplitChain.Ledger.excess` — the locked funds of an account that no active branch holds.
* `SplitChain.Ledger.supply` — the sum of all balances.
* `SplitChain.Ledger.LockInv` — the invariant.

## Main results

* `SplitChain.Ledger.LockInv.call` — calls keep the invariant.
* `SplitChain.Ledger.excess_call` — calls keep the excess, unless an offer overwrites a branch.
* `SplitChain.Ledger.supply_call` — calls keep the supply.
* `SplitChain.Ledger.LockInv.raisesProtocol_call` — calls raise nothing but `ProtocolError`.

## Design

An offer names its branch by sixteen digits of a digest, and a branch of that name is overwritten.
The funds an overwritten active branch has locked stay locked for good: they are the excess. The
invariant only needs the excess to be nonnegative, so it holds whatever the digests are.
-/

namespace SplitChain

namespace Ledger

open Raise

open PyNumber (val ofInt)

variable {ν : Type} [PyNumber ν]

/-! ## Definitions -/

/-- The funds a branch holds of an account. -/
def heldBy (account : String) (b : Branch ν) : ℚ :=
  if b.sender = account ∧ b.state.active = true then val b.value + val b.stake else 0

/-- The funds the active branches of an account hold. -/
def lockedBy (l : Ledger ν) (account : String) : ℚ :=
  l.branches.sum fun _ b => heldBy account b

/-- The locked funds of an account that no active branch holds. -/
def excess (l : Ledger ν) (account : String) : ℚ :=
  val (l.locked.getD account (ofInt 0)) - l.lockedBy account

/-- The sum of all balances. -/
def supply (l : Ledger ν) : ℚ := l.balances.sum fun _ v => val v

/-- Every branch is stored under its own name. -/
def Keyed (l : Ledger ν) : Prop := ∀ id b, l.branches.get? id = some b → b.branchId = id

/-- What every branch of a ledger satisfies. -/
structure BranchInv (l : Ledger ν) (branchId : String) (b : Branch ν) : Prop where
  keyed : b.branchId = branchId
  value_pos : 0 < val b.value
  stake_eq : b.stake = b.value
  distinct : b.sender ≠ b.receiver
  receiver_known : l.balances.contains b.receiver = true
  sender_locked : l.locked.contains b.sender = true
  committed : b.state = .committed → ∃ r, b.committedRound = some r

/-- **The lock invariant.** -/
structure LockInv (l : Ledger ν) : Prop where
  branch : ∀ branchId b, l.branches.get? branchId = some b → l.BranchInv branchId b
  excess_nonneg : ∀ a, 0 ≤ l.excess a
  locked_le : ∀ a, val (l.locked.getD a (ofInt 0)) ≤ val (l.balances.getD a (ofInt 0))

/-- The part of a branch invariant that is about funds. -/
structure FundBranch (l : Ledger ν) (b : Branch ν) : Prop where
  value_pos : 0 < val b.value
  stake_eq : val b.stake = val b.value
  sender_locked : b.state.active = true → l.locked.contains b.sender = true
  committed : b.state = .committed → ∃ r, b.committedRound = some r

/-- **The fund invariant**: the part of the lock invariant that is about funds. It says nothing
about branches that have ended, nor about the parties of a branch. -/
structure FundInv (l : Ledger ν) : Prop where
  branch : ∀ branchId b, l.branches.get? branchId = some b → l.FundBranch b
  excess_nonneg : ∀ a, 0 ≤ l.excess a
  locked_le : ∀ a, val (l.locked.getD a (ofInt 0)) ≤ val (l.balances.getD a (ofInt 0))

/-- The lock invariant includes the fund invariant. -/
lemma LockInv.funds {l : Ledger ν} (h : LockInv l) : FundInv l where
  branch branchId b hb :=
    have hbranch := h.branch branchId b hb
    ⟨hbranch.value_pos, congrArg val hbranch.stake_eq, fun _ => hbranch.sender_locked,
      hbranch.committed⟩
  excess_nonneg := h.excess_nonneg
  locked_le := h.locked_le

/-- The funds of an account that the branch overwritten by an offer holds. -/
def overwrittenBy (py : PyLib ν) (l : Ledger ν) (sender receiver : String) (value : ν)
    (account : String) : ℚ :=
  ((l.branches.get? (l.nextBranchId py sender receiver value)).map (heldBy account)).getD 0

/-! ## Fields of a changed ledger -/

section Fields

variable (py : PyLib ν) (l : Ledger ν)

omit [PyNumber ν] in
@[simp] lemma branches_setBranch (branchId : String) (b : Branch ν) :
    (l.setBranch branchId b).branches = l.branches.set branchId b := rfl

@[simp] lemma branches_registered (account : String) :
    (l.registered py account).branches = l.branches := rfl

@[simp] lemma branches_opened (s r : String) (v t : ν) : (l.opened py s r v t).branches =
    l.branches.set (l.nextBranchId py s r v) (l.newBranch py s r v t) := rfl

@[simp] lemma branches_released (branchId : String) (b : Branch ν) (s : BranchState) (held : ν) :
    (l.released branchId b s held).branches = l.branches.set branchId { b with state := s } := rfl

@[simp] lemma branches_settled (branchId : String) (b : Branch ν) (balance held : ν) :
    (l.settled py branchId b balance held).branches =
      l.branches.set branchId { b with state := .final } := rfl

@[simp] lemma balances_settled (branchId : String) (b : Branch ν) (balance held : ν) :
    (l.settled py branchId b balance held).balances = l.transferred b balance := rfl

@[simp] lemma locked_settled (branchId : String) (b : Branch ν) (balance held : ν) :
    (l.settled py branchId b balance held).locked =
      l.locked.set b.sender (held - (b.value + b.stake)) := rfl

end Fields

/-! ## Sums -/

/-- A branch that has ended holds nothing. -/
lemma heldBy_of_inactive {account : String} {b : Branch ν} (h : b.state.active = false) :
    heldBy account b = 0 := by simp [heldBy, h]

/-- What an active branch holds. -/
lemma heldBy_of_active {account : String} {b : Branch ν} (h : b.state.active = true) :
    heldBy account b = if b.sender = account then val b.value + val b.stake else 0 := by
  simp [heldBy, h]

namespace FundInv

variable {l : Ledger ν}

/-- Every branch of a ledger holds a nonnegative amount. -/
lemma heldBy_nonneg (h : FundInv l) (a : String) (branchId : String) (b : Branch ν)
    (hb : l.branches.get? branchId = some b) : 0 ≤ heldBy a b := by
  have hv := (h.branch branchId b hb).value_pos
  have hs := (h.branch branchId b hb).stake_eq
  unfold heldBy
  split_ifs
  · rw [hs]; linarith
  · rfl

/-- The active branches of an account hold a nonnegative amount. -/
lemma lockedBy_nonneg (h : FundInv l) (a : String) : 0 ≤ l.lockedBy a :=
  Dict.sum_nonneg fun branchId b hb => h.heldBy_nonneg a branchId b hb

/-- Locked funds are nonnegative. -/
lemma locked_nonneg (h : FundInv l) (a : String) : 0 ≤ val (l.locked.getD a (ofInt 0)) := by
  have h1 := h.excess_nonneg a
  have h2 := h.lockedBy_nonneg a
  rw [excess] at h1
  linarith

/-- Balances are nonnegative. -/
lemma balance_nonneg (h : FundInv l) (a : String) : 0 ≤ val (l.balances.getD a (ofInt 0)) :=
  (h.locked_nonneg a).trans (h.locked_le a)

/-- An active branch is within the locked funds of its sender. -/
lemma value_le_locked (h : FundInv l) {branchId : String} {b : Branch ν}
    (hb : l.branches.get? branchId = some b) (ha : b.state.active = true) :
    val b.value + val b.value ≤ val (l.locked.getD b.sender (ofInt 0)) := by
  have hone : heldBy b.sender b ≤ l.lockedBy b.sender :=
    Dict.single_le_sum (f := fun _ c => heldBy b.sender c)
      (fun id c hc => h.heldBy_nonneg b.sender id c hc) hb
  have hall := h.excess_nonneg b.sender
  rw [heldBy_of_active ha, if_pos rfl, (h.branch branchId b hb).stake_eq] at hone
  rw [excess] at hall
  linarith

/-- The sender of an active branch has a balance. -/
lemma exists_balance (h : FundInv l) {branchId : String} {b : Branch ν}
    (hb : l.branches.get? branchId = some b) (ha : b.state.active = true) :
    ∃ balance, l.balances.get? b.sender = some balance := by
  have h1 := h.value_le_locked hb ha
  have h2 := h.locked_le b.sender
  have h3 := (h.branch branchId b hb).value_pos
  by_contra hne
  have hnone : l.balances.get? b.sender = none := by
    simpa [← Option.ne_none_iff_exists'] using hne
  simp only [Dict.getD, hnone, Option.getD_none, PyNumber.val_ofInt] at h2
  push_cast at h2
  unfold Dict.getD at h1
  linarith

/-- The sender of an active branch has an entry of locked funds. -/
lemma exists_locked (h : FundInv l) {branchId : String} {b : Branch ν}
    (hb : l.branches.get? branchId = some b) (ha : b.state.active = true) :
    ∃ held, l.locked.get? b.sender = some held :=
  Dict.contains_iff.mp ((h.branch branchId b hb).sender_locked ha)

end FundInv

namespace LockInv

variable {l : Ledger ν}

/-- Locked funds are nonnegative. -/
lemma locked_nonneg (h : LockInv l) (a : String) : 0 ≤ val (l.locked.getD a (ofInt 0)) :=
  h.funds.locked_nonneg a

/-- Balances are nonnegative. -/
lemma balance_nonneg (h : LockInv l) (a : String) : 0 ≤ val (l.balances.getD a (ofInt 0)) :=
  h.funds.balance_nonneg a

end LockInv

/-- An offered or accepted branch is active. -/
lemma active_of_open {s : BranchState} (h : s = .offered ∨ s = .accepted) : s.active = true := by
  rcases h with rfl | rfl <;> rfl

/-! ## Excess -/

/-- Overwriting a branch without touching the locked funds. -/
lemma excess_setBranch {l : Ledger ν} {branchId : String} {b : Branch ν}
    (hb : l.branches.get? branchId = some b) (b' : Branch ν) (a : String) :
    (l.setBranch branchId b').excess a = l.excess a + heldBy a b - heldBy a b' := by
  unfold excess lockedBy
  rw [branches_setBranch, Dict.sum_set_of_some _ b' hb]
  show val (l.locked.getD a (ofInt 0)) - _ = _
  ring

/-- A branch that moves on with the same terms keeps the excess. -/
lemma excess_restated {l : Ledger ν} {branchId : String} {b b' : Branch ν}
    (hb : l.branches.get? branchId = some b) (hsender : b'.sender = b.sender)
    (hvalue : b'.value = b.value) (hstake : b'.stake = b.stake)
    (hactive : b'.state.active = b.state.active) {a : String} :
    (l.setBranch branchId b').excess a = l.excess a := by
  have hheld : heldBy a b' = heldBy a b := by simp only [heldBy, hsender, hactive, hvalue, hstake]
  rw [excess_setBranch hb b', hheld, add_sub_cancel_right]

/-- The locked funds after a branch has given back its own. -/
lemma locked_released {l : Ledger ν} {branchId : String} {b : Branch ν} {s : BranchState}
    {held : ν} (hactive : b.state.active = true) (hheld : l.locked.get? b.sender = some held)
    (a : String) : val ((l.released branchId b s held).locked.getD a (ofInt 0)) =
      val (l.locked.getD a (ofInt 0)) - heldBy a b := by
  show val ((l.locked.set b.sender _).getD a (ofInt 0)) = _
  rw [Dict.getD_set, heldBy_of_active hactive]
  split_ifs with ha
  · subst ha; simp [Dict.getD, hheld]
  · simp

/-- A branch that ends keeps the excess. -/
lemma excess_released {l : Ledger ν} {branchId : String} {b : Branch ν} {s : BranchState}
    {held : ν} (hb : l.branches.get? branchId = some b) (hactive : b.state.active = true)
    (hs : s.active = false) (hheld : l.locked.get? b.sender = some held) (a : String) :
    (l.released branchId b s held).excess a = l.excess a := by
  have hsum := excess_setBranch hb { b with state := s } a
  rw [heldBy_of_inactive (b := { b with state := s }) hs] at hsum
  unfold excess at hsum ⊢
  rw [locked_released hactive hheld]
  show _ - (l.setBranch branchId { b with state := s }).lockedBy a = _
  change val (l.locked.getD a (ofInt 0)) - _ = _ at hsum
  linarith

/-- The locked funds after an offer. -/
lemma locked_opened {py : PyLib ν} {l : Ledger ν} {sender receiver : String} {value ttl : ν}
    (a : String) : val ((l.opened py sender receiver value ttl).locked.getD a (ofInt 0)) =
      val (l.locked.getD a (ofInt 0)) + if sender = a then val value + val value else 0 := by
  show val ((l.locked.set sender _).getD a (ofInt 0)) = _
  rw [Dict.getD_set]
  split_ifs with ha
  · subst ha; simp
  · simp

/-- An offer adds what the branch it overwrites has locked to the excess. -/
lemma excess_opened {py : PyLib ν} {l : Ledger ν} {sender receiver : String} {value ttl : ν}
    (a : String) : (l.opened py sender receiver value ttl).excess a =
      l.excess a + l.overwrittenBy py sender receiver value a := by
  have hheld : heldBy a (l.newBranch py sender receiver value ttl) =
      if sender = a then val value + val value else 0 := heldBy_of_active rfl
  unfold excess
  rw [locked_opened]
  unfold lockedBy overwrittenBy
  rw [branches_opened]
  cases hb : l.branches.get? (l.nextBranchId py sender receiver value) with
  | none => rw [Dict.sum_set_of_none _ _ hb, hheld]; simp
  | some b => rw [Dict.sum_set_of_some _ _ hb, hheld]; simp; ring

/-! ## Elementary changes keep the invariant -/

/-- A branch invariant survives more accounts and more entries of locked funds. -/
lemma BranchInv.mono {l l' : Ledger ν} {branchId : String} {b : Branch ν}
    (h : l.BranchInv branchId b)
    (hbal : ∀ a, l.balances.contains a = true → l'.balances.contains a = true)
    (hlock : ∀ a, l.locked.contains a = true → l'.locked.contains a = true) :
    l'.BranchInv branchId b :=
  { h with
    receiver_known := hbal _ h.receiver_known
    sender_locked := hlock _ h.sender_locked }

/-- A present key stays present. -/
lemma contains_set {μ : Type} {d : Dict String μ} {a k : String} {v : μ}
    (h : d.contains a = true) : (d.set k v).contains a = true := by
  unfold Dict.contains at h ⊢
  rw [Dict.get?_set]
  split_ifs
  · rfl
  · exact h

/-- The same for the part that is about funds. -/
lemma FundBranch.mono {l l' : Ledger ν} {b : Branch ν} (h : l.FundBranch b)
    (hlock : ∀ a, l.locked.contains a = true → l'.locked.contains a = true) : l'.FundBranch b :=
  { h with sender_locked := fun ha => hlock _ (h.sender_locked ha) }

namespace FundInv

variable {py : PyLib ν} {l : Ledger ν}

/-- The invariant is about balances, locked funds and branches. -/
lemma congr {l' : Ledger ν} (h : FundInv l) (hbal : l'.balances = l.balances)
    (hlock : l'.locked = l.locked) (hbr : l'.branches = l.branches) : FundInv l' where
  branch id b hb := (h.branch id b (hbr ▸ hb)).mono (by simp [hlock])
  excess_nonneg a := by
    have := h.excess_nonneg a
    rwa [excess, lockedBy, ← hlock, ← hbr] at this
  locked_le a := by rw [hlock, hbal]; exact h.locked_le a

/-- A new round. -/
lemma ticked (h : FundInv l) : FundInv l.ticked := h.congr rfl rfl rfl

/-- A new account. -/
lemma registered (h : FundInv l) {account : String} (hnew : l.balances.get? account = none) :
    FundInv (l.registered py account) where
  branch id b hb := (h.branch id b hb).mono fun _ hk => hk
  excess_nonneg := h.excess_nonneg
  locked_le a := by
    refine (h.locked_le a).trans_eq ?_
    show _ = val ((l.balances.set account (ofInt 0)).getD a (ofInt 0))
    rw [Dict.getD_set]
    split_ifs with ha
    · rw [← ha, Dict.getD, hnew]; rfl
    · rfl

/-- What an overwritten branch has locked is nonnegative. -/
lemma overwrittenBy_nonneg (h : FundInv l) (py : PyLib ν) (sender receiver : String) (value : ν)
    (a : String) : 0 ≤ l.overwrittenBy py sender receiver value a := by
  unfold overwrittenBy
  cases hb : l.branches.get? (l.nextBranchId py sender receiver value) with
  | none => simp
  | some b => simpa using h.heldBy_nonneg a _ b hb

/-- An offer. -/
lemma opened (h : FundInv l) {sender receiver : String} {value ttl : ν}
    (hcan : l.CanOffer sender receiver value ttl) :
    FundInv (l.opened py sender receiver value ttl) := by
  constructor
  · intro id b hb
    rw [branches_opened, Dict.get?_set] at hb
    split_ifs at hb with hid
    · cases hb
      exact {
        value_pos := hcan.value_pos
        stake_eq := rfl
        sender_locked := fun _ => Dict.contains_iff.mpr ⟨_, Dict.get?_set_self _ _ _⟩
        committed := by simp [newBranch] }
    · exact (h.branch id b hb).mono fun _ => contains_set
  · intro a
    rw [excess_opened]
    exact add_nonneg (h.excess_nonneg a) (h.overwrittenBy_nonneg py sender receiver value a)
  · intro a
    rw [locked_opened]
    show _ ≤ val (l.balances.getD a (ofInt 0))
    split_ifs with ha
    · subst ha
      have hfunds := hcan.funds
      rw [available, PyNumber.val_sub] at hfunds
      linarith
    · simpa using h.locked_le a

/-- A branch that moves on with the same terms. -/
lemma restated (h : FundInv l) {branchId : String} {b b' : Branch ν}
    (hb : l.branches.get? branchId = some b) (hsender : b'.sender = b.sender)
    (hvalue : b'.value = b.value) (hstake : b'.stake = b.stake)
    (hactive : b'.state.active = b.state.active)
    (hcommitted : b'.state = .committed → ∃ r, b'.committedRound = some r) :
    FundInv (l.setBranch branchId b') := by
  constructor
  · intro id c hc
    rw [branches_setBranch, Dict.get?_set] at hc
    split_ifs at hc with heq
    · cases hc
      have hbi := h.branch branchId b hb
      exact {
        value_pos := hvalue ▸ hbi.value_pos
        stake_eq := by rw [hstake, hvalue, hbi.stake_eq]
        sender_locked := fun ha => hsender ▸ hbi.sender_locked (hactive ▸ ha)
        committed := hcommitted }
    · exact (h.branch id c hc).mono fun _ hk => hk
  · intro a
    rw [excess_restated hb hsender hvalue hstake hactive]
    exact h.excess_nonneg a
  · exact h.locked_le

/-- A branch that ends gives its funds back. -/
lemma released (h : FundInv l) {branchId : String} {b : Branch ν} {s : BranchState} {held : ν}
    (hb : l.branches.get? branchId = some b) (hactive : b.state.active = true)
    (hs : s.active = false) (hheld : l.locked.get? b.sender = some held) :
    FundInv (l.released branchId b s held) := by
  constructor
  · intro id c hc
    rw [branches_released, Dict.get?_set] at hc
    split_ifs at hc with heq
    · cases hc
      exact { h.branch branchId b hb with
        sender_locked := fun _ => Dict.contains_iff.mpr ⟨_, Dict.get?_set_self _ _ _⟩
        committed := by rintro rfl; cases hs }
    · exact (h.branch id c hc).mono fun _ => contains_set
  · intro a
    rw [excess_released hb hactive hs hheld]
    exact h.excess_nonneg a
  · intro a
    rw [locked_released hactive hheld]
    have := h.heldBy_nonneg a branchId b hb
    have := h.locked_le a
    show _ ≤ val (l.balances.getD a (ofInt 0))
    linarith

/-- A branch that is finalized moves its value and gives its funds back.

**Proof sketch.** Its funds are released as in `released`. The balance of the sender falls by at
most the value and its locked funds by twice the value; no other balance falls. -/
lemma settled (h : FundInv l) {branchId : String} {b : Branch ν} {balance held : ν}
    (hb : l.branches.get? branchId = some b) (hactive : b.state.active = true)
    (hbalance : l.balances.get? b.sender = some balance)
    (hheld : l.locked.get? b.sender = some held) :
    FundInv (l.settled py branchId b balance held) := by
  have hrel := h.released (s := .final) hb hactive rfl hheld
  have hbi := h.branch branchId b hb
  refine ⟨fun id c hc => (hrel.branch id c hc).mono fun _ hk => hk, hrel.excess_nonneg, fun a => ?_⟩
  have hold := h.locked_le a
  have hpos := hbi.value_pos
  have hdebited : ∀ c, val (l.balances.getD c (ofInt 0)) - (if b.sender = c then val b.value else 0) =
      val ((l.balances.set b.sender (balance - b.value)).getD c (ofInt 0)) := by
    intro c
    rw [Dict.getD_set]
    split_ifs with hc
    · rw [← hc, Dict.getD, hbalance, Option.getD_some, PyNumber.val_sub]
    · rw [sub_zero]
  show val ((l.released branchId b .final held).locked.getD a (ofInt 0)) ≤
    val ((l.transferred b balance).getD a (ofInt 0))
  rw [locked_released hactive hheld, heldBy_of_active hactive, hbi.stake_eq, transferred,
    Dict.getD_set]
  by_cases hr : b.receiver = a
  · rw [if_pos hr, PyNumber.val_add, hr, ← hdebited]
    split_ifs <;> linarith
  · rw [if_neg hr, ← hdebited]
    split_ifs <;> linarith

/-- A visit of a branch. -/
lemma turn (h : FundInv l) {branchId : String} {l' : Ledger ν}
    (ht : BranchTurn py l branchId l') : FundInv l' := by
  cases ht with
  | stay => exact h
  | expire b held hb hs _ hh => exact h.released hb (active_of_open hs) rfl hh
  | final b _ balance held hb hs _ _ hbal hh => exact h.settled hb (by rw [hs]; rfl) hbal hh

end FundInv

namespace LockInv

variable {py : PyLib ν} {l : Ledger ν}

/-- The invariant is about balances, locked funds and branches. -/
lemma congr {l' : Ledger ν} (h : LockInv l) (hbal : l'.balances = l.balances)
    (hlock : l'.locked = l.locked) (hbr : l'.branches = l.branches) : LockInv l' :=
  have hfunds := h.funds.congr hbal hlock hbr
  ⟨fun id b hb => (h.branch id b (hbr ▸ hb)).mono (by simp [hbal]) (by simp [hlock]),
    hfunds.excess_nonneg, hfunds.locked_le⟩

/-- A new round. -/
lemma ticked (h : LockInv l) : LockInv l.ticked := h.congr rfl rfl rfl

/-- What an overwritten branch has locked is nonnegative. -/
lemma overwrittenBy_nonneg (h : LockInv l) (py : PyLib ν) (sender receiver : String) (value : ν)
    (a : String) : 0 ≤ l.overwrittenBy py sender receiver value a :=
  h.funds.overwrittenBy_nonneg py sender receiver value a

/-- A new account. -/
lemma registered (h : LockInv l) {account : String} (hnew : l.balances.get? account = none) :
    LockInv (l.registered py account) where
  branch id b hb := (h.branch id b hb).mono (fun _ => contains_set) fun _ hk => hk
  excess_nonneg := h.excess_nonneg
  locked_le := by
    have hfunds : FundInv (l.registered py account) := h.funds.registered hnew
    exact hfunds.locked_le

/-- An offer. -/
lemma opened (h : LockInv l) {sender receiver : String} {value ttl : ν}
    (hcan : l.CanOffer sender receiver value ttl) :
    LockInv (l.opened py sender receiver value ttl) where
  branch id b hb := by
    rw [branches_opened, Dict.get?_set] at hb
    split_ifs at hb with hid
    · cases hb
      exact {
        keyed := hid
        value_pos := hcan.value_pos
        stake_eq := rfl
        distinct := hcan.distinct
        receiver_known := hcan.known
        sender_locked := Dict.contains_iff.mpr ⟨_, Dict.get?_set_self _ _ _⟩
        committed := by simp [newBranch] }
    · exact (h.branch id b hb).mono (fun _ hk => hk) fun _ => contains_set
  excess_nonneg := by
    have hfunds : FundInv (l.opened py sender receiver value ttl) := h.funds.opened hcan
    exact hfunds.excess_nonneg
  locked_le := by
    have hfunds : FundInv (l.opened py sender receiver value ttl) := h.funds.opened hcan
    exact hfunds.locked_le

/-- A branch that moves on with the same terms. -/
lemma restated (h : LockInv l) {branchId : String} {b b' : Branch ν}
    (hb : l.branches.get? branchId = some b) (hid : b'.branchId = b.branchId)
    (hsender : b'.sender = b.sender) (hreceiver : b'.receiver = b.receiver)
    (hvalue : b'.value = b.value) (hstake : b'.stake = b.stake)
    (hactive : b'.state.active = b.state.active)
    (hcommitted : b'.state = .committed → ∃ r, b'.committedRound = some r) :
    LockInv (l.setBranch branchId b') := by
  have hfunds := h.funds.restated hb hsender hvalue hstake hactive hcommitted
  refine ⟨fun id c hc => ?_, hfunds.excess_nonneg, hfunds.locked_le⟩
  rw [branches_setBranch, Dict.get?_set] at hc
  split_ifs at hc with heq
  · cases hc
    subst heq
    have hbi := h.branch branchId b hb
    exact {
      keyed := hid.trans hbi.keyed
      value_pos := hvalue ▸ hbi.value_pos
      stake_eq := by rw [hstake, hvalue, hbi.stake_eq]
      distinct := by rw [hsender, hreceiver]; exact hbi.distinct
      receiver_known := hreceiver ▸ hbi.receiver_known
      sender_locked := hsender ▸ hbi.sender_locked
      committed := hcommitted }
  · exact (h.branch id c hc).mono (fun _ hk => hk) fun _ hk => hk

/-- A branch that ends gives its funds back. -/
lemma released (h : LockInv l) {branchId : String} {b : Branch ν} {s : BranchState} {held : ν}
    (hb : l.branches.get? branchId = some b) (hactive : b.state.active = true)
    (hs : s.active = false) (hheld : l.locked.get? b.sender = some held) :
    LockInv (l.released branchId b s held) := by
  have hfunds := h.funds.released hb hactive hs hheld
  refine ⟨fun id c hc => ?_, hfunds.excess_nonneg, hfunds.locked_le⟩
  rw [branches_released, Dict.get?_set] at hc
  split_ifs at hc with heq
  · cases hc
    subst heq
    exact { h.branch branchId b hb with
      sender_locked := Dict.contains_iff.mpr ⟨_, Dict.get?_set_self _ _ _⟩
      committed := by rintro rfl; cases hs }
  · exact (h.branch id c hc).mono (fun _ hk => hk) fun _ => contains_set

/-- A branch that is finalized moves its value and gives its funds back. -/
lemma settled (h : LockInv l) {branchId : String} {b : Branch ν} {balance held : ν}
    (hb : l.branches.get? branchId = some b) (hactive : b.state.active = true)
    (hbalance : l.balances.get? b.sender = some balance)
    (hheld : l.locked.get? b.sender = some held) :
    LockInv (l.settled py branchId b balance held) := by
  have hrel := h.released (s := .final) hb hactive rfl hheld
  have hfunds : FundInv (l.settled py branchId b balance held) :=
    h.funds.settled hb hactive hbalance hheld
  exact ⟨fun id c hc => (hrel.branch id c hc).mono (fun _ hk => contains_set (contains_set hk))
    fun _ hk => hk, hrel.excess_nonneg, hfunds.locked_le⟩

/-- A visit of a branch. -/
lemma turn (h : LockInv l) {branchId : String} {l' : Ledger ν}
    (ht : BranchTurn py l branchId l') : LockInv l' := by
  cases ht with
  | stay => exact h
  | expire b held hb hs _ hh => exact h.released hb (active_of_open hs) rfl hh
  | final b _ balance held hb hs _ _ hbal hh => exact h.settled hb (by rw [hs]; rfl) hbal hh

/-- **Every call keeps the lock invariant.** -/
theorem call (h : LockInv l) {c : Call ν} {l' : Ledger ν} (hc : l.call py c = .ok l') :
    LockInv l' := by
  refine call_induction hc h ?_ ?_ ?_ ?_ ?_ ?_ ?_
  · exact fun _ _ hnew => h.registered hnew
  · exact fun s r v t _ hcan => h.opened hcan
  · exact fun id b _ hb hs _ => h.restated hb rfl rfl rfl rfl rfl (by rw [hs]; rfl) (by simp)
  · exact fun id b _ _ hb hs _ => h.restated hb rfl rfl rfl rfl rfl (by rw [hs]; rfl) (by simp)
  · exact fun id _ b held _ hb hs _ hh => h.released hb (active_of_open hs) rfl hh
  · exact fun _ m _ _ _ hm => hm.ticked
  · exact fun _ m m' _ _ _ ht hm => hm.turn ht

end LockInv

/-- **Every call keeps the excess**, except for an offer that overwrites a branch. -/
theorem excess_call {py : PyLib ν} {l l' : Ledger ν} {c : Call ν} (hc : l.call py c = .ok l')
    (a : String) : l'.excess a = l.excess a ∨ ∃ s r v t, c = .offer s r v t ∧
      l.CanOffer s r v t ∧ l'.excess a = l.excess a + l.overwrittenBy py s r v a := by
  refine call_induction (I := fun m => m.excess a = l.excess a ∨ ∃ s r v t, c = .offer s r v t ∧
    l.CanOffer s r v t ∧ m.excess a = l.excess a + l.overwrittenBy py s r v a)
    hc (.inl rfl) ?_ ?_ ?_ ?_ ?_ ?_ ?_
  · exact fun _ _ _ => .inl rfl
  · exact fun s r v t hcall hcan => .inr ⟨s, r, v, t, hcall, hcan, excess_opened a⟩
  · intro branchId b _ hb hs _
    left
    refine excess_restated hb ?_ ?_ ?_ ?_
    · rfl
    · rfl
    · rfl
    · rw [hs]; rfl
  · intro branchId b payload _ hb hs _
    left
    refine excess_restated hb ?_ ?_ ?_ ?_
    · rfl
    · rfl
    · rfl
    · rw [hs]; rfl
  · exact fun _ _ _ _ _ hb hs _ hh => .inl (excess_released hb (active_of_open hs) rfl hh a)
  · exact fun _ _ _ _ _ hm => hm
  · rintro n m m' branchId rfl - ht (hm | ⟨_, _, _, _, h, -⟩)
    · left
      cases ht with
      | stay => exact hm
      | expire b _ hb hs _ hh => exact (excess_released hb (active_of_open hs) rfl hh a).trans hm
      | final b _ _ _ hb hs _ _ _ hh =>
        exact (excess_released hb (by rw [hs]; rfl) rfl hh a).trans hm
    · cases h

/-! ## Supply -/

/-- A transfer keeps the sum of the balances. -/
lemma sum_transferred {l : Ledger ν} {b : Branch ν} {balance : ν}
    (hbalance : l.balances.get? b.sender = some balance) :
    (l.transferred b balance).sum (fun _ v => val v) = l.supply := by
  have hdebit := Dict.sum_set_of_some (fun _ v => val v) (balance - b.value) hbalance
  rw [PyNumber.val_sub] at hdebit
  unfold transferred supply
  dsimp only
  generalize l.balances.set b.sender (balance - b.value) = debited at hdebit ⊢
  cases hr : debited.get? b.receiver with
  | none =>
    rw [Dict.sum_set_of_none _ _ hr, hdebit]
    simp [Dict.getD, hr]
  | some w =>
    rw [Dict.sum_set_of_some _ _ hr, hdebit]
    simp only [Dict.getD, hr, Option.getD_some, PyNumber.val_add]
    ring

/-- A visit of a branch keeps the supply. -/
lemma BranchTurn.supply_eq {py : PyLib ν} {l l' : Ledger ν} {branchId : String}
    (h : BranchTurn py l branchId l') : l'.supply = l.supply := by
  cases h with
  | stay => rfl
  | expire => rfl
  | final b _ balance held _ _ _ _ hbalance _ => exact sum_transferred hbalance

/-- **Every call keeps the supply.** -/
theorem supply_call {py : PyLib ν} {l l' : Ledger ν} {c : Call ν} (hc : l.call py c = .ok l') :
    l'.supply = l.supply := by
  refine call_induction (I := fun m => m.supply = l.supply) hc rfl ?_ ?_ ?_ ?_ ?_ ?_ ?_
  · intro account _ hnew
    show (l.balances.set account (ofInt 0)).sum _ = _
    rw [Dict.sum_set_of_none _ _ hnew]
    simp [supply]
  · exact fun _ _ _ _ _ _ => rfl
  · exact fun _ _ _ _ _ _ => rfl
  · exact fun _ _ _ _ _ _ _ => rfl
  · exact fun _ _ _ _ _ _ _ _ _ => rfl
  · exact fun _ _ _ _ _ hm => hm
  · exact fun _ _ _ _ _ _ ht hm => ht.supply_eq.trans hm

/-! ## Exceptions -/

/-- Every exception of a computation is a `ProtocolError`. -/
def RaisesProtocol {α : Type} (x : Except PyError α) : Prop :=
  RaisesOnly (fun e => e.isProtocol = true) x

/-- A sequence of computations that raise nothing else. -/
lemma RaisesProtocol.bind {α β : Type} {x : Except PyError α} {f : α → Except PyError β}
    (hx : RaisesProtocol x) (hf : ∀ a, x = .ok a → RaisesProtocol (f a)) :
    RaisesProtocol (x >>= f) := RaisesOnly.bind hx hf

lemma raisesProtocol_require (b : Bool) (m : String) : RaisesProtocol (require b (.protocol m)) :=
  raisesOnly_require rfl

lemma raisesProtocol_orRaise {α : Type} (o : Option α) (m : String) :
    RaisesProtocol (orRaise o (.protocol m)) := raisesOnly_orRaise rfl

lemma raisesProtocol_ok {α : Type} (a : α) : RaisesProtocol (.ok a) := raisesOnly_of_eq_ok rfl

omit [PyNumber ν] in
/-- Finding a named branch. -/
lemma raisesProtocol_branch (l : Ledger ν) (branchId : String) (states : List BranchState) :
    RaisesProtocol (l.branch branchId states) :=
  (raisesProtocol_orRaise _ _).bind fun _ _ =>
    (raisesProtocol_require _ _).bind fun _ _ => raisesProtocol_ok _

namespace FundInv

variable {py : PyLib ν} {l : Ledger ν}

/-- A visit of a branch raises nothing: the missing keys and the failed assertion the code
allows for do not occur. -/
lemma advanceBranch_returns (h : FundInv l) (py : PyLib ν) (branchId : String) :
    ∃ r, l.advanceBranch py branchId = .ok r := by
  unfold advanceBranch
  cases hb : l.branches.get? branchId with
  | none => exact ⟨_, rfl⟩
  | some b =>
    simp only
    cases hs : b.state with
    | offered | accepted =>
      obtain ⟨held, hh⟩ := h.exists_locked hb (by rw [hs]; rfl)
      have hexpire : (l.setBranch branchId { b with state := .expired }).unlock
          { b with state := .expired } = .ok (l.released branchId b .expired held) :=
        unlock_setBranch_eq_ok.mpr ⟨held, hh, rfl⟩
      simp only [hexpire]
      split_ifs
      · exact ⟨_, rfl⟩
      · exact ⟨_, rfl⟩
    | committed =>
      obtain ⟨r, hr⟩ := (h.branch branchId b hb).committed hs
      obtain ⟨held, hh⟩ := h.exists_locked hb (by rw [hs]; rfl)
      obtain ⟨balance, hbal⟩ := h.exists_balance hb (by rw [hs]; rfl)
      have hfinal := (finalize_eq_ok.mpr ⟨balance, held, hbal, hh, rfl, rfl⟩ :
        l.finalize py branchId b = .ok _)
      simp only [hr, orRaise, ok_bind, hfinal]
      split_ifs
      · exact ⟨_, rfl⟩
      · exact ⟨_, rfl⟩
    | final | cancelled | expired => exact ⟨_, rfl⟩

/-- The visits of a round raise nothing. -/
lemma advanceBranches_returns (h : FundInv l) (py : PyLib ν) (ids : List String) :
    ∃ r, advanceBranches py ids l = .ok r := by
  induction ids generalizing l with
  | nil => exact ⟨_, rfl⟩
  | cons branchId ids ih =>
    obtain ⟨⟨m, changed⟩, hm⟩ := h.advanceBranch_returns py branchId
    obtain ⟨⟨m', rest⟩, hm'⟩ := ih (h.turn (branchTurn_of_advanceBranch hm))
    exact ⟨(m', changed ++ rest), by simp only [advanceBranches, hm, ok_bind, hm']; rfl⟩

/-- The rounds of an `advance` raise nothing. -/
lemma advanceRounds_returns (h : FundInv l) (py : PyLib ν) (n : ℕ) :
    ∃ r, advanceRounds py n l = .ok r := by
  induction n generalizing l with
  | zero => exact ⟨_, rfl⟩
  | succ n ih =>
    obtain ⟨⟨m, changed⟩, hm⟩ := h.ticked.advanceBranches_returns py l.branches.keys
    have hinv := (advanceBranches_induction hm h.ticked fun _ _ _ _ ht hi => hi.turn ht).1
    obtain ⟨⟨m', rest⟩, hm'⟩ := ih hinv
    refine ⟨(m', changed ++ rest), ?_⟩
    unfold Ledger.ticked at hm
    simp only [advanceRounds, hm, ok_bind, hm']
    rfl

/-- An advance returns. -/
lemma exists_advance (h : FundInv l) (py : PyLib ν) {rounds : ℤ} (hpos : 1 ≤ rounds) :
    ∃ m, l.call py (.advance rounds) = .ok m := by
  obtain ⟨⟨m, changed⟩, hm⟩ := h.advanceRounds_returns py rounds.toNat
  have hn : ¬ rounds < 1 := by omega
  refine ⟨m, ?_⟩
  simp only [Ledger.call, advance, require, hn, decide_false, Bool.not_false, if_true, ok_bind, hm]
  rfl

/-- **A call on a ledger with the fund invariant raises nothing but `ProtocolError`.** -/
theorem raisesProtocol_call (h : FundInv l) (c : Call ν) : RaisesProtocol (l.call py c) := by
  cases c with
  | register => exact (raisesProtocol_require _ _).bind fun _ _ => raisesProtocol_ok _
  | offer =>
    refine RaisesOnly.map ?_ _
    exact (raisesProtocol_require _ _).bind fun _ _ => (raisesProtocol_require _ _).bind fun _ _ =>
      (raisesProtocol_require _ _).bind fun _ _ => (raisesProtocol_require _ _).bind fun _ _ =>
      (raisesProtocol_require _ _).bind fun _ _ => raisesProtocol_ok _
  | accept | commit =>
    refine RaisesOnly.map ?_ _
    exact (raisesProtocol_branch _ _ _).bind fun _ _ => (raisesProtocol_require _ _).bind
      fun _ _ => (raisesProtocol_require _ _).bind fun _ _ => raisesProtocol_ok _
  | cancel branchId actor =>
    refine RaisesOnly.map ((raisesProtocol_branch _ _ _).bind fun b hb =>
      (raisesProtocol_require _ _).bind fun _ _ =>
        RaisesProtocol.bind ?_ fun _ _ => raisesProtocol_ok _) _
    obtain ⟨hget, hs⟩ := branch_eq_ok.mp hb
    obtain ⟨held, hh⟩ := h.exists_locked hget (active_of_open (by simpa using hs))
    exact raisesOnly_of_eq_ok (unlock_setBranch_eq_ok.mpr ⟨held, hh, rfl⟩)
  | advance rounds =>
    refine RaisesOnly.map ((raisesProtocol_require _ _).bind fun _ _ => ?_) _
    obtain ⟨r, hr⟩ := h.advanceRounds_returns py rounds.toNat
    exact raisesOnly_of_eq_ok hr

end FundInv

/-- An advance returns. -/
lemma LockInv.exists_advance {l : Ledger ν} (h : LockInv l) (py : PyLib ν) {rounds : ℤ}
    (hpos : 1 ≤ rounds) : ∃ m, l.call py (.advance rounds) = .ok m := h.funds.exists_advance py hpos

/-- **A call on a ledger with the lock invariant raises nothing but `ProtocolError`.** -/
theorem LockInv.raisesProtocol_call {py : PyLib ν} {l : Ledger ν} (h : LockInv l) (c : Call ν) :
    RaisesProtocol (l.call py c) := h.funds.raisesProtocol_call c

end Ledger

end SplitChain
