import SplitChain.Model.Runs

set_option relaxedAutoImplicit false
set_option autoImplicit false

/-!
# Snapshots

A ledger is saved and copied as a snapshot and restored by `from_snapshot`, which rechecks the
invariants of the ledger at the trust boundary. A `Snapshot` has the parts of the document that
`from_snapshot` reads, each of the type `snapshot` writes.

## Main definitions

* `SplitChain.Snapshot`, `SplitChain.Ledger.snapshot`.
* `SplitChain.Ledger.validateRestoredState`, `SplitChain.Ledger.fromSnapshot`.
* `SplitChain.Ledger.Restorable` — what the validation checks.

## Main results

* `SplitChain.Ledger.validateRestoredState_eq_ok` — the validation accepts exactly the
  `Restorable` ledgers.
-/

namespace SplitChain

open Raise

open PyNumber (val ofInt trunc)

/-- The parts of a snapshot document. -/
structure Snapshot (ν : Type) where
  schema : String
  round : ν
  headHeight : ν
  headDigest : String
  balances : Dict String ν
  locked : Dict String ν
  branches : List (Branch ν)
  finalized : List Finalized
  canonicalHistory : Dict String String
  genesis : Option (Json ν)
deriving DecidableEq

namespace Ledger

variable {ν : Type} [PyNumber ν]

/-- The snapshot of a ledger. -/
def snapshot (l : Ledger ν) : Snapshot ν where
  schema := "splitchain-ledger/v1"
  round := ofInt l.round
  headHeight := ofInt l.canonicalHeight
  headDigest := l.canonicalDigest
  balances := l.balances.sorted
  locked := l.locked.sorted
  branches := l.branches.values
  finalized := l.finalized
  canonicalHistory := Dict.ofList (l.canonicalHistory.sorted.entries.map fun p => (toString p.1, p.2))
  genesis := l.genesis.map GenesisConfig.publicForm

/-! ## Validation -/

/-- The checks of a ledger that depend on its genesis configuration. -/
def validateGenesis (py : PyLib ν) (l : Ledger ν) : Option GenesisConfig → Except PyError Unit
  | none => .ok ()
  | some g => do
    require (l.canonicalHistory.get? 0 == some (g.digest py))
      (.protocol "snapshot genesis digest mismatch")
    require (l.supply == (g.allocations.sum fun _ v => v : ℤ))
      (.protocol "snapshot violates genesis supply")
    require (g.allocations.entries.all fun p => !decide (p.1 ∈ g.lockedAccounts) ||
        (l.balances.get? p.1).any fun v => val v == p.2)
      (.protocol "snapshot changed locked reserve")
    require (l.branches.values.all fun b => !decide (b.sender ∈ g.lockedAccounts))
      (.protocol "locked reserve appears in branch history")

/-- The checks of the branches, which add up the funds the active ones hold. -/
def checkBranches (l : Ledger ν) :
    List (Branch ν) → Dict String ν → Except PyError (Dict String ν)
  | [], expected => .ok expected
  | b :: bs, expected => do
    require (!(decide (val b.value ≤ 0) || val b.stake != val b.value))
      (.protocol "snapshot violates equal branch stake")
    require (l.canonicalHistory.get? b.originHeight == some b.originDigest)
      (.protocol "branch origin is not canonical")
    checkBranches l bs (if b.state.active then
      expected.set b.sender (expected.getD b.sender (ofInt 0) + b.value + b.stake) else expected)

/-- `_validate_restored_state` -/
def validateRestoredState (py : PyLib ν) (l : Ledger ν) : Except PyError Unit := do
  l.validateGenesis py l.genesis
  require (decide (0 ≤ l.round) && decide (0 ≤ l.canonicalHeight))
    (.protocol "negative snapshot counter")
  require (l.canonicalHistory.get? l.canonicalHeight == some l.canonicalDigest)
    (.protocol "canonical head is not present in history")
  require (l.balances.values.all fun v => decide (0 ≤ val v))
    (.protocol "snapshot contains a negative balance")
  let expected ← l.checkBranches l.branches.values ∅
  require (expected.eqvBy (fun v w => val v == val w) (l.locked.filterVal fun v => val v != 0))
    (.protocol "snapshot locked funds do not match active branches")
  require ((l.balances.keys ++ l.locked.keys).all fun a => decide (0 ≤ val (l.available a)))
    (.protocol "snapshot over-locks an account")

/-- The heights of a canonical history, parsed. -/
def parseHistory (py : PyLib ν) (history : Dict String String) : Option (Dict ℤ String) :=
  (history.entries.mapM fun p => (py.intOfString p.1).map fun height => (height, p.2)).map
    Dict.ofList

/-- Restore a ledger while rechecking its invariants. -/
def fromSnapshot (py : PyLib ν) (snapshot : Snapshot ν) (expectedGenesis : Option GenesisConfig) :
    Except PyError (Ledger ν) := do
  require (snapshot.schema == "splitchain-ledger/v1")
    (.protocol "unsupported ledger snapshot schema")
  let genesis ← snapshot.genesis.mapM GenesisConfig.fromDict
  require (expectedGenesis.all fun expected => genesis.any fun g => g.eqv expected)
    (.protocol "snapshot genesis differs from configured network")
  require (genesis.isNone || snapshot.balances.values.all fun v => (PyNumber.int? v).isSome)
    (.protocol "invalid genesis snapshot balances")
  let history ← orRaise (parseHistory py snapshot.canonicalHistory)
    (.protocol "invalid ledger snapshot")
  let ledger : Ledger ν := {
    genesis := genesis
    round := trunc snapshot.round
    balances := snapshot.balances
    locked := snapshot.locked.mapVal fun v => ofInt (trunc v)
    branches := Dict.ofList (snapshot.branches.map fun b => (b.branchId, b))
    finalized := snapshot.finalized
    canonicalHeight := trunc snapshot.headHeight
    canonicalDigest := snapshot.headDigest
    canonicalHistory := history }
  ledger.validateRestoredState py
  return ledger

/-! ## What the validation checks -/

/-- What the validation checks of a ledger with a genesis configuration. -/
structure GenesisRestorable (py : PyLib ν) (l : Ledger ν) (g : GenesisConfig) : Prop where
  digest : l.canonicalHistory.get? 0 = some (g.digest py)
  supply : l.supply = (g.allocations.sum fun _ v => v : ℤ)
  reserve : ∀ a n, g.allocations.get? a = some n → a ∈ g.lockedAccounts →
    ∃ v, l.balances.get? a = some v ∧ val v = n
  senders : ∀ branchId b, l.branches.get? branchId = some b → b.sender ∉ g.lockedAccounts

/-- What the validation checks of every ledger. -/
structure Restorable (py : PyLib ν) (l : Ledger ν) : Prop where
  genesis : ∀ g, l.genesis = some g → l.GenesisRestorable py g
  round_nonneg : 0 ≤ l.round
  height_nonneg : 0 ≤ l.canonicalHeight
  head : l.canonicalHistory.get? l.canonicalHeight = some l.canonicalDigest
  balance_nonneg : ∀ a v, l.balances.get? a = some v → 0 ≤ val v
  branch : ∀ branchId b, l.branches.get? branchId = some b →
    (0 < val b.value ∧ val b.stake = val b.value) ∧
      l.canonicalHistory.get? b.originHeight = some b.originDigest
  excess : ∀ a, l.excess a = 0
  locked_le : ∀ a, val (l.locked.getD a (ofInt 0)) ≤ val (l.balances.getD a (ofInt 0))

/-- The genesis checks accept exactly this. -/
lemma validateGenesis_eq_ok {py : PyLib ν} {l : Ledger ν} {genesis : Option GenesisConfig}
    {u : Unit} : l.validateGenesis py genesis = .ok u ↔
      ∀ g, genesis = some g → l.GenesisRestorable py g := by
  cases genesis with
  | none => simp [validateGenesis]
  | some g =>
    simp only [validateGenesis, bind_eq_ok, require_eq_ok, exists_const, beq_iff_eq,
      List.all_eq_true, Bool.or_eq_true, Bool.not_eq_true', decide_eq_false_iff_not,
      Option.any_eq_true, Prod.forall, Option.some.injEq, forall_eq']
    constructor
    · rintro ⟨h1, h2, h3, h4⟩
      refine ⟨h1, h2, fun a n ha hmem => ?_, fun id b hb => h4 b (Dict.mem_values_iff.mpr ⟨id, hb⟩)⟩
      exact (h3 a n (Dict.get?_eq_some_iff.mp ha)).resolve_left (not_not_intro hmem)
    · rintro ⟨h1, h2, h3, h4⟩
      refine ⟨h1, h2, fun a n ha => ?_, fun b hb => ?_⟩
      · by_cases hmem : a ∈ g.lockedAccounts
        · exact .inr (h3 a n (Dict.get?_eq_some_iff.mpr ha) hmem)
        · exact .inl hmem
      · obtain ⟨id, hid⟩ := Dict.mem_values_iff.mp hb
        exact h4 id b hid

/-- The funds that a list of branches holds of the accounts, on top of `expected`. -/
def expectedLocked (bs : List (Branch ν)) (expected : Dict String ν) : Dict String ν :=
  bs.foldl (fun d b => if b.state.active then
    d.set b.sender (d.getD b.sender (ofInt 0) + b.value + b.stake) else d) expected

/-- The branch checks accept branches with equal positive stakes and canonical origins. -/
lemma checkBranches_eq_ok {l : Ledger ν} {bs : List (Branch ν)} {expected d : Dict String ν} :
    l.checkBranches bs expected = .ok d ↔
      (∀ b ∈ bs, (0 < val b.value ∧ val b.stake = val b.value) ∧
        l.canonicalHistory.get? b.originHeight = some b.originDigest) ∧
      d = expectedLocked bs expected := by
  induction bs generalizing expected with
  | nil =>
    simp only [checkBranches, Except.ok.injEq, List.not_mem_nil, false_implies, implies_true,
      true_and]
    exact eq_comm
  | cons b bs ih =>
    simp only [checkBranches, bind_eq_ok, require_eq_ok, exists_const, ih, List.forall_mem_cons,
      Bool.not_eq_true', Bool.or_eq_false_iff, decide_eq_false_iff_not, not_le,
      bne_eq_false_iff_eq, beq_iff_eq, and_assoc]
    rfl

/-- The funds expected to be locked, as a sum. -/
lemma val_expectedLocked (bs : List (Branch ν)) (expected : Dict String ν) (a : String) :
    val ((expectedLocked bs expected).getD a (ofInt 0)) =
      val (expected.getD a (ofInt 0)) + (bs.map (heldBy a)).sum := by
  induction bs generalizing expected with
  | nil => simp [expectedLocked]
  | cons b bs ih =>
    have hone : val ((if b.state.active = true then
        expected.set b.sender (expected.getD b.sender (ofInt 0) + b.value + b.stake)
        else expected).getD a (ofInt 0)) = val (expected.getD a (ofInt 0)) + heldBy a b := by
      by_cases hactive : b.state.active = true
      · rw [if_pos hactive, Dict.getD_set, heldBy_of_active hactive]
        split_ifs with ha
        · subst ha; rw [PyNumber.val_add, PyNumber.val_add, add_assoc]
        · simp
      · rw [if_neg hactive, heldBy_of_inactive (by simpa using hactive), add_zero]
    calc val ((expectedLocked (b :: bs) expected).getD a (ofInt 0))
        = val ((expectedLocked bs (if b.state.active = true then
            expected.set b.sender (expected.getD b.sender (ofInt 0) + b.value + b.stake)
            else expected)).getD a (ofInt 0)) := rfl
      _ = val (expected.getD a (ofInt 0)) + ((b :: bs).map (heldBy a)).sum := by
          rw [ih, hone, List.map_cons, List.sum_cons, add_assoc]

/-- The funds expected to be locked are positive where there are any. -/
lemma expectedLocked_pos {bs : List (Branch ν)} {expected : Dict String ν}
    (hbs : ∀ b ∈ bs, 0 < val b.value ∧ val b.stake = val b.value)
    (hpos : ∀ a v, expected.get? a = some v → 0 < val v) {a : String} {v : ν}
    (h : (expectedLocked bs expected).get? a = some v) : 0 < val v := by
  induction bs generalizing expected with
  | nil => exact hpos a v h
  | cons b bs ih =>
    obtain ⟨⟨hvalue, hstake⟩, hbs⟩ := List.forall_mem_cons.mp hbs
    have hold : 0 ≤ val (expected.getD b.sender (ofInt 0)) := by
      unfold Dict.getD
      cases hb : expected.get? b.sender with
      | none => simp
      | some w => simpa using (hpos _ w hb).le
    refine ih hbs (fun a w hw => ?_) h
    dsimp only at hw
    split_ifs at hw
    · rw [Dict.get?_set] at hw
      split_ifs at hw
      · simp only [Option.some.injEq] at hw
        rw [← hw, PyNumber.val_add, PyNumber.val_add, hstake]
        linarith
      · exact hpos a w hw
    · exact hpos a w hw

/-- The locked funds match what the active branches hold exactly when there is no excess. -/
lemma eqvBy_expectedLocked {l : Ledger ν}
    (hbs : ∀ b ∈ l.branches.values, 0 < val b.value ∧ val b.stake = val b.value) :
    ((expectedLocked l.branches.values ∅).eqvBy (fun v w => val v == val w)
      (l.locked.filterVal fun v => val v != 0)) = true ↔ ∀ a, l.excess a = 0 := by
  rw [Dict.eqvBy_iff]
  refine forall_congr' fun a => ?_
  have hpos : ∀ {v}, (expectedLocked l.branches.values ∅).get? a = some v → 0 < val v :=
    expectedLocked_pos hbs fun a v h => by cases h
  have hsum := val_expectedLocked l.branches.values ∅ a
  have hheld : (l.branches.values.map (heldBy a)).sum = l.lockedBy a := by
    unfold lockedBy Dict.sum Dict.values
    rw [List.map_map]
    rfl
  have hempty : val ((∅ : Dict String ν).getD a (ofInt 0)) = 0 := by
    rw [Dict.getD, Dict.get?_empty, Option.getD_none, PyNumber.val_ofInt, Int.cast_zero]
  rw [hheld, hempty, zero_add] at hsum
  rw [Dict.get?_filterVal, excess, ← hsum, Dict.getD, Dict.getD, sub_eq_zero]
  have hfilter : ∀ w : ν, (some w).filter (fun v => val v != 0) = if val w = 0 then none else some w := by
    intro w
    by_cases hw : val w = 0 <;> simp [Option.filter, hw]
  cases he : (expectedLocked l.branches.values ∅).get? a with
  | none =>
    cases hl : l.locked.get? a with
    | none => simp
    | some w => rw [hfilter]; by_cases hw : val w = 0 <;> simp [hw]
  | some v =>
    have hv := (hpos he).ne
    cases hl : l.locked.get? a with
    | none => simpa using hv
    | some w =>
      rw [hfilter]
      by_cases hw : val w = 0
      · simpa [hw] using hv
      · rw [if_neg hw, Option.rel_some_some, Option.getD_some, Option.getD_some, beq_iff_eq]
        exact eq_comm

/-- **The validation accepts exactly the restorable ledgers.**

**Proof sketch.** Each check is one field of `Restorable`. The locked funds are compared entry by
entry, but both sides have only positive entries, so the comparison is that of the amounts. -/
theorem validateRestoredState_eq_ok {py : PyLib ν} {l : Ledger ν} {u : Unit} :
    l.validateRestoredState py = .ok u ↔ l.Restorable py := by
  have hfunds : (∀ a ∈ l.balances.keys ++ l.locked.keys, 0 ≤ val (l.available a)) ↔
      ∀ a, val (l.locked.getD a (ofInt 0)) ≤ val (l.balances.getD a (ofInt 0)) := by
    constructor
    · intro h a
      by_cases ha : a ∈ l.balances.keys ++ l.locked.keys
      · have := h a ha
        rw [available, PyNumber.val_sub] at this
        linarith
      · rw [List.mem_append, not_or, ← Dict.get?_eq_none_iff, ← Dict.get?_eq_none_iff] at ha
        rw [Dict.getD, Dict.getD, ha.1, ha.2]
    · intro h a _
      rw [available, PyNumber.val_sub]
      linarith [h a]
  unfold validateRestoredState
  simp only [bind_eq_ok, require_eq_ok, validateGenesis_eq_ok, checkBranches_eq_ok,
    Bool.and_eq_true, decide_eq_true_eq, beq_iff_eq, List.all_eq_true, exists_const]
  constructor
  · rintro ⟨hg, ⟨hround, hheight⟩, hhead, hbal, _, ⟨hbs, rfl⟩, hlocked, havail⟩
    exact {
      genesis := hg
      round_nonneg := hround
      height_nonneg := hheight
      head := hhead
      balance_nonneg := fun a v hv => hbal v (Dict.mem_values_iff.mpr ⟨a, hv⟩)
      branch := fun id b hb => hbs b (Dict.mem_values_iff.mpr ⟨id, hb⟩)
      excess := (eqvBy_expectedLocked fun b hb => (hbs b hb).1).mp hlocked
      locked_le := hfunds.mp havail }
  · intro h
    have hbs : ∀ b ∈ l.branches.values, (0 < val b.value ∧ val b.stake = val b.value) ∧
        l.canonicalHistory.get? b.originHeight = some b.originDigest := by
      intro b hb
      obtain ⟨id, hid⟩ := Dict.mem_values_iff.mp hb
      exact h.branch id b hid
    refine ⟨h.genesis, ⟨h.round_nonneg, h.height_nonneg⟩, h.head, fun v hv => ?_,
      _, ⟨hbs, rfl⟩, (eqvBy_expectedLocked fun b hb => (hbs b hb).1).mpr h.excess,
      hfunds.mpr h.locked_le⟩
    obtain ⟨a, ha⟩ := Dict.mem_values_iff.mp hv
    exact h.balance_nonneg a v ha

end Ledger

end SplitChain
