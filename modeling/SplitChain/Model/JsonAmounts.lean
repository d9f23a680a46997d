import SplitChain.Model.ReferenceNode
import SplitChain.Model.Restore

set_option relaxedAutoImplicit false
set_option autoImplicit false

/-!
# Amounts decoded from JSON

A client chooses the type of the numbers it sends: an amount may be a boolean, an integer or a
float, and no operation of the ledger checks which. This file settles on which runs of a node the
ledger stays restorable from its snapshot.

## Main definitions

* `SplitChain.Snapshot.Equal` — equality of snapshots as the interpreter compares numbers.
* `SplitChain.Ledger.Restores` — a ledger is restored from its snapshot with an equal snapshot.
* `SplitChain.Ledger.KeepsAmounts` — the condition on a call.

## Main results

* `SplitChain.Ledger.Sound.call`, `SplitChain.Ledger.Sound.not_restores` — a call keeps the ledger
  restorable exactly under the condition.
-/

namespace SplitChain

open Raise

open PyNumber (val ofInt trunc)

/-! ## Equal snapshots -/

section Equal

variable {ν : Type} [PyNumber ν]

/-- A branch with its amounts replaced. -/
def Branch.mapAmounts {μ : Type} (f : ν → μ) (b : Branch ν) : Branch μ :=
  { b with value := f b.value, stake := f b.stake, expiresRound := f b.expiresRound }

/-- Equality of snapshots: numbers are compared by value, whatever their type. -/
structure Snapshot.Equal (s t : Snapshot ν) : Prop where
  schema : s.schema = t.schema
  round : val s.round = val t.round
  headHeight : val s.headHeight = val t.headHeight
  headDigest : s.headDigest = t.headDigest
  balances : s.balances.mapVal val = t.balances.mapVal val
  locked : s.locked.mapVal val = t.locked.mapVal val
  branches : s.branches.map (Branch.mapAmounts val) = t.branches.map (Branch.mapAmounts val)
  finalized : s.finalized = t.finalized
  canonicalHistory : s.canonicalHistory = t.canonicalHistory
  genesis : s.genesis = t.genesis

namespace Ledger

/-- Truncation does not change integral amounts, so a reloaded ledger has an equal snapshot. -/
lemma equal_snapshot_reloaded {l : Ledger ν}
    (h : ∀ a v, l.locked.get? a = some v → val v = trunc v) :
    l.reloaded.snapshot.Equal l.snapshot where
  schema := rfl
  round := rfl
  headHeight := rfl
  headDigest := rfl
  balances := by simp [snapshot, reloaded]
  locked := by
    show (((l.locked.sorted.mapVal fun v => ofInt (trunc v)).sorted).mapVal val) =
      l.locked.sorted.mapVal val
    rw [Dict.sorted_mapVal_sorted, Dict.mapVal_mapVal]
    refine Dict.mapVal_congr fun a v hv => ?_
    rw [Dict.get?_sorted] at hv
    rw [PyNumber.val_ofInt, h a v hv]
  branches := rfl
  finalized := rfl
  canonicalHistory := by simp [snapshot, reloaded]
  genesis := by
    cases hg : l.genesis with
    | none => simp [snapshot, reloaded, hg]
    | some g => simp [snapshot, reloaded, hg, GenesisConfig.publicForm]

/-- The ledger is restored from its own snapshot, with an equal snapshot. -/
def Restores (py : PyLib ν) (l : Ledger ν) : Prop :=
  ∃ l', fromSnapshot py l.snapshot none = .ok l' ∧ l'.snapshot.Equal l.snapshot

end Ledger

end Equal

/-! ## Integral amounts -/

/-- A value that is an integer. -/
def Integral (q : ℚ) : Prop := ∃ k : ℤ, q = k

/-- Sums of integers are integers. -/
lemma Integral.list_sum {qs : List ℚ} (h : ∀ q ∈ qs, Integral q) : Integral qs.sum := by
  induction qs with
  | nil => exact ⟨0, by simp⟩
  | cons q qs ih =>
    obtain ⟨⟨k, hk⟩, hqs⟩ := List.forall_mem_cons.mp h
    obtain ⟨m, hm⟩ := ih hqs
    exact ⟨k + m, by rw [List.sum_cons, hk, hm, Int.cast_add]⟩

namespace Ledger

/-- The condition on a call: it overwrites no active branch and gives nothing to a locked account;
twice the value of an offer is integral; and where there is a genesis configuration, an advance
finalizes no branch whose value is a float. -/
structure KeepsAmounts (py : PyLib JsonNum) (l : Ledger JsonNum) (c : Call JsonNum) : Prop where
  overwrites : OverwritesNoActive py l c
  reserve : KeepsReserve l c
  integral : ∀ sender receiver value ttl, c = .offer sender receiver value ttl →
    l.CanOffer sender receiver value ttl → Integral (val value + val value)
  typed : l.genesis.isSome = true → ∀ rounds, c = .advance rounds → 1 ≤ rounds →
    ∀ branchId b r, l.branches.get? branchId = some b → b.state = .committed →
      b.committedRound = some r → finalityRounds ≤ l.round + rounds - r → b.value.index?.isSome = true

/-- **The invariant of restorable ledgers**: besides the funds and the records, amounts that
truncation does not change. -/
structure Sound (genesis : Option GenesisConfig) (base : String) (l : Ledger JsonNum) : Prop where
  lock : LockInv l
  record : RecordInv genesis base l
  supply : ∀ g, genesis = some g → l.supply = (g.allocations.sum fun _ v => v : ℤ)
  excess : ∀ a, l.excess a = 0
  integral : ∀ branchId b, l.branches.get? branchId = some b → Integral (val b.value + val b.value)
  typed : l.BalancesTyped
  reserve : ∀ g a n, genesis = some g → g.allocations.get? a = some n → a ∈ g.lockedAccounts →
    val (l.balances.getD a (ofInt 0)) = n

/-- A genesis configuration that was accepted, with its digest. -/
def Configured (py : PyLib JsonNum) (genesis : Option GenesisConfig) (base : String) : Prop :=
  ∀ g, genesis = some g → g.Valid ∧ base = g.digest py

section Restoring

variable {py : PyLib JsonNum} {l l' : Ledger JsonNum} {genesis : Option GenesisConfig}
  {base : String} {c : Call JsonNum}

/-- **When a ledger with the invariants of funds and records is restored from its snapshot**, as
far as the restore itself goes. -/
lemma exists_fromSnapshot_iff (hconf : Configured py genesis base) (hinv : LockInv l)
    (hrec : RecordInv genesis base l)
    (hsupply : ∀ g, genesis = some g → l.supply = (g.allocations.sum fun _ v => v : ℤ)) :
    (∃ l', fromSnapshot py l.snapshot none = .ok l') ↔ l.BalancesTyped ∧
      (∀ a, (trunc (l.locked.getD a (ofInt 0)) : ℚ) = l.lockedBy a) ∧
      ∀ g a n, genesis = some g → g.allocations.get? a = some n → a ∈ g.lockedAccounts →
        val (l.balances.getD a (ofInt 0)) = n := by
  have hvalid : l.ValidGenesis := fun g hg => (hconf g (hrec.genesis_eq ▸ hg)).1
  have hreload := fun l' : Ledger JsonNum =>
    fromSnapshot_snapshot py l' hinv hvalid none fun _ h => by cases h
  rw [← restorable_reloaded_iff py hinv hrec (fun g hg => (hconf g hg).2) hsupply]
  constructor
  · rintro ⟨l', hl'⟩
    exact ((hreload l').mp hl').1
  · intro h
    exact ⟨l.reloaded, (hreload _).mpr ⟨h, rfl⟩⟩

/-- What is locked in integral parts is integral. -/
lemma integral_lockedBy (h : ∀ branchId b, l.branches.get? branchId = some b →
    Integral (val b.value + val b.value)) (hinv : LockInv l) (a : String) :
    Integral (l.lockedBy a) := by
  refine Integral.list_sum fun q hq => ?_
  obtain ⟨p, hp, rfl⟩ := List.mem_map.mp hq
  have hb := Dict.get?_eq_some_iff.mpr hp
  show Integral (heldBy a p.2)
  unfold heldBy
  split_ifs
  · rw [(hinv.branch p.1 p.2 hb).stake_eq]
    exact h p.1 p.2 hb
  · exact ⟨0, by simp⟩

/-- **A sound ledger is restored from its snapshot.** -/
theorem Sound.restores (h : Sound genesis base l) (hconf : Configured py genesis base) :
    l.Restores py := by
  have hlocked : ∀ a, val (l.locked.getD a (ofInt 0)) = l.lockedBy a := fun a =>
    sub_eq_zero.mp (h.excess a)
  have htrunc : ∀ a, val (l.locked.getD a (ofInt 0)) = trunc (l.locked.getD a (ofInt 0)) := by
    intro a
    rw [PyNumber.val_eq_trunc_iff, hlocked]
    exact integral_lockedBy h.integral h.lock a
  obtain ⟨l', hl'⟩ := (exists_fromSnapshot_iff hconf h.lock h.record h.supply).mpr
    ⟨h.typed, fun a => by rw [← htrunc, hlocked], h.reserve⟩
  have hvalid : l.ValidGenesis := fun g hg => (hconf g (h.record.genesis_eq ▸ hg)).1
  obtain ⟨-, rfl⟩ := (fromSnapshot_snapshot py l' h.lock hvalid none fun _ h => by cases h).mp hl'
  refine ⟨_, hl', equal_snapshot_reloaded fun a v hv => ?_⟩
  simpa [Dict.getD, hv] using htrunc a

end Restoring

/-! ## Balances of type `int` -/

section Typed

variable {py : PyLib JsonNum} {l l' : Ledger JsonNum} {c : Call JsonNum}

/-- All balances are of type `int`. -/
def Typed (l : Ledger JsonNum) : Prop :=
  ∀ a v, l.balances.get? a = some v → (PyNumber.int? v).isSome = true

/-- A typed balance is not a float, whether or not the account exists. -/
lemma Typed.isSome_index? (h : l.Typed) (a : String) :
    (l.balances.getD a (ofInt 0)).index?.isSome = true := by
  unfold Dict.getD
  cases ha : l.balances.get? a with
  | none => rfl
  | some v => exact JsonNum.isSome_index?_of_int? (h a v ha)

/-- Settling a branch whose value is not a float keeps the balances typed. -/
lemma Typed.settled (h : l.Typed) {branchId : String} {b : Branch JsonNum} {balance held : JsonNum}
    (hbalance : l.balances.get? b.sender = some balance) (hvalue : b.value.index?.isSome = true) :
    (l.settled py branchId b balance held).Typed := by
  have hdebit : ∀ v : JsonNum, v.index?.isSome = true → (PyNumber.int? (v - b.value)).isSome = true :=
    fun v hv => (JsonNum.isSome_int?_op v b.value).trans (by rw [hv, hvalue]; rfl)
  have hcredit : ∀ v : JsonNum, v.index?.isSome = true → (PyNumber.int? (v + b.value)).isSome = true :=
    fun v hv => (JsonNum.isSome_int?_op v b.value).trans (by rw [hv, hvalue]; rfl)
  have hsender : (PyNumber.int? (balance - b.value)).isSome = true :=
    hdebit _ (JsonNum.isSome_index?_of_int? (h _ _ hbalance))
  intro a v hv
  rw [balances_settled, transferred, Dict.get?_set] at hv
  split_ifs at hv with hreceiver
  · cases hv
    refine hcredit _ ?_
    rw [Dict.getD_set]
    split_ifs
    · exact JsonNum.isSome_index?_of_int? hsender
    · exact h.isSome_index? _
  · rw [Dict.get?_set] at hv
    split_ifs at hv
    · cases hv; exact hsender
    · exact h a v hv

/-- A visit of a branch whose value, if it is due, is not a float. -/
lemma Typed.turn (h : l.Typed) {branchId : String} (ht : BranchTurn py l branchId l')
    (hvalue : ∀ b r, l.branches.get? branchId = some b → b.state = .committed →
      b.committedRound = some r → finalityRounds ≤ l.round - r → b.value.index?.isSome = true) :
    l'.Typed := by
  cases ht with
  | stay => exact h
  | expire => exact h
  | final b r balance held hb hs hr hdue hbalance _ =>
    exact h.settled hbalance (hvalue b r hb hs hr hdue)

/-- **Keeping the types.** A call that settles no float keeps the balances typed. -/
lemma Typed.call (h : l.Typed) (hc : l.call py c = .ok l')
    (hkeeps : ∀ rounds, c = .advance rounds → 1 ≤ rounds → ∀ branchId b r,
      l.branches.get? branchId = some b → b.state = .committed → b.committedRound = some r →
        finalityRounds ≤ l.round + rounds - r → b.value.index?.isSome = true) : l'.Typed := by
  by_cases hadv : ∃ rounds, c = .advance rounds
  · obtain ⟨rounds, rfl⟩ := hadv
    refine (advance_induction (I := fun m => m.Typed ∧ ∀ id b, m.branches.get? id = some b →
      b.state = .committed → l.branches.get? id = some b) hc ⟨h, fun _ _ hb _ => hb⟩ ?_ ?_).1
    · exact fun m hm => hm
    · rintro m m' branchId hround ht ⟨hm, hold⟩
      refine ⟨hm.turn ht fun b r hb hs hr hdue => ?_,
        fun id b hb hs => hold id b (ht.get?_of_committed hb hs) hs⟩
      exact hkeeps rounds rfl (advance_spec hc).1 branchId b r (hold branchId b hb hs) hs hr
        (by omega)
  · refine call_induction (I := Typed) hc h ?_ ?_ ?_ ?_ ?_ ?_ ?_
    · intro account _ _ a v hv
      change (l.balances.set account (ofInt 0)).get? a = some v at hv
      rw [Dict.get?_set] at hv
      split_ifs at hv
      · cases hv; rfl
      · exact h a v hv
    · exact fun _ _ _ _ _ _ => h
    · exact fun _ _ _ _ _ _ => h
    · exact fun _ _ _ _ _ _ _ => h
    · exact fun _ _ _ _ _ _ _ _ _ => h
    · exact fun n _ hcall => absurd ⟨n, hcall⟩ hadv
    · exact fun n _ _ _ hcall => absurd ⟨n, hcall⟩ hadv

/-- A balance that is a float stays one. -/
lemma float_turn {branchId : String} (ht : BranchTurn py l branchId l') {a : String}
    (h : (l.balances.getD a (ofInt 0)).index?.isSome = false) :
    (l'.balances.getD a (ofInt 0)).index?.isSome = false := by
  cases ht with
  | stay => exact h
  | expire => exact h
  | final b r balance held hb hs hr hdue hbalance _ =>
    have hdebit : a = b.sender → (balance - b.value).index?.isSome = false := by
      rintro rfl
      have : balance.index?.isSome = false := by simpa [Dict.getD, hbalance] using h
      exact (JsonNum.isSome_index?_op balance b.value).trans (by rw [this]; rfl)
    rw [balances_settled, transferred, Dict.getD_set]
    split_ifs with hreceiver
    · refine (JsonNum.isSome_index?_op _ _).trans ?_
      rw [Dict.getD_set]
      split_ifs with hsender
      · rw [hdebit (hreceiver.symm.trans hsender.symm)]; rfl
      · rw [hreceiver, h]; rfl
    · rw [Dict.getD_set]
      split_ifs with hsender
      · exact hdebit hsender.symm
      · exact h

/-- **Breaking the types.** An advance that lets a committed branch with a float as value fall due
leaves a balance that is a float.

**Proof sketch.** Settling the branch debits its sender by a float, and floats stay floats. -/
lemma exists_float_of_due {rounds : ℤ} (hinv : LockInv l)
    (hc : l.call py (.advance rounds) = .ok l') {branchId : String} {b : Branch JsonNum} {r : ℤ}
    (hb : l.branches.get? branchId = some b) (hs : b.state = .committed)
    (hr : b.committedRound = some r) (hdue : finalityRounds ≤ l.round + rounds - r)
    (hfloat : b.value.index?.isSome = false) : ¬ l'.Typed := by
  have hend := advance_of_due (I := LockInv)
    (Q := fun m => (m.balances.getD b.sender (ofInt 0)).index?.isSome = false)
    hc hb hs hr hdue hinv ?_ ?_ ?_
  · intro htyped
    rw [htyped.isSome_index?] at hend
    cases hend
  · exact fun m hm => ⟨hm.ticked, fun h => h⟩
  · exact fun m m' id ht hm => ⟨hm.turn ht, float_turn ht⟩
  · intro m balance held hm hstill hbalance
    have hne : ¬ b.receiver = b.sender := fun heq => (hm.branch branchId b hstill).distinct heq.symm
    rw [balances_settled, transferred, Dict.getD_set, if_neg hne, Dict.getD_set, if_pos rfl]
    exact (JsonNum.isSome_index?_op _ _).trans (by rw [hfloat, Bool.and_false])

end Typed

/-! ## The condition on a call -/

section Calls

variable {py : PyLib JsonNum} {l l' : Ledger JsonNum} {genesis : Option GenesisConfig}
  {base : String} {c : Call JsonNum}

/-- A call keeps the integrality of the values if the value it offers is integral. -/
lemma integral_call (h : ∀ branchId b, l.branches.get? branchId = some b →
      Integral (val b.value + val b.value)) (hc : l.call py c = .ok l')
    (hoffer : ∀ sender receiver value ttl, c = .offer sender receiver value ttl →
      l.CanOffer sender receiver value ttl → Integral (val value + val value)) :
    ∀ branchId b, l'.branches.get? branchId = some b → Integral (val b.value + val b.value) := by
  -- A branch that is stored again keeps its value.
  have hset : ∀ (m : Ledger JsonNum) id (b : Branch JsonNum),
      (∀ id b, m.branches.get? id = some b → Integral (val b.value + val b.value)) →
      Integral (val b.value + val b.value) → ∀ j d, (m.branches.set id b).get? j = some d →
        Integral (val d.value + val d.value) := by
    intro m id b hm hb j d hd
    rw [Dict.get?_set] at hd
    split_ifs at hd
    · cases hd; exact hb
    · exact hm j d hd
  refine call_induction (I := fun m => ∀ branchId b, m.branches.get? branchId = some b →
    Integral (val b.value + val b.value)) hc h ?_ ?_ ?_ ?_ ?_ ?_ ?_
  · exact fun _ _ _ => h
  · exact fun s r v t hcall hcan => hset l _ _ h (hoffer s r v t hcall hcan)
  · exact fun id b _ hb _ _ => hset l id _ h (h id b hb)
  · exact fun id b _ _ hb _ _ => hset l id _ h (h id b hb)
  · exact fun id _ b _ _ hb _ _ _ => hset l id _ h (h id b hb)
  · exact fun _ _ _ _ _ hm => hm
  · intro _ m m' id _ _ ht hm
    cases ht with
    | stay => exact hm
    | expire b _ hb => exact hset m id _ hm (hm id b hb)
    | final b _ _ _ hb => exact hset m id _ hm (hm id b hb)

/-- **Keeping a ledger sound.** -/
theorem Sound.call (h : Sound genesis base l) (hkeeps : KeepsAmounts py l c)
    (hc : l.call py c = .ok l') : Sound genesis base l' where
  lock := h.lock.call hc
  record := h.record.call hc
  supply g hg := (supply_call hc).trans (h.supply g hg)
  excess a := (excess_step hkeeps.overwrites (step_of_call hc) a).trans (h.excess a)
  integral := integral_call h.integral hc hkeeps.integral
  typed hsome := by
    have hsame : l.genesis.isSome = true := by
      rwa [(h.record.call hc).genesis_eq, ← h.record.genesis_eq] at hsome
    exact Typed.call (h.typed hsame) hc (hkeeps.typed hsame)
  reserve g a n hg hn hmem := by
    have hlocked : l.isLocked a = true := by simp [isLocked, h.record.genesis_eq, hg, hmem]
    rw [h.record.reserve_call hkeeps.reserve hc hlocked]
    exact h.reserve g a n hg hn hmem

/-- The locked funds of a ledger that can be restored are integral, and there is less than one unit
of excess. -/
lemma excess_of_trunc (hinv : LockInv l)
    (h : ∀ a, (trunc (l.locked.getD a (ofInt 0)) : ℚ) = l.lockedBy a) (a : String) :
    Integral (l.lockedBy a) ∧ l.excess a < 1 := by
  refine ⟨⟨_, (h a).symm⟩, ?_⟩
  have hfloor : val (l.locked.getD a (ofInt 0)) < trunc (l.locked.getD a (ofInt 0)) + 1 := by
    rw [trunc, if_pos (hinv.locked_nonneg a)]
    exact Int.lt_floor_add_one _
  rw [excess, ← h a]
  linarith

/-- **Losing a sound ledger.** After a call that violates the condition the ledger is not restored
from its snapshot.

**Proof sketch.** Each violation breaks one check of the restore: an overwritten branch leaves at
least one unit of excess, a value that is not half an integer leaves locked funds that truncation
changes, a payment to a locked account changes its reserve, and a settled float leaves a balance
that is a float. -/
theorem Sound.not_restores (h : Sound genesis base l) (hconf : Configured py genesis base)
    (hbreaks : ¬ KeepsAmounts py l c) : ∃ l', l.call py c = .ok l' ∧ ¬ l'.Restores py := by
  have hrestore : ∀ m, l.call py c = .ok m → m.Restores py → m.BalancesTyped ∧
      (∀ a, (trunc (m.locked.getD a (ofInt 0)) : ℚ) = m.lockedBy a) ∧
      ∀ g a n, genesis = some g → g.allocations.get? a = some n → a ∈ g.lockedAccounts →
        val (m.balances.getD a (ofInt 0)) = n := by
    rintro m hm ⟨l', hl', -⟩
    exact (exists_fromSnapshot_iff hconf (h.lock.call hm) (h.record.call hm)
      fun g hg => (supply_call hm).trans (h.supply g hg)).mp ⟨l', hl'⟩
  by_cases hover : OverwritesNoActive py l c
  · by_cases hreserve : KeepsReserve l c
    · by_cases hintegral : ∀ s r v t, c = .offer s r v t → l.CanOffer s r v t →
          Integral (val v + val v)
      · -- A float is settled.
        have htyped := mt (KeepsAmounts.mk hover hreserve hintegral) hbreaks
        simp only [not_forall] at htyped
        obtain ⟨hsome, rounds, rfl, hpos, id, b, r, hb, hs, hr, hdue, hfloat⟩ := htyped
        obtain ⟨m, hm⟩ := h.lock.exists_advance py hpos
        refine ⟨m, hm, fun hrest => ?_⟩
        refine exists_float_of_due h.lock hm hb hs hr hdue (by simpa using hfloat) ?_
        refine (hrestore m hm hrest).1 ?_
        rwa [(h.record.call hm).genesis_eq, ← h.record.genesis_eq]
      · -- An offer locks funds that are not integral.
        simp only [not_forall] at hintegral
        obtain ⟨s, r, v, t, rfl, hcan, hfraction⟩ := hintegral
        have hm : l.call py (.offer s r v t) = .ok (l.opened py s r v t) := call_offer hcan
        refine ⟨_, hm, fun hrest => hfraction ?_⟩
        obtain ⟨k, hk⟩ := (excess_of_trunc (h.lock.call hm) (hrestore _ hm hrest).2.1 s).1
        obtain ⟨j, hj⟩ := integral_lockedBy h.integral h.lock s
        have hold : val (l.locked.getD s (ofInt 0)) - j = 0 := by
          rw [← hj]
          exact h.excess s
        have hnew : val ((l.opened py s r v t).locked.getD s (ofInt 0)) - k = 0 := by
          rw [← hk]
          exact (excess_step hover (step_of_call hm) s).trans (h.excess s)
        rw [locked_opened, if_pos rfl] at hnew
        exact ⟨k - j, by push_cast; linarith⟩
    · -- A locked account is paid.
      simp only [KeepsReserve, not_forall, not_lt] at hreserve
      obtain ⟨rounds, rfl, hpos, id, b, r, hb, hs, ha, hr, hdue⟩ := hreserve
      obtain ⟨m, hm⟩ := h.lock.exists_advance py hpos
      refine ⟨m, hm, fun hrest => ?_⟩
      have hmore := h.record.reserve_broken h.lock hm hb hs ha hr hdue
      cases hg : genesis with
      | none => simp [isLocked, h.record.genesis_eq, hg] at ha
      | some g =>
        have hmem : b.receiver ∈ g.lockedAccounts := by
          simpa [isLocked, h.record.genesis_eq, hg] using ha
        obtain ⟨n, hn⟩ := Dict.contains_iff.mp ((hconf g hg).1.locked_mem _ hmem)
        rw [h.reserve g _ n hg hn hmem, (hrestore m hm hrest).2.2 g _ n hg hn hmem] at hmore
        exact lt_irrefl _ hmore
  · -- An active branch is overwritten.
    have hoffer := hover
    simp only [OverwritesNoActive, not_forall] at hoffer
    obtain ⟨s, r, v, t, rfl, hcan, -⟩ := hoffer
    have hm : l.call py (.offer s r v t) = .ok (l.opened py s r v t) := call_offer hcan
    refine ⟨_, hm, fun hrest => ?_⟩
    obtain ⟨id, b, hb, heq⟩ := exists_excess_of_overwrites h.lock hover (step_of_call hm)
    obtain ⟨k, hk⟩ := h.integral id b hb
    have hpos := (h.lock.branch id b hb).value_pos
    have hunit : (1 : ℚ) ≤ val b.value + val b.value := by
      have : (0 : ℚ) < k := by rw [← hk]; linarith
      rw [hk]
      exact_mod_cast this
    have hless := (excess_of_trunc (h.lock.call hm) (hrestore _ hm hrest).2.1 b.sender).2
    rw [heq, h.excess] at hless
    linarith

end Calls

end Ledger

end SplitChain
