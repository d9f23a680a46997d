import SplitChain.Model.LedgerObject
import SplitChain.Model.LedgerStore

set_option relaxedAutoImplicit false
set_option autoImplicit false

/-!
# The trust boundary

`from_snapshot` rechecks the invariants of a ledger that comes from a file or from a peer. A
document that passes need not have been written by `snapshot`: its branches may have unknown
receivers, and ended ones senders that have locked nothing. Two things that later calls rely on are
not checked: that a committed branch has a `committed_round`, and that no branch has its origin
above the canonical head. With these, the ledger is safe in every later run, as long as the
interpreter prints the height of the head, which is an operand of every block digest.

## Main definitions

* `SplitChain.Ledger.assertInvariants` — `assert_invariants` of the simulator.
* `SplitChain.Ledger.SafeInv` — the invariant that a restored ledger has.
* `SplitChain.Ledger.ceiling` — the height that the head reaches when the active branches are final.
* `SplitChain.Ledger.Complete` — what `from_snapshot` does not check.
* `SplitChain.LedgerObject.performAll` — the object after a sequence of calls.

## Main results

* `SplitChain.Ledger.SafeInv.call` — calls keep the invariant.
* `SplitChain.Ledger.ceiling_call_le` — a call raises the ceiling by at most one.
* `SplitChain.LedgerObject.restored_safe` — complete documents that are accepted are safe.
-/

namespace SplitChain

open Raise

open PyNumber (val ofInt trunc)

namespace Ledger

variable {ν : Type} [PyNumber ν]

/-! ## The conditions of the simulator -/

/-- The conditions on one branch. -/
def assertBranch (l : Ledger ν) (b : Branch ν) : Except PyError Unit := do
  require (val b.stake == val b.value) .assertion
  require (l.canonicalHistory.get? b.originHeight == some b.originDigest) .assertion

/-- `assert_invariants` -/
def assertInvariants (l : Ledger ν) (initialSupply : ℚ) : Except PyError Unit := do
  require (l.supply == initialSupply) .assertion
  require (l.balances.values.all fun v => !decide (val v < 0)) .assertion
  require (l.locked.values.all fun v => !decide (val v < 0)) .assertion
  require (l.balances.keys.all fun a => !decide (val (l.available a) < 0)) .assertion
  l.branches.values.forM l.assertBranch
  require (l.canonicalHistory.get? l.canonicalHeight == some l.canonicalDigest) .assertion

/-! ## The invariant -/

/-- **The invariant of a restored ledger**: its funds are in order, its head is in its history, and
so are the origins of its branches, none of them above the head. -/
structure SafeInv (l : Ledger ν) : Prop where
  funds : FundInv l
  height_nonneg : 0 ≤ l.canonicalHeight
  head : l.canonicalHistory.get? l.canonicalHeight = some l.canonicalDigest
  origin : ∀ branchId b, l.branches.get? branchId = some b →
    l.canonicalHistory.get? b.originHeight = some b.originDigest
  origin_le : ∀ branchId b, l.branches.get? branchId = some b → b.originHeight ≤ l.canonicalHeight

/-- A defaulted value that is not negative comes from values that are not. -/
lemma nonneg_of_getD {d : Dict String ν} (h : ∀ a, 0 ≤ val (d.getD a (ofInt 0))) {v : ν}
    (hv : v ∈ d.values) : 0 ≤ val v := by
  obtain ⟨a, ha⟩ := Dict.mem_values_iff.mp hv
  have hd := h a
  rwa [Dict.getD, ha, Option.getD_some] at hd

/-- **A ledger with the invariant meets the conditions of the simulator** for its own supply. -/
theorem SafeInv.assertInvariants {l : Ledger ν} (h : SafeInv l) :
    l.assertInvariants l.supply = .ok () := by
  have hbranches : ∀ bs : List (Branch ν), (∀ b ∈ bs, ∃ branchId,
      l.branches.get? branchId = some b) → bs.forM l.assertBranch = .ok () := by
    intro bs
    induction bs with
    | nil => exact fun _ => rfl
    | cons b bs ih =>
      intro hbs
      obtain ⟨branchId, hb⟩ := hbs b List.mem_cons_self
      have hbranch : l.assertBranch b = .ok () := by
        simp only [assertBranch, bind_eq_ok, require_eq_ok, exists_const, beq_iff_eq]
        exact ⟨(h.funds.branch branchId b hb).stake_eq, h.origin branchId b hb⟩
      show (l.assertBranch b >>= fun _ => bs.forM l.assertBranch) = _
      rw [hbranch]
      exact ih fun c hc => hbs c (List.mem_cons_of_mem _ hc)
  unfold Ledger.assertInvariants
  simp only [bind_eq_ok, require_eq_ok, exists_const, beq_iff_eq, List.all_eq_true,
    Bool.not_eq_true', decide_eq_false_iff_not, not_lt]
  refine ⟨trivial, fun v hv => nonneg_of_getD h.funds.balance_nonneg hv,
    fun v hv => nonneg_of_getD h.funds.locked_nonneg hv, fun a _ => ?_, (),
    hbranches _ fun b hb => Dict.mem_values_iff.mp hb, h.head⟩
  rw [available, PyNumber.val_sub]
  linarith [h.funds.locked_le a]

/-! ## Calls keep the invariant -/

namespace SafeInv

variable {py : PyLib ν} {l l' : Ledger ν}

/-- Recording a branch with a canonical origin. -/
lemma setBranch (h : SafeInv l) {branchId : String} {b : Branch ν}
    (hfunds : FundInv (l.setBranch branchId b))
    (horigin : l.canonicalHistory.get? b.originHeight = some b.originDigest)
    (hle : b.originHeight ≤ l.canonicalHeight) : SafeInv (l.setBranch branchId b) where
  funds := hfunds
  height_nonneg := h.height_nonneg
  head := h.head
  origin id c hc := by
    rw [branches_setBranch, Dict.get?_set] at hc
    split_ifs at hc
    · cases hc
      exact horigin
    · exact h.origin id c hc
  origin_le id c hc := by
    rw [branches_setBranch, Dict.get?_set] at hc
    split_ifs at hc
    · cases hc
      exact hle
    · exact h.origin_le id c hc

/-- Changing funds. -/
lemma congr (h : SafeInv l) (hfunds : FundInv l') (hbranches : l'.branches = l.branches)
    (hheight : l'.canonicalHeight = l.canonicalHeight)
    (hdigest : l'.canonicalDigest = l.canonicalDigest)
    (hhistory : l'.canonicalHistory = l.canonicalHistory) : SafeInv l' where
  funds := hfunds
  height_nonneg := by rw [hheight]; exact h.height_nonneg
  head := by rw [hhistory, hheight, hdigest]; exact h.head
  origin := by rw [hhistory, hbranches]; exact h.origin
  origin_le := by rw [hheight, hbranches]; exact h.origin_le

/-- A new block. No origin stands above the head, so none is overwritten. -/
lemma appendBlock (h : SafeInv l) (digest : String) : SafeInv (l.appendBlock digest) where
  funds := h.funds.congr rfl rfl rfl
  height_nonneg := by
    have hnonneg := h.height_nonneg
    show 0 ≤ l.canonicalHeight + 1
    omega
  head := Dict.get?_set_self _ _ _
  origin id b hb := by
    have hle := h.origin_le id b hb
    show (l.canonicalHistory.set _ _).get? b.originHeight = some b.originDigest
    rw [Dict.get?_set_of_ne _ _ (by omega)]
    exact h.origin id b hb
  origin_le id b hb := by
    have hle := h.origin_le id b hb
    show b.originHeight ≤ l.canonicalHeight + 1
    omega

/-- A branch that ends gives its funds back. -/
lemma released (h : SafeInv l) {branchId : String} {b : Branch ν} {s : BranchState} {held : ν}
    (hb : l.branches.get? branchId = some b) (hactive : b.state.active = true)
    (hs : s.active = false) (hheld : l.locked.get? b.sender = some held) :
    SafeInv (l.released branchId b s held) where
  funds := h.funds.released hb hactive hs hheld
  height_nonneg := h.height_nonneg
  head := h.head
  origin id c hc := by
    rw [branches_released, Dict.get?_set] at hc
    split_ifs at hc
    · cases hc
      exact h.origin branchId b hb
    · exact h.origin id c hc
  origin_le id c hc := by
    rw [branches_released, Dict.get?_set] at hc
    split_ifs at hc
    · cases hc
      exact h.origin_le branchId b hb
    · exact h.origin_le id c hc

/-- A visit of a branch. -/
lemma turn (h : SafeInv l) {branchId : String} (ht : BranchTurn py l branchId l') :
    SafeInv l' := by
  cases ht with
  | stay => exact h
  | expire b held hb hs _ hheld => exact h.released hb (active_of_open hs) rfl hheld
  | final b _ balance held hb hs _ _ hbalance hheld =>
    have hactive : b.state.active = true := by rw [hs]; rfl
    have hended := h.released (s := .final) hb hactive rfl hheld
    have hfunds : FundInv (l.settled py branchId b balance held) :=
      h.funds.settled hb hactive hbalance hheld
    have hmoved : SafeInv { l.released branchId b .final held with
        balances := l.transferred b balance
        finalized := l.finalized ++ [⟨b.branchId, b.txDigest⟩] } :=
      hended.congr (hfunds.congr rfl rfl rfl) rfl rfl rfl rfl
    exact hmoved.appendBlock _

/-- **Every call keeps the invariant.** -/
theorem call (h : SafeInv l) {c : Call ν} (hc : l.call py c = .ok l') : SafeInv l' := by
  refine call_induction hc h ?_ ?_ ?_ ?_ ?_ ?_ ?_
  · intro account _ hnew
    have hfunds : FundInv (l.registered py account) := h.funds.registered hnew
    have hadded : SafeInv { l with balances := l.balances.set account (ofInt 0) } :=
      h.congr (hfunds.congr rfl rfl rfl) rfl rfl rfl rfl
    exact hadded.appendBlock _
  · intro s r v t _ hcan
    have hfunds : FundInv (l.opened py s r v t) := h.funds.opened hcan
    exact {
      funds := hfunds
      height_nonneg := h.height_nonneg
      head := h.head
      origin := fun id b hb => by
        rw [branches_opened, Dict.get?_set] at hb
        split_ifs at hb
        · cases hb
          exact h.head
        · exact h.origin id b hb
      origin_le := fun id b hb => by
        rw [branches_opened, Dict.get?_set] at hb
        split_ifs at hb
        · cases hb
          exact le_rfl
        · exact h.origin_le id b hb }
  · intro id b _ hb hs _
    exact h.setBranch (h.funds.restated hb rfl rfl rfl (by rw [hs]; rfl) (by simp))
      (h.origin id b hb) (h.origin_le id b hb)
  · intro id b _ _ hb hs _
    exact h.setBranch (h.funds.restated hb rfl rfl rfl (by rw [hs]; rfl) (by simp))
      (h.origin id b hb) (h.origin_le id b hb)
  · exact fun id _ b held _ hb hs _ hheld => h.released hb (active_of_open hs) rfl hheld
  · exact fun _ m _ _ _ hm => hm.congr hm.funds.ticked rfl rfl rfl rfl
  · exact fun _ m m' _ _ _ ht hm => hm.turn ht

end SafeInv

/-! ## The height of the head -/

/-- The height that the head reaches when every active branch has been finalized. -/
def ceiling (l : Ledger ν) : ℤ :=
  l.canonicalHeight + l.branches.sum fun _ b => if b.state.active then 1 else 0

section Ceiling

omit [PyNumber ν]

/-- The head is not above the ceiling. -/
lemma height_le_ceiling (l : Ledger ν) : l.canonicalHeight ≤ l.ceiling := by
  refine le_add_of_nonneg_right (Dict.sum_nonneg fun _ b _ => ?_)
  split_ifs <;> decide

/-- The ceiling is at most the number of the branches above the head. -/
lemma ceiling_le (l : Ledger ν) : l.ceiling ≤ l.canonicalHeight + l.branches.size := by
  refine add_le_add_right ((List.sum_le_card_nsmul _ (1 : ℤ) fun n hn => ?_).trans_eq ?_) _
  · obtain ⟨p, -, rfl⟩ := List.mem_map.mp hn
    show (if p.2.state.active then (1 : ℤ) else 0) ≤ 1
    split_ifs <;> decide
  · rw [List.length_map, nsmul_eq_mul, mul_one]
    rfl

/-- Recording a new branch raises the ceiling by at most one. -/
lemma ceiling_setBranch_le (l : Ledger ν) (branchId : String) (b : Branch ν) :
    (l.setBranch branchId b).ceiling ≤ l.ceiling + 1 := by
  unfold ceiling
  show l.canonicalHeight + (l.branches.set branchId b).sum _ ≤ _
  cases hold : l.branches.get? branchId with
  | none =>
    rw [Dict.sum_set_of_none _ _ hold]
    split_ifs <;> omega
  | some old =>
    rw [Dict.sum_set_of_some _ _ hold]
    split_ifs <;> omega

/-- Recording a branch that stays active does not move the ceiling. -/
lemma ceiling_setBranch_of_active {l : Ledger ν} {branchId : String} {b b' : Branch ν}
    (hb : l.branches.get? branchId = some b) (hactive : b.state.active = true)
    (hactive' : b'.state.active = true) : (l.setBranch branchId b').ceiling = l.ceiling := by
  unfold ceiling
  show l.canonicalHeight + (l.branches.set branchId b').sum _ = _
  rw [Dict.sum_set_of_some _ _ hb, if_pos hactive, if_pos hactive']
  omega

/-- Recording that an active branch has ended lowers the ceiling by one. -/
lemma ceiling_setBranch_of_ended {l : Ledger ν} {branchId : String} {b b' : Branch ν}
    (hb : l.branches.get? branchId = some b) (hactive : b.state.active = true)
    (hended : b'.state.active = false) : (l.setBranch branchId b').ceiling = l.ceiling - 1 := by
  unfold ceiling
  show l.canonicalHeight + (l.branches.set branchId b').sum _ = _
  rw [Dict.sum_set_of_some _ _ hb, if_pos hactive, hended, if_neg Bool.false_ne_true]
  omega

end Ceiling

/-- A visit of a branch does not raise the ceiling: a branch that is finalized has been below it. -/
lemma ceiling_turn_le {py : PyLib ν} {l l' : Ledger ν} {branchId : String}
    (ht : BranchTurn py l branchId l') : l'.ceiling ≤ l.ceiling := by
  cases ht with
  | stay => exact le_rfl
  | expire b held hb hs _ _ =>
    have hended : (l.released branchId b .expired held).ceiling = l.ceiling - 1 :=
      ceiling_setBranch_of_ended hb (active_of_open hs) rfl
    omega
  | final b _ balance held hb hs _ _ _ _ =>
    have hended : (l.setBranch branchId { b with state := .final }).ceiling = l.ceiling - 1 :=
      ceiling_setBranch_of_ended hb (by rw [hs]; rfl) rfl
    have hblock : (l.settled py branchId b balance held).ceiling =
        (l.setBranch branchId { b with state := .final }).ceiling + 1 :=
      add_right_comm l.canonicalHeight 1 _
    omega

/-- **A call raises the ceiling by at most one**: by the block of a new account, or by the branch of
an offer. -/
theorem ceiling_call_le {py : PyLib ν} {l l' : Ledger ν} {c : Call ν}
    (hc : l.call py c = .ok l') : l'.ceiling ≤ l.ceiling + 1 := by
  refine call_induction (I := fun m => m.ceiling ≤ l.ceiling + 1) hc (by omega) ?_ ?_ ?_ ?_ ?_ ?_ ?_
  · exact fun account _ _ => (add_right_comm l.canonicalHeight 1 _).le
  · exact fun s r v t _ _ => ceiling_setBranch_le l _ _
  · intro id b _ hb hs _
    rw [ceiling_setBranch_of_active hb (by rw [hs]; rfl) rfl]
    omega
  · intro id b _ _ hb hs _
    rw [ceiling_setBranch_of_active hb (by rw [hs]; rfl) rfl]
    omega
  · intro id _ b held _ hb hs _ _
    have hended : (l.released id b .cancelled held).ceiling = l.ceiling - 1 :=
      ceiling_setBranch_of_ended hb (active_of_open hs) rfl
    omega
  · exact fun _ _ _ _ _ hm => hm
  · exact fun _ _ _ _ _ _ ht hm => (ceiling_turn_le ht).trans hm

/-! ## Restored ledgers -/

/-- **What `from_snapshot` does not check**: that the funds are of type `int`, that a committed
branch has a `committed_round`, and that no branch has its origin above the canonical head. -/
structure Complete (l : Ledger JsonNum) : Prop where
  balances : l.Typed
  branches : ∀ branchId b, l.branches.get? branchId = some b → Whole b.value ∧ Whole b.stake
  committed : ∀ branchId b, l.branches.get? branchId = some b → b.state = .committed →
    b.committedRound.isSome = true
  origin_le : ∀ branchId b, l.branches.get? branchId = some b → b.originHeight ≤ l.canonicalHeight

/-- A branch that is active has locked funds of its sender. -/
lemma contains_of_excess {l : Ledger ν} (hbranch : ∀ branchId b, l.branches.get? branchId = some b →
      0 < val b.value ∧ val b.stake = val b.value) (hexcess : ∀ a, l.excess a = 0)
    {branchId : String} {b : Branch ν} (hb : l.branches.get? branchId = some b)
    (hactive : b.state.active = true) : l.locked.contains b.sender = true := by
  have hnonneg : ∀ id c, l.branches.get? id = some c → 0 ≤ heldBy b.sender c := by
    intro id c hc
    obtain ⟨hpos, hstake⟩ := hbranch id c hc
    unfold heldBy
    split_ifs
    · rw [hstake]
      linarith
    · rfl
  have hone : heldBy b.sender b ≤ l.lockedBy b.sender :=
    Dict.single_le_sum (f := fun _ c => heldBy b.sender c) hnonneg hb
  obtain ⟨hpos, hstake⟩ := hbranch branchId b hb
  have hlocked : val (l.locked.getD b.sender (ofInt 0)) = l.lockedBy b.sender :=
    sub_eq_zero.mp (hexcess b.sender)
  rw [heldBy_of_active hactive, if_pos rfl, hstake] at hone
  by_contra hnone
  rw [Dict.contains, Bool.not_eq_true, Option.isSome_eq_false_iff, Option.isNone_iff_eq_none]
    at hnone
  rw [Dict.getD, hnone, Option.getD_none, PyNumber.val_ofInt, Int.cast_zero] at hlocked
  linarith

/-- **A complete ledger that passes the validation has the invariant.** -/
lemma Restorable.safeInv {py : PyLib JsonNum} {l : Ledger JsonNum} (h : l.Restorable py)
    (hcomplete : l.Complete) : SafeInv l where
  funds := {
    branch := fun branchId b hb => {
      value_pos := (h.branch branchId b hb).1.1
      stake_eq := (h.branch branchId b hb).1.2
      sender_locked := contains_of_excess (fun id c hc => (h.branch id c hc).1) h.excess hb
      committed := fun hs => Option.isSome_iff_exists.mp (hcomplete.committed branchId b hb hs) }
    excess_nonneg := fun a => (h.excess a).ge
    locked_le := h.locked_le }
  height_nonneg := h.height_nonneg
  head := h.head
  origin branchId b hb := (h.branch branchId b hb).2
  origin_le := hcomplete.origin_le

/-- The locked amounts of a restored ledger are of type `int`. -/
lemma locked_of_fromSnapshot {py : PyLib JsonNum} {s : Snapshot JsonNum}
    {expected : Option GenesisConfig} {l : Ledger JsonNum} (h : fromSnapshot py s expected = .ok l)
    {a : String} {v : JsonNum} (hv : l.locked.get? a = some v) : Whole v := by
  unfold fromSnapshot at h
  simp only [bind_eq_ok, require_eq_ok, orRaise_eq_ok, pure_eq_ok, exists_const,
    validateRestoredState_eq_ok] at h
  obtain ⟨-, _, -, -, -, _, -, -, rfl⟩ := h
  change (s.locked.mapVal fun v => ofInt (trunc v)).get? a = some v at hv
  rw [Dict.get?_mapVal, Option.map_eq_some_iff] at hv
  obtain ⟨w, -, rfl⟩ := hv
  exact whole_ofInt _

end Ledger

namespace LedgerObject

variable {py : PyLib JsonNum} {l : Ledger JsonNum}

/-- The object after a sequence of calls, whether they return or raise. -/
def performAll (py : PyLib JsonNum) (l : Ledger JsonNum) (calls : List (Ledger.Call JsonNum)) :
    Ledger JsonNum :=
  calls.foldl (fun l c => Proc.after (perform py c) l) l

/-- A call that returns, or raises a `ProtocolError` and leaves the ledger as it was. -/
def Definite (py : PyLib JsonNum) (l : Ledger JsonNum) (c : Ledger.Call JsonNum) : Prop :=
  (∃ result l', perform py c l = .ok result l') ∨
    ∃ e, e.isProtocol = true ∧ perform py c l = .error e l

/-- The ledger after a call of a method: that of the operation, or the old one. -/
lemma definite_of_safeInv (h : l.SafeInv) (hroom : l.ceiling + 1 < 10 ^ Json.maxStrDigits)
    (c : Ledger.Call JsonNum) :
    Definite py l c ∧ (l.call py c = .ok (Proc.after (perform py c) l) ∨
      Proc.after (perform py c) l = l) := by
  have hanswers : Answers (perform py c) fun l => l.perform py c := answers_perform c
  have hcall := Ledger.fst_perform py l c
  cases hp : l.perform py c with
  | ok p =>
    rw [hp] at hcall
    have hfits : Fits l p.1 := by
      have hceiling : p.1.ceiling ≤ l.ceiling + 1 := Ledger.ceiling_call_le hcall.symm
      exact ⟨h.height_nonneg, ((p.1.height_le_ceiling).trans hceiling).trans_lt hroom⟩
    rcases hanswers.returns l p.1 p.2 hp hfits with hx | hx
    · rw [← hcall]
      exact ⟨.inl ⟨p.2, p.1, hx⟩, .inl (by rw [Proc.after_of_eq_ok hx]; rfl)⟩
    · exact ⟨.inr ⟨notCanonical, rfl, hx⟩, .inr (Proc.after_of_eq_error hx)⟩
  | error e =>
    rw [hp] at hcall
    have he := h.funds.raisesProtocol_call c e hcall.symm
    have hx := hanswers.refuses l e hp he
    exact ⟨.inr ⟨e, he, hx⟩, .inr (Proc.after_of_eq_error hx)⟩

/-- **A run from a safe ledger.** Calls with integers keep the ledger safe, its funds integers and
its supply, and each raises the ceiling by at most one.

**Proof sketch.** Induction on the calls: a call that returns is a call of the ledger, and one that
raises changes nothing. -/
lemma performAll_safe {calls : List (Ledger.Call JsonNum)} (hsafe : l.SafeInv)
    (hwhole : l.WholeFunds) (hcalls : ∀ c ∈ calls, c.Whole)
    (hroom : l.ceiling + calls.length < 10 ^ Json.maxStrDigits) :
    (performAll py l calls).SafeInv ∧ (performAll py l calls).WholeFunds ∧
      (performAll py l calls).supply = l.supply ∧
        (performAll py l calls).ceiling ≤ l.ceiling + calls.length := by
  induction calls generalizing l with
  | nil => exact ⟨hsafe, hwhole, rfl, by simp [performAll]⟩
  | cons c cs ih =>
    rw [List.length_cons, Nat.cast_succ] at hroom ⊢
    have hrest := fun d hd => hcalls d (List.mem_cons_of_mem _ hd)
    have hdefinite : Definite py l c ∧ (l.call py c = .ok (Proc.after (perform py c) l) ∨
        Proc.after (perform py c) l = l) := definite_of_safeInv hsafe (by omega) c
    rcases hdefinite.2 with hcall | hsame
    · have hceiling := Ledger.ceiling_call_le hcall
      obtain ⟨hsafe', hwhole', hsupply, hheight⟩ := ih (hsafe.call hcall)
        (hwhole.call Ledger.closed_whole (hcalls c List.mem_cons_self) hcall) hrest (by omega)
      exact ⟨hsafe', hwhole', hsupply.trans (Ledger.supply_call hcall), hheight.trans (by omega)⟩
    · have hrun : performAll py l (c :: cs) = performAll py l cs := by
        show performAll py (Proc.after (perform py c) l) cs = _
        rw [hsame]
      rw [hrun]
      obtain ⟨hsafe', hwhole', hsupply, hheight⟩ := ih hsafe hwhole hrest (by omega)
      exact ⟨hsafe', hwhole', hsupply, hheight.trans (by omega)⟩

/-- **The trust boundary is sufficient for complete documents**, while the interpreter prints the
height of the head. A ledger that `from_snapshot` restores from a complete document meets the
conditions of the simulator for its own supply after every sequence of calls with integers, its
funds are still integers, and the next call returns or raises a `ProtocolError` and changes nothing.

**Proof sketch.** The validation and the completeness give the invariant, which the calls keep; the
head cannot rise by more than one for every branch of the document and every call. -/
theorem restored_safe (py : PyLib JsonNum) (document : Json JsonNum)
    (expected : Option GenesisConfig) (l : Ledger JsonNum)
    (hl : Ledger.fromDocument py document expected = some (.ok l)) (hcomplete : l.Complete)
    (calls : List (Ledger.Call JsonNum)) (hcalls : ∀ c ∈ calls, c.Whole)
    (hroom : l.canonicalHeight + l.branches.size + calls.length + 1 < 10 ^ Json.maxStrDigits) :
    (performAll py l calls).assertInvariants l.supply = .ok () ∧
      (performAll py l calls).WholeFunds ∧ ∀ c, Definite py (performAll py l calls) c := by
  obtain ⟨s, -, hs⟩ := Option.map_eq_some_iff.mp hl
  have hsafe := (Ledger.restorable_of_fromSnapshot hs).1.safeInv hcomplete
  have hwhole : l.WholeFunds :=
    ⟨hcomplete.balances, fun a v => Ledger.locked_of_fromSnapshot hs, hcomplete.branches⟩
  have hceiling := l.ceiling_le
  obtain ⟨hsafe', hwhole', hsupply, hheight⟩ : (performAll py l calls).SafeInv ∧
      (performAll py l calls).WholeFunds ∧ (performAll py l calls).supply = l.supply ∧
        (performAll py l calls).ceiling ≤ l.ceiling + calls.length :=
    performAll_safe hsafe hwhole hcalls (by omega)
  refine ⟨?_, hwhole', fun c => (definite_of_safeInv hsafe' (by omega) c).1⟩
  rw [← hsupply]
  exact hsafe'.assertInvariants

/-! ## Two documents -/

/-- A snapshot document with one committed branch from alice to bob. -/
def committedDocument (committedRound : Json JsonNum) : Json JsonNum :=
  .obj [("schema", .str "splitchain-ledger/v1"), ("round", .num (.int 0)),
    ("canonical_head", .obj [("height", .num (.int 0)), ("digest", .str "g0")]),
    ("balances", .obj [("alice", .num (.int 10)), ("bob", .num (.int 0))]),
    ("locked", .obj [("alice", .num (.int 4))]),
    ("branches", .arr [.obj [("branch_id", .str "b1"), ("sender", .str "alice"),
      ("receiver", .str "bob"), ("value", .num (.int 2)), ("stake", .num (.int 2)),
      ("created_round", .num (.int 0)), ("expires_round", .num (.int 6)),
      ("origin_height", .num (.int 0)), ("origin_digest", .str "g0"),
      ("state", .str "committed"), ("accepted_round", .num (.int 0)),
      ("committed_round", committedRound), ("tx_digest", .str "t1")]]),
    ("finalized", .arr []), ("canonical_history", .obj [("0", .str "g0")])]

/-- The branch of the document. -/
def committedBranch (committedRound : Option ℤ) : Branch JsonNum where
  branchId := "b1"
  sender := "alice"
  receiver := "bob"
  value := .int 2
  stake := .int 2
  createdRound := 0
  expiresRound := .int 6
  originHeight := 0
  originDigest := "g0"
  state := .committed
  acceptedRound := some 0
  committedRound := committedRound
  txDigest := some "t1"

/-- The ledger of the document. -/
def committedLedger (committedRound : Option ℤ) : Ledger JsonNum where
  genesis := none
  round := 0
  balances := Dict.ofList [("alice", .int 10), ("bob", .int 0)]
  locked := Dict.ofList [("alice", .int 4)]
  branches := Dict.ofList [("b1", committedBranch committedRound)]
  finalized := []
  canonicalHeight := 0
  canonicalDigest := "g0"
  canonicalHistory := Dict.ofList [(0, "g0")]

/-- The document is accepted, whether or not it says when the branch was committed. -/
lemma fromDocument_committed : Ledger.fromDocument jsonLib (committedDocument .null) none =
      some (.ok (committedLedger none)) ∧
    Ledger.fromDocument jsonLib (committedDocument (.num (.int 0))) none =
      some (.ok (committedLedger (some 0))) := by
  constructor <;> rfl

/-- A document that does not say when its branch was committed is accepted; the next advance fails
the assertion. -/
theorem incomplete_document_fails_assertion : ∃ l,
    Ledger.fromDocument jsonLib (committedDocument .null) none = some (.ok l) ∧
      ∃ t, perform jsonLib (.advance 1) l = .error .assertion t :=
  ⟨committedLedger none, fromDocument_committed.1, _, rfl⟩

/-- A complete document, after the advance in which its branch is finalized. -/
theorem restored_safe_committed :
    (performAll jsonLib (committedLedger (some 0)) [.advance 3]).assertInvariants
        (committedLedger (some 0)).supply = .ok () ∧
      (performAll jsonLib (committedLedger (some 0)) [.advance 3]).WholeFunds ∧
      ∀ c, Definite jsonLib (performAll jsonLib (committedLedger (some 0)) [.advance 3]) c := by
  have honly : ∀ branchId b, (committedLedger (some 0)).branches.get? branchId = some b →
      b = committedBranch (some 0) := by
    intro branchId b hb
    have hentries := Dict.get?_eq_some_iff.mp hb
    exact congrArg Prod.snd (List.mem_singleton.mp hentries)
  refine restored_safe jsonLib (committedDocument (.num (.int 0))) none _ fromDocument_committed.2
    ⟨fun a v hv => ?_, fun id b hb => ?_, fun id b hb _ => ?_, fun id b hb => ?_⟩ _
    (fun c hc => ?_) ?_
  · have hall : ∀ e ∈ (committedLedger (some 0)).balances.entries,
      (PyNumber.int? e.2).isSome = true := by decide
    exact hall _ (Dict.get?_eq_some_iff.mp hv)
  · rw [honly id b hb]
    exact ⟨rfl, rfl⟩
  · rw [honly id b hb]
    rfl
  · rw [honly id b hb]
    exact le_rfl
  · rw [List.mem_singleton.mp hc]
    trivial
  · decide +kernel

end LedgerObject

end SplitChain
