import SplitChain.Model.Restore

set_option relaxedAutoImplicit false
set_option autoImplicit false

/-!
# Amounts of one kind

Some amounts are closed under the arithmetic of the ledger: the numbers of type `int`, or those that
are no floats. If a ledger starts with such amounts and its calls name such amounts, then all of its
amounts are of that kind, in memory and in what a snapshot is restored to.

For amounts that are no floats the arithmetic of the interpreter is exact, and this is where the
numbers of the model are those of the program: doubles are rounded, and rounding is not modelled.

## Main definitions

* `SplitChain.Ledger.Closed` — a kind of amounts that the arithmetic does not leave.
* `SplitChain.Ledger.FundsIn`, `SplitChain.Ledger.AmountsIn` — all funds, or all amounts, of a
  ledger are of a kind.
* `SplitChain.Ledger.NoFloat` — the amounts that are no floats.

## Main results

* `SplitChain.Ledger.FundsIn.call`, `SplitChain.Ledger.AmountsIn.call` — calls keep the kind.
* `SplitChain.Ledger.AmountsIn.reloaded` — so does a reload.
-/

namespace SplitChain

open Raise

open PyNumber (val ofInt trunc)

namespace Ledger

section Kinds

variable {ν : Type} [PyNumber ν]

/-- A kind of amounts that the arithmetic of the ledger does not leave. -/
structure Closed (P : ν → Prop) : Prop where
  ofInt : ∀ n, P (ofInt n)
  add : ∀ {v w}, P v → P w → P (v + w)
  sub : ∀ {v w}, P v → P w → P (v - w)

/-- **All funds of a ledger are of a kind.** -/
structure FundsIn (P : ν → Prop) (l : Ledger ν) : Prop where
  balances : ∀ a v, l.balances.get? a = some v → P v
  locked : ∀ a v, l.locked.get? a = some v → P v
  branches : ∀ branchId b, l.branches.get? branchId = some b → P b.value ∧ P b.stake

/-- **All amounts of a ledger are of a kind**, also the rounds in which branches expire. -/
structure AmountsIn (P : ν → Prop) (l : Ledger ν) : Prop extends FundsIn P l where
  expires : ∀ branchId b, l.branches.get? branchId = some b → P b.expiresRound

/-- A call that names amounts of a kind. -/
def Call.AmountsIn (P : ν → Prop) : Call ν → Prop
  | .offer _ _ value ttl => P value ∧ P ttl
  | .register _ | .accept _ _ | .commit _ _ _ | .cancel _ _ | .advance _ => True

variable {py : PyLib ν} {P : ν → Prop} {l l' : Ledger ν}

/-! ## Funds -/

namespace FundsIn

/-- An entry of a dictionary, or nothing. -/
lemma getD {d : Dict String ν} (hP : Closed P) (h : ∀ a v, d.get? a = some v → P v) (a : String) :
    P (d.getD a (ofInt 0)) := by
  unfold Dict.getD
  cases ha : d.get? a with
  | none => exact hP.ofInt 0
  | some v => exact h a v ha

omit [PyNumber ν] in
/-- A new entry of a dictionary. -/
lemma set {d : Dict String ν} (h : ∀ a v, d.get? a = some v → P v) (a : String) {v : ν} (hv : P v) :
    ∀ b w, (d.set a v).get? b = some w → P w := by
  intro b w hw
  rw [Dict.get?_set] at hw
  split_ifs at hw
  · cases hw
    exact hv
  · exact h b w hw

omit [PyNumber ν] in
/-- Recording a branch with such amounts. -/
lemma setBranch (h : FundsIn P l) {branchId : String} {b : Branch ν} (hvalue : P b.value)
    (hstake : P b.stake) : FundsIn P (l.setBranch branchId b) where
  balances := h.balances
  locked := h.locked
  branches id c hc := by
    rw [branches_setBranch, Dict.get?_set] at hc
    split_ifs at hc
    · cases hc
      exact ⟨hvalue, hstake⟩
    · exact h.branches id c hc

omit [PyNumber ν] in
/-- Locking such an amount. -/
lemma setLocked (h : FundsIn P l) (a : String) {v : ν} (hv : P v) :
    FundsIn P (l.setLocked a v) where
  balances := h.balances
  locked := set h.locked a hv
  branches := h.branches

/-- A branch that ends. -/
lemma released (hP : Closed P) (h : FundsIn P l) {branchId : String} {b : Branch ν} {held : ν}
    (hb : l.branches.get? branchId = some b) (hheld : l.locked.get? b.sender = some held)
    (s : BranchState) : FundsIn P (l.released branchId b s held) := by
  obtain ⟨hvalue, hstake⟩ := h.branches branchId b hb
  refine (h.setBranch (b := { b with state := s }) hvalue hstake).setLocked _ ?_
  exact hP.sub (h.locked _ _ hheld) (hP.add hvalue hstake)

/-- A visit of a branch. -/
lemma turn (hP : Closed P) (h : FundsIn P l) {branchId : String}
    (ht : BranchTurn py l branchId l') : FundsIn P l' := by
  cases ht with
  | stay => exact h
  | expire b held hb _ _ hheld => exact h.released hP hb hheld _
  | final b _ balance held hb _ _ _ hbalance hheld =>
    have hvalue := (h.branches branchId b hb).1
    have hdebited := set h.balances b.sender (hP.sub (h.balances _ _ hbalance) hvalue)
    have hended := h.released hP hb hheld .final
    exact ⟨set hdebited b.receiver (hP.add (getD hP hdebited b.receiver) hvalue), hended.locked,
      hended.branches⟩

/-- **Calls that name such amounts keep the funds of the kind.** -/
theorem call (hP : Closed P) (h : FundsIn P l) {c : Call ν} (hcall : c.AmountsIn P)
    (hc : l.call py c = .ok l') : FundsIn P l' := by
  refine call_induction hc h ?_ ?_ ?_ ?_ ?_ ?_ ?_
  · exact fun account _ _ => ⟨set h.balances account (hP.ofInt 0), h.locked, h.branches⟩
  · rintro s r v t rfl -
    have hv := hcall.1
    exact (h.setBranch hv hv).setLocked s (hP.add (getD hP h.locked s) (hP.add hv hv))
  · intro id b _ hb _ _
    obtain ⟨hvalue, hstake⟩ := h.branches id b hb
    exact h.setBranch hvalue hstake
  · intro id b _ _ hb _ _
    obtain ⟨hvalue, hstake⟩ := h.branches id b hb
    exact h.setBranch hvalue hstake
  · exact fun id _ b held _ hb _ _ hheld => h.released hP hb hheld _
  · exact fun _ m _ _ _ hm => ⟨hm.balances, hm.locked, hm.branches⟩
  · exact fun _ m m' _ _ _ ht hm => hm.turn hP ht

end FundsIn

/-! ## Amounts -/

namespace AmountsIn

/-- **Calls that name such amounts keep the amounts of the kind.** -/
theorem call (hP : Closed P) (h : AmountsIn P l) {c : Call ν} (hcall : c.AmountsIn P)
    (hc : l.call py c = .ok l') : AmountsIn P l' := by
  refine ⟨h.toFundsIn.call hP hcall hc, ?_⟩
  have hset : ∀ (m : Ledger ν) id (b : Branch ν),
      (∀ id b, m.branches.get? id = some b → P b.expiresRound) → P b.expiresRound →
      ∀ j d, (m.branches.set id b).get? j = some d → P d.expiresRound := by
    intro m id b hm hb j d hd
    rw [Dict.get?_set] at hd
    split_ifs at hd
    · cases hd
      exact hb
    · exact hm j d hd
  refine call_induction (I := fun m => ∀ branchId b, m.branches.get? branchId = some b →
    P b.expiresRound) hc h.expires ?_ ?_ ?_ ?_ ?_ ?_ ?_
  · exact fun _ _ _ => h.expires
  · rintro s r v t rfl -
    exact hset l _ _ h.expires (hP.add (hP.ofInt _) hcall.2)
  · exact fun id b _ hb _ _ => hset l id _ h.expires (h.expires id b hb)
  · exact fun id b _ _ hb _ _ => hset l id _ h.expires (h.expires id b hb)
  · exact fun id _ b _ _ hb _ _ _ => hset l id _ h.expires (h.expires id b hb)
  · exact fun _ _ _ _ _ hm => hm
  · intro _ m m' id _ _ ht hm
    cases ht with
    | stay => exact hm
    | expire b _ hb => exact hset m id _ hm (hm id b hb)
    | final b _ _ _ hb => exact hset m id _ hm (hm id b hb)

/-- A run of such calls keeps the amounts of the kind. -/
lemma run (hP : Closed P) {cs : List (Call ν)} (h : AmountsIn P l)
    (hcalls : ∀ c ∈ cs, c.AmountsIn P)
    (hrun : Transition.run (Ledger.step py) l cs = some l') : AmountsIn P l' := by
  refine Transition.run_induction_of_meets (fun m c m' hm hc hstep => ?_) h
    (Transition.meets_of_forall (G := fun c => c.AmountsIn P) hcalls) hrun
  rcases step_eq_some hstep with hcall | ⟨-, rfl⟩
  · exact hm.call hP hc hcall
  · exact hm

/-- A reload keeps the amounts of the kind. -/
lemma reloaded (hP : Closed P) (h : AmountsIn P l) : AmountsIn P l.reloaded where
  balances a v hv := by
    change l.balances.sorted.get? a = some v at hv
    rw [Dict.get?_sorted] at hv
    exact h.balances a v hv
  locked a v hv := by
    change (l.locked.sorted.mapVal fun v => ofInt (trunc v)).get? a = some v at hv
    rw [Dict.get?_mapVal, Option.map_eq_some_iff] at hv
    obtain ⟨w, -, rfl⟩ := hv
    exact hP.ofInt _
  branches := h.branches
  expires := h.expires

/-- A new ledger has no amounts but its balances. -/
lemma of_initial (hinitial : Initial py l) (h : ∀ a v, l.balances.get? a = some v → P v) :
    AmountsIn P l := by
  have hbranches := hinitial.branches_eq
  refine ⟨⟨h, fun a v hv => ?_, fun id b hb => ?_⟩, fun id b hb => ?_⟩
  · cases hinitial <;> cases hv
  · rw [hbranches] at hb
    cases hb
  · rw [hbranches] at hb
    cases hb

end AmountsIn

end Kinds

/-! ## Amounts that are no floats -/

/-- An amount that is no float: the interpreter computes with it exactly. -/
def NoFloat (v : JsonNum) : Prop := v.index?.isSome = true

/-- Sums and differences of such amounts are no floats. -/
lemma closed_noFloat : Closed NoFloat where
  ofInt _ := rfl
  add {v w} hv hw := (JsonNum.isSome_index?_op v w).trans (by rw [hv, hw]; rfl)
  sub {v w} hv hw := (JsonNum.isSome_index?_op v w).trans (by rw [hv, hw]; rfl)

/-- Truncation does not change an amount that is no float. -/
lemma NoFloat.val_eq_trunc {v : JsonNum} (h : NoFloat v) : val v = trunc v := by
  obtain ⟨n, hn⟩ := Option.isSome_iff_exists.mp h
  have hval : val v = n := PyNumber.val_of_index? hn
  rw [hval, PyNumber.trunc_of_val_eq hval]

end Ledger

end SplitChain
