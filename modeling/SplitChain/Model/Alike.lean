import SplitChain.Model.Request
import SplitChain.Model.Restore

set_option relaxedAutoImplicit false
set_option autoImplicit false

/-!
# Ledgers that behave alike

A ledger that has been restored from a snapshot is not the same object: its dictionaries are in
another order, and its locked amounts have another type. No operation can tell. Two ledgers are
alike if they agree on what the operations read; then every call has the same result on both, and
leaves ledgers that are alike again.

Only an offer reads how much is locked. Where the restored ledger has lost a fraction of a locked
amount, it still makes every call that the other one makes.

## Main definitions

* `SplitChain.Ledger.AlikeBy` — agreement, up to a relation of the locked amounts.
* `SplitChain.Ledger.Alike` — agreement.
* `SplitChain.Ledger.Roomier` — agreement, except that less may be locked.

## Main results

* `SplitChain.Ledger.Alike.perform` — calls cannot tell ledgers that are alike apart.
* `SplitChain.Ledger.Roomier.exists_execute` — a ledger with more room makes the same calls.
* `SplitChain.Ledger.alike_reloaded`, `SplitChain.Ledger.roomier_reloaded` — a ledger and the one
  restored from its snapshot.
-/

namespace SplitChain

namespace Ledger

open Raise

open PyNumber (val ofInt trunc)

variable {ν : Type} [PyNumber ν]

/-- Two ledgers agree on what the operations read, and their locked amounts are related. -/
structure AlikeBy (R : ℚ → ℚ → Prop) (l m : Ledger ν) : Prop where
  genesis : ∀ a, l.isLocked a = m.isLocked a
  round : l.round = m.round
  balances : ∀ a, l.balances.get? a = m.balances.get? a
  locked : ∀ a, Option.Rel (fun v w => R (val v) (val w)) (l.locked.get? a) (m.locked.get? a)
  branches : l.branches = m.branches
  finalized : l.finalized = m.finalized
  canonicalHeight : l.canonicalHeight = m.canonicalHeight
  canonicalDigest : l.canonicalDigest = m.canonicalDigest
  canonicalHistory : ∀ h, l.canonicalHistory.get? h = m.canonicalHistory.get? h

/-- Two ledgers agree on what the operations read. -/
abbrev Alike (l m : Ledger ν) : Prop := AlikeBy (· = ·) l m

/-- The second ledger agrees with the first, except that it may have less locked. -/
abbrev Roomier (l m : Ledger ν) : Prop := AlikeBy (· ≥ ·) l m

namespace AlikeBy

variable {py : PyLib ν} {R : ℚ → ℚ → Prop} {l m : Ledger ν}

/-! ## What is read -/

/-- Dictionaries that agree have the same value under a key, with the same default. -/
lemma getD_congr {κ μ : Type} [DecidableEq κ] {d e : Dict κ μ} (h : ∀ k, d.get? k = e.get? k)
    (k : κ) (v : μ) : d.getD k v = e.getD k v := by
  rw [Dict.getD, Dict.getD, h]

/-- The locked funds are related. -/
lemma val_locked (h : AlikeBy R l m) (hrefl : ∀ x, R x x) (a : String) :
    R (val (l.locked.getD a (ofInt 0))) (val (m.locked.getD a (ofInt 0))) := by
  have ha := h.locked a
  unfold Dict.getD
  cases hl : l.locked.get? a <;> cases hm : m.locked.get? a <;> rw [hl, hm] at ha
  · exact hrefl _
  · cases ha
  · cases ha
  · cases ha with
    | some hv => exact hv

/-- The same new entry keeps dictionaries in agreement. -/
lemma get?_set_congr {κ μ : Type} [DecidableEq κ] {d e : Dict κ μ} (h : ∀ k, d.get? k = e.get? k)
    (k : κ) (v : μ) (j : κ) : (d.set k v).get? j = (e.set k v).get? j := by
  rw [Dict.get?_set, Dict.get?_set, h]

/-! ## What is written -/

lemma setBranch (h : AlikeBy R l m) (branchId : String) (b : Branch ν) :
    AlikeBy R (l.setBranch branchId b) (m.setBranch branchId b) :=
  { h with branches := by rw [Ledger.setBranch, Ledger.setBranch, h.branches] }

lemma setLocked (h : AlikeBy R l m) (a : String) {v w : ν} (hv : R (val v) (val w)) :
    AlikeBy R (l.setLocked a v) (m.setLocked a w) :=
  { h with
    locked := fun b => by
      show Option.Rel _ ((l.locked.set a v).get? b) ((m.locked.set a w).get? b)
      rw [Dict.get?_set, Dict.get?_set]
      split_ifs
      · exact .some hv
      · exact h.locked b }

lemma appendBlock (h : AlikeBy R l m) (digest : String) :
    AlikeBy R (l.appendBlock digest) (m.appendBlock digest) :=
  { h with
    canonicalHeight := congrArg (· + 1) h.canonicalHeight
    canonicalDigest := rfl
    canonicalHistory := fun j => by
      show (l.canonicalHistory.set (l.canonicalHeight + 1) digest).get? j =
        (m.canonicalHistory.set (m.canonicalHeight + 1) digest).get? j
      rw [h.canonicalHeight]
      exact get?_set_congr h.canonicalHistory _ _ j }

/-! ## The operations -/

/-- Pairs of a ledger and a result: the ledgers agree, the results are equal. -/
def Same {α : Type} (R : ℚ → ℚ → Prop) (p q : Ledger ν × α) : Prop := AlikeBy R p.1 q.1 ∧ p.2 = q.2

lemma registerAccount (h : AlikeBy R l m) (account : String) :
    Rel (AlikeBy R) (l.registerAccount py account) (m.registerAccount py account) := by
  have hknown : l.balances.contains account = m.balances.contains account := by
    rw [Dict.contains, Dict.contains, h.balances]
  have hdigest : l.registerDigest py account = m.registerDigest py account := by
    rw [registerDigest, registerDigest, h.canonicalHeight, h.canonicalDigest]
  unfold Ledger.registerAccount
  rw [hknown, hdigest]
  refine (rel_require _ _).bind fun _ _ _ => ?_
  refine AlikeBy.appendBlock (l := { l with balances := l.balances.set account (ofInt 0) })
    (m := { m with balances := m.balances.set account (ofInt 0) }) ?_ _
  exact { h with balances := fun a => get?_set_congr h.balances _ _ a }

/-- An offer makes the same branch. -/
lemma newBranch (h : AlikeBy R l m) (sender receiver : String) (value ttl : ν) :
    l.newBranch py sender receiver value ttl = m.newBranch py sender receiver value ttl := by
  simp only [Ledger.newBranch, nextBranchId, branchIdValue, h.branches, h.canonicalDigest,
    h.canonicalHeight, h.round]

lemma branch (h : AlikeBy R l m) (branchId : String) (states : List BranchState) :
    l.branch branchId states = m.branch branchId states := by
  rw [Ledger.branch, Ledger.branch, h.branches]

lemma ensureLive (h : AlikeBy R l m) (b : Branch ν) : l.ensureLive b = m.ensureLive b := by
  rw [Ledger.ensureLive, Ledger.ensureLive, h.round]

/-- Releasing funds asks that the relation of the locked amounts lasts when both are lowered. -/
lemma unlock (h : AlikeBy R l m) (hsub : ∀ x y z, R x y → R (x - z) (y - z)) (b : Branch ν) :
    Rel (AlikeBy R) (l.unlock b) (m.unlock b) := by
  unfold Ledger.unlock
  refine (rel_orRaise (h.locked b.sender)).bind fun v w hv => h.setLocked _ ?_
  rw [PyNumber.val_sub, PyNumber.val_sub]
  exact hsub _ _ _ hv

lemma accept (h : AlikeBy R l m) (branchId receiver : String) :
    Rel (Same R) (l.accept branchId receiver) (m.accept branchId receiver) := by
  unfold Ledger.accept
  rw [h.branch]
  refine (rel_eq _).bind fun b _ hb => ?_
  subst hb
  rw [h.ensureLive, h.round]
  exact (rel_eq _).bind fun _ _ _ => (rel_eq _).bind fun _ _ _ => ⟨h.setBranch _ _, rfl⟩

lemma commit (h : AlikeBy R l m) (branchId sender : String) (payload : Json ν) :
    Rel (Same R) (l.commit py branchId sender payload) (m.commit py branchId sender payload) := by
  unfold Ledger.commit
  rw [h.branch]
  refine (rel_eq _).bind fun b _ hb => ?_
  subst hb
  rw [h.ensureLive, h.round]
  exact (rel_eq _).bind fun _ _ _ => (rel_eq _).bind fun _ _ _ => ⟨h.setBranch _ _, rfl⟩

lemma cancel (h : AlikeBy R l m) (hsub : ∀ x y z, R x y → R (x - z) (y - z))
    (branchId actor : String) :
    Rel (Same R) (l.cancel branchId actor) (m.cancel branchId actor) := by
  unfold Ledger.cancel
  rw [h.branch]
  refine (rel_eq _).bind fun b _ hb => ?_
  subst hb
  refine (rel_eq _).bind fun _ _ _ => ?_
  exact ((h.setBranch _ _).unlock hsub _).bind fun l' m' h' => ⟨h', rfl⟩

lemma transfer (h : AlikeBy R l m) (b : Branch ν) :
    Rel (AlikeBy R) (l.transfer b) (m.transfer b) := by
  unfold Ledger.transfer
  rw [h.balances]
  refine (rel_eq _).bind fun v _ hv => ?_
  subst hv
  have hdebit := get?_set_congr h.balances b.sender (v - b.value)
  refine { h with balances := fun a => ?_ }
  show ((l.balances.set b.sender (v - b.value)).set b.receiver _).get? a =
    ((m.balances.set b.sender (v - b.value)).set b.receiver _).get? a
  rw [getD_congr hdebit]
  exact get?_set_congr hdebit _ _ a

lemma finalize (h : AlikeBy R l m) (hsub : ∀ x y z, R x y → R (x - z) (y - z))
    (branchId : String) (b : Branch ν) :
    Rel (Same R) (l.finalize py branchId b) (m.finalize py branchId b) := by
  have hdigest : l.finalizeDigest py b = m.finalizeDigest py b := by
    rw [finalizeDigest, finalizeDigest, h.canonicalHeight, h.canonicalDigest]
  unfold Ledger.finalize
  rw [hdigest]
  refine (h.transfer b).bind fun l₁ m₁ h₁ => (h₁.unlock hsub b).bind fun l₂ m₂ h₂ => ⟨?_, rfl⟩
  refine AlikeBy.appendBlock ?_ _
  have h₃ := h₂.setBranch branchId { b with state := .final }
  exact { h₃ with finalized := by rw [appendFinalized, appendFinalized, h₃.finalized] }

lemma advanceBranch (h : AlikeBy R l m) (hsub : ∀ x y z, R x y → R (x - z) (y - z))
    (branchId : String) :
    Rel (Same R) (l.advanceBranch py branchId) (m.advanceBranch py branchId) := by
  have hstay : ∀ bs : List (Branch ν), Rel (Same R) (.ok (l, bs) : Except PyError _) (.ok (m, bs)) :=
    fun _ => ⟨h, rfl⟩
  have hexpire : ∀ b : Branch ν, Rel (Same R)
      (if val b.expiresRound ≤ l.round then do
        let b' := { b with state := .expired }
        let l' ← (l.setBranch branchId b').unlock b'
        return (l', [b'])
      else .ok (l, []))
      (if val b.expiresRound ≤ m.round then do
        let b' := { b with state := .expired }
        let m' ← (m.setBranch branchId b').unlock b'
        return (m', [b'])
      else .ok (m, [])) := by
    intro b
    rw [h.round]
    split_ifs
    · exact ((h.setBranch branchId _).unlock hsub _).bind fun _ _ h' => ⟨h', rfl⟩
    · exact hstay []
  unfold Ledger.advanceBranch
  rw [h.branches]
  cases m.branches.get? branchId with
  | none => exact hstay []
  | some b =>
    cases hs : b.state with
    | offered => simpa only [hs] using hexpire b
    | accepted => simpa only [hs] using hexpire b
    | committed =>
      simp only [hs]
      refine (rel_eq _).bind fun r _ hr => ?_
      subst hr
      rw [h.round]
      split_ifs
      · refine (h.finalize hsub branchId b).bind fun p q hpq => ⟨hpq.1, ?_⟩
        exact congrArg (fun b => [b]) hpq.2
      · exact hstay []
    | final | cancelled | expired => simpa only [hs] using hstay []

lemma advanceBranches {ids : List String} (h : AlikeBy R l m)
    (hsub : ∀ x y z, R x y → R (x - z) (y - z)) :
    Rel (Same R) (advanceBranches py ids l) (advanceBranches py ids m) := by
  induction ids generalizing l m with
  | nil => exact ⟨h, rfl⟩
  | cons branchId ids ih =>
    refine (h.advanceBranch hsub branchId).bind fun p q hpq => (ih hpq.1).bind fun p' q' hpq' => ?_
    exact ⟨hpq'.1, congrArg₂ (· ++ ·) hpq.2 hpq'.2⟩

lemma advanceRounds {n : ℕ} (h : AlikeBy R l m)
    (hsub : ∀ x y z, R x y → R (x - z) (y - z)) :
    Rel (Same R) (advanceRounds py n l) (advanceRounds py n m) := by
  induction n generalizing l m with
  | zero => exact ⟨h, rfl⟩
  | succ n ih =>
    have hkeys : l.branches.keys = m.branches.keys := congrArg Dict.keys h.branches
    unfold Ledger.advanceRounds
    rw [hkeys]
    have htick : AlikeBy R { l with round := l.round + 1 } { m with round := m.round + 1 } :=
      { h with round := congrArg (· + 1) h.round }
    refine (htick.advanceBranches hsub).bind fun p q hpq => (ih hpq.1).bind fun p' q' hpq' => ?_
    exact ⟨hpq'.1, congrArg₂ (· ++ ·) hpq.2 hpq'.2⟩

lemma advance (h : AlikeBy R l m) (hsub : ∀ x y z, R x y → R (x - z) (y - z)) (rounds : ℤ) :
    Rel (Same R) (l.advance py rounds) (m.advance py rounds) :=
  (rel_require _ _).bind fun _ _ _ => h.advanceRounds hsub

/-- **Calls cannot tell ledgers that agree apart**, offers excepted.

**Proof sketch.** Every operation reads only what such ledgers agree on, and writes the same
entries to both. Releasing funds lowers both locked amounts by the same. -/
theorem perform_of_ne_offer (h : AlikeBy R l m) (hsub : ∀ x y z, R x y → R (x - z) (y - z))
    {c : Call ν} (hc : ∀ s r v t, c ≠ .offer s r v t) :
    Rel (Same R) (l.perform py c) (m.perform py c) := by
  have hmap : ∀ {α : Type} {x y : Except PyError (Ledger ν × α)} (f : α → Result ν),
      Rel (Same R) x y → Rel (Same R) (Prod.map id f <$> x) (Prod.map id f <$> y) :=
    fun f hxy => hxy.map fun p q hpq => ⟨hpq.1, congrArg f hpq.2⟩
  cases c with
  | register account =>
    refine (h.registerAccount account).bind fun l' m' h' => ⟨h', ?_⟩
    exact congrArg (Result.account account) h'.canonicalHeight
  | offer sender receiver value ttl => exact absurd rfl (hc sender receiver value ttl)
  | accept branchId receiver => exact hmap _ (h.accept branchId receiver)
  | commit branchId sender payload => exact hmap _ (h.commit branchId sender payload)
  | cancel branchId actor => exact hmap _ (h.cancel hsub branchId actor)
  | advance rounds => exact hmap _ (h.advance hsub rounds)

end AlikeBy

/-! ## Ledgers that are alike -/

namespace Alike

variable {py : PyLib ν} {l m : Ledger ν}

lemma refl (l : Ledger ν) : Alike l l where
  genesis _ := rfl
  round := rfl
  balances _ := rfl
  locked a := by cases l.locked.get? a <;> constructor; rfl
  branches := rfl
  finalized := rfl
  canonicalHeight := rfl
  canonicalDigest := rfl
  canonicalHistory _ := rfl

lemma symm (h : Alike l m) : Alike m l where
  genesis a := (h.genesis a).symm
  round := h.round.symm
  balances a := (h.balances a).symm
  locked a := by
    have ha := h.locked a
    cases hl : l.locked.get? a <;> cases hm : m.locked.get? a <;> rw [hl, hm] at ha
    · exact .none
    · cases ha
    · cases ha
    · cases ha with
      | some hv => exact .some hv.symm
  branches := h.branches.symm
  finalized := h.finalized.symm
  canonicalHeight := h.canonicalHeight.symm
  canonicalDigest := h.canonicalDigest.symm
  canonicalHistory a := (h.canonicalHistory a).symm

lemma trans {l' : Ledger ν} (h : Alike l m) (h' : Alike m l') : Alike l l' where
  genesis a := (h.genesis a).trans (h'.genesis a)
  round := h.round.trans h'.round
  balances a := (h.balances a).trans (h'.balances a)
  locked a := by
    have ha := h.locked a
    have ha' := h'.locked a
    cases hl : l.locked.get? a <;> cases hm : m.locked.get? a <;> rw [hl, hm] at ha <;>
      rw [hm] at ha'
    · exact ha'
    · cases ha
    · cases ha
    · cases ha with
      | some hv =>
        cases hl' : l'.locked.get? a <;> rw [hl'] at ha'
        · cases ha'
        · cases ha' with
          | some hv' => exact .some (hv.trans hv')
  branches := h.branches.trans h'.branches
  finalized := h.finalized.trans h'.finalized
  canonicalHeight := h.canonicalHeight.trans h'.canonicalHeight
  canonicalDigest := h.canonicalDigest.trans h'.canonicalDigest
  canonicalHistory j := (h.canonicalHistory j).trans (h'.canonicalHistory j)

/-- Pairs of a ledger and a result: the ledgers are alike, the results equal. -/
abbrev Same {α : Type} (p q : Ledger ν × α) : Prop := Alike p.1 q.1 ∧ p.2 = q.2

/-- The locked funds have the same value. -/
lemma val_locked (h : Alike l m) (a : String) :
    val (l.locked.getD a (ofInt 0)) = val (m.locked.getD a (ofInt 0)) :=
  AlikeBy.val_locked h (fun _ => rfl) a

/-- So have the available funds. -/
lemma val_available (h : Alike l m) (a : String) : val (l.available a) = val (m.available a) := by
  rw [available, available, PyNumber.val_sub, PyNumber.val_sub, val_locked h,
    AlikeBy.getD_congr h.balances]

lemma offer (h : Alike l m) (sender receiver : String) (value ttl : ν) :
    Rel Same (l.offer py sender receiver value ttl) (m.offer py sender receiver value ttl) := by
  have hknown : l.balances.contains receiver = m.balances.contains receiver := by
    rw [Dict.contains, Dict.contains, h.balances]
  unfold Ledger.offer
  rw [h.genesis, hknown, h.val_available, h.newBranch]
  refine (rel_require _ _).bind fun _ _ _ => (rel_require _ _).bind fun _ _ _ =>
    (rel_require _ _).bind fun _ _ _ => (rel_require _ _).bind fun _ _ _ =>
    (rel_require _ _).bind fun _ _ _ => ⟨?_, rfl⟩
  refine (h.setBranch _ _).setLocked _ ?_
  rw [PyNumber.val_add (l.locked.getD sender (ofInt 0)), val_locked h,
    PyNumber.val_add (m.locked.getD sender (ofInt 0))]

/-- **Calls cannot tell ledgers that are alike apart.**

**Proof sketch.** An offer finds the same funds available, and any other call does not ask how much
is locked. -/
theorem perform (h : Alike l m) (c : Call ν) : Rel Same (l.perform py c) (m.perform py c) := by
  by_cases hoffer : ∃ s r v t, c = .offer s r v t
  · obtain ⟨s, r, v, t, rfl⟩ := hoffer
    exact (h.offer s r v t).map fun p q hpq => ⟨hpq.1, congrArg Result.branch hpq.2⟩
  · exact h.perform_of_ne_offer (fun x y z hxy => congrArg (· - z) hxy)
      fun s r v t hc => hoffer ⟨s, r, v, t, hc⟩

/-- The same for the method tables. -/
theorem execute (h : Alike l m) (method : Method) (params : Json ν) :
    Rel Same (l.execute py method params) (m.execute py method params) := by
  refine (rel_eq _).bind fun d _ hd => ?_
  subst hd
  refine (rel_eq _).bind fun c _ hc => ?_
  subst hc
  exact h.perform c

end Alike

/-! ## Ledgers with more room -/

namespace Roomier

variable {py : PyLib ν} {l m : Ledger ν}

/-- An offer that finds enough funds available finds them where less is locked. -/
lemma canOffer (h : Roomier l m) {sender receiver : String} {value ttl : ν}
    (hcan : l.CanOffer sender receiver value ttl) : m.CanOffer sender receiver value ttl where
  unlocked := (h.genesis sender).symm.trans hcan.unlocked
  value_pos := hcan.value_pos
  ttl_covers := hcan.ttl_covers
  distinct := hcan.distinct
  known := by
    have hknown := hcan.known
    rwa [Dict.contains, h.balances] at hknown
  funds := by
    have hlocked := h.val_locked (fun _ => le_rfl) sender
    have hfunds := hcan.funds
    rw [available, PyNumber.val_sub, AlikeBy.getD_congr h.balances] at hfunds
    rw [available, PyNumber.val_sub]
    linarith

/-- **A ledger with more room makes the same calls.** -/
theorem exists_perform (h : Roomier l m) {c : Call ν} {p : Ledger ν × Result ν}
    (hp : l.perform py c = .ok p) : ∃ q, m.perform py c = .ok q := by
  by_cases hoffer : ∃ s r v t, c = .offer s r v t
  · obtain ⟨s, r, v, t, rfl⟩ := hoffer
    simp only [perform, map_eq_ok, Prod.exists, offer_eq_ok] at hp ⊢
    obtain ⟨_, _, ⟨hcan, -, -⟩, -⟩ := hp
    exact ⟨_, _, _, _, ⟨h.canOffer hcan, rfl, rfl⟩, rfl⟩
  · have hsame : Rel _ (l.perform py c) (m.perform py c) :=
      h.perform_of_ne_offer (fun x y z hxy => sub_le_sub_right hxy z)
        fun s r v t hc => hoffer ⟨s, r, v, t, hc⟩
    obtain ⟨q, hq, -⟩ := hsame.exists_ok hp
    exact ⟨q, hq⟩

/-- The same for the method tables. -/
theorem exists_execute (h : Roomier l m) {method : Method} {params : Json ν}
    {p : Ledger ν × Result ν} (hp : l.execute py method params = .ok p) :
    ∃ q, m.execute py method params = .ok q := by
  unfold Ledger.execute at hp ⊢
  simp only [bind_eq_ok] at hp ⊢
  obtain ⟨d, hd, c, hc, hp⟩ := hp
  obtain ⟨q, hq⟩ := h.exists_perform hp
  exact ⟨q, d, hd, c, hc, hq⟩

end Roomier

/-! ## Restored ledgers -/

/-- A ledger and the one that is restored from its snapshot agree, and its locked amounts have been
truncated. -/
lemma alikeBy_reloaded {l : Ledger ν} {R : ℚ → ℚ → Prop}
    (h : ∀ a v, l.locked.get? a = some v → R (val v) (trunc v)) : AlikeBy R l l.reloaded where
  genesis a := by
    unfold isLocked reloaded
    cases l.genesis <;> rfl
  round := rfl
  balances a := (Dict.get?_sorted _ a).symm
  locked a := by
    show Option.Rel _ _ ((l.locked.sorted.mapVal fun v => ofInt (trunc v)).get? a)
    rw [Dict.get?_mapVal, Dict.get?_sorted]
    cases hv : l.locked.get? a with
    | none => exact .none
    | some v =>
      refine .some ?_
      rw [PyNumber.val_ofInt]
      exact h a v hv
  branches := rfl
  finalized := rfl
  canonicalHeight := rfl
  canonicalDigest := rfl
  canonicalHistory j := (Dict.get?_sorted _ j).symm

/-- **A ledger is like the one that is restored from its snapshot**, if truncation does not change
its locked amounts. -/
theorem alike_reloaded {l : Ledger ν} (h : ∀ a v, l.locked.get? a = some v → val v = trunc v) :
    Alike l l.reloaded :=
  alikeBy_reloaded h

end Ledger

end SplitChain
