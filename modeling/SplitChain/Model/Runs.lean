import Mathlib.Data.Set.Function
import SplitChain.Library.Sha256
import SplitChain.Library.Transition
import SplitChain.Model.Invariant

set_option relaxedAutoImplicit false
set_option autoImplicit false

/-!
# Runs of the ledger

A ledger starts from balances or from a genesis configuration and takes calls one after the
other; a call that raises `ProtocolError` changes nothing. Offers name their branches by
truncated digests; that no branch is overwritten rests on the truncated digests of the distinct
inputs a run hashes being distinct.

## Main definitions

* `SplitChain.Ledger.Initial` — the initial ledgers.
* `SplitChain.Ledger.step` — a call as a transition.
* `SplitChain.Ledger.NoIdCollision` — the branch identifiers of a run do not collide.

## Main results

* `SplitChain.Ledger.meets_freshId` — without collisions every offer has a new identifier.
* `SplitChain.Ledger.run_lockInv` — the lock invariant holds after every run.
* `SplitChain.Ledger.run_excess` — no funds stay locked without a branch that holds them.
* `SplitChain.Ledger.run_conserves_funds` — conservation of funds for integer amounts.
-/

namespace SplitChain

namespace Ledger

open Raise

open PyNumber (val ofInt)

variable {ν : Type} [PyNumber ν]

/-! ## Transitions -/

/-- The ledgers a node can start from: balances that are nonnegative, or the allocations of an
accepted genesis configuration. -/
inductive Initial (py : PyLib ν) : Ledger ν → Prop
  | balances (balances : Dict String ν) (nonneg : ∀ a v, balances.get? a = some v → 0 ≤ val v) :
      Initial py (ofBalances py balances)
  | genesis (raw : Json JsonNum) (g : GenesisConfig) (accepted : GenesisConfig.fromDict raw = .ok g) :
      Initial py (ofGenesis py g)

/-- A call as a transition. A `ProtocolError` leaves the ledger as it is; any other exception is
not handled, and the transition is undefined. -/
def step (py : PyLib ν) (l : Ledger ν) (c : Call ν) : Option (Ledger ν) :=
  match l.call py c with
  | .ok l' => some l'
  | .error e => if e.isProtocol then some l else none

/-- A step is a call that returns, or one that raises and changes nothing. -/
lemma step_eq_some {py : PyLib ν} {l l' : Ledger ν} {c : Call ν} (h : l.step py c = some l') :
    l.call py c = .ok l' ∨ ((∃ e, l.call py c = .error e) ∧ l' = l) := by
  unfold step at h
  split at h
  · next m hm => cases h; exact .inl hm
  · next e he =>
    split_ifs at h
    cases h
    exact .inr ⟨⟨e, he⟩, rfl⟩

/-- A call that succeeds is a step. -/
lemma step_of_call {py : PyLib ν} {l l' : Ledger ν} {c : Call ν} (hc : l.call py c = .ok l') :
    l.step py c = some l' := by
  rw [step, hc]

/-! ## Branch identifiers -/

/-- The bytes whose digest names the branch an offer creates. -/
def branchIdInput (py : PyLib ν) (l : Ledger ν) (sender receiver : String) (value : ν) :
    List UInt8 :=
  digestInput py .branchId (l.branchIdValue sender receiver value)

/-- The bytes a call hashes to name a branch. -/
def hashedId (py : PyLib ν) (l : Ledger ν) : Call ν → Option (List UInt8)
  | .offer sender receiver value ttl =>
    match l.offer py sender receiver value ttl with
    | .ok _ => some (l.branchIdInput py sender receiver value)
    | .error _ => none
  | _ => none

/-- The bytes a run hashes to name branches. -/
def hashedIds (py : PyLib ν) : Ledger ν → List (Call ν) → List (List UInt8)
  | _, [] => []
  | l, c :: cs => (l.hashedId py c).toList ++
      match l.step py c with
      | some l' => hashedIds py l' cs
      | none => []

/-- Distinct inputs that a run hashes for branch identifiers have distinct truncated digests. -/
def NoIdCollision (py : PyLib ν) (l : Ledger ν) (cs : List (Call ν)) : Prop :=
  Set.InjOn (fun input => shortId (py.sha256 input)) {input | input ∈ hashedIds py l cs}

/-- Identifiers that are pairwise distinct do not collide. -/
lemma noIdCollision_of_nodup {py : PyLib ν} {l : Ledger ν} {cs : List (Call ν)}
    (h : ((hashedIds py l cs).map fun input => shortId (py.sha256 input)).Nodup) :
    NoIdCollision py l cs := fun _ hx _ hy => List.inj_on_of_nodup_map h hx hy

/-- The text of a branch identifier's value begins with the nonce. -/
lemma canonicalText_branchIdValue (py : PyLib ν) (l : Ledger ν) (sender receiver : String)
    (value : ν) : ∃ rest, (l.branchIdValue sender receiver value).canonicalText py.numberText =
      "\x7b\"nonce\":".toList ++ (Nat.toDigits 10 l.branches.size ++ ',' :: rest) := by
  have hsorted : (Json.memberTexts py.numberText [("nonce", .num (ofInt l.branches.size)),
      ("origin_digest", .str l.canonicalDigest), ("origin_height", .num (ofInt l.canonicalHeight)),
      ("receiver", .str receiver), ("round", .num (ofInt l.round)), ("sender", .str sender),
      ("value", .num value)]).Pairwise fun a b => a.1 ≤ b.1 := by
    have hkeys : ["nonce", "origin_digest", "origin_height", "receiver", "round", "sender",
        "value"].Pairwise (· ≤ ·) := by decide
    exact List.pairwise_map.mp hkeys
  have hnonce : (py.numberText (ofInt (l.branches.size : ℤ))).toList =
      Nat.toDigits 10 l.branches.size := by
    rw [py.numberText_ofInt]
    exact Nat.toList_repr
  simp only [branchIdValue, Json.canonicalText, Json.objectText, hsorted.insertionSort_eq]
  simp only [Json.memberTexts, List.map_cons, Json.commaSep, Json.canonicalText, hnonce]
  have hprefix : ∀ members : List Char, '{' :: (Json.quote "nonce" ++
      ':' :: Nat.toDigits 10 l.branches.size ++ ',' :: members ++ ['}']) =
      "\x7b\"nonce\":".toList ++ (Nat.toDigits 10 l.branches.size ++ ',' :: (members ++ ['}'])) := by
    intro members
    rw [show Json.quote "nonce" = "\"nonce\"".toList by decide]
    simp
  exact ⟨_, hprefix _⟩

/-- The bytes hashed for a branch identifier determine the number of branches before it.

**Proof sketch.** The encoding and the domain prefix are injective, so the texts agree; the
numeral of the nonce ends at the first comma. -/
lemma size_eq_of_branchIdInput_eq {py : PyLib ν} {l m : Ledger ν} {s r s' r' : String} {v v' : ν}
    (h : l.branchIdInput py s r v = m.branchIdInput py s' r' v') :
    l.branches.size = m.branches.size := by
  have hnumeral : ∀ n rest, (Nat.toDigits 10 n ++ ',' :: rest).takeWhile (· ≠ ',') =
      Nat.toDigits 10 n := by
    intro n rest
    rw [List.takeWhile_append_of_pos, List.takeWhile_cons_of_neg (by simp), List.append_nil]
    intro c hc
    have hdigit := Nat.isDigit_of_mem_toDigits (by decide) (by decide) hc
    rw [decide_eq_true_eq]
    rintro rfl
    exact absurd hdigit (by decide)
  have htext := encodeUtf8_injective (List.cons_injective (List.append_cancel_left h))
  obtain ⟨rest, hrest⟩ := l.canonicalText_branchIdValue py s r v
  obtain ⟨rest', hrest'⟩ := m.canonicalText_branchIdValue py s' r' v'
  rw [hrest, hrest'] at htext
  have hdigits := congrArg (List.takeWhile (· ≠ ',')) (List.append_cancel_left htext)
  rw [hnumeral, hnumeral] at hdigits
  have hvalue := congrArg (Nat.ofDigitChars 10 · 0) hdigits
  simpa only [Nat.ofDigitChars_toDigits (b := 10) (by decide) (by decide)] using hvalue

/-- A call keeps the branch identifiers, except for an offer, which adds a branch. -/
lemma keys_call {py : PyLib ν} {l l' : Ledger ν} {c : Call ν} (hc : l.call py c = .ok l') :
    l'.branches.keys = l.branches.keys ∨ ∃ s r v t, c = .offer s r v t ∧ l.CanOffer s r v t ∧
      l'.branches = l.branches.set (l.nextBranchId py s r v) (l.newBranch py s r v t) := by
  refine call_induction (I := fun m => m.branches.keys = l.branches.keys ∨ ∃ s r v t,
    c = .offer s r v t ∧ l.CanOffer s r v t ∧ m.branches =
      l.branches.set (l.nextBranchId py s r v) (l.newBranch py s r v t))
    hc (.inl rfl) ?_ ?_ ?_ ?_ ?_ ?_ ?_
  · exact fun _ _ _ => .inl rfl
  · exact fun s r v t hcall hcan => .inr ⟨s, r, v, t, hcall, hcan, rfl⟩
  · exact fun _ _ _ hb _ _ => .inl (Dict.keys_set_of_some _ hb)
  · exact fun _ _ _ _ hb _ _ => .inl (Dict.keys_set_of_some _ hb)
  · exact fun _ _ _ _ _ hb _ _ _ => .inl (Dict.keys_set_of_some _ hb)
  · exact fun _ _ _ _ _ hm => hm
  · rintro n m m' branchId rfl - ht (hm | ⟨_, _, _, _, h, -⟩)
    · left
      exact ht.keys_eq.trans hm
    · cases h

/-- Every branch is named by the digest of an input in `seen`, hashed when there were fewer
branches. -/
structure NamedBy (py : PyLib ν) (seen : List (List UInt8)) (l : Ledger ν) : Prop where
  named : ∀ branchId ∈ l.branches.keys, ∃ x ∈ seen, branchId = shortId (py.sha256 x)
  earlier : ∀ x ∈ seen, ∃ (m : Ledger ν) (s r : String) (v : ν),
    x = m.branchIdInput py s r v ∧ m.branches.size < l.branches.size

/-- An offer that succeeds finds the identifier of its branch unused. -/
def FreshId (py : PyLib ν) (l : Ledger ν) (c : Call ν) : Prop :=
  ∀ sender receiver value ttl, c = .offer sender receiver value ttl →
    l.CanOffer sender receiver value ttl →
    l.branches.get? (l.nextBranchId py sender receiver value) = none

/-- The name of a new branch differs from all others if its input does not collide. -/
lemma NamedBy.get?_eq_none {py : PyLib ν} {seen : List (List UInt8)} {l : Ledger ν} {s r : String}
    {v : ν} (h : NamedBy py seen l) {hashed : Set (List UInt8)}
    (hinj : hashed.InjOn fun x => shortId (py.sha256 x)) (hseen : ∀ x ∈ seen, x ∈ hashed)
    (hnew : l.branchIdInput py s r v ∈ hashed) :
    l.branches.get? (l.nextBranchId py s r v) = none := by
  rw [Dict.get?_eq_none_iff]
  intro hmem
  obtain ⟨x, hx, hid⟩ := h.named _ hmem
  obtain ⟨m, s', r', v', rfl, hlt⟩ := h.earlier x hx
  have hsame := hinj hnew (hseen _ hx) hid
  exact absurd (size_eq_of_branchIdInput_eq hsame) (by omega)

/-- Adding the branch of an offer. -/
lemma NamedBy.set {py : PyLib ν} {seen : List (List UInt8)} {l l' : Ledger ν} {s r : String}
    {v t : ν} (h : NamedBy py seen l)
    (hfresh : l.branches.get? (l.nextBranchId py s r v) = none)
    (hl' : l'.branches = l.branches.set (l.nextBranchId py s r v) (l.newBranch py s r v t)) :
    NamedBy py (l.branchIdInput py s r v :: seen) l' := by
  have hsize : l'.branches.size = l.branches.size + 1 := by
    rw [hl', Dict.size_set_of_none _ hfresh]
  constructor
  · intro branchId hid
    rw [hl', Dict.keys_set, if_neg (Dict.get?_eq_none_iff.mp hfresh), List.mem_append,
      List.mem_singleton] at hid
    rcases hid with hid | rfl
    · obtain ⟨x, hx, hname⟩ := h.named branchId hid
      exact ⟨x, List.mem_cons_of_mem _ hx, hname⟩
    · exact ⟨_, List.mem_cons_self, rfl⟩
  · intro x hx
    rcases List.mem_cons.mp hx with rfl | hx
    · exact ⟨l, s, r, v, rfl, by omega⟩
    · obtain ⟨m, s', r', v', rfl, hlt⟩ := h.earlier x hx
      exact ⟨m, s', r', v', rfl, by omega⟩

/-- A run whose inputs, together with earlier ones, do not collide only makes offers under new
identifiers.

**Proof sketch.** Induction on the calls, carrying the inputs behind the branches so far. An
offer adds its input; every other call keeps the identifiers. -/
lemma meets_freshId_of_namedBy {py : PyLib ν} (cs : List (Call ν)) :
    ∀ {l : Ledger ν} (seen : List (List UInt8)), NamedBy py seen l →
      Set.InjOn (fun x => shortId (py.sha256 x)) {x | x ∈ seen ++ hashedIds py l cs} →
      Transition.Meets (step py) (FreshId py) l cs := by
  induction cs with
  | nil => intros; trivial
  | cons c cs ih =>
    intro l seen hnamed hinj
    have hfresh : FreshId py l c := by
      rintro s r v t rfl hcan
      refine hnamed.get?_eq_none hinj (fun x hx => List.mem_append_left _ hx) ?_
      have hoffer : l.offer py s r v t = .ok _ := offer_eq_ok.mpr ⟨hcan, rfl, rfl⟩
      simp [hashedIds, hashedId, hoffer]
    refine ⟨hfresh, fun l' hl' => ?_⟩
    have hrest : ∀ x ∈ hashedIds py l' cs, x ∈ hashedIds py l (c :: cs) := by
      intro x hx
      simp only [hashedIds, hl', List.mem_append]
      exact .inr hx
    rcases step_eq_some hl' with hc | ⟨-, rfl⟩
    · rcases keys_call hc with hkeys | ⟨s, r, v, t, rfl, hcan, hbr⟩
      · have hsize : l'.branches.size = l.branches.size := by
          rw [Dict.size_eq_length_keys, Dict.size_eq_length_keys, hkeys]
        refine ih seen ⟨by rw [hkeys]; exact hnamed.named, by rw [hsize]; exact hnamed.earlier⟩
          (hinj.mono fun x hx => ?_)
        exact List.mem_append.mpr ((List.mem_append.mp hx).imp_right (hrest x))
      · refine ih _ (hnamed.set (hfresh s r v t rfl hcan) hbr) (hinj.mono fun x hx => ?_)
        have hoffer : l.offer py s r v t = .ok _ := offer_eq_ok.mpr ⟨hcan, rfl, rfl⟩
        rcases List.mem_append.mp hx with hx | hx
        · rcases List.mem_cons.mp hx with rfl | hx
          · exact List.mem_append_right _ (by simp [hashedIds, hashedId, hoffer])
          · exact List.mem_append_left _ hx
        · exact List.mem_append_right _ (hrest x hx)
    · exact ih seen hnamed (hinj.mono fun x hx =>
        List.mem_append.mpr ((List.mem_append.mp hx).imp_right (hrest x)))

/-- An initial ledger has no branches. -/
lemma Initial.branches_eq {py : PyLib ν} {l : Ledger ν} (h : Initial py l) : l.branches = ∅ := by
  cases h <;> rfl

/-- **Without collisions every offer has a new identifier.** -/
theorem meets_freshId {py : PyLib ν} {l : Ledger ν} {cs : List (Call ν)} (hl : Initial py l)
    (hids : NoIdCollision py l cs) : Transition.Meets (step py) (FreshId py) l cs :=
  meets_freshId_of_namedBy cs []
    ⟨(by rw [hl.branches_eq]; intro _ hid; cases hid), (by intro _ hx; cases hx)⟩
    (by simpa [NoIdCollision] using hids)

/-! ## The lock invariant of runs -/

/-- A ledger without branches and with nonnegative balances has the lock invariant. -/
lemma lockInv_initial (genesis : Option GenesisConfig) {balances : Dict String ν}
    (digest : String) (nonneg : ∀ a v, balances.get? a = some v → 0 ≤ val v) :
    LockInv (initial genesis balances digest) where
  branch branchId b hb := by cases hb
  excess_nonneg a := by
    show 0 ≤ val (ofInt 0) - 0
    simp
  locked_le a := by
    show val (ofInt 0) ≤ val ((balances.get? a).getD (ofInt 0))
    cases ha : balances.get? a with
    | none => rfl
    | some v => simpa using nonneg a v ha

/-- An initial ledger has the lock invariant. -/
lemma Initial.lockInv {py : PyLib ν} {l : Ledger ν} (h : Initial py l) : LockInv l := by
  cases h with
  | balances b nonneg => exact lockInv_initial none _ nonneg
  | genesis raw g accepted =>
    refine lockInv_initial (some g) _ fun a v ha => ?_
    rw [Dict.get?_mapVal, Option.map_eq_some_iff] at ha
    obtain ⟨n, hn, rfl⟩ := ha
    have := ((GenesisConfig.fromDict_valid accepted).named a n hn).2
    simpa using this

/-- A step keeps the lock invariant. -/
lemma LockInv.step {py : PyLib ν} {l l' : Ledger ν} {c : Call ν} (h : LockInv l)
    (hstep : l.step py c = some l') : LockInv l' := by
  rcases step_eq_some hstep with hc | ⟨-, rfl⟩
  · exact h.call hc
  · exact h

/-- A step from a ledger with the lock invariant is defined. -/
lemma LockInv.exists_step {l : Ledger ν} (h : LockInv l) (py : PyLib ν) (c : Call ν) :
    ∃ l', l.step py c = some l' := by
  unfold Ledger.step
  cases hc : l.call py c with
  | ok l' => exact ⟨l', rfl⟩
  | error e => exact ⟨l, by simp [h.raisesProtocol_call c e hc]⟩

/-- A run from a ledger with the lock invariant is defined and ends with the invariant. -/
lemma LockInv.exists_run {l : Ledger ν} (h : LockInv l) (py : PyLib ν) (cs : List (Call ν)) :
    ∃ l', Transition.run (Ledger.step py) l cs = some l' ∧ LockInv l' := by
  induction cs generalizing l with
  | nil => exact ⟨l, rfl, h⟩
  | cons c cs ih =>
    obtain ⟨m, hm⟩ := h.exists_step py c
    obtain ⟨l', hl', hinv⟩ := ih (h.step hm)
    exact ⟨l', Transition.run_cons_eq_some_iff.mpr ⟨m, hm, hl'⟩, hinv⟩

/-- A step keeps the supply. -/
lemma supply_step {py : PyLib ν} {l l' : Ledger ν} {c : Call ν} (h : l.step py c = some l') :
    l'.supply = l.supply := by
  rcases step_eq_some h with hc | ⟨-, rfl⟩
  · exact supply_call hc
  · rfl

/-- **The lock invariant of runs.** A run from an initial ledger never meets an internal error,
keeps the supply and ends with the lock invariant. -/
theorem run_lockInv {py : PyLib ν} {start : Ledger ν} (hstart : Initial py start)
    (cs : List (Call ν)) :
    ∃ l, Transition.run (step py) start cs = some l ∧ l.supply = start.supply ∧ LockInv l := by
  obtain ⟨l, hl, hinv⟩ := hstart.lockInv.exists_run py cs
  have hsupply : l.supply = start.supply :=
    Transition.run_induction (I := fun m => m.supply = start.supply)
      (fun _ _ _ hm h => (supply_step h).trans hm) rfl hl
  exact ⟨l, hl, hsupply, hinv⟩

/-! ## Excess of runs -/

/-- An offer that succeeds overwrites no active branch. -/
def OverwritesNoActive (py : PyLib ν) (l : Ledger ν) (c : Call ν) : Prop :=
  ∀ sender receiver value ttl, c = .offer sender receiver value ttl →
    l.CanOffer sender receiver value ttl → ∀ b,
    l.branches.get? (l.nextBranchId py sender receiver value) = some b → b.state.active = false

/-- A new identifier overwrites nothing. -/
lemma FreshId.overwritesNoActive {py : PyLib ν} {l : Ledger ν} {c : Call ν} (h : FreshId py l c) :
    OverwritesNoActive py l c := by
  intro s r v t hc hcan b hb
  rw [h s r v t hc hcan] at hb
  cases hb

/-- A step that overwrites no active branch keeps the excess. -/
lemma excess_step {py : PyLib ν} {l l' : Ledger ν} {c : Call ν}
    (hover : OverwritesNoActive py l c) (h : l.step py c = some l') (a : String) :
    l'.excess a = l.excess a := by
  rcases step_eq_some h with hc | ⟨-, rfl⟩
  · rcases excess_call hc a with he | ⟨s, r, v, t, hoffer, hcan, he⟩
    · exact he
    · rw [he, overwrittenBy]
      cases hb : l.branches.get? (l.nextBranchId py s r v) with
      | none => simp
      | some b => simp [heldBy_of_inactive (hover s r v t hoffer hcan b hb)]
  · rfl

/-- Initially nothing is locked. -/
lemma Initial.excess_eq {py : PyLib ν} {l : Ledger ν} (h : Initial py l) (a : String) :
    l.excess a = 0 := by
  have hlocked : l.locked = ∅ := by cases h <;> rfl
  rw [excess, lockedBy, h.branches_eq, hlocked]
  simp [Dict.getD, Dict.sum]

/-- **A run that overwrites no active branch has no excess.** -/
theorem run_excess {py : PyLib ν} {start l : Ledger ν} {cs : List (Call ν)}
    (hstart : Initial py start) (hover : Transition.Meets (step py) (OverwritesNoActive py) start cs)
    (hl : Transition.run (step py) start cs = some l) (a : String) : l.excess a = 0 :=
  Transition.run_induction_of_meets (I := fun m => m.excess a = 0)
    (fun _ _ _ hm hG h => (excess_step hG h a).trans hm) (hstart.excess_eq a) hover hl

/-! ## Integer amounts -/

/-- The library with SHA-256 and decimal integers. -/
def integerLib : PyLib ℤ where
  numberText n := toString n
  sha256 := Sha256.hexDigest
  hmacSha256 key := Sha256.hmacHexDigest key.toUTF8.toList
  str
    | .str s => s
    | .num n => toString n
    | _ => ""
  intOfString := parseInt
  numberText_ofInt _ := rfl
  intOfString_toString := parseInt_toString
  str_str _ := rfl

/-- The exact value of a sum of integers. -/
lemma sum_val_int {κ μ : Type} (d : Dict κ μ) (f : κ → μ → ℤ) :
    d.sum (fun k v => val (f k v)) = ((d.sum f : ℤ) : ℚ) := by
  unfold Dict.sum
  induction d.entries with
  | nil => simp
  | cons p es ih => simp only [List.map_cons, List.sum_cons, ih]; push_cast; rfl

/-- **Conservation of funds.** From balances that are nonnegative integers, or from an accepted
genesis configuration, every sequence of calls with integer amounts reaches a ledger whose
balances sum to the initial sum, and in which the locked funds of every account are the value and
stake of its active branches, nonnegative, and at most its balance.

**Proof sketch.** The lock invariant of runs, read at the integers. -/
theorem run_conserves_funds (py : PyLib ℤ) {start : Ledger ℤ} (hstart : Initial py start)
    (calls : List (Call ℤ)) (hids : NoIdCollision py start calls) :
    ∃ l, Transition.run (step py) start calls = some l ∧
      l.balances.sum (fun _ v => v) = start.balances.sum (fun _ v => v) ∧
      ∀ a, l.locked.getD a 0 = (l.branches.sum fun _ b =>
          if b.sender = a ∧ b.state.active = true then b.value + b.stake else 0) ∧
        0 ≤ l.locked.getD a 0 ∧ l.locked.getD a 0 ≤ l.balances.getD a 0 := by
  obtain ⟨l, hl, hsupply, hinv⟩ := run_lockInv hstart calls
  have hfresh := meets_freshId hstart hids
  have hexcess := run_excess hstart (hfresh.mono fun _ _ => FreshId.overwritesNoActive) hl
  refine ⟨l, hl, ?_, fun a => ⟨?_, ?_, ?_⟩⟩
  · unfold supply at hsupply
    rw [sum_val_int l.balances, sum_val_int start.balances] at hsupply
    exact_mod_cast hsupply
  · have hlocked : val (l.locked.getD a (ofInt 0)) = l.lockedBy a := sub_eq_zero.mp (hexcess a)
    have hheld : l.lockedBy a = l.branches.sum fun _ b =>
        val (if b.sender = a ∧ b.state.active = true then b.value + b.stake else 0) := by
      refine Dict.sum_congr fun _ b _ => ?_
      unfold heldBy
      split_ifs <;> simp
    rw [hheld, sum_val_int l.branches] at hlocked
    simpa only [PyNumber.ofInt_int, PyNumber.val_int, Int.cast_inj] using hlocked
  · simpa only [PyNumber.ofInt_int, PyNumber.val_int, Int.cast_nonneg_iff] using
      hinv.locked_nonneg a
  · simpa only [PyNumber.ofInt_int, PyNumber.val_int, Int.cast_le] using hinv.locked_le a

/-- An account with funds, and one that they can be paid to. -/
lemma initial_payment : Initial integerLib
    (ofBalances integerLib (Dict.ofList [("alice", 10), ("bob", 0)])) := by
  refine .balances _ fun a v hv => ?_
  have hmem : ∀ e ∈ (Dict.ofList [("alice", (10 : ℤ)), ("bob", 0)]).entries, 0 ≤ e.2 := by decide
  exact Int.cast_nonneg (hmem _ (Dict.get?_eq_some_iff.mp hv))

/-- An offer, a second one that exceeds the available funds, and the rounds in which the first
expires. -/
theorem run_conserves_funds_expired_offer :
    ∃ l, Transition.run (step integerLib)
        (ofBalances integerLib (Dict.ofList [("alice", 10), ("bob", 0)]))
        [.offer "alice" "bob" 2 6, .offer "alice" "bob" 4 6, .advance 6] = some l ∧
      l.balances.sum (fun _ v => v) = 10 ∧
      ∀ a, l.locked.getD a 0 = (l.branches.sum fun _ b =>
          if b.sender = a ∧ b.state.active = true then b.value + b.stake else 0) ∧
        0 ≤ l.locked.getD a 0 ∧ l.locked.getD a 0 ≤ l.balances.getD a 0 :=
  run_conserves_funds integerLib initial_payment _ (noIdCollision_of_nodup (by decide +kernel))

end Ledger

end SplitChain
