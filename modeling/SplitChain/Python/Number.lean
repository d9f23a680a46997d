import Mathlib.Algebra.Order.Floor.Ring
import Mathlib.Data.Rat.Floor
import Mathlib.Tactic.Linarith
import Mathlib.Tactic.NormNum

set_option relaxedAutoImplicit false
set_option autoImplicit false

/-!
# Numbers of the interpreter

The ledger never checks the type of an amount: it compares, adds and subtracts whatever number
it is given. `PyNumber` is what it relies on, so that one definition of the ledger covers
the two domains its users need: amounts that are integers (`ℤ`), and amounts decoded from a JSON
document (`JsonNum`), where a number may be a boolean, an integer or a float. Floats are exact
rationals, and so are their sums and differences: the rounding of doubles is not modelled, and what
would change with it is stated for runs in which no amount is a float. The non-finite floats are not
JSON and not modelled either.

## Main definitions

* `PyNumber` — a type of numbers with its rational meaning `PyNumber.val`, the interpreter's
  addition and subtraction, and its type tests.
* `PyNumber.trunc` — `int(x)`.
* `JsonNum` — numbers decoded from JSON, with the tag the interpreter's `type` sees.
-/

/-- A type of interpreter numbers. Comparison and equality go by the value `val`, as the
interpreter's do across `bool`, `int` and `float`. -/
class PyNumber (ν : Type) extends Add ν, Sub ν where
  /-- The exact value. -/
  val : ν → ℚ
  /-- An integer literal. -/
  ofInt : ℤ → ν
  /-- A boolean used as a number. -/
  ofBool : Bool → ν
  /-- The integer, if `type(x) is int`. -/
  int? : ν → Option ℤ
  /-- The integer, if the number can be used as an index (`bool` or `int`). -/
  index? : ν → Option ℤ
  val_add : ∀ a b, val (a + b) = val a + val b
  val_sub : ∀ a b, val (a - b) = val a - val b
  val_ofInt : ∀ n, val (ofInt n) = n
  val_ofBool : ∀ b, val (ofBool b) = if b then 1 else 0
  int?_ofInt : ∀ n, int? (ofInt n) = some n
  val_of_int? : ∀ {a n}, int? a = some n → val a = n
  val_of_index? : ∀ {a n}, index? a = some n → val a = n

namespace PyNumber

attribute [simp] val_add val_sub val_ofInt val_ofBool int?_ofInt

variable {ν : Type} [PyNumber ν]

/-- `int(x)`: truncation towards zero. -/
def trunc (a : ν) : ℤ := if 0 ≤ val a then ⌊val a⌋ else ⌈val a⌉

/-- Truncation keeps an integral value. -/
lemma trunc_of_val_eq {a : ν} {n : ℤ} (h : val a = n) : trunc a = n := by
  unfold trunc
  rw [h]
  split_ifs <;> simp

/-- A value equals its truncation exactly when it is integral. -/
lemma val_eq_trunc_iff {a : ν} : val a = trunc a ↔ ∃ n : ℤ, val a = n :=
  ⟨fun h => ⟨_, h⟩, fun ⟨n, h⟩ => by rw [trunc_of_val_eq h, h]⟩

/-- Truncation of a nonnegative number does not exceed it. -/
lemma trunc_le {a : ν} (h : 0 ≤ val a) : (trunc a : ℚ) ≤ val a := by
  unfold trunc
  rw [if_pos h]
  exact Int.floor_le _

end PyNumber

instance : PyNumber ℤ where
  val n := n
  ofInt n := n
  ofBool b := if b then 1 else 0
  int? n := some n
  index? n := some n
  val_add := by simp
  val_sub := by simp
  val_ofInt _ := rfl
  val_ofBool b := by cases b <;> simp
  int?_ofInt _ := rfl
  val_of_int? h := by simp only [Option.some.injEq] at h; rw [h]
  val_of_index? h := by simp only [Option.some.injEq] at h; rw [h]

@[simp] lemma PyNumber.val_int (n : ℤ) : PyNumber.val n = (n : ℚ) := rfl

@[simp] lemma PyNumber.ofInt_int (n : ℤ) : (PyNumber.ofInt n : ℤ) = n := rfl

/-! ## Numerals -/

/-- The natural number a list of decimal digits denotes. -/
def parseDigits (ds : List Char) : Option ℕ :=
  if ds ≠ [] ∧ ds.all Char.isDigit then some (Nat.ofDigitChars 10 ds 0) else none

/-- The integer a decimal numeral with an optional minus sign denotes. -/
def parseInt (s : String) : Option ℤ :=
  match s.toList with
  | '-' :: ds => (parseDigits ds).map fun n => -(n : ℤ)
  | ds => (parseDigits ds).map fun n => (n : ℤ)

/-- Reading the digits of a natural number. -/
lemma parseDigits_toDigits (n : ℕ) : parseDigits (Nat.toDigits 10 n) = some n := by
  unfold parseDigits
  rw [if_pos, Nat.ofDigitChars_toDigits (by decide) (by decide)]
  refine ⟨Nat.toDigits_ne_nil, List.all_eq_true.mpr fun c hc => ?_⟩
  exact Nat.isDigit_of_mem_toDigits (by decide) (by decide) hc

/-- The numeral of a nonnegative integer. -/
lemma toList_toString_ofNat (m : ℕ) : (toString (Int.ofNat m)).toList = Nat.toDigits 10 m :=
  Nat.toList_repr

/-- The numeral of a negative integer. -/
lemma toList_toString_negSucc (m : ℕ) :
    (toString (Int.negSucc m)).toList = '-' :: Nat.toDigits 10 (m + 1) := by
  rw [← Nat.toList_repr]
  exact String.toList_append

/-- Reading the numeral of an integer. -/
lemma parseInt_toString (n : ℤ) : parseInt (toString n) = some n := by
  unfold parseInt
  cases n with
  | ofNat m =>
    rw [toList_toString_ofNat]
    split
    · next ds hds =>
      have hdash : '-' ∈ Nat.toDigits 10 m := by simp [hds]
      exact absurd (Nat.isDigit_of_mem_toDigits (by decide) (by decide) hdash) (by decide)
    · rw [parseDigits_toDigits]; rfl
  | negSucc m =>
    simp only [toList_toString_negSucc, parseDigits_toDigits]
    rfl

/-! ## Numbers decoded from JSON -/

/-- A number decoded from JSON, or computed from such numbers. -/
inductive JsonNum where
  | bool (b : Bool)
  | int (n : ℤ)
  | float (q : ℚ)
deriving DecidableEq

namespace JsonNum

/-- The exact value. -/
def val : JsonNum → ℚ
  | bool b => if b then 1 else 0
  | int n => n
  | float q => q

/-- The integer behind a `bool` or an `int`. -/
def index? : JsonNum → Option ℤ
  | bool b => some (if b then 1 else 0)
  | int n => some n
  | float _ => none

/-- The integer behind an `int`. -/
def int? : JsonNum → Option ℤ
  | int n => some n
  | _ => none

/-- A binary operation: on two integers it is an integer, and a float as soon as one operand
is. -/
def op (onInt : ℤ → ℤ → ℤ) (onRat : ℚ → ℚ → ℚ) (a b : JsonNum) : JsonNum :=
  match a.index?, b.index? with
  | some m, some n => int (onInt m n)
  | _, _ => float (onRat a.val b.val)

lemma val_of_index? {a : JsonNum} {n : ℤ} (h : a.index? = some n) : a.val = n := by
  cases a with
  | bool b => simp only [index?, Option.some.injEq] at h; rw [← h]; cases b <;> simp [val]
  | int m => simp only [index?, Option.some.injEq] at h; rw [← h]; rfl
  | float q => simp [index?] at h

/-- The value of a binary operation whose integer case agrees with its rational one. -/
lemma val_op {onInt : ℤ → ℤ → ℤ} {onRat : ℚ → ℚ → ℚ}
    (h : ∀ m n : ℤ, ((onInt m n : ℤ) : ℚ) = onRat m n) (a b : JsonNum) :
    (op onInt onRat a b).val = onRat a.val b.val := by
  unfold op
  split
  · next m n hm hn => rw [val_of_index? hm, val_of_index? hn]; exact h m n
  · rfl

/-- A sum or difference is of type `int` exactly when neither operand is a float. -/
lemma isSome_int?_op {onInt : ℤ → ℤ → ℤ} {onRat : ℚ → ℚ → ℚ} (a b : JsonNum) :
    (op onInt onRat a b).int?.isSome = (a.index?.isSome && b.index?.isSome) := by
  cases a <;> cases b <;> rfl

/-- A sum or difference is not a float exactly when neither operand is. -/
lemma isSome_index?_op {onInt : ℤ → ℤ → ℤ} {onRat : ℚ → ℚ → ℚ} (a b : JsonNum) :
    (op onInt onRat a b).index?.isSome = (a.index?.isSome && b.index?.isSome) := by
  cases a <;> cases b <;> rfl

/-- An `int` is not a float. -/
lemma isSome_index?_of_int? {a : JsonNum} (h : a.int?.isSome = true) : a.index?.isSome = true := by
  cases a <;> simp_all [int?, index?]

instance : PyNumber JsonNum where
  add := op (· + ·) (· + ·)
  sub := op (· - ·) (· - ·)
  val := val
  ofInt := int
  ofBool := bool
  int? := int?
  index? := index?
  val_add := val_op (by intros; push_cast; rfl)
  val_sub := val_op (by intros; push_cast; rfl)
  val_ofInt _ := rfl
  val_ofBool _ := rfl
  int?_ofInt _ := rfl
  val_of_int? {a n} h := by
    cases a with
    | int m => simp only [int?, Option.some.injEq] at h; rw [← h]; rfl
    | bool b => simp [int?] at h
    | float q => simp [int?] at h
  val_of_index? := val_of_index?

end JsonNum
