import Mathlib.Data.List.Infix
import SplitChain.Python.Json
import SplitChain.Library.Raise

set_option relaxedAutoImplicit false
set_option autoImplicit false

/-!
# Decoded values

What the interpreter does with values that `json.loads` has returned, whatever their types:
equality, truth, membership, iteration and access by a key; and `bytes.fromhex`.

## Main definitions

* `Json.eqv` — equality: numbers and booleans by value, dictionaries whatever the order of keys.
* `Json.field`, `Json.get?`, `Json.holds`, `Json.iter` — `value[key]`, `value.get(key)`,
  `text in value` and `for x in value`.
* `Json.distinct` — `len(set(values))`.
* `bytesFromHex` — `bytes.fromhex`.

## Main results

* `Json.eqv_refl` — equality is reflexive.
* `Json.eqv_str_left`, `Json.eqv_str_right` — a string equals itself only.
-/

open Raise

namespace Json

variable {ν : Type} [PyNumber ν]

/-! ## Equality -/

mutual

/-- `a == b`. -/
def eqv : Json ν → Json ν → Bool
  | null, b => match b with
    | null => true
    | _ => false
  | bool a, b => decide (b.num?.map PyNumber.val = some (PyNumber.val (PyNumber.ofBool a : ν)))
  | num a, b => decide (b.num?.map PyNumber.val = some (PyNumber.val a))
  | str a, b => match b with
    | str b => a == b
    | _ => false
  | arr xs, b => match b with
    | arr ys => eqvs xs ys
    | _ => false
  | obj kvs, b => match b with
    | obj ls => (Dict.ofList kvs).size == (Dict.ofList ls).size && eqvMembers kvs (Dict.ofList ls)
    | _ => false

/-- Equality of the elements. -/
def eqvs : List (Json ν) → List (Json ν) → Bool
  | [], ys => ys.isEmpty
  | x :: xs, ys => match ys with
    | [] => false
    | y :: ys => eqv x y && eqvs xs ys

/-- Every member, unless its key is repeated later, has an equal one. -/
def eqvMembers : List (String × Json ν) → Dict String (Json ν) → Bool
  | [], _ => true
  | (k, x) :: kvs, d =>
    (kvs.any (fun p => p.1 == k) || match d.get? k with
      | some y => eqv x y
      | none => false) && eqvMembers kvs d

end

mutual

/-- A value equals itself. -/
lemma eqv_refl : ∀ v : Json ν, v.eqv v = true
  | .null => by simp [eqv]
  | .bool b => by simp [eqv, num?]
  | .num n => by simp [eqv, num?]
  | .str s => by simp [eqv]
  | .arr xs => by simpa [eqv] using eqvs_refl xs
  | .obj kvs => by simpa [eqv] using eqvMembers_refl [] kvs

/-- The elements of an array equal themselves. -/
lemma eqvs_refl : ∀ xs : List (Json ν), eqvs xs xs = true
  | [] => rfl
  | x :: xs => by simp [eqvs, eqv_refl x, eqvs_refl xs]

/-- Every member that is not repeated later is the one that is found. -/
lemma eqvMembers_refl : ∀ before kvs : List (String × Json ν),
    eqvMembers kvs (Dict.ofList (before ++ kvs)) = true
  | _, [] => rfl
  | before, (k, x) :: kvs => by
    have hrest := eqvMembers_refl (before ++ [(k, x)]) kvs
    rw [List.append_assoc, List.singleton_append] at hrest
    rw [eqvMembers, hrest, Bool.and_true, Bool.or_eq_true, Classical.or_iff_not_imp_left]
    intro hlast
    have hk : k ∉ kvs.map Prod.fst := by simpa using hlast
    rw [Dict.get?_ofList_append x hk]
    exact eqv_refl x

end

/-- A string equals itself only. -/
@[simp] lemma eqv_str_left {s : String} {v : Json ν} : (str s).eqv v = true ↔ v = str s := by
  cases v with
  | str t => simp [eqv, eq_comm (a := s)]
  | _ => simp [eqv]

/-- A string equals itself only. -/
@[simp] lemma eqv_str_right {s : String} {v : Json ν} : v.eqv (str s) = true ↔ v = str s := by
  cases v <;> simp [eqv, num?]

omit [PyNumber ν] in
/-- Reading a value that is a string. -/
lemma str?_eq_some {v : Json ν} {s : String} : v.str? = some s ↔ v = .str s := by
  cases v <;> simp [str?]

/-! ## Access -/

/-- `bool(value)`. -/
def truthy : Json ν → Bool
  | null => false
  | bool b => b
  | num n => decide (PyNumber.val n ≠ 0)
  | str s => s != ""
  | arr xs => !xs.isEmpty
  | obj kvs => !kvs.isEmpty

/-- Whether the type of a value is `bool`. -/
def isBool : Json ν → Bool
  | bool _ => true
  | _ => false

omit [PyNumber ν] in
/-- The values of this type. -/
lemma isBool_iff {v : Json ν} : v.isBool = true ↔ ∃ b, v = bool b := by
  cases v <;> simp [isBool]

/-- `value[key]`, the key being a string that is no numeral. -/
def field (v : Json ν) (key : String) : Except PyError (Json ν) :=
  match v.dict? with
  | some d => orRaise (d.get? key) .key
  | none => .error .type

/-- `value.get(key)`; only a dictionary has this method. -/
def get? (v : Json ν) (key : String) : Except PyError (Json ν) :=
  match v.dict? with
  | some d => .ok ((d.get? key).getD null)
  | none => .error .attribute

/-- `text in value`: among the elements, among the keys, or a part of the text. -/
def holds (v : Json ν) (text : String) : Except PyError Bool :=
  match v with
  | arr xs => .ok (xs.any fun x => x.eqv (str text))
  | obj kvs => .ok ((Dict.ofList kvs).contains text)
  | str s => .ok (decide (text.toList <:+: s.toList))
  | _ => .error .type

/-- What a loop over a value runs through: elements, keys or characters. -/
def iter : Json ν → Except PyError (List (Json ν))
  | arr xs => .ok xs
  | obj kvs => .ok ((Dict.ofList kvs).keys.map str)
  | str s => .ok (s.toList.map fun c => str (String.singleton c))
  | _ => .error .type

/-- Remove what equals an earlier value. -/
def distinct : List (Json ν) → List (Json ν)
  | [] => []
  | x :: xs => x :: (distinct xs).filter fun y => !(x.eqv y)

/-- `set(values)`, without regard to order: all of them have to be hashable. -/
def toSet (xs : List (Json ν)) : Except PyError (List (Json ν)) := do
  require (xs.all hashable) .type
  return distinct xs

/-- Whether the set of some values is that of the given strings. -/
def isSetOf (xs : List (Json ν)) (names : List String) : Bool :=
  xs.all (fun x => names.any fun name => x.eqv (str name)) &&
    names.all fun name => xs.any fun x => x.eqv (str name)

end Json

namespace Json

variable {ν : Type} [PyNumber ν] {xs : List (Json ν)}

/-- What is left are some of the values. -/
lemma distinct_sublist : (distinct xs).Sublist xs := by
  induction xs with
  | nil => exact List.Sublist.refl _
  | cons x xs ih => exact (List.filter_sublist.trans ih).cons_cons x

/-- Values that are not repeated are their own set. -/
lemma toSet_of_pairwise (hhashable : xs.all hashable = true)
    (h : xs.Pairwise fun x y => x.eqv y = false) : toSet xs = .ok xs := by
  have hdistinct : distinct xs = xs := by
    clear hhashable
    induction xs with
    | nil => rfl
    | cons x xs ih =>
      obtain ⟨hx, hxs⟩ := List.pairwise_cons.mp h
      rw [distinct, ih hxs, List.filter_eq_self.mpr fun y hy => by rw [hx y hy]; rfl]
  simp only [toSet, hhashable, require, if_true, ok_bind, hdistinct]
  rfl

/-- Texts that are not repeated are their own set. -/
lemma toSet_map_str {texts : List String} (h : texts.Nodup) :
    toSet (texts.map (str (ν := ν))) = .ok (texts.map str) := by
  refine toSet_of_pairwise (by simp [hashable]) (List.pairwise_map.mpr (h.imp fun {s t} hst => ?_))
  rw [← Bool.not_eq_true, eqv_str_left, str.injEq]
  exact fun h => hst h.symm

/-- The set of some texts is that of the given ones. -/
lemma isSetOf_map_str {texts names : List String} :
    isSetOf (texts.map (str (ν := ν))) names = true ↔
      (∀ text ∈ texts, text ∈ names) ∧ ∀ name ∈ names, name ∈ texts := by
  simp [isSetOf]

omit [PyNumber ν] in
/-- The dictionary with given entries. -/
@[simp] lemma dict?_obj (d : Dict String (Json ν)) : (obj d.entries).dict? = some d :=
  congrArg some (Dict.ext (Dict.entries_ofList d.nodup_keys))

omit [PyNumber ν] in
/-- A loop over a dictionary runs through its keys. -/
lemma iter_of_dict? {v : Json ν} {d : Dict String (Json ν)} (h : v.dict? = some d) :
    v.iter = .ok (d.keys.map str) := by
  cases v with
  | obj kvs => rw [iter, Option.some.inj h]
  | _ => cases h

omit [PyNumber ν] in
/-- A value that `get` returns, and that is no `None`, is there. -/
lemma field_of_get? {v w : Json ν} {key : String} (h : v.get? key = .ok w) (hw : w ≠ null) :
    v.field key = .ok w := by
  unfold get? at h
  unfold field
  cases hd : v.dict? with
  | none =>
    rw [hd] at h
    cases h
  | some d =>
    rw [hd] at h
    dsimp only at h ⊢
    cases hkey : d.get? key with
    | none =>
      rw [hkey] at h
      exact (hw (Except.ok.inj h).symm).elim
    | some x =>
      rw [hkey] at h
      exact congrArg Except.ok (Except.ok.inj h)

omit [PyNumber ν] in
/-- What is there is what `get` returns. -/
lemma get?_of_field {v w : Json ν} {key : String} (h : v.field key = .ok w) :
    v.get? key = .ok w := by
  unfold field at h
  unfold get?
  cases hd : v.dict? with
  | none =>
    rw [hd] at h
    cases h
  | some d =>
    rw [hd] at h
    dsimp only at h ⊢
    rw [orRaise_eq_ok.mp h]
    rfl

end Json

/-! ## Hexadecimal -/

/-- The value of a hexadecimal digit of either case. -/
def hexDigitValue? (c : Char) : Option ℕ :=
  if '0' ≤ c ∧ c ≤ '9' then some (c.toNat - 48)
  else if 'a' ≤ c ∧ c ≤ 'f' then some (c.toNat - 87)
  else if 'A' ≤ c ∧ c ≤ 'F' then some (c.toNat - 55)
  else none

/-- ASCII white space. -/
def isAsciiSpace (c : Char) : Bool :=
  c = ' ' || c = '\t' || c = '\n' || c = '\r' || c = '\x0b' || c = '\x0c'

/-- The bytes that pairs of digits stand for; white space may stand between the pairs. -/
def hexBytes? : List Char → Option (List UInt8)
  | [] => some []
  | [c] => if isAsciiSpace c then some [] else none
  | c :: d :: cs =>
    if isAsciiSpace c then hexBytes? (d :: cs)
    else match hexDigitValue? c, hexDigitValue? d with
      | some high, some low => (hexBytes? cs).map (UInt8.ofNat (16 * high + low) :: ·)
      | _, _ => none

/-- `bytes.fromhex(value)`. -/
def bytesFromHex {ν : Type} (v : Json ν) : Except PyError (List UInt8) :=
  match v with
  | .str s => orRaise (hexBytes? s.toList) (.value "")
  | _ => .error .type
