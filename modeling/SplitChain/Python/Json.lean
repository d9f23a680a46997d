import Mathlib.Data.String.Basic
import SplitChain.Library.Dict
import SplitChain.Python.Number

set_option relaxedAutoImplicit false
set_option autoImplicit false

/-!
# JSON values and their canonical bytes

JSON values over a type of numbers, the interpreter functions that act on them, and the
canonical encoding: `json.dumps` with sorted keys, the separators `,` and `:`, and
`ensure_ascii=False`, encoded as UTF-8.

Strings are sequences of Unicode scalar values, so the encoding is total: what `json.dumps`
refuses (non-finite numbers, lone surrogates, values that are not JSON) has no counterpart in
`Json`.

## Main definitions

* `Json` — JSON values; `Json.num?` — a value used as a number.
* `PyLib` — the functions of the standard library the program calls, as parameters.
* `PyError` — the exceptions the program raises or catches.
* `Json.canonicalText`, `canonicalJson` — the canonical encoding.

## Main results

* `encodeUtf8_injective` — UTF-8 loses nothing.
-/

/-- A JSON value; the members of an object are listed in document order. -/
inductive Json (ν : Type) where
  | null
  | bool (b : Bool)
  | num (n : ν)
  | str (s : String)
  | arr (xs : List (Json ν))
  | obj (kvs : List (String × Json ν))

/-- The exceptions of the program. Only the program's own messages are kept. -/
inductive PyError where
  /-- `ProtocolError` -/
  | protocol (message : String)
  /-- `CommitUncertain`, a subclass of `ProtocolError` -/
  | commitUncertain (message : String)
  /-- `TypeError` -/
  | type
  /-- `KeyError` -/
  | key
  /-- `AssertionError` -/
  | assertion
  /-- `AttributeError` -/
  | attribute
  /-- `IndexError` -/
  | index
  /-- `StopIteration` -/
  | stopIteration
  /-- `ValueError`; without a message where the interpreter raises it -/
  | value (message : String)
  /-- `InvalidSignature` of the package `cryptography` -/
  | invalidSignature
deriving DecidableEq, Repr

/-- Whether an exception is a `ProtocolError`, subclasses included. -/
def PyError.isProtocol : PyError → Bool
  | .protocol _ | .commitUncertain _ => true
  | _ => false

namespace Json

variable {ν : Type}

/-! ## Equality -/

mutual

/-- Decidable equality of values. -/
def decEq [DecidableEq ν] : (a b : Json ν) → Decidable (a = b)
  | null, null => isTrue rfl
  | bool a, bool b => decidable_of_iff (a = b) (by simp)
  | num a, num b => decidable_of_iff (a = b) (by simp)
  | str a, str b => decidable_of_iff (a = b) (by simp)
  | arr a, arr b => match decEqs a b with
    | isTrue h => isTrue (by rw [h])
    | isFalse h => isFalse (by simpa using h)
  | obj a, obj b => match decEqMembers a b with
    | isTrue h => isTrue (by rw [h])
    | isFalse h => isFalse (by simpa using h)
  | null, bool _ | null, num _ | null, str _ | null, arr _ | null, obj _
  | bool _, null | bool _, num _ | bool _, str _ | bool _, arr _ | bool _, obj _
  | num _, null | num _, bool _ | num _, str _ | num _, arr _ | num _, obj _
  | str _, null | str _, bool _ | str _, num _ | str _, arr _ | str _, obj _
  | arr _, null | arr _, bool _ | arr _, num _ | arr _, str _ | arr _, obj _
  | obj _, null | obj _, bool _ | obj _, num _ | obj _, str _ | obj _, arr _ =>
    isFalse (by simp)

/-- Decidable equality of arrays. -/
def decEqs [DecidableEq ν] : (a b : List (Json ν)) → Decidable (a = b)
  | [], [] => isTrue rfl
  | [], _ :: _ | _ :: _, [] => isFalse (by simp)
  | x :: xs, y :: ys => match decEq x y, decEqs xs ys with
    | isTrue h, isTrue h' => isTrue (by rw [h, h'])
    | isFalse h, _ | _, isFalse h => isFalse (by simp [h])

/-- Decidable equality of member lists. -/
def decEqMembers [DecidableEq ν] : (a b : List (String × Json ν)) → Decidable (a = b)
  | [], [] => isTrue rfl
  | [], _ :: _ | _ :: _, [] => isFalse (by simp)
  | (k, x) :: xs, (l, y) :: ys =>
    match instDecidableEqString k l, decEq x y, decEqMembers xs ys with
    | isTrue h, isTrue h', isTrue h'' => isTrue (by rw [h, h', h''])
    | isFalse h, _, _ | _, isFalse h, _ | _, _, isFalse h => isFalse (by simp [h])

end

instance [DecidableEq ν] : DecidableEq (Json ν) := decEq

/-! ## Access -/

/-- The value used as a number: `bool` is a subclass of `int`. -/
def num? [PyNumber ν] : Json ν → Option ν
  | bool b => some (PyNumber.ofBool b)
  | num n => some n
  | _ => none

/-- The integer behind a value whose type is `int`. -/
def int? [PyNumber ν] : Json ν → Option ℤ
  | num n => PyNumber.int? n
  | _ => none

/-- The string behind a value whose type is `str`. -/
def str? : Json ν → Option String
  | str s => some s
  | _ => none

/-- The elements of a value whose type is `list`. -/
def arr? : Json ν → Option (List (Json ν))
  | arr xs => some xs
  | _ => none

/-- The value as a dictionary; a repeated key keeps its last value. -/
def dict? : Json ν → Option (Dict String (Json ν))
  | obj kvs => some (Dict.ofList kvs)
  | _ => none

/-- Whether the value can be a dictionary key. -/
def hashable : Json ν → Bool
  | arr _ | obj _ => false
  | _ => true

/-! ## Canonical text -/

/-- The lower-case hexadecimal digit of `n < 16`. -/
def hexDigit (n : ℕ) : Char := Char.ofNat (if n < 10 then 48 + n else 87 + n)

/-- The escape of one character: quotes, backslashes and control characters. -/
def escape (c : Char) : List Char :=
  if c = '"' then ['\\', '"']
  else if c = '\\' then ['\\', '\\']
  else if c = '\n' then ['\\', 'n']
  else if c = '\r' then ['\\', 'r']
  else if c = '\t' then ['\\', 't']
  else if c = '\x08' then ['\\', 'b']
  else if c = '\x0c' then ['\\', 'f']
  else if c.toNat < 32 then ['\\', 'u', '0', '0', hexDigit (c.toNat / 16), hexDigit (c.toNat % 16)]
  else [c]

/-- A string literal. -/
def quote (s : String) : List Char := '"' :: (s.toList.flatMap escape ++ ['"'])

/-- Texts separated by commas. -/
def commaSep : List (List Char) → List Char
  | [] => []
  | [x] => x
  | x :: y :: xs => x ++ ',' :: commaSep (y :: xs)

/-- Member texts sorted by key and put between braces. -/
def objectText (members : List (String × List Char)) : List Char :=
  '{' :: (commaSep ((members.insertionSort fun a b => a.1 ≤ b.1).map
    fun p => quote p.1 ++ ':' :: p.2) ++ ['}'])

mutual

/-- The text `json.dumps` produces with sorted keys, no whitespace and `ensure_ascii=False`. -/
def canonicalText (number : ν → String) : Json ν → List Char
  | null => ['n', 'u', 'l', 'l']
  | bool true => ['t', 'r', 'u', 'e']
  | bool false => ['f', 'a', 'l', 's', 'e']
  | num n => (number n).toList
  | str s => quote s
  | arr xs => '[' :: (commaSep (elementTexts number xs) ++ [']'])
  | obj kvs => objectText (memberTexts number kvs)

/-- The texts of the elements of an array. -/
def elementTexts (number : ν → String) : List (Json ν) → List (List Char)
  | [] => []
  | x :: xs => canonicalText number x :: elementTexts number xs

/-- The texts of the members of an object. -/
def memberTexts (number : ν → String) : List (String × Json ν) → List (String × List Char)
  | [] => []
  | (k, v) :: kvs => (k, canonicalText number v) :: memberTexts number kvs

end

end Json

/-! ## Bytes -/

/-- UTF-8. -/
def encodeUtf8 (cs : List Char) : List UInt8 := cs.flatMap String.utf8EncodeChar

/-- **UTF-8 is injective.** -/
theorem encodeUtf8_injective : Function.Injective encodeUtf8 := by
  intro cs ds h
  have hb : cs.utf8Encode = ds.utf8Encode := by
    unfold List.utf8Encode
    exact congrArg List.toByteArray h
  rw [← String.toByteArray_ofList, ← String.toByteArray_ofList, String.toByteArray_inj] at hb
  exact String.ofList_injective hb

/-- What the program uses of the interpreter's standard library. The digest and the keyed digest
stay uninterpreted. -/
structure PyLib (ν : Type) [PyNumber ν] where
  /-- The JSON text of a number. -/
  numberText : ν → String
  /-- `hashlib.sha256(data).hexdigest()` -/
  sha256 : List UInt8 → String
  /-- `hmac.new(key, data, hashlib.sha256).hexdigest()` -/
  hmacSha256 : String → List UInt8 → String
  /-- `str(x)` -/
  str : Json ν → String
  /-- `int(s)` of a string, if it is a numeral -/
  intOfString : String → Option ℤ
  numberText_ofInt : ∀ n : ℤ, numberText (PyNumber.ofInt n) = toString n
  intOfString_toString : ∀ n : ℤ, intOfString (toString n) = some n
  str_str : ∀ s, str (.str s) = s

/-- The canonical bytes of a value. -/
def canonicalJson {ν : Type} [PyNumber ν] (py : PyLib ν) (value : Json ν) : List UInt8 :=
  encodeUtf8 (value.canonicalText py.numberText)

/-- `int(x)` of a decoded value. -/
def Json.toInt? {ν : Type} [PyNumber ν] (py : PyLib ν) : Json ν → Option ℤ
  | .bool b => some (if b then 1 else 0)
  | .num n => some (PyNumber.trunc n)
  | .str s => py.intOfString s
  | _ => none
