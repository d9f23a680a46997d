import Mathlib.Data.List.TakeWhile
import SplitChain.Library.Raise
import SplitChain.Library.Utf16
import SplitChain.Python.Canonical

set_option relaxedAutoImplicit false
set_option autoImplicit false

/-!
# Reading JSON texts

The text that `json.dumps` writes for a file, where characters outside ASCII are escaped, and the
scanner of `json.loads`: white space, literals, string literals with their escapes, the greedy match
of a numeral, arrays and objects. What the scanner refuses, and what has no counterpart in `Json`
(`NaN`, `Infinity`, lone surrogates), is `none`. `float` of a numeral is a parameter.

## Main definitions

* `Json.text`, `Json.dumps` — `json.dumps(value, sort_keys=True, separators=(",", ":"))`.
* `Json.loads` — `json.loads(text)`.

## Main results

* `Json.scanValue_text` — the scanner reads a value from the front of a text.
* `Json.loads_text_sorted`, `Json.loads_canonicalText` — a text that has been written is read back,
  with its members sorted.
-/

namespace Json

open Raise

/-! ## Writing -/

/-- The escape of a 16-bit unit. -/
def unicodeEscape (u : ℕ) : List Char :=
  ['\\', 'u', hexDigit (u / 4096 % 16), hexDigit (u / 256 % 16), hexDigit (u / 16 % 16),
    hexDigit (u % 16)]

/-- The escape of one character with `ensure_ascii=True`. -/
def asciiEscape (c : Char) : List Char :=
  if c.toNat < 127 then escape c else (Utf16.units c).flatMap unicodeEscape

/-- A string literal in ASCII. -/
def asciiQuote (s : String) : List Char := '"' :: (s.toList.flatMap asciiEscape ++ ['"'])

variable {ν : Type}

mutual

/-- The text of a value in ASCII, with its members in document order. -/
def asciiText (number : ν → String) : Json ν → List Char
  | null => ['n', 'u', 'l', 'l']
  | bool true => ['t', 'r', 'u', 'e']
  | bool false => ['f', 'a', 'l', 's', 'e']
  | num n => (number n).toList
  | str s => asciiQuote s
  | arr xs => '[' :: (commaSep (asciiTexts number xs) ++ [']'])
  | obj kvs => '{' :: (commaSep (asciiMembers number kvs) ++ ['}'])

/-- The texts of the elements of an array. -/
def asciiTexts (number : ν → String) : List (Json ν) → List (List Char)
  | [] => []
  | x :: xs => asciiText number x :: asciiTexts number xs

/-- The texts of the members of an object. -/
def asciiMembers (number : ν → String) : List (String × Json ν) → List (List Char)
  | [] => []
  | (k, v) :: kvs => (asciiQuote k ++ ':' :: asciiText number v) :: asciiMembers number kvs

end

/-- The text that `json.dumps(value, sort_keys=True, separators=(",", ":"))` makes of a value whose
numbers it prints. -/
def text (number : ν → String) (v : Json ν) : List Char :=
  asciiText number (v.sortBy (· ≤ ·))

/-- `json.dumps(value, sort_keys=True, separators=(",", ":"))` -/
def dumps [PyNumber ν] (number : ν → String) (v : Json ν) : Except PyError (List Char) := do
  require (v.numbers.all fun n => decide (Printable n)) (.value "")
  return text number v

/-- What is written: the text, if every number is printed. -/
lemma dumps_eq_ok [PyNumber ν] {number : ν → String} {v : Json ν} {cs : List Char} :
    dumps number v = .ok cs ↔ v.EveryNumber Printable ∧ cs = text number v := by
  simp only [dumps, bind_eq_ok, require_eq_ok, pure_eq_ok, exists_const, List.all_eq_true,
    decide_eq_true_eq, forall_mem_numbers, eq_comm (a := cs)]

/-! ## Reading strings -/

/-- The value of a hexadecimal digit. -/
def hexValue? (c : Char) : Option ℕ :=
  if '0' ≤ c ∧ c ≤ '9' then some (c.toNat - 48)
  else if 'a' ≤ c ∧ c ≤ 'f' then some (c.toNat - 87)
  else if 'A' ≤ c ∧ c ≤ 'F' then some (c.toNat - 55)
  else none

/-- The unit of four hexadecimal digits, and the rest of the text. -/
def codeUnit? : List Char → Option (ℕ × List Char)
  | a :: b :: c :: d :: r => do
    let a ← hexValue? a
    let b ← hexValue? b
    let c ← hexValue? c
    let d ← hexValue? d
    some (4096 * a + 256 * b + 16 * c + d, r)
  | _ => none

/-- The character after `\u`: a high surrogate has to be followed by a low one. -/
def readUnicode (cs : List Char) : Option (Char × List Char) := do
  let (u, r) ← codeUnit? cs
  if Utf16.IsHigh u then
    match r with
    | '\\' :: 'u' :: r => do
      let (v, r) ← codeUnit? r
      if Utf16.IsLow v then
        some (Char.ofNat (0x10000 + (u - 0xD800) * 0x400 + (v - 0xDC00)), r)
      else none
    | _ => none
  else if Utf16.IsLow u then none
  else some (Char.ofNat u, r)

/-- The character that a letter stands for after a backslash. -/
def simpleEscape? (c : Char) : Option Char :=
  if c = '"' ∨ c = '\\' ∨ c = '/' then some c
  else if c = 'b' then some '\x08'
  else if c = 'f' then some '\x0c'
  else if c = 'n' then some '\n'
  else if c = 'r' then some '\r'
  else if c = 't' then some '\t'
  else none

/-- The first character of a string literal that is not at its end, and the rest of the text. -/
def readChar : List Char → Option (Char × List Char)
  | [] => none
  | c :: r =>
    if c = '\\' then
      match r with
      | [] => none
      | e :: r => if e = 'u' then readUnicode r else (simpleEscape? e).map fun d => (d, r)
    else if c = '"' ∨ c.toNat < 32 then none
    else some (c, r)

/-- `scanstring`: the characters up to the closing quote, and the rest of the text. Every turn takes
a character of the text, so its length is fuel enough. -/
def scanChars : ℕ → List Char → Option (List Char × List Char)
  | 0, _ => none
  | n + 1, cs =>
    match cs with
    | [] => none
    | c :: r =>
      if c = '"' then some ([], r)
      else do
        let (d, r) ← readChar (c :: r)
        let (ds, r) ← scanChars n r
        some (d :: ds, r)

/-- A string literal after its opening quote. -/
def scanString (cs : List Char) : Option (String × List Char) :=
  (scanChars cs.length cs).map fun p => (String.ofList p.1, p.2)

/-! ## Reading numerals -/

/-- An optional sign at the front of a text. -/
def splitSign (signs : List Char) : List Char → List Char × List Char
  | [] => ([], [])
  | c :: r => if c ∈ signs then ([c], r) else ([], c :: r)

/-- `-?(?:0|[1-9][0-9]*)` at the front of a text. -/
def splitInteger (cs : List Char) : Option (List Char × List Char) :=
  let (sign, r) := splitSign ['-'] cs
  match r with
  | [] => none
  | c :: r =>
    if c = '0' then some (sign ++ ['0'], r)
    else if c.isDigit then
      some (sign ++ c :: r.takeWhile Char.isDigit, r.dropWhile Char.isDigit)
    else none

/-- `(\.[0-9]+)?` at the front of a text. -/
def splitFraction : List Char → List Char × List Char
  | c :: d :: r =>
    if c = '.' ∧ d.isDigit then
      (c :: d :: r.takeWhile Char.isDigit, r.dropWhile Char.isDigit)
    else ([], c :: d :: r)
  | r => ([], r)

/-- `([eE][-+]?[0-9]+)?` at the front of a text. -/
def splitExponent : List Char → List Char × List Char
  | [] => ([], [])
  | c :: r =>
    if c = 'e' ∨ c = 'E' then
      let (sign, r') := splitSign ['-', '+'] r
      match r' with
      | [] => ([], c :: r)
      | d :: r' =>
        if d.isDigit then
          (c :: sign ++ d :: r'.takeWhile Char.isDigit, r'.dropWhile Char.isDigit)
        else ([], c :: r)
    else ([], c :: r)

/-- The number at the front of a text, by the longest match of a numeral: `int` of it, or `float` if
it has a fraction or an exponent. -/
def scanNumber [PyNumber ν] (float : String → Option ν) (cs : List Char) :
    Option (ν × List Char) := do
  let (integer, r) ← splitInteger cs
  let (fraction, r) := splitFraction r
  let (exponent, r) := splitExponent r
  if fraction.isEmpty && exponent.isEmpty then
    let n ← parseInt (String.ofList integer)
    some (PyNumber.ofInt n, r)
  else
    let x ← float (String.ofList (integer ++ fraction ++ exponent))
    some (x, r)

/-! ## Reading values -/

/-- White space. -/
def isSpace (c : Char) : Bool := c = ' ' || c = '\t' || c = '\n' || c = '\r'

/-- Skip white space. -/
def skip (cs : List Char) : List Char := cs.dropWhile isSpace

/-- A literal at the front of a text. -/
def scanLiteral (word : List Char) (v : Json ν) (cs : List Char) : Option (Json ν × List Char) :=
  if word.isPrefixOf cs then some (v, cs.drop word.length) else none

section Lists

variable {α : Type} (item : List Char → Option (α × List Char)) (close : Char)

/-- Items between commas, up to a closing bracket. Every turn takes an item of the text, so its
length is fuel enough. -/
def scanItems : ℕ → List Char → Option (List α × List Char)
  | 0, _ => none
  | n + 1, cs => do
    let (x, r) ← item cs
    match skip r with
    | [] => none
    | c :: r =>
      if c = ',' then
        let (xs, r) ← scanItems n (skip r)
        some (x :: xs, r)
      else if c = close then some ([x], r)
      else none

/-- What stands between two brackets, after the opening one. -/
def scanList (n : ℕ) (cs : List Char) : Option (List α × List Char) :=
  match skip cs with
  | [] => none
  | c :: r => if c = close then some ([], r) else scanItems item close n (c :: r)

end Lists

/-- A member of an object. -/
def scanMember (value : List Char → Option (Json ν × List Char)) :
    List Char → Option ((String × Json ν) × List Char)
  | [] => none
  | c :: r =>
    if c = '"' then do
      let (k, r) ← scanString r
      match skip r with
      | [] => none
      | c :: r =>
        if c = ':' then
          let (v, r) ← value (skip r)
          some ((k, v), r)
        else none
    else none

/-- `scan_once`: the value at the front of a text. Every level takes a bracket of the text, so its
length is fuel enough. -/
def scanValue [PyNumber ν] (float : String → Option ν) :
    ℕ → List Char → Option (Json ν × List Char)
  | 0, _ => none
  | _ + 1, [] => none
  | n + 1, c :: r =>
    if c = '"' then (scanString r).map fun p => (str p.1, p.2)
    else if c = '{' then
      (scanList (scanMember (scanValue float n)) '}' n r).map fun p => (obj p.1, p.2)
    else if c = '[' then (scanList (scanValue float n) ']' n r).map fun p => (arr p.1, p.2)
    else if c = 'n' then scanLiteral ['n', 'u', 'l', 'l'] null (c :: r)
    else if c = 't' then scanLiteral ['t', 'r', 'u', 'e'] (bool true) (c :: r)
    else if c = 'f' then scanLiteral ['f', 'a', 'l', 's', 'e'] (bool false) (c :: r)
    else (scanNumber float (c :: r)).map fun p => (num p.1, p.2)

/-- `json.loads(text)` -/
def loads [PyNumber ν] (float : String → Option ν) (cs : List Char) : Option (Json ν) := do
  let (v, r) ← scanValue float cs.length (skip cs)
  if (skip r).isEmpty then some v else none

/-! ## Strings are read back -/

/-- A hexadecimal digit is read back. -/
lemma hexValue?_hexDigit {n : ℕ} (h : n < 16) : hexValue? (hexDigit n) = some n := by
  have hall : ∀ n < 16, hexValue? (hexDigit n) = some n := by decide
  exact hall n h

/-- The escape of a unit is read back. -/
lemma codeUnit?_unicodeEscape {u : ℕ} (h : u < 0x10000) (r : List Char) :
    codeUnit? ((unicodeEscape u).drop 2 ++ r) = some (u, r) := by
  have hsum : 4096 * (u / 4096 % 16) + 256 * (u / 256 % 16) + 16 * (u / 16 % 16) + u % 16 = u := by
    omega
  show (do
    let a ← hexValue? (hexDigit (u / 4096 % 16))
    let b ← hexValue? (hexDigit (u / 256 % 16))
    let c ← hexValue? (hexDigit (u / 16 % 16))
    let d ← hexValue? (hexDigit (u % 16))
    some (4096 * a + 256 * b + 16 * c + d, r)) = some (u, r)
  rw [hexValue?_hexDigit (Nat.mod_lt _ (by decide)), hexValue?_hexDigit (Nat.mod_lt _ (by decide)),
    hexValue?_hexDigit (Nat.mod_lt _ (by decide)), hexValue?_hexDigit (Nat.mod_lt _ (by decide))]
  simp only [Option.bind_eq_bind, Option.bind_some, hsum]

/-- A unit that is no surrogate is read back. -/
lemma readUnicode_single {u : ℕ} (h : u < 0x10000) (hhigh : ¬Utf16.IsHigh u)
    (hlow : ¬Utf16.IsLow u) (r : List Char) :
    readUnicode ((unicodeEscape u).drop 2 ++ r) = some (Char.ofNat u, r) := by
  unfold readUnicode
  rw [codeUnit?_unicodeEscape h]
  simp only [Option.bind_eq_bind, Option.bind_some, if_neg hhigh, if_neg hlow]

/-- A pair of surrogates is read back. -/
lemma readUnicode_pair {u v : ℕ} (hhigh : Utf16.IsHigh u) (hlow : Utf16.IsLow v) (r : List Char) :
    readUnicode ((unicodeEscape u).drop 2 ++ (unicodeEscape v ++ r)) =
      some (Char.ofNat (0x10000 + (u - 0xD800) * 0x400 + (v - 0xDC00)), r) := by
  have hu : u < 0x10000 := by unfold Utf16.IsHigh at hhigh; omega
  have hv : v < 0x10000 := by unfold Utf16.IsLow at hlow; omega
  have hlater : unicodeEscape v ++ r = '\\' :: 'u' :: ((unicodeEscape v).drop 2 ++ r) := rfl
  unfold readUnicode
  rw [codeUnit?_unicodeEscape hu, hlater]
  simp only [Option.bind_eq_bind, Option.bind_some, if_pos hhigh, codeUnit?_unicodeEscape hv,
    if_pos hlow]

/-- The units of a character are read back. -/
lemma readUnicode_units (c : Char) (r : List Char) :
    readUnicode (((Utf16.units c).flatMap unicodeEscape).drop 2 ++ r) = some (c, r) := by
  have hvalid := Utf16.toNat_valid c
  rcases Nat.lt_or_ge c.toNat 0x10000 with h | h
  · have hhigh : ¬Utf16.IsHigh c.toNat := fun hu => by unfold Utf16.IsHigh at hu; omega
    have hlow : ¬Utf16.IsLow c.toNat := fun hu => by unfold Utf16.IsLow at hu; omega
    rw [Utf16.units_of_lt h, List.flatMap_singleton, readUnicode_single h hhigh hlow,
      Char.ofNat_toNat]
  · obtain ⟨u, v, hunits, hhigh, hlow, hsum⟩ : ∃ u v, Utf16.units c = [u, v] ∧ Utf16.IsHigh u ∧
        Utf16.IsLow v ∧ 0x10000 + (u - 0xD800) * 0x400 + (v - 0xDC00) = c.toNat := by
      refine ⟨_, _, Utf16.units_of_ge h, ?_, ?_, ?_⟩
      · unfold Utf16.IsHigh
        omega
      · unfold Utf16.IsLow
        omega
      · omega
    have hsplit : ([u, v].flatMap unicodeEscape).drop 2 ++ r =
        (unicodeEscape u).drop 2 ++ (unicodeEscape v ++ r) := by
      simp only [unicodeEscape, List.flatMap_cons, List.flatMap_nil, List.append_nil,
        List.cons_append, List.nil_append, List.drop_succ_cons, List.drop_zero]
    rw [hunits, hsplit, readUnicode_pair hhigh hlow, hsum, Char.ofNat_toNat]

/-- Units are escaped with a backslash in front. -/
lemma flatMap_unicodeEscape (c : Char) : (Utf16.units c).flatMap unicodeEscape =
    '\\' :: 'u' :: ((Utf16.units c).flatMap unicodeEscape).drop 2 := by
  unfold Utf16.units
  split_ifs <;> rfl

/-- An escape that begins with a character other than a backslash is that character. -/
lemma readChar_of_ne {c : Char} (hbackslash : c ≠ '\\') (hquote : c ≠ '"')
    (hcontrol : ¬c.toNat < 32) (r : List Char) : readChar (c :: r) = some (c, r) := by
  unfold readChar
  simp only [if_neg hbackslash, if_neg (not_or.mpr ⟨hquote, hcontrol⟩)]

/-- **An escape is read back.** -/
lemma readChar_escape (c : Char) (r : List Char) : readChar (escape c ++ r) = some (c, r) := by
  unfold escape
  split_ifs with hquote hbackslash hn hr ht hb hf hcontrol
  · subst hquote; rfl
  · subst hbackslash; rfl
  · subst hn; rfl
  · subst hr; rfl
  · subst ht; rfl
  · subst hb; rfl
  · subst hf; rfl
  · have hunit := codeUnit?_unicodeEscape (u := c.toNat) (by omega) r
    have htext : ['\\', 'u', '0', '0', hexDigit (c.toNat / 16), hexDigit (c.toNat % 16)] =
        unicodeEscape c.toNat := by
      have hall : ∀ n < 32, ['\\', 'u', '0', '0', hexDigit (n / 16), hexDigit (n % 16)] =
          unicodeEscape n := by decide
      exact hall _ hcontrol
    have hunits := readUnicode_units c r
    rw [Utf16.units_of_lt (by omega), List.flatMap_singleton] at hunits
    rw [htext]
    exact hunits
  · exact readChar_of_ne hbackslash hquote hcontrol r

/-- An escape in ASCII is read back. -/
lemma readChar_asciiEscape (c : Char) (r : List Char) :
    readChar (asciiEscape c ++ r) = some (c, r) := by
  unfold asciiEscape
  split_ifs with hascii
  · exact readChar_escape c r
  · rw [flatMap_unicodeEscape]
    exact readUnicode_units c r

/-- An escape does not begin with a quote, and is not empty. -/
lemma exists_escape (c : Char) : ∃ d ds, escape c = d :: ds ∧ d ≠ '"' := by
  unfold escape
  split_ifs with hquote
  all_goals first
    | exact ⟨_, _, rfl, by decide⟩
    | exact ⟨_, _, rfl, hquote⟩

/-- An escape in ASCII does not begin with a quote, and is not empty. -/
lemma exists_asciiEscape (c : Char) : ∃ d ds, asciiEscape c = d :: ds ∧ d ≠ '"' := by
  unfold asciiEscape
  split_ifs with hascii
  · exact exists_escape c
  · exact ⟨_, _, flatMap_unicodeEscape c, by decide⟩

section Literals

/-- A way to write string literals that the scanner reads back. -/
def LiteralReadable (literal : String → List Char) : Prop :=
  ∀ s, ∃ body, literal s = '"' :: body ∧ ∀ r, scanString (body ++ r) = some (s, r)

variable {escaped : Char → List Char} (hread : ∀ c r, readChar (escaped c ++ r) = some (c, r))
  (hbegins : ∀ c, ∃ d ds, escaped c = d :: ds ∧ d ≠ '"')

include hread hbegins in
/-- Escaped characters are read back up to the closing quote. -/
lemma scanChars_flatMap (cs r : List Char) {n : ℕ} (h : cs.length < n) :
    scanChars n (cs.flatMap escaped ++ '"' :: r) = some (cs, r) := by
  induction cs generalizing n with
  | nil =>
    obtain ⟨n, rfl⟩ := Nat.exists_eq_succ_of_ne_zero (Nat.ne_zero_of_lt h)
    rfl
  | cons c cs ih =>
    obtain ⟨n, rfl⟩ := Nat.exists_eq_succ_of_ne_zero (Nat.ne_zero_of_lt h)
    have hrest := ih (Nat.lt_of_succ_lt_succ h)
    have hc := hread c (cs.flatMap escaped ++ '"' :: r)
    obtain ⟨d, ds, hescape, hquote⟩ := hbegins c
    rw [hescape, List.cons_append] at hc
    rw [List.flatMap_cons, hescape, List.cons_append, List.cons_append, List.append_assoc]
    unfold scanChars
    simp only [if_neg hquote, hc, Option.bind_eq_bind, Option.bind_some, hrest]

include hbegins in
/-- The characters of a text are at most as many as their escapes. -/
lemma length_le_flatMap (cs : List Char) : cs.length ≤ (cs.flatMap escaped).length := by
  induction cs with
  | nil => exact le_rfl
  | cons c cs ih =>
    obtain ⟨d, ds, hescape, -⟩ := hbegins c
    rw [List.flatMap_cons, hescape]
    simp only [List.length_cons, List.cons_append, List.length_append]
    omega

include hread hbegins in
/-- **A string literal is read back** when every escape is. -/
lemma literalReadable_flatMap :
    LiteralReadable fun s => '"' :: (s.toList.flatMap escaped ++ ['"']) := by
  refine fun s => ⟨_, rfl, fun r => ?_⟩
  have hlength : s.toList.length < (s.toList.flatMap escaped ++ '"' :: r).length := by
    have hle := length_le_flatMap hbegins s.toList
    simp only [List.length_append, List.length_cons]
    omega
  rw [List.append_assoc, List.singleton_append, scanString,
    scanChars_flatMap hread hbegins s.toList r hlength, Option.map_some, String.ofList_toList]

/-- Literals in ASCII are read back. -/
lemma literalReadable_asciiQuote : LiteralReadable asciiQuote :=
  literalReadable_flatMap readChar_asciiEscape exists_asciiEscape

/-- Canonical literals are read back. -/
lemma literalReadable_quote : LiteralReadable quote :=
  literalReadable_flatMap readChar_escape exists_escape

end Literals

/-! ## Numerals are read back -/

/-- A text that does not go on with a numeral. -/
def EndsNumeral (r : List Char) : Prop :=
  ∀ c ∈ r.head?, c.isDigit = false ∧ c ∉ ['-', '+', '.', 'e', 'E']

section Numerals

variable {r : List Char}

/-- Digits end where the numeral does. -/
lemma takeWhile_append (hr : EndsNumeral r) (cs : List Char) :
    (cs ++ r).takeWhile Char.isDigit = cs.takeWhile Char.isDigit := by
  induction cs with
  | nil =>
    cases r with
    | nil => rfl
    | cons c r => rw [List.nil_append, List.takeWhile_cons_of_neg (by simp [(hr c rfl).1])]; rfl
  | cons c cs ih =>
    rw [List.cons_append]
    by_cases hc : c.isDigit = true
    · rw [List.takeWhile_cons_of_pos hc, List.takeWhile_cons_of_pos hc, ih]
    · rw [List.takeWhile_cons_of_neg hc, List.takeWhile_cons_of_neg hc]

/-- What follows the digits. -/
lemma dropWhile_append (hr : EndsNumeral r) (cs : List Char) :
    (cs ++ r).dropWhile Char.isDigit = cs.dropWhile Char.isDigit ++ r := by
  induction cs with
  | nil =>
    cases r with
    | nil => rfl
    | cons c r => rw [List.nil_append, List.dropWhile_cons_of_neg (by simp [(hr c rfl).1])]; rfl
  | cons c cs ih =>
    rw [List.cons_append]
    by_cases hc : c.isDigit = true
    · rw [List.dropWhile_cons_of_pos hc, List.dropWhile_cons_of_pos hc, ih]
    · rw [List.dropWhile_cons_of_neg hc, List.dropWhile_cons_of_neg hc]; rfl

/-- The integer part of a numeral, whatever follows. -/
lemma splitInteger_append (hr : EndsNumeral r) {cs t rest : List Char}
    (h : splitInteger cs = some (t, rest)) : splitInteger (cs ++ r) = some (t, rest ++ r) := by
  have hsign : ∀ signs, cs ≠ [] → splitSign signs (cs ++ r) =
      ((splitSign signs cs).1, (splitSign signs cs).2 ++ r) := by
    intro signs hne
    cases cs with
    | nil => exact absurd rfl hne
    | cons c cs =>
      simp only [List.cons_append, splitSign]
      split_ifs <;> rfl
  have hne : cs ≠ [] := by
    rintro rfl
    cases h
  unfold splitInteger at h ⊢
  rw [hsign _ hne]
  generalize splitSign ['-'] cs = split at h ⊢
  obtain ⟨sign, cs⟩ := split
  dsimp only at h ⊢
  cases cs with
  | nil => cases h
  | cons c cs =>
    simp only [List.cons_append] at h ⊢
    split_ifs at h ⊢ with hzero hdigit
    · simp only [Option.some.injEq, Prod.mk.injEq] at h ⊢
      exact ⟨h.1, by rw [← h.2]⟩
    · simp only [Option.some.injEq, Prod.mk.injEq] at h ⊢
      rw [takeWhile_append hr, dropWhile_append hr]
      exact ⟨h.1, by rw [← h.2]⟩

/-- The fraction of a numeral, whatever follows. -/
lemma splitFraction_append (hr : EndsNumeral r) (cs : List Char) :
    splitFraction (cs ++ r) = ((splitFraction cs).1, (splitFraction cs).2 ++ r) := by
  match cs with
  | [] =>
    match r with
    | [] => rfl
    | [c] => rfl
    | c :: d :: r =>
      have hdot : ¬(c = '.' ∧ d.isDigit = true) := by
        rintro ⟨rfl, -⟩
        exact (hr '.' rfl).2 (by decide)
      simp only [List.nil_append, splitFraction, if_neg hdot]
  | [c] =>
    match r with
    | [] => rfl
    | d :: r =>
      have hdigit : ¬(c = '.' ∧ d.isDigit = true) := by
        rintro ⟨-, hd⟩
        rw [(hr d rfl).1] at hd
        cases hd
      simp only [List.cons_append, List.nil_append, splitFraction, if_neg hdigit]
  | c :: d :: cs =>
    simp only [List.cons_append, splitFraction, takeWhile_append hr, dropWhile_append hr]
    split_ifs <;> rfl

/-- The exponent of a numeral, whatever follows. -/
lemma splitExponent_append (hr : EndsNumeral r) (cs : List Char) :
    splitExponent (cs ++ r) = ((splitExponent cs).1, (splitExponent cs).2 ++ r) := by
  cases cs with
  | nil =>
    cases r with
    | nil => rfl
    | cons c r =>
      have hletter : ¬(c = 'e' ∨ c = 'E') := by
        rintro (rfl | rfl)
        · exact (hr 'e' rfl).2 (by decide)
        · exact (hr 'E' rfl).2 (by decide)
      simp only [List.nil_append, splitExponent, if_neg hletter]
  | cons c cs =>
    simp only [List.cons_append, splitExponent]
    split_ifs with hletter
    · cases cs with
      | nil =>
        cases r with
        | nil => rfl
        | cons d r =>
          have hsign : d ∉ ['-', '+'] := fun hd => (hr d rfl).2 (by simp at hd ⊢; tauto)
          simp only [List.nil_append, splitSign, if_neg hsign, (hr d rfl).1, Bool.false_eq_true,
            if_false]
          rfl
      | cons d cs =>
        simp only [List.cons_append, splitSign]
        split_ifs with hsign
        · cases cs with
          | nil =>
            cases r with
            | nil => rfl
            | cons e r => simp only [List.nil_append, (hr e rfl).1, Bool.false_eq_true, if_false,
                List.cons_append]
          | cons e cs =>
            simp only [List.cons_append, takeWhile_append hr, dropWhile_append hr]
            split_ifs <;> rfl
        · simp only [takeWhile_append hr, dropWhile_append hr]
          split_ifs <;> rfl
    · rfl

/-- **A numeral is read alike** whatever text follows that does not go on with it. -/
lemma scanNumber_append [PyNumber ν] {float : String → Option ν} (hr : EndsNumeral r)
    {cs rest : List Char} {n : ν} (h : scanNumber float cs = some (n, rest)) :
    scanNumber float (cs ++ r) = some (n, rest ++ r) := by
  unfold scanNumber at h ⊢
  cases hinteger : splitInteger cs with
  | none =>
    rw [hinteger] at h
    cases h
  | some split =>
    obtain ⟨integer, cs'⟩ := split
    rw [splitInteger_append hr hinteger]
    rw [hinteger] at h
    simp only [Option.bind_eq_bind, Option.bind_some, splitFraction_append hr,
      splitExponent_append hr] at h ⊢
    split_ifs at h ⊢
    · simp only [Option.bind_eq_some_iff, Option.some.injEq, Prod.mk.injEq] at h ⊢
      obtain ⟨k, hk, hn, hrest⟩ := h
      exact ⟨k, hk, hn, by rw [hrest]⟩
    · simp only [Option.bind_eq_some_iff, Option.some.injEq, Prod.mk.injEq] at h ⊢
      obtain ⟨x, hx, hn, hrest⟩ := h
      exact ⟨x, hx, hn, by rw [hrest]⟩

end Numerals

/-- The numeral of a positive number does not begin with a zero. -/
lemma head?_toDigits {m : ℕ} (h : 0 < m) : (Nat.toDigits 10 m).head? ≠ some '0' := by
  induction m using Nat.strong_induction_on with
  | _ m ih =>
    rcases Nat.lt_or_ge m 10 with hlt | hge
    · have hall : ∀ m < 10, 0 < m → Nat.digitChar m ≠ '0' := by decide
      rw [Nat.toDigits_of_lt_base hlt, List.head?_cons, ne_eq, Option.some.injEq]
      exact hall m hlt h
    · have hhead := ih (m / 10) (by omega) (by omega)
      rw [Nat.toDigits_of_base_le (by decide) hge]
      cases hdigits : Nat.toDigits 10 (m / 10) with
      | nil => exact absurd hdigits Nat.toDigits_ne_nil
      | cons c cs =>
        rw [hdigits] at hhead
        exact hhead

/-- The digits of a number are an integer part. -/
lemma splitInteger_toDigits (m : ℕ) :
    splitInteger (Nat.toDigits 10 m) = some (Nat.toDigits 10 m, []) ∧
      splitInteger ('-' :: Nat.toDigits 10 m) = some ('-' :: Nat.toDigits 10 m, []) := by
  have hdigit : ∀ c ∈ Nat.toDigits 10 m, c.isDigit = true := fun c hc =>
    Nat.isDigit_of_mem_toDigits (by decide) (by decide) hc
  have hzero : m = 0 ∨ (Nat.toDigits 10 m).head? ≠ some '0' :=
    (Nat.eq_zero_or_pos m).imp_right head?_toDigits
  cases hdigits : Nat.toDigits 10 m with
  | nil => exact absurd hdigits Nat.toDigits_ne_nil
  | cons c cs =>
    rw [hdigits] at hdigit hzero
    have hc : c.isDigit = true := hdigit c List.mem_cons_self
    have htake : cs.takeWhile Char.isDigit = cs :=
      List.takeWhile_eq_self_iff.mpr fun d hd => hdigit d (List.mem_cons_of_mem _ hd)
    have hdrop : cs.dropWhile Char.isDigit = [] :=
      List.dropWhile_eq_nil_iff.mpr fun d hd => hdigit d (List.mem_cons_of_mem _ hd)
    have hsign : c ∉ ['-'] := by
      intro hmem
      rw [List.mem_singleton.mp hmem] at hc
      cases hc
    have hempty : c = '0' → cs = [] := by
      rintro rfl
      rcases hzero with rfl | hne
      · rw [Nat.toDigits_zero] at hdigits
        exact (List.cons.inj hdigits).2.symm
      · exact absurd rfl hne
    have hboth : ∀ sign : List Char, (if c = '0' then some (sign ++ ['0'], cs)
        else if c.isDigit = true then
          some (sign ++ c :: cs.takeWhile Char.isDigit, cs.dropWhile Char.isDigit)
        else none) = some (sign ++ c :: cs, []) := by
      intro sign
      split_ifs with hc0
      · rw [hempty hc0, hc0]
      · rw [htake, hdrop]
    constructor
    · unfold splitInteger
      simp only [splitSign, if_neg hsign]
      exact hboth []
    · exact hboth ['-']

/-- **The numeral of an integer is read back.** -/
lemma scanNumber_toString [PyNumber ν] (float : String → Option ν) (n : ℤ) :
    scanNumber float (toString n).toList = some (PyNumber.ofInt n, []) := by
  have hinteger : splitInteger (toString n).toList = some ((toString n).toList, []) := by
    cases n with
    | ofNat m =>
      rw [toList_toString_ofNat]
      exact (splitInteger_toDigits m).1
    | negSucc m =>
      rw [toList_toString_negSucc]
      exact (splitInteger_toDigits (m + 1)).2
  unfold scanNumber
  rw [hinteger]
  simp only [Option.bind_eq_bind, Option.bind_some, splitFraction, splitExponent, List.isEmpty_nil,
    Bool.and_self, if_true, String.ofList_toList, parseInt_toString]

/-! ## Values are read back -/

/-- A numeral that is read begins with a sign or a digit. -/
lemma exists_head_of_scanNumber [PyNumber ν] {float : String → Option ν} {cs rest : List Char}
    {n : ν} (h : scanNumber float cs = some (n, rest)) :
    ∃ c r, cs = c :: r ∧ (c = '-' ∨ c.isDigit = true) := by
  unfold scanNumber at h
  cases cs with
  | nil => cases h
  | cons c r =>
    refine ⟨c, r, rfl, ?_⟩
    by_contra hne
    obtain ⟨hsign, hdigit⟩ := not_or.mp hne
    have hzero : c ≠ '0' := by
      rintro rfl
      exact hdigit rfl
    have hinteger : splitInteger (c :: r) = none := by
      unfold splitInteger
      simp only [splitSign, List.mem_singleton, if_neg hsign, if_neg hzero, if_neg hdigit]
    rw [hinteger] at h
    cases h

/-- A text that begins with a character that no closing bracket and no white space is. -/
def BeginsItem (cs : List Char) : Prop :=
  ∃ c r, cs = c :: r ∧ isSpace c = false ∧ c ≠ ']' ∧ c ≠ '}'

section Values

variable [PyNumber ν] {float : String → Option ν} {number : ν → String}

/-- White space is skipped in front of an item. -/
lemma skip_append {cs : List Char} (h : BeginsItem cs) (r : List Char) :
    skip (cs ++ r) = cs ++ r := by
  obtain ⟨c, cs, rfl, hspace, -⟩ := h
  exact List.dropWhile_cons_of_neg (by rw [hspace]; decide)

/-- A number whose text is read back. -/
def NumberReadable (float : String → Option ν) (number : ν → String) (n : ν) : Prop :=
  scanNumber float (number n).toList = some (n, [])

/-- The integers of a document are read back. -/
lemma numberReadable_ofInt (py : PyLib ν) (float : String → Option ν) (n : ℤ) :
    NumberReadable float py.numberText (PyNumber.ofInt n) := by
  unfold NumberReadable
  rw [py.numberText_ofInt]
  exact scanNumber_toString float n

/-- A member as it is written: the key, a colon and the value. -/
def memberWritten (literal : String → List Char) (text : Json ν → List Char)
    (p : String × Json ν) : List Char :=
  literal p.1 ++ ':' :: text p.2

/-- A way to write values without white space: numbers and string literals as given, members in
document order. -/
structure WritesValues (number : ν → String) (literal : String → List Char)
    (text : Json ν → List Char) : Prop where
  null : text null = ['n', 'u', 'l', 'l']
  true : text (bool true) = ['t', 'r', 'u', 'e']
  false : text (bool false) = ['f', 'a', 'l', 's', 'e']
  num : ∀ n, text (num n) = (number n).toList
  str : ∀ s, text (str s) = literal s
  arr : ∀ xs, text (arr xs) = '[' :: (commaSep (xs.map text) ++ [']'])
  obj : ∀ kvs, text (obj kvs) = '{' :: (commaSep (kvs.map (memberWritten literal text)) ++ ['}'])

section Written

variable {literal : String → List Char} {text : Json ν → List Char}
  (hliteral : LiteralReadable literal) (hwrites : WritesValues number literal text)

include hliteral hwrites in
/-- A text begins an item. -/
lemma beginsItem_text {v : Json ν} (h : v.EveryNumber (NumberReadable float number)) :
    BeginsItem (text v) := by
  cases v with
  | num n =>
    obtain ⟨c, r, htext, hc⟩ := exists_head_of_scanNumber (show _ = _ from h)
    refine ⟨c, r, (hwrites.num n).trans htext, ?_⟩
    rcases hc with rfl | hdigit
    · decide
    · refine ⟨Bool.eq_false_iff.mpr fun hspace => ?_, ?_, ?_⟩
      · simp only [isSpace, Bool.or_eq_true, decide_eq_true_eq] at hspace
        rcases hspace with ((rfl | rfl) | rfl) | rfl <;> cases hdigit
      · rintro rfl
        cases hdigit
      · rintro rfl
        cases hdigit
  | bool b =>
    cases b with
    | true => exact ⟨_, _, hwrites.true, by decide⟩
    | false => exact ⟨_, _, hwrites.false, by decide⟩
  | null => exact ⟨_, _, hwrites.null, by decide⟩
  | str s =>
    obtain ⟨body, hbody, -⟩ := hliteral s
    exact ⟨_, _, (hwrites.str s).trans hbody, by decide⟩
  | arr xs => exact ⟨_, _, hwrites.arr xs, by decide⟩
  | obj kvs => exact ⟨_, _, hwrites.obj kvs, by decide⟩

end Written

/-- The texts between two brackets are at most as many as their characters. -/
lemma length_le_commaSep {xs : List (List Char)} (h : ∀ x ∈ xs, x ≠ []) :
    xs.length ≤ (commaSep xs).length ∧ ∀ x ∈ xs, x.length ≤ (commaSep xs).length := by
  induction xs with
  | nil => exact ⟨le_rfl, nofun⟩
  | cons x xs ih =>
    obtain ⟨hcount, hlength⟩ := ih fun y hy => h y (List.mem_cons_of_mem _ hy)
    have hx : 0 < x.length := List.length_pos_iff.mpr (h x List.mem_cons_self)
    cases xs with
    | nil => exact ⟨hx, fun y hy => by rw [List.mem_singleton.mp hy]; exact le_rfl⟩
    | cons z zs =>
      have hsum : (commaSep (x :: z :: zs)).length =
          x.length + ((commaSep (z :: zs)).length + 1) := by
        rw [commaSep, List.length_append, List.length_cons]
      refine ⟨by rw [hsum, List.length_cons]; omega, ?_⟩
      rintro y (_ | ⟨_, hy⟩)
      · omega
      · have := hlength y hy
        omega

section Lists

variable {α : Type} {text : α → List Char} {item : List Char → Option (α × List Char)}
  {close : Char}

/-- **Items between commas are read back** up to the closing bracket.

**Proof sketch.** Induction on the items. What follows an item is a comma or the closing bracket, so
that it ends there. -/
lemma scanItems_commaSep (hclose : close ∈ [']', '}']) {x : α} {xs : List α}
    (hbegins : ∀ y ∈ x :: xs, BeginsItem (text y))
    (hread : ∀ y ∈ x :: xs, ∀ r, EndsNumeral r → item (text y ++ r) = some (y, r))
    {n : ℕ} (hn : (x :: xs).length ≤ n) (r : List Char) :
    scanItems item close n (commaSep ((x :: xs).map text) ++ close :: r) =
      some (x :: xs, r) := by
  have hends : EndsNumeral (close :: r) := by
    rintro c hc
    cases hc
    rcases List.mem_pair.mp hclose with rfl | rfl <;> decide
  have hskip : skip (close :: r) = close :: r :=
    List.dropWhile_cons_of_neg (by rcases List.mem_pair.mp hclose with rfl | rfl <;> decide)
  have hcomma : close ≠ ',' := by rcases List.mem_pair.mp hclose with rfl | rfl <;> decide
  induction xs generalizing x n with
  | nil =>
    obtain ⟨n, rfl⟩ := Nat.exists_eq_succ_of_ne_zero (Nat.ne_zero_of_lt hn)
    have hx := hread x List.mem_cons_self (close :: r) hends
    show scanItems item close (n + 1) (text x ++ close :: r) = _
    simp only [scanItems, hx, Option.bind_eq_bind, Option.bind_some, hskip, if_neg hcomma, if_true]
  | cons y ys ih =>
    obtain ⟨n, rfl⟩ := Nat.exists_eq_succ_of_ne_zero (Nat.ne_zero_of_lt hn)
    have hrest := ih (fun z hz => hbegins z (List.mem_cons_of_mem _ hz))
      (fun z hz => hread z (List.mem_cons_of_mem _ hz)) (Nat.le_of_succ_le_succ hn)
    obtain ⟨rest, hsplit, -⟩ := commaSep_cons (text y) (ys.map text) close r
    have hy : commaSep ((y :: ys).map text) ++ close :: r = text y ++ rest := hsplit
    have htext : commaSep ((x :: y :: ys).map text) ++ close :: r =
        text x ++ ',' :: (commaSep ((y :: ys).map text) ++ close :: r) := by
      simp only [List.map_cons, commaSep, List.append_assoc, List.cons_append]
    have hx := hread x List.mem_cons_self
      (',' :: (commaSep ((y :: ys).map text) ++ close :: r)) (by rintro c ⟨⟩; decide)
    have hbefore : skip (',' :: (commaSep ((y :: ys).map text) ++ close :: r)) =
        ',' :: (commaSep ((y :: ys).map text) ++ close :: r) :=
      List.dropWhile_cons_of_neg (by decide)
    have hafter : skip (commaSep ((y :: ys).map text) ++ close :: r) =
        commaSep ((y :: ys).map text) ++ close :: r := by
      rw [hy]
      exact skip_append (hbegins y (List.mem_cons_of_mem _ List.mem_cons_self)) rest
    rw [htext]
    simp only [scanItems, hx, Option.bind_eq_bind, Option.bind_some, hbefore, if_true, hafter,
      hrest]

/-- **What stands between two brackets is read back.** -/
lemma scanList_commaSep (hclose : close ∈ [']', '}']) {xs : List α}
    (hbegins : ∀ y ∈ xs, BeginsItem (text y))
    (hread : ∀ y ∈ xs, ∀ r, EndsNumeral r → item (text y ++ r) = some (y, r))
    {n : ℕ} (hn : xs.length ≤ n) (r : List Char) :
    scanList item close n (commaSep (xs.map text) ++ close :: r) = some (xs, r) := by
  cases xs with
  | nil =>
    have hskip : skip (close :: r) = close :: r :=
      List.dropWhile_cons_of_neg (by rcases List.mem_pair.mp hclose with rfl | rfl <;> decide)
    show scanList item close n (close :: r) = _
    simp only [scanList, hskip, if_true]
  | cons x xs =>
    obtain ⟨rest, hsplit, -⟩ := commaSep_cons (text x) (xs.map text) close r
    obtain ⟨c, cs, hx, hspace, hne⟩ := hbegins x List.mem_cons_self
    have hitems := scanItems_commaSep hclose hbegins hread hn r
    have htext : commaSep ((x :: xs).map text) ++ close :: r = c :: (cs ++ rest) :=
      hsplit.trans (by rw [hx]; rfl)
    have hskip : skip (c :: (cs ++ rest)) = c :: (cs ++ rest) :=
      List.dropWhile_cons_of_neg (by rw [hspace]; decide)
    have hopen : c ≠ close := by
      rcases List.mem_pair.mp hclose with rfl | rfl
      · exact hne.1
      · exact hne.2
    rw [htext] at hitems ⊢
    simp only [scanList, hskip, if_neg hopen, hitems]

end Lists

section Written

variable {literal : String → List Char} {text : Json ν → List Char}
  (hliteral : LiteralReadable literal) (hwrites : WritesValues number literal text)

omit [PyNumber ν] in
include hliteral in
/-- A member is read back when its value is. -/
lemma scanMember_memberWritten {value : List Char → Option (Json ν × List Char)}
    {p : String × Json ν} (hbegins : BeginsItem (text p.2)) {r : List Char}
    (hvalue : value (text p.2 ++ r) = some (p.2, r)) :
    scanMember value (memberWritten literal text p ++ r) = some (p, r) := by
  obtain ⟨body, hbody, hread⟩ := hliteral p.1
  have htext : memberWritten literal text p ++ r = '"' :: (body ++ ':' :: (text p.2 ++ r)) := by
    simp only [memberWritten, hbody, List.cons_append, List.append_assoc]
  have hcolon : skip (':' :: (text p.2 ++ r)) = ':' :: (text p.2 ++ r) :=
    List.dropWhile_cons_of_neg (by decide)
  rw [htext]
  simp only [scanMember, if_true, hread, Option.bind_eq_bind, Option.bind_some, hcolon,
    skip_append hbegins, hvalue]

include hliteral in
omit [PyNumber ν] in
/-- The text of a member begins an item. -/
lemma beginsItem_memberWritten (p : String × Json ν) :
    BeginsItem (memberWritten literal text p) := by
  obtain ⟨body, hbody, -⟩ := hliteral p.1
  refine ⟨'"', body ++ ':' :: text p.2, ?_, by decide⟩
  rw [memberWritten, hbody, List.cons_append]

include hliteral hwrites in
/-- Fuel for a text is not zero. -/
lemma exists_fuel {v : Json ν} (hv : v.EveryNumber (NumberReadable float number)) {n : ℕ}
    (hn : (text v).length ≤ n) : ∃ m, n = m + 1 := by
  obtain ⟨c, cs, htext, -⟩ := beginsItem_text hliteral hwrites hv
  rw [htext, List.length_cons] at hn
  exact Nat.exists_eq_succ_of_ne_zero (by omega)

include hliteral hwrites in
/-- **A text is read back** from the front of a text that does not go on with a numeral.

**Proof sketch.** Induction on the value. The first character tells the scanner its kind. -/
theorem scanValue_text (v : Json ν) (hv : v.EveryNumber (NumberReadable float number))
    {n : ℕ} (hn : (text v).length ≤ n) {r : List Char} (hr : EndsNumeral r) :
    scanValue float n (text v ++ r) = some (v, r) := by
  induction v using induction generalizing n r with
  | null =>
    obtain ⟨n, rfl⟩ := exists_fuel hliteral hwrites hv hn
    rw [hwrites.null]
    rfl
  | bool b =>
    obtain ⟨n, rfl⟩ := exists_fuel hliteral hwrites hv hn
    cases b with
    | true => rw [hwrites.true]; rfl
    | false => rw [hwrites.false]; rfl
  | num m =>
    obtain ⟨n, rfl⟩ := exists_fuel hliteral hwrites hv hn
    have hread : scanNumber float (number m).toList = some (m, []) := hv
    obtain ⟨c, cs, htext, hc⟩ := exists_head_of_scanNumber hread
    have hnumber := scanNumber_append hr hread
    have hne : c ≠ '"' ∧ c ≠ '{' ∧ c ≠ '[' ∧ c ≠ 'n' ∧ c ≠ 't' ∧ c ≠ 'f' := by
      rcases hc with rfl | hdigit
      · decide
      · refine ⟨?_, ?_, ?_, ?_, ?_, ?_⟩ <;>
        · rintro rfl
          cases hdigit
    obtain ⟨hquote, hbrace, hbracket, hn, ht, hf⟩ := hne
    rw [hwrites.num]
    rw [htext, List.cons_append] at hnumber ⊢
    simp only [scanValue, if_neg hquote, if_neg hbrace, if_neg hbracket, if_neg hn, if_neg ht,
      if_neg hf, hnumber, Option.map_some, List.nil_append]
  | str s =>
    obtain ⟨n, rfl⟩ := exists_fuel hliteral hwrites hv hn
    obtain ⟨body, hbody, hread⟩ := hliteral s
    rw [hwrites.str, hbody, List.cons_append]
    simp only [scanValue, if_true, hread r, Option.map_some]
  | arr xs ih =>
    obtain ⟨n, rfl⟩ := exists_fuel hliteral hwrites hv hn
    have hxs : ∀ x ∈ xs, x.EveryNumber (NumberReadable float number) := everyNumber_arr.mp hv
    have hbegins : ∀ x ∈ xs, BeginsItem (text x) := fun x hx =>
      beginsItem_text hliteral hwrites (hxs x hx)
    have htext : text (arr xs) ++ r = '[' :: (commaSep (xs.map text) ++ ']' :: r) := by
      simp only [hwrites.arr, List.cons_append, List.append_assoc, List.nil_append]
    have hbody : (commaSep (xs.map text)).length ≤ n := by
      simp only [hwrites.arr, List.length_cons, List.length_append] at hn
      omega
    have hnonempty : ∀ t ∈ xs.map text, t ≠ [] := by
      rintro t ht rfl
      obtain ⟨x, hx, hempty⟩ := List.mem_map.mp ht
      obtain ⟨c, cs, hcons, -⟩ := hbegins x hx
      rw [hempty] at hcons
      cases hcons
    obtain ⟨hcount, hlength⟩ := length_le_commaSep hnonempty
    rw [List.length_map] at hcount
    have hitems : scanList (scanValue float n) ']' n (commaSep (xs.map text) ++ ']' :: r) =
        some (xs, r) :=
      scanList_commaSep (by decide) hbegins (fun x hx r hr => ih x hx (hxs x hx)
        ((hlength _ (List.mem_map_of_mem hx)).trans hbody) hr) (hcount.trans hbody) r
    rw [htext]
    simp only [scanValue, if_false, if_true, hitems, Option.map_some, Char.reduceEq]
  | obj kvs ih =>
    obtain ⟨n, rfl⟩ := exists_fuel hliteral hwrites hv hn
    have hkvs : ∀ p ∈ kvs, p.2.EveryNumber (NumberReadable float number) :=
      everyNumber_obj.mp hv
    have hbegins : ∀ p ∈ kvs, BeginsItem (memberWritten literal text p) := fun p _ =>
      beginsItem_memberWritten hliteral p
    have htext : text (obj kvs) ++ r =
        '{' :: (commaSep (kvs.map (memberWritten literal text)) ++ '}' :: r) := by
      simp only [hwrites.obj, List.cons_append, List.append_assoc, List.nil_append]
    have hbody : (commaSep (kvs.map (memberWritten literal text))).length ≤ n := by
      simp only [hwrites.obj, List.length_cons, List.length_append] at hn
      omega
    have hnonempty : ∀ t ∈ kvs.map (memberWritten literal text), t ≠ [] := by
      rintro t ht rfl
      obtain ⟨p, hp, hempty⟩ := List.mem_map.mp ht
      obtain ⟨c, cs, hcons, -⟩ := hbegins p hp
      rw [hempty] at hcons
      cases hcons
    obtain ⟨hcount, hlength⟩ := length_le_commaSep hnonempty
    rw [List.length_map] at hcount
    have hvalue : ∀ p ∈ kvs, (text p.2).length ≤ n := fun p hp => by
      have hmember := (hlength _ (List.mem_map_of_mem hp)).trans hbody
      simp only [memberWritten, List.length_append, List.length_cons] at hmember
      omega
    have hitems : scanList (scanMember (scanValue float n)) '}' n
        (commaSep (kvs.map (memberWritten literal text)) ++ '}' :: r) = some (kvs, r) :=
      scanList_commaSep (by decide) hbegins (fun p hp r hr => scanMember_memberWritten hliteral
        (beginsItem_text hliteral hwrites (hkvs p hp)) (ih p hp (hkvs p hp) (hvalue p hp) hr))
        (hcount.trans hbody) r
    rw [htext]
    simp only [scanValue, if_false, if_true, hitems, Option.map_some, Char.reduceEq]

include hliteral hwrites in
/-- A whole text is read back, also when white space follows it. -/
lemma loads_text {v : Json ν} (hv : v.EveryNumber (NumberReadable float number))
    {space : List Char} (hspace : ∀ c ∈ space, isSpace c = true) :
    loads float (text v ++ space) = some v := by
  have hskip : skip space = [] := List.dropWhile_eq_nil_iff.mpr hspace
  have hends : EndsNumeral space := by
    intro c hc
    have hmem := hspace c (List.mem_of_mem_head? hc)
    simp only [isSpace, Bool.or_eq_true, decide_eq_true_eq] at hmem
    rcases hmem with ((rfl | rfl) | rfl) | rfl <;> decide
  have hread : scanValue float (text v ++ space).length (text v ++ space) = some (v, space) :=
    scanValue_text hliteral hwrites v hv (by rw [List.length_append]; omega) hends
  unfold loads
  rw [skip_append (beginsItem_text hliteral hwrites hv), hread]
  simp only [Option.bind_eq_bind, Option.bind_some, hskip, List.isEmpty_nil, if_true]

end Written

omit [PyNumber ν] in
lemma asciiTexts_eq (number : ν → String) (xs : List (Json ν)) :
    asciiTexts number xs = xs.map (asciiText number) := by
  induction xs with
  | nil => rfl
  | cons x xs ih => rw [asciiTexts, ih, List.map_cons]

omit [PyNumber ν] in
lemma asciiMembers_eq (number : ν → String) (kvs : List (String × Json ν)) :
    asciiMembers number kvs = kvs.map (memberWritten asciiQuote (asciiText number)) := by
  induction kvs with
  | nil => rfl
  | cons p kvs ih => rw [asciiMembers, ih, List.map_cons]; rfl

omit [PyNumber ν] in
/-- Texts in ASCII are written in this way. -/
lemma writesValues_asciiText (number : ν → String) :
    WritesValues number asciiQuote (asciiText number) where
  null := rfl
  true := rfl
  false := rfl
  num _ := rfl
  str _ := rfl
  arr xs := by rw [asciiText, asciiTexts_eq]
  obj kvs := by rw [asciiText, asciiMembers_eq]

omit [PyNumber ν] in
/-- Plain texts are written in this way. -/
lemma writesValues_plainText (number : ν → String) :
    WritesValues number quote (plainText number) where
  null := rfl
  true := rfl
  false := rfl
  num _ := rfl
  str _ := rfl
  arr xs := by rw [plainText, plainTexts_eq]
  obj kvs := by rw [plainText, plainMembers_eq]; rfl

omit [PyNumber ν] in
/-- A property of all numbers does not depend on the order of members. -/
lemma EveryNumber.sortBy {P : ν → Prop} {v : Json ν} (h : v.EveryNumber P) :
    (v.sortBy (· ≤ ·)).EveryNumber P := by
  induction v using induction with
  | null | bool | num | str => exact h
  | arr xs ih =>
    have hxs := everyNumber_arr.mp h
    show EveryNumber P (Json.arr (sortAllBy _ xs))
    rw [sortAllBy_eq, everyNumber_arr]
    intro y hy
    obtain ⟨x, hx, rfl⟩ := List.mem_map.mp hy
    exact ih x hx (hxs x hx)
  | obj kvs ih =>
    have hkvs := everyNumber_obj.mp h
    show EveryNumber P (Json.obj (sortByKey _ (sortMembersBy _ kvs)))
    rw [everyNumber_obj]
    intro q hq
    have hmem : q ∈ sortMembersBy (· ≤ ·) kvs :=
      (List.perm_insertionSort _ _).mem_iff.mp hq
    rw [sortMembersBy_eq] at hmem
    obtain ⟨p, hp, rfl⟩ := List.mem_map.mp hmem
    exact ih p hp (hkvs p hp)

/-- **A text that has been written is read back**, with its members sorted. -/
theorem loads_text_sorted {v : Json ν} (hv : v.EveryNumber (NumberReadable float number)) :
    loads float (text number v) = some (v.sortBy (· ≤ ·)) := by
  have hread : loads float (text number v ++ []) = some (v.sortBy (· ≤ ·)) :=
    loads_text literalReadable_asciiQuote (writesValues_asciiText number) hv.sortBy nofun
  rwa [List.append_nil] at hread

/-- **A canonical text is read back**, with its members sorted, also when white space follows it. -/
theorem loads_canonicalText {v : Json ν} (hv : v.EveryNumber (NumberReadable float number))
    {space : List Char} (hspace : ∀ c ∈ space, isSpace c = true) :
    loads float (v.canonicalText number ++ space) = some (v.sortBy (· ≤ ·)) := by
  rw [canonicalText_eq]
  exact loads_text literalReadable_quote (writesValues_plainText number) hv.sortBy hspace

end Values

/-! ## Reading does not depend on the order of members -/

/-- The value of a key in an object. -/
def member? (v : Json ν) (key : String) : Option (Json ν) := v.dict?.bind fun d => d.get? key

/-- The canonical text of an object does not depend on the order of its members. -/
lemma canonicalText_obj_of_perm (number : ν → String) {kvs ls : List (String × Json ν)}
    (h : kvs.Perm ls) (hkeys : (kvs.map Prod.fst).Nodup) :
    canonicalText number (obj kvs) = canonicalText number (obj ls) := by
  have hsorted : (sortMembersBy (· ≤ ·) kvs).Perm (sortMembersBy (· ≤ ·) ls) := by
    rw [sortMembersBy_eq, sortMembersBy_eq]
    exact h.map _
  have hnodup : ((sortMembersBy (· ≤ ·) kvs).map Prod.fst).Nodup := by
    rw [sortMembersBy_eq, List.map_map]
    exact hkeys
  rw [canonicalText_eq, canonicalText_eq]
  show plainText number (obj (sortByKey _ (sortMembersBy _ kvs))) =
    plainText number (obj (sortByKey _ (sortMembersBy _ ls)))
  rw [sortByKey_eq_of_perm hsorted hnodup]

/-- The members of an object in document order. -/
def members : Json ν → List (String × Json ν)
  | obj kvs => kvs
  | _ => []

/-- The members of an object without repeated keys are those of its list. -/
lemma member?_eq {v : Json ν} (hkeys : (v.members.map Prod.fst).Nodup) (key : String) :
    v.member? key = Dict.lookup key v.members := by
  cases v with
  | obj kvs =>
    have hentries : (Dict.ofList kvs).entries = kvs := Dict.entries_ofList hkeys
    show Dict.lookup key (Dict.ofList kvs).entries = Dict.lookup key kvs
    rw [hentries]
  | null | bool | num | str | arr => rfl

/-- An object without repeated keys has as many members as its list. -/
lemma size_eq {kvs : List (String × Json ν)} (hkeys : (kvs.map Prod.fst).Nodup) :
    (obj kvs).dict?.map Dict.size = some kvs.length := by
  show some (Dict.ofList kvs).entries.length = _
  rw [Dict.entries_ofList hkeys]

section Sorted

variable {r : String → String → Prop} [DecidableRel r]

/-- A sorted object has as many members. -/
lemma size_sortBy {v : Json ν} (hkeys : v.DistinctKeys) :
    (v.sortBy r).dict?.map Dict.size = v.dict?.map Dict.size := by
  cases v with
  | obj kvs =>
    have hnodup : (kvs.map Prod.fst).Nodup := (everyObject_obj.mp hkeys).1
    have hperm : (sortByKey r (sortMembersBy r kvs)).Perm (sortMembersBy r kvs) :=
      List.perm_insertionSort _ _
    have hsorted : ((sortByKey r (sortMembersBy r kvs)).map Prod.fst).Nodup := by
      refine (hperm.map Prod.fst).nodup_iff.mpr ?_
      rw [sortMembersBy_eq, List.map_map]
      exact hnodup
    show (obj (sortByKey r (sortMembersBy r kvs))).dict?.map Dict.size = _
    rw [size_eq hsorted, size_eq hnodup, hperm.length_eq, sortMembersBy_eq, List.length_map]
  | null | bool | num | str | arr => rfl

/-- The members of a sorted object are the sorted members. -/
lemma get?_ofList_sortByKey {kvs : List (String × Json ν)} (hkeys : (kvs.map Prod.fst).Nodup)
    (key : String) : (Dict.ofList (sortByKey r (sortMembersBy r kvs))).get? key =
      ((Dict.ofList kvs).get? key).map (sortBy r) := by
  have hperm : (sortByKey r (sortMembersBy r kvs)).Perm (kvs.map fun p => (p.1, sortBy r p.2)) := by
    have hsorted := List.perm_insertionSort (fun p q => r p.1 q.1) (sortMembersBy r kvs)
    rw [sortMembersBy_eq] at hsorted ⊢
    exact hsorted
  have hnodup : ((sortByKey r (sortMembersBy r kvs)).map Prod.fst).Nodup := by
    refine (hperm.map Prod.fst).nodup_iff.mpr ?_
    rw [List.map_map]
    exact hkeys
  refine Option.ext fun w => ?_
  rw [Dict.get?_eq_some_iff, Dict.entries_ofList hnodup, hperm.mem_iff, List.mem_map,
    Option.map_eq_some_iff]
  constructor
  · rintro ⟨p, hp, heq⟩
    obtain ⟨rfl, rfl⟩ := Prod.mk.inj heq
    exact ⟨p.2, Dict.get?_eq_some_iff.mpr (by rw [Dict.entries_ofList hkeys]; exact hp), rfl⟩
  · rintro ⟨v, hv, rfl⟩
    rw [Dict.get?_eq_some_iff, Dict.entries_ofList hkeys] at hv
    exact ⟨(key, v), hv, rfl⟩

/-- **The members of a sorted object** are the sorted members. -/
lemma member?_sortBy {v : Json ν} (hkeys : (v.members.map Prod.fst).Nodup) (key : String) :
    (v.sortBy r).member? key = (v.member? key).map (sortBy r) := by
  cases v with
  | obj kvs => exact get?_ofList_sortByKey hkeys key
  | null | bool | num | str | arr => rfl

/-- A value without repeated keys has no key twice. -/
lemma DistinctKeys.nodup {v : Json ν} (hkeys : v.DistinctKeys) :
    (v.members.map Prod.fst).Nodup := by
  cases v with
  | obj kvs => exact (everyObject_obj.mp hkeys).1
  | null | bool | num | str | arr => exact List.nodup_nil

/-- A member of an object without repeated keys has no repeated keys. -/
lemma DistinctKeys.member? {v w : Json ν} {key : String} (hkeys : v.DistinctKeys)
    (h : v.member? key = some w) : w.DistinctKeys := by
  cases v with
  | obj kvs =>
    obtain ⟨hnodup, hmembers⟩ := everyObject_obj.mp hkeys
    have hmem : (key, w) ∈ (Dict.ofList kvs).entries := Dict.get?_eq_some_iff.mp h
    rw [Dict.entries_ofList hnodup] at hmem
    exact hmembers _ hmem
  | null | bool | num | str | arr => cases h

/-- A sorted string is that string. -/
@[simp] lemma str?_sortBy (v : Json ν) : (v.sortBy r).str? = v.str? := by
  cases v <;> rfl

/-- A sorted number is that number. -/
@[simp] lemma int?_sortBy [PyNumber ν] (v : Json ν) : (v.sortBy r).int? = v.int? := by
  cases v <;> rfl

/-- The elements of a sorted array are the sorted elements. -/
lemma arr?_sortBy (v : Json ν) : (v.sortBy r).arr? = v.arr?.map fun xs => xs.map (sortBy r) := by
  cases v with
  | arr xs =>
    show some (sortAllBy r xs) = _
    rw [sortAllBy_eq]
    rfl
  | null | bool | num | str | obj => rfl

end Sorted

/-- **A sorted value is the value**, up to the order of members. -/
lemma sameUpToKeyOrder_sortBy (r : String → String → Prop) [DecidableRel r] (v : Json ν) :
    v.SameUpToKeyOrder (v.sortBy r) := by
  induction v using induction with
  | null => exact .null
  | bool b => exact .bool b
  | num n => exact .num n
  | str s => exact .str s
  | arr xs ih =>
    show SameUpToKeyOrder (arr xs) (arr (sortAllBy r xs))
    rw [sortAllBy_eq]
    exact .arr (List.forall₂_map_right_iff.mpr (List.forall₂_same.mpr ih))
  | obj kvs ih =>
    have hperm : (kvs.map fun p => (p.1, sortBy r p.2)).Perm
        (sortByKey r (sortMembersBy r kvs)) := by
      have hsorted := (List.perm_insertionSort (fun p q => r p.1 q.1) (sortMembersBy r kvs)).symm
      rw [sortMembersBy_eq] at hsorted ⊢
      exact hsorted
    refine .obj hperm ?_ ?_
    · rw [List.map_map]
      rfl
    · refine List.forall₂_map_left_iff.mpr ?_
      rw [List.map_map]
      exact List.forall₂_map_right_iff.mpr (List.forall₂_same.mpr ih)

/-- Elements that are read back one by one. -/
lemma mapM_map_eq {α β : Type} {f : β → Option α} {g : α → β} (h : ∀ x, f (g x) = some x)
    (xs : List α) : (xs.map g).mapM f = some xs := by
  induction xs with
  | nil => rfl
  | cons x xs ih => simp only [List.map_cons, List.mapM_cons, h, ih, Option.bind_eq_bind,
      Option.bind_some, Option.pure_def]

end Json
