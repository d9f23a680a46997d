import SplitChain.Library.Raise
import SplitChain.Python.Json

set_option relaxedAutoImplicit false
set_option autoImplicit false

/-!
# Base64

`base64.b64encode` and `base64.b64decode` with `validate=True`. The decoder takes the characters of
the alphabet in groups of four, of which the last may be padded; it does not look at the bits that
the padding leaves over, and passes over padding after a last group that is complete, so a text is
not determined by its bytes.

## Main definitions

* `Base64.encode`, `Base64.decode` — the two directions.
* `Json.b64decode` — `base64.b64decode(value, validate=True)` of a decoded value.

## Main results

* `Base64.decode_encode` — what is encoded is decoded.
-/

namespace Base64

/-! ## The alphabet -/

/-- The character of six bits. -/
def digit (n : ℕ) : Char :=
  if n < 26 then Char.ofNat (65 + n)
  else if n < 52 then Char.ofNat (71 + n)
  else if n < 62 then Char.ofNat (n - 4)
  else if n = 62 then '+'
  else '/'

/-- The six bits of a character of the alphabet. -/
def value? (c : Char) : Option ℕ :=
  if 'A' ≤ c ∧ c ≤ 'Z' then some (c.toNat - 65)
  else if 'a' ≤ c ∧ c ≤ 'z' then some (c.toNat - 71)
  else if '0' ≤ c ∧ c ≤ '9' then some (c.toNat + 4)
  else if c = '+' then some 62
  else if c = '/' then some 63
  else none

/-- The character that fills up the last group. -/
def padding : Char := '='

/-- A character of the alphabet has its six bits. -/
lemma value?_digit {n : ℕ} (h : n < 64) : value? (digit n) = some n := by
  have hall : ∀ n < 64, value? (digit n) = some n := by decide
  exact hall n h

/-- Padding is not in the alphabet. -/
lemma value?_padding : value? padding = none := by decide

/-- Nothing in the alphabet is padding. -/
lemma digit_ne_padding {n : ℕ} (h : n < 64) : digit n ≠ padding := by
  intro heq
  have hvalue := value?_digit h
  rw [heq, value?_padding] at hvalue
  cases hvalue

/-! ## Encoding and decoding -/

/-- `base64.b64encode(data)` -/
def encode : List UInt8 → List Char
  | [] => []
  | [a] => [digit (a.toNat / 4), digit (a.toNat % 4 * 16), padding, padding]
  | [a, b] =>
    [digit (a.toNat / 4), digit (a.toNat % 4 * 16 + b.toNat / 16), digit (b.toNat % 16 * 4),
    padding]
  | a :: b :: c :: data =>
    digit (a.toNat / 4) :: digit (a.toNat % 4 * 16 + b.toNat / 16) ::
      digit (b.toNat % 16 * 4 + c.toNat / 64) :: digit (c.toNat % 64) :: encode data

/-- The first byte of a group. -/
def firstByte (u v : ℕ) : UInt8 := UInt8.ofNat (u * 4 + v / 16)

/-- The second byte of a group. -/
def secondByte (v w : ℕ) : UInt8 := UInt8.ofNat (v % 16 * 16 + w / 4)

/-- The third byte of a group. -/
def thirdByte (w x : ℕ) : UInt8 := UInt8.ofNat (w % 4 * 64 + x)

/-- `binascii.a2b_base64(text, strict_mode=True)` -/
def decode : List Char → Option (List UInt8)
  | [] => some []
  | a :: b :: c :: d :: rest => do
    let u ← value? a
    let v ← value? b
    if c = padding then
      if d = padding ∧ rest = [] then some [firstByte u v] else none
    else
      let w ← value? c
      if d = padding then
        if rest = [] then some [firstByte u v, secondByte v w] else none
      else
        let x ← value? d
        let data ← (if rest.all (· = padding) then some [] else decode rest)
        some (firstByte u v :: secondByte v w :: thirdByte w x :: data)
  | _ => none

/-! ## What is encoded is decoded -/

/-- The first byte comes back. -/
lemma firstByte_eq (a : UInt8) {n : ℕ} (h : n < 16) :
    firstByte (a.toNat / 4) (a.toNat % 4 * 16 + n) = a := by
  have hsum : a.toNat / 4 * 4 + (a.toNat % 4 * 16 + n) / 16 = a.toNat := by omega
  rw [firstByte, hsum, UInt8.ofNat_toNat]

/-- The second byte comes back. -/
lemma secondByte_eq (a b : UInt8) {n : ℕ} (h : n < 4) :
    secondByte (a.toNat % 4 * 16 + b.toNat / 16) (b.toNat % 16 * 4 + n) = b := by
  have hb := b.toNat_lt
  have hsum : (a.toNat % 4 * 16 + b.toNat / 16) % 16 * 16 + (b.toNat % 16 * 4 + n) / 4 =
      b.toNat := by omega
  rw [secondByte, hsum, UInt8.ofNat_toNat]

/-- The third byte comes back. -/
lemma thirdByte_eq (b c : UInt8) :
    thirdByte (b.toNat % 16 * 4 + c.toNat / 64) (c.toNat % 64) = c := by
  have hc := c.toNat_lt
  have hsum : (b.toNat % 16 * 4 + c.toNat / 64) % 4 * 64 + c.toNat % 64 = c.toNat := by omega
  rw [thirdByte, hsum, UInt8.ofNat_toNat]

/-- What is encoded is not padding alone. -/
lemma all_padding_encode {data : List UInt8} (h : (encode data).all (· = padding) = true) :
    data = [] := by
  have hfirst : ∀ (a : UInt8) rest, encode data = digit (a.toNat / 4) :: rest → False := by
    intro a rest hencode
    have ha := a.toNat_lt
    rw [hencode, List.all_cons, Bool.and_eq_true, decide_eq_true_iff] at h
    exact digit_ne_padding (by omega) h.1
  match data with
  | [] => rfl
  | [a] => exact (hfirst a _ rfl).elim
  | [a, b] => exact (hfirst a _ rfl).elim
  | a :: b :: c :: data => exact (hfirst a _ rfl).elim

/-- **What is encoded is decoded.**

**Proof sketch.** Induction along the groups of three bytes. The six bits of every character are
those that the encoder took, and put together again they are the bytes. -/
theorem decode_encode (data : List UInt8) : decode (encode data) = some data := by
  induction data using encode.induct with
  | case1 => rfl
  | case2 a =>
    have ha := a.toNat_lt
    have hfirst := firstByte_eq a (n := 0) (by decide)
    rw [Nat.add_zero] at hfirst
    simp only [encode, decode, value?_digit (show a.toNat / 4 < 64 by omega),
      value?_digit (show a.toNat % 4 * 16 < 64 by omega), Option.bind_eq_bind, Option.bind_some,
      and_self, if_true, hfirst]
  | case3 a b =>
    have ha := a.toNat_lt
    have hb := b.toNat_lt
    have hthird : b.toNat % 16 * 4 < 64 := by omega
    have hfirst := firstByte_eq a (show b.toNat / 16 < 16 by omega)
    have hsecond := secondByte_eq a b (n := 0) (by decide)
    rw [Nat.add_zero] at hsecond
    simp only [encode, decode, value?_digit (show a.toNat / 4 < 64 by omega),
      value?_digit (show a.toNat % 4 * 16 + b.toNat / 16 < 64 by omega), value?_digit hthird,
      if_neg (digit_ne_padding hthird), Option.bind_eq_bind, Option.bind_some, if_true, hfirst,
      hsecond]
  | case4 a b c data ih =>
    have ha := a.toNat_lt
    have hb := b.toNat_lt
    have hc := c.toNat_lt
    have hthird : b.toNat % 16 * 4 + c.toNat / 64 < 64 := by omega
    have hfourth : c.toNat % 64 < 64 := by omega
    have hfirst := firstByte_eq a (show b.toNat / 16 < 16 by omega)
    have hsecond := secondByte_eq a b (show c.toNat / 64 < 4 by omega)
    have hrest : (if (encode data).all (· = padding) then some [] else decode (encode data)) =
        some data := by
      split_ifs with hpadding
      · rw [all_padding_encode hpadding]
      · exact ih
    simp only [encode, decode, value?_digit (show a.toNat / 4 < 64 by omega),
      value?_digit (show a.toNat % 4 * 16 + b.toNat / 16 < 64 by omega), value?_digit hthird,
      value?_digit hfourth, if_neg (digit_ne_padding hthird), if_neg (digit_ne_padding hfourth),
      Option.bind_eq_bind, Option.bind_some, hrest, hfirst, hsecond, thirdByte_eq]

end Base64

/-- `base64.b64decode(value, validate=True)`; a text outside ASCII and one that is no base64 raise
the same exception. -/
def Json.b64decode {ν : Type} (v : Json ν) : Except PyError (List UInt8) :=
  match v with
  | .str s => Raise.orRaise (Base64.decode s.toList) (.value "")
  | _ => .error .type
