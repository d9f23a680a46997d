import Mathlib.Data.List.Basic

set_option relaxedAutoImplicit false
set_option autoImplicit false

/-!
# SHA-256 and HMAC

The secure hash function of FIPS 180-4 on byte lists, with its digest in lower-case hexadecimal,
and the keyed digest built from it. Words are natural numbers below `2 ^ 32`.

## Main definitions

* `Sha256.hexDigest` — the digest of a message.
* `Sha256.hmacHexDigest` — the keyed digest of a message.

## Main results

* `Sha256.length_hexDigest` — a digest has 64 hexadecimal digits.
-/

namespace Sha256

/-! ## Words -/

/-- Reduce to 32 bits. -/
def word (n : ℕ) : ℕ := Nat.mod n 4294967296

/-- Rotate right. -/
def rotr (n x : ℕ) : ℕ := Nat.lor (Nat.shiftRight x n) (word (Nat.shiftLeft x (32 - n)))

/-- The exclusive or of three words. -/
def xor3 (x y z : ℕ) : ℕ := Nat.xor x (Nat.xor y z)

/-- `Ch` -/
def choose (x y z : ℕ) : ℕ := Nat.xor z (Nat.land x (Nat.xor y z))

/-- `Maj` -/
def majority (x y z : ℕ) : ℕ := Nat.lor (Nat.land x y) (Nat.land z (Nat.lor x y))

/-- `Σ₀` -/
def bigSigma0 (x : ℕ) : ℕ := xor3 (rotr 2 x) (rotr 13 x) (rotr 22 x)

/-- `Σ₁` -/
def bigSigma1 (x : ℕ) : ℕ := xor3 (rotr 6 x) (rotr 11 x) (rotr 25 x)

/-- `σ₀` -/
def smallSigma0 (x : ℕ) : ℕ := xor3 (rotr 7 x) (rotr 18 x) (Nat.shiftRight x 3)

/-- `σ₁` -/
def smallSigma1 (x : ℕ) : ℕ := xor3 (rotr 17 x) (rotr 19 x) (Nat.shiftRight x 10)

/-! ## Compression -/

/-- The eight working variables. -/
structure State where
  (a b c d e f g h : ℕ)

/-- The initial hash value. -/
def initial : State :=
  ⟨0x6a09e667, 0xbb67ae85, 0x3c6ef372, 0xa54ff53a, 0x510e527f, 0x9b05688c, 0x1f83d9ab, 0x5be0cd19⟩

/-- The round constants. -/
def roundConstants : List ℕ := [
  0x428a2f98, 0x71374491, 0xb5c0fbcf, 0xe9b5dba5, 0x3956c25b, 0x59f111f1, 0x923f82a4, 0xab1c5ed5,
  0xd807aa98, 0x12835b01, 0x243185be, 0x550c7dc3, 0x72be5d74, 0x80deb1fe, 0x9bdc06a7, 0xc19bf174,
  0xe49b69c1, 0xefbe4786, 0x0fc19dc6, 0x240ca1cc, 0x2de92c6f, 0x4a7484aa, 0x5cb0a9dc, 0x76f988da,
  0x983e5152, 0xa831c66d, 0xb00327c8, 0xbf597fc7, 0xc6e00bf3, 0xd5a79147, 0x06ca6351, 0x14292967,
  0x27b70a85, 0x2e1b2138, 0x4d2c6dfc, 0x53380d13, 0x650a7354, 0x766a0abb, 0x81c2c92e, 0x92722c85,
  0xa2bfe8a1, 0xa81a664b, 0xc24b8b70, 0xc76c51a3, 0xd192e819, 0xd6990624, 0xf40e3585, 0x106aa070,
  0x19a4c116, 0x1e376c08, 0x2748774c, 0x34b0bcb5, 0x391c0cb3, 0x4ed8aa4a, 0x5b9cca4f, 0x682e6ff3,
  0x748f82ee, 0x78a5636f, 0x84c87814, 0x8cc70208, 0x90befffa, 0xa4506ceb, 0xbef9a3f7, 0xc67178f2]

/-- The rounds for a list of constants; the schedule is a window of its next sixteen words. -/
def rounds : List ℕ → List ℕ → State → State
  | k :: ks, w0 :: w1 :: w2 :: w3 :: w4 :: w5 :: w6 :: w7 :: w8 :: w9 :: w10 :: w11 :: w12 :: w13 ::
      w14 :: w15 :: _, ⟨a, b, c, d, e, f, g, h⟩ =>
    let t₁ := Nat.add (Nat.add (Nat.add h (bigSigma1 e)) (Nat.add (choose e f g) k)) w0
    let t₂ := Nat.add (bigSigma0 a) (majority a b c)
    let w16 := word (Nat.add (Nat.add (smallSigma1 w14) w9) (Nat.add (smallSigma0 w1) w0))
    rounds ks [w1, w2, w3, w4, w5, w6, w7, w8, w9, w10, w11, w12, w13, w14, w15, w16]
      ⟨word (Nat.add t₁ t₂), a, b, c, word (Nat.add d t₁), e, f, g⟩
  | _, _, s => s

/-- Add two states word by word. -/
def State.add (s t : State) : State :=
  ⟨word (Nat.add s.a t.a), word (Nat.add s.b t.b), word (Nat.add s.c t.c), word (Nat.add s.d t.d),
    word (Nat.add s.e t.e), word (Nat.add s.f t.f), word (Nat.add s.g t.g), word (Nat.add s.h t.h)⟩

/-- Compress blocks of sixteen words. -/
def compress : ℕ → List ℕ → State → State
  | 0, _, s => s
  | n + 1, ws, s => compress n (ws.drop 16) (s.add (rounds roundConstants (ws.take 16) s))

/-! ## Messages -/

/-- The big-endian words of a message whose length is a multiple of four. -/
def words : List UInt8 → List ℕ
  | a :: b :: c :: d :: bs =>
    (a.toNat * 16777216 + b.toNat * 65536 + c.toNat * 256 + d.toNat) :: words bs
  | _ => []

/-- The `k` big-endian bytes of a number. -/
def bigEndian : ℕ → ℕ → List UInt8
  | 0, _ => []
  | k + 1, n => bigEndian k (n / 256) ++ [UInt8.ofNat n]

/-- The padded message: a one bit, zeros, and the length in bits. -/
def pad (m : List UInt8) : List UInt8 :=
  m ++ 0x80 :: (List.replicate ((119 - m.length % 64) % 64) 0 ++ bigEndian 8 (8 * m.length))

/-- The final state for a message. -/
def digest (m : List UInt8) : State :=
  let ws := words (pad m)
  compress (ws.length / 16) ws initial

/-- The words of a state. -/
def State.toList (s : State) : List ℕ := [s.a, s.b, s.c, s.d, s.e, s.f, s.g, s.h]

/-- The last `k` hexadecimal digits of a number. -/
def hexDigits : ℕ → ℕ → List Char
  | 0, _ => []
  | k + 1, n => hexDigits k (Nat.div n 16) ++ [Nat.digitChar (Nat.mod n 16)]

/-- `sha256(m).hexdigest()` -/
def hexDigest (m : List UInt8) : String :=
  String.ofList ((digest m).toList.flatMap (hexDigits 8))

/-- As many digits as asked for. -/
@[simp] lemma length_hexDigits (k n : ℕ) : (hexDigits k n).length = k := by
  induction k generalizing n with
  | zero => rfl
  | succ k ih => rw [hexDigits, List.length_append, ih, List.length_singleton]

/-- A digest has 64 hexadecimal digits. -/
lemma length_hexDigest (m : List UInt8) : (hexDigest m).toList.length = 64 := by
  unfold hexDigest State.toList
  rw [String.toList_ofList]
  simp only [List.flatMap_cons, List.flatMap_nil, List.length_append, length_hexDigits,
    List.length_nil]

/-- A digest is not empty. -/
lemma hexDigest_ne (m : List UInt8) : hexDigest m ≠ "" := by
  intro h
  have hlength := length_hexDigest m
  rw [h] at hlength
  cases hlength

/-- The digits are ASCII. -/
lemma toNat_lt_of_mem_hexDigits {k n : ℕ} {c : Char} (hc : c ∈ hexDigits k n) : c.toNat < 128 := by
  have hdigit : ∀ d < 16, (Nat.digitChar d).toNat < 128 := by decide
  induction k generalizing n with
  | zero => cases hc
  | succ k ih =>
    rcases List.mem_append.mp hc with hc | hc
    · exact ih hc
    · rw [List.mem_singleton.mp hc]
      exact hdigit _ (Nat.mod_lt n (by decide))

/-- A digest is ASCII. -/
lemma toNat_lt_of_mem_hexDigest {m : List UInt8} {c : Char} (hc : c ∈ (hexDigest m).toList) :
    c.toNat < 128 := by
  rw [hexDigest, String.toList_ofList] at hc
  obtain ⟨w, -, hc⟩ := List.mem_flatMap.mp hc
  exact toNat_lt_of_mem_hexDigits hc

/-- The bytes of a digest. -/
def bytes (m : List UInt8) : List UInt8 := (digest m).toList.flatMap (bigEndian 4)

/-! ## Keyed digests -/

/-- A key filled up to the block length, each byte combined with `pad`. -/
def keyBlock (key : List UInt8) (pad : UInt8) : List UInt8 :=
  let key := if key.length ≤ 64 then key else bytes key
  (key ++ List.replicate (64 - key.length) 0).map (· ^^^ pad)

/-- `hmac.new(key, m, sha256).hexdigest()` -/
def hmacHexDigest (key m : List UInt8) : String :=
  hexDigest (keyBlock key 0x5c ++ bytes (keyBlock key 0x36 ++ m))

-- The first test vector of the standard: the digest of "abc".
example : (digest [0x61, 0x62, 0x63]).toList = [0xba7816bf, 0x8f01cfea, 0x414140de, 0x5dae2223,
    0xb00361a3, 0x96177a9c, 0xb410ff61, 0xf20015ad] := by decide +kernel

end Sha256
