import Mathlib.Data.List.Lex
import Mathlib.Data.String.Basic

set_option relaxedAutoImplicit false
set_option autoImplicit false

/-!
# UTF-16

Texts as sequences of 16-bit code units: a character of the basic plane is its code point, any other
character is a high and a low surrogate. Texts are compared by their units in languages whose
strings are such sequences, and by their code points in others; the orders differ, because
surrogates are smaller than the last characters of the basic plane.

## Main definitions

* `Utf16.encode`, `Utf16.decode` — texts to units and back.
* `Utf16.Clash` — the texts that the two orders compare differently.

## Main results

* `Utf16.decode_encode` — encoding loses nothing.
* `Utf16.le_iff_encode_le_iff` — the orders agree exactly on texts that do not clash.
-/

namespace Utf16

/-! ## Units -/

/-- The code units of a character. -/
def units (c : Char) : List ℕ :=
  if c.toNat < 0x10000 then [c.toNat]
  else [0xD800 + (c.toNat - 0x10000) / 0x400, 0xDC00 + (c.toNat - 0x10000) % 0x400]

/-- The code units of a text. -/
def encode (cs : List Char) : List ℕ := cs.flatMap units

/-- Whether a unit is the first half of a character. -/
def IsHigh (u : ℕ) : Prop := 0xD800 ≤ u ∧ u < 0xDC00

/-- Whether a unit is the second half of a character. -/
def IsLow (u : ℕ) : Prop := 0xDC00 ≤ u ∧ u < 0xE000

instance (u : ℕ) : Decidable (IsHigh u) := inferInstanceAs (Decidable (_ ∧ _))

instance (u : ℕ) : Decidable (IsLow u) := inferInstanceAs (Decidable (_ ∧ _))

/-- The character of a unit that belongs to no pair. -/
def single (replacement : Char) (u : ℕ) : Char :=
  if IsHigh u ∨ IsLow u then replacement else Char.ofNat u

/-- The text of code units; a surrogate that belongs to no pair is replaced. -/
def decode (replacement : Char) : List ℕ → List Char
  | [] => []
  | [u] => [single replacement u]
  | u :: v :: us =>
    if IsHigh u ∧ IsLow v then
      Char.ofNat (0x10000 + (u - 0xD800) * 0x400 + (v - 0xDC00)) :: decode replacement us
    else single replacement u :: decode replacement (v :: us)

/-- A code point lies outside the surrogates. -/
lemma toNat_valid (c : Char) : c.toNat < 0xD800 ∨ 0xE000 ≤ c.toNat ∧ c.toNat < 0x110000 := by
  rcases c.valid with h | ⟨h, h'⟩
  · exact .inl h
  · exact .inr ⟨h, h'⟩

/-- The units of a character of the basic plane. -/
lemma units_of_lt {c : Char} (h : c.toNat < 0x10000) : units c = [c.toNat] := if_pos h

/-- The units of any other character. -/
lemma units_of_ge {c : Char} (h : 0x10000 ≤ c.toNat) : units c =
    [0xD800 + (c.toNat - 0x10000) / 0x400, 0xDC00 + (c.toNat - 0x10000) % 0x400] :=
  if_neg (by omega)

@[simp] lemma encode_nil : encode [] = [] := rfl

@[simp] lemma encode_cons (c : Char) (cs : List Char) : encode (c :: cs) = units c ++ encode cs :=
  List.flatMap_cons

@[simp] lemma encode_append (cs ds : List Char) : encode (cs ++ ds) = encode cs ++ encode ds :=
  List.flatMap_append

/-- The units of a character are read back. -/
lemma decode_units (replacement c : Char) (us : List ℕ) :
    decode replacement (units c ++ us) = c :: decode replacement us := by
  have hvalid := toNat_valid c
  by_cases h : c.toNat < 0x10000
  · have hhigh : ¬IsHigh c.toNat := fun hu => by unfold IsHigh at hu; omega
    have hlow : ¬IsLow c.toNat := fun hu => by unfold IsLow at hu; omega
    have hsingle : single replacement c.toNat = c := by
      unfold single
      rw [if_neg (not_or.mpr ⟨hhigh, hlow⟩), Char.ofNat_toNat]
    rw [units_of_lt h]
    cases us with
    | nil => simp only [List.append_nil, decode, hsingle]
    | cons v us =>
      show decode replacement (c.toNat :: v :: us) = _
      rw [decode, if_neg fun hu => hhigh hu.1, hsingle]
  · rw [units_of_ge (by omega)]
    show decode replacement (_ :: _ :: us) = _
    have hpair : IsHigh (0xD800 + (c.toNat - 0x10000) / 0x400) ∧
        IsLow (0xDC00 + (c.toNat - 0x10000) % 0x400) := by
      unfold IsHigh IsLow
      omega
    have hpoint : 0x10000 + (0xD800 + (c.toNat - 0x10000) / 0x400 - 0xD800) * 0x400 +
        (0xDC00 + (c.toNat - 0x10000) % 0x400 - 0xDC00) = c.toNat := by omega
    rw [decode, if_pos hpair, hpoint, Char.ofNat_toNat]

/-- **Encoding loses nothing.** -/
theorem decode_encode (replacement : Char) (cs : List Char) :
    decode replacement (encode cs) = cs := by
  induction cs with
  | nil => rfl
  | cons c cs ih => rw [encode_cons, decode_units, ih]

lemma encode_injective : Function.Injective encode := fun cs ds h => by
  rw [← decode_encode ' ' cs, h, decode_encode]

/-! ## Orders -/

/-- Whether the first characters in which two texts differ are one at the end of the basic plane and
one outside of it. -/
def Clash : List Char → List Char → Prop
  | c :: cs, d :: ds =>
    if c = d then Clash cs ds
    else (0xE000 ≤ c.toNat ∧ c.toNat < 0x10000 ∧ 0x10000 ≤ d.toNat) ∨
      (0xE000 ≤ d.toNat ∧ d.toNat < 0x10000 ∧ 0x10000 ≤ c.toNat)
  | _, _ => False

/-- The order of lists is decided by their first elements, or if these are equal by the rest. -/
lemma cons_le_cons_iff {α : Type} [LinearOrder α] {a b : α} {as bs : List α} :
    a :: as ≤ b :: bs ↔ a < b ∨ a = b ∧ as ≤ bs := by
  rw [← not_lt, List.cons_lt_cons_iff, ← not_lt (b := as)]
  rcases lt_trichotomy a b with h | rfl | h
  · exact iff_of_true (fun hba => hba.elim h.asymm fun hba => h.ne' hba.1) (.inl h)
  · simp
  · exact iff_of_false (fun hba => hba (.inl h)) fun hab => hab.elim h.asymm fun hab => h.ne' hab.1

/-- The orders of two texts with different first characters. -/
lemma cons_le_cons_iff_units {c d : Char} (hne : c ≠ d) (cs ds : List Char) (us vs : List ℕ) :
    (c :: cs ≤ d :: ds ↔ units c ++ us ≤ units d ++ vs) ↔
      ¬((0xE000 ≤ c.toNat ∧ c.toNat < 0x10000 ∧ 0x10000 ≤ d.toNat) ∨
        (0xE000 ≤ d.toNat ∧ d.toNat < 0x10000 ∧ 0x10000 ≤ c.toNat)) := by
  have hpoints : c :: cs ≤ d :: ds ↔ c.toNat < d.toNat := by
    rw [cons_le_cons_iff]
    exact ⟨fun h => h.resolve_right fun h => hne h.1, .inl⟩
  have hcd : c.toNat ≠ d.toNat := fun h => hne (Char.toNat_inj.mp h)
  have hc := toNat_valid c
  have hd := toNat_valid d
  rw [hpoints]
  rcases Nat.lt_or_ge c.toNat 0x10000 with hcb | hcb <;>
    rcases Nat.lt_or_ge d.toNat 0x10000 with hdb | hdb
  · rw [units_of_lt hcb, units_of_lt hdb, List.singleton_append, List.singleton_append,
      cons_le_cons_iff]
    omega
  · rw [units_of_lt hcb, units_of_ge hdb, List.singleton_append, List.cons_append,
      cons_le_cons_iff]
    omega
  · rw [units_of_ge hcb, units_of_lt hdb, List.singleton_append, List.cons_append,
      cons_le_cons_iff]
    omega
  · rw [units_of_ge hcb, units_of_ge hdb, List.cons_append, List.cons_append, List.cons_append,
      List.cons_append, cons_le_cons_iff, cons_le_cons_iff]
    omega

/-- Texts behind a common front are in the order of the texts. -/
lemma append_le_append_iff (ts us vs : List ℕ) : ts ++ us ≤ ts ++ vs ↔ us ≤ vs := by
  induction ts with
  | nil => rfl
  | cons t ts ih => simpa [cons_le_cons_iff] using ih

/-- **The orders agree** exactly on texts that do not clash.

**Proof sketch.** Induction on the texts. Common characters have common units. Of two different
characters, the orders are decided by their first units, or by their second units if the first ones
are equal. -/
theorem le_iff_encode_le_iff (cs ds : List Char) :
    (cs ≤ ds ↔ encode cs ≤ encode ds) ↔ ¬Clash cs ds := by
  induction cs generalizing ds with
  | nil =>
    have hle : ∀ {α : Type} [LinearOrder α] (l : List α), [] ≤ l := fun l =>
      not_lt.mp (List.not_lt_nil l)
    exact iff_of_true (iff_of_true (hle ds) (hle _)) (by simp [Clash])
  | cons c cs ih =>
    cases ds with
    | nil =>
      have hlt : [] < encode (c :: cs) := by
        rw [encode_cons]
        unfold units
        split_ifs <;> exact List.nil_lt_cons _ _
      exact iff_of_true (iff_of_false (not_le.mpr (List.nil_lt_cons _ _)) (not_le.mpr hlt))
        (by simp [Clash])
    | cons d ds =>
      unfold Clash
      split_ifs with hcd
      · subst hcd
        rw [encode_cons, encode_cons, append_le_append_iff, ← ih ds, cons_le_cons_iff]
        simp
      · rw [encode_cons, encode_cons]
        exact cons_le_cons_iff_units hcd cs ds _ _

end Utf16
