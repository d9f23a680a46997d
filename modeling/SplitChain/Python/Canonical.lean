import Mathlib.Data.List.Pairwise
import Mathlib.Data.List.Sort
import SplitChain.Python.Json

set_option relaxedAutoImplicit false
set_option autoImplicit false

/-!
# Unique decodability of canonical JSON

The canonical text of a value sorts the members of every object and then writes the value down from
left to right. The sorted value can be read back: strings end at the first quote that is not
escaped, numerals at the first character that is not part of one, arrays and objects at their
closing bracket. So two values have the same canonical text exactly when they are equal up to the
order of their members.

## Main definitions

* `Json.plainText` — the text of a value with its members in document order.
* `Json.sortBy` — a value with the members of all objects sorted by a relation of keys.
* `Json.EveryObject` — a property of the keys of every object in a value.
* `Json.SameUpToKeyOrder` — equality up to the order of members.

## Main results

* `Json.plainText_inj` — a plain text determines its value.
* `Json.canonicalText_eq` — the canonical text is the plain text of the sorted value.
* `Json.sortBy_eq_sortBy_iff` — sorted values are equal when values are equal up to order.
* `Json.sortBy_eq_sortBy_iff_everyObject` — two orders sort a value alike when they agree on the
  keys of every object.
-/

namespace Json

variable {ν : Type}

/-- Induction on values: the elements of an array and the members of an object are smaller. -/
@[elab_as_elim]
theorem induction {P : Json ν → Prop} (null : P null) (bool : ∀ b, P (bool b))
    (num : ∀ n, P (num n)) (str : ∀ s, P (str s)) (arr : ∀ xs, (∀ x ∈ xs, P x) → P (arr xs))
    (obj : ∀ kvs, (∀ p ∈ kvs, P p.2) → P (obj kvs)) (v : Json ν) : P v := by
  refine @Json.rec ν P (fun xs => ∀ x ∈ xs, P x) (fun kvs => ∀ p ∈ kvs, P p.2) (fun p => P p.2)
    null bool num str arr obj nofun ?_ nofun ?_ ?_ v
  · rintro x xs hx hxs y (_ | ⟨_, hy⟩)
    · exact hx
    · exact hxs y hy
  · rintro p kvs hp hkvs q (_ | ⟨_, hq⟩)
    · exact hp
    · exact hkvs q hq
  · exact fun _ _ hv => hv

/-! ## Strings -/

/-- The value of a hexadecimal digit. -/
def hexValue (c : Char) : ℕ := if c.toNat < 58 then c.toNat - 48 else c.toNat - 87

/-- The character that an escape at the front of a text stands for, and the rest of the text. -/
def unescape : List Char → Option (Char × List Char)
  | '\\' :: 'n' :: cs => some ('\n', cs)
  | '\\' :: 'r' :: cs => some ('\r', cs)
  | '\\' :: 't' :: cs => some ('\t', cs)
  | '\\' :: 'b' :: cs => some ('\x08', cs)
  | '\\' :: 'f' :: cs => some ('\x0c', cs)
  | '\\' :: 'u' :: _ :: _ :: a :: b :: cs =>
    some (Char.ofNat (16 * hexValue a + hexValue b), cs)
  | '\\' :: c :: cs => some (c, cs)
  | c :: cs => some (c, cs)
  | [] => none

/-- A hexadecimal digit has its value. -/
lemma hexValue_hexDigit {n : ℕ} (h : n < 16) : hexValue (hexDigit n) = n := by
  have hall : ∀ n < 16, hexValue (hexDigit n) = n := by decide
  exact hall n h

/-- A character that is no backslash stands for itself. -/
lemma unescape_of_ne {c : Char} (h : c ≠ '\\') (cs : List Char) :
    unescape (c :: cs) = some (c, cs) := by
  unfold unescape
  split
  case h_8 => rename_i heq; rw [(List.cons.inj heq).1, (List.cons.inj heq).2]
  case h_9 heq => cases heq
  all_goals
    rename_i heq
    exact absurd (List.cons.inj heq).1 h

/-- An escape can be read back. -/
lemma unescape_escape (c : Char) (cs : List Char) : unescape (escape c ++ cs) = some (c, cs) := by
  unfold escape
  split_ifs with hquote hbackslash hn hr ht hb hf hcontrol
  · rw [hquote]; rfl
  · rw [hbackslash]; rfl
  · rw [hn]; rfl
  · rw [hr]; rfl
  · rw [ht]; rfl
  · rw [hb]; rfl
  · rw [hf]; rfl
  · show some (Char.ofNat (16 * hexValue (hexDigit (c.toNat / 16)) +
      hexValue (hexDigit (c.toNat % 16))), cs) = some (c, cs)
    rw [hexValue_hexDigit (by omega), hexValue_hexDigit (by omega), Nat.div_add_mod,
      Char.ofNat_toNat]
  · exact unescape_of_ne hbackslash cs

/-- An escape does not begin with a quote, and is not empty. -/
lemma escape_ne_quote (c : Char) (cs ds : List Char) : escape c ++ cs ≠ '"' :: ds := by
  intro h
  have hhead := congrArg List.head? h
  unfold escape at hhead
  split_ifs at hhead <;> simp_all

/-- Escaped characters up to a quote can be read back. -/
lemma escapes_inj {cs ds r r' : List Char}
    (h : cs.flatMap escape ++ '"' :: r = ds.flatMap escape ++ '"' :: r') : cs = ds ∧ r = r' := by
  induction cs generalizing ds with
  | nil =>
    cases ds with
    | nil => exact ⟨rfl, List.cons_injective h⟩
    | cons d ds =>
      rw [List.flatMap_cons, List.append_assoc] at h
      exact absurd h.symm (escape_ne_quote d _ _)
  | cons c cs ih =>
    cases ds with
    | nil =>
      rw [List.flatMap_cons, List.append_assoc] at h
      exact absurd h (escape_ne_quote c _ _)
    | cons d ds =>
      rw [List.flatMap_cons, List.flatMap_cons, List.append_assoc, List.append_assoc] at h
      have hread := congrArg unescape h
      rw [unescape_escape, unescape_escape, Option.some.injEq, Prod.mk.injEq] at hread
      obtain ⟨rfl, hrest⟩ := ih hread.2
      exact ⟨by rw [hread.1], hrest⟩

/-- **A string literal can be read back.** -/
lemma quote_inj {s t : String} {r r' : List Char} (h : quote s ++ r = quote t ++ r') :
    s = t ∧ r = r' := by
  unfold quote at h
  rw [List.cons_append, List.cons_append, List.append_assoc, List.append_assoc] at h
  obtain ⟨hchars, hrest⟩ := escapes_inj (List.cons_injective h)
  exact ⟨String.toList_injective hchars, hrest⟩

/-! ## Plain texts -/

mutual

/-- The text of a value with its members in document order. -/
def plainText (number : ν → String) : Json ν → List Char
  | null => ['n', 'u', 'l', 'l']
  | bool true => ['t', 'r', 'u', 'e']
  | bool false => ['f', 'a', 'l', 's', 'e']
  | num n => (number n).toList
  | str s => quote s
  | arr xs => '[' :: (commaSep (plainTexts number xs) ++ [']'])
  | obj kvs => '{' :: (commaSep (plainMembers number kvs) ++ ['}'])

/-- The plain texts of the elements of an array. -/
def plainTexts (number : ν → String) : List (Json ν) → List (List Char)
  | [] => []
  | x :: xs => plainText number x :: plainTexts number xs

/-- The plain texts of the members of an object. -/
def plainMembers (number : ν → String) : List (String × Json ν) → List (List Char)
  | [] => []
  | (k, v) :: kvs => (quote k ++ ':' :: plainText number v) :: plainMembers number kvs

end

/-- The text of a member. -/
def memberText (number : ν → String) (p : String × Json ν) : List Char :=
  quote p.1 ++ ':' :: plainText number p.2

lemma plainTexts_eq (number : ν → String) (xs : List (Json ν)) :
    plainTexts number xs = xs.map (plainText number) := by
  induction xs with
  | nil => rfl
  | cons x xs ih => rw [plainTexts, ih, List.map_cons]

lemma plainMembers_eq (number : ν → String) (kvs : List (String × Json ν)) :
    plainMembers number kvs = kvs.map (memberText number) := by
  induction kvs with
  | nil => rfl
  | cons p kvs ih => rw [plainMembers, ih, List.map_cons]; rfl

/-- A character of an integer numeral. -/
def isNumeral (c : Char) : Bool := c.isDigit || c = '-'

/-- Texts of numbers that can be told apart and end at the first character that is not part of a
numeral. -/
structure Numerals (number : ν → String) : Prop where
  injective : Function.Injective number
  nonempty : ∀ n, number n ≠ ""
  numeral : ∀ n, ∀ c ∈ (number n).toList, isNumeral c = true

/-- A text that does not go on with a numeral. -/
def Delimited (r : List Char) : Prop := ∀ c ∈ r.head?, isNumeral c = false

/-- What the first character of a text says about its value. -/
inductive Lead where
  | null | true | false | num | str | arr | obj | none
deriving DecidableEq

/-- What a character says about the value whose text it begins. -/
def Lead.ofChar (c : Char) : Lead :=
  if isNumeral c then .num
  else match c with
    | 'n' => .null
    | 't' => .true
    | 'f' => .false
    | '"' => .str
    | '[' => .arr
    | '{' => .obj
    | _ => .none

/-- The kind of a value. -/
def lead : Json ν → Lead
  | null => .null
  | bool true => .true
  | bool false => .false
  | num _ => .num
  | str _ => .str
  | arr _ => .arr
  | obj _ => .obj

section Decoding

variable {number : ν → String} (hnumber : Numerals number)

include hnumber in
/-- A text begins with a character of its kind. -/
lemma exists_lead (v : Json ν) :
    ∃ c cs, plainText number v = c :: cs ∧ Lead.ofChar c = v.lead := by
  cases v with
  | null => exact ⟨_, _, rfl, rfl⟩
  | bool b => cases b <;> exact ⟨_, _, rfl, rfl⟩
  | num n =>
    cases htext : (number n).toList with
    | nil => exact absurd (String.toList_injective htext) (hnumber.nonempty n)
    | cons c cs =>
      refine ⟨c, cs, htext, ?_⟩
      have hc := hnumber.numeral n c (by rw [htext]; exact List.mem_cons_self)
      unfold Lead.ofChar
      rw [if_pos hc]
      rfl
  | str s => exact ⟨_, _, rfl, rfl⟩
  | arr xs => exact ⟨_, _, rfl, rfl⟩
  | obj kvs => exact ⟨_, _, rfl, rfl⟩

include hnumber in
/-- Two values whose texts begin alike are of the same kind. -/
lemma lead_eq {v w : Json ν} {r r' : List Char}
    (h : plainText number v ++ r = plainText number w ++ r') : v.lead = w.lead := by
  obtain ⟨c, cs, hv, hc⟩ := exists_lead hnumber v
  obtain ⟨d, ds, hw, hd⟩ := exists_lead hnumber w
  rw [hv, hw, List.cons_append, List.cons_append, List.cons.injEq] at h
  rw [← hc, ← hd, h.1]

/-- Numerals end at the first character that is not part of one. -/
lemma takeWhile_numeral {cs r : List Char} (hcs : ∀ c ∈ cs, isNumeral c = true) (hr : Delimited r) :
    (cs ++ r).takeWhile isNumeral = cs := by
  rw [List.takeWhile_append_of_pos hcs]
  cases r with
  | nil => simp
  | cons c r => rw [List.takeWhile_cons_of_neg (by simpa using hr c rfl), List.append_nil]

/-- A text that is read back from the front of any text. -/
def Readable {α : Type} (text : α → List Char) (x : α) : Prop :=
  ∀ y r r', Delimited r → Delimited r' → text x ++ r = text y ++ r' → x = y ∧ r = r'

/-- The end of a list of texts, behind one of them. -/
lemma commaSep_cons (x : List Char) (xs : List (List Char)) (close : Char) (r : List Char) :
    ∃ rest, commaSep (x :: xs) ++ close :: r = x ++ rest ∧
      rest = match xs with
        | [] => close :: r
        | y :: ys => ',' :: (commaSep (y :: ys) ++ close :: r) := by
  cases xs with
  | nil => exact ⟨_, rfl, rfl⟩
  | cons y ys => exact ⟨_, by rw [commaSep, List.append_assoc]; rfl, rfl⟩

/-- **Texts between separators can be read back** up to the closing bracket.

**Proof sketch.** Induction on the first list. What follows a text is a comma or the closing
bracket, so that the text can be read back; and no text begins with the closing bracket. -/
lemma commaSep_inj {α : Type} {text : α → List Char} {close : Char}
    (hclose : isNumeral close = false) (hcomma : close ≠ ',')
    (hhead : ∀ x r r', text x ++ r ≠ close :: r') {xs : List α} (hread : ∀ x ∈ xs, Readable text x)
    {ys : List α} {r r' : List Char}
    (h : commaSep (xs.map text) ++ close :: r = commaSep (ys.map text) ++ close :: r') :
    xs = ys ∧ r = r' := by
  induction xs generalizing ys with
  | nil =>
    cases ys with
    | nil => exact ⟨rfl, List.cons_injective h⟩
    | cons y ys =>
      obtain ⟨rest, hy, -⟩ := commaSep_cons (text y) (ys.map text) close r'
      exact absurd (h.trans hy).symm (hhead y rest r)
  | cons x xs ih =>
    obtain ⟨rest, hx, hrest⟩ := commaSep_cons (text x) (xs.map text) close r
    cases ys with
    | nil => exact absurd (hx.symm.trans h) (hhead x rest r')
    | cons y ys =>
      obtain ⟨rest', hy, hrest'⟩ := commaSep_cons (text y) (ys.map text) close r'
      have hdelimited : ∀ {zs : List α} {t q : List Char}, (t = match zs.map text with
          | [] => close :: q
          | z :: zs => ',' :: (commaSep (z :: zs) ++ close :: q)) → Delimited t := by
        intro zs t q ht
        cases zs with
        | nil => rw [ht]; rintro c hc; cases hc; exact hclose
        | cons z zs => rw [ht]; rintro c hc; cases hc; rfl
      obtain ⟨rfl, hsame⟩ := hread x List.mem_cons_self y rest rest' (hdelimited hrest)
        (hdelimited hrest') (hx.symm.trans (h.trans hy))
      rw [hrest, hrest'] at hsame
      cases xs with
      | nil =>
        cases ys with
        | nil => exact ⟨rfl, List.cons_injective hsame⟩
        | cons z zs => exact absurd (List.cons.inj hsame).1 hcomma
      | cons z zs =>
        cases ys with
        | nil => exact absurd (List.cons.inj hsame).1.symm hcomma
        | cons w ws =>
          have hrest : commaSep ((z :: zs).map text) ++ close :: r =
              commaSep ((w :: ws).map text) ++ close :: r' := (List.cons.inj hsame).2
          obtain ⟨hzs, hr⟩ := ih (fun u hu => hread u (List.mem_cons_of_mem _ hu)) hrest
          exact ⟨by rw [hzs], hr⟩

include hnumber in
/-- **A plain text can be read back.**

**Proof sketch.** Induction on the value. The first character tells its kind, and each kind ends in
its own way. -/
theorem readable_plainText (v : Json ν) : Readable (plainText number) v := by
  have hhead : ∀ close, Lead.ofChar close = .none → ∀ (x : Json ν) r r',
      plainText number x ++ r ≠ close :: r' := by
    intro close hclose x r r' h
    obtain ⟨c, cs, hx, hc⟩ := exists_lead hnumber x
    rw [hx, List.cons_append, List.cons.injEq] at h
    rw [h.1, hclose] at hc
    cases x with
    | bool b => cases b <;> cases hc
    | null | num | str | arr | obj => cases hc
  induction v using induction with
  | null =>
    intro w r r' _ _ h
    have hlead := lead_eq hnumber h
    cases w with
    | null => exact ⟨rfl, List.append_cancel_left h⟩
    | bool b => cases b <;> cases hlead
    | num | str | arr | obj => cases hlead
  | bool b =>
    intro w r r' _ _ h
    have hlead := lead_eq hnumber h
    cases w with
    | bool b' =>
      have hsame : b = b' := by cases b <;> cases b' <;> first | rfl | cases hlead
      subst hsame
      exact ⟨rfl, List.append_cancel_left h⟩
    | null | num | str | arr | obj => cases b <;> cases hlead
  | num n =>
    intro w r r' hr hr' h
    have hlead := lead_eq hnumber h
    cases w with
    | num m =>
      change (number n).toList ++ r = (number m).toList ++ r' at h
      have htext := congrArg (List.takeWhile isNumeral) h
      rw [takeWhile_numeral (hnumber.numeral n) hr, takeWhile_numeral (hnumber.numeral m) hr']
        at htext
      rw [htext] at h
      exact ⟨by rw [hnumber.injective (String.toList_injective htext)],
        List.append_cancel_left h⟩
    | bool b => cases b <;> cases hlead
    | null | str | arr | obj => cases hlead
  | str s =>
    intro w r r' _ _ h
    have hlead := lead_eq hnumber h
    cases w with
    | str t =>
      obtain ⟨rfl, hrest⟩ := quote_inj h
      exact ⟨rfl, hrest⟩
    | bool b => cases b <;> cases hlead
    | null | num | arr | obj => cases hlead
  | arr xs ih =>
    intro w r r' _ _ h
    have hlead := lead_eq hnumber h
    cases w with
    | arr ys =>
      have hbody : commaSep (plainTexts number xs) ++ [']'] ++ r =
          commaSep (plainTexts number ys) ++ [']'] ++ r' := List.cons_injective h
      rw [List.append_assoc, List.append_assoc, plainTexts_eq, plainTexts_eq] at hbody
      obtain ⟨rfl, hrest⟩ := commaSep_inj rfl (by decide) (hhead ']' rfl) ih hbody
      exact ⟨rfl, hrest⟩
    | bool b => cases b <;> cases hlead
    | null | num | str | obj => cases hlead
  | obj kvs ih =>
    intro w r r' _ _ h
    have hlead := lead_eq hnumber h
    cases w with
    | obj ls =>
      have hbody : commaSep (plainMembers number kvs) ++ ['}'] ++ r =
          commaSep (plainMembers number ls) ++ ['}'] ++ r' := List.cons_injective h
      rw [List.append_assoc, List.append_assoc, plainMembers_eq, plainMembers_eq] at hbody
      have hmembers : ∀ p ∈ kvs, Readable (memberText number) p := by
        rintro ⟨k, v⟩ hp ⟨l, w⟩ t t' ht ht' hmember
        unfold memberText at hmember
        rw [List.append_assoc, List.append_assoc] at hmember
        obtain ⟨rfl, hvalue⟩ := quote_inj hmember
        obtain ⟨rfl, hrest⟩ := ih _ hp w t t' ht ht' (List.cons_injective hvalue)
        exact ⟨rfl, hrest⟩
      have hquote : ∀ (p : String × Json ν) t t', memberText number p ++ t ≠ '}' :: t' :=
        fun p t t' hclose => absurd (List.cons.inj hclose).1 (by decide)
      obtain ⟨rfl, hrest⟩ := commaSep_inj rfl (by decide) hquote hmembers hbody
      exact ⟨rfl, hrest⟩
    | bool b => cases b <;> cases hlead
    | null | num | str | arr => cases hlead

include hnumber in
/-- **A plain text determines its value.** -/
theorem plainText_inj {v w : Json ν} (h : plainText number v = plainText number w) : v = w :=
  (readable_plainText hnumber v w [] [] nofun nofun (by rw [h])).1

end Decoding

/-- The decimal numerals of integers. -/
lemma numerals_toString : Numerals (toString : ℤ → String) where
  injective m n h := by
    have hparse := parseInt_toString m
    rw [h, parseInt_toString n, Option.some.injEq] at hparse
    exact hparse.symm
  nonempty n h := by
    have hparse := parseInt_toString n
    rw [h] at hparse
    cases hparse
  numeral n c hc := by
    have hdigits : ∀ m, c ∈ Nat.toDigits 10 m → isNumeral c = true := fun m hm => by
      unfold isNumeral
      rw [Nat.isDigit_of_mem_toDigits (by decide) (by decide) hm, Bool.true_or]
    cases n with
    | ofNat m => exact hdigits m (toList_toString_ofNat m ▸ hc)
    | negSucc m =>
      rw [toList_toString_negSucc, List.mem_cons] at hc
      rcases hc with rfl | hc
      · rfl
      · exact hdigits _ hc

/-! ## Sorted values -/

section Sorting

variable (r : String → String → Prop) [DecidableRel r]

/-- Sort members by their keys. -/
def sortByKey {α : Type} (kvs : List (String × α)) : List (String × α) :=
  kvs.insertionSort fun p q => r p.1 q.1

mutual

/-- The value with the members of all objects sorted. -/
def sortBy : Json ν → Json ν
  | arr xs => arr (sortAllBy xs)
  | obj kvs => obj (sortByKey r (sortMembersBy kvs))
  | v => v

/-- The elements of an array, sorted inside. -/
def sortAllBy : List (Json ν) → List (Json ν)
  | [] => []
  | x :: xs => sortBy x :: sortAllBy xs

/-- The members of an object, sorted inside. -/
def sortMembersBy : List (String × Json ν) → List (String × Json ν)
  | [] => []
  | (k, v) :: kvs => (k, sortBy v) :: sortMembersBy kvs

end

lemma sortAllBy_eq (xs : List (Json ν)) : sortAllBy r xs = xs.map (sortBy r) := by
  induction xs with
  | nil => rfl
  | cons x xs ih => rw [sortAllBy, ih, List.map_cons]

lemma sortMembersBy_eq (kvs : List (String × Json ν)) :
    sortMembersBy r kvs = kvs.map fun p => (p.1, sortBy r p.2) := by
  induction kvs with
  | nil => rfl
  | cons p kvs ih => rw [sortMembersBy, ih, List.map_cons]

/-- Sorting by key commutes with a map of the values. -/
lemma sortByKey_map {α γ : Type} (f : α → γ) (kvs : List (String × α)) :
    sortByKey r (kvs.map fun p => (p.1, f p.2)) = (sortByKey r kvs).map fun p => (p.1, f p.2) :=
  (List.map_insertionSort (fun p q : String × α => r p.1 q.1) (fun p q : String × γ => r p.1 q.1)
    (fun p => (p.1, f p.2)) kvs fun _ _ _ _ => Iff.rfl).symm

end Sorting

lemma elementTexts_eq (number : ν → String) (xs : List (Json ν)) :
    elementTexts number xs = xs.map (canonicalText number) := by
  induction xs with
  | nil => rfl
  | cons x xs ih => rw [elementTexts, ih, List.map_cons]

lemma memberTexts_eq (number : ν → String) (kvs : List (String × Json ν)) :
    memberTexts number kvs = kvs.map fun p => (p.1, canonicalText number p.2) := by
  induction kvs with
  | nil => rfl
  | cons p kvs ih => rw [memberTexts, ih, List.map_cons]

/-- **The canonical text** is the plain text of the sorted value. -/
theorem canonicalText_eq (number : ν → String) (v : Json ν) :
    canonicalText number v = plainText number (sortBy (· ≤ ·) v) := by
  induction v using induction with
  | null | num | str => rfl
  | bool b => cases b <;> rfl
  | arr xs ih =>
    show '[' :: (commaSep (elementTexts number xs) ++ [']']) =
      '[' :: (commaSep (plainTexts number (sortAllBy _ xs)) ++ [']'])
    rw [elementTexts_eq, plainTexts_eq, sortAllBy_eq, List.map_map, List.map_congr_left ih]
    rfl
  | obj kvs ih =>
    show '{' :: (commaSep ((sortByKey (· ≤ ·) (memberTexts number kvs)).map _) ++ ['}']) =
      '{' :: (commaSep (plainMembers number (sortByKey (· ≤ ·) (sortMembersBy _ kvs))) ++ ['}'])
    have htexts : memberTexts number kvs = (sortMembersBy (· ≤ ·) kvs).map
        fun p => (p.1, plainText number p.2) := by
      rw [memberTexts_eq, sortMembersBy_eq, List.map_map]
      exact List.map_congr_left fun p hp => congrArg (p.1, ·) (ih p hp)
    rw [htexts, sortByKey_map, plainMembers_eq, List.map_map]
    rfl

/-! ## Equality up to the order of members -/

mutual

/-- A property of a value and of all values inside it. -/
def Everywhere (P : Json ν → Prop) : Json ν → Prop
  | arr xs => P (arr xs) ∧ EverywhereIn P xs
  | obj kvs => P (obj kvs) ∧ EverywhereInMembers P kvs
  | v => P v

/-- A property of all values inside the elements of an array. -/
def EverywhereIn (P : Json ν → Prop) : List (Json ν) → Prop
  | [] => True
  | x :: xs => Everywhere P x ∧ EverywhereIn P xs

/-- A property of all values inside the members of an object. -/
def EverywhereInMembers (P : Json ν → Prop) : List (String × Json ν) → Prop
  | [] => True
  | (_, v) :: kvs => Everywhere P v ∧ EverywhereInMembers P kvs

end

lemma everywhereIn_iff {P : Json ν → Prop} {xs : List (Json ν)} :
    EverywhereIn P xs ↔ ∀ x ∈ xs, Everywhere P x := by
  induction xs with
  | nil => simp [EverywhereIn]
  | cons x xs ih => simp [EverywhereIn, ih]

lemma everywhere_arr {P : Json ν → Prop} {xs : List (Json ν)} :
    Everywhere P (arr xs) ↔ P (arr xs) ∧ ∀ x ∈ xs, Everywhere P x :=
  and_congr_right fun _ => everywhereIn_iff

lemma everywhereInMembers_iff {P : Json ν → Prop} {kvs : List (String × Json ν)} :
    EverywhereInMembers P kvs ↔ ∀ p ∈ kvs, Everywhere P p.2 := by
  induction kvs with
  | nil => simp [EverywhereInMembers]
  | cons p kvs ih => simp [EverywhereInMembers, ih]

lemma everywhere_obj {P : Json ν → Prop} {kvs : List (String × Json ν)} :
    Everywhere P (obj kvs) ↔ P (obj kvs) ∧ ∀ p ∈ kvs, Everywhere P p.2 :=
  and_congr_right fun _ => everywhereInMembers_iff

/-- Every object in a value has keys that satisfy `P`. -/
def EveryObject (P : List String → Prop) : Json ν → Prop :=
  Everywhere fun
    | obj kvs => P (kvs.map Prod.fst)
    | _ => True

/-- Every number in a value satisfies `P`. -/
def EveryNumber (P : ν → Prop) : Json ν → Prop :=
  Everywhere fun
    | num n => P n
    | _ => True

lemma everyObject_arr {P : List String → Prop} {xs : List (Json ν)} :
    EveryObject P (arr xs) ↔ ∀ x ∈ xs, EveryObject P x :=
  everywhere_arr.trans (and_iff_right trivial)

lemma everyObject_obj {P : List String → Prop} {kvs : List (String × Json ν)} :
    EveryObject P (obj kvs) ↔ P (kvs.map Prod.fst) ∧ ∀ p ∈ kvs, EveryObject P p.2 :=
  everywhere_obj

lemma everyNumber_arr {P : ν → Prop} {xs : List (Json ν)} :
    EveryNumber P (arr xs) ↔ ∀ x ∈ xs, EveryNumber P x :=
  everywhere_arr.trans (and_iff_right trivial)

lemma everyNumber_obj {P : ν → Prop} {kvs : List (String × Json ν)} :
    EveryNumber P (obj kvs) ↔ ∀ p ∈ kvs, EveryNumber P p.2 :=
  everywhere_obj.trans (and_iff_right trivial)

mutual

/-- The numbers in a value. -/
def numbers : Json ν → List ν
  | num n => [n]
  | arr xs => numbersIn xs
  | obj kvs => numbersInMembers kvs
  | _ => []

/-- The numbers in the elements of an array. -/
def numbersIn : List (Json ν) → List ν
  | [] => []
  | x :: xs => numbers x ++ numbersIn xs

/-- The numbers in the members of an object. -/
def numbersInMembers : List (String × Json ν) → List ν
  | [] => []
  | (_, v) :: kvs => numbers v ++ numbersInMembers kvs

end

/-- A property of all numbers, as one of the list of numbers. -/
lemma forall_mem_numbers {P : ν → Prop} {v : Json ν} :
    (∀ n ∈ v.numbers, P n) ↔ v.EveryNumber P := by
  induction v using induction with
  | null | bool | num | str => simp [numbers, EveryNumber, Everywhere]
  | arr xs ih =>
    rw [everyNumber_arr]
    show (∀ n ∈ numbersIn xs, P n) ↔ _
    induction xs with
    | nil => simp [numbersIn]
    | cons x xs ihs =>
      rw [numbersIn, List.forall_mem_append, List.forall_mem_cons, ih x List.mem_cons_self,
        ihs fun y hy => ih y (List.mem_cons_of_mem x hy)]
  | obj kvs ih =>
    rw [everyNumber_obj]
    show (∀ n ∈ numbersInMembers kvs, P n) ↔ _
    induction kvs with
    | nil => simp [numbersInMembers]
    | cons p kvs ihs =>
      rw [numbersInMembers, List.forall_mem_append, List.forall_mem_cons, ih p List.mem_cons_self,
        ihs fun q hq => ih q (List.mem_cons_of_mem p hq)]

/-- The number of digits up to which the interpreter converts an integer to a text. -/
def maxStrDigits : ℕ := 4300

/-- A number that the interpreter converts to a text: it refuses an integer that has too many
digits. -/
def Printable [PyNumber ν] (n : ν) : Prop :=
  ∀ i, PyNumber.int? n = some i → i.natAbs < 10 ^ maxStrDigits

instance [PyNumber ν] (n : ν) : Decidable (Printable n) :=
  match h : PyNumber.int? n with
  | none => isTrue fun i hi => by
    rw [h] at hi
    cases hi
  | some i => decidable_of_iff (i.natAbs < 10 ^ maxStrDigits) <| by
    simp [Printable, h]

/-- No object in the value has a key twice. -/
def DistinctKeys (v : Json ν) : Prop := v.EveryObject List.Nodup

/-- Equality up to the order of the members of objects. -/
inductive SameUpToKeyOrder : Json ν → Json ν → Prop
  | null : SameUpToKeyOrder null null
  | bool (b : Bool) : SameUpToKeyOrder (bool b) (bool b)
  | num (n : ν) : SameUpToKeyOrder (num n) (num n)
  | str (s : String) : SameUpToKeyOrder (str s) (str s)
  | arr {xs ys : List (Json ν)} (elements : List.Forall₂ SameUpToKeyOrder xs ys) :
    SameUpToKeyOrder (arr xs) (arr ys)
  /-- The members of one object, in another order, have the keys of the other and its values. -/
  | obj {kvs ls ms : List (String × Json ν)} (order : ms.Perm ls)
    (keys : kvs.map Prod.fst = ms.map Prod.fst)
    (values : List.Forall₂ SameUpToKeyOrder (kvs.map Prod.snd) (ms.map Prod.snd)) :
    SameUpToKeyOrder (obj kvs) (obj ls)

/-- Related lists have equal images when related elements do. -/
lemma map_eq_map_of_forall₂ {α β γ : Type} {R : α → β → Prop} {f : α → γ} {g : β → γ}
    {xs : List α} {ys : List β} (h : List.Forall₂ R xs ys)
    (hfg : ∀ x ∈ xs, ∀ y, R x y → f x = g y) : xs.map f = ys.map g := by
  induction h with
  | nil => rfl
  | cons hxy _ ih =>
    rw [List.map_cons, List.map_cons, hfg _ List.mem_cons_self _ hxy,
      ih fun x hx => hfg x (List.mem_cons_of_mem _ hx)]

/-- Lists with equal images are related when elements with equal images are. -/
lemma forall₂_of_map_eq_map {α β γ : Type} {R : α → β → Prop} {f : α → γ} {g : β → γ}
    {xs : List α} {ys : List β} (h : xs.map f = ys.map g)
    (hfg : ∀ x ∈ xs, ∀ y, f x = g y → R x y) : List.Forall₂ R xs ys := by
  induction xs generalizing ys with
  | nil =>
    obtain rfl := List.map_eq_nil_iff.mp h.symm
    exact .nil
  | cons x xs ih =>
    obtain ⟨y, ys, rfl, hy, hys⟩ := List.map_eq_cons_iff.mp h.symm
    exact .cons (hfg x List.mem_cons_self y hy.symm)
      (ih hys.symm fun x hx => hfg x (List.mem_cons_of_mem _ hx))

section Orders

variable {r : String → String → Prop} [DecidableRel r] [Std.Total r] [IsTrans String r]

/-- Sorted members are in order. -/
lemma pairwise_sortByKey {α : Type} (kvs : List (String × α)) :
    (sortByKey r kvs).Pairwise fun p q => r p.1 q.1 := by
  have : Std.Total fun p q : String × α => r p.1 q.1 := ⟨fun p q => Std.Total.total p.1 q.1⟩
  have : IsTrans (String × α) fun p q => r p.1 q.1 := ⟨fun _ _ _ => IsTrans.trans _ _ _⟩
  exact List.pairwise_insertionSort _ kvs

variable [Std.Antisymm r]

/-- Members with distinct keys have one sorted order. -/
lemma sortByKey_eq_of_perm {α : Type} {kvs ls : List (String × α)} (h : kvs.Perm ls)
    (hkeys : (kvs.map Prod.fst).Nodup) : sortByKey r kvs = sortByKey r ls := by
  have hperm : (sortByKey r kvs).Perm kvs := List.perm_insertionSort _ kvs
  have hperm' : (sortByKey r ls).Perm ls := List.perm_insertionSort _ ls
  refine List.Perm.eq_of_pairwise ?_ (pairwise_sortByKey kvs) (pairwise_sortByKey ls)
    (hperm.trans (h.trans hperm'.symm))
  intro p q hp hq hpq hqp
  have hfst : p.1 = q.1 := Std.Antisymm.antisymm _ _ hpq hqp
  exact List.inj_on_of_nodup_map hkeys (hperm.mem_iff.mp hp)
    (h.mem_iff.mpr (hperm'.mem_iff.mp hq)) hfst

/-- Values that are equal up to the order of members have one sorted form. -/
lemma SameUpToKeyOrder.sortBy_eq {v w : Json ν} (h : SameUpToKeyOrder v w)
    (hkeys : v.DistinctKeys) : sortBy r v = sortBy r w := by
  induction v using induction generalizing w with
  | null | bool | num | str => cases h; rfl
  | arr xs ih =>
    cases h with
    | @arr _ ys helements =>
      rw [DistinctKeys, everyObject_arr] at hkeys
      show Json.arr (sortAllBy r xs) = Json.arr (sortAllBy r ys)
      rw [sortAllBy_eq, sortAllBy_eq,
        map_eq_map_of_forall₂ helements fun x hx y hxy => ih x hx hxy (hkeys x hx)]
  | obj kvs ih =>
    cases h with
    | @obj _ ls ms horder hfst hvalues =>
      rw [DistinctKeys, everyObject_obj] at hkeys
      have hsnd : (kvs.map Prod.snd).map (sortBy r) = (ms.map Prod.snd).map (sortBy r) := by
        refine map_eq_map_of_forall₂ hvalues fun x hx y hxy => ?_
        obtain ⟨p, hp, rfl⟩ := List.mem_map.mp hx
        exact ih p hp hxy (hkeys.2 p hp)
      rw [List.map_map, List.map_map] at hsnd
      have hmembers : sortMembersBy r kvs = sortMembersBy r ms := by
        have hzip : ∀ kvs : List (String × Json ν), sortMembersBy r kvs =
            (kvs.map Prod.fst).zip (kvs.map (sortBy r ∘ Prod.snd)) := fun kvs => by
          rw [List.zip_map']
          exact sortMembersBy_eq r kvs
        rw [hzip, hzip, hfst, hsnd]
      have hperm : (sortMembersBy r ms).Perm (sortMembersBy r ls) := by
        rw [sortMembersBy_eq, sortMembersBy_eq]
        exact horder.map _
      have hnodup : ((sortMembersBy r ms).map Prod.fst).Nodup := by
        rw [← hmembers, sortMembersBy_eq, List.map_map]
        exact hkeys.1
      show Json.obj (sortByKey r (sortMembersBy r kvs)) =
        Json.obj (sortByKey r (sortMembersBy r ls))
      rw [hmembers, sortByKey_eq_of_perm hperm hnodup]

omit [Std.Total r] [IsTrans String r] [Std.Antisymm r] in
/-- Values with one sorted form are equal up to the order of members. -/
lemma sameUpToKeyOrder_of_sortBy_eq {v w : Json ν} (h : sortBy r v = sortBy r w) :
    SameUpToKeyOrder v w := by
  induction v using induction generalizing w with
  | null => cases w <;> cases h; exact .null
  | bool b => cases w <;> cases h; exact .bool b
  | num n => cases w <;> cases h; exact .num n
  | str s => cases w <;> cases h; exact .str s
  | arr xs ih =>
    cases w with
    | arr ys =>
      have helements : sortAllBy r xs = sortAllBy r ys := by injection h
      rw [sortAllBy_eq, sortAllBy_eq] at helements
      exact .arr (forall₂_of_map_eq_map helements fun x hx y hxy => ih x hx hxy)
    | null | bool | num | str | obj => cases h
  | obj kvs ih =>
    cases w with
    | obj ls =>
      have hmembers : sortByKey r (sortMembersBy r kvs) = sortByKey r (sortMembersBy r ls) := by
        injection h
      have hperm : (sortMembersBy r kvs).Perm (sortMembersBy r ls) := by
        have hsorted := List.perm_insertionSort (fun p q => r p.1 q.1) (sortMembersBy r kvs)
        rw [show List.insertionSort _ _ = _ from hmembers] at hsorted
        exact hsorted.symm.trans (List.perm_insertionSort _ _)
      rw [sortMembersBy_eq, sortMembersBy_eq] at hperm
      -- The members of the second object can be put in the order of the first.
      have hcomp := List.eq_map_comp_perm fun p : String × Json ν => (p.1, sortBy r p.2)
      obtain ⟨ms, hms, horder⟩ := (congrFun (congrFun hcomp _) ls).mpr hperm
      have hfst := congrArg (List.map Prod.fst) hms
      have hsnd := congrArg (List.map Prod.snd) hms
      simp only [List.map_map] at hfst hsnd
      refine .obj horder hfst ?_
      refine List.forall₂_map_left_iff.mpr (List.forall₂_map_right_iff.mpr ?_)
      exact forall₂_of_map_eq_map hsnd fun p hp q hpq => ih p hp hpq
    | null | bool | num | str | arr => cases h

/-- **Sorted values are equal exactly when the values are equal up to the order of members.** -/
theorem sortBy_eq_sortBy_iff {v w : Json ν} (hkeys : v.DistinctKeys) :
    sortBy r v = sortBy r w ↔ SameUpToKeyOrder v w :=
  ⟨sameUpToKeyOrder_of_sortBy_eq, fun h => h.sortBy_eq hkeys⟩

variable {q : String → String → Prop} [DecidableRel q] [Std.Total q] [IsTrans String q]
  [Std.Antisymm q]

/-- Two orders sort members alike exactly when they agree on the keys. -/
lemma sortByKey_eq_sortByKey_iff {α : Type} {kvs : List (String × α)}
    (hkeys : (kvs.map Prod.fst).Nodup) : sortByKey r kvs = sortByKey q kvs ↔
      ∀ k ∈ kvs.map Prod.fst, ∀ l ∈ kvs.map Prod.fst, r k l ↔ q k l := by
  have hperm : (sortByKey r kvs).Perm kvs := List.perm_insertionSort _ kvs
  constructor
  · intro h k hk l hl
    obtain rfl | hkl := eq_or_ne k l
    · exact iff_of_true ((Std.Total.total (r := r) k k).elim id id)
        ((Std.Total.total (r := q) k k).elim id id)
    have hboth : ((sortByKey r kvs).map Prod.fst).Pairwise fun k l => r k l ∧ q k l :=
      List.pairwise_map.mpr ((pairwise_sortByKey kvs).and (h ▸ pairwise_sortByKey kvs))
    have hmem : ∀ k, k ∈ (sortByKey r kvs).map Prod.fst ↔ k ∈ kvs.map Prod.fst := fun k =>
      (hperm.map Prod.fst).mem_iff
    have hsymm : Std.Symm fun k l => (r k l ∧ q k l) ∨ (r l k ∧ q l k) := ⟨fun _ _ => Or.symm⟩
    have hordered : ((sortByKey r kvs).map Prod.fst).Pairwise
        fun k l => (r k l ∧ q k l) ∨ (r l k ∧ q l k) := hboth.imp Or.inl
    rcases hordered.forall ((hmem k).mpr hk) ((hmem l).mpr hl) hkl with ⟨hr, hq⟩ | ⟨hr, hq⟩
    · exact iff_of_true hr hq
    · exact iff_of_false (fun h => hkl (Std.Antisymm.antisymm _ _ h hr))
        (fun h => hkl (Std.Antisymm.antisymm _ _ h hq))
  · intro h
    have hperm' : (sortByKey q kvs).Perm kvs := List.perm_insertionSort _ kvs
    have hsorted : (sortByKey r kvs).Pairwise fun p t => q p.1 t.1 :=
      (pairwise_sortByKey kvs).imp_of_mem fun hp ht hpt =>
        (h _ (List.mem_map_of_mem (hperm.mem_iff.mp hp)) _
          (List.mem_map_of_mem (hperm.mem_iff.mp ht))).mp hpt
    refine List.Perm.eq_of_pairwise ?_ hsorted (pairwise_sortByKey kvs)
      (hperm.trans hperm'.symm)
    intro p t hp ht hpt htp
    exact List.inj_on_of_nodup_map hkeys (hperm.mem_iff.mp hp) (hperm'.mem_iff.mp ht)
      (Std.Antisymm.antisymm _ _ hpt htp)

/-- **Two orders sort a value alike** exactly when they agree on the keys of every object.

**Proof sketch.** Members that are in order by both relations tell that the relations agree on their
keys, because distinct keys stand in one order only. -/
theorem sortBy_eq_sortBy_iff_everyObject {v : Json ν} (hkeys : v.DistinctKeys) :
    sortBy r v = sortBy q v ↔
      v.EveryObject fun keys => ∀ k ∈ keys, ∀ l ∈ keys, r k l ↔ q k l := by
  induction v using induction with
  | null | bool | num | str => exact iff_of_true rfl trivial
  | arr xs ih =>
    rw [DistinctKeys, everyObject_arr] at hkeys
    rw [everyObject_arr]
    show Json.arr (sortAllBy r xs) = Json.arr (sortAllBy q xs) ↔ _
    rw [arr.injEq, sortAllBy_eq, sortAllBy_eq, List.map_inj_left]
    exact forall₂_congr fun x hx => ih x hx (hkeys x hx)
  | obj kvs ih =>
    rw [DistinctKeys, everyObject_obj] at hkeys
    rw [everyObject_obj]
    show Json.obj (sortByKey r (sortMembersBy r kvs)) =
      Json.obj (sortByKey q (sortMembersBy q kvs)) ↔ _
    have hfst : (sortMembersBy r kvs).map Prod.fst = kvs.map Prod.fst := by
      rw [sortMembersBy_eq, List.map_map]
      rfl
    have hvalues : sortMembersBy r kvs = sortMembersBy q kvs ↔
        ∀ p ∈ kvs, p.2.EveryObject fun keys => ∀ k ∈ keys, ∀ l ∈ keys, r k l ↔ q k l := by
      rw [sortMembersBy_eq, sortMembersBy_eq, List.map_inj_left]
      refine forall₂_congr fun p hp => ?_
      rw [Prod.mk.injEq, ← ih p hp (hkeys.2 p hp), and_iff_right rfl]
    have hsorted := sortByKey_eq_sortByKey_iff (r := r) (q := q) (hfst ▸ hkeys.1)
    rw [obj.injEq, ← hvalues, ← hfst, ← hsorted]
    constructor
    · intro h
      suffices hmembers : sortMembersBy r kvs = sortMembersBy q kvs from
        ⟨h.trans (by rw [hmembers]), hmembers⟩
      -- A member of one sorted object is the member of the other with its key.
      have hperm : (sortMembersBy r kvs).Perm (sortMembersBy q kvs) := by
        have hleft := List.perm_insertionSort (fun p t => r p.1 t.1) (sortMembersBy r kvs)
        rw [show List.insertionSort _ _ = _ from h] at hleft
        exact hleft.symm.trans (List.perm_insertionSort _ _)
      rw [sortMembersBy_eq, sortMembersBy_eq] at hperm ⊢
      refine List.map_congr_left fun p hp => ?_
      obtain ⟨t, ht, heq⟩ := List.mem_map.mp (hperm.mem_iff.mp (List.mem_map_of_mem hp))
      rw [List.inj_on_of_nodup_map hkeys.1 ht hp (Prod.mk.inj heq).1] at heq
      exact heq.symm
    · rintro ⟨h, hmembers⟩
      rw [h, hmembers]

end Orders

end Json
