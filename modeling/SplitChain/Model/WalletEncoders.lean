import SplitChain.Library.Utf16
import SplitChain.Model.Runs
import SplitChain.Python.Canonical

set_option relaxedAutoImplicit false
set_option autoImplicit false

/-!
# The canonical encoders of the wallets

The Android wallet and the web wallet encode the documents they sign by functions of their own. Both
languages store strings as UTF-16 code units: the Android wallet quotes strings unit by unit, both
sort the keys of objects by their units, and both turn the text into bytes at the end. Nodes sort
keys by code points.

## Main definitions

* `Android.quote`, `Android.canonical`, `Android.canonicalBytes` — `Protocol.quote`,
  `Protocol.canonical` and its bytes.
* `Web.canonical`, `Web.canonicalBytes` — the `canonical` function of the web wallet.
* `SortsAlike` — the objects whose keys are in one order for nodes and wallets.

## Main results

* `Android.canonical_eq`, `Web.canonical_eq` — the wallets sort by units and agree with
  nodes in everything else.
* `encoders_agree_iff` — the three encoders agree exactly on values that sort alike.
-/

namespace SplitChain

open Json

/-- The units of a text of ASCII characters. -/
def ascii (s : String) : List ℕ := s.toList.map Char.toNat

/-- `compareTo` in Java and the default order of `sort` in JavaScript. -/
def unitsLe (k l : String) : Prop := Utf16.encode k.toList ≤ Utf16.encode l.toList

instance : DecidableRel unitsLe := fun _ _ => inferInstanceAs (Decidable (_ ≤ _))

instance : Std.Total unitsLe := ⟨fun _ _ => le_total _ _⟩

instance : IsTrans String unitsLe := ⟨fun _ _ _ => le_trans⟩

instance : Std.Antisymm unitsLe :=
  ⟨fun _ _ h h' => String.toList_injective (Utf16.encode_injective (le_antisymm h h'))⟩

/-- The four hexadecimal digits of a unit. -/
def hex4 (u : ℕ) : List ℕ :=
  [u / 4096 % 16, u / 256 % 16, u / 16 % 16, u % 16].map fun d => (hexDigit d).toNat

/-! ## The Android wallet -/

namespace Android

/-- What `quote` appends for one unit. -/
def quoteUnit (c : ℕ) : List ℕ :=
  if c = '"'.toNat then ascii "\\\""
  else if c = '\\'.toNat then ascii "\\\\"
  else if c = '\x08'.toNat then ascii "\\b"
  else if c = '\x0c'.toNat then ascii "\\f"
  else if c = '\n'.toNat then ascii "\\n"
  else if c = '\r'.toNat then ascii "\\r"
  else if c = '\t'.toNat then ascii "\\t"
  else if c < 32 then ascii "\\u" ++ hex4 c
  else [c]

/-- A string literal. -/
def quote (value : List ℕ) : List ℕ := ascii "\"" ++ value.flatMap quoteUnit ++ ascii "\""

/-- One round of the loop over the keys of an object. -/
def appendMember (out : List ℕ) (member : String × List ℕ) : List ℕ :=
  (if out.length > 1 then out ++ ascii "," else out) ++
    quote (Utf16.encode member.1.toList) ++ ascii ":" ++ member.2

/-- The text of an object: the loop over the sorted keys. -/
def objectText (members : List (String × List ℕ)) : List ℕ :=
  (sortByKey unitsLe members).foldl appendMember (ascii "\x7b") ++ ascii "\x7d"

/-- One round of the loop over the elements of an array. -/
def appendElement (out : List ℕ) (element : List ℕ × ℕ) : List ℕ :=
  (if element.2 > 0 then out ++ ascii "," else out) ++ element.1

/-- The text of an array: the loop over the indexes. -/
def arrayText (elements : List (List ℕ)) : List ℕ :=
  elements.zipIdx.foldl appendElement (ascii "[") ++ ascii "]"

mutual

/-- `canonical`, `none` for its exception: a number has to be an `Integer` or a `Long`. -/
def canonical : Json ℤ → Option (List ℕ)
  | .obj kvs => (memberTexts kvs).map objectText
  | .arr xs => (elementTexts xs).map arrayText
  | .str s => some (quote (Utf16.encode s.toList))
  | .null => some (ascii "null")
  | .bool b => some (ascii (if b then "true" else "false"))
  | .num n => if -2 ^ 63 ≤ n ∧ n < 2 ^ 63 then some (ascii (toString n)) else none

/-- The texts of the elements of an array. -/
def elementTexts : List (Json ℤ) → Option (List (List ℕ))
  | [] => some []
  | x :: xs => do
    let text ← canonical x
    let texts ← elementTexts xs
    pure (text :: texts)

/-- The texts of the members of an object. -/
def memberTexts : List (String × Json ℤ) → Option (List (String × List ℕ))
  | [] => some []
  | (k, v) :: kvs => do
    let text ← canonical v
    let texts ← memberTexts kvs
    pure ((k, text) :: texts)

end

/-- `canonical(value).getBytes(StandardCharsets.UTF_8)` -/
def canonicalBytes (value : Json ℤ) : Option (List UInt8) :=
  (canonical value).map fun text => encodeUtf8 (Utf16.decode '?' text)

end Android

/-! ## The web wallet -/

/-- The text of a number in JavaScript. -/
structure JsLib where
  numberText : ℤ → String
  numberText_safe : ∀ n : ℤ, |n| ≤ 2 ^ 53 - 1 → numberText n = toString n

namespace Web

/-- What `JSON.stringify` writes for one character of a string. -/
def quoteChar (c : Char) : List ℕ :=
  if c = '\x08' then ascii "\\b"
  else if c = '\t' then ascii "\\t"
  else if c = '\n' then ascii "\\n"
  else if c = '\x0c' then ascii "\\f"
  else if c = '\r' then ascii "\\r"
  else if c = '"' then ascii "\\\""
  else if c = '\\' then ascii "\\\\"
  else if c.toNat < 32 then ascii "\\u" ++ hex4 c.toNat
  else Utf16.units c

/-- `JSON.stringify` of a string. -/
def stringify (s : String) : List ℕ := ascii "\"" ++ s.toList.flatMap quoteChar ++ ascii "\""

/-- `join(',')` -/
def join (texts : List (List ℕ)) : List ℕ := (ascii ",").intercalate texts

variable (js : JsLib)

mutual

/-- `canonical` -/
def canonical : Json ℤ → List ℕ
  | .arr xs => ascii "[" ++ join (elementTexts xs) ++ ascii "]"
  | .obj kvs => ascii "\x7b" ++ join ((sortByKey unitsLe (memberTexts kvs)).map
      fun p => stringify p.1 ++ ascii ":" ++ p.2) ++ ascii "\x7d"
  | .str s => stringify s
  | .null => ascii "null"
  | .bool b => ascii (if b then "true" else "false")
  | .num n => ascii (js.numberText n)

/-- The texts of the elements of an array. -/
def elementTexts : List (Json ℤ) → List (List ℕ)
  | [] => []
  | x :: xs => canonical x :: elementTexts xs

/-- The texts of the members of an object. -/
def memberTexts : List (String × Json ℤ) → List (String × List ℕ)
  | [] => []
  | (k, v) :: kvs => (k, canonical v) :: memberTexts kvs

end

/-- `encoder.encode(canonical(value))` -/
def canonicalBytes (value : Json ℤ) : List UInt8 :=
  encodeUtf8 (Utf16.decode '\uFFFD' (canonical js value))

end Web

/-! ## Strings -/

/-- The units of an ASCII text. -/
lemma ascii_eq {s : String} (h : ∀ c ∈ s.toList, c.toNat < 0x10000) :
    ascii s = Utf16.encode s.toList := by
  unfold ascii Utf16.encode
  rw [List.flatMap_congr fun c hc => Utf16.units_of_lt (h c hc)]
  exact List.map_eq_flatMap

/-- The units of a numeral. -/
lemma ascii_toString (n : ℤ) : ascii (toString n) = Utf16.encode (toString n).toList := by
  refine ascii_eq fun c hc => ?_
  have hnumeral := numerals_toString.numeral n c hc
  unfold isNumeral at hnumeral
  rw [Bool.or_eq_true, decide_eq_true_eq] at hnumeral
  rcases hnumeral with hdigit | rfl
  · unfold Char.isDigit at hdigit
    rw [Bool.and_eq_true, decide_eq_true_eq, decide_eq_true_eq] at hdigit
    exact lt_of_le_of_lt (UInt32.le_iff_toNat_le.mp hdigit.2) (by decide)
  · decide

/-- Characters that no encoder escapes. -/
lemma escape_of_ge {c : Char} (h : 128 ≤ c.toNat) : escape c = [c] := by
  have hne : ∀ d : Char, d.toNat < 128 → c ≠ d := fun d hd hc => by rw [hc] at h; omega
  unfold escape
  rw [if_neg (hne _ (by decide)), if_neg (hne _ (by decide)), if_neg (hne _ (by decide)),
    if_neg (hne _ (by decide)), if_neg (hne _ (by decide)), if_neg (hne _ (by decide)),
    if_neg (hne _ (by decide)), if_neg (by omega)]

/-- The Android wallet leaves units outside ASCII alone. -/
lemma Android.quoteUnit_of_ge {u : ℕ} (h : 128 ≤ u) : quoteUnit u = [u] := by
  have hne : ∀ d : Char, d.toNat < 128 → u ≠ d.toNat := fun d hd hu => by omega
  unfold quoteUnit
  rw [if_neg (hne _ (by decide)), if_neg (hne _ (by decide)), if_neg (hne _ (by decide)),
    if_neg (hne _ (by decide)), if_neg (hne _ (by decide)), if_neg (hne _ (by decide)),
    if_neg (hne _ (by decide)), if_neg (by omega)]

/-- The Android wallet escapes characters as nodes do. -/
lemma Android.quoteUnit_units (c : Char) :
    (Utf16.units c).flatMap quoteUnit = Utf16.encode (escape c) := by
  rcases Nat.lt_or_ge c.toNat 128 with h | h
  · have hall : ∀ n < 128, (Utf16.units (Char.ofNat n)).flatMap quoteUnit =
        Utf16.encode (escape (Char.ofNat n)) := by decide +kernel
    have hc := hall c.toNat h
    rwa [Char.ofNat_toNat] at hc
  · have hunits : ∀ u ∈ Utf16.units c, 128 ≤ u := by
      unfold Utf16.units
      split_ifs <;> simp <;> omega
    rw [escape_of_ge h, List.flatMap_congr fun u hu => quoteUnit_of_ge (hunits u hu)]
    simp

/-- The web wallet escapes characters as nodes do. -/
lemma Web.quoteChar_eq (c : Char) : quoteChar c = Utf16.encode (escape c) := by
  rcases Nat.lt_or_ge c.toNat 128 with h | h
  · have hall : ∀ n < 128, quoteChar (Char.ofNat n) = Utf16.encode (escape (Char.ofNat n)) := by
      decide +kernel
    have hc := hall c.toNat h
    rwa [Char.ofNat_toNat] at hc
  · have hne : ∀ d : Char, d.toNat < 128 → c ≠ d := fun d hd hc => by rw [hc] at h; omega
    rw [escape_of_ge h]
    unfold quoteChar
    rw [if_neg (hne _ (by decide)), if_neg (hne _ (by decide)), if_neg (hne _ (by decide)),
      if_neg (hne _ (by decide)), if_neg (hne _ (by decide)), if_neg (hne _ (by decide)),
      if_neg (hne _ (by decide)), if_neg (by omega)]
    simp

/-- **The Android wallet quotes strings** as nodes do. -/
lemma Android.quote_eq (s : String) :
    quote (Utf16.encode s.toList) = Utf16.encode (Json.quote s) := by
  have hbody : (Utf16.encode s.toList).flatMap quoteUnit =
      Utf16.encode (s.toList.flatMap escape) := by
    unfold Utf16.encode
    rw [List.flatMap_assoc, List.flatMap_assoc]
    exact List.flatMap_congr fun c _ => quoteUnit_units c
  unfold quote Json.quote
  rw [hbody, Utf16.encode_cons, Utf16.encode_append]
  rfl

/-- **The web wallet quotes strings** as nodes do. -/
lemma Web.stringify_eq (s : String) : stringify s = Utf16.encode (Json.quote s) := by
  have hbody : s.toList.flatMap quoteChar = Utf16.encode (s.toList.flatMap escape) := by
    unfold Utf16.encode
    rw [List.flatMap_assoc]
    exact List.flatMap_congr fun c _ => quoteChar_eq c
  unfold stringify Json.quote
  rw [hbody, Utf16.encode_cons, Utf16.encode_append]
  rfl

/-! ## Lists of texts -/

/-- A joined list begins with its first text. -/
lemma Web.join_cons (t : List ℕ) (ts : List (List ℕ)) :
    join (t :: ts) = t ++ ts.flatMap fun t => ascii "," ++ t := by
  unfold join
  induction ts generalizing t with
  | nil => simp
  | cons t' ts ih =>
    rw [List.intercalate_cons_cons, ih, List.flatMap_cons, List.append_assoc, List.append_assoc]

/-- The units of texts separated by commas. -/
lemma encode_commaSep (ts : List (List Char)) :
    Utf16.encode (commaSep ts) = Web.join (ts.map Utf16.encode) := by
  induction ts with
  | nil => rfl
  | cons t ts ih =>
    cases ts with
    | nil => simp [Web.join_cons, commaSep]
    | cons t' ts =>
      rw [commaSep, Utf16.encode_append, Utf16.encode_cons, ih]
      unfold Web.join
      rw [List.map_cons, List.map_cons, List.map_cons, List.intercalate_cons_cons,
        List.append_assoc]
      rfl

/-- **The loop over the elements of an array** joins their texts. -/
lemma Android.arrayText_eq (ts : List (List ℕ)) :
    arrayText ts = ascii "[" ++ Web.join ts ++ ascii "]" := by
  have hloop : ∀ (ts : List (List ℕ)) (k : ℕ) (out : List ℕ), 0 < k →
      (ts.zipIdx k).foldl appendElement out = out ++ ts.flatMap fun t => ascii "," ++ t := by
    intro ts
    induction ts with
    | nil => simp
    | cons t ts ih =>
      intro k out hk
      rw [List.zipIdx_cons, List.foldl_cons, ih (k + 1) _ (by omega), List.flatMap_cons]
      simp [appendElement, hk]
  unfold arrayText
  cases ts with
  | nil => rfl
  | cons t ts =>
    rw [List.zipIdx_cons, List.foldl_cons, hloop ts (0 + 1) _ (by omega), Web.join_cons]
    simp [appendElement]

/-- The text of a member. -/
def Android.memberText (member : String × List ℕ) : List ℕ :=
  quote (Utf16.encode member.1.toList) ++ ascii ":" ++ member.2

/-- **The loop over the keys of an object** joins the texts of its members. -/
lemma Android.objectText_eq (ms : List (String × List ℕ)) : objectText ms =
    ascii "\x7b" ++ Web.join ((sortByKey unitsLe ms).map memberText) ++ ascii "\x7d" := by
  have hloop : ∀ (ms : List (String × List ℕ)) (out : List ℕ), 1 < out.length →
      ms.foldl appendMember out = out ++ (ms.map memberText).flatMap fun t => ascii "," ++ t := by
    intro ms
    induction ms with
    | nil => simp
    | cons m ms ih =>
      intro out hout
      rw [List.foldl_cons, ih]
      · simp [appendMember, memberText, hout]
      · unfold appendMember
        rw [if_pos hout]
        simp only [List.length_append]
        omega
  unfold objectText
  cases sortByKey unitsLe ms with
  | nil => rfl
  | cons m ms =>
    have hfirst : appendMember (ascii "\x7b") m = ascii "\x7b" ++ memberText m := by
      simp [appendMember, memberText, ascii]
    rw [List.foldl_cons, List.map_cons, Web.join_cons, hfirst, hloop]
    · simp
    · simp [memberText, quote, ascii]

/-! ## Values -/

/-- The text of a value with its keys sorted by their units. -/
def walletText (v : Json ℤ) : List ℕ := Utf16.encode (plainText toString (sortBy unitsLe v))

/-- The text of an array. -/
lemma walletText_arr (xs : List (Json ℤ)) :
    walletText (.arr xs) = ascii "[" ++ Web.join (xs.map walletText) ++ ascii "]" := by
  show Utf16.encode ('[' :: (commaSep (plainTexts toString (sortAllBy unitsLe xs)) ++ [']'])) = _
  rw [plainTexts_eq, sortAllBy_eq, Utf16.encode_cons, Utf16.encode_append, encode_commaSep,
    List.map_map, List.map_map, List.append_assoc]
  rfl

/-- The text of an object. -/
lemma walletText_obj (kvs : List (String × Json ℤ)) : walletText (.obj kvs) = ascii "\x7b" ++
    Web.join ((sortByKey unitsLe (kvs.map fun p => (p.1, walletText p.2))).map
      fun p => Utf16.encode (Json.quote p.1) ++ ascii ":" ++ p.2) ++ ascii "\x7d" := by
  show Utf16.encode ('{' :: (commaSep (plainMembers toString
    (sortByKey unitsLe (sortMembersBy unitsLe kvs))) ++ ['}'])) = _
  have hmember : ∀ p : String × Json ℤ, Utf16.encode (memberText toString (p.1, sortBy unitsLe p.2)) =
      Utf16.encode (Json.quote p.1) ++ ascii ":" ++ walletText p.2 := fun p => by
    unfold memberText
    rw [Utf16.encode_append, Utf16.encode_cons, List.append_assoc]
    rfl
  rw [plainMembers_eq, sortMembersBy_eq, sortByKey_map, sortByKey_map, Utf16.encode_cons,
    Utf16.encode_append, encode_commaSep, List.map_map, List.map_map, List.map_map,
    List.append_assoc]
  refine congrArg (ascii "\x7b" ++ Web.join · ++ ascii "\x7d") (List.map_congr_left fun p _ => ?_)
  exact hmember p

/-- An integer that every language represents. -/
def IsSafe (n : ℤ) : Prop := |n| ≤ 2 ^ 53 - 1

/-- The texts of elements that all have a text. -/
lemma Android.elementTexts_eq {f : Json ℤ → List ℕ} {xs : List (Json ℤ)}
    (h : ∀ x ∈ xs, canonical x = some (f x)) : elementTexts xs = some (xs.map f) := by
  induction xs with
  | nil => rfl
  | cons x xs ih =>
    rw [elementTexts, h x List.mem_cons_self, ih fun y hy => h y (List.mem_cons_of_mem _ hy)]
    rfl

/-- The texts of members that all have a text. -/
lemma Android.memberTexts_eq {f : Json ℤ → List ℕ} {kvs : List (String × Json ℤ)}
    (h : ∀ p ∈ kvs, canonical p.2 = some (f p.2)) :
    memberTexts kvs = some (kvs.map fun p => (p.1, f p.2)) := by
  induction kvs with
  | nil => rfl
  | cons p kvs ih =>
    rw [memberTexts, h p List.mem_cons_self, ih fun q hq => h q (List.mem_cons_of_mem _ hq)]
    rfl

lemma Web.elementTexts_eq (js : JsLib) (xs : List (Json ℤ)) :
    elementTexts js xs = xs.map (canonical js) := by
  induction xs with
  | nil => rfl
  | cons x xs ih => rw [elementTexts, ih, List.map_cons]

lemma Web.memberTexts_eq (js : JsLib) (kvs : List (String × Json ℤ)) :
    memberTexts js kvs = kvs.map fun p => (p.1, canonical js p.2) := by
  induction kvs with
  | nil => rfl
  | cons p kvs ih => rw [memberTexts, ih, List.map_cons]

/-- **The text of the Android wallet.** -/
lemma Android.canonical_eq {v : Json ℤ} (h : v.EveryNumber IsSafe) :
    canonical v = some (walletText v) := by
  induction v using Json.induction with
  | null => rfl
  | bool b => cases b <;> rfl
  | num n =>
    have hsafe : |n| ≤ 2 ^ 53 - 1 := h
    rw [abs_le] at hsafe
    rw [canonical, if_pos (by omega), ascii_toString]
    rfl
  | str s => exact congrArg some (quote_eq s)
  | arr xs ih =>
    rw [everyNumber_arr] at h
    rw [canonical, elementTexts_eq fun x hx => ih x hx (h x hx), Option.map_some, arrayText_eq,
      walletText_arr]
  | obj kvs ih =>
    rw [everyNumber_obj] at h
    rw [canonical, memberTexts_eq fun p hp => ih p hp (h p hp), Option.map_some, objectText_eq,
      walletText_obj]
    unfold memberText
    simp only [quote_eq]

/-- **The text of the web wallet.** -/
lemma Web.canonical_eq (js : JsLib) {v : Json ℤ} (h : v.EveryNumber IsSafe) :
    canonical js v = walletText v := by
  induction v using Json.induction with
  | null => rfl
  | bool b => cases b <;> rfl
  | num n =>
    rw [canonical, js.numberText_safe n h, ascii_toString]
    rfl
  | str s => exact stringify_eq s
  | arr xs ih =>
    rw [everyNumber_arr] at h
    rw [canonical, elementTexts_eq, List.map_congr_left fun x hx => ih x hx (h x hx),
      walletText_arr]
  | obj kvs ih =>
    rw [everyNumber_obj] at h
    have htexts : memberTexts js kvs = kvs.map fun p => (p.1, walletText p.2) := by
      rw [memberTexts_eq]
      exact List.map_congr_left fun p hp => congrArg (p.1, ·) (ih p hp (h p hp))
    rw [canonical, htexts, walletText_obj]
    simp only [stringify_eq]

/-! ## Agreement -/

/-- Keys in one order by code points and by units: where two of them first differ, it is not by a
character at the end of the basic plane and one outside of it. -/
def SortsAlike (keys : List String) : Prop :=
  ∀ k ∈ keys, ∀ l ∈ keys, ¬Utf16.Clash k.toList l.toList

/-- **The three encoders agree** exactly on values whose objects sort alike. -/
theorem encoders_agree_iff (py : PyLib ℤ) (js : JsLib) (v : Json ℤ) (hkeys : v.DistinctKeys)
    (hnumbers : v.EveryNumber IsSafe) :
    (Android.canonicalBytes v = some (canonicalJson py v) ∧
      Web.canonicalBytes js v = canonicalJson py v) ↔ v.EveryObject SortsAlike := by
  have hnumber : py.numberText = toString := funext py.numberText_ofInt
  have hinj : Function.Injective (plainText (toString : ℤ → String)) := fun _ _ =>
    plainText_inj numerals_toString
  have hbytes : canonicalJson py v = encodeUtf8 (plainText toString (sortBy (· ≤ ·) v)) := by
    unfold canonicalJson
    rw [hnumber, canonicalText_eq]
  have hsame : encodeUtf8 (plainText toString (sortBy unitsLe v)) = canonicalJson py v ↔
      v.EveryObject SortsAlike := by
    have hkeysAlike : (fun keys : List String => ∀ k ∈ keys, ∀ l ∈ keys, k ≤ l ↔ unitsLe k l) =
        SortsAlike := by
      refine funext fun keys => propext (forall₂_congr fun k _ => forall₂_congr fun l _ => ?_)
      rw [String.le_iff_toList_le]
      exact Utf16.le_iff_encode_le_iff k.toList l.toList
    rw [hbytes, encodeUtf8_injective.eq_iff, hinj.eq_iff, eq_comm,
      sortBy_eq_sortBy_iff_everyObject hkeys, hkeysAlike]
  unfold Android.canonicalBytes Web.canonicalBytes
  rw [Android.canonical_eq hnumbers, Web.canonical_eq js hnumbers, Option.map_some, walletText,
    Utf16.decode_encode, Utf16.decode_encode, Option.some.injEq, and_self]
  exact hsame

/-- JavaScript numbers that represent integers exactly. -/
def exactJs : JsLib := ⟨toString, fun _ _ => rfl⟩

/-- The three encoders agree on the parameters of an offer. -/
theorem encoders_agree_offer :
    Android.canonicalBytes (.obj [("value", .num 7), ("sender", .str "alice")]) =
        some (canonicalJson Ledger.integerLib (.obj [("value", .num 7), ("sender", .str "alice")])) ∧
      Web.canonicalBytes exactJs (.obj [("value", .num 7), ("sender", .str "alice")]) =
        canonicalJson Ledger.integerLib (.obj [("value", .num 7), ("sender", .str "alice")]) :=
  (encoders_agree_iff Ledger.integerLib exactJs
    (.obj [("value", .num 7), ("sender", .str "alice")])
    (by simp [DistinctKeys, EveryObject, Everywhere, EverywhereInMembers])
    (by simp [EveryNumber, IsSafe, Everywhere, EverywhereInMembers])).mpr
    (by simp [EveryObject, SortsAlike, Utf16.Clash, Everywhere, EverywhereInMembers])

/-- A document with two keys that sort differently: nodes put the private-use character first, the
wallets the other one. -/
theorem encoders_disagree : ∃ v : Json ℤ, v.DistinctKeys ∧ v.EveryNumber IsSafe ∧
    Android.canonicalBytes v ≠ some (canonicalJson Ledger.integerLib v) ∧
    Web.canonicalBytes exactJs v ≠ canonicalJson Ledger.integerLib v :=
  ⟨.obj [("\uE000", .num 1), ("😀", .num 2)],
    by simp [DistinctKeys, EveryObject, Everywhere, EverywhereInMembers],
    by simp [EveryNumber, IsSafe, Everywhere, EverywhereInMembers],
    by decide +kernel, by decide +kernel⟩

end SplitChain
