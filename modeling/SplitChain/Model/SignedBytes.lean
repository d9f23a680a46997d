import SplitChain.Model.Runs
import SplitChain.Model.Signing
import SplitChain.Python.Canonical

set_option relaxedAutoImplicit false
set_option autoImplicit false

/-!
# Signed and hashed bytes identify their meaning

What a node hashes is a domain, a separator and the canonical bytes of a value; what it signs is the
canonical bytes of a document. Equal bytes have one domain and one value, up to the order of the
members of objects, and the three kinds of signed documents have no bytes in common, whatever is
written into their fields.

## Main definitions

* `SplitChain.SignedMessage` — the three kinds of signed documents, with arbitrary fields.

## Main results

* `SplitChain.canonicalJson_eq_iff` — equal canonical bytes mean equal values.
* `SplitChain.canonicalJson_identifies` — the same for hashed bytes and for signed documents.
-/

namespace SplitChain

open Json PyNumber

/-! ## Values -/

/-- **Canonical bytes are equal** exactly when the values are equal up to the order of members. -/
lemma canonicalJson_eq_iff (py : PyLib ℤ) {v w : Json ℤ} (hkeys : v.DistinctKeys) :
    canonicalJson py v = canonicalJson py w ↔ v.SameUpToKeyOrder w := by
  have hnumber : py.numberText = toString := funext py.numberText_ofInt
  unfold canonicalJson
  have hinj : Function.Injective (plainText (toString : ℤ → String)) := fun _ _ =>
    plainText_inj numerals_toString
  rw [hnumber, encodeUtf8_injective.eq_iff, canonicalText_eq, canonicalText_eq, hinj.eq_iff,
    sortBy_eq_sortBy_iff hkeys]

/-! ## Domains -/

/-- A hash domain that can be encoded: ASCII without the separator. -/
def IsDomainText (domain : String) : Prop := ∀ c ∈ domain.toList, c.toNat < 128 ∧ c ≠ '\x00'

/-- The bytes of a domain have no zero. -/
lemma ne_zero_of_mem_encodeUtf8 {domain : String} (h : IsDomainText domain) :
    ∀ byte ∈ encodeUtf8 domain.toList, byte ≠ 0 := by
  intro byte hbyte
  obtain ⟨c, hc, hbyte⟩ := List.mem_flatMap.mp hbyte
  obtain ⟨hascii, hnul⟩ := h c hc
  have hsingle : String.utf8EncodeChar c = [UInt8.ofNat c.toNat] :=
    if_pos (Nat.lt_succ_iff.mp hascii)
  rw [hsingle, List.mem_singleton] at hbyte
  rw [hbyte]
  intro hzero
  have hnat : c.toNat % 256 = 0 := congrArg UInt8.toNat hzero
  exact hnul (Char.toNat_inj.mp (by change c.toNat = 0; omega))

/-- Bytes without a zero end at the separator. -/
lemma append_zero_inj {xs ys r r' : List UInt8} (hxs : ∀ x ∈ xs, x ≠ 0) (hys : ∀ y ∈ ys, y ≠ 0)
    (h : xs ++ 0 :: r = ys ++ 0 :: r') : xs = ys ∧ r = r' := by
  have htake : ∀ {zs t : List UInt8}, (∀ z ∈ zs, z ≠ 0) →
      (zs ++ 0 :: t).takeWhile (· ≠ 0) = zs := fun hzs => by
    rw [List.takeWhile_append_of_pos fun z hz => decide_eq_true (hzs z hz),
      List.takeWhile_cons_of_neg (by decide), List.append_nil]
  have hfront : xs = ys := (htake hxs).symm.trans (h ▸ htake hys)
  subst hfront
  exact ⟨rfl, List.cons_injective (List.append_cancel_left h)⟩

/-! ## Signed documents -/

variable {ν : Type} [PyNumber ν]

/-- The documents that nodes sign, with any values in their fields. -/
inductive SignedMessage (ν : Type) where
  /-- what `sign_heartbeat` signs -/
  | heartbeat (leader : String) (term tick nonce : Json ν)
  /-- what `vote` signs -/
  | vote (accused candidate committedNonce observedTick term voter : Json ν)
  /-- what `ReplicationAuthenticator.sign` signs -/
  | envelope (leader : String) (mutation nonce : Json ν)

/-- The kinds of signed documents. -/
inductive SignedMessage.Kind where
  | heartbeat | vote | envelope
deriving DecidableEq

/-- The kind of a document. -/
def SignedMessage.kind : SignedMessage ν → Kind
  | heartbeat .. => .heartbeat
  | vote .. => .vote
  | envelope .. => .envelope

/-- The signed part of a document. -/
def SignedMessage.payload : SignedMessage ν → Json ν
  | heartbeat leader term tick nonce =>
    .obj [("leader", .str leader), ("term", term), ("tick", tick), ("nonce", nonce)]
  | vote accused candidate committedNonce observedTick term voter =>
    .obj [("accused", accused), ("candidate", candidate), ("committed_nonce", committedNonce),
      ("observed_tick", observedTick), ("term", term), ("voter", voter)]
  | envelope leader mutation nonce =>
    .obj [("leader", .str leader), ("mutation", mutation), ("nonce", nonce)]

lemma Pulse.payload_eq (p : Pulse) : (p.payload : Json ν) = (SignedMessage.heartbeat p.leader.value
    (.num (ofInt p.term)) (.num (ofInt p.tick)) (.num (ofInt p.nonce))).payload := rfl

lemma Ballot.payload_eq (b : Ballot) : (b.payload : Json ν) = (SignedMessage.vote
    (.str b.accused.value) (.str b.candidate.value) (.num (ofInt b.committedNonce))
    (.num (ofInt b.observedTick)) (.num (ofInt b.term)) (.str b.voter.value)).payload := rfl

lemma envelopePayload_eq (leader : String) (nonce : ℤ) (mutation : Json ν) :
    envelopePayload leader nonce mutation =
      (SignedMessage.envelope leader mutation (.num (ofInt nonce))).payload := rfl

omit [PyNumber ν] in
/-- The front of the text of an object: its first member and its second key. -/
lemma exists_canonicalText_obj (number : ν → String) (kvs : List (String × Json ν))
    (p q : String × Json ν) (ms : List (String × Json ν))
    (h : sortByKey (· ≤ ·) kvs = p :: q :: ms) :
    ∃ r, (Json.obj kvs).canonicalText number = '{' :: (quote p.1 ++
      ':' :: (p.2.canonicalText number ++ ',' :: (quote q.1 ++ r))) := by
  have htexts : sortByKey (· ≤ ·) (memberTexts number kvs) =
      (p :: q :: ms).map fun p => (p.1, p.2.canonicalText number) := by
    rw [memberTexts_eq, sortByKey_map, h]
  obtain ⟨rest, hrest, -⟩ := commaSep_cons (quote q.1 ++ ':' :: q.2.canonicalText number)
    ((ms.map fun p => (p.1, p.2.canonicalText number)).map fun p => quote p.1 ++ ':' :: p.2) '}' []
  refine ⟨':' :: q.2.canonicalText number ++ rest, ?_⟩
  show '{' :: (commaSep ((sortByKey (· ≤ ·) (memberTexts number kvs)).map
    fun p => quote p.1 ++ ':' :: p.2) ++ ['}']) = _
  rw [htexts, List.map_cons, List.map_cons, List.map_cons, List.map_cons, commaSep,
    List.append_assoc, List.cons_append, hrest]
  simp only [List.append_assoc, List.cons_append]

/-- How the documents of a kind begin: with their first key, and if they share it, with the leader
and the second key. -/
def SignedMessage.Kind.front : Kind → String → List Char → List Char
  | heartbeat, leader, r =>
    '{' :: (quote "leader" ++ ':' :: (quote leader ++ ',' :: (quote "nonce" ++ r)))
  | vote, _, r => '{' :: (quote "accused" ++ r)
  | envelope, leader, r =>
    '{' :: (quote "leader" ++ ':' :: (quote leader ++ ',' :: (quote "mutation" ++ r)))

omit [PyNumber ν] in
/-- A document begins like its kind. -/
lemma SignedMessage.exists_front (number : ν → String) (m : SignedMessage ν) :
    ∃ leader r, m.payload.canonicalText number = m.kind.front leader r := by
  cases m with
  | heartbeat leader term tick nonce =>
    exact ⟨leader, exists_canonicalText_obj number _ ("leader", .str leader) ("nonce", nonce)
      [("term", term), ("tick", tick)] (by simp [sortByKey])⟩
  | vote accused candidate committedNonce observedTick term voter =>
    obtain ⟨r, hr⟩ := exists_canonicalText_obj number
      [("accused", accused), ("candidate", candidate), ("committed_nonce", committedNonce),
        ("observed_tick", observedTick), ("term", term), ("voter", voter)]
      ("accused", accused) ("candidate", candidate) [("committed_nonce", committedNonce),
        ("observed_tick", observedTick), ("term", term), ("voter", voter)] (by simp [sortByKey])
    exact ⟨"", _, hr⟩
  | envelope leader mutation nonce =>
    exact ⟨leader, exists_canonicalText_obj number _ ("leader", .str leader) ("mutation", mutation)
      [("nonce", nonce)] (by simp [sortByKey])⟩

/-- Texts with different first keys differ. -/
lemma ne_of_first_key {k l : String} (hkey : k ≠ l) (r r' : List Char) :
    '{' :: (quote k ++ r) ≠ '{' :: (quote l ++ r') := fun h =>
  hkey (quote_inj (List.cons_injective h)).1

/-- Texts with different keys behind the leader differ. -/
lemma ne_of_second_key {k l : String} (hkey : k ≠ l) (leader leader' : String) (r r' : List Char) :
    '{' :: (quote "leader" ++ ':' :: (quote leader ++ ',' :: (quote k ++ r))) ≠
      '{' :: (quote "leader" ++ ':' :: (quote leader' ++ ',' :: (quote l ++ r'))) := by
  intro h
  have hvalue := (quote_inj (List.cons_injective h)).2
  have hrest := (quote_inj (List.cons_injective hvalue)).2
  exact hkey (quote_inj (List.cons_injective hrest)).1

/-- Different kinds begin differently. -/
lemma SignedMessage.Kind.front_inj {k k' : Kind} {leader leader' : String} {r r' : List Char}
    (h : k.front leader r = k'.front leader' r') : k = k' := by
  cases k <;> cases k' <;> first
    | rfl
    | exact absurd h (ne_of_first_key (by decide) _ _)
    | exact absurd h (ne_of_second_key (by decide) _ _ _ _)

/-- **Documents of two kinds have no bytes in common.**

**Proof sketch.** Votes begin with another key. Heartbeats and envelopes share the first key; their
leaders end at the same quote, and the next key differs. -/
theorem SignedMessage.kind_eq_of_canonicalJson_eq (py : PyLib ν) {m m' : SignedMessage ν}
    (h : canonicalJson py m.payload = canonicalJson py m'.payload) : m.kind = m'.kind := by
  obtain ⟨leader, r, hr⟩ := m.exists_front py.numberText
  obtain ⟨leader', r', hr'⟩ := m'.exists_front py.numberText
  exact Kind.front_inj (hr.symm.trans ((encodeUtf8_injective h).trans hr'))

/-- **Signed and hashed bytes identify their meaning.** Canonical bytes are equal exactly for values
that are equal up to the order of members; the bytes that are hashed for a value in a domain, as in
`digestInput`, tell the domain and the value; and the three kinds of signed documents have no bytes
in common, over any numbers and for any values of their fields. -/
theorem canonicalJson_identifies (py : PyLib ℤ) :
    (∀ v w : Json ℤ, v.DistinctKeys → w.DistinctKeys →
      (canonicalJson py v = canonicalJson py w ↔ v.SameUpToKeyOrder w)) ∧
    (∀ (d e : String) (v w : Json ℤ), IsDomainText d → IsDomainText e → v.DistinctKeys →
      w.DistinctKeys → encodeUtf8 d.toList ++ 0 :: canonicalJson py v =
        encodeUtf8 e.toList ++ 0 :: canonicalJson py w → d = e ∧ v.SameUpToKeyOrder w) ∧
    ∀ (ν : Type) [PyNumber ν] (lib : PyLib ν) (m m' : SignedMessage ν), m.kind ≠ m'.kind →
      canonicalJson lib m.payload ≠ canonicalJson lib m'.payload := by
  refine ⟨fun v w hv _ => canonicalJson_eq_iff py hv, ?_, ?_⟩
  · intro d e v w hd he hv _ h
    obtain ⟨hdomain, hvalue⟩ := append_zero_inj (ne_zero_of_mem_encodeUtf8 hd)
      (ne_zero_of_mem_encodeUtf8 he) h
    exact ⟨String.toList_injective (encodeUtf8_injective hdomain),
      (canonicalJson_eq_iff py hv).mp hvalue⟩
  · exact fun ν _ lib m m' hkind h => hkind (SignedMessage.kind_eq_of_canonicalJson_eq lib h)

/-- Two orders of the members of one document. -/
theorem canonicalJson_identifies_members :
    canonicalJson Ledger.integerLib (.obj [("nonce", .num 1), ("leader", .str "primary")]) =
      canonicalJson Ledger.integerLib (.obj [("leader", .str "primary"), ("nonce", .num 1)]) :=
  ((canonicalJson_identifies Ledger.integerLib).1
    (.obj [("nonce", .num 1), ("leader", .str "primary")])
    (.obj [("leader", .str "primary"), ("nonce", .num 1)])
    (by simp [DistinctKeys, EveryObject, Everywhere, EverywhereInMembers])
    (by simp [DistinctKeys, EveryObject, Everywhere, EverywhereInMembers])).mpr
    (.obj (.swap _ _ []) rfl (.cons (.num 1) (.cons (.str "primary") .nil)))

end SplitChain
