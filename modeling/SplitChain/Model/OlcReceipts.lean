import SplitChain.Library.Quorum
import SplitChain.Model.OlcLifecycle

set_option relaxedAutoImplicit false
set_option autoImplicit false

/-!
# Receipts

The verifier of published receipts, `splitchain.olc_receipts.verify_document`. It is given whatever
a server has sent: any decoded document. A receipt with verifier keys is checked against the votes
under these keys; a receipt without takes the legacy path, where a single attestation is checked
against the key in the document. The roster of keys can be pinned by the digest of its canonical
bytes. The texts of its keys are compared as texts, so a roster can spell one key in several ways.

## Main definitions

* `SplitChain.verifyVote`, `SplitChain.verifyQuorum`, `SplitChain.verifyLegacy` — the checks.
* `SplitChain.verifyDocument` — the number of verified receipts, and that of the others.
* `SplitChain.Carries` — two votes of the pinned roster, under different keys.
* `SplitChain.TakesLegacyPath`, `SplitChain.OneKeyAccepts` — the receipts that need not carry them.

## Main results

* `SplitChain.carries_of_verifyQuorum` — what is verified by a quorum carries two votes, unless one
  key accepts it.
* `SplitChain.pinned_roster_iff` — when all verified receipts carry two votes.
-/

namespace SplitChain

open Raise

open PyNumber (ofInt)

open OlcGateway (statementFields)

variable {ν : Type} [PyNumber ν] (py : PyLib ν) (ed : Ed25519)

/-! ## The checks -/

/-- A vote: whether it accepts. -/
def verifyVote (receipt : Json ν) (roster : Dict String (Json ν)) (verifierId : String)
    (attestation : Json ν) : Except PyError Bool := do
  let message := "quorum vote does not match the job"
  let statement ← attestation.field "statement"
  require (Json.isSetOf (← Json.toSet (← statement.iter)) statementFields) (.value message)
  require ((← statement.field "verifier_id").eqv (.str verifierId)) (.value message)
  require ((← statement.field "job_id").eqv (← receipt.field "job_id")) (.value message)
  require ((← statement.field "node_id").eqv (← receipt.field "node_id")) (.value message)
  let digest ← receipt.field "result_digest"
  require ((← statement.field "result_digest").eqv digest) (.value message)
  let accepted ← statement.field "accepted"
  require (accepted.isBool && !(accepted.truthy && !digest.eqv (.str expectedDigest)))
    (.value message)
  let publicKey ← loadKey ed (← orRaise (roster.get? verifierId) .key)
  let signature ← bytesFromHex (← attestation.field "signature")
  require (ed.verifies publicKey signature (canonicalJson py statement)) .invalidSignature
  return accepted.truthy

/-- The state of a receipt, compared with its votes: whether it is verified. -/
def verifyState (state : Json ν) (approvals denials votes : ℕ) : Except PyError Bool := do
  let message := "job state differs from signed quorum"
  require (!(state.eqv (.str "quorum_verified") && approvals < 2 ||
    state.eqv (.str "disputed") && denials < 2 ||
    state.eqv (.str "awaiting_quorum") && (2 ≤ approvals || 2 ≤ denials))) (.value message)
  require state.hashable .type
  require (!(["queued", "leased", "rejected"].any (fun name => state.eqv (.str name)) && 0 < votes))
    (.value message)
  require (["quorum_verified", "disputed", "awaiting_quorum", "queued", "leased", "rejected"].any
    fun name => state.eqv (.str name)) (.value message)
  return state.eqv (.str "quorum_verified")

/-- A receipt with verifier keys: whether it is verified. -/
def verifyQuorum (pinnedRoster : Option String) (receipt roster : Json ν) :
    Except PyError Bool := do
  require (Json.isSetOf (← Json.toSet (← roster.iter)) verifierIds) (.value "invalid quorum roster")
  let keys ← orRaise roster.dict? .attribute
  require ((← Json.toSet keys.values).length == 3) (.value "invalid quorum roster")
  require ((← receipt.field "quorum_required").eqv (.num (ofInt 2))) (.value "invalid quorum roster")
  require (pinnedRoster.all fun pinned =>
    pinned == "" || Sha256.hexDigest (canonicalJson py roster) == pinned)
    (.value "verifier roster differs from pinned fingerprint")
  let attestations ← orRaise (← receipt.field "attestations").dict? (.value "invalid verifier votes")
  require (attestations.keys.all (· ∈ keys.keys)) (.value "invalid verifier votes")
  let votes ← attestations.entries.mapM fun p => verifyVote py ed receipt keys p.1 p.2
  verifyState (← receipt.field "state") (votes.count true) (votes.count false) attestations.size

/-- A receipt without verifier keys: it is verified if it has an attestation. -/
def verifyLegacy (keyHex receipt : Json ν) : Except PyError Bool := do
  match ← receipt.get? "attestation" with
  | .null => return false
  | attestation =>
    let message := "verifier statement does not match the job receipt"
    require (!keyHex.eqv .null) (.value "missing legacy verifier key")
    let publicKey ← loadKey ed keyHex
    let statement ← attestation.field "statement"
    require (Json.isSetOf (← Json.toSet (← statement.iter))
      ["job_id", "node_id", "result_digest", "accepted"]) (.value message)
    require ((← statement.field "job_id").eqv (← receipt.field "job_id")) (.value message)
    require ((← statement.field "node_id").eqv (← receipt.field "node_id")) (.value message)
    let digest ← receipt.field "result_digest"
    require ((← statement.field "result_digest").eqv digest) (.value message)
    let accepted ← statement.field "accepted"
    require (accepted.isBool && accepted.truthy == digest.eqv (.str expectedDigest)) (.value message)
    let signature ← bytesFromHex (← attestation.field "signature")
    require (ed.verifies publicKey signature (canonicalJson py statement)) .invalidSignature
    return true

/-- A receipt: whether it is verified. -/
def verifyReceipt (keyHex : Json ν) (pinnedRoster : Option String) (receipt : Json ν) :
    Except PyError Bool := do
  match ← receipt.get? "verifier_keys" with
  | .null => verifyLegacy py ed keyHex receipt
  | roster => verifyQuorum py ed pinnedRoster receipt roster

/-- `verify_document` -/
def verifyDocument (document : Json ν) (pinnedKey pinnedRoster : Option String) :
    Except PyError (ℕ × ℕ) := do
  require ((← document.get? "schema").eqv (.str "olc-receipts/v1"))
    (.value "unexpected receipt schema")
  let keyHex ← document.get? "verifier_public_key"
  require (pinnedKey.all fun pinned => keyHex.eqv (.str pinned))
    (.value "legacy verifier public key differs from pinned key")
  let receipts ← (← document.field "receipts").iter
  let verdicts ← receipts.mapM (verifyReceipt py ed keyHex pinnedRoster)
  return (verdicts.count true, verdicts.count false)

/-! ## What a verified receipt carries -/

/-- Two values are there and equal. -/
def SameField (a b : Json ν) (name : String) : Prop :=
  ∃ x y, a.field name = .ok x ∧ b.field name = .ok y ∧ x.eqv y = true

/-- **A vote that accepts a receipt**: a statement over exactly its job, its worker and its result,
the expected one, with a signature that verifies under the key that a text spells. -/
structure Accepting (receipt : Json ν) (verifierId text : String) (key : List UInt8)
    (attestation statement : Json ν) : Prop where
  stated : attestation.field "statement" = .ok statement
  jobId : SameField statement receipt "job_id"
  nodeId : SameField statement receipt "node_id"
  digest : statement.field "result_digest" = .ok (.str expectedDigest) ∧
    receipt.field "result_digest" = .ok (.str expectedDigest)
  accepted : statement.field "accepted" = .ok (.bool true)
  verifierId : statement.field "verifier_id" = .ok (.str verifierId)
  spelled : loadKey ed (.str text : Json ν) = .ok key
  signed : ∃ hex signature, attestation.field "signature" = .ok hex ∧
    bytesFromHex hex = .ok signature ∧ ed.verifies key signature (canonicalJson py statement) = true

/-- A receipt names a roster of keys, and has attestations. -/
def Names (receipt roster : Json ν) (keys attestations : Dict String (Json ν)) : Prop :=
  receipt.field "verifier_keys" = .ok roster ∧ roster.dict? = some keys ∧
    (receipt.field "attestations").map Json.dict? = .ok (some attestations)

/-- **A receipt carries two votes of the pinned roster**: it names the roster, which has the pinned
digest, and two verifiers with different keys in the roster accept it. Keys are compared as they are
decoded. -/
def Carries (pinned : String) (receipt : Json ν) : Prop :=
  ∃ roster keys attestations, Names receipt roster keys attestations ∧
    Sha256.hexDigest (canonicalJson py roster) = pinned ∧
    ∃ v₁ v₂ text₁ text₂ key₁ key₂ a₁ a₂ s₁ s₂, v₁ ≠ v₂ ∧ key₁ ≠ key₂ ∧
      keys.get? v₁ = some (.str text₁) ∧ keys.get? v₂ = some (.str text₂) ∧
      attestations.get? v₁ = some a₁ ∧ attestations.get? v₂ = some a₂ ∧
      Accepting py ed receipt v₁ text₁ key₁ a₁ s₁ ∧ Accepting py ed receipt v₂ text₂ key₂ a₂ s₂

/-- **One key accepts a receipt**: it is in the state of a receipt with a quorum, and the verifiers
whose votes accept it have one key in its roster, however the roster spells it. -/
def OneKeyAccepts (receipt : Json ν) : Prop :=
  receipt.field "state" = .ok (.str "quorum_verified") ∧
    ∃ roster keys attestations key, Names receipt roster keys attestations ∧
      ∀ v a s, attestations.get? v = some a → a.field "statement" = .ok s →
        s.field "accepted" = .ok (.bool true) →
        ∃ text, keys.get? v = some text ∧ loadKey ed text = .ok key

variable {py ed}

omit [PyNumber ν] in
/-- A key that loads is a text. -/
lemma of_loadKey {text : Json ν} {key : List UInt8} (h : loadKey ed text = .ok key) :
    ∃ s, text = .str s := by
  simp only [loadKey, bind_eq_ok] at h
  obtain ⟨bytes, hbytes, -⟩ := h
  cases text with
  | str s => exact ⟨s, rfl⟩
  | _ => cases hbytes

/-- A vote that has been verified and accepts. -/
lemma accepting_of_verifyVote {receipt attestation : Json ν} {keys : Dict String (Json ν)}
    {verifierId : String} (h : verifyVote py ed receipt keys verifierId attestation = .ok true) :
    ∃ text key statement, keys.get? verifierId = some (.str text) ∧
      Accepting py ed receipt verifierId text key attestation statement := by
  simp only [verifyVote, bind_eq_ok, require_eq_ok, orRaise_eq_ok, pure_eq_ok, exists_const] at h
  obtain ⟨statement, hstated, names, -, named, -, -, voter, hvoter, hverifierId, id, hid, id', hid',
    hids, node, hnode, node', hnode', hnodes, digest, hdigest, digest', hdigest', hdigests,
    accepted, haccepted, hvalid, value, hvalue, key, hkey, hex, hhex, signature, hsignature, hverifies,
    htrue⟩ := h
  simp only [htrue, Bool.true_and, Bool.not_not, Bool.and_eq_true, Json.eqv_str_right,
    Json.isBool_iff] at hvalid hverifierId
  obtain ⟨⟨b, rfl⟩, rfl⟩ := hvalid
  obtain rfl : b = true := htrue
  rw [Json.eqv_str_right] at hdigests
  obtain ⟨text, rfl⟩ := of_loadKey hkey
  exact ⟨text, key, statement, hvalue, hstated, ⟨id, id', hid, hid', hids⟩,
    ⟨node, node', hnode, hnode', hnodes⟩, ⟨hdigests ▸ hdigest', hdigest⟩, haccepted,
    hverifierId ▸ hvoter, hkey, hex, signature, hhex, hsignature, hverifies⟩

/-- A vote that has been verified accepts if its statement says so. -/
lemma true_of_verifyVote {receipt attestation statement : Json ν} {keys : Dict String (Json ν)}
    {verifierId : String} {b : Bool}
    (h : verifyVote py ed receipt keys verifierId attestation = .ok b)
    (hstated : attestation.field "statement" = .ok statement)
    (haccepted : statement.field "accepted" = .ok (.bool true)) : b = true := by
  simp only [verifyVote, bind_eq_ok, require_eq_ok, orRaise_eq_ok, pure_eq_ok, exists_const] at h
  obtain ⟨s, hs, names, -, named, -, -, voter, -, -, id, -, id', -, -, node, -, node', -, -, digest,
    -, digest', -, -, accepted, haccepted', -, value, -, key, -, hex, -, signature, -, -, htrue⟩ := h
  obtain rfl := Except.ok.inj (hstated.symm.trans hs)
  obtain rfl := Except.ok.inj (haccepted.symm.trans haccepted')
  exact htrue.symm

/-- A receipt is verified in the state of a receipt with a quorum, and then two votes accept it. -/
lemma of_verifyState {state : Json ν} {approvals denials votes : ℕ} {b : Bool}
    (h : verifyState state approvals denials votes = .ok b) :
    (b = true ↔ state = .str "quorum_verified") ∧ (b = true → 2 ≤ approvals) := by
  simp only [verifyState, bind_eq_ok, require_eq_ok, pure_eq_ok, exists_const] at h
  obtain ⟨hdecided, -, -, -, hverified⟩ := h
  refine ⟨by rw [← hverified, Json.eqv_str_right], fun htrue => ?_⟩
  by_contra hfew
  simp [hverified, htrue, not_le.mp hfew] at hdecided

/-- What a receipt that names keys has been checked for. -/
lemma of_verifyQuorum {pinned : String} (hpinned : pinned ≠ "") {receipt roster : Json ν} {b : Bool}
    (hroster : receipt.field "verifier_keys" = .ok roster)
    (h : verifyQuorum py ed (some pinned) receipt roster = .ok b) :
    ∃ keys attestations votes, Names receipt roster keys attestations ∧
      Sha256.hexDigest (canonicalJson py roster) = pinned ∧
      List.Forall₂ (fun p b => verifyVote py ed receipt keys p.1 p.2 = .ok b)
        attestations.entries votes ∧
      (b = true ↔ receipt.field "state" = .ok (.str "quorum_verified")) ∧
      (b = true → 2 ≤ votes.count true) := by
  simp only [verifyQuorum, bind_eq_ok, require_eq_ok, orRaise_eq_ok, exists_const] at h
  obtain ⟨-, -, -, -, -, keys, hkeys, -, -, -, -, -, -, hpin, value, hvalue, attestations,
    hattestations, -, votes, hvotes, state, hstate, hverified⟩ := h
  obtain ⟨hiff, htwo⟩ := of_verifyState hverified
  refine ⟨keys, attestations, votes, ⟨hroster, hkeys, ?_⟩, by simpa [hpinned] using hpin,
    mapM_eq_ok.mp hvotes, ?_, htwo⟩
  · rw [hvalue, ← hattestations]
    rfl
  · rw [hiff, hstate, Except.ok.injEq]

/-- **A receipt that is verified by a quorum** carries two votes, unless one key accepts it.

**Proof sketch.** Two votes accept the receipt, so there is one. If all verifiers whose votes accept
had its key, one key would accept the receipt. The vote of one that has another key is the
second. -/
theorem carries_of_verifyQuorum {pinned : String} (hpinned : pinned ≠ "") {receipt roster : Json ν}
    (hroster : receipt.field "verifier_keys" = .ok roster) (hkeys : ¬OneKeyAccepts ed receipt)
    (h : verifyQuorum py ed (some pinned) receipt roster = .ok true) :
    Carries py ed pinned receipt := by
  obtain ⟨keys, attestations, votes, hnames, hpin, hvotes, hstate, htwo⟩ :=
    of_verifyQuorum hpinned hroster h
  obtain ⟨⟨v₁, a₁⟩, hmem₁, haccepts₁⟩ :=
    Quorum.exists_of_count hvotes (one_le_two.trans (htwo rfl))
  obtain ⟨text₁, key₁, s₁, hkey₁, haccepting₁⟩ := accepting_of_verifyVote haccepts₁
  by_contra hnone
  refine hkeys ⟨hstate.mp rfl, roster, keys, attestations, key₁, hnames, ?_⟩
  intro v₂ a₂ s₂ ha₂ hstated haccepted
  obtain ⟨b, hb⟩ : ∃ b, verifyVote py ed receipt keys v₂ a₂ = .ok b :=
    exists_of_mapM_eq_ok (mapM_eq_ok.mpr hvotes) (Dict.get?_eq_some_iff.mp ha₂)
  obtain rfl := true_of_verifyVote hb hstated haccepted
  obtain ⟨text₂, key₂, s₂', hkey₂, haccepting₂⟩ := accepting_of_verifyVote hb
  refine ⟨.str text₂, hkey₂, ?_⟩
  by_contra hother
  have hne : key₁ ≠ key₂ := by
    rintro rfl
    exact hother haccepting₂.spelled
  have hv : v₁ ≠ v₂ := by
    rintro rfl
    rw [hkey₁, Option.some.injEq, Json.str.injEq] at hkey₂
    subst hkey₂
    exact hne (Except.ok.inj (haccepting₁.spelled.symm.trans haccepting₂.spelled))
  exact hnone ⟨roster, keys, attestations, hnames, hpin, v₁, v₂, text₁, text₂, key₁, key₂, a₁, a₂,
    s₁, s₂', hv, hne, hkey₁, hkey₂, Dict.get?_eq_some_iff.mpr hmem₁, ha₂, haccepting₁, haccepting₂⟩

omit [PyNumber ν] in
/-- A receipt names one roster, and has one dictionary of attestations. -/
lemma Names.unique {receipt roster roster' : Json ν}
    {keys keys' attestations attestations' : Dict String (Json ν)}
    (h : Names receipt roster keys attestations) (h' : Names receipt roster' keys' attestations') :
    keys = keys' ∧ attestations = attestations' := by
  obtain ⟨hroster, hkeys, hattestations⟩ := h
  obtain ⟨hroster', hkeys', hattestations'⟩ := h'
  obtain rfl := Except.ok.inj (hroster.symm.trans hroster')
  exact ⟨Option.some.inj (hkeys.symm.trans hkeys'),
    Option.some.inj (Except.ok.inj (hattestations.symm.trans hattestations'))⟩

/-- A receipt that one key accepts carries no two votes. -/
lemma not_carries_of_oneKeyAccepts {pinned : String} {receipt : Json ν}
    (h : OneKeyAccepts ed receipt) : ¬Carries py ed pinned receipt := by
  rintro ⟨roster, keys, attestations, hnames, -, v₁, v₂, text₁, text₂, key₁, key₂, a₁, a₂, s₁, s₂,
    -, hne, hkey₁, hkey₂, ha₁, ha₂, haccepting₁, haccepting₂⟩
  obtain ⟨-, roster', keys', attestations', key, hnames', hone⟩ := h
  obtain ⟨rfl, rfl⟩ := hnames.unique hnames'
  have hsame : ∀ {v text k a s}, keys.get? v = some (.str text) → attestations.get? v = some a →
      Accepting py ed receipt v text k a s → k = key := by
    intro v text k a s hkey ha haccepting
    obtain ⟨text', htext, hload⟩ := hone v a s ha haccepting.stated haccepting.accepted
    obtain rfl := Option.some.inj (hkey.symm.trans htext)
    exact Except.ok.inj (haccepting.spelled.symm.trans hload)
  exact hne ((hsame hkey₁ ha₁ haccepting₁).trans (hsame hkey₂ ha₂ haccepting₂).symm)

/-! ## Documents -/

/-- A receipt that is decided by the attestation of a single verifier: it names no keys. -/
def TakesLegacyPath (receipt : Json ν) : Prop :=
  receipt.get? "verifier_keys" = .ok .null ∧ receipt.get? "attestation" ≠ .ok .null

/-- A receipt that takes the legacy path is verified if it is not refused. -/
lemma true_of_legacy {pinned : Option String} {keyHex r : Json ν} (h : TakesLegacyPath r) {b : Bool}
    (hb : verifyReceipt py ed keyHex pinned r = .ok b) : b = true := by
  simp only [verifyReceipt, h.1, ok_bind, verifyLegacy, bind_eq_ok] at hb
  obtain ⟨attestation, hattestation, hb⟩ := hb
  split at hb
  · exact (h.2 hattestation).elim
  · simp only [bind_eq_ok, pure_eq_ok] at hb
    grind

/-- A receipt with a quorum state that names keys is verified if it is not refused. -/
lemma true_of_oneKeyAccepts {pinned : String} (hpinned : pinned ≠ "") {keyHex r : Json ν}
    (h : OneKeyAccepts ed r) {b : Bool} (hb : verifyReceipt py ed keyHex (some pinned) r = .ok b) :
    b = true := by
  obtain ⟨hstate, roster, keys, -, -, ⟨hroster, hkeys, -⟩, -⟩ := h
  simp only [verifyReceipt, Json.get?_of_field hroster, ok_bind] at hb
  split at hb
  · cases hkeys
  · obtain ⟨-, -, -, -, -, -, hiff, -⟩ := of_verifyQuorum hpinned hroster hb
    exact hiff.mpr hstate

/-- **What a pinned roster is worth.** Every receipt that is counted as verified carries two votes
of the pinned roster under different keys, if and only if no receipt of the document takes the
legacy path, and none is accepted under one key of its roster only.

**Proof sketch.** A receipt that names keys is verified by a quorum. A receipt that takes the legacy
path is counted as verified, whatever key the document names, and carries no votes, as it names no
roster. -/
theorem pinned_roster_iff (py : PyLib ν) (ed : Ed25519) (document : Json ν)
    (pinnedKey : Option String) (pinned : String) (hpinned : pinned ≠ "") (verified pending : ℕ)
    (h : verifyDocument py ed document pinnedKey (some pinned) = .ok (verified, pending)) :
    ∃ keyHex value receipts verdicts, document.get? "verifier_public_key" = .ok keyHex ∧
      document.field "receipts" = .ok value ∧ value.iter = .ok receipts ∧
      List.Forall₂ (fun r b => verifyReceipt py ed keyHex (some pinned) r = .ok b) receipts verdicts ∧
      verified = verdicts.count true ∧ pending = verdicts.count false ∧
      ((∀ r ∈ receipts, verifyReceipt py ed keyHex (some pinned) r = .ok true →
          Carries py ed pinned r) ↔
        ∀ r ∈ receipts, ¬TakesLegacyPath r ∧ ¬OneKeyAccepts ed r) := by
  simp only [verifyDocument, bind_eq_ok, require_eq_ok, pure_eq_ok, exists_const,
    Prod.mk.injEq] at h
  obtain ⟨-, -, -, keyHex, hkeyHex, -, value, hvalue, receipts, hreceipts, verdicts, hverdicts,
    hverified, hpending⟩ := h
  refine ⟨keyHex, value, receipts, verdicts, hkeyHex, hvalue, hreceipts, mapM_eq_ok.mp hverdicts,
    hverified.symm, hpending.symm, fun hcarries r hr => ?_, fun hno r hr htrue => ?_⟩
  · obtain ⟨b, hb⟩ := exists_of_mapM_eq_ok hverdicts hr
    refine ⟨fun hlegacy => ?_, fun hone => ?_⟩
    · obtain ⟨roster, keys, -, ⟨hroster, hkeys, -⟩, -⟩ :=
        hcarries r hr (true_of_legacy hlegacy hb ▸ hb)
      have hnull := hlegacy.1
      rw [Json.get?_of_field hroster, Except.ok.injEq] at hnull
      rw [hnull] at hkeys
      cases hkeys
    · exact not_carries_of_oneKeyAccepts hone
        (hcarries r hr (true_of_oneKeyAccepts hpinned hone hb ▸ hb))
  · simp only [verifyReceipt, bind_eq_ok] at htrue
    obtain ⟨roster, hroster, htrue⟩ := htrue
    split at htrue
    · have hnone : r.get? "attestation" = .ok .null := by
        by_contra hsome
        exact (hno r hr).1 ⟨hroster, hsome⟩
      simp only [verifyLegacy, hnone, ok_bind] at htrue
      cases htrue
    · exact carries_of_verifyQuorum hpinned (Json.field_of_get? hroster ‹_›) (hno r hr).2 htrue

/-! ## A receipt with votes, and one without -/

section Example

open OlcGateway

/-- A recorded vote. -/
def exampleVote (verifierId signature : String) : Json ℤ :=
  .obj [("statement", exampleStatement verifierId), ("signature", .str signature)]

/-- The receipt of a job that two verifiers have accepted. -/
def exampleReceipt : Json ℤ :=
  .obj [("job_id", .str exampleJobId), ("node_id", .str olcWorkerId),
    ("state", .str "quorum_verified"), ("result_digest", .str expectedDigest),
    ("attestations", .obj [("verifier-1", exampleVote "verifier-1" exampleSignature₁),
      ("verifier-2", exampleVote "verifier-2" exampleSignature₂)]),
    ("verifier_keys", .obj (exampleRoster.keys.mapVal Json.str).entries),
    ("quorum_required", .num 2)]

/-- The digest of the roster of the example. -/
def exampleRosterDigest : String :=
  "6264ca46160eb4a142e7107c1981c895454c321d2bc744a570461d54a03d35b3"

/-- A document with one receipt. -/
def exampleDocument (keyHex receipt : Json ℤ) : Json ℤ :=
  .obj [("schema", .str "olc-receipts/v1"), ("receipts", .arr [receipt]),
    ("verifier_public_key", keyHex)]

/-- The receipt of a job that two verifiers have accepted carries their votes. -/
theorem pinned_roster_accepted :
    Carries Ledger.integerLib exampleScheme exampleRosterDigest exampleReceipt := by
  have hreturns : verifyDocument Ledger.integerLib exampleScheme (exampleDocument .null exampleReceipt)
      none (some exampleRosterDigest) = .ok (1, 0) := by
    decide +kernel
  obtain ⟨keyHex, value, receipts, verdicts, -, hvalue, hreceipts, hverdicts, hverified, -, hiff⟩ :=
    pinned_roster_iff Ledger.integerLib exampleScheme (exampleDocument .null exampleReceipt) none
      exampleRosterDigest (by decide) 1 0 hreturns
  obtain rfl : .arr [exampleReceipt] = value := Except.ok.inj hvalue
  obtain rfl : [exampleReceipt] = receipts := Except.ok.inj hreceipts
  obtain ⟨b, bs, hb, hrest, rfl⟩ := List.forall₂_cons_left_iff.mp hverdicts
  obtain rfl := List.forall₂_nil_left_iff.mp hrest
  refine hiff.mpr (fun r hr => ?_) exampleReceipt (List.mem_singleton_self _) ?_
  · obtain rfl := List.mem_singleton.mp hr
    refine ⟨fun hlegacy => (by cases hlegacy.1), ?_⟩
    rintro ⟨-, roster, keys, attestations, key, hnames, hone⟩
    have hexample : Names exampleReceipt (.obj (exampleRoster.keys.mapVal Json.str).entries) _ _ :=
      ⟨rfl, rfl, rfl⟩
    obtain ⟨rfl, rfl⟩ := hexample.unique hnames
    obtain ⟨text₁, htext₁, hkey₁⟩ := hone "verifier-1" _ _ rfl rfl rfl
    obtain ⟨text₂, htext₂, hkey₂⟩ := hone "verifier-2" _ _ rfl rfl rfl
    have hsame := hkey₁.trans hkey₂.symm
    rw [← Option.some.inj htext₁, ← Option.some.inj htext₂] at hsame
    exact absurd hsame (by decide +kernel)
  · cases b with
    | true => exact hb
    | false => cases hverified

/-- A key that is not in the roster. -/
def forgerKey : String := "fd1724385aa0c75b64fb78cd602fa1d991fdebf76b13c58ed702eac835e9f618"

/-- A statement about a job that no verifier has seen. -/
def forgedStatement : Json ℤ :=
  .obj [("job_id", .str exampleJobId), ("node_id", .str olcWorkerId),
    ("result_digest", .str expectedDigest), ("accepted", .bool true)]

/-- The signature of the forger. -/
def forgedSignature : String :=
  "49a7eb14cd2ea348d5a80f96c03af9f136dd8f79d4355042eb8fd7389f14ed1a" ++
    "5dbfe67d8eed9a0cf1fa35cc4576e4d30177cbaeeb9f23dc28db12b1e002f90d"

/-- A receipt that names no keys, with an attestation of the forger. -/
def forgedReceipt : Json ℤ :=
  .obj [("job_id", .str exampleJobId), ("node_id", .str olcWorkerId),
    ("result_digest", .str expectedDigest), ("attestation",
      .obj [("statement", forgedStatement), ("signature", .str forgedSignature)])]

/-- **A pinned roster can be bypassed.** A receipt that names no keys is counted as verified by the
attestation of a key that the document brings along. -/
theorem pinned_roster_bypassed :
    verifyDocument Ledger.integerLib (exampleEd25519 [(forgerKey, forgedSignature, forgedStatement)])
        (exampleDocument (.str forgerKey) forgedReceipt) none (some exampleRosterDigest) =
      .ok (1, 0) ∧
    ¬Carries Ledger.integerLib (exampleEd25519 [(forgerKey, forgedSignature, forgedStatement)])
      exampleRosterDigest forgedReceipt := by
  refine ⟨by decide +kernel, fun ⟨roster, _, _, ⟨hroster, _⟩, _⟩ => ?_⟩
  exact nomatch (show Except.error PyError.key = .ok roster from hroster)

end Example

end SplitChain
