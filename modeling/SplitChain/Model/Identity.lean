import SplitChain.Library.Raise
import SplitChain.Library.Sha256
import SplitChain.Python.Json

set_option relaxedAutoImplicit false
set_option autoImplicit false

/-!
# Node certificates

The certificates of the research model (`splitchain.identity`), which an authority issues for a
node, a span of rounds and a list of roles, and signs with its secret.

## Main definitions

* `SplitChain.NodeCertificate`, `SplitChain.CertificateAuthority.issue`,
  `SplitChain.CertificateAuthority.verify`.
* `SplitChain.hmacDigest`, `SplitChain.compareDigest` — keyed digests and their comparison.

## Main results

* `SplitChain.CertificateAuthority.verify_issue` — a certificate is valid in its rounds and roles.
-/

namespace SplitChain

open Raise

variable {ν : Type} [PyNumber ν]

open PyNumber (ofInt)

/-! ## Keyed digests -/

/-- `hmac.new(key, canonical_json(value), sha256).hexdigest()` -/
def hmacDigest (py : PyLib ν) (key : List UInt8) (value : Json ν) : String :=
  Sha256.hmacHexDigest key (canonicalJson py value)

/-- `hmac.compare_digest` of a digest with a text, which has to be ASCII. -/
def compareDigest (digest text : String) : Except PyError Bool := do
  require (text.toList.all fun c => c.toNat < 128) .type
  return digest == text

/-- Equal texts. -/
lemma eq_of_compareDigest {digest text : String} (h : compareDigest digest text = .ok true) :
    digest = text := by
  simp only [compareDigest, bind_eq_ok, require_eq_ok, exists_const, pure_eq_ok, beq_iff_eq] at h
  exact h.2

/-- The result of a comparison. -/
lemma beq_of_compareDigest {digest text : String} {b : Bool}
    (h : compareDigest digest text = .ok b) :
    (digest == text) = b := by
  simp only [compareDigest, bind_eq_ok, require_eq_ok, exists_const, pure_eq_ok] at h
  exact h.2

/-- A keyed digest equals itself. -/
lemma compareDigest_self (py : PyLib ν) (key : List UInt8) (value : Json ν) :
    compareDigest (hmacDigest py key value) (hmacDigest py key value) = .ok true := by
  have hascii : (hmacDigest py key value).toList.all (fun c => c.toNat < 128) = true :=
    List.all_eq_true.mpr fun c hc => decide_eq_true (Sha256.toNat_lt_of_mem_hexDigest hc)
  simp only [compareDigest, bind_eq_ok, require_eq_ok, exists_const, pure_eq_ok, beq_self_eq_true,
    and_true]
  exact hascii

/-! ## Certificates -/

/-- The certificate of a node. -/
structure NodeCertificate where
  nodeId : String
  publicKey : String
  roles : List String
  validFrom : ℤ
  validUntil : ℤ
  issuer : String
  signature : String
deriving DecidableEq

/-- The part of a certificate that is signed. -/
def NodeCertificate.payload (c : NodeCertificate) : Json ν :=
  .obj [("issuer", .str c.issuer), ("node_id", .str c.nodeId), ("public_key", .str c.publicKey),
    ("roles", .arr (c.roles.map Json.str)), ("valid_from", .num (ofInt c.validFrom)),
    ("valid_until", .num (ofInt c.validUntil))]

/-- An authority that issues certificates. -/
structure CertificateAuthority where
  issuer : String
  secret : String

namespace CertificateAuthority

/-- The signature of the authority under a certificate. -/
def sign (py : PyLib ν) (a : CertificateAuthority) (c : NodeCertificate) : String :=
  hmacDigest py (encodeUtf8 a.secret.toList) c.payload

/-- Issue a certificate. -/
def issue (py : PyLib ν) (a : CertificateAuthority) (nodeId publicKey : String)
    (roles : List String) (validFrom validUntil : ℤ) : Except PyError NodeCertificate := do
  require (decide (validFrom < validUntil) && !roles.isEmpty)
    (.protocol "invalid certificate bounds or roles")
  let c : NodeCertificate := ⟨nodeId, publicKey, roles, validFrom, validUntil, a.issuer, ""⟩
  return { c with signature := a.sign py c }

/-- Whether a certificate is valid in a round for a role. -/
def verify (py : PyLib ν) (a : CertificateAuthority) (c : NodeCertificate) (currentRound : ℤ)
    (role : String) : Except PyError Bool :=
  if c.issuer = a.issuer ∧ c.validFrom ≤ currentRound ∧ currentRound < c.validUntil ∧
      role ∈ c.roles then compareDigest (a.sign py c) c.signature
  else .ok false

/-- **A certificate is valid** in its rounds for its roles. -/
lemma verify_issue {py : PyLib ν} {a : CertificateAuthority} {nodeId publicKey : String}
    {roles : List String} {validFrom validUntil currentRound : ℤ} {role : String}
    {c : NodeCertificate} (hc : a.issue py nodeId publicKey roles validFrom validUntil = .ok c)
    (hfrom : validFrom ≤ currentRound) (huntil : currentRound < validUntil) (hrole : role ∈ roles) :
    a.verify py c currentRound role = .ok true := by
  simp only [issue, bind_eq_ok, require_eq_ok, exists_const, pure_eq_ok] at hc
  obtain ⟨-, rfl⟩ := hc
  exact (if_pos ⟨rfl, hfrom, huntil, hrole⟩).trans (compareDigest_self ..)

end CertificateAuthority

end SplitChain
