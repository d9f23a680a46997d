import SplitChain.Model.ReferenceNode

set_option relaxedAutoImplicit false
set_option autoImplicit false

/-!
# Signed messages between nodes

The documents that the nodes of a cluster sign: replication envelopes, failover votes and
heartbeats. Their signature is the keyed digest of the canonical bytes, under a secret that the
nodes share, or under keys derived from it.

## Main definitions

* `SplitChain.envelopePayload`, `SplitChain.Ballot.payload`, `SplitChain.Pulse.payload` — what is
  signed.
* `SplitChain.ReplicationAuthenticator.ofSecret`, `SplitChain.FailoverAuthority.ofKeys` — the two
  authorities, from secrets.
* `SplitChain.sharedKeys` — the keys of a node that is given the secret of its cluster.
-/

namespace SplitChain

open PyNumber (ofInt)

variable {ν : Type} [PyNumber ν]

/-! ## Payloads -/

/-- The signed part of an envelope. -/
def envelopePayload (leader : String) (nonce : ℤ) (mutation : Json ν) : Json ν :=
  .obj [("leader", .str leader), ("mutation", mutation), ("nonce", .num (ofInt nonce))]

/-- `unsigned`: the signed part of a vote. -/
def Ballot.payload (b : Ballot) : Json ν :=
  .obj [("accused", .str b.accused.value), ("candidate", .str b.candidate.value),
    ("committed_nonce", .num (ofInt b.committedNonce)),
    ("observed_tick", .num (ofInt b.observedTick)), ("term", .num (ofInt b.term)),
    ("voter", .str b.voter.value)]

/-- The signed part of a heartbeat. -/
def Pulse.payload (p : Pulse) : Json ν :=
  .obj [("leader", .str p.leader.value), ("term", .num (ofInt p.term)),
    ("tick", .num (ofInt p.tick)), ("nonce", .num (ofInt p.nonce))]

/-- A signed vote as a document. -/
def FailureVote.document (v : FailureVote) : Json ν :=
  .obj [("voter", .str v.voter.value), ("term", .num (ofInt v.term)),
    ("accused", .str v.accused.value), ("candidate", .str v.candidate.value),
    ("observed_tick", .num (ofInt v.observedTick)),
    ("committed_nonce", .num (ofInt v.committedNonce)), ("signature", .str v.signature)]

/-- The document behind the digest of a certificate. -/
def certificatePayload (committedNonce : ℤ) (leader : Role) (term : ℤ) (votes : List FailureVote) :
    Json ν :=
  .obj [("committed_nonce", .num (ofInt committedNonce)), ("leader", .str leader.value),
    ("term", .num (ofInt term)), ("votes", .arr (votes.map FailureVote.document))]

/-- The mutation of an envelope as a document. A node without an authenticator replicates the
method and the parameters alone. -/
def Request.mutationForm (mutation : Request ν) : Json ν :=
  let call := [("method", mutation.method), ("params", mutation.params)]
  match mutation.id, mutation.auth with
  | .null, .null => .obj call
  | _, _ => .obj (call ++ [("auth", mutation.auth), ("id", mutation.id)])

/-! ## Shared secrets -/

/-- Envelopes signed with the secret of the cluster. -/
def ReplicationAuthenticator.ofSecret {μ : Type} (py : PyLib ν) (secret : String)
    (form : μ → Json ν) : ReplicationAuthenticator μ where
  signature leader nonce mutation :=
    py.hmacSha256 secret (canonicalJson py (envelopePayload leader.value nonce (form mutation)))
  verifies leader nonce mutation signature :=
    py.hmacSha256 secret (canonicalJson py (envelopePayload leader.value nonce (form mutation))) ==
      signature
  verifies_signature _ _ _ := beq_self_eq_true _

/-- Votes and heartbeats signed with one key for each role. -/
def FailoverAuthority.ofKeys (py : PyLib ν) (key : Role → String) : FailoverAuthority where
  sign role ballot := py.hmacSha256 (key role) (canonicalJson py ballot.payload)
  verify role ballot signature :=
    py.hmacSha256 (key role) (canonicalJson py ballot.payload) == signature
  signPulse role pulse := py.hmacSha256 (key role) (canonicalJson py pulse.payload)
  verifyPulse role pulse signature :=
    py.hmacSha256 (key role) (canonicalJson py pulse.payload) == signature
  digest committedNonce leader term votes :=
    py.sha256 (canonicalJson py (certificatePayload committedNonce leader term votes))
  verify_sign _ _ := beq_self_eq_true _
  verify_signPulse _ _ := beq_self_eq_true _

/-- The failover key of a role. -/
def failoverKey (py : PyLib ν) (secret : String) (role : Role) : String :=
  py.sha256 (encodeUtf8 ("splitchain/failover/v1:" ++ role.value ++ ":" ++ secret).toList)

/-- The keys of a node with the secret of its cluster. -/
def sharedKeys (py : PyLib ν) (secret : String) : Keyring (Request ν) where
  replication := .ofSecret py secret Request.mutationForm
  failover := .ofKeys py (failoverKey py secret)

end SplitChain
