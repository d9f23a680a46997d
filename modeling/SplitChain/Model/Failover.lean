import SplitChain.Library.Dict
import SplitChain.Library.Raise
import SplitChain.Python.Json

set_option relaxedAutoImplicit false
set_option autoImplicit false

/-!
# Leadership

The executable model of `splitchain.failover`: the ordered roles, the votes of the survivors of
a timeout, the certificates formed from them, and the leadership state that a node keeps and
saves. Votes and certificates are the decoded records; signatures and digests belong to an
authority, which is a parameter.

## Main definitions

* `SplitChain.Role`, with `Role.order` and `Role.successor?`.
* `SplitChain.FailureVote`, `SplitChain.LeadershipCertificate`, `SplitChain.FailoverAuthority`.
* `SplitChain.LeadershipState`, with `heartbeat`, `submit`, `acceptCertificate` and
  `fromSnapshot`.

## Main results

* `SplitChain.LeadershipState.acceptCertificate_eq_ok` — what an adopted certificate has passed.
-/

namespace SplitChain

open Raise

/-! ## Roles -/

/-- The roles of a cluster, which also name its nodes. -/
inductive Role where
  | primary | secondary | tertiary
deriving DecidableEq, Repr

namespace Role

/-- `ROLE_ORDER` -/
def order : List Role := [primary, secondary, tertiary]

/-- The name of a role. -/
def value : Role → String
  | primary => "primary"
  | secondary => "secondary"
  | tertiary => "tertiary"

/-- The role that follows in the order. -/
def successor? : Role → Option Role
  | primary => some secondary
  | secondary => some tertiary
  | tertiary => none

/-- The node that is neither of the given two. -/
def witness? (leader candidate : Role) : Option Role :=
  order.find? fun r => r != leader && r != candidate

end Role

/-! ## Votes and certificates -/

/-- The signed part of a vote. -/
structure Ballot where
  voter : Role
  term : ℤ
  accused : Role
  candidate : Role
  observedTick : ℤ
  committedNonce : ℤ
deriving DecidableEq

/-- A vote that the leader has timed out. -/
structure FailureVote extends Ballot where
  signature : String
deriving DecidableEq

/-- The evidence for a new term. -/
structure LeadershipCertificate where
  term : ℤ
  leader : Role
  committedNonce : ℤ
  votes : List FailureVote
  digest : String
deriving DecidableEq

/-- The signed part of a heartbeat. -/
structure Pulse where
  leader : Role
  term : ℤ
  tick : ℤ
  nonce : ℤ
deriving DecidableEq

/-- A heartbeat of the leader. -/
structure Heartbeat extends Pulse where
  signature : String
deriving DecidableEq

/-- The keys of the roles, and the digest of certificates. -/
structure FailoverAuthority where
  sign : Role → Ballot → String
  verify : Role → Ballot → String → Bool
  signPulse : Role → Pulse → String
  verifyPulse : Role → Pulse → String → Bool
  digest : (committedNonce : ℤ) → (leader : Role) → (term : ℤ) → List FailureVote → String
  verify_sign : ∀ role ballot, verify role ballot (sign role ballot) = true
  verify_signPulse : ∀ role pulse, verifyPulse role pulse (signPulse role pulse) = true

namespace FailoverAuthority

variable (authority : FailoverAuthority)

/-- A signed vote. -/
def vote (ballot : Ballot) : FailureVote :=
  { ballot with signature := authority.sign ballot.voter ballot }

/-- Whether a vote is signed by its voter. -/
def verifyVote (vote : FailureVote) : Bool :=
  authority.verify vote.voter vote.toBallot vote.signature

/-- A signed heartbeat. -/
def signHeartbeat (pulse : Pulse) : Heartbeat :=
  { pulse with signature := authority.signPulse pulse.leader pulse }

/-- Whether a heartbeat is signed by the leader it names. -/
def verifyHeartbeat (heartbeat : Heartbeat) : Bool :=
  authority.verifyPulse heartbeat.leader heartbeat.toPulse heartbeat.signature

end FailoverAuthority

/-! ## The leadership state -/

/-- The leadership state of a node. -/
structure LeadershipState where
  timeoutTicks : ℤ
  term : ℤ
  leader : Role
  lastHeartbeatTick : ℤ
  committedNonce : ℤ
  votes : Dict Role FailureVote
  certificates : List LeadershipCertificate
deriving DecidableEq

namespace LeadershipState

/-- `QUORUM` -/
def quorum : ℕ := 2

/-- The state of a new cluster. -/
def initial (timeoutTicks : ℤ) : LeadershipState where
  timeoutTicks := timeoutTicks
  term := 0
  leader := .primary
  lastHeartbeatTick := 0
  committedNonce := 0
  votes := ∅
  certificates := []

/-- `_successor` -/
def successor (s : LeadershipState) : Except PyError Role :=
  orRaise s.leader.successor? (.protocol "all ordered leaders are exhausted")

/-- Record a heartbeat of the current leader. -/
def heartbeat (s : LeadershipState) (leader : Role) (term tick committedNonce : ℤ) :
    Except PyError LeadershipState := do
  require (leader == s.leader && term == s.term)
    (.protocol "heartbeat is not from the current leader and term")
  require (decide (s.lastHeartbeatTick < tick) && decide (s.committedNonce ≤ committedNonce))
    (.protocol "heartbeat regresses leadership state")
  return { s with lastHeartbeatTick := tick, committedNonce := committedNonce, votes := ∅ }

/-- Whether a vote fits the state it is submitted to. -/
def fits (authority : FailoverAuthority) (s : LeadershipState) (candidate : Role)
    (vote : FailureVote) : Bool :=
  authority.verifyVote vote && vote.term == s.term + 1 && vote.accused == s.leader &&
    vote.candidate == candidate &&
    decide (s.timeoutTicks ≤ vote.observedTick - s.lastHeartbeatTick) &&
    vote.committedNonce == s.committedNonce && vote.voter != s.leader

/-- Collect a vote; the second one forms a certificate and starts its term. -/
def submit (authority : FailoverAuthority) (s : LeadershipState) (vote : FailureVote) :
    Except PyError (LeadershipState × Option LeadershipCertificate) := do
  let candidate ← s.successor
  require (s.fits authority candidate vote) (.protocol "invalid failover vote")
  match s.votes.get? vote.voter with
  | some existing =>
    require (existing == vote) (.protocol "failover voter equivocated")
    return (s, none)
  | none =>
    require (s.votes.values.head?.all fun first => first.observedTick == vote.observedTick)
      (.protocol "failover votes do not describe the same timeout")
    let votes := s.votes.set vote.voter vote
    if votes.size < quorum then
      return ({ s with votes := votes }, none)
    else
      let signed := Role.order.filterMap votes.get?
      let certificate : LeadershipCertificate := {
        term := s.term + 1
        leader := candidate
        committedNonce := s.committedNonce
        votes := signed
        digest := authority.digest s.committedNonce candidate (s.term + 1) signed }
      return ({ s with
        term := s.term + 1
        leader := candidate
        lastHeartbeatTick := ((votes.values.head?.map fun v => v.observedTick).getD 0)
        votes := ∅
        certificates := s.certificates ++ [certificate] }, some certificate)

/-! ## Restoring -/

/-- Whether a vote supports a certificate of the term after `leader`'s. -/
def supports (authority : FailoverAuthority) (timeoutTicks : ℤ) (leader : Role)
    (previousTick : ℤ) (certificate : LeadershipCertificate) (vote : FailureVote) : Bool :=
  authority.verifyVote vote && vote.term == certificate.term && vote.accused == leader &&
    vote.candidate == certificate.leader && vote.voter != vote.accused &&
    vote.committedNonce == certificate.committedNonce &&
    certificate.votes.head?.all (fun first => vote.observedTick == first.observedTick) &&
    decide (timeoutTicks ≤ vote.observedTick - previousTick)

/-- Whether a certificate continues a history that ended with `leader` at the given tick and
position. -/
def continues (authority : FailoverAuthority) (timeoutTicks expectedTerm : ℤ) (leader next : Role)
    (previousTick previousNonce : ℤ) (certificate : LeadershipCertificate) : Bool :=
  certificate.term == expectedTerm && certificate.leader == next &&
    decide (quorum ≤ certificate.votes.length) &&
    decide (certificate.votes.map fun v => v.voter).Nodup &&
    decide (previousNonce ≤ certificate.committedNonce) &&
    certificate.votes.all (supports authority timeoutTicks leader previousTick certificate) &&
    authority.digest certificate.committedNonce certificate.leader certificate.term
      certificate.votes == certificate.digest

/-- The tick on which the votes of a certificate agree. -/
def certifiedTick (certificate : LeadershipCertificate) : ℤ :=
  (certificate.votes.head?.map fun v => v.observedTick).getD 0

/-- Check a history of certificates; the leader, tick and position it ends with. -/
def checkHistory (authority : FailoverAuthority) (timeoutTicks : ℤ) :
    ℤ → Role → ℤ → ℤ → List LeadershipCertificate → Except PyError (Role × ℤ × ℤ)
  | _, leader, tick, nonce, [] => .ok (leader, tick, nonce)
  | expectedTerm, leader, tick, nonce, c :: cs => do
    let next ← orRaise leader.successor? .index
    require (continues authority timeoutTicks expectedTerm leader next tick nonce c)
      (.protocol "invalid leadership certificate history")
    checkHistory authority timeoutTicks (expectedTerm + 1) next (certifiedTick c) c.committedNonce cs

/-- Restore a state from a snapshot, which has all fields of the state but the votes. -/
def fromSnapshot (authority : FailoverAuthority) (snapshot : LeadershipState) :
    Except PyError LeadershipState := do
  require (decide (2 ≤ snapshot.timeoutTicks))
    (.protocol "leadership timeout must be at least two ticks")
  require (snapshot.term == snapshot.certificates.length && decide (0 ≤ snapshot.term) &&
      decide (snapshot.term < Role.order.length) && decide (0 ≤ snapshot.lastHeartbeatTick) &&
      decide (0 ≤ snapshot.committedNonce))
    (.protocol "leadership snapshot violates term history")
  let (leader, tick, nonce) ← checkHistory authority snapshot.timeoutTicks 1 .primary 0 0
    snapshot.certificates
  require (leader == snapshot.leader)
    (.protocol "leadership certificate does not match current leader")
  require (decide (tick ≤ snapshot.lastHeartbeatTick) && decide (nonce ≤ snapshot.committedNonce))
    (.protocol "leadership snapshot regresses certified state")
  return { snapshot with votes := ∅ }

/-- Adopt the next term of a peer after verifying its entire signed transition. -/
def acceptCertificate (authority : FailoverAuthority) (s : LeadershipState)
    (certificate : LeadershipCertificate) : Except PyError LeadershipState := do
  if certificate ∈ s.certificates then
    require (s.certificates.getLast? == some certificate) (.protocol "stale leadership certificate")
    return s
  let next ← s.successor
  require (certificate.term == s.term + 1 && certificate.leader == next)
    (.protocol "leadership certificate is not the next term")
  require (certificate.committedNonce == s.committedNonce)
    (.protocol "leadership certificate does not match local committed position")
  let first ← orRaise certificate.votes.head?
    (.protocol "leadership certificate has no timeout votes")
  let verified ← fromSnapshot authority { s with
    term := certificate.term
    leader := certificate.leader
    lastHeartbeatTick := first.observedTick
    certificates := s.certificates ++ [certificate] }
  return { s with
    term := verified.term
    leader := verified.leader
    lastHeartbeatTick := verified.lastHeartbeatTick
    votes := ∅
    certificates := s.certificates ++ [certificate] }

/-! ## What an adopted certificate has passed -/

/-- **Adoption.** A certificate is adopted when it is the last one already, or certifies the
successor of the leader for the next term, at the position of the state. -/
theorem acceptCertificate_eq_ok {authority : FailoverAuthority} {s s' : LeadershipState}
    {certificate : LeadershipCertificate} (h : s.acceptCertificate authority certificate = .ok s') :
    (s.certificates.getLast? = some certificate ∧ s' = s) ∨
      (certificate ∉ s.certificates ∧ certificate.term = s.term + 1 ∧
        s.leader.successor? = some certificate.leader ∧
        certificate.committedNonce = s.committedNonce ∧
        ∃ tick, s' = { s with
          term := certificate.term
          leader := certificate.leader
          lastHeartbeatTick := tick
          votes := ∅
          certificates := s.certificates ++ [certificate] }) := by
  unfold acceptCertificate at h
  split_ifs at h with hmem
  · left
    simp only [bind_eq_ok, require_eq_ok, exists_const, pure_eq_ok, beq_iff_eq] at h
    exact ⟨h.1, h.2.symm⟩
  · right
    simp only [bind_eq_ok, require_eq_ok, exists_const, pure_eq_ok, successor,
      orRaise_eq_ok, Bool.and_eq_true, beq_iff_eq] at h
    obtain ⟨next, hnext, ⟨hterm, hleader⟩, hnonce, first, -, verified, hverified, rfl⟩ := h
    unfold fromSnapshot at hverified
    simp only [bind_eq_ok, require_eq_ok, exists_const, pure_eq_ok] at hverified
    obtain ⟨-, -, -, -, -, -, rfl⟩ := hverified
    exact ⟨hmem, hterm, hleader ▸ hnext, hnonce, _, rfl⟩

end LeadershipState

end SplitChain
