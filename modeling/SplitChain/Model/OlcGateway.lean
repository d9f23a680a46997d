import SplitChain.Library.Proc
import SplitChain.Library.Transition
import SplitChain.Model.Identity
import SplitChain.Python.Values

set_option relaxedAutoImplicit false
set_option autoImplicit false

/-!
# The job gateway

The store `splitchain.olc_gateway.Store`: an operator enqueues jobs, a worker leases a job and
returns its result, and three verifiers attest results. Two verifiers that agree decide a job.

The jobs are the entries of a dictionary, in the order in which they were enqueued; their ids are
drawn at random. A clock reading is an element of a linear order with a sum, such as the numbers
that `time.time()` returns.

## Main definitions

* `SplitChain.OlcGateway`, with `SplitChain.OlcGateway.create` — credentials and verifier keys.
* `SplitChain.OlcJob`, `SplitChain.OlcState` — jobs and workers.
* `SplitChain.OlcGateway.lease`, `result`, `attest` — the operations on jobs.
* `SplitChain.OlcGateway.Writes`, `SplitChain.OlcGateway.Effect` — what a call can do.

## Main results

* `SplitChain.OlcGateway.effect` — every call has one of the effects.
-/

namespace SplitChain

open Raise Proc

/-! ## Credentials -/

/-- `PAYLOAD`, the fixed workload. -/
def olcPayload : List UInt8 := encodeUtf8 "OLC Worker01 test job\n".toList

/-- `EXPECTED`, the digest of the workload. -/
def expectedDigest : String := Sha256.hexDigest olcPayload

/-- `NODE_ID`, the worker. -/
def olcWorkerId : String := "olc-worker-001"

/-- `VERIFIER_IDS` -/
def verifierIds : List String := ["verifier-1", "verifier-2", "verifier-3"]

/-- What the gateway uses of the signature scheme: which bytes are a public key, and which
signatures a key verifies. -/
structure Ed25519 where
  isKey : List UInt8 → Bool
  verifies : List UInt8 → List UInt8 → List UInt8 → Bool

/-- The public keys of the three verifiers. -/
structure VerifierRoster where
  keys : Dict String String
  named : keys.keys = verifierIds
  distinct : keys.values.Nodup

/-- The gateway as its constructor leaves it. Where a legacy verifier is configured, it has a
key. -/
structure OlcGateway (ν : Type) where
  credentials : Dict String (Json ν)
  roster : Option VerifierRoster
  legacy : ∀ v, credentials.get? "verifier" = some v →
    v = .null ∨ ∃ d key, v.dict? = some d ∧ d.get? "public_key" = some (.str key)

section Constructor

variable {ν : Type} [PyNumber ν] (ed : Ed25519)

/-- `Ed25519PublicKey.from_public_bytes(bytes.fromhex(text))` -/
def loadKey (text : Json ν) : Except PyError (List UInt8) := do
  let key ← bytesFromHex text
  require (ed.isKey key) (.value "")
  return key

/-- Whether the keys of a dictionary are the given ones. -/
def hasKeys {α : Type} (fields : Dict String α) (names : List String) : Bool :=
  fields.keys.all (· ∈ names) && names.all (· ∈ fields.keys)

/-- Whether a value is a token of 32 characters or more. -/
def isToken : Json ν → Bool
  | .str s => decide (32 ≤ s.length)
  | _ => false

/-- The token and the key of a configured verifier. -/
def verifierItem (configured : Dict String (Json ν)) (verifierId : String) :
    Except PyError (Json ν × String) := do
  let item ← orRaise (configured.get? verifierId) .key
  let fields ← orRaise item.dict? (.value "invalid quorum verifier credentials")
  let token := (fields.get? "token").getD .null
  require (isToken token) (.value "invalid quorum verifier credentials")
  let key ← orRaise ((fields.get? "public_key").bind Json.str?)
    (.value "invalid quorum verifier credentials")
  let _ ← loadKey ed (.str key : Json ν)
  return (token, key)

/-- The keys of three verifiers with distinct keys. -/
def VerifierRoster.ofKeys (key₁ key₂ key₃ : String) (h : [key₁, key₂, key₃].Nodup) :
    VerifierRoster where
  keys := ⟨[("verifier-1", key₁), ("verifier-2", key₂), ("verifier-3", key₃)],
    (by decide : verifierIds.Nodup)⟩
  named := rfl
  distinct := h

/-- The roster in the credentials, if there is one. -/
def configuredRoster (tokens : List (Json ν)) (configured : Json ν) :
    Except PyError (Option VerifierRoster) :=
  match configured with
  | .null => .ok none
  | _ => do
    let items ← orRaise configured.dict? (.value "the quorum roster requires three named verifiers")
    require (hasKeys items verifierIds)
      (.value "the quorum roster requires three named verifiers")
    let (token₁, key₁) ← verifierItem ed items "verifier-1"
    let (token₂, key₂) ← verifierItem ed items "verifier-2"
    let (token₃, key₃) ← verifierItem ed items "verifier-3"
    let all := tokens ++ [token₁, token₂, token₃]
    require ((Json.distinct all).length == all.length)
      (.value "quorum keys and tokens must be distinct")
    if h : [key₁, key₂, key₃].Nodup then return some (.ofKeys key₁ key₂ key₃ h)
    else throw (.value "quorum keys and tokens must be distinct")

/-- The key of the legacy verifier in the credentials, if there is one. -/
def legacyKey (tokens : List (Json ν)) (verifier : Json ν) : Except PyError (Option String) :=
  match verifier with
  | .null => .ok none
  | _ => do
    let fields ← orRaise verifier.dict? (.value "invalid verifier credentials")
    let token := (fields.get? "token").getD .null
    require (isToken token && !tokens.any token.eqv) (.value "invalid verifier credentials")
    let key ← orRaise ((fields.get? "public_key").bind Json.str?)
      (.value "invalid verifier credentials")
    let _ ← loadKey ed (.str key : Json ν)
    return some key

variable {ed}

/-- A legacy verifier that is accepted has a key. -/
lemma of_legacyKey {tokens : List (Json ν)} {verifier : Json ν} {key : Option String}
    (h : legacyKey ed tokens verifier = .ok key) :
    verifier = .null ∨ ∃ d key, verifier.dict? = some d ∧
    d.get? "public_key" = some (.str key) := by
  unfold legacyKey at h
  split at h
  · exact .inl rfl
  · simp only [bind_eq_ok, orRaise_eq_ok, Option.bind_eq_some_iff] at h
    obtain ⟨fields, hfields, -, -, text, ⟨value, hvalue, htext⟩, -⟩ := h
    refine .inr ⟨fields, text, hfields, ?_⟩
    cases value <;> simp_all [Json.str?]

variable (ed)

/-- The constructor, on credentials that have been decoded. -/
def OlcGateway.create (credentials : Dict String (Json ν)) : Except PyError (OlcGateway ν) := do
  let message := "gateway credentials must contain distinct 32+ character tokens"
  let workers ← orRaise (((credentials.get? "workers").getD (.obj [])).dict?) (.value message)
  let tokens := workers.values ++ [(credentials.get? "operator").getD (.str "")]
  require (workers.contains olcWorkerId && tokens.all isToken &&
    (Json.distinct tokens).length == workers.size + 1) (.value message)
  match h : legacyKey ed tokens ((credentials.get? "verifier").getD .null) with
  | .error e => throw e
  | .ok _ =>
    let roster ← configuredRoster ed tokens ((credentials.get? "verifiers").getD .null)
    return ⟨credentials, roster, fun v hv => by rw [hv] at h; exact of_legacyKey h⟩

end Constructor

/-! ## Jobs -/

/-- The state of a job; a lease ends at a clock reading. -/
inductive JobState (τ : Type) where
  | queued
  | leased (leaseUntil : τ)
  | verified
  | awaitingQuorum
  | quorumVerified
  | disputed
  | rejected
deriving DecidableEq

/-- The name of a state. -/
def JobState.value {τ : Type} : JobState τ → String
  | queued => "queued"
  | leased _ => "leased"
  | verified => "verified"
  | awaitingQuorum => "awaiting_quorum"
  | quorumVerified => "quorum_verified"
  | disputed => "disputed"
  | rejected => "rejected"

/-- A vote of a verifier, as it was sent. -/
structure OlcAttestation (ν : Type) where
  statement : Json ν
  signature : String

/-- What decides a job: the keys of the verifiers when it was enqueued, and their votes. -/
structure JobQuorum (ν : Type) where
  verifierKeys : Dict String String
  quorumRequired : ℕ
  attestations : Dict String (OlcAttestation ν)

/-- A job. A legacy job has no quorum, and the attestation of a single verifier. -/
structure OlcJob (τ ν : Type) where
  nodeId : String
  state : JobState τ
  resultDigest : Option String
  quorum : Option (JobQuorum ν)
  attestation : Option (Json ν)

/-- What the store keeps: the workers, with when each was last seen, and the jobs. -/
structure OlcState (τ ν : Type) where
  workers : Dict String (τ × Json ν)
  jobs : Dict String (OlcJob τ ν)

/-- A call of the store with its arguments; the id of a new job has been drawn. -/
inductive OlcCall (ν : Type) where
  | heartbeat (nodeId : String) (capabilities : Json ν)
  | enqueue (jobId : String)
  | lease (nodeId : String)
  | result (nodeId : String) (jobId digest : Json ν)
  | attest (verifierId : String) (statement signature : Json ν)

section Votes

variable {ν : Type} [PyNumber ν]

/-- Whether a vote accepts the result. -/
def OlcAttestation.accepted (a : OlcAttestation ν) : Bool :=
  match a.statement.field "accepted" with
  | .ok (.bool b) => b
  | _ => false

/-- The number of votes that accept. -/
def JobQuorum.approvals (q : JobQuorum ν) : ℕ := q.attestations.values.countP OlcAttestation.accepted

/-- The number of votes that reject. -/
def JobQuorum.denials (q : JobQuorum ν) : ℕ := q.attestations.size - q.approvals

/-- Add a vote. -/
def JobQuorum.vote (q : JobQuorum ν) (verifierId : String) (a : OlcAttestation ν) : JobQuorum ν :=
  { q with attestations := q.attestations.set verifierId a }

/-- What the votes decide, if they do. -/
def JobQuorum.decision {τ : Type} (q : JobQuorum ν) (state : JobState τ) : JobState τ :=
  if q.quorumRequired ≤ q.approvals then .quorumVerified
  else if q.quorumRequired ≤ q.denials then .disputed
  else state

end Votes

namespace OlcState

variable {τ ν : Type}

/-- The store of a gateway that has never run. -/
def empty : OlcState τ ν := ⟨∅, ∅⟩

/-- Write a job. -/
def setJob (s : OlcState τ ν) (jobId : String) (job : OlcJob τ ν) : OlcState τ ν :=
  { s with jobs := s.jobs.set jobId job }

/-- The job with an id that was sent. -/
def job? (s : OlcState τ ν) : Json ν → Option (String × OlcJob τ ν)
  | .str jobId => (s.jobs.get? jobId).map (jobId, ·)
  | _ => none

end OlcState

/-- Whether a text consists of 64 lower-case hexadecimal digits. -/
def isDigest (text : String) : Bool :=
  text.toList.length == 64 &&
    text.toList.all fun c => ('0' ≤ c ∧ c ≤ '9') ∨ ('a' ≤ c ∧ c ≤ 'f')

namespace OlcGateway

variable {τ ν : Type} [LinearOrder τ] [Add τ] [OfNat τ 120] [PyNumber ν] (py : PyLib ν)
  (ed : Ed25519) (g : OlcGateway ν)

/-- `verifier_keys` -/
def verifierKeys : Dict String String :=
  match g.roster with
  | some roster => roster.keys
  | none => ∅

/-- A worker reports. -/
def heartbeat (now : τ) (nodeId : String) (capabilities : Json ν) :
    EStateM PyError (OlcState τ ν) Unit := do
  let fields ← lift (orRaise capabilities.dict? (.value "invalid capabilities"))
  lift (require (hasKeys fields ["cpu_threads", "memory_mb"])
    (.value "invalid capabilities"))
  let cpu ← lift (capabilities.field "cpu_threads")
  let memory ← lift (capabilities.field "memory_mb")
  lift (require (cpu.int?.any (fun n => 1 ≤ n ∧ n ≤ 256) &&
    memory.int?.any fun n => 128 ≤ n ∧ n ≤ 2000000) (.value "invalid resource inventory"))
  modify fun s => { s with workers := s.workers.set nodeId (now, capabilities) }

/-- A new job, under the id that has been drawn. -/
def enqueue (jobId : String) : EStateM PyError (OlcState τ ν) String := do
  lift (require (g.verifierKeys.size == 3)
    (.value "three verifier keys must be provisioned before new jobs"))
  modify (·.setJob jobId ⟨olcWorkerId, .queued, none, some ⟨g.verifierKeys, 2, ∅⟩, none⟩)
  return jobId

/-- Whether a job is leased to a worker, and the lease has not expired. -/
def holdsLease (now : τ) (nodeId : String) (job : OlcJob τ ν) : Bool :=
  job.nodeId == nodeId && match job.state with
    | .leased leaseUntil => decide (now ≤ leaseUntil)
    | _ => false

/-- Whether a job can be leased to a worker. -/
def leasable (now : τ) (nodeId : String) (job : OlcJob τ ν) : Bool :=
  job.nodeId == nodeId && match job.state with
    | .queued => true
    | .leased leaseUntil => decide (leaseUntil < now)
    | _ => false

/-- Lease a job to a worker: the first that can be, unless the worker has one. -/
def lease (now : τ) (nodeId : String) : EStateM PyError (OlcState τ ν) (Option String) := do
  if (← get).jobs.values.any (holdsLease now nodeId) then return none
  match (← get).jobs.entries.find? fun p => leasable now nodeId p.2 with
  | some (jobId, job) =>
    modify (·.setJob jobId { job with state := .leased (now + 120) })
    return some jobId
  | none => return none

/-- A worker returns a result: the state of the job. -/
def result (now : τ) (nodeId : String) (jobId digest : Json ν) :
    EStateM PyError (OlcState τ ν) (JobState τ) := do
  let text ← lift (orRaise digest.str? .type)
  lift (require (isDigest text) (.value "invalid digest"))
  lift (require jobId.hashable .type)
  let (id, job) ← lift (orRaise ((← get).job? jobId) (.value "unknown or unleased job"))
  lift (require (job.nodeId == nodeId && decide (job.state ≠ .queued))
    (.value "unknown or unleased job"))
  match job.state with
  | .leased leaseUntil =>
    lift (require (!decide (leaseUntil < now)) (.value "job lease expired"))
    let accepted ← lift (compareDigest text expectedDigest)
    let state := if accepted then
        if job.quorum.isSome then .awaitingQuorum else .verified
      else .rejected
    modify (·.setJob id { job with state := state, resultDigest := some text })
    return state
  | state =>
    let recorded ← lift (orRaise job.resultDigest .key)
    lift (require (recorded == text) (.value "conflicting result"))
    return state

/-- The fields of a statement. -/
def statementFields : List String := ["job_id", "node_id", "result_digest", "accepted", "verifier_id"]

/-- A key and a signature that verifies under it. -/
def verifySignature (key signature : String) (statement : Json ν) : Except PyError Unit := do
  let publicKey ← loadKey ed (.str key : Json ν)
  let bytes ← bytesFromHex (.str signature : Json ν)
  require (ed.verifies publicKey bytes (canonicalJson py statement)) .invalidSignature

/-- A `ValueError` or an invalid signature becomes a `ValueError` with a message of its own. -/
def asValueError (message : String) (x : Except PyError Unit) : Except PyError Unit :=
  match x with
  | .error (.value _) | .error .invalidSignature => .error (.value message)
  | x => x

/-- What does not raise is left as it is. -/
lemma asValueError_eq_ok {message : String} {x : Except PyError Unit} :
    asValueError message x = .ok () ↔ x = .ok () := by
  unfold asValueError
  split <;> simp

/-- A verifier votes on a result: the state of the job, the votes that accept, and how many are
required. -/
def attest (verifierId : String) (statement signature : Json ν) :
    EStateM PyError (OlcState τ ν) (JobState τ × ℕ × ℕ) := do
  let fields ← lift (orRaise statement.dict? (.value "invalid statement"))
  lift (require (hasKeys fields statementFields)
    (.value "invalid statement"))
  let voter ← lift (statement.field "verifier_id")
  let accepted ← lift (statement.field "accepted")
  lift (require (voter.eqv (.str verifierId) && accepted.isBool) (.value "invalid attestation"))
  let signature ← lift (orRaise signature.str? (.value "invalid attestation"))
  let jobId ← lift (statement.field "job_id")
  lift (require jobId.hashable .type)
  let (id, job) ← lift (orRaise ((← get).job? jobId) (.value "attestation does not match job"))
  lift (require (decide (job.state = .awaitingQuorum ∨ job.state = .quorumVerified ∨
    job.state = .disputed)) (.value "attestation does not match job"))
  let nodeId ← lift (statement.field "node_id")
  lift (require (nodeId.eqv (.str job.nodeId)) (.value "attestation does not match job"))
  let recorded ← lift (orRaise job.resultDigest .key)
  let digest ← lift (statement.field "result_digest")
  lift (require (digest.eqv (.str recorded)) (.value "attestation does not match job"))
  lift (require (decide (g.verifierKeys.get? verifierId =
    job.quorum.bind fun q => q.verifierKeys.get? verifierId)) (.value "attestation does not match job"))
  let quorum ← lift (orRaise job.quorum .key)
  let key ← lift (orRaise (quorum.verifierKeys.get? verifierId) .key)
  lift (asValueError "invalid verifier signature" (verifySignature py ed key signature statement))
  match quorum.attestations.get? verifierId with
  | some recorded =>
    lift (require (recorded.statement.eqv statement && recorded.signature == signature)
      (.value "conflicting attestation"))
    return (job.state, quorum.approvals, quorum.quorumRequired)
  | none =>
    lift (require (decide (job.state = .awaitingQuorum)) (.value "quorum already reached"))
    let voted := quorum.vote verifierId ⟨statement, signature⟩
    let state := voted.decision job.state
    modify (·.setJob id { job with state := state, quorum := some voted })
    return (state, voted.approvals, voted.quorumRequired)

/-- Perform a call at a clock reading. -/
def perform (now : τ) : OlcCall ν → EStateM PyError (OlcState τ ν) Unit
  | .heartbeat nodeId capabilities => heartbeat now nodeId capabilities
  | .enqueue jobId => do
    let _ ← g.enqueue jobId
  | .lease nodeId => do
    let _ ← lease now nodeId
  | .result nodeId jobId digest => do
    let _ ← result now nodeId jobId digest
  | .attest verifierId statement signature => do
    let _ ← g.attest py ed verifierId statement signature

/-! ## What a call can do -/

/-- A vote of a verifier on the result of a job, signed under a key. -/
structure Attests (jobId nodeId digest verifierId key : String) (a : OlcAttestation ν) : Prop where
  fields : ∃ fields, a.statement.dict? = some fields ∧ hasKeys fields statementFields = true
  jobId : a.statement.field "job_id" = .ok (.str jobId)
  nodeId : a.statement.field "node_id" = .ok (.str nodeId)
  digest : a.statement.field "result_digest" = .ok (.str digest)
  verifierId : a.statement.field "verifier_id" = .ok (.str verifierId)
  accepted : ∃ b, a.statement.field "accepted" = .ok (.bool b)
  signed : verifySignature py ed key a.signature a.statement = .ok ()

/-- The state of a job after its result has been accepted. -/
def stateOfResult (job : OlcJob τ ν) (digest : String) : JobState τ :=
  if digest = expectedDigest then if job.quorum.isSome then .awaitingQuorum else .verified
  else .rejected

/-- A call writes a job: it is enqueued, leased, answered or voted on. -/
inductive Writes (s : OlcState τ ν) (now : τ) : OlcCall ν → String → OlcJob τ ν → Prop
  | enqueue (jobId : String) {roster : VerifierRoster} (provisioned : g.roster = some roster) :
      Writes s now (.enqueue jobId) jobId
        ⟨olcWorkerId, .queued, none, some ⟨roster.keys, 2, ∅⟩, none⟩
  | lease (nodeId : String) {jobId : String} {job : OlcJob τ ν}
      (free : ∀ i j, s.jobs.get? i = some j → holdsLease now nodeId j = false)
      (found : s.jobs.get? jobId = some job) (can : leasable now nodeId job = true) :
      Writes s now (.lease nodeId) jobId { job with state := .leased (now + 120) }
  | result (jobId digest : String) {job : OlcJob τ ν} {leaseUntil : τ}
      (found : s.jobs.get? jobId = some job) (leased : job.state = .leased leaseUntil)
      (unexpired : now ≤ leaseUntil) (isDigest : isDigest digest = true) :
      Writes s now (.result job.nodeId (.str jobId) (.str digest)) jobId
        { job with state := stateOfResult job digest, resultDigest := some digest }
  | attest (verifierId jobId digest key : String) {job : OlcJob τ ν} {quorum : JobQuorum ν}
      (a : OlcAttestation ν) (found : s.jobs.get? jobId = some job)
      (awaiting : job.state = .awaitingQuorum) (recorded : job.resultDigest = some digest)
      (hasQuorum : job.quorum = some quorum)
      (keyed : quorum.verifierKeys.get? verifierId = some key)
      (current : g.verifierKeys.get? verifierId = some key)
      (first : quorum.attestations.get? verifierId = none)
      (attests : Attests py ed jobId job.nodeId digest verifierId key a) :
      Writes s now (.attest verifierId a.statement (.str a.signature)) jobId { job with
        state := (quorum.vote verifierId a).decision job.state
        quorum := some (quorum.vote verifierId a) }

/-- The effect of a call on the store, and whether the call returns. -/
inductive Effect (s : OlcState τ ν) (now : τ) (e : OlcCall ν) : Bool → OlcState τ ν → Prop
  | same (returns : Bool) : Effect s now e returns s
  | heartbeat (workers : Dict String (τ × Json ν)) :
      Effect s now e true { s with workers := workers }
  | write (jobId : String) (job : OlcJob τ ν) (h : Writes py ed g s now e jobId job) :
      Effect s now e true (s.setJob jobId job)

variable {py ed g} {s t : OlcState τ ν} {now : τ} {e : OlcCall ν}

omit [LinearOrder τ] [Add τ] [OfNat τ 120] [PyNumber ν] in
/-- The job with an id that was sent is under this id. -/
lemma job?_eq_some {id : Json ν} {jobId : String} {job : OlcJob τ ν} :
    s.job? id = some (jobId, job) ↔ id = .str jobId ∧ s.jobs.get? jobId = some job := by
  cases id with
  | str i =>
    simp only [OlcState.job?, Option.map_eq_some_iff, Prod.mk.injEq, Json.str.injEq]
    constructor
    · rintro ⟨other, h, rfl, rfl⟩
      exact ⟨rfl, h⟩
    · rintro ⟨rfl, h⟩
      exact ⟨job, h, rfl, rfl⟩
  | _ => simp [OlcState.job?]

omit [Add τ] [OfNat τ 120] [PyNumber ν] in
/-- A worker holds a lease that has not expired. -/
lemma holdsLease_iff {nodeId : String} {job : OlcJob τ ν} : holdsLease now nodeId job = true ↔
    job.nodeId = nodeId ∧ ∃ u, job.state = .leased u ∧ now ≤ u := by
  unfold holdsLease
  rw [Bool.and_eq_true, beq_iff_eq]
  refine and_congr_right fun _ => ?_
  cases job.state <;> simp

omit [Add τ] [OfNat τ 120] [PyNumber ν] in
/-- A job of a worker that is queued or has an expired lease. -/
lemma leasable_iff {nodeId : String} {job : OlcJob τ ν} : leasable now nodeId job = true ↔
    job.nodeId = nodeId ∧ (job.state = .queued ∨ ∃ u, job.state = .leased u ∧ u < now) := by
  unfold leasable
  rw [Bool.and_eq_true, beq_iff_eq]
  refine and_congr_right fun _ => ?_
  cases job.state <;> simp

section

variable (py ed g s now)

/-- What a lease does. -/
lemma ends_lease (nodeId : String) : Ends (lease now nodeId) s
    (fun _ t => Effect py ed g s now (.lease nodeId) true t)
    fun _ t => Effect py ed g s now (.lease nodeId) false t := by
  unfold lease
  rw [ends_bind, ends_get]
  split_ifs with hbusy
  · exact ends_pure.mpr (.same ..)
  rw [ends_bind, ends_get]
  cases hfind : s.jobs.entries.find? fun p => leasable now nodeId p.2 with
  | none => exact ends_pure.mpr (.same ..)
  | some p =>
    obtain ⟨jobId, job⟩ := p
    rw [ends_bind, ends_modify]
    have hcan : leasable now nodeId job = true := by simpa using List.find?_some hfind
    refine ends_pure.mpr (.write _ _ (.lease nodeId (fun i j hj => ?_)
      (Dict.get?_eq_some_iff.mpr (List.mem_of_find?_eq_some hfind)) hcan))
    by_contra hholds
    exact hbusy (List.any_eq_true.mpr ⟨j, Dict.mem_values_iff.mpr ⟨i, hj⟩, by simpa using hholds⟩)

/-- What a result does. -/
lemma ends_result (nodeId : String) (jobId digest : Json ν) :
    Ends (result now nodeId jobId digest) s
    (fun _ t => Effect py ed g s now (.result nodeId jobId digest) true t)
    fun _ t => Effect py ed g s now (.result nodeId jobId digest) false t := by
  simp only [result, ends_bind, ends_get, ends_lift, orRaise_eq_ok, require_eq_ok, Bool.and_eq_true,
    beq_iff_eq, decide_eq_true_eq, Json.str?_eq_some]
  refine ⟨fun text htext => ⟨fun _ hdigest => ⟨fun _ _ => ⟨fun p hp => ⟨fun _ hjob => ?_,
    fun _ _ => .same ..⟩, fun _ _ => .same ..⟩, fun _ _ => .same ..⟩, fun _ _ => .same ..⟩,
    fun _ _ => .same ..⟩
  obtain ⟨id, job⟩ := p
  obtain ⟨rfl, hfound⟩ := job?_eq_some.mp hp
  obtain ⟨rfl, hqueued⟩ := hjob
  subst htext
  dsimp only
  cases hstate : job.state with
  | leased leaseUntil =>
    simp only [ends_bind, ends_lift, require_eq_ok, Bool.not_eq_true', decide_eq_false_iff_not,
      not_lt, ends_modify, ends_pure]
    refine ⟨fun _ hunexpired => ⟨fun accepted haccepted => ?_, fun _ _ => .same ..⟩,
      fun _ _ => .same ..⟩
    have hstateOf : (if accepted = true then
        if job.quorum.isSome = true then JobState.awaitingQuorum else .verified else .rejected) =
        stateOfResult job text := by
      rw [← beq_of_compareDigest haccepted]
      simp only [stateOfResult, beq_iff_eq]
    rw [hstateOf]
    exact .write _ _ (.result id text hfound hstate hunexpired hdigest)
  | queued => exact (hqueued hstate).elim
  | _ =>
    simp only [ends_bind, ends_lift, orRaise_eq_ok, require_eq_ok, ends_pure]
    exact ⟨fun _ _ => ⟨fun _ _ => .same .., fun _ _ => .same ..⟩, fun _ _ => .same ..⟩

/-- What a vote does. -/
lemma ends_attest (verifierId : String) (statement signature : Json ν) :
    Ends (g.attest py ed verifierId statement signature) s
      (fun _ t => Effect py ed g s now (.attest verifierId statement signature) true t)
      fun _ t => Effect py ed g s now (.attest verifierId statement signature) false t := by
  simp only [attest, ends_bind, ends_get, ends_lift, orRaise_eq_ok, require_eq_ok, Bool.and_eq_true,
    decide_eq_true_eq, Json.str?_eq_some, Json.eqv_str_right]
  refine ⟨fun fields hfields => ⟨fun _ hkeys => ⟨fun voter hvoter => ⟨fun accepted haccepted =>
    ⟨fun _ hvalid => ⟨fun text htext => ⟨fun id hid => ⟨fun _ _ => ⟨fun p hp => ⟨fun _ hopen =>
    ⟨fun nodeId hnodeId => ⟨fun _ hnode => ⟨fun recorded hrecorded => ⟨fun digest hdigest =>
    ⟨fun _ hsame => ⟨fun _ hcurrent => ⟨fun quorum hquorum => ⟨fun key hkey => ⟨fun _ hsigned => ?_,
    ?_⟩, ?_⟩, ?_⟩, ?_⟩, ?_⟩, ?_⟩, ?_⟩, ?_⟩, ?_⟩, ?_⟩, ?_⟩, ?_⟩, ?_⟩, ?_⟩, ?_⟩, ?_⟩, ?_⟩, ?_⟩, ?_⟩
  all_goals try exact fun _ _ => .same ..
  obtain ⟨jobId, job⟩ := p
  obtain ⟨rfl, hfound⟩ := job?_eq_some.mp hp
  obtain ⟨rfl, hbool⟩ := hvalid
  subst hnode hsame htext
  obtain ⟨b, rfl⟩ := Json.isBool_iff.mp hbool
  dsimp only at *
  cases hvote : quorum.attestations.get? verifierId with
  | some vote =>
    simp only [ends_bind, ends_lift, ends_pure]
    exact ⟨fun _ _ => .same .., fun _ _ => .same ..⟩
  | none =>
    simp only [ends_bind, ends_lift, require_eq_ok, decide_eq_true_eq, ends_modify, ends_pure]
    refine ⟨fun _ hawaiting => ?_, fun _ _ => .same ..⟩
    have hkeyed : g.verifierKeys.get? verifierId = some key := by
      rw [hcurrent, hquorum]
      exact hkey
    exact .write _ _ (.attest verifierId jobId recorded key ⟨statement, text⟩ hfound hawaiting
      hrecorded hquorum hkey hkeyed hvote ⟨⟨fields, hfields, hkeys⟩, hid, hnodeId, hdigest, hvoter,
        ⟨b, haccepted⟩, asValueError_eq_ok.mp hsigned⟩)

/-- **What a call can do.** -/
theorem effect (e : OlcCall ν) : Effect py ed g s now e (returns (g.perform py ed now e) s)
    (after (g.perform py ed now e) s) := by
  refine (returns_after_iff (P := Effect py ed g s now e)).mpr ?_
  cases e with
  | heartbeat nodeId capabilities =>
    simp only [perform, heartbeat, ends_bind, ends_lift, orRaise_eq_ok, require_eq_ok, ends_modify]
    exact ⟨fun _ _ => ⟨fun _ _ => ⟨fun _ _ => ⟨fun _ _ => ⟨fun _ _ => .heartbeat .., fun _ _ => .same ..⟩,
      fun _ _ => .same ..⟩, fun _ _ => .same ..⟩, fun _ _ => .same ..⟩, fun _ _ => .same ..⟩
  | enqueue jobId =>
    simp only [perform, enqueue, ends_bind, ends_lift, require_eq_ok, ends_modify, ends_pure]
    refine ⟨fun _ hsize => ?_, fun _ _ => .same ..⟩
    unfold verifierKeys at hsize ⊢
    cases hroster : g.roster with
    | some roster => exact .write _ _ (.enqueue jobId hroster)
    | none =>
      rw [hroster] at hsize
      cases hsize
  | lease nodeId => exact Ends.bind (ends_lease py ed g s now nodeId) fun _ _ h => h
  | result nodeId jobId digest =>
    exact Ends.bind (ends_result py ed g s now nodeId jobId digest) fun _ _ h => h
  | attest verifierId statement signature =>
    exact Ends.bind (ends_attest py ed g s now verifierId statement signature) fun _ _ h => h

end

end OlcGateway

end SplitChain
