import SplitChain.Model.Finality

set_option relaxedAutoImplicit false
set_option autoImplicit false

/-!
# Role takeover

The recovery experiment `splitchain.recovery`: two thirds of the observers accuse the holder of the
active role, which opens a challenge; the accused can refute it in a window of rounds after the
round of the accusation; a challenge that outlasts its window deposes the role.

## Main definitions

* `SplitChain.FailureClaim`, `SplitChain.Counterproof`, `SplitChain.RecoverySigner`.
* `SplitChain.RecoveryCoordinator`, with `submitClaim`, `submitCounterproof` and `advance`.
* `SplitChain.RecoveryCoordinator.Effect` — what a call can do.

## Main results

* `SplitChain.RecoveryCoordinator.effect` — every call has one of the effects.
* `SplitChain.RecoveryCoordinator.takeover_sound` — what has happened before a takeover.
-/

namespace SplitChain

open Raise Proc

open PyNumber (ofInt)

variable {ν : Type} [PyNumber ν]

/-! ## Proofs -/

/-- The kinds of failure. -/
inductive FailureKind where
  | noReveal | invalidReveal | invalidBlock | equivocation | censorship | mergeFraud
deriving DecidableEq, Repr

/-- The name of a kind of failure. -/
def FailureKind.value : FailureKind → String
  | noReveal => "no_reveal"
  | invalidReveal => "invalid_reveal"
  | invalidBlock => "invalid_block"
  | equivocation => "equivocation"
  | censorship => "censorship"
  | mergeFraud => "merge_fraud"

/-- An observer's claim that the holder of a role has failed. -/
structure FailureClaim where
  reporter : String
  accusedRole : FinalityRole
  branchId : String
  protocolRound : ℤ
  kind : FailureKind
  evidenceDigest : String
  signature : String
deriving DecidableEq

/-- The part of a claim that is signed. -/
def FailureClaim.unsigned (claim : FailureClaim) : Json ν :=
  .obj [("accused_role", .str claim.accusedRole.value), ("branch_id", .str claim.branchId),
    ("evidence_digest", .str claim.evidenceDigest), ("kind", .str claim.kind.value),
    ("protocol_round", .num (ofInt claim.protocolRound)), ("reporter", .str claim.reporter)]

/-- The answer of the accused. -/
structure Counterproof where
  actor : String
  accusedRole : FinalityRole
  branchId : String
  protocolRound : ℤ
  evidenceDigest : String
  signature : String
deriving DecidableEq

/-- The part of a counterproof that is signed. -/
def Counterproof.unsigned (proof : Counterproof) : Json ν :=
  .obj [("accused_role", .str proof.accusedRole.value), ("actor", .str proof.actor),
    ("branch_id", .str proof.branchId), ("evidence_digest", .str proof.evidenceDigest),
    ("protocol_round", .num (ofInt proof.protocolRound))]

/-- An observer with its certificate and key. -/
structure RecoverySigner where
  certificate : NodeCertificate
  key : List UInt8

namespace RecoverySigner

/-- A signed claim. -/
def claim (py : PyLib ν) (s : RecoverySigner) (accusedRole : FinalityRole) (branchId : String)
    (protocolRound : ℤ) (kind : FailureKind) (evidenceDigest : String) : FailureClaim :=
  let unsigned : FailureClaim :=
    ⟨s.certificate.nodeId, accusedRole, branchId, protocolRound, kind, evidenceDigest, ""⟩
  { unsigned with signature := hmacDigest py s.key unsigned.unsigned }

/-- A signed counterproof. -/
def counterproof (py : PyLib ν) (s : RecoverySigner) (accusedRole : FinalityRole)
    (branchId : String) (protocolRound : ℤ) (evidenceDigest : String) : Counterproof :=
  let unsigned : Counterproof :=
    ⟨s.certificate.nodeId, accusedRole, branchId, protocolRound, evidenceDigest, ""⟩
  { unsigned with signature := hmacDigest py s.key unsigned.unsigned }

/-- What is signed does not depend on the signature. -/
lemma signature_counterproof (py : PyLib ν) (s : RecoverySigner) (accusedRole : FinalityRole)
    (branchId : String) (protocolRound : ℤ) (evidenceDigest : String) :
    (s.counterproof py accusedRole branchId protocolRound evidenceDigest).signature =
      hmacDigest py s.key
        (s.counterproof py accusedRole branchId protocolRound evidenceDigest).unsigned := by
  simp only [counterproof, Counterproof.unsigned]

end RecoverySigner

/-! ## The coordinator -/

/-- The order in which the roles take over. -/
def FinalityRole.order : List FinalityRole := [primary, secondary, tertiary]

/-- The role that takes over from another one. -/
def FinalityRole.successor? : FinalityRole → Option FinalityRole
  | primary => some secondary
  | secondary => some tertiary
  | tertiary => none

/-- The coordinator of the takeovers on one branch. -/
structure RecoveryCoordinator where
  authority : CertificateAuthority
  branchId : String
  roleNodes : FinalityRole → String
  observerCount : ℕ
  counterproofWindow : ℤ
  three_le : 3 ≤ observerCount
  positive : 1 ≤ counterproofWindow

/-- A challenge that has been refuted. -/
structure Dispute where
  role : FinalityRole
  round : ℤ
  counterproof : String
deriving DecidableEq

/-- The state of the coordinator. -/
structure RecoveryState where
  activeRole : FinalityRole
  claims : Dict String FailureClaim
  pendingDeadline : Option ℤ
  pendingRound : Option ℤ
  quarantined : Finset String
  disputed : List Dispute
  aborted : Bool

namespace RecoveryState

/-- Quarantine a reporter. -/
def quarantine (s : RecoveryState) (reporter : String) : RecoveryState :=
  { s with quarantined := insert reporter s.quarantined }

/-- Forget the claims and the challenge. -/
def clear (s : RecoveryState) : RecoveryState :=
  { s with claims := ∅, pendingDeadline := none, pendingRound := none }

/-- The challenge is refuted. -/
def refute (s : RecoveryState) (round : ℤ) (evidenceDigest : String) : RecoveryState :=
  { s.clear with disputed := s.disputed ++ [⟨s.activeRole, round, evidenceDigest⟩] }

/-- The active role is deposed. -/
def depose (s : RecoveryState) : RecoveryState :=
  match s.activeRole.successor? with
  | none => { s.clear with aborted := true }
  | some role => { s.clear with activeRole := role }

end RecoveryState

/-- A call of the coordinator with its arguments. -/
inductive RecoveryCall where
  | claim (claim : FailureClaim) (certificate : NodeCertificate) (key : List UInt8)
  | counterproof (proof : Counterproof) (certificate : NodeCertificate) (key : List UInt8)
      (currentRound : ℤ)
  | advance (currentRound : ℤ)

namespace RecoveryCoordinator

/-- The state before the first call. -/
def start : RecoveryState := ⟨.primary, ∅, none, none, ∅, [], false⟩

variable (py : PyLib ν) (r : RecoveryCoordinator)

/-- The number of claims that opens a challenge. -/
def quorumSize : ℕ := (2 * r.observerCount + 2) / 3

/-- `_verify` -/
def verifyProof (certificate : NodeCertificate) (actor : String) (currentRound : ℤ)
    (unsigned : Json ν) (signature : String) (key : List UInt8) : Except PyError Unit := do
  require (certificate.nodeId == actor) (.protocol "proof actor does not match certificate")
  let valid ← r.authority.verify py certificate currentRound "observer"
  require valid (.protocol "proof certificate is invalid")
  let signed ← compareDigest (hmacDigest py key unsigned) signature
  require signed (.protocol "invalid failure-proof signature")

/-- Record a claim; enough claims open a challenge. -/
def take (s : RecoveryState) (claim : FailureClaim) : RecoveryState :=
  let claims := s.claims.set claim.reporter claim
  if r.quorumSize ≤ claims.size then
    { s with
      claims := claims
      pendingRound := some claim.protocolRound
      pendingDeadline := some (claim.protocolRound + r.counterproofWindow) }
  else { s with claims := claims }

/-- Submit a claim: whether it opens a challenge. -/
def submitClaim (claim : FailureClaim) (certificate : NodeCertificate) (key : List UInt8) :
    EStateM PyError RecoveryState Bool := do
  lift (require (!(← get).aborted && (← get).pendingDeadline.isNone)
    (.protocol "recovery is not accepting failure claims"))
  lift (require (claim.branchId == r.branchId && claim.accusedRole == (← get).activeRole)
    (.protocol "failure claim targets the wrong branch or role"))
  lift (r.verifyProof py certificate claim.reporter claim.protocolRound claim.unsigned
    claim.signature key)
  match (← get).claims.get? claim.reporter with
  | some existing =>
    if existing = claim then return false
    modify (·.quarantine claim.reporter)
    throw (.protocol "reporter submitted conflicting failure evidence")
  | none =>
    lift (require ((← get).claims.values.head?.all fun c => c.protocolRound == claim.protocolRound)
      (.protocol "failure claims are from different protocol rounds"))
    modify (r.take · claim)
    return (← get).pendingDeadline.isSome

/-- Submit a counterproof. -/
def submitCounterproof (proof : Counterproof) (certificate : NodeCertificate) (key : List UInt8)
    (currentRound : ℤ) : EStateM PyError RecoveryState Unit := do
  let deadline ← lift (orRaise (← get).pendingDeadline (.protocol "no failure challenge is pending"))
  let round ← lift (orRaise (← get).pendingRound (.protocol "no failure challenge is pending"))
  lift (require (decide (currentRound ≤ deadline)) (.protocol "counterproof window is closed"))
  lift (require (proof.actor == r.roleNodes (← get).activeRole &&
    proof.accusedRole == (← get).activeRole)
    (.protocol "counterproof is not from the accused role holder"))
  lift (require (proof.branchId == r.branchId && proof.protocolRound == round)
    (.protocol "counterproof targets the wrong branch or round"))
  lift (r.verifyProof py certificate proof.actor currentRound proof.unsigned proof.signature key)
  modify (·.refute round proof.evidenceDigest)

/-- Let a challenge take effect whose window has passed: the role that is active now. -/
def advance (currentRound : ℤ) : EStateM PyError RecoveryState (Option FinalityRole) := do
  let deadline ← lift (orRaise (← get).pendingDeadline
    (.protocol "no proof-gated takeover is pending"))
  lift (require (decide (deadline < currentRound)) (.protocol "counterproof window remains open"))
  let successor := (← get).activeRole.successor?
  modify RecoveryState.depose
  return successor

/-- Perform a call. -/
def perform : RecoveryCall → EStateM PyError RecoveryState Unit
  | .claim claim certificate key => do
    let _ ← r.submitClaim py claim certificate key
  | .counterproof proof certificate key currentRound =>
    r.submitCounterproof py proof certificate key currentRound
  | .advance currentRound => do
    let _ ← advance currentRound

/-- The state after a call, whether it returns or raises. -/
def step (s : RecoveryState) (e : RecoveryCall) : Option RecoveryState :=
  some (after (r.perform py e) s)

/-- Whether a call is accepted: it returns. -/
def accepts (s : RecoveryState) (e : RecoveryCall) : Bool := returns (r.perform py e) s

/-! ## What a call can do -/

/-- What a proof has passed: its certificate is valid in a round, and its signature verifies. -/
structure Proves (certificate : NodeCertificate) (actor : String) (currentRound : ℤ)
    (unsigned : Json ν) (signature : String) (key : List UInt8) : Prop where
  named : certificate.nodeId = actor
  certified : r.authority.verify py certificate currentRound "observer" = .ok true
  signed : signature = hmacDigest py key unsigned

/-- A claim has passed the checks that come before the one of the reporter's earlier claim. -/
structure Admits (s : RecoveryState) (claim : FailureClaim) (certificate : NodeCertificate)
    (key : List UInt8) : Prop where
  running : s.aborted = false
  unchallenged : s.pendingDeadline = none
  branchId : claim.branchId = r.branchId
  accused : claim.accusedRole = s.activeRole
  proves : r.Proves py certificate claim.reporter claim.protocolRound claim.unsigned
    claim.signature key

/-- A claim quarantines its reporter: it differs from the reporter's claim at hand. -/
def Conflicts (s : RecoveryState) (claim : FailureClaim) (certificate : NodeCertificate)
    (key : List UInt8) : Prop :=
  r.Admits py s claim certificate key ∧
    ∃ existing, s.claims.get? claim.reporter = some existing ∧ existing ≠ claim

/-- A claim is recorded: it is the first one of its reporter, for the round of the others. -/
structure Records (s : RecoveryState) (claim : FailureClaim) (certificate : NodeCertificate)
    (key : List UInt8) : Prop where
  admits : r.Admits py s claim certificate key
  first : s.claims.get? claim.reporter = none
  sameRound : ∀ c, s.claims.values.head? = some c → c.protocolRound = claim.protocolRound

/-- How a claim ends: whether it is accepted, and what it makes of the state. -/
inductive ClaimOutcome (s : RecoveryState) (claim : FailureClaim) (certificate : NodeCertificate)
    (key : List UInt8) : Bool → RecoveryState → Prop
  | refused : ClaimOutcome s claim certificate key false s
  | duplicate (admits : r.Admits py s claim certificate key)
      (recorded : s.claims.get? claim.reporter = some claim) :
      ClaimOutcome s claim certificate key true s
  | conflict (conflicts : r.Conflicts py s claim certificate key) :
      ClaimOutcome s claim certificate key false (s.quarantine claim.reporter)
  | claim (records : r.Records py s claim certificate key) :
      ClaimOutcome s claim certificate key true (r.take s claim)

/-- The effect of a call on the state, and whether the call is accepted. -/
inductive Effect (s : RecoveryState) : RecoveryCall → Bool → RecoveryState → Prop
  | rejected (e : RecoveryCall) : Effect s e false s
  | duplicate (claim : FailureClaim) (certificate : NodeCertificate) (key : List UInt8) :
      Effect s (.claim claim certificate key) true s
  | conflicting (claim : FailureClaim) (certificate : NodeCertificate) (key : List UInt8)
      (running : s.aborted = false) :
      Effect s (.claim claim certificate key) false (s.quarantine claim.reporter)
  | claim (claim : FailureClaim) (certificate : NodeCertificate) (key : List UInt8)
      (running : s.aborted = false) (open_ : s.pendingDeadline = none)
      (branchId : claim.branchId = r.branchId) (accused : claim.accusedRole = s.activeRole)
      (proves : r.Proves py certificate claim.reporter claim.protocolRound claim.unsigned
        claim.signature key)
      (first : s.claims.get? claim.reporter = none)
      (sameRound : ∀ c, s.claims.values.head? = some c → c.protocolRound = claim.protocolRound) :
      Effect s (.claim claim certificate key) true (r.take s claim)
  | counterproof (proof : Counterproof) (certificate : NodeCertificate) (key : List UInt8)
      (currentRound : ℤ) {deadline round : ℤ} (pending : s.pendingDeadline = some deadline)
      (challenged : s.pendingRound = some round) (timely : currentRound ≤ deadline)
      (actor : proof.actor = r.roleNodes s.activeRole) (accused : proof.accusedRole = s.activeRole)
      (branchId : proof.branchId = r.branchId) (sameRound : proof.protocolRound = round)
      (proves : r.Proves py certificate proof.actor currentRound proof.unsigned proof.signature
        key) :
      Effect s (.counterproof proof certificate key currentRound) true
        (s.refute round proof.evidenceDigest)
  | advance (currentRound : ℤ) {deadline : ℤ} (pending : s.pendingDeadline = some deadline)
      (late : deadline < currentRound) : Effect s (.advance currentRound) true s.depose

variable {py r} {s t : RecoveryState} {e : RecoveryCall}

/-- A proof that is verified has passed its checks. -/
lemma proves_of_verifyProof {certificate : NodeCertificate} {actor : String} {currentRound : ℤ}
    {unsigned : Json ν} {signature : String} {key : List UInt8}
    (h : r.verifyProof py certificate actor currentRound unsigned signature key = .ok ()) :
    r.Proves py certificate actor currentRound unsigned signature key := by
  simp only [verifyProof, bind_eq_ok, require_eq_ok, exists_const, beq_iff_eq] at h
  obtain ⟨hnamed, valid, hvalid, rfl, signed, hsigned, rfl⟩ := h
  exact ⟨hnamed, hvalid, (eq_of_compareDigest hsigned).symm⟩

/-- A proof that has passed its checks is verified. -/
lemma verifyProof_of_proves {certificate : NodeCertificate} {actor : String} {currentRound : ℤ}
    {unsigned : Json ν} {signature : String} {key : List UInt8}
    (h : r.Proves py certificate actor currentRound unsigned signature key) :
    r.verifyProof py certificate actor currentRound unsigned signature key = .ok () := by
  have hsigned : compareDigest (hmacDigest py key unsigned) signature = .ok true := by
    rw [h.signed]
    exact compareDigest_self ..
  simp only [verifyProof, bind_eq_ok, require_eq_ok, exists_const, beq_iff_eq]
  exact ⟨h.named, true, h.certified, rfl, true, hsigned, rfl⟩

/-- **How a claim ends.**

**Proof sketch.** The guards are passed one after the other; each that fails leaves the state as it
is, or has quarantined the reporter. -/
theorem submitClaim_outcome (py : PyLib ν) (r : RecoveryCoordinator) (s : RecoveryState)
    (claim : FailureClaim) (certificate : NodeCertificate) (key : List UInt8) :
    r.ClaimOutcome py s claim certificate key
      (r.accepts py s (.claim claim certificate key))
      (after (r.perform py (.claim claim certificate key)) s) := by
  refine (returns_after_iff (P := r.ClaimOutcome py s claim certificate key)).mpr ?_
  simp only [perform, submitClaim, ends_bind, ends_get, ends_guard, require_eq_ok, Bool.and_eq_true,
    Bool.not_eq_true', Option.isNone_iff_eq_none, beq_iff_eq, ends_pure]
  refine ⟨fun _ _ => .refused, fun hstanding => ⟨fun _ _ => .refused,
    fun hfits => ⟨fun _ _ => .refused, fun hverified => ?_⟩⟩⟩
  obtain ⟨hrunning, hopen⟩ := hstanding
  obtain ⟨hbranch, haccused⟩ := hfits
  have hadmits : r.Admits py s claim certificate key :=
    ⟨hrunning, hopen, hbranch, haccused, proves_of_verifyProof hverified⟩
  cases hexisting : s.claims.get? claim.reporter with
  | some existing =>
    dsimp only
    split_ifs with hsame
    · exact ends_pure.mpr (.duplicate hadmits (hsame ▸ hexisting))
    · rw [ends_bind, ends_modify]
      exact ends_throw.mpr (.conflict ⟨hadmits, existing, hexisting, hsame⟩)
  | none =>
    simp only [ends_bind, ends_get, ends_guard, require_eq_ok, ends_modify, ends_pure]
    refine ⟨fun _ _ => .refused, fun hround => .claim ⟨hadmits, hexisting, fun c hc => ?_⟩⟩
    rw [hc] at hround
    exact beq_iff_eq.mp hround

/-- A claim that passes its checks as the first one of its reporter is recorded. -/
lemma perform_of_records {claim : FailureClaim} {certificate : NodeCertificate} {key : List UInt8}
    (h : r.Records py s claim certificate key) :
    r.perform py (.claim claim certificate key) s = .ok () (r.take s claim) := by
  obtain ⟨⟨hrunning, hopen, hbranch, haccused, hproves⟩, hfirst, hround⟩ := h
  have hverified := verifyProof_of_proves hproves
  have hsame : s.claims.values.head?.all (fun c => c.protocolRound == claim.protocolRound) = true := by
    cases hhead : s.claims.values.head? with
    | none => rfl
    | some c => exact beq_iff_eq.mpr (hround c hhead)
  rw [eq_ok_iff]
  simp only [perform, submitClaim, ends_bind, ends_get, ends_lift, hverified, hrunning, hopen,
    hbranch, haccused, hfirst, hsame]
  simp [require]

/-- A claim that differs from its reporter's claim at hand quarantines the reporter. -/
lemma perform_of_conflicts {claim : FailureClaim} {certificate : NodeCertificate} {key : List UInt8}
    (h : r.Conflicts py s claim certificate key) :
    r.perform py (.claim claim certificate key) s =
      .error (.protocol "reporter submitted conflicting failure evidence")
        (s.quarantine claim.reporter) := by
  obtain ⟨⟨hrunning, hopen, hbranch, haccused, hproves⟩, existing, hexisting, hdiffers⟩ := h
  have hverified := verifyProof_of_proves hproves
  rw [eq_error_iff]
  simp only [perform, submitClaim, ends_bind, ends_get, ends_lift, hverified, hrunning, hopen,
    hbranch, haccused, hexisting, if_neg hdiffers]
  simp [require]

/-- An observer's claim has passed its checks, with a certificate valid in the round. -/
lemma proves_claim {signer : RecoverySigner} {accusedRole : FinalityRole} {branchId : String}
    {round : ℤ} {kind : FailureKind} {evidenceDigest : String}
    (hcertified : r.authority.verify py signer.certificate round "observer" = .ok true) :
    r.Proves py signer.certificate signer.certificate.nodeId round
      (signer.claim py accusedRole branchId round kind evidenceDigest).unsigned
      (signer.claim py accusedRole branchId round kind evidenceDigest).signature signer.key where
  named := rfl
  certified := hcertified
  signed := by simp only [RecoverySigner.claim, FailureClaim.unsigned]

/-- **What a call can do.**

**Proof sketch.** The guards of each call are passed one after the other; each that fails leaves the
state as it is. -/
theorem effect (py : PyLib ν) (r : RecoveryCoordinator) (s : RecoveryState) (e : RecoveryCall) :
    r.Effect py s e (r.accepts py s e) (after (r.perform py e) s) := by
  cases e with
  | claim claim certificate key =>
    have houtcome := submitClaim_outcome py r s claim certificate key
    generalize r.accepts py s (.claim claim certificate key) = accepted at houtcome ⊢
    generalize after (r.perform py (.claim claim certificate key)) s = t at houtcome ⊢
    cases houtcome with
    | refused => exact .rejected _
    | duplicate => exact .duplicate ..
    | conflict hconflicts => exact .conflicting _ _ _ hconflicts.1.running
    | claim hrecords =>
      obtain ⟨⟨hrunning, hopen, hbranch, haccused, hproves⟩, hfirst, hround⟩ := hrecords
      exact .claim _ _ _ hrunning hopen hbranch haccused hproves hfirst hround
  | counterproof proof certificate key currentRound =>
    refine (returns_after_iff (P := r.Effect py s _)).mpr ?_
    simp only [perform, submitCounterproof, ends_bind, ends_get, ends_lift, orRaise_eq_ok,
      require_eq_ok, Bool.and_eq_true, beq_iff_eq, decide_eq_true_eq, ends_modify]
    refine ⟨fun deadline hdeadline => ⟨fun round hround => ⟨fun _ htimely => ⟨fun _ hactor =>
      ⟨fun _ hbranch => ⟨fun _ hverified => ?_, fun _ _ => .rejected _⟩, fun _ _ => .rejected _⟩,
      fun _ _ => .rejected _⟩, fun _ _ => .rejected _⟩, fun _ _ => .rejected _⟩,
      fun _ _ => .rejected _⟩
    exact .counterproof _ _ _ _ hdeadline hround htimely hactor.1 hactor.2 hbranch.1 hbranch.2
      (proves_of_verifyProof hverified)
  | advance currentRound =>
    refine (returns_after_iff (P := r.Effect py s _)).mpr ?_
    simp only [perform, advance, ends_bind, ends_get, ends_lift, orRaise_eq_ok, require_eq_ok,
      decide_eq_true_eq, ends_modify, ends_pure]
    exact ⟨fun deadline hdeadline => ⟨fun _ hlate => .advance _ hdeadline hlate,
      fun _ _ => .rejected _⟩, fun _ _ => .rejected _⟩

/-! ## Runs -/

/-- The state after a step has the effect of the call. -/
lemma effect_of_step (h : r.step py s e = some t) : r.Effect py s e (r.accepts py s e) t :=
  Option.some.inj h ▸ effect py r s e

section History

variable (py r)

/-- A claim of a reporter against a role for a round is accepted, with a certificate valid in that
round and a signature that verifies. -/
def Claims (role : FinalityRole) (round : ℤ) (reporter : String) (s : RecoveryState)
    (e : RecoveryCall) : Prop :=
  ∃ claim certificate key, e = .claim claim certificate key ∧ r.accepts py s e = true ∧
    claim.reporter = reporter ∧ claim.accusedRole = role ∧ claim.branchId = r.branchId ∧
    claim.protocolRound = round ∧
    r.Proves py certificate reporter round claim.unsigned claim.signature key

/-- A claim opens the challenge for a round. -/
def Opens (round : ℤ) (s : RecoveryState) (e : RecoveryCall) : Prop :=
  s.pendingDeadline = none ∧ (∃ claim certificate key, e = .claim claim certificate key) ∧
    ∃ t, r.step py s e = some t ∧ t.pendingDeadline = some (round + r.counterproofWindow)

/-- The call is not a counterproof that is accepted. -/
def Unrefuted (s : RecoveryState) (e : RecoveryCall) : Prop :=
  ∀ proof certificate key currentRound, e = .counterproof proof certificate key currentRound →
    r.accepts py s e = false

/-- **The invariant of the coordinator**, after the calls so far: the claims at hand are for one
round and against the active role, each has been accepted and no counterproof since; and a pending
challenge was opened by enough of them. -/
structure Standing (calls : List RecoveryCall) (s : RecoveryState) : Prop where
  claimed : ∀ x c, s.claims.get? x = some c → Transition.Since (r.step py)
    (Claims py r s.activeRole c.protocolRound x) (Unrefuted py r) start calls
  common : ∀ x c y c', s.claims.get? x = some c → s.claims.get? y = some c' →
    c'.protocolRound = c.protocolRound
  pending : ∀ deadline, s.pendingDeadline = some deadline → ∃ round,
    s.pendingRound = some round ∧ deadline = round + r.counterproofWindow ∧
    r.quorumSize ≤ s.claims.size ∧ (∀ x c, s.claims.get? x = some c → c.protocolRound = round) ∧
    Transition.Since (r.step py) (Opens py r round) (Unrefuted py r) start calls
  aborted : s.aborted = true → s.pendingDeadline = none ∧ s.activeRole = .tertiary

end History

/-- A call that is no counterproof refutes nothing. -/
lemma unrefuted_of_ne (h : ∀ proof certificate key currentRound,
    e ≠ .counterproof proof certificate key currentRound) : Unrefuted py r s e :=
  fun _ _ _ _ he => (h _ _ _ _ he).elim

/-- A claim that is taken quarantines nobody. -/
lemma quarantined_take (r : RecoveryCoordinator) (s : RecoveryState) (claim : FailureClaim) :
    (r.take s claim).quarantined = s.quarantined := by
  unfold take
  dsimp only
  split_ifs <;> rfl

/-- A claim that is taken changes neither the role nor whether the coordinator has aborted. -/
lemma take_eq (r : RecoveryCoordinator) (s : RecoveryState) (claim : FailureClaim) :
    (r.take s claim).activeRole = s.activeRole ∧ (r.take s claim).aborted = s.aborted ∧
      (r.take s claim).claims = s.claims.set claim.reporter claim := by
  unfold take
  dsimp only
  split_ifs <;> exact ⟨rfl, rfl, rfl⟩

variable {calls : List RecoveryCall}

/-- No challenge, no claims: nothing to account for. -/
lemma standing_of_clear {calls : List RecoveryCall} (hclaims : s.claims = ∅)
    (hpending : s.pendingDeadline = none) (haborted : s.aborted = true → s.activeRole = .tertiary) :
    Standing py r calls s := by
  have hnone : ∀ x, s.claims.get? x = none := fun x => by rw [hclaims, Dict.get?_empty]
  refine ⟨fun x c hc => ?_, fun x c _ _ hc => ?_, fun deadline hdeadline => ?_,
    fun h => ⟨hpending, haborted h⟩⟩
  · rw [hnone] at hc
    cases hc
  · rw [hnone] at hc
    cases hc
  · rw [hpending] at hdeadline
    cases hdeadline

/-- A call that leaves claims, challenge and role as they are keeps the invariant. -/
lemma Standing.same (h : Standing py r calls s) (hrun : Transition.run (r.step py) start calls = some s)
    (hunrefuted : Unrefuted py r s e) (hclaims : t.claims = s.claims)
    (hdeadline : t.pendingDeadline = s.pendingDeadline) (hround : t.pendingRound = s.pendingRound)
    (hrole : t.activeRole = s.activeRole) (haborted : t.aborted = s.aborted) :
    Standing py r (calls ++ [e]) t := by
  have hsince : ∀ {P : RecoveryState → RecoveryCall → Prop},
      Transition.Since (r.step py) P (Unrefuted py r) start calls →
      Transition.Since (r.step py) P (Unrefuted py r) start (calls ++ [e]) := fun hP =>
    (Transition.since_concat hrun).mpr (.inr ⟨hP, hunrefuted⟩)
  refine ⟨fun x c hc => ?_, ?_, fun deadline hd => ?_, ?_⟩
  · rw [hrole]
    exact hsince (h.claimed x c (hclaims ▸ hc))
  · rw [hclaims]
    exact h.common
  · rw [hround, hclaims]
    obtain ⟨round, hr, hdl, hquorum, hsame, hopens⟩ := h.pending deadline (hdeadline ▸ hd)
    exact ⟨round, hr, hdl, hquorum, hsame, hsince hopens⟩
  · rw [haborted, hdeadline, hrole]
    exact h.aborted

/-- A claim that is taken keeps the invariant.

**Proof sketch.** The claims at hand are for the round of the first of them, which is the round of
the new one. If there are enough now, the new claim opens the challenge. -/
lemma Standing.take (h : Standing py r calls s)
    (hrun : Transition.run (r.step py) start calls = some s) {claim : FailureClaim}
    {certificate : NodeCertificate} {key : List UInt8}
    (hstep : r.step py s (.claim claim certificate key) = some (r.take s claim))
    (hclaims : Claims py r s.activeRole claim.protocolRound claim.reporter s
      (.claim claim certificate key))
    (hrunning : s.aborted = false) (hopen : s.pendingDeadline = none)
    (hhead : ∀ c, s.claims.values.head? = some c → c.protocolRound = claim.protocolRound) :
    Standing py r (calls ++ [.claim claim certificate key]) (r.take s claim) := by
  obtain ⟨hrole, haborted, htake⟩ := take_eq r s claim
  have hunrefuted : Unrefuted py r s (.claim claim certificate key) :=
    unrefuted_of_ne fun _ _ _ _ h => by cases h
  have hsame : ∀ x c, s.claims.get? x = some c → c.protocolRound = claim.protocolRound := by
    intro x c hc
    cases hvalues : s.claims.values with
    | nil =>
      have hmem := Dict.mem_values_iff.mpr ⟨x, hc⟩
      rw [hvalues] at hmem
      cases hmem
    | cons c₀ cs =>
      obtain ⟨y, hy⟩ := Dict.mem_values_iff.mp (hvalues ▸ List.mem_cons_self : c₀ ∈ s.claims.values)
      exact (h.common y c₀ x c hy hc).trans (hhead c₀ (by rw [hvalues]; rfl))
  have hround : ∀ x c, (s.claims.set claim.reporter claim).get? x = some c →
      c.protocolRound = claim.protocolRound := by
    intro x c hc
    rw [Dict.get?_set] at hc
    split_ifs at hc
    · rw [← Option.some.inj hc]
    · exact hsame x c hc
  refine ⟨fun x c hc => ?_, fun x c y c' hc hc' => ?_, fun deadline hdeadline => ?_, ?_⟩
  · rw [htake, Dict.get?_set] at hc
    rw [hrole, Transition.since_concat hrun]
    split_ifs at hc with hx
    · obtain rfl := Option.some.inj hc
      exact .inl (hx ▸ hclaims)
    · exact .inr ⟨h.claimed x c hc, hunrefuted⟩
  · rw [htake] at hc hc'
    exact (hround y c' hc').trans (hround x c hc).symm
  · rw [htake]
    unfold RecoveryCoordinator.take at hdeadline ⊢
    dsimp only at hdeadline ⊢
    split_ifs at hdeadline ⊢ with hquorum
    · obtain rfl := Option.some.inj hdeadline
      refine ⟨_, rfl, rfl, hquorum, hround, (Transition.since_concat hrun).mpr (.inl ⟨hopen,
        ⟨_, _, _, rfl⟩, _, hstep, ?_⟩)⟩
      unfold RecoveryCoordinator.take
      rw [if_pos hquorum]
    · rw [hopen] at hdeadline
      cases hdeadline
  · rw [haborted, hrunning]
    intro h
    cases h

/-- **Every call keeps the invariant.**

**Proof sketch.** The effects of a call: what is refuted or deposed leaves nothing to account
for. -/
lemma Standing.step (h : Standing py r calls s)
    (hrun : Transition.run (r.step py) start calls = some s) (hstep : r.step py s e = some t) :
    Standing py r (calls ++ [e]) t := by
  have heffect := effect_of_step hstep
  generalize haccepts : r.accepts py s e = accepted at heffect
  cases heffect with
  | rejected => exact h.same hrun (fun _ _ _ _ _ => haccepts) rfl rfl rfl rfl rfl
  | duplicate => exact h.same hrun (unrefuted_of_ne nofun) rfl rfl rfl rfl rfl
  | conflicting => exact h.same hrun (unrefuted_of_ne nofun) rfl rfl rfl rfl rfl
  | claim claim certificate key hrunning hopen hbranch haccused hproves _ hhead =>
    exact h.take hrun hstep ⟨claim, certificate, key, rfl, haccepts, rfl, haccused, hbranch, rfl,
      hproves⟩ hrunning hopen hhead
  | counterproof _ _ _ _ hpending =>
    refine standing_of_clear rfl rfl fun haborted => ?_
    rw [(h.aborted haborted).1] at hpending
    cases hpending
  | advance _ hpending =>
    have hrunning : s.aborted ≠ true := fun haborted => by
      rw [(h.aborted haborted).1] at hpending
      cases hpending
    unfold RecoveryState.depose
    cases hsuccessor : s.activeRole.successor? with
    | none =>
      refine standing_of_clear rfl rfl fun _ => ?_
      cases hrole : s.activeRole with
      | tertiary => exact hrole
      | primary => rw [hrole] at hsuccessor; cases hsuccessor
      | secondary => rw [hrole] at hsuccessor; cases hsuccessor
    | some role => exact standing_of_clear rfl rfl fun haborted => (hrunning haborted).elim

/-- Every run keeps the invariant. -/
lemma standing_of_run (hrun : Transition.run (r.step py) start calls = some s) :
    Standing py r calls s :=
  Transition.run_induction_of_history (J := Standing py r)
    (standing_of_clear rfl rfl fun h => by cases h) (fun _ _ _ _ hrun h hstep => h.step hrun hstep) hrun

/-- Every call is answered. -/
lemma exists_run (py : PyLib ν) (r : RecoveryCoordinator) (s : RecoveryState)
    (calls : List RecoveryCall) : ∃ t, Transition.run (r.step py) s calls = some t :=
  Transition.exists_run (fun _ _ => ⟨_, rfl⟩) s calls

/-- The threshold is two thirds of the observers, rounded up. -/
lemma quorumSize_eq_ceil (r : RecoveryCoordinator) :
    (r.quorumSize : ℤ) = ⌈(2 * r.observerCount : ℚ) / 3⌉ := Quorum.twoThirds_eq_ceil _

/-- A role changes to its successor; the coordinator aborts when there is none; and after that
nothing changes. -/
structure Ordered (s t : RecoveryState) : Prop where
  role : t.activeRole ≠ s.activeRole → s.activeRole.successor? = some t.activeRole
  aborted : t.aborted ≠ s.aborted →
    t.aborted = true ∧ s.activeRole = .tertiary ∧ t.activeRole = .tertiary
  stopped : s.aborted = true → t = s

/-- What has happened when a call changes the active role or aborts the coordinator: it lets a
challenge take effect after its window; enough reporters have had claims accepted for its round,
against the active role; and no counterproof has been accepted since any of these claims, nor since
the challenge was opened. -/
def Deposes (py : PyLib ν) (r : RecoveryCoordinator) (calls : List RecoveryCall) (s : RecoveryState)
    (e : RecoveryCall) : Prop :=
  ∃ currentRound round, e = .advance currentRound ∧ round + r.counterproofWindow < currentRound ∧
    Transition.Since (r.step py) (Opens py r round) (Unrefuted py r) start calls ∧
    ∃ reporters : Finset String, ⌈(2 * r.observerCount : ℚ) / 3⌉ ≤ (reporters.card : ℤ) ∧
      ∀ x ∈ reporters, Transition.Since (r.step py) (Claims py r s.activeRole round x)
        (Unrefuted py r) start calls

/-- A step that changes neither the role nor whether the coordinator has aborted. -/
lemma deposes_of_same (hrole : t.activeRole = s.activeRole) (haborted : t.aborted = s.aborted)
    (hstopped : s.aborted = true → t = s) :
    ((t.activeRole ≠ s.activeRole ∨ t.aborted ≠ s.aborted) → Deposes py r calls s e) ∧
      Ordered s t :=
  ⟨fun h => (h.elim (fun h => h hrole) fun h => h haborted).elim, fun h => (h hrole).elim,
    fun h => (h haborted).elim, hstopped⟩

/-- **What a step does to the role.**

**Proof sketch.** Of the effects of a call only a late `advance` changes the role or aborts, and the
invariant says how its challenge was opened. -/
lemma Standing.deposes (h : Standing py r calls s) (hstep : r.step py s e = some t) :
    ((t.activeRole ≠ s.activeRole ∨ t.aborted ≠ s.aborted) → Deposes py r calls s e) ∧
      Ordered s t := by
  have hpending : ∀ {P : Prop} {deadline : ℤ}, s.pendingDeadline = some deadline →
      s.aborted = true → P := fun hdeadline haborted => by
    rw [(h.aborted haborted).1] at hdeadline
    cases hdeadline
  have heffect := effect_of_step hstep
  generalize r.accepts py s e = accepted at heffect
  cases heffect with
  | rejected => exact deposes_of_same rfl rfl fun _ => rfl
  | duplicate => exact deposes_of_same rfl rfl fun _ => rfl
  | conflicting _ _ _ hrunning =>
    exact deposes_of_same rfl rfl fun haborted => by rw [hrunning] at haborted; cases haborted
  | claim claim _ _ hrunning =>
    obtain ⟨hrole, haborted, -⟩ := take_eq r s claim
    exact deposes_of_same hrole haborted fun haborted => by
      rw [hrunning] at haborted
      cases haborted
  | counterproof _ _ _ _ hdeadline => exact deposes_of_same rfl rfl fun ha => hpending hdeadline ha
  | advance currentRound hdeadline hlate =>
    constructor
    · intro _
      obtain ⟨round, -, rfl, hquorum, hsame, hopens⟩ := h.pending _ hdeadline
      refine ⟨currentRound, round, rfl, hlate, hopens, s.claims.keys.toFinset, ?_, fun x hx => ?_⟩
      · have hnodup : s.claims.keys.Nodup := s.claims.nodup_keys
        rw [← quorumSize_eq_ceil, List.toFinset_card_of_nodup hnodup, ← Dict.size_eq_length_keys]
        exact_mod_cast hquorum
      · obtain ⟨c, hc⟩ := Dict.mem_keys_iff.mp (List.mem_toFinset.mp hx)
        exact hsame x c hc ▸ h.claimed x c hc
    · unfold RecoveryState.depose
      cases hsuccessor : s.activeRole.successor? with
      | none =>
        have hlast : s.activeRole = .tertiary := by
          cases hrole : s.activeRole with
          | tertiary => rfl
          | primary => rw [hrole] at hsuccessor; cases hsuccessor
          | secondary => rw [hrole] at hsuccessor; cases hsuccessor
        exact ⟨fun hne => (hne rfl).elim, fun _ => ⟨rfl, hlast, hlast⟩,
          fun ha => hpending hdeadline ha⟩
      | some role =>
        exact ⟨fun _ => hsuccessor, fun hne => (hne rfl).elim, fun ha => hpending hdeadline ha⟩

/-- The roles are left in their order. -/
lemma Ordered.idxOf_le (h : Ordered s t) :
    FinalityRole.order.idxOf s.activeRole ≤ FinalityRole.order.idxOf t.activeRole := by
  by_cases hrole : t.activeRole = s.activeRole
  · rw [hrole]
  · have hsuccessor := h.role hrole
    generalize t.activeRole = new at hsuccessor ⊢
    revert hsuccessor
    cases s.activeRole <;> cases new <;> decide

/-- **Takeovers are sound.** After every sequence of calls, whatever call comes next: if it changes
the active role or aborts the coordinator, it lets a challenge take effect after its window, two
thirds of the observers have had claims accepted against that very role for its round, and no
counterproof has been accepted since. A role gives way to its successor, and the last one to none; a
role that has been left does not become active again; and nothing changes once the coordinator has
aborted.

**Proof sketch.** The invariant of the coordinator at the state before the call; the order of the
roles is kept step by step. -/
theorem takeover_sound (py : PyLib ν) (r : RecoveryCoordinator) (calls : List RecoveryCall) :
    ∃ s, Transition.run (r.step py) start calls = some s ∧
      (∀ e t, r.step py s e = some t →
        ((t.activeRole ≠ s.activeRole ∨ t.aborted ≠ s.aborted) → Deposes py r calls s e) ∧
          Ordered s t) ∧
      ∀ more u, Transition.run (r.step py) s more = some u →
        FinalityRole.order.idxOf s.activeRole ≤ FinalityRole.order.idxOf u.activeRole ∧
        (s.aborted = true → u = s) := by
  obtain ⟨s, hs⟩ := exists_run py r start calls
  have hstanding := standing_of_run hs
  refine ⟨s, hs, fun e t hstep => hstanding.deposes hstep, fun more u hu => ?_⟩
  -- The run goes on from the calls so far.
  induction more generalizing s calls with
  | nil =>
    rw [Transition.run_nil, Option.some.injEq] at hu
    subst hu
    exact ⟨le_rfl, fun _ => rfl⟩
  | cons e more ih =>
    obtain ⟨v, hv, hrest⟩ := Transition.run_cons_eq_some_iff.mp hu
    obtain ⟨-, hordered⟩ := hstanding.deposes hv
    obtain ⟨hle, hstopped⟩ := ih (calls ++ [e]) v (Transition.run_append_eq_some_iff.mpr
      ⟨s, hs, Transition.run_cons_eq_some_iff.mpr ⟨v, hv, rfl⟩⟩) (hstanding.step hs hv) hrest
    refine ⟨hordered.idxOf_le.trans hle, fun haborted => ?_⟩
    obtain rfl := hordered.stopped haborted
    exact hstopped haborted

end RecoveryCoordinator

end SplitChain
