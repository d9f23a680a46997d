import SplitChain.Model.OlcReceipts

set_option relaxedAutoImplicit false
set_option autoImplicit false

/-!
# Published receipts

The document that the gateway publishes, and what the verifier of receipts says about it. In every
state that the gateway reaches, the verifier counts the jobs that two verifiers have accepted,
unless the credentials hold a `null` in the place of the legacy verifier: the constructor takes that
for no verifier, and the publisher does not.

## Main definitions

* `SplitChain.OlcGateway.publicReceipts` — the document.
* `SplitChain.OlcGateway.Answered` — what is published about a job can be verified.

## Main results

* `SplitChain.OlcGateway.verifyReceipt_receipt` — the receipt of a job is verified by its votes.
* `SplitChain.OlcGateway.receipts_agree_iff` — when publisher and verifier agree.
-/

namespace SplitChain

open Raise Proc

open PyNumber (ofInt)

namespace OlcGateway

variable {τ ν : Type} [PyNumber ν]

/-! ## The document -/

/-- A vote as it is recorded. -/
def attestationJson (a : OlcAttestation ν) : Json ν :=
  .obj [("statement", a.statement), ("signature", .str a.signature)]

/-- The keys of the verifiers. -/
def keysJson (keys : Dict String String) : Json ν := .obj (keys.mapVal Json.str).entries

/-- What is published about a job. -/
def receipt (jobId : String) (job : OlcJob τ ν) : Json ν :=
  .obj [("job_id", .str jobId), ("node_id", .str job.nodeId), ("state", .str job.state.value),
    ("result_digest", (job.resultDigest.map Json.str).getD .null),
    ("attestation", job.attestation.getD .null),
    ("attestations",
      (job.quorum.map fun q => .obj (q.attestations.mapVal attestationJson).entries).getD .null),
    ("verifier_keys", (job.quorum.map fun q => keysJson q.verifierKeys).getD .null),
    ("quorum_required", (job.quorum.map fun q => .num (ofInt q.quorumRequired)).getD .null)]

/-- The last jobs, twenty at most. -/
def recentJobs (s : OlcState τ ν) : List (String × OlcJob τ ν) :=
  s.jobs.entries.drop (s.jobs.size - 20)

/-- The key of the legacy verifier. -/
def legacyPublicKey (g : OlcGateway ν) : Except PyError (Json ν) :=
  match g.credentials.get? "verifier" with
  | some verifier => verifier.get? "public_key"
  | none => .ok .null

/-- What is published, with the key of the legacy verifier. -/
def document (g : OlcGateway ν) (s : OlcState τ ν) (publicKey : Json ν) : Json ν :=
  .obj [("schema", .str "olc-receipts/v1"),
    ("receipts", .arr ((recentJobs s).map fun p => receipt p.1 p.2)),
    ("verifier_public_key", publicKey), ("verifiers", keysJson g.verifierKeys)]

/-- `public_receipts` -/
def publicReceipts (g : OlcGateway ν) (s : OlcState τ ν) : Except PyError (Json ν) := do
  let publicKey ← g.legacyPublicKey
  return g.document s publicKey

/-! ## Votes -/

variable {py : PyLib ν} {ed : Ed25519}

/-- A vote that has been recorded is verified again. -/
lemma verifyVote_attestation {r : Json ν} {keys : Dict String (Json ν)}
    {jobId nodeId v key : String}
    {a : OlcAttestation ν} (hjob : r.field "job_id" = .ok (.str jobId))
    (hnode : r.field "node_id" = .ok (.str nodeId))
    (hdigest : r.field "result_digest" = .ok (.str expectedDigest))
    (hkey : keys.get? v = some (.str key))
    (h : Attests py ed jobId nodeId expectedDigest v key a) :
    verifyVote py ed r keys v (attestationJson a) = .ok a.accepted := by
  obtain ⟨fields, hfields, hkeys⟩ := h.fields
  obtain ⟨b, hb⟩ := h.accepted
  have haccepted : a.accepted = b := by
    unfold OlcAttestation.accepted
    rw [hb]
  have hsigned := h.signed
  simp only [verifySignature, bind_eq_ok, require_eq_ok] at hsigned
  obtain ⟨publicKey, hpublicKey, signature, hsignature, hverifies⟩ := hsigned
  have hstatement : (attestationJson a).field "statement" = .ok a.statement := rfl
  have htext : (attestationJson a).field "signature" = .ok (.str a.signature) := rfl
  have hset : Json.isSetOf (fields.keys.map (Json.str (ν := ν))) statementFields = true := by
    simpa [Json.isSetOf_map_str, hasKeys] using hkeys
  have hnames : Json.toSet (fields.keys.map (Json.str (ν := ν))) = .ok (fields.keys.map .str) :=
    Json.toSet_map_str fields.nodup_keys
  simp only [verifyVote, hstatement, ok_bind, Json.iter_of_dict? hfields, hnames, hset,
    h.verifierId, h.jobId, hjob, h.nodeId, hnode, hdigest, h.digest, hb, hkey, hpublicKey, htext,
    hsignature, hverifies, orRaise, haccepted]
  cases b <;> simp [require, Json.isBool, Json.truthy]

/-! ## Receipts -/

section

/-- What is published about a job can be verified: it is no legacy job, it has votes only after the
expected result. -/
structure Answered (job : OlcJob τ ν) (q : JobQuorum ν) : Prop where
  notLegacy : job.state ≠ .verified
  expected : job.state = .awaitingQuorum ∨ job.state = .quorumVerified ∨ job.state = .disputed →
    job.resultDigest = some expectedDigest
  voted : q.attestations.size ≠ 0 →
    job.state = .awaitingQuorum ∨ job.state = .quorumVerified ∨ job.state = .disputed

/-- The digest of the canonical bytes of a roster. -/
def VerifierRoster.digest (py : PyLib ν) (roster : VerifierRoster) : String :=
  Sha256.hexDigest (canonicalJson py (keysJson roster.keys))

variable {g : OlcGateway ν} {roster : VerifierRoster} {jobId : String} {job : OlcJob τ ν}
  {q : JobQuorum ν}

/-- The keys of a roster, as they are published, are a roster. -/
lemma toSet_roster (roster : VerifierRoster) :
    Json.toSet ((roster.keys.mapVal (Json.str (ν := ν))).keys.map Json.str) =
        .ok (verifierIds.map (Json.str (ν := ν))) ∧
      ∃ set, Json.toSet (roster.keys.mapVal (Json.str (ν := ν))).values = .ok set ∧
      set.length = 3 := by
  constructor
  · rw [Dict.keys_mapVal, roster.named]
    exact Json.toSet_map_str (by decide)
  · have hvalues : (roster.keys.mapVal (Json.str (ν := ν))).values =
        roster.keys.values.map (Json.str (ν := ν)) := by
      simp [Dict.values, Dict.mapVal]
    have hlength : roster.keys.values.length = 3 := by
      have hkeys := congrArg List.length roster.named
      simpa [Dict.keys, Dict.values, verifierIds] using hkeys
    rw [hvalues]
    exact ⟨_, Json.toSet_map_str roster.distinct, by rw [List.length_map, hlength]⟩

/-- The recorded votes are verified again, one after the other. -/
lemma mapM_verifyVote (hkeys : q.verifierKeys = roster.keys) (htally : Tally py ed g jobId job q)
    (hanswered : Answered job q) :
    (q.attestations.mapVal attestationJson).entries.mapM (fun p =>
        verifyVote py ed (receipt jobId job) (roster.keys.mapVal Json.str) p.1 p.2) =
      .ok (q.attestations.values.map OlcAttestation.accepted) := by
  have hentries : (q.attestations.mapVal attestationJson).entries =
      q.attestations.entries.map fun p => (p.1, attestationJson p.2) := rfl
  rw [mapM_eq_ok, hentries, Dict.values, List.map_map, List.forall₂_map_left_iff,
    List.forall₂_map_right_iff, List.forall₂_same]
  rintro ⟨v, a⟩ hmem
  obtain ⟨-, key, digest, hkey, hdigest, hattests⟩ :=
    htally.attested v a (Dict.get?_eq_some_iff.mpr hmem)
  have hsize : q.attestations.size ≠ 0 := fun hzero =>
    List.ne_nil_of_mem hmem (List.length_eq_zero_iff.mp hzero)
  have hexpected := hanswered.expected (hanswered.voted hsize)
  obtain rfl : digest = expectedDigest := Option.some.inj (hdigest.symm.trans hexpected)
  have hresult : (receipt jobId job).field "result_digest" =
      .ok ((job.resultDigest.map (Json.str (ν := ν))).getD .null) := rfl
  rw [hexpected] at hresult
  have hpublished : (roster.keys.mapVal (Json.str (ν := ν))).get? v = some (.str key) := by
    rw [Dict.get?_mapVal, ← hkeys, hkey]
    rfl
  exact verifyVote_attestation (by rfl) (by rfl) hresult hpublished hattests

omit [PyNumber ν] in
/-- The number of votes that accept, and that of the others. -/
lemma count_accepted (q : JobQuorum ν) :
    (q.attestations.values.map OlcAttestation.accepted).count true = q.approvals ∧
      (q.attestations.values.map OlcAttestation.accepted).count false = q.rejections := by
  simp only [List.count_eq_countP, List.countP_map, JobQuorum.approvals, JobQuorum.rejections]
  constructor <;> refine List.countP_congr fun a _ => ?_ <;> cases h : a.accepted <;> simp [h]

/-- The state of a job is what its votes have decided. -/
lemma verifyState_value [DecidableEq τ] (htally : Tally py ed g jobId job q)
    (hanswered : Answered job q) :
    verifyState (.str job.state.value : Json ν) q.approvals q.rejections q.attestations.size =
      .ok (decide (job.state = .quorumVerified)) := by
  -- Without votes.
  have hearly (hstate : ¬(job.state = .awaitingQuorum ∨ job.state = .quorumVerified ∨
      job.state = .disputed)) : q.attestations.size = 0 := by
    by_contra hvotes
    exact hstate (hanswered.voted hvotes)
  -- With votes that do not decide.
  have hfew (hstate : job.state ≠ .quorumVerified) : decide (2 ≤ q.approvals) = false :=
    decide_eq_false fun h => hstate (htally.verified.mpr h)
  have hfew' (hstate : job.state ≠ .disputed) : decide (2 ≤ q.rejections) = false :=
    decide_eq_false fun h => hstate (htally.disputed.mpr h)
  cases hjob : job.state with
  | queued =>
    rw [hearly (by simp [hjob])]
    rfl
  | leased =>
    rw [hearly (by simp [hjob])]
    rfl
  | verified => exact (hanswered.notLegacy hjob).elim
  | awaitingQuorum =>
    simp only [verifyState, hfew (by simp [hjob]), hfew' (by simp [hjob])]
    rfl
  | quorumVerified =>
    simp only [verifyState, decide_eq_false (not_lt.mpr (htally.verified.mp hjob))]
    rfl
  | disputed =>
    simp only [verifyState, decide_eq_false (not_lt.mpr (htally.disputed.mp hjob))]
    rfl
  | rejected =>
    rw [hearly (by simp [hjob])]
    rfl

/-- **The receipt of a job is verified by its votes**, whether or not the roster is pinned.

**Proof sketch.** The roster is published as it is, the recorded votes are verified again, and the
state of the job is what they have decided. -/
theorem verifyReceipt_receipt [DecidableEq τ] (keyHex : Json ν) {pinned : Option String}
    (hpinned : ∀ p ∈ pinned, p = VerifierRoster.digest py roster) (hq : job.quorum = some q)
    (hkeys : q.verifierKeys = roster.keys) (htally : Tally py ed g jobId job q)
    (hanswered : Answered job q) :
    verifyReceipt py ed keyHex pinned (receipt jobId job) =
      .ok (decide (job.state = .quorumVerified)) := by
  obtain ⟨hnames, set, hset, hthree⟩ := toSet_roster (ν := ν) roster
  have hroster : (receipt jobId job).get? "verifier_keys" = .ok (keysJson roster.keys) := by
    have h : (receipt jobId job).get? "verifier_keys" =
      .ok ((job.quorum.map fun q => keysJson q.verifierKeys).getD .null) := rfl
    rw [h, hq, Option.map_some, Option.getD_some, hkeys]
  have hrequired : (receipt jobId job).field "quorum_required" = .ok (.num (ofInt (ν := ν) 2)) := by
    have h : (receipt jobId job).field "quorum_required" =
      .ok ((job.quorum.map fun q => .num (ofInt (ν := ν) q.quorumRequired)).getD .null) := rfl
    rw [h, hq, Option.map_some, Option.getD_some, htally.required]
    rfl
  have hvotes : (receipt jobId job).field "attestations" =
      .ok (.obj (q.attestations.mapVal attestationJson).entries) := by
    have h : (receipt jobId job).field "attestations" = .ok ((job.quorum.map fun q =>
      .obj (q.attestations.mapVal attestationJson).entries).getD .null) := rfl
    rw [h, hq, Option.map_some, Option.getD_some]
  have hstate : (receipt jobId job).field "state" = .ok (.str job.state.value) := rfl
  have hdict : (keysJson (ν := ν) roster.keys).dict? = some (roster.keys.mapVal Json.str) :=
    Json.dict?_obj _
  have hiter := Json.iter_of_dict? hdict
  have hpin : pinned.all (fun p => p == "" ||
      Sha256.hexDigest (canonicalJson py (keysJson roster.keys)) == p) = true := by
    cases pinned with
    | none => rfl
    | some p =>
      rw [hpinned p rfl]
      simp [VerifierRoster.digest]
  have hsize : (q.attestations.mapVal attestationJson).size = q.attestations.size := by
    simp [Dict.size, Dict.mapVal]
  have hvoters : (q.attestations.mapVal attestationJson).keys.all
      (· ∈ (roster.keys.mapVal (Json.str (ν := ν))).keys) = true := by
    simp only [List.all_eq_true, decide_eq_true_eq, Dict.keys_mapVal, roster.named]
    intro v hv
    obtain ⟨a, ha⟩ := Dict.mem_keys_iff.mp hv
    exact (htally.attested v a ha).1
  obtain ⟨happrovals, hrejections⟩ := count_accepted q
  have hverify : verifyReceipt py ed keyHex pinned (receipt jobId job) =
      verifyQuorum py ed pinned (receipt jobId job) (keysJson roster.keys) := by
    unfold verifyReceipt
    rw [hroster]
    rfl
  have hids : Json.isSetOf (verifierIds.map (Json.str (ν := ν))) verifierIds = true :=
    Json.isSetOf_map_str.mpr ⟨fun _ h => h, fun _ h => h⟩
  have htwo : (Json.num (ofInt (ν := ν) 2)).eqv (.num (ofInt 2)) = true := decide_eq_true rfl
  have hdictVotes : (Json.obj (q.attestations.mapVal attestationJson).entries).dict? =
    some (q.attestations.mapVal attestationJson) := Json.dict?_obj _
  have hmapM := mapM_verifyVote hkeys htally hanswered
  rw [hverify]
  simp only [verifyQuorum, hiter, ok_bind, hnames, hids, hdict, hset, hthree, hrequired, htwo, hpin,
    hvotes, hdictVotes, hvoters, hmapM, happrovals, hrejections, hstate, hsize, orRaise, require,
    if_true, beq_self_eq_true]
  exact verifyState_value htally hanswered

end

/-! ## Reachable states -/

section

variable [LinearOrder τ] [Add τ] [OfNat τ 120] {g : OlcGateway ν} {s : OlcState τ ν} {now : τ}
  {e : OlcCall ν} {jobId : String} {job : OlcJob τ ν}

/-- Every job can be published. -/
def AllAnswered (s : OlcState τ ν) : Prop :=
  ∀ jobId job q, s.jobs.get? jobId = some job → job.quorum = some q → Answered job q

/-- Every write of a job leaves it so that it can be published. -/
lemma answered_writes (ha : AllAnswered s)
    (h : Writes py ed g s now e jobId job) {q : JobQuorum ν} (hq : job.quorum = some q) :
    Answered job q := by
  cases h with
  | enqueue =>
    obtain rfl := Option.some.inj hq
    exact ⟨(fun h => by cases h), fun h => by simp at h, fun h => (h rfl).elim⟩
  | lease _ _ hfound hcan =>
    have hold := ha _ _ _ hfound hq
    refine ⟨(fun h => by cases h), fun h => by simp at h, fun hvotes => ?_⟩
    have hstate := hold.voted hvotes
    rcases (leasable_iff.mp hcan).2 with hjob | ⟨_, hjob, -⟩ <;> simp [hjob] at hstate
  | @result _ digest old _ hfound hleased =>
    have hold := ha _ _ _ hfound hq
    have hquorum : old.quorum.isSome = true := by rw [show old.quorum = some q from hq]; rfl
    refine ⟨fun h => ?_, fun h => ?_, fun hvotes => ?_⟩
    · simp only [stateOfResult, hquorum, if_true] at h
      split_ifs at h
    · simp only [stateOfResult, hquorum, if_true] at h
      split_ifs at h with hdigest
      · rw [hdigest]
      · simp at h
    · have hstate := hold.voted hvotes
      simp [hleased] at hstate
  | @attest v _ digest _ _ quorum a hfound hawaiting _ hquorum =>
    have hold := ha _ _ _ hfound hquorum
    obtain rfl := Option.some.inj hq
    rw [hawaiting]
    have hstate := (quorum.vote v a).decision_awaitingQuorum (τ := τ)
    refine ⟨fun h => ?_, fun _ => hold.expected (.inl hawaiting), fun _ => hstate⟩
    rcases hstate with hstate | hstate | hstate <;> cases hstate.symm.trans h

/-- In every reachable store the jobs keep their invariants. -/
lemma answered_of_run {events : List (OlcEvent τ ν)} {t : TimedOlc τ ν}
    (hrun : Transition.run (g.step py ed) start events = some t) :
    Sound py ed g t.state ∧ AllAnswered t.state := by
  refine Transition.run_induction (I := fun t => Sound py ed g t.state ∧ AllAnswered t.state)
    (fun a f b hinv hstep => ?_) ⟨sound_start, ?_⟩ hrun
  · obtain ⟨hs, ha⟩ := hinv
    refine ⟨Sound.step hs hstep, ?_⟩
    rcases jobs_step hstep with hjobs | ⟨id, new, hwrites, -, hjobs⟩
    · unfold AllAnswered
      rw [hjobs]
      exact ha
    · intro jobId job q hjob hq
      rw [hjobs, Dict.get?_set] at hjob
      split_ifs at hjob with hid
      · obtain rfl := hid
        obtain rfl := Option.some.inj hjob
        exact answered_writes ha hwrites hq
      · exact ha jobId job q hjob hq
  · intro _ job _ hjob
    rw [start, OlcState.empty, Dict.get?_empty] at hjob
    cases hjob

omit [Add τ] [OfNat τ 120] in
/-- Every published receipt is verified by its votes. -/
lemma mapM_verifyReceipt {roster : VerifierRoster} (hroster : g.roster = some roster)
    (hs : Sound py ed g s) (ha : AllAnswered s) (keyHex : Json ν) (pinned : Option String)
    (hpinned : ∀ p ∈ pinned, p = VerifierRoster.digest py roster) :
    ((recentJobs s).map fun p => receipt p.1 p.2).mapM (verifyReceipt py ed keyHex pinned) =
      .ok ((recentJobs s).map fun p => decide (p.2.state = .quorumVerified)) := by
  rw [mapM_eq_ok, List.forall₂_map_left_iff, List.forall₂_map_right_iff, List.forall₂_same]
  rintro ⟨jobId, job⟩ hmem
  have hjob := Dict.get?_eq_some_iff.mpr (List.mem_of_mem_drop hmem)
  obtain ⟨q, hq, htally⟩ := hs jobId job hjob
  have hkeys : q.verifierKeys = roster.keys := by
    rw [htally.keys, verifierKeys, hroster]
  exact verifyReceipt_receipt keyHex hpinned hq hkeys htally (ha jobId job q hjob hq)

end

/-- The key of the legacy verifier as it can be pinned, if there is one. -/
def pinnableKey (g : OlcGateway ν) : Option String :=
  match g.legacyPublicKey with
  | .ok (.str key) => some key
  | _ => none

omit [PyNumber ν] in
/-- The key is published unless there is a `null` in its place. -/
lemma exists_legacyPublicKey_iff (g : OlcGateway ν) :
    (∃ key, g.legacyPublicKey = .ok key) ↔ g.credentials.get? "verifier" ≠ some .null := by
  unfold legacyPublicKey
  cases hverifier : g.credentials.get? "verifier" with
  | none => exact ⟨fun _ => nofun, fun _ => ⟨_, rfl⟩⟩
  | some verifier =>
    rcases g.legacy verifier hverifier with rfl | ⟨d, key, hd, hkey⟩
    · exact ⟨fun ⟨_, h⟩ => (nomatch h), fun h => (h rfl).elim⟩
    · refine ⟨fun _ h => ?_, fun _ => ⟨.str key, ?_⟩⟩
      · rw [Option.some.inj h] at hd
        cases hd
      · simp only [Json.get?, hd, hkey, Option.getD_some]

/-- A key that can be pinned is the one that is published. -/
lemma eqv_of_mem_pinnableKey {g : OlcGateway ν} {key : Json ν} (h : g.legacyPublicKey = .ok key)
    {p : String} (hp : p ∈ g.pinnableKey) : key.eqv (.str p) = true := by
  unfold pinnableKey at hp
  rw [h] at hp
  cases key with
  | str text => exact Json.eqv_str_right.mpr (congrArg Json.str (Option.some.inj hp))
  | _ => cases hp

/-- **Publisher and verifier agree**, in every reachable store, whether or not the legacy key and
the roster are pinned: the verifier accepts what is published and counts the jobs that a quorum has
verified, and the others, among the last twenty. That is so if and only if the credentials do not
hold a `null` in the place of the legacy verifier.

**Proof sketch.** Every receipt is verified by its votes. With a `null` there is no document. -/
theorem receipts_agree_iff [LinearOrder τ] [Add τ] [OfNat τ 120] (py : PyLib ν) (ed : Ed25519)
    (g : OlcGateway ν) (roster : VerifierRoster) (hroster : g.roster = some roster)
    (events : List (OlcEvent τ ν)) (s : TimedOlc τ ν)
    (hrun : Transition.run (g.step py ed) start events = some s) (pinKey pinRoster : Bool) :
    (∃ document, g.publicReceipts s.state = .ok document ∧
      verifyDocument py ed document (if pinKey then g.pinnableKey else none)
          (if pinRoster then some (VerifierRoster.digest py roster) else none) =
        .ok ((recentJobs s.state).countP fun p => p.2.state = .quorumVerified,
          (recentJobs s.state).countP fun p => p.2.state ≠ .quorumVerified)) ↔
      g.credentials.get? "verifier" ≠ some .null := by
  rw [← exists_legacyPublicKey_iff]
  constructor
  · rintro ⟨document, hdocument, -⟩
    simp only [publicReceipts, bind_eq_ok] at hdocument
    exact hdocument.imp fun _ h => h.1
  · rintro ⟨key, hkey⟩
    obtain ⟨hs, ha⟩ := answered_of_run hrun
    refine ⟨g.document s.state key, by rw [publicReceipts, hkey]; rfl, ?_⟩
    have hverify := mapM_verifyReceipt hroster hs ha key
      (if pinRoster then some (VerifierRoster.digest py roster) else none) (by
        cases pinRoster <;> simp)
    have hschema : (g.document s.state key).get? "schema" = .ok (.str "olc-receipts/v1") := rfl
    have hpublic : (g.document s.state key).get? "verifier_public_key" = .ok key := rfl
    have hreceipts : (g.document s.state key).field "receipts" =
      .ok (.arr ((recentJobs s.state).map fun p => receipt p.1 p.2)) := rfl
    have hiter : (Json.arr ((recentJobs s.state).map fun p => receipt p.1 p.2)).iter =
      .ok ((recentJobs s.state).map fun p => receipt p.1 p.2) := rfl
    have hpin : (if pinKey then g.pinnableKey else none).all (fun p => key.eqv (.str p)) = true := by
      rw [Option.all_eq_true]
      intro p hp
      cases pinKey with
      | true => exact eqv_of_mem_pinnableKey hkey hp
      | false => cases hp
    simp only [verifyDocument, hschema, hpublic, hreceipts, hiter, ok_bind, hpin, hverify,
      Json.eqv_str_right.mpr rfl, require, if_true, List.count_eq_countP, List.countP_map]
    have hcount (b : Bool) : (recentJobs s.state).countP ((fun x => x == b) ∘ fun p =>
        decide (p.2.state = .quorumVerified)) =
        (recentJobs s.state).countP fun p => decide (p.2.state = .quorumVerified) == b := rfl
    rw [pure_eq_ok, hcount, hcount, Prod.mk.injEq]
    constructor <;> exact List.countP_congr fun p _ => by simp

/-! ## A document, and none -/

section Example

/-- The verifier accepts what the gateway of the example publishes. -/
theorem receipts_agree_accepted : ∃ s document,
    Transition.run (exampleGateway.step Ledger.integerLib exampleScheme) start exampleEvents = some s ∧
      exampleGateway.publicReceipts s.state = .ok document ∧
      verifyDocument Ledger.integerLib exampleScheme document none
        (some (VerifierRoster.digest Ledger.integerLib exampleRoster)) = .ok (1, 0) := by
  have hrun : ((Transition.run (exampleGateway.step Ledger.integerLib exampleScheme) start
      exampleEvents).any fun s => (recentJobs s.state).map (fun p => p.2.state) =
        [.quorumVerified]) = true := by
    decide +kernel
  obtain ⟨s, hs, hjobs⟩ := (Option.any_eq_true _ _).mp hrun
  obtain ⟨document, hdocument, hverify⟩ := (receipts_agree_iff Ledger.integerLib exampleScheme
    exampleGateway exampleRoster rfl exampleEvents s hs false true).mpr nofun
  have hstates : (recentJobs s.state).map (fun p => p.2.state) = [.quorumVerified] :=
    of_decide_eq_true hjobs
  have hcount (f : JobState ℤ → Bool) : (recentJobs s.state).countP (fun p => f p.2.state) =
      [JobState.quorumVerified].countP f := by
    rw [← hstates, List.countP_map]
    rfl
  rw [hcount (fun state => state = .quorumVerified), hcount (fun state => state ≠ .quorumVerified)]
    at hverify
  exact ⟨s, document, hs, hdocument, hverify⟩

/-- Credentials with a `null` in the place of the legacy verifier. -/
def nullCredentials : Dict String (Json ℤ) :=
  .ofList [("workers", .obj [(olcWorkerId, .str "worker-token-0123456789-0123456789")]),
    ("operator", .str "operator-token-0123456789-0123456789"), ("verifier", .null),
    ("verifiers", .obj [
      ("verifier-1", .obj [("token", .str "verifier-1-token-0123456789-0123456789"),
        ("public_key", .str "8a88e3dd7409f195fd52db2d3cba5d72ca6709bf1d94121bf3748801b40f6f5c")]),
      ("verifier-2", .obj [("token", .str "verifier-2-token-0123456789-0123456789"),
        ("public_key", .str "8139770ea87d175f56a35466c34c7ecccb8d8a91b4ee37a25df60f5b8fc9b394")]),
      ("verifier-3", .obj [("token", .str "verifier-3-token-0123456789-0123456789"),
        ("public_key", .str "ed4928c628d1c2c6eae90338905995612959273a5c63f93636c14614ac8737d1")])])]

/-- **Nothing is published** with a `null` in the place of the legacy verifier, which the
constructor accepts: the empty store has no document. -/
theorem null_verifier_raises : ∃ g : OlcGateway ℤ,
    OlcGateway.create exampleScheme nullCredentials = .ok g ∧
      g.verifierKeys = exampleRoster.keys ∧
      g.publicReceipts (OlcState.empty : OlcState ℤ ℤ) = .error .attribute := by
  have h : ((OlcGateway.create exampleScheme nullCredentials).toOption.any fun g =>
      g.verifierKeys = exampleRoster.keys ∧
        g.credentials.get? "verifier" = some .null) = true := by
    decide +kernel
  obtain ⟨g, hg, hgateway⟩ := (Option.any_eq_true _ _).mp h
  obtain ⟨hkeys, hnull⟩ := of_decide_eq_true hgateway
  refine ⟨g, ?_, hkeys, ?_⟩
  · cases hcreate : OlcGateway.create exampleScheme nullCredentials with
    | error e =>
      rw [hcreate] at hg
      cases hg
    | ok g' =>
      rw [hcreate] at hg
      exact congrArg Except.ok (Option.some.inj hg)
  · rw [publicReceipts, legacyPublicKey, hnull]
    rfl

end Example

end OlcGateway

end SplitChain
