import SplitChain.Model.OlcGateway
import SplitChain.Model.Runs

set_option relaxedAutoImplicit false
set_option autoImplicit false

/-!
# The life of a job

Runs of the job gateway from an empty store: any calls with any arguments, at clock readings that do
not decrease, where the id drawn for a new job is not in use. The state of a job says what its votes
have decided, and a lease is what a first result needs.

## Main definitions

* `SplitChain.OlcGateway.step` — a call at a clock reading.
* `SplitChain.OlcGateway.Tally` — the invariant of a job.

## Main results

* `SplitChain.OlcGateway.tally_writes` — every write of a job keeps its invariant.
* `SplitChain.OlcGateway.job_lifecycle` — jobs in all runs.
-/

namespace SplitChain

open Raise Proc

/-! ## Runs -/

/-- The store, with the last clock reading. -/
structure TimedOlc (τ ν : Type) where
  state : OlcState τ ν
  clock : Option τ

/-- A call and the clock reading at which it is made. -/
structure OlcEvent (τ ν : Type) where
  now : τ
  call : OlcCall ν

/-- A reading that is not before the last one. -/
def TimedOlc.Admits {τ ν : Type} [LinearOrder τ] (s : TimedOlc τ ν) (now : τ) : Prop :=
  ∀ last ∈ s.clock, last ≤ now

instance TimedOlc.decidableAdmits {τ ν : Type} [LinearOrder τ] (s : TimedOlc τ ν) (now : τ) :
    Decidable (s.Admits now) := by
  unfold TimedOlc.Admits
  infer_instance

/-- Whether the id that is drawn for a new job is not in use. -/
def OlcCall.drawsFresh {τ ν : Type} (s : OlcState τ ν) : OlcCall ν → Bool
  | .enqueue jobId => !s.jobs.contains jobId
  | _ => true

namespace JobQuorum

variable {ν : Type}

/-- The number of votes that reject. -/
def rejections (q : JobQuorum ν) : ℕ := q.attestations.values.countP fun a => !a.accepted

/-- What does not accept rejects. -/
lemma denials_eq_rejections (q : JobQuorum ν) : q.denials = q.rejections := by
  have hsize : q.attestations.size = q.attestations.values.length := by
    simp [Dict.size, Dict.values]
  have hcount := q.attestations.values.length_eq_countP_add_countP OlcAttestation.accepted
  have hrejections : q.rejections =
      q.attestations.values.countP fun a => decide ¬a.accepted = true := by
    unfold rejections
    congr 1
    funext a
    cases a.accepted <;> rfl
  unfold denials approvals
  omega

variable {q : JobQuorum ν} {verifierId : String} {a : OlcAttestation ν}

/-- A first vote of a verifier comes last. -/
lemma values_vote (h : q.attestations.get? verifierId = none) :
    (q.vote verifierId a).attestations.values = q.attestations.values ++ [a] := by
  simp [vote, Dict.values, Dict.entries_set_of_none _ h]

/-- A vote that accepts is counted. -/
lemma approvals_vote (h : q.attestations.get? verifierId = none) :
    (q.vote verifierId a).approvals = q.approvals + if a.accepted then 1 else 0 := by
  rw [approvals, values_vote h, List.countP_append, List.countP_singleton]
  rfl

/-- A vote that rejects is counted. -/
lemma rejections_vote (h : q.attestations.get? verifierId = none) :
    (q.vote verifierId a).rejections = q.rejections + if a.accepted then 0 else 1 := by
  rw [rejections, values_vote h, List.countP_append, List.countP_singleton]
  cases a.accepted <;> rfl

/-- A job that is awaiting its quorum goes on waiting or is decided. -/
lemma decision_awaitingQuorum {τ : Type} (q : JobQuorum ν) :
    q.decision (.awaitingQuorum : JobState τ) = .awaitingQuorum ∨
      q.decision (.awaitingQuorum : JobState τ) = .quorumVerified ∨
      q.decision (.awaitingQuorum : JobState τ) = .disputed := by
  unfold decision
  split_ifs <;> simp

/-- **What one more vote decides**, when no two votes agreed before.

**Proof sketch.** The vote counts on one side only, so at most one side reaches two. -/
lemma decision_vote {τ : Type} (h : q.attestations.get? verifierId = none)
    (hrequired : q.quorumRequired = 2) (hfew : q.approvals < 2 ∧ q.rejections < 2) :
    ((q.vote verifierId a).decision (.awaitingQuorum : JobState τ) = .quorumVerified ↔
        2 ≤ (q.vote verifierId a).approvals) ∧
      ((q.vote verifierId a).decision (.awaitingQuorum : JobState τ) = .disputed ↔
        2 ≤ (q.vote verifierId a).rejections) := by
  have happrovals := approvals_vote (a := a) h
  have hrejections := rejections_vote (a := a) h
  have hneeds : (q.vote verifierId a).quorumRequired = 2 := hrequired
  unfold decision
  rw [hneeds, denials_eq_rejections]
  split_ifs at happrovals hrejections <;> split_ifs <;>
    simp only [true_iff, false_iff] <;> omega

end JobQuorum

/-! ## The invariant of a job -/

namespace OlcGateway

variable {τ ν : Type} [LinearOrder τ] [Add τ] [OfNat τ 120] [PyNumber ν] (py : PyLib ν)
  (ed : Ed25519) (g : OlcGateway ν)

/-- A call whose reading is not before the last one; a new job has an id of its own. -/
def step (s : TimedOlc τ ν) (e : OlcEvent τ ν) : Option (TimedOlc τ ν) :=
  if s.Admits e.now ∧ e.call.drawsFresh s.state = true then
    some ⟨after (g.perform py ed e.now e.call) s.state, some e.now⟩
  else none

/-- Before the first call. -/
def start : TimedOlc τ ν := ⟨.empty, none⟩

/-- **The invariant of a job**: its keys are those of the gateway, its state says what its votes
have decided, and each vote is that of a verifier, signed under the key of the job over its
result. -/
structure Tally (jobId : String) (job : OlcJob τ ν) (q : JobQuorum ν) : Prop where
  keys : q.verifierKeys = g.verifierKeys
  required : q.quorumRequired = 2
  verified : job.state = .quorumVerified ↔ 2 ≤ q.approvals
  disputed : job.state = .disputed ↔ 2 ≤ q.rejections
  unanswered : job.resultDigest = none ↔ job.state = .queued ∨ ∃ u, job.state = .leased u
  attested : ∀ v a, q.attestations.get? v = some a → v ∈ verifierIds ∧ ∃ key digest,
    q.verifierKeys.get? v = some key ∧ job.resultDigest = some digest ∧
      Attests py ed jobId job.nodeId digest v key a

/-- Every job has a quorum that its state agrees with. -/
def Sound (s : OlcState τ ν) : Prop :=
  ∀ jobId job, s.jobs.get? jobId = some job → ∃ q, job.quorum = some q ∧ Tally py ed g jobId job q

variable {py ed g} {s t : OlcState τ ν} {now : τ} {e : OlcCall ν} {jobId : String}
  {job : OlcJob τ ν} {q : JobQuorum ν}

omit [LinearOrder τ] [Add τ] [OfNat τ 120] [PyNumber ν] in
/-- A key of the gateway is that of a verifier. -/
lemma mem_verifierIds {v key : String} (h : g.verifierKeys.get? v = some key) :
    v ∈ verifierIds := by
  unfold verifierKeys at h
  cases hroster : g.roster with
  | some roster =>
    rw [hroster] at h
    exact roster.named ▸ Dict.mem_keys_iff.mpr ⟨key, h⟩
  | none =>
    rw [hroster] at h
    cases h

omit [LinearOrder τ] [Add τ] [OfNat τ 120] in
/-- A job without a result has no votes. -/
lemma Tally.no_votes (h : Tally py ed g jobId job q) (hnone : job.resultDigest = none)
    (v : String) :
    q.attestations.get? v = none := by
  by_contra hvote
  obtain ⟨a, ha⟩ := Option.ne_none_iff_exists'.mp hvote
  obtain ⟨-, _, digest, -, hdigest, -⟩ := h.attested v a ha
  rw [hnone] at hdigest
  cases hdigest

/-- **Every write of a job keeps its invariant.**

**Proof sketch.** A new job has no votes; a job that is leased or answered has none yet; and a vote
on a job that is awaiting its quorum decides it exactly when it is the second of its kind. -/
theorem tally_writes (hs : Sound py ed g s) (h : Writes py ed g s now e jobId job) :
    ∃ q, job.quorum = some q ∧ Tally py ed g jobId job q := by
  cases h with
  | @enqueue _ roster hroster =>
    have hkeys : roster.keys = g.verifierKeys := by
      unfold verifierKeys
      rw [hroster]
    exact ⟨_, rfl, hkeys, rfl, ⟨nofun, nofun⟩, ⟨nofun, nofun⟩, ⟨fun _ => .inl rfl, fun _ => rfl⟩,
      nofun⟩
  | lease _ _ hfound hcan =>
    obtain ⟨q, hq, htally⟩ := hs _ _ hfound
    have hearly := (leasable_iff.mp hcan).2
    refine ⟨q, hq, htally.keys, htally.required, ⟨nofun, fun h => ?_⟩, ⟨nofun, fun h => ?_⟩,
      ⟨fun _ => .inr ⟨_, rfl⟩, fun _ => htally.unanswered.mpr (hearly.imp id fun ⟨u, hu⟩ => ⟨u, hu.1⟩)⟩,
      htally.attested⟩
    · rw [← htally.verified] at h
      rcases hearly with hstate | ⟨_, hstate, _⟩ <;> rw [hstate] at h <;> cases h
    · rw [← htally.disputed] at h
      rcases hearly with hstate | ⟨_, hstate, _⟩ <;> rw [hstate] at h <;> cases h
  | @result _ digest job leaseUntil hfound hleased =>
    obtain ⟨q, hq, htally⟩ := hs _ _ hfound
    have hnone := htally.no_votes (htally.unanswered.mpr (.inr ⟨_, hleased⟩))
    have hnext : stateOfResult job digest = .awaitingQuorum ∨
        stateOfResult job digest = .rejected := by
      unfold stateOfResult
      rw [hq]
      split_ifs with h₁ h₂
      · exact .inl rfl
      · exact (h₂ rfl).elim
      · exact .inr rfl
    refine ⟨q, hq, htally.keys, htally.required, ⟨fun h => ?_, fun h => ?_⟩,
      ⟨fun h => ?_, fun h => ?_⟩, ⟨nofun, fun h => ?_⟩, fun v a hv => ?_⟩
    · rcases hnext with hstate | hstate <;> rw [hstate] at h <;> cases h
    · rw [← htally.verified, hleased] at h
      cases h
    · rcases hnext with hstate | hstate <;> rw [hstate] at h <;> cases h
    · rw [← htally.disputed, hleased] at h
      cases h
    · rcases hnext with hstate | hstate <;> rw [hstate] at h <;>
        exact h.elim nofun fun ⟨_, h⟩ => nomatch h
    · rw [hnone v] at hv
      cases hv
  | @attest v _ digest key job quorum a hfound hawaiting hrecorded hquorum hkeyed hcurrent hfirst
      hattests =>
    obtain ⟨q, hq, htally⟩ := hs _ _ hfound
    obtain rfl : q = quorum := Option.some.inj (hq.symm.trans hquorum)
    have hfew : q.approvals < 2 ∧ q.rejections < 2 := by
      constructor
      · by_contra h
        have hstate := htally.verified.mpr (not_lt.mp h)
        rw [hawaiting] at hstate
        cases hstate
      · by_contra h
        have hstate := htally.disputed.mpr (not_lt.mp h)
        rw [hawaiting] at hstate
        cases hstate
    obtain ⟨hverified, hdisputed⟩ :=
      JobQuorum.decision_vote (τ := τ) (a := a) hfirst htally.required hfew
    rw [hawaiting]
    refine ⟨_, rfl, htally.keys, htally.required, hverified, hdisputed, ⟨fun h => ?_, fun h => ?_⟩,
      fun w b hw => ?_⟩
    · rw [hrecorded] at h
      cases h
    · rcases (q.vote v a).decision_awaitingQuorum (τ := τ) with hd | hd | hd <;> rw [hd] at h <;>
        exact h.elim nofun fun ⟨_, h⟩ => nomatch h
    · simp only [JobQuorum.vote, Dict.get?_set] at hw
      split_ifs at hw with hv
      · obtain rfl := hv
        obtain rfl := Option.some.inj hw
        exact ⟨mem_verifierIds hcurrent, key, digest, hkeyed, hrecorded, hattests⟩
      · exact htally.attested w b hw

/-! ## Runs -/

variable {a b : TimedOlc τ ν} {f : OlcEvent τ ν}

/-- What a call in order does. -/
lemma step_eq_some : g.step py ed a f = some b ↔
    a.Admits f.now ∧ f.call.drawsFresh a.state = true ∧ b.clock = some f.now ∧
      b.state = after (g.perform py ed f.now f.call) a.state := by
  unfold step
  split_ifs with h
  · cases b
    simp only [Option.some.injEq, TimedOlc.mk.injEq, h, true_and]
    exact ⟨fun ⟨hstate, hclock⟩ => ⟨hclock.symm, hstate.symm⟩,
      fun ⟨hclock, hstate⟩ => ⟨hstate.symm, hclock.symm⟩⟩
  · exact ⟨nofun, fun ⟨hadmits, hfresh, _⟩ => (h ⟨hadmits, hfresh⟩).elim⟩

/-- **What a step does to the jobs**: nothing, or it writes one of them. -/
lemma jobs_step (h : g.step py ed a f = some b) : b.state.jobs = a.state.jobs ∨
    ∃ jobId job, Writes py ed g a.state f.now f.call jobId job ∧
      returns (g.perform py ed f.now f.call) a.state = true ∧
      b.state.jobs = a.state.jobs.set jobId job := by
  obtain ⟨-, -, -, hstate⟩ := step_eq_some.mp h
  have heffect := effect py ed g a.state f.now f.call
  rw [← hstate] at heffect
  generalize returns (g.perform py ed f.now f.call) a.state = returned at heffect ⊢
  generalize b.state = next at heffect ⊢
  cases heffect with
  | same => exact .inl rfl
  | heartbeat => exact .inl rfl
  | write jobId job hwrites => exact .inr ⟨jobId, job, hwrites, rfl, rfl⟩

omit [LinearOrder τ] [Add τ] [OfNat τ 120] in
/-- There are no jobs at first. -/
lemma sound_start : Sound py ed g (start : TimedOlc τ ν).state := by
  intro _ job hjob
  rw [start, OlcState.empty, Dict.get?_empty] at hjob
  cases hjob

/-- Every step keeps the invariant of the jobs. -/
lemma Sound.step (hs : Sound py ed g a.state) (h : g.step py ed a f = some b) :
    Sound py ed g b.state := by
  rcases jobs_step h with hjobs | ⟨id, new, hwrites, -, hjobs⟩
  · unfold Sound
    rw [hjobs]
    exact hs
  · intro jobId job hjob
    rw [hjobs, Dict.get?_set] at hjob
    split_ifs at hjob with hid
    · obtain rfl := hid
      obtain rfl := Option.some.inj hjob
      exact tally_writes hs hwrites
    · exact hs jobId job hjob

/-- What a job keeps: its worker, the keys it was enqueued with, its result, and a decision. -/
structure Keeps (job job' : OlcJob τ ν) : Prop where
  nodeId : job'.nodeId = job.nodeId
  keys : job'.quorum.map (·.verifierKeys) = job.quorum.map (·.verifierKeys)
  digest : ∀ d, job.resultDigest = some d → job'.resultDigest = some d
  decided : job.state = .quorumVerified ∨ job.state = .disputed ∨ job.state = .rejected →
    job'.state = job.state

omit [LinearOrder τ] [Add τ] [OfNat τ 120] [PyNumber ν] in
/-- A job keeps what it has. -/
lemma Keeps.refl (job : OlcJob τ ν) : Keeps job job := ⟨rfl, rfl, fun _ h => h, fun _ => rfl⟩

omit [LinearOrder τ] [Add τ] [OfNat τ 120] [PyNumber ν] in
/-- One write after another. -/
lemma Keeps.trans {j₁ j₂ j₃ : OlcJob τ ν} (h : Keeps j₁ j₂) (h' : Keeps j₂ j₃) : Keeps j₁ j₃ :=
  ⟨h'.nodeId.trans h.nodeId, h'.keys.trans h.keys, fun d hd => h'.digest d (h.digest d hd),
    fun hd => (h'.decided (by rw [h.decided hd]; exact hd)).trans (h.decided hd)⟩

/-- A write keeps what a job has. -/
lemma keeps_writes (hs : Sound py ed g s) (h : Writes py ed g s now e jobId job)
    (hfresh : e.drawsFresh s = true) {old : OlcJob τ ν} (hold : s.jobs.get? jobId = some old) :
    Keeps old job := by
  cases h with
  | enqueue =>
    simp [OlcCall.drawsFresh, Dict.contains, hold] at hfresh
  | lease _ _ hfound hcan =>
    obtain rfl := Option.some.inj (hold.symm.trans hfound)
    refine ⟨rfl, rfl, fun _ h => h, fun h => ?_⟩
    rcases (leasable_iff.mp hcan).2 with hstate | ⟨_, hstate, -⟩ <;> simp [hstate] at h
  | result _ _ hfound hleased =>
    obtain rfl := Option.some.inj (hold.symm.trans hfound)
    obtain ⟨q, -, htally⟩ := hs _ _ hold
    refine ⟨rfl, rfl, fun d hd => ?_, fun h => by simp [hleased] at h⟩
    rw [htally.unanswered.mpr (.inr ⟨_, hleased⟩)] at hd
    cases hd
  | attest _ _ _ _ _ hfound hawaiting _ hquorum =>
    obtain rfl := Option.some.inj (hold.symm.trans hfound)
    refine ⟨rfl, ?_, fun _ h => h, fun h => by simp [hawaiting] at h⟩
    rw [hquorum]
    rfl

/-- Jobs stay, and keep what they have. -/
def Extends (s t : TimedOlc τ ν) : Prop :=
  ∀ jobId job, s.state.jobs.get? jobId = some job →
    ∃ job', t.state.jobs.get? jobId = some job' ∧ Keeps job job'

/-- A step keeps the jobs. -/
lemma extends_step (hs : Sound py ed g a.state) (h : g.step py ed a f = some b) : Extends a b := by
  intro jobId job hjob
  rcases jobs_step h with hjobs | ⟨id, new, hwrites, -, hjobs⟩
  · exact ⟨job, hjobs ▸ hjob, .refl job⟩
  · rw [hjobs, Dict.get?_set]
    by_cases hid : id = jobId
    · obtain rfl := hid
      rw [if_pos rfl]
      exact ⟨new, rfl, keeps_writes hs hwrites (step_eq_some.mp h).2.1 hjob⟩
    · rw [if_neg hid]
      exact ⟨job, hjob, .refl job⟩

/-! ## Leases -/

/-- Only a lease leases a job: to the worker that asks, when it holds no other. -/
lemma Writes.of_leased (h : Writes py ed g s now e jobId job) {u : τ} (hu : job.state = .leased u) :
    ∃ nodeId, e = .lease nodeId ∧ job.nodeId = nodeId ∧
      (∀ i j, s.jobs.get? i = some j → holdsLease now nodeId j = false) ∧ u = now + 120 := by
  cases h with
  | enqueue => cases hu
  | lease nodeId hfree _ hcan =>
    exact ⟨nodeId, rfl, (leasable_iff.mp hcan).1, hfree, (JobState.leased.inj hu).symm⟩
  | result =>
    simp only [stateOfResult] at hu
    split_ifs at hu
  | attest _ _ _ _ _ _ hawaiting =>
    rw [hawaiting] at hu
    simp only [JobQuorum.decision] at hu
    split_ifs at hu

/-- A worker holds one lease at most, from the last reading on. -/
def Exclusive (s : TimedOlc τ ν) : Prop :=
  ∀ now, s.Admits now → ∀ nodeId i j ji jj, s.state.jobs.get? i = some ji →
    s.state.jobs.get? j = some jj → holdsLease now nodeId ji = true → holdsLease now nodeId jj = true →
      i = j

omit [Add τ] [OfNat τ 120] [PyNumber ν] in
/-- There are no leases at first. -/
lemma exclusive_start : Exclusive (start : TimedOlc τ ν) := by
  intro _ _ _ i _ ji _ hi
  rw [start, OlcState.empty, Dict.get?_empty] at hi
  cases hi

/-- **A worker never holds two leases.**

**Proof sketch.** A job is leased when all other leases of the worker have expired. -/
lemma Exclusive.step (hs : Exclusive a) (h : g.step py ed a f = some b) : Exclusive b := by
  obtain ⟨hadmits, -, hclock, -⟩ := step_eq_some.mp h
  intro now hnow nodeId i j ji jj hi hj hli hlj
  have hafter : f.now ≤ now := hnow f.now hclock
  have hbefore : a.Admits now := fun last hlast => (hadmits last hlast).trans hafter
  rcases jobs_step h with hjobs | ⟨id, new, hwrites, -, hjobs⟩
  · rw [hjobs] at hi hj
    exact hs now hbefore nodeId i j ji jj hi hj hli hlj
  -- A lease of the job that is written excludes the leases of all others.
  have hnew : holdsLease now nodeId new = true → ∀ k jk, a.state.jobs.get? k = some jk →
      holdsLease now nodeId jk = true → k = id := by
    intro hnew k jk hk hlk
    obtain ⟨hnode, u, hu, -⟩ := holdsLease_iff.mp hnew
    obtain ⟨hnode', u', hu', hle⟩ := holdsLease_iff.mp hlk
    obtain ⟨worker, hcall, hworker, hfree, -⟩ := hwrites.of_leased hu
    refine (Bool.false_ne_true ?_).elim
    rw [← hfree k jk hk, holdsLease_iff]
    exact ⟨by rw [hnode', ← hnode, hworker], u', hu', hafter.trans hle⟩
  rw [hjobs, Dict.get?_set] at hi hj
  split_ifs at hi hj with hidi hidj hidj
  · exact hidi.symm.trans hidj
  · obtain rfl := Option.some.inj hi
    exact hidi ▸ (hnew hli j jj hj hlj).symm
  · obtain rfl := Option.some.inj hj
    exact hidj ▸ hnew hlj i ji hi hli
  · exact hs now hbefore nodeId i j ji jj hi hj hli hlj

section

variable (py ed g)

/-- A job is leased to a worker until a reading. -/
def Leased (jobId nodeId : String) (leaseUntil : τ) (s : OlcState τ ν) : Prop :=
  ∃ job, s.jobs.get? jobId = some job ∧ job.nodeId = nodeId ∧ job.state = .leased leaseUntil

/-- A call of a worker leases a job to it. -/
def Grants (jobId nodeId : String) (leaseUntil : τ) (s : TimedOlc τ ν) (f : OlcEvent τ ν) : Prop :=
  f.call = .lease nodeId ∧ leaseUntil = f.now + 120 ∧
    ∃ t, g.step py ed s f = some t ∧ Leased jobId nodeId leaseUntil t.state

end

/-- **A lease has been granted** to the worker that holds it, and has lasted since.

**Proof sketch.** A step that leaves a job leased either grants the lease or leaves the job as it
is. -/
lemma leased_since {events : List (OlcEvent τ ν)} {s : TimedOlc τ ν}
    (hrun : Transition.run (g.step py ed) start events = some s) {nodeId : String} {leaseUntil : τ}
    (h : Leased jobId nodeId leaseUntil s.state) :
    Transition.Since (g.step py ed) (Grants py ed g jobId nodeId leaseUntil)
      (fun t _ => Leased jobId nodeId leaseUntil t.state) start events := by
  refine Transition.run_induction_of_history (J := fun events s =>
    Leased jobId nodeId leaseUntil s.state → Transition.Since (g.step py ed)
      (Grants py ed g jobId nodeId leaseUntil)
      (fun t _ => Leased jobId nodeId leaseUntil t.state) start events)
    (fun ⟨_, hjob, _⟩ => nomatch hjob) (fun events s f t hevents hJ hstep hleased => ?_) hrun h
  rw [Transition.since_concat hevents]
  obtain ⟨job, hjob, hnode, hstate⟩ := hleased
  rcases jobs_step hstep with hjobs | ⟨id, new, hwrites, -, hjobs⟩
  · have hbefore : Leased jobId nodeId leaseUntil s.state := ⟨job, hjobs ▸ hjob, hnode, hstate⟩
    exact .inr ⟨hJ hbefore, hbefore⟩
  · rw [hjobs, Dict.get?_set] at hjob
    split_ifs at hjob with hid
    · obtain rfl := hid
      obtain rfl := Option.some.inj hjob
      obtain ⟨worker, hcall, hworker, -, huntil⟩ := hwrites.of_leased hstate
      refine .inl ⟨?_, huntil, t, hstep, new, ?_, hnode, hstate⟩
      · rw [hcall, ← hworker, hnode]
      · rw [hjobs, Dict.get?_set_self]
    · have hbefore : Leased jobId nodeId leaseUntil s.state := ⟨job, hjob, hnode, hstate⟩
      exact .inr ⟨hJ hbefore, hbefore⟩

/-! ## The life of a job -/

/-- What a reachable store says about a job: whose votes it holds, and what they have decided. -/
structure Consistent (py : PyLib ν) (ed : Ed25519) (g : OlcGateway ν) (jobId : String)
    (job : OlcJob τ ν) (q : JobQuorum ν) : Prop where
  hasQuorum : job.quorum = some q
  verified : job.state = .quorumVerified ↔ 2 ≤ q.approvals
  disputed : job.state = .disputed ↔ 2 ≤ q.rejections
  awaiting : job.state = .awaitingQuorum → q.approvals ≤ 1 ∧ q.rejections ≤ 1
  attested : ∀ v a, q.attestations.get? v = some a → v ∈ verifierIds ∧ ∃ key digest,
    q.verifierKeys.get? v = some key ∧ job.resultDigest = some digest ∧
      Attests py ed jobId job.nodeId digest v key a

omit [LinearOrder τ] [Add τ] [OfNat τ 120] in
/-- The invariant says so. -/
lemma Tally.consistent (h : Tally py ed g jobId job q) (hq : job.quorum = some q) :
    Consistent py ed g jobId job q := by
  refine ⟨hq, h.verified, h.disputed, fun hawaiting => ⟨?_, ?_⟩, h.attested⟩
  · by_contra hmany
    have hstate := h.verified.mpr (by omega)
    rw [hawaiting] at hstate
    cases hstate
  · by_contra hmany
    have hstate := h.disputed.mpr (by omega)
    rw [hawaiting] at hstate
    cases hstate

/-- A step gives a job its first result. -/
def Answers (jobId : String) (s t : TimedOlc τ ν) : Prop :=
  ∃ job job', s.state.jobs.get? jobId = some job ∧ t.state.jobs.get? jobId = some job' ∧
    job.resultDigest = none ∧ job'.resultDigest ≠ none

/-- A first result is accepted from the worker that holds the lease, while it holds it. -/
lemma result_of_answers {s t : TimedOlc τ ν} {f : OlcEvent τ ν} (hstep : g.step py ed s f = some t)
    (h : Answers jobId s t) : ∃ nodeId digest leaseUntil,
      f.call = .result nodeId (.str jobId) (.str digest) ∧
        returns (g.perform py ed f.now f.call) s.state = true ∧ f.now ≤ leaseUntil ∧
        Leased jobId nodeId leaseUntil s.state := by
  obtain ⟨job, job', hjob, hjob', hnone, hsome⟩ := h
  have hchanged : job ≠ job' := fun heq => hsome (heq ▸ hnone)
  rcases jobs_step hstep with hjobs | ⟨id, new, hwrites, hreturns, hjobs⟩
  · rw [hjobs, hjob] at hjob'
    exact (hchanged (Option.some.inj hjob')).elim
  · rw [hjobs, Dict.get?_set] at hjob'
    split_ifs at hjob' with hid
    · obtain rfl := hid
      obtain rfl := Option.some.inj hjob'
      generalize f.call = call at hwrites hreturns
      cases hwrites with
      | enqueue => exact (hsome rfl).elim
      | lease _ _ hfound =>
        obtain rfl := Option.some.inj (hjob.symm.trans hfound)
        exact (hsome hnone).elim
      | result _ digest hfound hleased hunexpired =>
        exact ⟨_, digest, _, rfl, hreturns, hunexpired, _, hfound, rfl, hleased⟩
      | attest _ _ _ _ _ hfound =>
        obtain rfl := Option.some.inj (hjob.symm.trans hfound)
        exact (hsome hnone).elim
    · rw [hjob] at hjob'
      exact (hchanged (Option.some.inj hjob')).elim

/-- **The life of a job.** In every state that a run from an empty store reaches:

* the state of a job is what its recorded votes have decided, and each of these is a vote of a
  verifier over the job and its result, signed under the keys the job was enqueued with;
* from here on a job keeps its worker, its keys, its result and its decision;
* no worker holds two leases that have not expired;
* a first result is accepted from the worker to which the job has been leased, and before the lease
  has expired.

**Proof sketch.** The invariant of the jobs and the exclusiveness of leases hold in every state, by
induction on the run; what is kept follows from the steps of the rest of the run. -/
theorem job_lifecycle (py : PyLib ν) (ed : Ed25519) (g : OlcGateway ν)
    (events : List (OlcEvent τ ν))
    (s : TimedOlc τ ν) (hrun : Transition.run (g.step py ed) start events = some s) :
    (∀ jobId job, s.state.jobs.get? jobId = some job → ∃ q, Consistent py ed g jobId job q) ∧
      (∀ more t, Transition.run (g.step py ed) s more = some t → Extends s t) ∧
      (∀ now, s.Admits now → ∀ nodeId i j ji jj, s.state.jobs.get? i = some ji →
        s.state.jobs.get? j = some jj → holdsLease now nodeId ji = true →
          holdsLease now nodeId jj = true → i = j) ∧
      ∀ f t jobId, g.step py ed s f = some t → Answers jobId s t → ∃ nodeId digest leaseUntil,
        f.call = .result nodeId (.str jobId) (.str digest) ∧
          returns (g.perform py ed f.now f.call) s.state = true ∧ f.now ≤ leaseUntil ∧
          Transition.Since (g.step py ed) (Grants py ed g jobId nodeId leaseUntil)
            (fun t _ => Leased jobId nodeId leaseUntil t.state) start events := by
  have hsound : Sound py ed g s.state := Transition.run_induction (I := fun s => Sound py ed g s.state)
    (fun _ _ _ hs hstep => Sound.step hs hstep) sound_start hrun
  refine ⟨fun jobId job hjob => ?_, fun more t hmore => ?_, ?_, fun f t jobId hstep hanswers => ?_⟩
  · obtain ⟨q, hq, htally⟩ := hsound jobId job hjob
    exact ⟨q, htally.consistent hq⟩
  · refine Transition.run_rel (I := fun s => Sound py ed g s.state)
      (fun s jobId job hjob => ⟨job, hjob, .refl job⟩) (fun s t u hst htu jobId job hjob => ?_)
      (fun s f t hs hstep => ⟨hs.step hstep, extends_step hs hstep⟩) hsound hmore
    obtain ⟨job', hjob', hkeeps⟩ := hst jobId job hjob
    obtain ⟨job'', hjob'', hkeeps'⟩ := htu jobId job' hjob'
    exact ⟨job'', hjob'', hkeeps.trans hkeeps'⟩
  · exact Transition.run_induction (I := Exclusive) (fun _ _ _ hs hstep => Exclusive.step hs hstep)
      exclusive_start hrun
  · obtain ⟨nodeId, digest, leaseUntil, hcall, hreturns, hunexpired, hleased⟩ :=
      result_of_answers hstep hanswers
    exact ⟨nodeId, digest, leaseUntil, hcall, hreturns, hunexpired, leased_since hrun hleased⟩

/-! ## A job that two verifiers accept -/

section Example

/-- The signature scheme on the signatures at hand. -/
def exampleEd25519 (signed : List (String × String × Json ℤ)) : Ed25519 where
  isKey key := key.length == 32
  verifies key signature message := signed.any fun p =>
    hexBytes? p.1.toList == some key && hexBytes? p.2.1.toList == some signature &&
      canonicalJson Ledger.integerLib p.2.2 == message

/-- The keys of the example's verifiers. -/
def exampleRoster : VerifierRoster :=
  .ofKeys "8a88e3dd7409f195fd52db2d3cba5d72ca6709bf1d94121bf3748801b40f6f5c"
    "8139770ea87d175f56a35466c34c7ecccb8d8a91b4ee37a25df60f5b8fc9b394"
    "ed4928c628d1c2c6eae90338905995612959273a5c63f93636c14614ac8737d1" (by decide)

/-- The id of the job of the example. -/
def exampleJobId : String := "00112233445566778899aabbccddeeff"

/-- A vote that accepts the job. -/
def exampleStatement (verifierId : String) : Json ℤ :=
  .obj [("job_id", .str exampleJobId), ("node_id", .str olcWorkerId),
    ("result_digest", .str expectedDigest), ("accepted", .bool true),
    ("verifier_id", .str verifierId)]

/-- The signature of the first verifier. -/
def exampleSignature₁ : String :=
  "4e62b0b4a1c973fc0916d079d53cfd7a6000567297e06acab009baa89c431c73" ++
    "3f8b078c99676fcaa82e0ef7df47f3ed1933a2a383b12437ea2653162bcc9702"

/-- The signature of the second verifier. -/
def exampleSignature₂ : String :=
  "2ac89f435ca49aed29102bd240c3b88fae27e5927b60885470ac5685f4ca0f32" ++
    "5e4250950846b98b8bce0ebbeb07ceb2e9b928afaa4c48c88da4f929d166610d"

/-- The scheme on the two signatures. -/
def exampleScheme : Ed25519 := exampleEd25519
  [("8a88e3dd7409f195fd52db2d3cba5d72ca6709bf1d94121bf3748801b40f6f5c", exampleSignature₁,
      exampleStatement "verifier-1"),
    ("8139770ea87d175f56a35466c34c7ecccb8d8a91b4ee37a25df60f5b8fc9b394", exampleSignature₂,
      exampleStatement "verifier-2")]

/-- A gateway without a legacy verifier. -/
def exampleGateway : OlcGateway ℤ where
  credentials := ∅
  roster := some exampleRoster
  legacy _ h := nomatch h

/-- A job is enqueued, leased, answered and accepted twice. -/
def exampleEvents : List (OlcEvent ℤ ℤ) :=
  [⟨0, .enqueue exampleJobId⟩, ⟨1, .lease olcWorkerId⟩,
    ⟨100, .result olcWorkerId (.str exampleJobId) (.str expectedDigest)⟩,
    ⟨101, .attest "verifier-1" (exampleStatement "verifier-1") (.str exampleSignature₁)⟩,
    ⟨102, .attest "verifier-2" (exampleStatement "verifier-2") (.str exampleSignature₂)⟩]

/-- The job is verified by its two votes. -/
theorem job_lifecycle_accepted : ∃ s job q,
    Transition.run (exampleGateway.step Ledger.integerLib exampleScheme) start exampleEvents = some s ∧
      s.state.jobs.get? exampleJobId = some job ∧
      Consistent Ledger.integerLib exampleScheme exampleGateway exampleJobId job q ∧
      2 ≤ q.approvals := by
  have hrun : ((Transition.run (exampleGateway.step Ledger.integerLib exampleScheme) start
      exampleEvents).any fun s => (s.state.jobs.get? exampleJobId).any fun job =>
        job.state = .quorumVerified) = true := by
    decide +kernel
  obtain ⟨s, hs, hjobs⟩ := (Option.any_eq_true _ _).mp hrun
  obtain ⟨job, hjob, hstate⟩ := (Option.any_eq_true _ _).mp hjobs
  obtain ⟨q, hq⟩ := (job_lifecycle Ledger.integerLib exampleScheme exampleGateway exampleEvents s
    hs).1 _ _ hjob
  exact ⟨s, job, q, hs, hjob, hq, hq.verified.mp (of_decide_eq_true hstate)⟩

end Example

end OlcGateway

end SplitChain
