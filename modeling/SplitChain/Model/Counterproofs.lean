import SplitChain.Model.Recovery
import SplitChain.Model.Runs

set_option relaxedAutoImplicit false
set_option autoImplicit false

/-!
# Counterproofs

What a counterproof is good for. The deadline of a challenge is computed from the round of its
claims, and claims are not remembered once they have been refuted. So the accused can answer a
challenge, and the answer lasts, as long as no challenge is opened after its own deadline or for a
round that has been refuted; and not otherwise, since claims can be submitted again.

## Main definitions

* `SplitChain.TimedRecovery`, `SplitChain.RecoveryCoordinator.timedStep` — rounds do not decrease.
* `SplitChain.RecoveryCoordinator.Fresh` — a claim opens no challenge that is late or refuted.

## Main results

* `SplitChain.RecoveryCoordinator.exists_refutes` — the accused can prove anything in any round.
* `SplitChain.RecoveryCoordinator.counterproofs_prevail_iff` — takeovers in runs of fresh claims.
* `SplitChain.RecoveryCoordinator.refuted_claims_depose` — a takeover by claims that were refuted.
-/

namespace SplitChain

open Raise Proc

variable {ν : Type} [PyNumber ν]

/-! ## Time -/

/-- The coordinator, with the last round that a call was given. -/
structure TimedRecovery where
  state : RecoveryState
  clock : Option ℤ

/-- The round that a call is given. -/
def RecoveryCall.round? : RecoveryCall → Option ℤ
  | .claim .. => none
  | .counterproof _ _ _ currentRound => some currentRound
  | .advance currentRound => some currentRound

/-- A round that is not before the last one. -/
def TimedRecovery.Admits (s : TimedRecovery) (round : ℤ) : Prop := ∀ last ∈ s.clock, last ≤ round

instance TimedRecovery.decidableAdmits (s : TimedRecovery) (round : ℤ) :
    Decidable (s.Admits round) := by
  unfold TimedRecovery.Admits
  infer_instance

namespace RecoveryCoordinator

variable (py : PyLib ν) (r : RecoveryCoordinator)

/-- A call whose round is not before the last one. -/
def timedStep (s : TimedRecovery) (e : RecoveryCall) : Option TimedRecovery :=
  if ∀ round ∈ e.round?, s.Admits round then
    (r.step py s.state e).map fun t => ⟨t, e.round? <|> s.clock⟩
  else none

/-- Before the first call. -/
def timedStart : TimedRecovery := ⟨start, none⟩

variable {py r} {s t : TimedRecovery} {e : RecoveryCall}

/-- What a call with a round in order does. -/
lemma timedStep_eq_some : r.timedStep py s e = some t ↔ (∀ round ∈ e.round?, s.Admits round) ∧
    r.step py s.state e = some t.state ∧ t.clock = (e.round? <|> s.clock) := by
  unfold timedStep
  split_ifs with hround
  · cases t
    simp only [Option.map_eq_some_iff, TimedRecovery.mk.injEq]
    exact ⟨fun ⟨_, hstep, hstate, hclock⟩ => ⟨hround, hstate ▸ hstep, hclock.symm⟩,
      fun ⟨_, hstep, hclock⟩ => ⟨_, hstep, rfl, hclock.symm⟩⟩
  · exact ⟨nofun, fun h => (hround h.1).elim⟩

/-! ## Calls that are accepted -/

section

variable (py r)

/-- A counterproof of the accused against the challenge for a round is valid in a round. -/
structure Refutes (s : RecoveryState) (round : ℤ) (proof : Counterproof)
    (certificate : NodeCertificate) (key : List UInt8) (currentRound : ℤ) : Prop where
  actor : proof.actor = r.roleNodes s.activeRole
  accused : proof.accusedRole = s.activeRole
  branchId : proof.branchId = r.branchId
  protocolRound : proof.protocolRound = round
  proves : r.Proves py certificate proof.actor currentRound proof.unsigned proof.signature key

/-- A claim that opens a challenge: it passes the checks, and there are enough with it. -/
structure Reaches (s : RecoveryState) (claim : FailureClaim) (certificate : NodeCertificate)
    (key : List UInt8) : Prop where
  running : s.aborted = false
  unchallenged : s.pendingDeadline = none
  branchId : claim.branchId = r.branchId
  accused : claim.accusedRole = s.activeRole
  proves : r.Proves py certificate claim.reporter claim.protocolRound claim.unsigned
    claim.signature key
  first : s.claims.get? claim.reporter = none
  sameRound : ∀ c, s.claims.values.head? = some c → c.protocolRound = claim.protocolRound
  enough : r.quorumSize ≤ (s.claims.set claim.reporter claim).size

end

section

variable {u v : RecoveryState}

/-- A call that returns is accepted, in the state in which it returns. -/
lemma accepts_of_perform (h : r.perform py e u = .ok () v) :
    r.accepts py u e = true ∧ r.step py u e = some v := by
  unfold accepts RecoveryCoordinator.step returns after
  rw [h]
  exact ⟨rfl, rfl⟩

/-- A claim that completes a quorum opens the challenge. -/
lemma perform_claim {claim : FailureClaim} {certificate : NodeCertificate} {key : List UInt8}
    (h : Reaches py r u claim certificate key) :
    r.perform py (.claim claim certificate key) u = .ok () (r.take u claim) :=
  perform_of_records ⟨⟨h.running, h.unchallenged, h.branchId, h.accused, h.proves⟩, h.first,
    h.sameRound⟩

/-- A timely counterproof ends the challenge. -/
lemma perform_counterproof {deadline round currentRound : ℤ}
    (hdeadline : u.pendingDeadline = some deadline) (hround : u.pendingRound = some round)
    (htimely : currentRound ≤ deadline) {proof : Counterproof} {certificate : NodeCertificate}
    {key : List UInt8} (h : Refutes py r u round proof certificate key currentRound) :
    r.perform py (.counterproof proof certificate key currentRound) u =
      .ok () (u.refute round proof.evidenceDigest) := by
  have hverified := verifyProof_of_proves h.proves
  rw [eq_ok_iff]
  simp only [perform, submitCounterproof, ends_bind, ends_get, ends_lift, hdeadline, hround,
    orRaise, hverified]
  simp [h.actor, h.accused, h.branchId, h.protocolRound, htimely, require]

/-- A challenge takes effect after its deadline. -/
lemma perform_advance {deadline currentRound : ℤ} (hdeadline : u.pendingDeadline = some deadline)
    (hlate : deadline < currentRound) :
    r.perform py (.advance currentRound) u = .ok () u.depose := by
  rw [eq_ok_iff]
  simp only [perform, advance, ends_bind, ends_get, ends_lift, hdeadline, orRaise]
  simp [hlate, require]

/-- The accused can prove anything in any round, with a certificate for that round. -/
lemma exists_refutes (py : PyLib ν) (r : RecoveryCoordinator) (u : RecoveryState)
    (round currentRound : ℤ) :
    ∃ proof certificate key, Refutes py r u round proof certificate key currentRound := by
  have hissue : ∃ c, r.authority.issue py (r.roleNodes u.activeRole) "" ["observer"] currentRound
      (currentRound + 1) = .ok c ∧ c.nodeId = r.roleNodes u.activeRole := by
    unfold CertificateAuthority.issue
    simp only [lt_add_iff_pos_right, zero_lt_one, decide_true]
    exact ⟨_, rfl, rfl⟩
  obtain ⟨c, hc, hnamed⟩ := hissue
  obtain ⟨proof, hproof⟩ : ∃ p, p = RecoverySigner.counterproof py ⟨c, []⟩ u.activeRole r.branchId
      round "" := ⟨_, rfl⟩
  have hsigned := RecoverySigner.signature_counterproof py ⟨c, []⟩ u.activeRole r.branchId round ""
  rw [← hproof] at hsigned
  obtain ⟨hactor, haccused, hbranch, hround⟩ : proof.actor = c.nodeId ∧
      proof.accusedRole = u.activeRole ∧ proof.branchId = r.branchId ∧
      proof.protocolRound = round := by
    rw [hproof]
    exact ⟨rfl, rfl, rfl, rfl⟩
  exact ⟨proof, c, [], hactor.trans hnamed, haccused, hbranch, hround, hactor.symm,
    CertificateAuthority.verify_issue hc le_rfl (lt_add_one _) (List.mem_singleton_self _), hsigned⟩

end

/-! ## Takeovers -/

section

variable (py r)

/-- A call takes the active role over: it gives way to another one, or the coordinator aborts. -/
def TakesOver (s t : RecoveryState) : Prop := t.activeRole ≠ s.activeRole ∨ t.aborted ≠ s.aborted

/-- The challenge for a round is pending. -/
structure Challenged (round : ℤ) (s : RecoveryState) : Prop where
  pendingRound : s.pendingRound = some round
  pendingDeadline : s.pendingDeadline = some (round + r.counterproofWindow)

/-- A call is a counterproof that is accepted against the challenge for a round, for a role. -/
def Refutation (role : FinalityRole) (round : ℤ) (s : TimedRecovery) (e : RecoveryCall) : Prop :=
  (∃ proof certificate key currentRound, e = .counterproof proof certificate key currentRound) ∧
    r.accepts py s.state e = true ∧ s.state.activeRole = role ∧ s.state.pendingRound = some round

/-- A call opens a challenge that can be answered: in some round that is not over, every valid
counterproof against it is accepted. -/
def OpensAnswerable (round : ℤ) (s : TimedRecovery) (e : RecoveryCall) : Prop :=
  s.state.pendingDeadline = none ∧ ∃ t, r.timedStep py s e = some t ∧ r.Challenged round t.state ∧
    ∃ currentRound, t.Admits currentRound ∧ ∀ proof certificate key,
      Refutes py r t.state round proof certificate key currentRound →
        r.accepts py t.state (.counterproof proof certificate key currentRound) = true

/-- **A takeover that respects counterproofs**, after the calls so far: none has been accepted from
this role against a challenge for the round of the claims; and the challenge, which has been pending
since it was opened, could be answered. -/
def Prevails (calls : List RecoveryCall) (s : TimedRecovery) : Prop :=
  ∃ round, r.Challenged round s.state ∧
    ¬Transition.Since (r.timedStep py) (Refutation py r s.state.activeRole round) (fun _ _ => True)
      timedStart calls ∧
    Transition.Since (r.timedStep py) (OpensAnswerable py r round)
      (fun t _ => r.Challenged round t.state) timedStart calls

/-- **A claim opens no challenge that is late or refuted**: when it completes a quorum, its round is
none that the active role has answered for, and the window after its round is not over. -/
def Fresh (s : TimedRecovery) (e : RecoveryCall) : Prop :=
  ∀ claim certificate key, e = .claim claim certificate key →
    Reaches py r s.state claim certificate key →
      (∀ d ∈ s.state.disputed, d.role = s.state.activeRole → d.round ≠ claim.protocolRound) ∧
        s.Admits (claim.protocolRound + r.counterproofWindow)

end

variable {calls : List RecoveryCall}

/-- What has been answered is on record.

**Proof sketch.** An accepted counterproof adds its round to the record, and no other call changes
it. -/
lemma disputed_iff (hrun : Transition.run (r.timedStep py) timedStart calls = some s)
    (role : FinalityRole) (round : ℤ) :
    (∃ d ∈ s.state.disputed, d.role = role ∧ d.round = round) ↔
      Transition.Since (r.timedStep py) (Refutation py r role round) (fun _ _ => True) timedStart
        calls := by
  refine Transition.run_induction_of_history (J := fun calls s =>
    (∃ d ∈ s.state.disputed, d.role = role ∧ d.round = round) ↔
      Transition.Since (r.timedStep py) (Refutation py r role round) (fun _ _ => True) timedStart
        calls) ?_ (fun es t e u hes hJ hstep => ?_) hrun
  · simp [timedStart, start, Transition.Since]
  rw [Transition.since_concat hes, ← hJ, and_true]
  have heffect := effect_of_step (timedStep_eq_some.mp hstep).2.1
  generalize haccepts : r.accepts py t.state e = accepted at heffect
  generalize hu : u.state = next at heffect
  have hother (h : ¬Refutation py r role round t e) (hsame : next.disputed = t.state.disputed) :
      (∃ d ∈ next.disputed, d.role = role ∧ d.round = round) ↔ Refutation py r role round t e ∨
        ∃ d ∈ t.state.disputed, d.role = role ∧ d.round = round := by
    rw [hsame]
    exact (or_iff_right h).symm
  cases heffect with
  | rejected =>
    refine hother (fun h => ?_) rfl
    have hrefused := h.2.1
    rw [haccepts] at hrefused
    cases hrefused
  | duplicate =>
    refine hother ?_ rfl
    rintro ⟨⟨_, _, _, _, h⟩, -⟩
    cases h
  | conflicting =>
    refine hother ?_ rfl
    rintro ⟨⟨_, _, _, _, h⟩, -⟩
    cases h
  | claim claim =>
    refine hother ?_ ?_
    · rintro ⟨⟨_, _, _, _, h⟩, -⟩
      cases h
    unfold RecoveryCoordinator.take
    dsimp only
    split_ifs <;> rfl
  | @counterproof proof certificate key currentRound _ challenged _ hround =>
    have hnew : Refutation py r role round t 
        (.counterproof proof certificate key currentRound) ↔
          t.state.activeRole = role ∧ challenged = round := by
      simp only [Refutation, haccepts, hround, Option.some.injEq]
      exact ⟨fun h => h.2.2, fun h => ⟨⟨_, _, _, _, rfl⟩, trivial, h⟩⟩
    simp only [RecoveryState.refute, RecoveryState.clear, List.mem_append, List.mem_singleton,
      or_and_right, exists_or, exists_eq_left, hnew]
    exact or_comm
  | advance =>
    refine hother ?_ ?_
    · rintro ⟨⟨_, _, _, _, h⟩, -⟩
      cases h
    unfold RecoveryState.depose
    split <;> rfl

/-- **What a step leaves pending** can be answered, if no claim opens a challenge that is late or
refuted.

**Proof sketch.** A claim that completes a quorum opens its challenge in time, for a round that is
not on record. Whatever else leaves a challenge pending has found it pending, and is no counterproof
that is accepted. -/
lemma prevails_step (hcalls : Transition.run (r.timedStep py) timedStart calls = some s)
    (h : ∀ deadline, s.state.pendingDeadline = some deadline → Prevails py r calls s)
    (hfresh : Fresh py r s e) (hstep : r.timedStep py s e = some t) {deadline : ℤ}
    (hdeadline : t.state.pendingDeadline = some deadline) : Prevails py r (calls ++ [e]) t := by
  have hrun : Transition.run (r.timedStep py) timedStart (calls ++ [e]) = some t :=
    Transition.run_append_eq_some_iff.mpr ⟨s, hcalls, Transition.run_cons_eq_some_iff.mpr
      ⟨t, hstep, rfl⟩⟩
  obtain ⟨-, hperform, hclock⟩ := timedStep_eq_some.mp hstep
  -- A call that leaves the challenge as it is.
  have hsame (hno : ∀ role round, ¬Refutation py r role round s e)
      (hrole : t.state.activeRole = s.state.activeRole)
      (hpr : t.state.pendingRound = s.state.pendingRound)
      (hpd : t.state.pendingDeadline = s.state.pendingDeadline) :
      Prevails py r (calls ++ [e]) t := by
    obtain ⟨round, hchallenged, hunanswered, hopened⟩ := h deadline (hpd ▸ hdeadline)
    refine ⟨round, ⟨hpr ▸ hchallenged.1, hpd ▸ hchallenged.2⟩, ?_, ?_⟩
    · rw [Transition.since_concat hcalls, hrole]
      exact fun hsince => hsince.elim (hno _ _) fun hsince => hunanswered hsince.1
    · exact (Transition.since_concat hcalls).mpr (.inr ⟨hopened, hchallenged⟩)
  have heffect := effect_of_step hperform
  generalize haccepts : r.accepts py s.state e = accepted at heffect
  generalize hu : t.state = next at heffect
  cases heffect with
  | rejected =>
    refine hsame (fun _ _ ⟨_, h, _⟩ => ?_) (by rw [hu]) (by rw [hu]) (by rw [hu])
    rw [haccepts] at h
    cases h
  | duplicate =>
    exact hsame (fun _ _ ⟨⟨_, _, _, _, h⟩, _⟩ => nomatch h) (by rw [hu]) (by rw [hu]) (by rw [hu])
  | conflicting =>
    exact hsame (fun _ _ ⟨⟨_, _, _, _, h⟩, _⟩ => nomatch h) (by rw [hu]; rfl) (by rw [hu]; rfl)
      (by rw [hu]; rfl)
  | claim claim certificate key hrunning hopen hbranch haccused hproves hfirst hround =>
    have henough : r.quorumSize ≤ (s.state.claims.set claim.reporter claim).size := by
      by_contra hfew
      rw [hu, RecoveryCoordinator.take, if_neg hfew] at hdeadline
      rw [hopen] at hdeadline
      cases hdeadline
    obtain ⟨hnew, htimely⟩ := hfresh claim certificate key rfl
      ⟨hrunning, hopen, hbranch, haccused, hproves, hfirst, hround, henough⟩
    have hchallenged : r.Challenged claim.protocolRound t.state := by
      rw [hu, RecoveryCoordinator.take, if_pos henough]
      exact ⟨rfl, rfl⟩
    have hrole : t.state.activeRole = s.state.activeRole := by
      rw [hu]
      exact (take_eq r s.state claim).1
    refine ⟨claim.protocolRound, hchallenged, ?_, (Transition.since_concat hcalls).mpr (.inl
      ⟨hopen, t, hstep, hchallenged, claim.protocolRound + r.counterproofWindow, ?_, ?_⟩)⟩
    · rw [Transition.since_concat hcalls, hrole, ← disputed_iff hcalls]
      rintro (⟨⟨_, _, _, _, h⟩, -⟩ | ⟨⟨d, hd, hdrole, hdround⟩, -⟩)
      · cases h
      · exact hnew d hd hdrole hdround
    · intro last hlast
      rw [hclock] at hlast
      exact htimely last hlast
    · intro proof certificate key hrefutes
      exact (accepts_of_perform (perform_counterproof hchallenged.2 hchallenged.1 le_rfl
        hrefutes)).1
  | counterproof =>
    rw [hu] at hdeadline
    cases hdeadline
  | advance =>
    rw [hu] at hdeadline
    unfold RecoveryState.depose at hdeadline
    split at hdeadline <;> cases hdeadline

/-- Every challenge of a run of fresh claims can be answered. -/
lemma prevails_of_fresh (hrun : Transition.run (r.timedStep py) timedStart calls = some s)
    (hfresh : Transition.Meets (r.timedStep py) (Fresh py r) timedStart calls) {deadline : ℤ}
    (hdeadline : s.state.pendingDeadline = some deadline) : Prevails py r calls s :=
  Transition.run_induction_of_history_of_meets (J := fun calls s =>
    ∀ deadline, s.state.pendingDeadline = some deadline → Prevails py r calls s) nofun
    (fun _ _ _ _ hes hJ hG hstep _ hdeadline => prevails_step hes hJ hG hstep hdeadline) hfresh hrun
    deadline hdeadline

/-- Only a challenge that takes effect changes the role or aborts. -/
lemma pending_of_takesOver {s t : RecoveryState} (hstep : r.step py s e = some t)
    (h : TakesOver s t) : ∃ deadline, s.pendingDeadline = some deadline := by
  have heffect := effect_of_step hstep
  generalize r.accepts py s e = accepted at heffect
  cases heffect with
  | rejected => exact (h.elim (fun h => h rfl) fun h => h rfl).elim
  | duplicate => exact (h.elim (fun h => h rfl) fun h => h rfl).elim
  | conflicting => exact (h.elim (fun h => h rfl) fun h => h rfl).elim
  | claim claim =>
    obtain ⟨hrole, haborted, -⟩ := take_eq r s claim
    exact (h.elim (fun h => h hrole) fun h => h haborted).elim
  | counterproof => exact (h.elim (fun h => h rfl) fun h => h rfl).elim
  | advance _ hpending => exact ⟨_, hpending⟩

/-- A challenge that takes effect changes the role or aborts. -/
lemma takesOver_depose {s : RecoveryState} (hrunning : s.aborted = false) :
    TakesOver s s.depose := by
  unfold RecoveryState.depose
  cases hrole : s.activeRole with
  | primary => exact .inl (by rw [hrole]; nofun)
  | secondary => exact .inl (by rw [hrole]; nofun)
  | tertiary => exact .inr (by rw [hrunning]; nofun)

/-- A counterproof that is accepted is timely. -/
lemma le_of_accepts {s : RecoveryState} {deadline currentRound : ℤ}
    (hdeadline : s.pendingDeadline = some deadline) {proof : Counterproof}
    {certificate : NodeCertificate} {key : List UInt8}
    (h : r.accepts py s (.counterproof proof certificate key currentRound) = true) :
    currentRound ≤ deadline := by
  have heffect := effect py r s (.counterproof proof certificate key currentRound)
  rw [h] at heffect
  generalize after (r.perform py (.counterproof proof certificate key currentRound)) s = t at heffect
  cases heffect with
  | counterproof _ _ _ _ hpending _ htimely =>
    rw [hdeadline] at hpending
    exact Option.some.inj hpending ▸ htimely

/-- There is always a later round. -/
lemma exists_admits (s : TimedRecovery) (round : ℤ) :
    ∃ later, round < later ∧ s.Admits later := by
  unfold TimedRecovery.Admits
  cases s.clock with
  | none => exact ⟨round + 1, lt_add_one _, nofun⟩
  | some last =>
    refine ⟨max (round + 1) last, (lt_add_one _).trans_le (le_max_left _ _), fun l hl => ?_⟩
    exact Option.some.inj hl ▸ le_max_right _ _

/-- A claim opens a challenge that is not late or refuted, if its takeover respects counterproofs.

**Proof sketch.** Let the challenge take effect after its deadline, and after the last round so far.
That takeover says that the challenge was not refuted, and that it was opened before a round in
which every valid counterproof is accepted; there is one for every round, so this round is not after
the deadline. -/
lemma fresh_of_prevails (hcalls : Transition.run (r.timedStep py) timedStart calls = some s)
    (h : ∀ t, Transition.run (r.timedStep py) timedStart (calls ++ [e]) = some t →
      ∀ f u, r.timedStep py t f = some u → TakesOver t.state u.state →
        Prevails py r (calls ++ [e]) t) : Fresh py r s e := by
  rintro claim certificate key rfl hreaches
  obtain ⟨t, hstate, hclock⟩ : ∃ t : TimedRecovery, t.state = r.take s.state claim ∧
      t.clock = s.clock := ⟨⟨_, _⟩, rfl, rfl⟩
  have hchallenged : r.Challenged claim.protocolRound t.state := by
    rw [hstate, RecoveryCoordinator.take, if_pos hreaches.enough]
    exact ⟨rfl, rfl⟩
  obtain ⟨hrole, haborted, -⟩ := take_eq r s.state claim
  have hstep : r.timedStep py s (.claim claim certificate key) = some t :=
    timedStep_eq_some.mpr ⟨nofun, hstate ▸ (accepts_of_perform (perform_claim hreaches)).2, hclock⟩
  have hrun : Transition.run (r.timedStep py) timedStart
      (calls ++ [.claim claim certificate key]) = some t :=
    Transition.run_append_eq_some_iff.mpr ⟨s, hcalls, Transition.run_cons_eq_some_iff.mpr
      ⟨t, hstep, rfl⟩⟩
  -- The challenge takes effect.
  obtain ⟨later, hlater, hadmits⟩ :=
    exists_admits t (claim.protocolRound + r.counterproofWindow)
  have hadvance : r.timedStep py t (.advance later) = some ⟨t.state.depose, some later⟩ :=
    timedStep_eq_some.mpr ⟨fun round hround => Option.some.inj hround ▸ hadmits,
      (accepts_of_perform (perform_advance hchallenged.pendingDeadline hlater)).2, rfl⟩
  obtain ⟨round, hpending, hunanswered, hopened⟩ := h t hrun _ _ hadvance (takesOver_depose (by
    rw [hstate, haborted, hreaches.running]))
  obtain rfl : round = claim.protocolRound :=
    Option.some.inj (hpending.pendingRound.symm.trans hchallenged.pendingRound)
  constructor
  · intro d hd hdrole hdround
    refine hunanswered ((Transition.since_concat hcalls).mpr (.inr ⟨?_, trivial⟩))
    exact (disputed_iff hcalls _ _).mp ⟨d, hd, hdrole.trans (by rw [hstate, hrole]), hdround⟩
  · rcases (Transition.since_concat hcalls).mp hopened with ⟨-, t', ht', -, current, hcurrent,
      haccepts⟩
      | ⟨-, hbefore⟩
    · obtain rfl : t = t' := Option.some.inj (hstep.symm.trans ht')
      obtain ⟨proof, certificate', key', hrefutes⟩ :=
        exists_refutes py r t.state claim.protocolRound current
      have hle := le_of_accepts hchallenged.pendingDeadline (haccepts _ _ _ hrefutes)
      exact fun last hlast => (hcurrent last (hclock ▸ hlast)).trans hle
    · have hopen := hbefore.pendingDeadline
      rw [hreaches.unchallenged] at hopen
      cases hopen

/-- **Counterproofs prevail exactly in the runs of fresh claims**: those in which no claim opens a
challenge whose window is over, or for a round that the active role has answered for. In every state
that such a run reaches, whatever call comes next, a takeover respects counterproofs; and a run with
a claim that is not fresh reaches a state from which there is a takeover that does not.

**Proof sketch.** In a run of fresh claims every challenge can be answered. Conversely, a challenge
that is opened can take effect. -/
theorem counterproofs_prevail_iff (py : PyLib ν) (r : RecoveryCoordinator)
    (calls : List RecoveryCall) :
    Transition.Meets (r.timedStep py) (Fresh py r) timedStart calls ↔
      ∀ before after s, before ++ after = calls →
        Transition.run (r.timedStep py) timedStart before = some s →
        ∀ e t, r.timedStep py s e = some t → TakesOver s.state t.state → Prevails py r before s := by
  constructor
  · rintro hfresh before after s rfl hs e t hstep htakes
    obtain ⟨deadline, hdeadline⟩ := pending_of_takesOver (timedStep_eq_some.mp hstep).2.1 htakes
    exact prevails_of_fresh hs ((Transition.meets_append hs).mp hfresh).1 hdeadline
  · intro h
    refine Transition.meets_iff_forall_prefix.mpr fun before e after s hsplit hs => ?_
    exact fresh_of_prevails hs fun t ht => h (before ++ [e]) after t (by simp [hsplit]) ht

/-! ## Claims that are submitted again -/

section Example

/-- The authority of the example. -/
def exampleAuthority : CertificateAuthority := ⟨"recovery-ca", "ca-secret"⟩

/-- An observer of the example, with a certificate for a hundred rounds. -/
def exampleSigner (name : String) : RecoverySigner :=
  let c : NodeCertificate :=
    ⟨name, name ++ "-public", ["observer"], 0, 100, exampleAuthority.issuer, ""⟩
  ⟨{ c with signature := exampleAuthority.sign Ledger.integerLib c }, encodeUtf8 name.toList⟩

/-- The coordinator of three observers. -/
def exampleCoordinator : RecoveryCoordinator where
  authority := exampleAuthority
  branchId := "branch-1"
  roleNodes role := role.value
  observerCount := 3
  counterproofWindow := 3
  three_le := le_rfl
  positive := by decide

/-- An observer accuses the primary of round 4. -/
def exampleClaim (name : String) : RecoveryCall :=
  let s := exampleSigner name
  .claim (s.claim Ledger.integerLib .primary "branch-1" 4 .noReveal "evidence-a") s.certificate s.key

/-- The primary refutes the accusation in round 6. -/
def exampleAnswer : RecoveryCall :=
  let s := exampleSigner "primary"
  .counterproof (s.counterproof Ledger.integerLib .primary "branch-1" 4 "valid-reveal") s.certificate
    s.key 6

/-- The accusation, its refutation, and the very same claims once more. -/
def exampleCalls : List RecoveryCall :=
  [exampleClaim "observer-a", exampleClaim "observer-b", exampleAnswer, exampleClaim "observer-a",
    exampleClaim "observer-b"]

/-- **Claims that were refuted depose.** The claims of round 4 are refuted in round 6; submitted
again, they depose the primary in round 8. -/
theorem refuted_claims_depose : ∃ s t,
    Transition.run (exampleCoordinator.timedStep Ledger.integerLib) timedStart exampleCalls = some s ∧
      exampleCoordinator.timedStep Ledger.integerLib s (.advance 8) = some t ∧
      TakesOver s.state t.state ∧
      ¬Prevails Ledger.integerLib exampleCoordinator exampleCalls s := by
  have hrun : ((Transition.run (exampleCoordinator.timedStep Ledger.integerLib) timedStart
      exampleCalls).any fun s => s.state.activeRole = .primary ∧ s.state.pendingRound = some 4 ∧
        s.state.pendingDeadline = some 7 ∧ s.state.aborted = false ∧
        s.state.disputed = [⟨.primary, 4, "valid-reveal"⟩] ∧ s.clock = some 6) = true := by
    decide +kernel
  obtain ⟨s, hs, hstate⟩ := (Option.any_eq_true _ _).mp hrun
  obtain ⟨hrole, hround, hdeadline, hrunning, hdisputed, hclock⟩ := of_decide_eq_true hstate
  refine ⟨s, ⟨s.state.depose, some 8⟩, hs, timedStep_eq_some.mpr ⟨fun round hr last hlast => ?_,
    (accepts_of_perform (perform_advance hdeadline (by decide))).2, rfl⟩,
    takesOver_depose hrunning, fun ⟨round, hpending, hunanswered, _⟩ => ?_⟩
  · rw [hclock] at hlast
    rw [← Option.some.inj hr, ← Option.some.inj hlast]
    decide
  · obtain rfl : 4 = round := Option.some.inj (hround.symm.trans hpending.pendingRound)
    refine hunanswered ((disputed_iff hs _ _).mp
      ⟨⟨.primary, 4, "valid-reveal"⟩, ?_, hrole.symm, rfl⟩)
    rw [hdisputed]
    exact List.mem_singleton_self _

end Example

end RecoveryCoordinator

end SplitChain
