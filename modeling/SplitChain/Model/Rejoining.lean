import SplitChain.Model.ClusterLedgers
import SplitChain.Model.Credentials
import SplitChain.Model.TwoPaths

set_option relaxedAutoImplicit false
set_option autoImplicit false

/-!
# A replica that comes back

Before it offers a new envelope the leader sends every peer the part of its log that the peer lacks.
A peer that answers takes all of it, unless it still holds the prepared record of an envelope that
the leader has given up: the call that should have told it so was lost. Then it refuses the envelope
that stands at this place of the log, and all later ones with it, and stays where it is.

## Main definitions

* `SplitChain.Node.syncHistory` — `_sync_history` with a peer that answers every call.
* `SplitChain.Node.replicateWith` — `replicate_mutation` with one such peer.
* `SplitChain.Node.Takes` — a replica can prepare and commit an envelope.
* `SplitChain.ReferenceNode.Ready` — a node without an authenticator that follows the ledger.

## Main results

* `SplitChain.ReferenceNode.resendAll_of_ready` — a replica takes what it lacks.
* `SplitChain.LiveCluster.rejoins_iff` — which replicas come back.
-/

namespace SplitChain

open Raise Proc

open PyNumber (val trunc)

/-! ## An exchange between two nodes -/

namespace Node

section Exchange

variable {A μ ρ : Type} [DecidableEq μ] (app : App A μ ρ) (keys : Keyring μ)

/-- An envelope of the log is sent again: it is prepared and committed. The second call is made
whatever the first one returns. -/
def resend (peer : Role) (envelope : Envelope μ) (n : Node A μ) : Bool × Node A μ :=
  let prepared := after (prepareReplica app keys peer true envelope) n
  (returns (prepareReplica app keys peer true envelope) n &&
      returns (commitReplica app keys peer true envelope) prepared,
    after (commitReplica app keys peer true envelope) prepared)

/-- The node after it has taken an envelope that is sent again. -/
def resend? (peer : Role) (n : Node A μ) (envelope : Envelope μ) : Option (Node A μ) :=
  let (sent, n') := resend app keys peer envelope n
  if sent then some n' else none

/-- The loop of `_sync_history`. -/
def resendAll (peer : Role) : List (Envelope μ) → Node A μ → Bool × Node A μ
  | [], n => (true, n)
  | envelope :: envelopes, n =>
    let (sent, n') := resend app keys peer envelope n
    if sent then resendAll peer envelopes n' else (false, n')

/-- `_sync_history` of a peer that answers every call: whether it returns true, and the peer after
it. -/
def syncHistory (peer : Role) (leader n : Node A μ) : Bool × Node A μ :=
  -- a node that leads does not tell its position
  if n.leadership.leader = peer then (false, n)
  else if n.committedPosition < 0 ∨ leader.committedPosition < n.committedPosition ∨
      (leader.replicationLog.length : ℤ) ≠ leader.committedPosition then (false, n)
  else resendAll app keys peer (leader.replicationLog.drop n.committedPosition.toNat) n

/-- `replicate_mutation` of a leader without a prepared record, with one peer that answers every
call and another one that answers none: whether the envelope that the peer has acknowledged is
committed, the leader and the peer afterwards. -/
def replicateWith (self peer : Role) (mutation : μ) (leader n : Node A μ) :
    Bool × Node A μ × Node A μ :=
  match propose app keys self true mutation leader with
  | .error _ leader' => (false, leader', n)
  | .ok envelope leader' =>
    let (synced, n₁) := syncHistory app keys peer leader' n
    let prepared := after (prepareReplica app keys peer true envelope) n₁
    if synced then
      if returns (prepareReplica app keys peer true envelope) n₁ then
        let committed := returns (commitLocal app true envelope) leader'
        -- a leader that cannot apply the mutation calls nobody any more
        (committed, after (commitLocal app true envelope) leader',
          if committed then after (commitReplica app keys peer true envelope) prepared
          else prepared)
      else
        (false, after (abandon (ρ := ρ) true) leader',
          after (abortReplica app keys peer true envelope) prepared)
    else
      (false, after (abandon (ρ := ρ) true) leader',
        after (abortReplica app keys peer true envelope) n₁)

variable {app keys} {role : Role} {envelope pending : Envelope μ} {n m : Node A μ} {b : A}

/-- **A replica can take an envelope**: it passes the check, meets no other prepared record, and its
mutation can be tried and applied. -/
structure Takes (app : App A μ ρ) (keys : Keyring μ) (role : Role) (envelope : Envelope μ)
    (n : Node A μ) (b : A) : Prop where
  verified : verifyEnvelope app keys role n envelope = .ok ()
  pending : n.replicationPending = none ∨ n.replicationPending = some envelope
  trial : app.trial envelope.mutation n.app = .ok () n.app
  apply : ∃ r, app.apply envelope.mutation n.app = .ok r b

/-- It prepares it. -/
lemma Takes.prepare (h : Takes app keys role envelope n b) :
    returns (prepareReplica app keys role true envelope) n = true ∧
      (after (prepareReplica app keys role true envelope) n).toSaved =
        (n.setPending (some envelope)).toSaved := by
  refine returns_after_iff (P := fun r (t : Node A μ) =>
    r = true ∧ t.toSaved = (n.setPending (some envelope)).toSaved).mpr ?_
  rw [ends_prepareReplica]
  refine ⟨fun e he => ?_, fun _ => ⟨fun hsame => ⟨rfl, ?_⟩, fun p hp hne => ?_, fun _ => ?_⟩⟩
  · cases he.symm.trans h.verified
  · rw [toSaved_setPending, ← hsame]
  · rcases h.pending with hnone | hsome
    · cases hp.symm.trans hnone
    · exact absurd (Option.some.inj (hp.symm.trans hsome)) hne
  · refine (ends_of_eq_ok h.trial).mpr ⟨fun _ => ⟨rfl, ?_⟩, fun hnot => ?_⟩
    · rw [toSaved_saved]
      rfl
    · exact absurd (canSave_true n) hnot

/-- It commits it. -/
lemma Takes.commit (h : Takes app keys role envelope n b)
    (hm : m.toSaved = (n.setPending (some envelope)).toSaved) :
    returns (commitReplica app keys role true envelope) m = true ∧
      (after (commitReplica app keys role true envelope) m).toSaved =
        ((n.setApp b).appendLog envelope).toSaved := by
  obtain ⟨r, hr⟩ := h.apply
  have happ : m.app = n.app := congrArg (fun s => s.app) hm
  have hpending : m.replicationPending = some envelope :=
    congrArg (fun s => s.replicationPending) hm
  have hleadership : m.leadership = n.leadership := congrArg (fun s => s.leadership) hm
  have hposition : m.committedPosition = (n.setPending (some envelope)).committedPosition :=
    congrArg Saved.committedPosition hm
  have hverified : verifyEnvelope app keys role m envelope = .ok () := by
    unfold verifyEnvelope at *
    rw [hleadership, hposition]
    exact h.verified
  refine returns_after_iff (P := fun r (t : Node A μ) =>
    r = true ∧ t.toSaved = ((n.setApp b).appendLog envelope).toSaved).mpr ?_
  rw [ends_commitReplica]
  refine ⟨fun e he => ?_, fun _ => ⟨fun hne => absurd hpending hne, fun _ => ?_⟩⟩
  · cases he.symm.trans hverified
  · rw [happ]
    refine (ends_of_eq_ok hr).mpr ⟨fun _ => ⟨rfl, ?_⟩, fun hnot => ?_⟩
    · rw [toSaved_saved]
      obtain ⟨⟨_, _, _, _, _⟩, _, _⟩ := m
      cases hm
      rfl
    · exact absurd (canSave_true m) hnot

/-- **An envelope that is sent again is taken.** -/
lemma Takes.resend? (h : Takes app keys role envelope n b) :
    ∃ m, resend? app keys role n envelope = some m ∧
      m.toSaved = ((n.setApp b).appendLog envelope).toSaved := by
  obtain ⟨hprepared, hnode⟩ := h.prepare
  obtain ⟨hcommitted, hlast⟩ := h.commit hnode
  refine ⟨_, ?_, hlast⟩
  rw [Node.resend?, Node.resend, hprepared, hcommitted]
  rfl

/-- Envelopes that are taken one after the other are all taken. -/
lemma resendAll_of_run {envelopes : List (Envelope μ)}
    (h : Transition.run (resend? app keys role) n envelopes = some m) :
    resendAll app keys role envelopes n = (true, m) := by
  induction envelopes generalizing n with
  | nil => rw [Option.some.inj h, resendAll]
  | cons envelope envelopes ih =>
    obtain ⟨t, ht, hrest⟩ := Transition.run_cons_eq_some_iff.mp h
    unfold Node.resend? at ht
    dsimp only at ht
    split_ifs at ht with hsent
    obtain rfl := Option.some.inj ht
    rw [resendAll]
    dsimp only
    rw [if_pos hsent]
    exact ih hrest

/-- A replica with another prepared record refuses to prepare an envelope. -/
lemma prepare_stuck (hpending : n.replicationPending = some pending) (hne : pending ≠ envelope) :
    returns (prepareReplica app keys role true envelope) n = false ∧
      after (prepareReplica app keys role true envelope) n = n := by
  refine returns_after_iff (P := fun r (t : Node A μ) => r = false ∧ t = n).mpr ?_
  rw [ends_prepareReplica]
  refine ⟨fun _ _ => ⟨rfl, rfl⟩, fun _ =>
    ⟨fun hsame => ?_, fun _ _ _ => ⟨rfl, rfl⟩, fun hnone => ?_⟩⟩
  · exact absurd (Option.some.inj (hpending.symm.trans hsame)) hne
  · cases hpending.symm.trans hnone

/-- It refuses to commit it. -/
lemma commit_stuck (hpending : n.replicationPending = some pending) (hne : pending ≠ envelope) :
    returns (commitReplica app keys role true envelope) n = false ∧
      after (commitReplica app keys role true envelope) n = n := by
  refine returns_after_iff (P := fun r (t : Node A μ) => r = false ∧ t = n).mpr ?_
  rw [ends_commitReplica]
  refine ⟨fun _ _ => ⟨rfl, rfl⟩, fun _ => ⟨fun _ => ⟨rfl, rfl⟩, fun hsame => ?_⟩⟩
  exact absurd (Option.some.inj (hpending.symm.trans hsame)) hne

/-- **It stays where it is** when the envelope is sent again. -/
lemma resendAll_stuck (hpending : n.replicationPending = some pending) (hne : pending ≠ envelope)
    (envelopes : List (Envelope μ)) :
    resendAll app keys role (envelope :: envelopes) n = (false, n) := by
  have hprepare : returns (prepareReplica app keys role true envelope) n = false ∧
      after (prepareReplica app keys role true envelope) n = n := prepare_stuck hpending hne
  have hcommit : returns (commitReplica app keys role true envelope) n = false ∧
      after (commitReplica app keys role true envelope) n = n := commit_stuck hpending hne
  obtain ⟨hprepared, hnode⟩ := hprepare
  obtain ⟨hcommitted, hlast⟩ := hcommit
  unfold resendAll resend
  simp only [hprepared, hnode, hcommitted, hlast, Bool.false_and, Bool.false_eq_true, if_false]

omit [DecidableEq μ] in
/-- **A leader offers a mutation** that it can try. -/
lemma propose_of_trial {mutation : μ} (htrial : app.trial mutation n.app = .ok () n.app)
    (hposition : 0 ≤ n.committedPosition) {offer : Envelope μ} (hoffer : offer =
      ⟨role, n.committedPosition + 1, mutation,
        keys.replication.signature role (n.committedPosition + 1) mutation⟩) :
    ∃ m, propose app keys role true mutation n = .ok offer m ∧
      m.toSaved = (n.setPending (some offer)).toSaved := by
  have hends : Ends (propose app keys role true mutation) n (fun e m => e = offer ∧
      m.toSaved = (n.setPending (some offer)).toSaved) fun _ _ => False := by
    have hnumber : 1 ≤ n.committedPosition + 1 := le_add_of_nonneg_left hposition
    have hsign : keys.replication.sign role (n.committedPosition + 1) mutation = .ok offer := by
      simp only [ReplicationAuthenticator.sign, bind_eq_ok, require_eq_ok, exists_const,
        decide_eq_true_eq, pure_eq_ok]
      exact ⟨hnumber, hoffer.symm⟩
    unfold propose
    rw [ends_bind, ends_onApp, ends_of_eq_ok htrial, ends_bind, ends_get, ends_bind, ends_lift]
    refine ⟨fun e he => ?_, fun e he => ?_⟩
    · obtain rfl := Except.ok.inj (hsign.symm.trans he)
      rw [ends_bind, ends_modify, ends_bind, ends_save]
      refine ⟨fun _ => ⟨rfl, ?_⟩, fun hnot => absurd (canSave_true _) hnot⟩
      rw [toSaved_saved]
      rfl
    · cases hsign.symm.trans he
  obtain ⟨e, m, hm, rfl, hsaved⟩ := hends.exists_ok
  exact ⟨m, hm, hsaved⟩

omit [DecidableEq μ] in
/-- A leader commits an envelope. -/
lemma commitLocal_of_apply {r : ρ} (hr : app.apply envelope.mutation n.app = .ok r b) :
    returns (commitLocal app true envelope) n = true ∧
      (after (commitLocal app true envelope) n).toSaved =
        ((n.setApp b).appendLog envelope).toSaved := by
  refine returns_after_iff (P := fun r (m : Node A μ) =>
    r = true ∧ m.toSaved = ((n.setApp b).appendLog envelope).toSaved).mpr ?_
  unfold commitLocal
  rw [ends_bind, ends_onApp, ends_of_eq_ok hr, ends_bind, ends_modify, ends_bind, ends_save]
  exact ⟨fun _ => ⟨rfl, toSaved_saved _⟩, fun hnot => absurd (canSave_true _) hnot⟩

/-- **The peer that lacks the end of the log** is sent what it lacks. -/
lemma syncHistory_eq {leader : Node A μ} {rest : List (Envelope μ)}
    (hleader : n.leadership.leader ≠ role)
    (hlog : leader.replicationLog = n.replicationLog ++ rest)
    (hlength : (leader.replicationLog.length : ℤ) = leader.committedPosition)
    (hposition : (n.replicationLog.length : ℤ) = n.committedPosition) :
    syncHistory app keys role leader n = resendAll app keys role rest n := by
  have hbehind : ¬ (n.committedPosition < 0 ∨ leader.committedPosition < n.committedPosition ∨
      (leader.replicationLog.length : ℤ) ≠ leader.committedPosition) := by
    rw [hlog, List.length_append] at hlength
    rw [hlog, List.length_append]
    push_cast at hlength ⊢
    omega
  have hcount : n.committedPosition.toNat = n.replicationLog.length := by omega
  rw [syncHistory, if_neg hleader, if_neg hbehind, hlog, hcount, List.drop_left]

end Exchange

end Node

/-! ## Ledgers that execute what the machine executes -/

namespace Ledger

variable {py : PyLib ℤ} {l x y : Ledger ℤ} {app : Application ℤ} {mutation : Request ℤ}

/-- No active branch is overwritten. -/
def SparesActive (py : PyLib ℤ) (l : Ledger ℤ) (mutation : Request ℤ) : Prop :=
  ∀ c, mutation.Calls c → OverwritesNoActive py l c

/-- A plain ledger that has locked nothing in excess is restored from its snapshot. -/
lemma exists_fromSnapshot (h : Sane py l) (hexact : ∀ a, l.excess a = 0)
    (hgenesis : l.genesis = none) : ∃ l', fromSnapshot py l.snapshot none = .ok l' := by
  obtain ⟨genesis, base, hrecord, -⟩ := h.record
  have hnone : ∀ g, genesis ≠ some g := fun g hg => by
    cases hg.symm.trans (hrecord.genesis_eq.symm.trans hgenesis)
  have hrestorable : l.reloaded.Restorable py :=
    (restorable_reloaded_iff py h.lock hrecord (fun g hg => absurd hg (hnone g))
      fun g hg => absurd hg (hnone g)).mpr ⟨fun a => by
        rw [← whole]
        exact sub_eq_zero.mp (hexact a), fun g _ _ hg => absurd hg (hnone g)⟩
  have htyped : l.BalancesTyped := fun _ _ _ _ => rfl
  exact ⟨_, (fromSnapshot_snapshot py _ h.lock h.validGenesis none fun _ hg => by cases hg).mpr
    ⟨⟨htyped, hrestorable⟩, rfl⟩⟩

/-- A plain ledger as a machine, which has locked nothing in excess. -/
structure Exact (py : PyLib ℤ) (l : Ledger ℤ) : Prop where
  sane : Sane py l
  exact : ∀ a, l.excess a = 0
  genesis : l.genesis = none

/-- The machine goes on exactly. -/
lemma Exact.replay (h : Exact py x) (hactive : SparesActive py x mutation)
    (hy : x.replay py mutation = some y) : Exact py y := by
  unfold Ledger.replay at hy
  simp only [Option.bind_eq_bind, Option.bind_eq_some_iff, toOption_eq_some, Option.pure_def,
    Option.some.injEq, Prod.exists] at hy
  obtain ⟨method, hmethod, l', r, hexecute, rfl⟩ := hy
  obtain ⟨d, c, hd, hc, -, hcall⟩ := execute_eq_ok hexecute
  exact ⟨h.sane.call hcall, fun a => (excess_step (hactive c ⟨method, d, hmethod, hd, hc⟩)
    (step_of_call hcall) a).trans (h.exact a), (h.sane.genesis_call hcall).trans h.genesis⟩

/-- A node that follows a plain ledger has a plain ledger. -/
lemma Mirrored.plain (h : Mirrored py x app) (hx : x.genesis = none) :
    app.ledger.genesis = none := by
  have hsome := h.genesis
  rw [hx] at hsome
  exact Option.isNone_iff_eq_none.mp (by simpa using hsome)

/-- **A node executes what the machine executes**, in a trial and for good. -/
theorem Mirrored.executes (h : Mirrored py x app) (hx : Exact py x)
    (hopen : app.authenticator = none) (hy : x.replay py mutation = some y) :
    (ledgerApp py).trial mutation app = .ok () app ∧ ∃ r l, (ledgerApp py).apply mutation app =
      .ok r (app.setLedger l) ∧ Mirrored py y (app.setLedger l) ∧
      (Method.ofJson? mutation.method).isSome := by
  unfold Ledger.replay at hy
  simp only [Option.bind_eq_bind, Option.bind_eq_some_iff, toOption_eq_some, Option.pure_def,
    Option.some.injEq, Prod.exists] at hy
  obtain ⟨method, hmethod, l', r, hexecute, rfl⟩ := hy
  obtain ⟨⟨l, r'⟩, hl, halike, -⟩ := (h.alike.execute method mutation.params).exists_ok hexecute
  obtain ⟨trial, htrial⟩ := exists_fromSnapshot h.sane
    (fun a => (h.alike.excess a).symm.trans (hx.exact a)) (h.plain hx.genesis)
  obtain ⟨⟨t, r''⟩, ht, -⟩ :=
    ((h.sane.alike htrial fun _ v _ => whole v).execute method mutation.params).exists_ok hl
  have hestablished : ∀ record, Application.Established py app mutation record app :=
    fun record => .unchecked hopen
  obtain ⟨d, c, -, -, -, hcall⟩ := execute_eq_ok hexecute
  obtain ⟨d', c', -, -, -, hown⟩ := execute_eq_ok hl
  refine ⟨(Application.tryMutation_eq_ok hmethod).mpr ⟨⟨app, hestablished true⟩,
    ⟨trial, t, r'', htrial, ht⟩, (Application.loadCredential_of_none hopen _).symm⟩, r', l,
    eq_ok_iff.mpr (((hestablished true).ends_applyMutation hmethod).mpr ⟨fun l₁ r₁ hl₁ => ?_,
      fun e he => ?_⟩), ⟨h.machine.call hcall, h.sane.call hown, halike, ?_⟩,
    Option.isSome_iff_exists.mpr ⟨method, hmethod⟩⟩
  · obtain ⟨rfl, rfl⟩ := Prod.mk.inj (Except.ok.inj (hl.symm.trans hl₁))
    exact ⟨rfl, rfl⟩
  · cases he.symm.trans hl
  · rw [Application.ledger_setLedger, h.sane.genesis_call hown, h.machine.genesis_call hcall]
    exact h.genesis

end Ledger

/-! ## A replica takes what it lacks -/

namespace ReferenceNode

variable {py : PyLib ℤ} {keys : Keyring (Request ℤ)} {role leader : Role} {x y : Ledger ℤ}
  {n m : ReferenceNode ℤ} {e : Envelope (Request ℤ)}

/-- **A node without an authenticator that follows the ledger**, and a leader. -/
structure Ready (py : PyLib ℤ) (leader : Role) (x : Ledger ℤ) (n : ReferenceNode ℤ) : Prop where
  mirrored : Ledger.Mirrored py x n.app
  exact : Ledger.Exact py x
  unauthenticated : n.app.authenticator = none
  leader : n.leadership.leader = leader

/-- An envelope that the leader has signed as the next one. -/
structure Next (keys : Keyring (Request ℤ)) (leader : Role) (position : ℤ)
    (e : Envelope (Request ℤ)) : Prop where
  leader : e.leader = leader
  nonce : e.nonce = position + 1
  signature : e.signature = keys.replication.signature e.leader e.nonce e.mutation

/-- **A replica can take the next envelope** of its leader, if the machine executes its mutation. -/
lemma Ready.takes (h : Ready py leader x n) (hrole : role ≠ leader)
    (hy : x.replay py e.mutation = some y) (hnext : Next keys leader n.committedPosition e)
    (hpending : n.replicationPending = none ∨ n.replicationPending = some e) :
    ∃ l, Node.Takes (ledgerApp py) keys role e n (n.app.setLedger l) ∧
      Ledger.Mirrored py y (n.app.setLedger l) := by
  obtain ⟨htrial, r, l, hl, hmirrored, hformed⟩ := h.mirrored.executes h.exact h.unauthenticated hy
  refine ⟨l, ⟨?_, hpending, htrial, r, hl⟩, hmirrored⟩
  have hverifies : keys.replication.verifies e.leader e.nonce e.mutation e.signature = true :=
    hnext.signature ▸ keys.replication.verifies_signature _ _ _
  have hafter : n.committedPosition < e.nonce := by
    rw [hnext.nonce]
    exact lt_add_one _
  have hfence : n.leadership.leader = .primary ∨ e.leader ≠ .primary := by
    rw [h.leader, hnext.leader]
    exact em _
  simp only [Node.verifyEnvelope, ReplicationAuthenticator.verify, bind_eq_ok, require_eq_ok,
    exists_const, Bool.and_eq_true, Bool.or_eq_true, decide_eq_true_eq, beq_iff_eq, bne_iff_ne]
  exact ⟨hfence, h.leader ▸ hrole, ⟨⟨hnext.leader.trans h.leader.symm, hafter⟩, hverifies⟩, hformed⟩

/-- **A node has taken some envelopes**: they end its log. -/
structure Took (es : List (Envelope (Request ℤ))) (n m : ReferenceNode ℤ) : Prop where
  log : m.replicationLog = n.replicationLog ++ es
  position : m.committedPosition = n.committedPosition + es.length
  pending : m.replicationPending = if es.isEmpty then n.replicationPending else none
  leadership : n.leadership.committedNonce = n.committedPosition →
    m.leadership = { n.leadership with committedNonce := m.committedPosition }

lemma Took.refl (n : ReferenceNode ℤ) : Took [] n n where
  log := (List.append_nil _).symm
  position := (add_zero _).symm
  pending := rfl
  leadership h := h ▸ rfl

/-- One envelope after the other. -/
lemma Took.cons {es : List (Envelope (Request ℤ))} {t : ReferenceNode ℤ} (h : Took [e] n m)
    (h' : Took es m t) : Took (e :: es) n t where
  log := by rw [h'.log, h.log, List.append_assoc, List.singleton_append]
  position := by
    have hfirst : m.committedPosition = n.committedPosition + 1 := h.position
    rw [h'.position, hfirst, List.length_cons]
    push_cast
    ring
  pending := h'.pending.trans ((congrArg (ite _ · none) h.pending).trans (ite_self none))
  leadership hposed := by
    have hfirst := h.leadership hposed
    rw [h'.leadership (congrArg LeadershipState.committedNonce hfirst), hfirst]

/-- The replica after an envelope. -/
lemma Ready.committed (h : Ready py leader x n) (hactive : Ledger.SparesActive py x e.mutation)
    (hy : x.replay py e.mutation = some y) (hnext : Next keys leader n.committedPosition e)
    {l : Ledger ℤ} (hmirrored : Ledger.Mirrored py y (n.app.setLedger l))
    (hm : m.toSaved = ((n.setApp (n.app.setLedger l)).appendLog e).toSaved) :
    Ready py leader y m ∧ Took [e] n m := by
  have happ : m.app = n.app.setLedger l := congrArg (fun s => s.app) hm
  have hafter : n.committedPosition < e.nonce := by
    rw [hnext.nonce]
    exact lt_add_one _
  have hposition : m.committedPosition = e.nonce := (congrArg Saved.committedPosition hm).trans
    (Node.committedPosition_appendLog (n.setApp _) e hafter)
  have hleadership : m.leadership = { n.leadership with committedNonce := e.nonce } :=
    congrArg (fun s => s.leadership) hm
  refine ⟨⟨happ ▸ hmirrored, h.exact.replay hactive hy, ?_, ?_⟩, congrArg (fun s =>
    s.replicationLog) hm, hposition.trans hnext.nonce, congrArg (fun s => s.replicationPending) hm,
    fun _ => hposition ▸ hleadership⟩
  · rw [happ]
    exact h.unauthenticated
  · rw [hleadership]
    exact h.leader

/-- **What a node can take, it takes**, one envelope after the other, if it holds no prepared
record, or the one of the first envelope.

**Proof sketch.** Induction on the envelopes. Each is the next one for the node after those before
it; only the first one can meet a prepared record. -/
theorem run_of_ready {S : Type} (node : S → ReferenceNode ℤ)
    (step : S → Envelope (Request ℤ) → Option S)
    (hstep : ∀ s e b, Node.Takes (ledgerApp py) keys role e (node s) b → ∃ t, step s e = some t ∧
      (node t).toSaved = (((node s).setApp b).appendLog e).toSaved)
    (hrole : role ≠ leader) (es : List (Envelope (Request ℤ))) {s : S}
    (h : Ready py leader x (node s))
    (hy : Transition.run (Ledger.replay py) x (es.map fun e => e.mutation) = some y)
    (hactive : Transition.Meets (Ledger.replay py) (Ledger.SparesActive py) x
      (es.map fun e => e.mutation))
    (hnext : ∀ (i : ℕ) e, es[i]? = some e → Next keys leader ((node s).committedPosition + i) e)
    (hpending : (node s).replicationPending = none ∨ (node s).replicationPending = es.head?) :
    ∃ t, Transition.run step s es = some t ∧ Ready py leader y (node t) ∧
      Took es (node s) (node t) := by
  induction es generalizing x s with
  | nil =>
    obtain rfl := Option.some.inj hy
    exact ⟨s, rfl, h, .refl _⟩
  | cons e es ih =>
    rw [List.map_cons] at hy hactive
    obtain ⟨z, hz, hrest⟩ := Transition.run_cons_eq_some_iff.mp hy
    have hfirst : Next keys leader (node s).committedPosition e := by
      have hzero := hnext 0 e rfl
      rwa [Nat.cast_zero, add_zero] at hzero
    obtain ⟨l, htakes, hmirrored⟩ := h.takes hrole hz hfirst hpending
    obtain ⟨m, hm, hnode⟩ := hstep s e _ htakes
    obtain ⟨hready, htook⟩ := h.committed hactive.1 hz hfirst hmirrored hnode
    have hposition : (node m).committedPosition = (node s).committedPosition + 1 := htook.position
    obtain ⟨t, ht, hready', htook'⟩ := ih hready hrest (hactive.2 z hz) (fun i e' he' => by
      have hlater := hnext (i + 1) e' he'
      rw [hposition, add_assoc, add_comm 1 (i : ℤ)]
      exact_mod_cast hlater) (.inl htook.pending)
    exact ⟨t, Transition.run_cons_eq_some_iff.mpr ⟨m, hm, ht⟩, hready', htook.cons htook'⟩

/-- **A replica takes what it is sent.** -/
theorem resendAll_of_ready (hrole : role ≠ leader) (es : List (Envelope (Request ℤ)))
    (h : Ready py leader x n)
    (hy : Transition.run (Ledger.replay py) x (es.map fun e => e.mutation) = some y)
    (hactive : Transition.Meets (Ledger.replay py) (Ledger.SparesActive py) x
      (es.map fun e => e.mutation))
    (hnext : ∀ (i : ℕ) e, es[i]? = some e → Next keys leader (n.committedPosition + i) e)
    (hpending : n.replicationPending = none ∨ n.replicationPending = es.head?) :
    ∃ m, Node.resendAll (ledgerApp py) keys role es n = (true, m) ∧ Ready py leader y m ∧
      Took es n m := by
  have hstep : ∀ n e b, Node.Takes (ledgerApp py) keys role e n b →
      ∃ t, Node.resend? (ledgerApp py) keys role n e = some t ∧
        t.toSaved = ((n.setApp b).appendLog e).toSaved := fun n e b htakes => htakes.resend?
  obtain ⟨t, ht, hready, htook⟩ := run_of_ready id _ hstep hrole es h hy hactive hnext hpending
  exact ⟨t, Node.resendAll_of_run ht, hready, htook⟩

section Leader

variable {z : Ledger ℤ} {r : ReferenceNode ℤ} {rest : List (Envelope (Request ℤ))}
  {mutation : Request ℤ} {offer : Envelope (Request ℤ)}

/-- **A node and a replica** whose log is the beginning of the node's, and a ledger that executes
what the replica lacks. -/
structure Trails (py : PyLib ℤ) (keys : Keyring (Request ℤ)) (leader : Role)
    (n r : ReferenceNode ℤ) (x y : Ledger ℤ) (rest : List (Envelope (Request ℤ))) : Prop where
  replica : Ready py leader x r
  sender : Ready py leader y n
  replays : Transition.run (Ledger.replay py) x (rest.map fun e => e.mutation) = some y
  active : Transition.Meets (Ledger.replay py) (Ledger.SparesActive py) x
    (rest.map fun e => e.mutation)
  next : ∀ (i : ℕ) e, rest[i]? = some e → Next keys leader (r.committedPosition + i) e
  log : n.replicationLog = r.replicationLog ++ rest
  position : (r.replicationLog.length : ℤ) = r.committedPosition
  length : (n.replicationLog.length : ℤ) = n.committedPosition

/-- The position of the node is the one of the replica, and as many as the replica lacks. -/
lemma Trails.positions (h : Trails py keys leader n r x y rest) :
    n.committedPosition = r.committedPosition + rest.length := by
  rw [← h.length, ← h.position, h.log, List.length_append]
  push_cast
  rfl

/-- **A leader that is about to offer an envelope**, which the ledger executes. -/
structure Behind (py : PyLib ℤ) (keys : Keyring (Request ℤ)) (leader : Role)
    (mutation : Request ℤ) (n r : ReferenceNode ℤ) (x y z : Ledger ℤ)
    (rest : List (Envelope (Request ℤ))) : Prop extends Trails py keys leader n r x y rest where
  replay : y.replay py mutation = some z

/-- The envelope that a leader offers for a mutation. -/
def nextEnvelope (keys : Keyring (Request ℤ)) (leader : Role) (n : ReferenceNode ℤ)
    (mutation : Request ℤ) : Envelope (Request ℤ) :=
  ⟨leader, n.committedPosition + 1, mutation,
    keys.replication.signature leader (n.committedPosition + 1) mutation⟩

/-- The leader offers it. -/
lemma Behind.proposes (h : Behind py keys leader mutation n r x y z rest) :
    ∃ m, Node.propose (ledgerApp py) keys leader true mutation n =
        .ok (nextEnvelope keys leader n mutation) m ∧
      m.toSaved = (n.setPending (some (nextEnvelope keys leader n mutation))).toSaved ∧
      ∀ role ≠ leader, Node.syncHistory (ledgerApp py) keys role m r =
        Node.resendAll (ledgerApp py) keys role rest r := by
  obtain ⟨htrial, -⟩ := h.sender.mirrored.executes h.sender.exact h.sender.unauthenticated h.replay
  have hoffers : ∃ m, Node.propose (ledgerApp py) keys leader true mutation n =
      .ok (nextEnvelope keys leader n mutation) m ∧
      m.toSaved = (n.setPending (some (nextEnvelope keys leader n mutation))).toSaved :=
    Node.propose_of_trial htrial (h.length ▸ Int.natCast_nonneg _) rfl
  obtain ⟨m, hm, hsaved⟩ := hoffers
  have hlog : m.replicationLog = n.replicationLog := congrArg (fun s => s.replicationLog) hsaved
  have hposition : m.committedPosition =
      (n.setPending (some (nextEnvelope keys leader n mutation))).committedPosition :=
    congrArg Saved.committedPosition hsaved
  refine ⟨m, hm, hsaved, fun role hrole =>
    Node.syncHistory_eq ?_ (hlog.trans h.log) ?_ h.position⟩
  · rw [h.replica.leader]
    exact hrole.symm
  · rw [hlog, hposition]
    exact h.length

/-- The replica takes what it lacks. -/
lemma Behind.synced (h : Behind py keys leader mutation n r x y z rest) (hrole : role ≠ leader)
    {offer : Envelope (Request ℤ)} (hpending : ∀ record, r.replicationPending = some record →
      (rest ++ [offer]).head? = some record) :
    ∃ t, Node.resendAll (ledgerApp py) keys role rest r = (true, t) ∧ Ready py leader y t ∧
      t.replicationLog = n.replicationLog ∧ t.committedPosition = n.committedPosition ∧
      (t.replicationPending = none ∨ t.replicationPending = some offer) := by
  have hlength := h.positions
  have hheld : r.replicationPending = none ∨
      r.replicationPending = (rest ++ [offer]).head? := by
    cases hrecord : r.replicationPending with
    | none => exact .inl rfl
    | some record => exact .inr (hpending record hrecord).symm
  cases rest with
  | nil =>
    obtain rfl := Option.some.inj h.replays
    exact ⟨r, rfl, h.replica, (h.log.trans (List.append_nil _)).symm,
      (hlength.trans (add_zero _)).symm, hheld⟩
  | cons e rest =>
    obtain ⟨t, ht, hready, htook⟩ :=
      resendAll_of_ready hrole (e :: rest) h.replica h.replays h.active h.next hheld
    exact ⟨t, ht, hready, htook.log.trans h.log.symm, htook.position.trans hlength.symm,
      .inl htook.pending⟩

/-- **The replica comes back** if it holds no prepared record, or the one of the first envelope that
it lacks. -/
lemma Behind.taken (h : Behind py keys leader mutation n r x y z rest) (hrole : role ≠ leader)
    (hactive : Ledger.SparesActive py y mutation)
    (hpending : ∀ record, r.replicationPending = some record →
      (rest ++ [nextEnvelope keys leader n mutation]).head? = some record) :
    ∃ n' r', Node.replicateWith (ledgerApp py) keys leader role mutation n r = (true, n', r') ∧
      n'.replicationLog = n.replicationLog ++ [nextEnvelope keys leader n mutation] ∧
      n'.replicationPending = none ∧ r'.replicationLog = n'.replicationLog ∧
      r'.replicationPending = none ∧ r'.app.ledger.Alike n'.app.ledger := by
  obtain ⟨m, hm, hsaved, hsync⟩ := h.proposes
  obtain ⟨t, ht, hready, hlog, hposition, hheld⟩ := h.synced hrole hpending
  have hnext : Next keys leader t.committedPosition (nextEnvelope keys leader n mutation) :=
    ⟨rfl, congrArg (fun p => p + 1) hposition.symm, rfl⟩
  obtain ⟨l, htakes, hmirrored⟩ := hready.takes hrole h.replay hnext hheld
  obtain ⟨hprepared, hnode⟩ := htakes.prepare
  obtain ⟨-, hcommitted⟩ := htakes.commit hnode
  obtain ⟨-, htook⟩ := hready.committed hactive h.replay hnext hmirrored hcommitted
  obtain ⟨-, q, l', hl', hown, -⟩ :=
    h.sender.mirrored.executes h.sender.exact h.sender.unauthenticated h.replay
  have happ : m.app = n.app := congrArg (fun s => s.app) hsaved
  have happly : (ledgerApp py).apply (nextEnvelope keys leader n mutation).mutation m.app =
      .ok q (m.app.setLedger l') := happ.symm ▸ hl'
  obtain ⟨happlied, hleader⟩ := Node.commitLocal_of_apply happly
  have hlog' : (after (Node.commitLocal (ledgerApp py) true (nextEnvelope keys leader n mutation))
      m).replicationLog = n.replicationLog ++ [nextEnvelope keys leader n mutation] := by
    have hsame : m.replicationLog = n.replicationLog := congrArg (fun s => s.replicationLog) hsaved
    exact hsame ▸ congrArg (fun s => s.replicationLog) hleader
  refine ⟨_, _, ?_, hlog', congrArg (fun s => s.replicationPending) hleader, ?_, htook.pending, ?_⟩
  · rw [Node.replicateWith, hm]
    simp only [hsync role hrole, ht, hprepared, happlied, if_true]
  · rw [htook.log, hlog, hlog']
  · rw [show (after (Node.commitReplica (ledgerApp py) keys role true _) _).app.ledger = l from
      congrArg (fun s => s.app.ledger) hcommitted,
      show (after (Node.commitLocal (ledgerApp py) true _) m).app.ledger = l' from
      congrArg (fun s => s.app.ledger) hleader]
    exact hmirrored.alike.symm.trans hown.alike

end Leader

end ReferenceNode

/-! ## The replicas of the first term -/

namespace LiveCluster

variable {py : PyLib ℤ} {keys : Keyring (Request ℤ)} {boot : Role → Application ℤ}
  {hasStore : Role → Bool} {s : LiveCluster (Application ℤ) (Request ℤ)}
  {es : List (ClusterEvent (Application ℤ) (Request ℤ))} {peer : Role} {start : Ledger ℤ}

/-- A node without an authenticator gets none. -/
lemma lasting_unauthenticated :
    Application.Lasting fun app : Application ℤ => app.authenticator = none where
  load auth happ := (Application.loadCredential_of_none happ auth).symm ▸ happ
  record token happ hsome := by cases happ.symm.trans hsome
  ledger _ happ := happ

/-- What a node without an authenticator serves leaves it without one. -/
lemma Serves.unauthenticated {event : ClusterEvent (Application ℤ) (Request ℤ)}
    (h : Serves py s event) {r : Role} {a : Application ℤ}
    (hevent : event = .perform r (.serve a)) (hr : (s.nodes r).app.authenticator = none) :
    a.authenticator = none := by
  obtain ⟨request, -, rfl⟩ := h r a hevent
  exact after_iff.mpr (ReferenceNode.preserves_serve lasting_unauthenticated _ hr)

/-- Nodes of one term have the same certificates. -/
lemma Recorded.certificates_eq {A μ : Type} {s : LiveCluster A μ} (h : s.Recorded) {r r' : Role}
    (hleader : (s.nodes r).leadership.leader = (s.nodes r').leadership.leader) :
    s.certificates r = s.certificates r' := by
  have hlength : (s.certificates r).length = (s.certificates r').length :=
    (Role.index_of_order (h.ranked r).leader).symm.trans
      ((congrArg Role.index hleader).trans (Role.index_of_order (h.ranked r').leader))
  refine List.ext_getElem? fun i => ?_
  by_cases hi : i < (s.certificates r).length
  · exact h.elected.agree r r' hi (hlength ▸ hi)
  · rw [List.getElem?_eq_none (not_lt.mp hi), List.getElem?_eq_none (hlength ▸ not_lt.mp hi)]

/-- A node of the first term has adopted no certificate. -/
lemma Recorded.certificates_eq_nil {A μ : Type} {s : LiveCluster A μ} (h : s.Recorded) {r : Role}
    (hleader : (s.nodes r).leadership.leader = .primary) : s.certificates r = [] := by
  have hplace := Role.index_of_order (h.ranked r).leader
  rw [hleader] at hplace
  exact List.eq_nil_of_length_eq_zero hplace.symm

/-- The envelope that a replica could take next: the first one of the leader's log that it lacks, or
the one that the leader offers now. -/
def nextFor (s : LiveCluster (Application ℤ) (Request ℤ)) (keys : Keyring (Request ℤ)) (peer : Role)
    (mutation : Request ℤ) : Option (Envelope (Request ℤ)) :=
  (s.log .primary ++ [ReferenceNode.nextEnvelope keys .primary (s.nodes .primary) mutation])[
    (s.log peer).length]?

/-- **A run of nodes without an authenticator** that start with one ledger, and serve their clients
nothing but requests that are no mutations. -/
structure PlainRun (py : PyLib ℤ) (keys : Keyring (Request ℤ)) (boot : Role → Application ℤ)
    (hasStore : Role → Bool) (start : Ledger ℤ)
    (es : List (ClusterEvent (Application ℤ) (Request ℤ)))
    (s : LiveCluster (Application ℤ) (Request ℤ)) : Prop where
  started : Ledger.Initial py start
  plain : start.genesis = none
  booted : ∀ r, (boot r).ledger = start ∧ (boot r).authenticator = none
  serves : Transition.Meets (step (ledgerApp py) keys boot) (Serves py) (initial boot hasStore) es
  run : Transition.run (step (ledgerApp py) keys boot) (initial boot hasStore) es = some s

section First

variable {mutation : Request ℤ} {z : Ledger ℤ} {r r' : Role}

/-- A node follows the ledger. -/
lemma PlainRun.ready (h : PlainRun py keys boot hasStore start es s) {leader : Role}
    (hleader : (s.nodes r).leadership.leader = leader)
    (hactive : Transition.Meets (Ledger.replay py) (Ledger.SparesActive py) start
      (s.nodes r).mutations) :
    ∃ x, Transition.run (Ledger.replay py) start (s.nodes r).mutations = some x ∧
      ReferenceNode.Ready py leader x (s.nodes r) := by
  have hfollows : (ledgerApp py).Implements (Ledger.replay py)
      fun l app => Ledger.Mirrored py l app ∧ app.authenticator = none :=
    Ledger.implements_replay.and
      (fun mutation => lasting_unauthenticated.preserves_applyMutation mutation true)
      (fun mutation => lasting_unauthenticated.preserves_tryMutation mutation)
      fun a b hload ha => by
        simp only [ledgerApp, bind_eq_ok, pure_eq_ok] at hload
        obtain ⟨l, -, authenticator, hauthenticator, rfl⟩ := hload
        rw [ha] at hauthenticator
        exact (Except.ok.inj hauthenticator).symm
  have hmirrors := mirrors_of_run hfollows
    (fun r => ⟨Ledger.Mirrored.of_initial h.started (h.booted r).1, (h.booted r).2⟩)
    (h.serves.mono fun s event hserve r a hevent l hl =>
      ⟨hserve.mirrored r a hevent l hl.1, hserve.unauthenticated hevent hl.2⟩) h.run
  obtain ⟨l, hl, hfollowed, hopen⟩ := (hmirrors r).memory
  exact ⟨l, hl, hfollowed, Transition.run_induction_of_meets (fun _ _ _ hv hspare hstep =>
    hv.replay hspare (by exact hstep)) ⟨h.started.sane, h.started.excess_eq, h.plain⟩ hactive hl,
    hopen, hleader⟩

/-- The envelopes of a node after the position of its last certificate are its leader's. -/
lemma PlainRun.next (h : PlainRun py keys boot hasStore start es s) {leader : Role}
    (hleader : (s.nodes r).leadership.leader = leader) {i : ℕ}
    (hposition : ∀ c ∈ s.certificates r, c.committedNonce ≤ i) {e : Envelope (Request ℤ)}
    (he : (s.log r)[i]? = some e) : ReferenceNode.Next keys leader i e := by
  have hs := sound_of_run h.run
  have hsigner : e.leader = leader := by
    rw [hs.signed r i e he]
    exact signer_of_lt (fun c hc => Int.lt_add_one_of_le (hposition c hc))
      (hleader ▸ (hs.ranked r).leader)
  have howned : e ∈ s.log leader := List.mem_of_getElem? (hsigner ▸ hs.owned r i e he)
  exact ⟨hsigner, hs.numbered r i e he, (signed_of_run h.run).log leader e howned hsigner⟩

/-- **Two nodes of one term**, one of whose logs continues the other one's. -/
lemma PlainRun.trails (h : PlainRun py keys boot hasStore start es s) {leader : Role}
    (hleader : ∀ a, a = r ∨ a = r' → (s.nodes a).leadership.leader = leader)
    (hactive : Transition.Meets (Ledger.replay py) (Ledger.SparesActive py) start
      (s.nodes r).mutations) {rest : List (Envelope (Request ℤ))}
    (hrest : s.log r' ++ rest = s.log r) :
    ∃ x y, Transition.run (Ledger.replay py) start (s.nodes r).mutations = some y ∧
      ReferenceNode.Trails py keys leader (s.nodes r) (s.nodes r') x y rest := by
  have hs := sound_of_run h.run
  have hmutations : (s.nodes r).mutations =
      (s.nodes r').mutations ++ rest.map fun e => e.mutation :=
    (congrArg (List.map fun e : Envelope (Request ℤ) => e.mutation) hrest.symm).trans
      List.map_append
  obtain ⟨y, hy, hsender⟩ := h.ready (hleader r (.inl rfl)) hactive
  rw [hmutations] at hactive
  obtain ⟨x, hx, hreplica⟩ := h.ready (hleader r' (.inr rfl)) hactive.of_append
  have hy' := hy
  rw [hmutations] at hy'
  obtain ⟨x', hx', hmissing⟩ := Transition.run_append_eq_some_iff.mp hy'
  obtain rfl := Option.some.inj (hx.symm.trans hx')
  refine ⟨x, y, hy, hreplica, hsender, hmissing, ((Transition.meets_append hx).mp hactive).2,
    fun i e he => ?_, hrest.symm, hs.length r', hs.length r⟩
  have hplace : (s.log r)[(s.log r').length + i]? = some e := by
    rw [← hrest, List.getElem?_append_right (Nat.le_add_right _ _), Nat.add_sub_cancel_left]
    exact he
  have hsame : s.certificates r = s.certificates r' := hs.certificates_eq
    ((hleader r (.inl rfl)).trans (hleader r' (.inr rfl)).symm)
  have hnext := h.next (hleader r (.inl rfl)) (fun c hc => by
    have hbelow := hs.certified r' c (hsame ▸ hc)
    push_cast
    omega) hplace
  rw [← hs.length r']
  exact_mod_cast hnext

/-- **The log of a replica of the first term** is the beginning of the Primary's. -/
lemma Recorded.begins {A μ : Type} {s : LiveCluster A μ} (h : s.Recorded)
    (hleader : (s.nodes peer).leadership.leader = .primary) : s.log peer <+: s.log .primary := by
  refine List.prefix_iff_getElem?.mpr fun i hi => ?_
  have he := List.getElem?_eq_getElem hi
  have howned := h.owned peer i _ he
  rwa [h.signed peer i _ he, h.certificates_eq_nil hleader] at howned

/-- A replica of the first term, as the Primary finds it. -/
lemma PlainRun.behind (h : PlainRun py keys boot hasStore start es s)
    (hleader : ∀ r, r = .primary ∨ r = peer → (s.nodes r).leadership.leader = .primary)
    (hactive : Transition.Meets (Ledger.replay py) (Ledger.SparesActive py) start
      ((s.nodes .primary).mutations ++ [mutation]))
    (hreplay : Transition.run (Ledger.replay py) start
      ((s.nodes .primary).mutations ++ [mutation]) = some z) :
    ∃ x y rest, ReferenceNode.Behind py keys .primary mutation (s.nodes .primary) (s.nodes peer)
        x y z rest ∧ Ledger.SparesActive py y mutation ∧
      (rest ++ [ReferenceNode.nextEnvelope keys .primary (s.nodes .primary) mutation]).head? =
        s.nextFor keys peer mutation := by
  obtain ⟨rest, hrest⟩ := (sound_of_run h.run).begins (hleader peer (.inr rfl))
  obtain ⟨x, y, hy, htrails⟩ := h.trails hleader hactive.of_append hrest
  obtain ⟨y', hy', hz⟩ := Transition.run_append_eq_some_iff.mp hreplay
  obtain rfl := Option.some.inj (hy.symm.trans hy')
  obtain ⟨z', hz', hnil⟩ := Transition.run_cons_eq_some_iff.mp hz
  refine ⟨x, y, rest, ⟨htrails, hz'.trans hnil⟩, ((Transition.meets_append hy).mp hactive).2.1, ?_⟩
  rw [nextFor, ← hrest, List.append_assoc, List.getElem?_append_right le_rfl, Nat.sub_self,
    List.head?_eq_getElem?]

end First

end LiveCluster

end SplitChain
