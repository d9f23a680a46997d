import SplitChain.Model.ClusterLogs
import SplitChain.Model.NodeInvariants
import SplitChain.Model.Reloading

set_option relaxedAutoImplicit false
set_option autoImplicit false

/-!
# The ledger that is replicated

A cluster replicates one state machine: it numbers the mutations, and each node applies those of its
log to its own state. The state of a node is then the one that a single machine reaches when it gets
the mutations of the log in order, whatever the node has been through: trials of other mutations,
aborts, elections, crashes and reloads.

The machine need not have the states of the application. A ledger that has been reloaded is only
alike to the one that was saved, so the machine of the reference node runs on one ledger, and a node
follows it with ledgers that are alike.

## Main definitions

* `SplitChain.App.Implements` — an application follows a machine.
* `SplitChain.Node.Mirrors` — the states of a node are those of the machine after its log.
* `SplitChain.Ledger.replay` — the ledger as a machine.

## Main results

* `SplitChain.LiveCluster.step_keeps` — a property of single nodes that outlives every step.
* `SplitChain.LiveCluster.mirrors_of_run` — nodes whose application follows a machine.
* `SplitChain.LiveCluster.ledgers_replayed` — the ledgers of the nodes.
-/

namespace SplitChain

open Raise Proc

open PyNumber (val trunc)

/-! ## Properties of single nodes -/

namespace LiveCluster

section Nodes

variable {A μ ρ : Type} {app : App A μ ρ} {keys : Keyring μ} {boot : Role → A}
  {s t : LiveCluster A μ} {self : Role} {I : Role → Node A μ → Prop}

/-- A node changes, and has the property still. -/
lemma keeps_become (h : ∀ r, I r (s.nodes r)) {n : Node A μ} (hn : I self n) :
    ∀ r, I r ((s.become self n).nodes r) := by
  intro r
  have hnode : (s.become self n).nodes r = if r = self then n else s.nodes r :=
    Function.update_apply ..
  rw [hnode]
  split_ifs with hr
  · exact hr.symm ▸ hn
  · exact h r

/-- The node after an operation that keeps the property. -/
lemma keeps_after {α : Type} {x : EStateM PyError (Node A μ) α} (hx : Preserves (I self) x)
    (h : ∀ r, I r (s.nodes r)) : I self (after x (s.nodes self)) :=
  after_iff.mpr (hx _ (h self))

/-- An operation of a node serves a call. -/
lemma keeps_serveBy {α : Type} {k : ℕ} {x : EStateM PyError (Node A μ) α} {result : PeerResult μ}
    (hx : Preserves (I self) x) (h : ∀ r, I r (s.nodes r))
    (hstep : s.serveBy k self x result = some t) : ∀ r, I r (t.nodes r) := by
  unfold LiveCluster.serveBy at hstep
  split_ifs at hstep
  · exact Option.some.inj hstep ▸ keeps_become h (keeps_after hx h)
  · exact Option.some.inj hstep ▸ keeps_become h (keeps_after hx h)

/-- A candidate changes its node. -/
lemma keeps_changeBy {α : Type} {c : Candidacy μ} {x : EStateM PyError (Node A μ) α}
    {stage : Stage μ} (hx : Preserves (I self) x) (h : ∀ r, I r (s.nodes r))
    (hstep : s.changeBy self c x stage = some t) : ∀ r, I r (t.nodes r) := by
  unfold LiveCluster.changeBy at hstep
  split_ifs at hstep
  · exact Option.some.inj hstep ▸ keeps_become h (keeps_after hx h)
  · exact Option.some.inj hstep ▸ keeps_become h (keeps_after hx h)

/-- Work begins. -/
lemma keeps_begin (hI : ∀ r, Node.Stable app keys (I r)) (h : ∀ r, I r (s.nodes r))
    (work : Option μ) :
    ∀ r, I r ((s.begin app keys self work).nodes r) := by
  unfold LiveCluster.begin
  cases work with
  | none => exact h
  | some mutation =>
    have hpropose : Preserves (I self) (Node.propose app keys self true mutation) :=
      (hI self).preserves_propose
    have hends := hpropose _ (h self)
    dsimp only
    cases hproposed : Node.propose app keys self true mutation (s.nodes self) with
    | ok e n => exact keeps_become h ((ends_of_eq_ok hproposed).mp hends)
    | error e n => exact keeps_become h ((ends_of_eq_error hproposed).mp hends)

/-- The transfers have ended. -/
lemma keeps_conclude (hI : ∀ r, Node.Stable app keys (I r)) (h : ∀ r, I r (s.nodes r))
    (offer : Option (Envelope μ)) (acknowledged : Bool) :
    ∀ r, I r ((s.conclude app self offer acknowledged).nodes r) := by
  unfold LiveCluster.conclude
  cases offer with
  | none => exact h
  | some e =>
    have hcommit : Preserves (I self) (Node.commitLocal app true e) :=
      (hI self).preserves_commitLocal
    have hends := hcommit _ (h self)
    dsimp only
    split_ifs
    · cases hcommitted : Node.commitLocal app true e (s.nodes self) with
      | ok r n => exact keeps_become h ((ends_of_eq_ok hcommitted).mp hends)
      | error er n => exact keeps_become h ((ends_of_eq_error hcommitted).mp hends)
    · exact h

variable [DecidableEq μ]

/-- A call is served. -/
lemma keeps_serve (hI : ∀ r, Node.Stable app keys (I r)) (h : ∀ r, I r (s.nodes r)) {k : ℕ}
    {now : ℤ} {call : PeerCall μ} (hstep : s.serve app keys k self now call = some t) :
    ∀ r, I r (t.nodes r) := by
  cases call with
  | prepare e => exact keeps_serveBy (hI self).preserves_prepareReplica h hstep
  | commit e => exact keeps_serveBy (hI self).preserves_commitReplica h hstep
  | abort e => exact keeps_serveBy (hI self).preserves_abortReplica h hstep
  | certificate c => exact keeps_serveBy (hI self).preserves_recordCertificate h hstep
  | position | history | leadership | timeoutVote =>
    unfold LiveCluster.serve at hstep
    dsimp only at hstep
    split_ifs at hstep
    obtain ⟨result, -, rfl⟩ := Option.map_eq_some_iff.mp hstep
    exact h

/-- A candidate does what it does next. -/
lemma keeps_move (hI : ∀ r, Node.Stable app keys (I r)) (h : ∀ r, I r (s.nodes r)) {c : Candidacy μ}
    {intent : Intent μ} (hstep : s.move app keys self c intent = some t) :
    ∀ r, I r (t.nodes r) := by
  cases intent with
  | stop => exact Option.some.inj hstep ▸ h
  | ask call stage => exact Option.some.inj hstep ▸ h
  | reach stage => exact Option.some.inj hstep ▸ h
  | prepare remote turns entry entries =>
    exact keeps_changeBy (hI self).preserves_prepareReplica h hstep
  | commit remote turns entry entries =>
    exact keeps_changeBy (hI self).preserves_commitReplica h hstep
  | adopt certificate =>
    unfold LiveCluster.move LiveCluster.adopt at hstep
    dsimp only at hstep
    split_ifs at hstep
    exact Option.some.inj hstep ▸
      keeps_become h (keeps_after (hI self).preserves_recordCertificate h)

/-- **Properties of single nodes.** What every part of an operation keeps, what is served to clients
and what a node is after it has come back, outlives every step of the cluster. -/
theorem step_keeps (hI : ∀ r, Node.Stable app keys (I r)) {event : ClusterEvent A μ}
    (hserve : ∀ r a, event = .perform r (.serve a) → I r (s.nodes r) →
      I r ((Operation.serve true a).run app keys r (s.nodes r)))
    (hreboot : ∀ r n m, I r n → n.reboot app keys (boot r) = some m → I r m)
    (h : ∀ r, I r (s.nodes r)) (hstep : s.step app keys boot event = some t) :
    ∀ r, I r (t.nodes r) := by
  have hrun : ∀ self (operation : Operation A μ), (∀ saves a, operation ≠ .serve saves a) →
      I self (operation.run app keys self (s.nodes self)) :=
    fun self operation hserve => (hI self).run hserve (h self)
  cases event with
  | handle k now =>
    simp only [LiveCluster.step, Option.bind_eq_bind, Option.bind_eq_some_iff] at hstep
    obtain ⟨p, -, hserved⟩ := hstep
    exact keeps_serve hI h hserved
  | perform self background =>
    unfold LiveCluster.step at hstep
    dsimp only at hstep
    split_ifs at hstep
    obtain rfl := Option.some.inj hstep
    refine keeps_become h ?_
    cases background with
    | serve a => exact hserve self a rfl (h self)
    | heartbeat beat => exact hrun self _ fun _ _ hnot => by cases hnot
    | startClock tick => exact hrun self _ fun _ _ hnot => by cases hnot
    | recordBeat tick => exact hrun self _ fun _ _ hnot => by cases hnot
  | tell self =>
    simp only [LiveCluster.step, Option.bind_eq_bind, Option.bind_eq_some_iff,
      Option.guard_eq_some', exists_const, Option.pure_def, Option.some.injEq] at hstep
    obtain ⟨-, certificate, -, rfl⟩ := hstep
    exact h
  | submit self work =>
    unfold LiveCluster.step at hstep
    dsimp only at hstep
    split_ifs at hstep
    exact Option.some.inj hstep ▸ h
  | start self k =>
    simp only [LiveCluster.step, Option.bind_eq_bind, Option.bind_eq_some_iff,
      Option.guard_eq_some', exists_const, Option.pure_def, Option.some.injEq] at hstep
    obtain ⟨-, work, -, rfl⟩ := hstep
    have hwaiting : ∀ r, I r ((s.setWaiting self ((s.waiting self).eraseIdx k)).nodes r) := h
    unfold LiveCluster.start
    split
    · exact h
    · exact keeps_begin hI hwaiting work
  | cleared self =>
    unfold LiveCluster.step at hstep
    dsimp only at hstep
    split at hstep
    · next work _ =>
      obtain rfl := Option.some.inj hstep
      exact keeps_begin hI (keeps_become h (hrun self _ fun _ _ hnot => by cases hnot)) work
    · cases hstep
  | resume self peer result =>
    unfold LiveCluster.step at hstep
    dsimp only at hstep
    split at hstep
    · split_ifs at hstep
      split at hstep
      · exact Option.some.inj hstep ▸ h
      · exact Option.some.inj hstep ▸ h
    · cases hstep
  | decide self =>
    unfold LiveCluster.step at hstep
    dsimp only at hstep
    split at hstep
    · split at hstep
      · exact Option.some.inj hstep ▸ keeps_conclude hI h _ _
      · cases hstep
    · cases hstep
  | abandoned self =>
    unfold LiveCluster.step at hstep
    dsimp only at hstep
    split at hstep
    · obtain rfl := Option.some.inj hstep
      exact keeps_become h (hrun self _ fun _ _ hnot => by cases hnot)
    · cases hstep
  | finish self first second =>
    unfold LiveCluster.step at hstep
    dsimp only at hstep
    split at hstep
    · split_ifs at hstep
      exact Option.some.inj hstep ▸ h
    · cases hstep
  | stand self tick =>
    simp only [LiveCluster.step, LiveCluster.stand, Option.bind_eq_bind, Option.bind_eq_some_iff,
      Option.guard_eq_some', exists_const, Option.pure_def, Option.some.injEq] at hstep
    obtain ⟨-, -, -, witness, -, rfl⟩ := hstep
    exact h
  | proceed self result =>
    simp only [LiveCluster.step, Option.bind_eq_bind, Option.bind_eq_some_iff,
      Option.guard_eq_some', exists_const] at hstep
    obtain ⟨c, -, -, hmove⟩ := hstep
    exact keeps_move hI h hmove
  | crash self =>
    simp only [LiveCluster.step, Option.bind_eq_bind, Option.bind_eq_some_iff, Option.pure_def,
      Option.some.injEq] at hstep
    obtain ⟨n, hn, rfl⟩ := hstep
    exact keeps_become h (hreboot self _ n (h self) hn)

end Nodes

end LiveCluster

/-! ## Applications that follow a machine -/

section Machine

variable {A μ ρ X : Type}

/-- **An application follows a machine**: a mutation that is applied is a step of the machine; one
that is refused is none, nor is a trial or a reload. -/
structure App.Implements (app : App A μ ρ) (next : X → μ → Option X) (R : X → A → Prop) : Prop where
  apply : ∀ mutation a, Ends (app.apply mutation) a
    (fun _ b => ∀ x, R x a → ∃ y, next x mutation = some y ∧ R y b) fun _ b => ∀ x, R x a → R x b
  trial : ∀ mutation a, Ends (app.trial mutation) a (fun _ b => ∀ x, R x a → R x b)
    fun _ b => ∀ x, R x a → R x b
  load : ∀ a b, app.load a = .ok b → ∀ x, R x a → R x b

/-- The mutations of a log. -/
def Saved.mutations (s : Saved A μ) : List μ := s.replicationLog.map fun e => e.mutation

/-- **A state is the one of the machine** after the mutations of the log. -/
def Saved.Mirrors (next : X → μ → Option X) (R : X → A → Prop) (start : X) (s : Saved A μ) : Prop :=
  ∃ x, Transition.run next start s.mutations = some x ∧ R x s.app

/-- **The states of a node are those of the machine**, in memory and in the file. -/
structure Node.Mirrors (next : X → μ → Option X) (R : X → A → Prop) (start : X) (n : Node A μ) :
    Prop where
  memory : n.toSaved.Mirrors next R start
  disk : ∀ s, n.disk = some s → s.Mirrors next R start

variable {app : App A μ ρ} {next : X → μ → Option X} {R : X → A → Prop} {start : X}
  {keys : Keyring μ} {n m : Node A μ}

/-- The same log, and a state of the application that follows the machine where the old one did. -/
lemma Saved.Mirrors.of_app {s t : Saved A μ} (h : s.Mirrors next R start)
    (hlog : t.replicationLog = s.replicationLog) (happ : ∀ x, R x s.app → R x t.app) :
    t.Mirrors next R start := by
  obtain ⟨x, hx, hr⟩ := h
  unfold Saved.Mirrors mutations
  rw [hlog]
  exact ⟨x, hx, happ x hr⟩

namespace Node

/-- The state of the application changes, and the machine does not notice. -/
lemma Mirrors.setApp (h : n.Mirrors next R start) {b : A} (hb : ∀ x, R x n.app → R x b) :
    (n.setApp b).Mirrors next R start :=
  ⟨h.memory.of_app rfl hb, h.disk⟩

/-- What is saved is what is in memory. -/
lemma Mirrors.saved (h : n.Mirrors next R start) : n.saved.Mirrors next R start where
  memory := (Node.toSaved_saved n).symm ▸ h.memory
  disk s hs := by
    unfold Node.saved at hs
    split_ifs at hs
    · obtain rfl := Option.some.inj hs
      exact h.memory
    · exact h.disk s hs

/-- **A commit** is the next step of the machine. -/
lemma Mirrors.commit (h : n.Mirrors next R start) (e : Envelope μ) {b : A}
    (hb : ∀ x, R x n.app → ∃ y, next x e.mutation = some y ∧ R y b) :
    ((n.setApp b).appendLog e).Mirrors next R start where
  memory := by
    have hmutations : ((n.setApp b).appendLog e).toSaved.mutations =
        n.toSaved.mutations ++ [e.mutation] := List.map_append
    obtain ⟨x, hx, hr⟩ := h.memory
    obtain ⟨y, hy, hr'⟩ := hb x hr
    unfold Saved.Mirrors
    rw [hmutations]
    exact ⟨y, Transition.run_append_eq_some_iff.mpr
      ⟨x, hx, Transition.run_cons_eq_some_iff.mpr ⟨y, hy, rfl⟩⟩, hr'⟩
  disk := h.disk

/-- **Every part of an operation** goes along with the machine. -/
lemma stable_mirrors (h : app.Implements next R) :
    Node.Stable app keys (Node.Mirrors next R start) where
  saved _ hn := hn.saved
  pending _ _ hn := ⟨hn.memory, hn.disk⟩
  leadership _ _ _ hn := ⟨hn.memory, hn.disk⟩
  trial mutation n hn := ends_onApp.mpr ((h.trial mutation n.app).mono
    (fun _ _ hb => hn.setApp hb) fun _ _ hb => hn.setApp hb)
  commit e n hn := ends_onApp.mpr ((h.apply e.mutation n.app).mono
    (fun _ _ hb => hn.commit e hb) fun _ _ hb => hn.setApp hb)

/-- A new node has replayed nothing. -/
lemma mirrors_fresh {boot : A} {hasStore : Bool} (h : R start boot) :
    (fresh boot hasStore : Node A μ).Mirrors next R start where
  memory := ⟨start, rfl, h⟩
  disk s hs := by cases hs

/-- **A node that comes back** reloads the state that it has saved. -/
lemma Mirrors.reboot [DecidableEq μ] (h : app.Implements next R) {boot : A} (hboot : R start boot)
    (hn : n.Mirrors next R start) (hm : n.reboot app keys boot = some m) :
    m.Mirrors next R start := by
  unfold Node.reboot at hm
  split_ifs at hm
  cases hdisk : n.disk with
  | none =>
    rw [hdisk] at hm
    exact Option.some.inj hm ▸ mirrors_fresh hboot
  | some s =>
    rw [hdisk] at hm
    have hrestart := toOption_eq_some.mp hm
    unfold Node.restart at hrestart
    simp only [bind_eq_ok, require_eq_ok, exists_const, pure_eq_ok] at hrestart
    obtain ⟨a, ha, leadership, -, -, -, -, rfl⟩ := hrestart
    have hs := hn.disk s hdisk
    refine ⟨hs.of_app rfl (h.load _ _ ha), fun s' hs' => ?_⟩
    obtain rfl := Option.some.inj hs'
    exact hs

end Node

/-- A property of the application that no mutation and no reload can break. -/
lemma App.Implements.and (h : app.Implements next R) {P : A → Prop}
    (happly : ∀ mutation, Preserves P (app.apply mutation))
    (htrial : ∀ mutation, Preserves P (app.trial mutation))
    (hload : ∀ a b, app.load a = .ok b → P a → P b) :
    app.Implements next fun x a => R x a ∧ P a where
  apply mutation a := by
    by_cases ha : P a
    · refine ((h.apply mutation a).and (happly mutation a ha)).mono ?_ ?_
      · rintro _ b ⟨hb, hP⟩ x ⟨hx, -⟩
        obtain ⟨y, hy, hR⟩ := hb x hx
        exact ⟨y, hy, hR, hP⟩
      · exact fun _ _ hb x hx => ⟨hb.1 x hx.1, hb.2⟩
    · exact (h.apply mutation a).mono (fun _ _ _ _ hx => absurd hx.2 ha)
        fun _ _ _ _ hx => absurd hx.2 ha
  trial mutation a := by
    by_cases ha : P a
    · exact ((h.trial mutation a).and (htrial mutation a ha)).mono
        (fun _ _ hb x hx => ⟨hb.1 x hx.1, hb.2⟩) fun _ _ hb x hx => ⟨hb.1 x hx.1, hb.2⟩
    · exact (h.trial mutation a).mono (fun _ _ _ _ hx => absurd hx.2 ha)
        fun _ _ _ _ hx => absurd hx.2 ha
  load a b hab x hx := ⟨h.load a b hab x hx.1, hload a b hab hx.2⟩

/-- **Replicated applications.** In every run of the cluster the nodes are in the states of the
machine, if their applications follow it, start where it starts, and do not leave it when they serve
clients on their own. -/
theorem LiveCluster.mirrors_of_run [DecidableEq μ] {boot : Role → A} {hasStore : Role → Bool}
    {s : LiveCluster A μ} {es : List (ClusterEvent A μ)} (himplements : app.Implements next R)
    (hstart : ∀ r, R start (boot r))
    (hserves : Transition.Meets (step app keys boot) (fun s event =>
      ∀ r a, event = .perform r (.serve a) → ∀ x, R x (s.nodes r).app → R x a)
      (initial boot hasStore) es)
    (h : Transition.run (step app keys boot) (initial boot hasStore) es = some s) :
    ∀ r, (s.nodes r).Mirrors next R start := by
  refine Transition.run_induction_of_meets (I := fun s : LiveCluster A μ =>
    ∀ r, (s.nodes r).Mirrors next R start) (fun s event t hs hserve hstep => ?_)
    (fun r => Node.mirrors_fresh (hstart r)) hserves h
  refine step_keeps (fun _ => Node.stable_mirrors himplements) (fun r a hevent hr => ?_)
    (fun r n m hn hm => hn.reboot himplements (hstart r) hm) hs hstep
  have hchanged := hr.setApp (hserve r a hevent)
  exact after_iff.mpr (Node.ends_modify_save.mpr ⟨fun _ => hchanged.saved, fun _ => hchanged⟩)

end Machine

/-! ## The ledger as a machine -/

section Ledgers

variable {py : PyLib ℤ}

namespace Ledger

/-- **The ledger as a machine** that executes one mutation after the other. -/
def replay (py : PyLib ℤ) (l : Ledger ℤ) (mutation : Request ℤ) : Option (Ledger ℤ) := do
  let method ← Method.ofJson? mutation.method
  let (l', _) ← (l.execute py method mutation.params).toOption
  return l'

/-- Integers are whole numbers. -/
lemma whole (v : ℤ) : val v = trunc v := PyNumber.val_eq_trunc_iff.mpr ⟨v, rfl⟩

variable {l l' m : Ledger ℤ}

/-- Ledgers that are alike have locked the same in excess. -/
lemma Alike.excess (h : Alike l m) (a : String) : l.excess a = m.excess a := by
  rw [Ledger.excess, Ledger.excess, h.val_locked, lockedBy, lockedBy, h.branches]

/-- The machine and a node execute a mutation on ledgers that are alike. -/
lemma Alike.replay (h : Alike l m) {mutation : Request ℤ} {method : Method} {r : Result ℤ}
    (hmethod : Method.ofJson? mutation.method = some method)
    (hm : m.execute py method mutation.params = .ok (l', r)) :
    ∃ x, l.replay py mutation = some x ∧ x.Alike l' ∧
      ∃ c, mutation.Calls c ∧ l.call py c = .ok x := by
  obtain ⟨⟨x, r'⟩, hx, hsame⟩ := (h.symm.execute method mutation.params).exists_ok hm
  obtain ⟨d, c, hd, hc, -, hcall⟩ := execute_eq_ok hx
  refine ⟨x, ?_, hsame.1.symm, c, ⟨method, d, hmethod, hd, hc⟩, hcall⟩
  unfold Ledger.replay
  rw [hmethod, Option.bind_eq_bind, Option.bind_some, hx]
  rfl

/-- The machine cannot tell ledgers that are alike apart. -/
lemma Alike.replay_step (h : Alike l m) {mutation : Request ℤ}
    (hl : l.replay py mutation = some l') : ∃ m', m.replay py mutation = some m' ∧ l'.Alike m' := by
  unfold Ledger.replay at hl
  simp only [Option.bind_eq_bind, Option.bind_eq_some_iff, toOption_eq_some, Option.pure_def,
    Option.some.injEq, Prod.exists] at hl
  obtain ⟨method, hmethod, x, r, hx, rfl⟩ := hl
  obtain ⟨m', hm', halike, -⟩ := h.symm.replay hmethod hx
  exact ⟨m', hm', halike.symm⟩

/-- A call does not change the network. -/
lemma Sane.genesis_call (h : Sane py l) {c : Call ℤ} (hc : l.call py c = .ok l') :
    l'.genesis = l.genesis := by
  obtain ⟨genesis, base, hrecord, -⟩ := h.record
  exact (hrecord.call hc).genesis_eq.trans hrecord.genesis_eq.symm

/-- **A node follows the machine**: its ledger is alike to the one of the machine. -/
structure Mirrored (py : PyLib ℤ) (l : Ledger ℤ) (app : Application ℤ) : Prop where
  machine : Sane py l
  sane : Sane py app.ledger
  alike : l.Alike app.ledger
  genesis : app.ledger.genesis.isSome = l.genesis.isSome

variable {app t : Application ℤ}

/-- At the start. -/
lemma Mirrored.of_initial (h : Initial py l) (hledger : app.ledger = l) : Mirrored py l app := by
  subst hledger
  exact ⟨h.sane, h.sane, .refl _, rfl⟩

/-- Only the ledger counts. -/
lemma Mirrored.of_ledger (h : Mirrored py l app) (hledger : t.ledger = app.ledger) :
    Mirrored py l t where
  machine := h.machine
  sane := hledger ▸ h.sane
  alike := hledger ▸ h.alike
  genesis := hledger ▸ h.genesis

/-- **The reference node follows the ledger.**

**Proof sketch.** A mutation that is applied is executed on the ledger of the node, so the machine
executes it as well, with the same effect; a check of its actor, a trial and a refusal leave the
ledger as it is, and a reload returns one that is alike. -/
theorem implements_replay :
    (ledgerApp py).Implements (replay py) (Mirrored py) where
  apply mutation a := by
    refine (Application.ends_applyMutation py a mutation true).mono ?_ ?_
    · rintro _ t ⟨method, l', app', happlied, rfl⟩ l h
      obtain ⟨x, hx, halike, c, -, hcall⟩ :=
        h.alike.replay happlied.method_eq happlied.execute
      obtain ⟨d, c', -, -, -, hown⟩ := execute_eq_ok happlied.execute
      refine ⟨x, hx, h.machine.call hcall, h.sane.call hown, halike, ?_⟩
      rw [Application.ledger_setLedger, h.sane.genesis_call hown, h.machine.genesis_call hcall]
      exact h.genesis
    · rintro _ t (rfl | rfl) l h
      · exact h
      · exact h.of_ledger (Application.ledger_loadCredential _ _)
  trial mutation a := by
    refine (Application.ends_tryMutation py a mutation).mono ?_ ?_
    · rintro _ t ⟨rfl, -⟩ l h
      exact h.of_ledger (Application.ledger_loadCredential _ _)
    · rintro _ t (rfl | rfl) l h
      · exact h
      · exact h.of_ledger (Application.ledger_loadCredential _ _)
  load a b hload l h := by
    simp only [ledgerApp, bind_eq_ok, pure_eq_ok] at hload
    obtain ⟨l', hl', authenticator, -, rfl⟩ := hload
    refine ⟨h.machine, h.sane.reload hl',
      h.alike.trans (h.sane.alike hl' fun _ v _ => Ledger.whole v), ?_⟩
    obtain ⟨rfl, -⟩ := h.sane.fromSnapshot hl'
    rw [← h.genesis]
    exact Option.isSome_map

end Ledger

/-! ## Requests of clients -/

/-- A request that is no mutation leaves the ledger as it is. -/
lemma ReferenceNode.ledger_serve {n : ReferenceNode ℤ} {request : Request ℤ}
    (hmethod : Method.ofJson? request.method = none) :
    (after (serve py true request) n).app.ledger = n.app.ledger := by
  refine after_iff (P := fun t : ReferenceNode ℤ => t.app.ledger = n.app.ledger).mpr ?_
  unfold serve
  rw [ends_bind, Node.ends_onApp, hmethod]
  refine (Application.ends_verifyRequestActor py n.app request true).mono ?_
    fun _ t ht => ht.1.ledger_eq
  rintro - t ht
  have hledger : t.ledger = n.app.ledger := by
    rcases ht with ⟨-, -, rfl⟩ | ⟨-, rfl⟩ | ⟨a, token, hadmits, rfl⟩
    · rfl
    · rfl
    · exact Application.ledger_loadCredential _ _
  dsimp only
  split
  · rw [ends_bind, ends_get]
    exact hledger
  · exact hledger
  · exact hledger

namespace LiveCluster

variable {keys : Keyring (Request ℤ)} {boot : Role → Application ℤ} {hasStore : Role → Bool}
  {s t : LiveCluster (Application ℤ) (Request ℤ)}
  {es : List (ClusterEvent (Application ℤ) (Request ℤ))}

/-- **What a node serves to its clients on its own**: the requests that are no mutations. -/
def Serves (py : PyLib ℤ) (s : LiveCluster (Application ℤ) (Request ℤ))
    (event : ClusterEvent (Application ℤ) (Request ℤ)) : Prop :=
  ∀ r a, event = .perform r (.serve a) → ∃ request, Method.ofJson? request.method = none ∧
    a = (after (ReferenceNode.serve py true request) (s.nodes r)).app

/-- What is served leaves the ledger as it is. -/
lemma Serves.mirrored {event : ClusterEvent (Application ℤ) (Request ℤ)} (h : Serves py s event)
    (r : Role) (a : Application ℤ) (hevent : event = .perform r (.serve a)) (l : Ledger ℤ)
    (hl : Ledger.Mirrored py l (s.nodes r).app) : Ledger.Mirrored py l a := by
  obtain ⟨request, hmethod, rfl⟩ := h r a hevent
  exact hl.of_ledger (ReferenceNode.ledger_serve hmethod)

/-- **Replicated ledgers.** In every run of a cluster with integer amounts whose nodes start with
one ledger, the ledger of every node is alike to the one that a single machine reaches with the
mutations of its log, in order. If another log goes on where this one ends, then the mutations that
follow lead from the ledger of this node to the one of the other; nodes with one log have ledgers
that are alike.

**Proof sketch.** The reference node follows the ledger, so that every step of the cluster keeps
each node in the state of the machine, in memory and in the file. -/
theorem ledgers_replayed (py : PyLib ℤ) (keys : Keyring (Request ℤ)) (boot : Role → Application ℤ)
    (hasStore : Role → Bool) {start : Ledger ℤ} (hinitial : Ledger.Initial py start)
    (hboot : ∀ r, (boot r).ledger = start)
    (hserves : Transition.Meets (step (ledgerApp py) keys boot) (Serves py)
      (initial boot hasStore) es)
    (h : Transition.run (step (ledgerApp py) keys boot) (initial boot hasStore) es = some s) :
    (∀ r, ∃ l, Transition.run (Ledger.replay py) start (s.nodes r).mutations = some l ∧
      l.Alike (s.nodes r).app.ledger) ∧
    ∀ r r' rest, s.log r' = s.log r ++ rest → ∃ l,
      Transition.run (Ledger.replay py) (s.nodes r).app.ledger (rest.map fun e => e.mutation) =
        some l ∧ l.Alike (s.nodes r').app.ledger := by
  have hstart : ∀ r, Ledger.Mirrored py start (boot r) := fun r =>
    .of_initial hinitial (hboot r)
  have himplements : (ledgerApp py).Implements (Ledger.replay py) (Ledger.Mirrored py) :=
    Ledger.implements_replay
  have hmirrors := mirrors_of_run himplements hstart
    (hserves.mono fun s event hserve => hserve.mirrored) h
  have hreplayed : ∀ r, ∃ l, Transition.run (Ledger.replay py) start (s.nodes r).mutations =
      some l ∧ l.Alike (s.nodes r).app.ledger := fun r => by
    obtain ⟨l, hl, hfollows⟩ := (hmirrors r).memory
    exact ⟨l, hl, hfollows.alike⟩
  refine ⟨hreplayed, fun r r' rest hrest => ?_⟩
  obtain ⟨l, hl, halike⟩ := hreplayed r
  obtain ⟨l', hl', halike'⟩ := hreplayed r'
  have hmutations : (s.nodes r').mutations =
      (s.nodes r).mutations ++ rest.map fun e => e.mutation :=
    (congrArg (List.map fun e : Envelope (Request ℤ) => e.mutation) hrest).trans List.map_append
  rw [hmutations] at hl'
  obtain ⟨m, hm, hlater⟩ := Transition.run_append_eq_some_iff.mp hl'
  obtain rfl : l = m := Option.some.inj (hl.symm.trans hm)
  obtain ⟨x, hx, hsame⟩ := Transition.run_simulated
    (fun _ _ _ _ hR hstep => hR.replay_step hstep) halike hlater
  exact ⟨x, hx, hsame.symm.trans halike'⟩

/-- The keys of a cluster of ledgers. -/
def ledgerKeys : Keyring (Request ℤ) where
  replication := {
    signature := fun leader nonce _ => plainKeys.replication.signature leader nonce ()
    verifies := fun leader nonce _ => plainKeys.replication.verifies leader nonce ()
    verifies_signature := fun leader nonce _ =>
      plainKeys.replication.verifies_signature leader nonce () }
  failover := plainKeys.failover

/-- An offer from one account to another one. -/
def offerMutation : Request ℤ where
  id := .null
  method := .str "offer"
  params := .obj [("sender", .str "alice"), ("receiver", .str "bob"), ("value", .num 4),
    ("ttl", .num 10)]
  auth := .null

/-- The Primary replicates the offer, and the Tertiary commits it. -/
def offering : List (ClusterEvent (Application ℤ) (Request ℤ)) :=
  [.submit .primary (some offerMutation),
    .start .primary 0,
    .handle 1 0,
    .resume .primary .tertiary (some (.position 0)),
    .handle 2 0,
    .resume .primary .tertiary (some .prepared),
    .resume .primary .secondary none,
    .decide .primary,
    .handle 4 0]

/-- The Tertiary has the ledger that the machine reaches with the offer. -/
theorem ledgers_replayed_offering :
    let start := Ledger.ofBalances Ledger.integerLib (Dict.ofList [("alice", 10), ("bob", 0)])
    let boot (_ : Role) : Application ℤ := ⟨start, none, none⟩
    ∃ s, Transition.run (step (ledgerApp Ledger.integerLib) ledgerKeys boot)
        (initial boot fun _ => true) offering = some s ∧
      (s.nodes .tertiary).mutations = [offerMutation] ∧
      ∃ l, Transition.run (Ledger.replay Ledger.integerLib) start [offerMutation] = some l ∧
        l.Alike (s.nodes .tertiary).app.ledger := by
  intro start boot
  have hrun : (Transition.run (step (ledgerApp Ledger.integerLib) ledgerKeys boot)
      (initial boot fun _ => true) offering).any
      (fun s => decide ((s.nodes .tertiary).mutations = [offerMutation])) = true := by
    decide +kernel
  obtain ⟨s, hs, hlog⟩ := (Option.any_eq_true _ _).mp hrun
  have hmutations := of_decide_eq_true hlog
  have hserves : Transition.Meets (step (ledgerApp Ledger.integerLib) ledgerKeys boot)
      (Serves Ledger.integerLib) (initial boot fun _ => true) offering := by
    refine (Transition.meets_of_forall (G := fun e => ∀ r b, e ≠ .perform r b) fun e he => ?_).mono
      fun _ _ h r a hperform => absurd hperform (h r (.serve a))
    rintro r b rfl
    simp [offering] at he
  have hreplayed := (ledgers_replayed Ledger.integerLib ledgerKeys boot (fun _ => true)
    Ledger.initial_payment (fun _ => rfl) hserves hs).1 .tertiary
  rw [hmutations] at hreplayed
  exact ⟨s, hs, hmutations, hreplayed⟩

end LiveCluster

end Ledgers

end SplitChain
