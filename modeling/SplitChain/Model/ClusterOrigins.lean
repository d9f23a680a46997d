import SplitChain.Model.ClusterRuns

set_option relaxedAutoImplicit false
set_option autoImplicit false

/-!
# Where envelopes come from

A step of the cluster changes one node. An envelope enters the log of its signer when the signer
decides on it, which it does for an envelope that it has offered to its peers, and it offers one for
a request that has been submitted.

## Main definitions

* `SplitChain.LiveCluster.Local` — what a step leaves as it is.
* `SplitChain.LiveCluster.Origins` — where the work and the envelopes of a node come from.

## Main results

* `SplitChain.LiveCluster.step_origins` — the origins of what a step changes.
-/

namespace SplitChain

open Raise Proc

variable {A μ ρ : Type}

namespace LiveCluster

variable [DecidableEq μ] {app : App A μ ρ} {keys : Keyring μ} {boot : Role → A}
  {s t u : LiveCluster A μ} {self : Role} {n : Node A μ} {e : Envelope μ}

/-! ## Logs -/

lemma log_prepareReplica :
    (after (Node.prepareReplica app keys self true e) n).replicationLog = n.replicationLog :=
  after_iff.mpr ((Node.turns_prepareReplica ..).mono (fun _ _ h => h.2.log) fun _ _ h => h.log)

lemma log_abortReplica :
    (after (Node.abortReplica app keys self true e) n).replicationLog = n.replicationLog :=
  after_iff.mpr ((Node.turns_abortReplica ..).mono (fun _ _ h => h.2.2.log) fun _ _ h => h.log)

omit [DecidableEq μ] in
lemma log_recordCertificate {c : LeadershipCertificate} :
    (after (Node.recordCertificate keys true c) n).replicationLog = n.replicationLog := by
  refine after_iff (P := fun t : Node A μ => t.replicationLog = n.replicationLog).mpr
    (Node.turns_recordCertificate.mono ?_ fun _ _ h => by rw [h])
  rintro - t (⟨rfl, -⟩ | ⟨-, -, -, hturns⟩)
  · rfl
  · exact hturns.log

omit [DecidableEq μ] in
/-- A node that keeps its log. -/
lemma own_of_log_eq {m : Node A μ} (h : m.replicationLog = n.replicationLog) :
    ∀ e ∈ m.replicationLog, e.leader = self → e ∈ n.replicationLog :=
  fun _ he _ => h ▸ he

/-- A replica commits no envelope of its own. -/
lemma own_commitReplica :
    ∀ e' ∈ (after (Node.commitReplica app keys self true e) n).replicationLog, e'.leader = self →
      e' ∈ n.replicationLog := by
  refine after_iff (P := fun t : Node A μ => ∀ e' ∈ t.replicationLog, e'.leader = self →
    e' ∈ n.replicationLog).mpr ((Node.turns_commitReplica ..).mono ?_ fun _ t hturns e' he' _ => ?_)
  · rintro - t ⟨hverify, -, hturns⟩ e' he' hself
    rw [hturns.log] at he'
    rcases List.mem_append.mp he' with hold | hnew
    · exact hold
    · rw [List.mem_singleton.mp hnew] at hself
      exact absurd hself (verifyEnvelope_eq_ok hverify).1
  · rw [hturns.log] at he'
    exact he'

/-! ## One node at a time -/

/-- A step concerns one node alone. -/
structure Local (s t : LiveCluster A μ) (role : Role) : Prop where
  nodes : ∀ r, r ≠ role → t.nodes r = s.nodes r
  waiting : ∀ r, r ≠ role → t.waiting r = s.waiting r
  tasks : ∀ r, r ≠ role → t.tasks r = s.tasks r

/-- The work of the node is as it was, and the node has committed none of its own envelopes. -/
structure Quiet (s t : LiveCluster A μ) (role : Role) : Prop extends Local s t role where
  own : ∀ e ∈ t.log role, e.leader = role → e ∈ s.log role
  work : t.waiting role = s.waiting role ∧ t.tasks role = s.tasks role

omit [DecidableEq μ] in
/-- A node changes, and commits none of its own envelopes. -/
lemma quiet_become (h : ∀ e ∈ n.replicationLog, e.leader = self → e ∈ s.log self) :
    s.Quiet (s.become self n) self where
  nodes _ hr := Function.update_of_ne hr _ _
  waiting _ _ := rfl
  tasks _ _ := rfl
  own e he := h e (log_become_self s self n ▸ he)
  work := ⟨rfl, rfl⟩

omit [DecidableEq μ] in
/-- What has changed since is neither a node nor its work. -/
lemma Quiet.congr (h : s.Quiet t self) (hnodes : u.nodes = t.nodes)
    (hwaiting : u.waiting = t.waiting) (htasks : u.tasks = t.tasks) : s.Quiet u self := by
  obtain ⟨⟨hn, hw, ht⟩, hown, hwork⟩ := h
  cases t
  cases u
  cases hnodes
  cases hwaiting
  cases htasks
  exact ⟨⟨hn, hw, ht⟩, hown, hwork⟩

omit [DecidableEq μ] in
lemma quiet_refl (s : LiveCluster A μ) (self : Role) : s.Quiet s self :=
  ⟨⟨fun _ _ => rfl, fun _ _ => rfl, fun _ _ => rfl⟩, fun _ he _ => he, rfl, rfl⟩

omit [DecidableEq μ] in
/-- An operation of a node serves a call. -/
lemma quiet_serveBy {α : Type} {k : ℕ} {x : EStateM PyError (Node A μ) α} {result : PeerResult μ}
    (hown : ∀ e ∈ (after x (s.nodes self)).replicationLog, e.leader = self → e ∈ s.log self)
    (h : s.serveBy k self x result = some t) : s.Quiet t self := by
  unfold LiveCluster.serveBy at h
  split_ifs at h
  · exact Option.some.inj h ▸ (quiet_become hown).congr rfl rfl rfl
  · exact Option.some.inj h ▸ quiet_become hown

/-- **A call is served** by its receiver. -/
lemma quiet_serve {k : ℕ} {now : ℤ} {call : PeerCall μ}
    (h : s.serve app keys k self now call = some t) : s.Quiet t self := by
  cases call with
  | prepare e => exact quiet_serveBy (own_of_log_eq log_prepareReplica) h
  | commit e => exact quiet_serveBy own_commitReplica h
  | abort e => exact quiet_serveBy (own_of_log_eq log_abortReplica) h
  | certificate c => exact quiet_serveBy (own_of_log_eq log_recordCertificate) h
  | position | history | leadership | timeoutVote =>
    unfold LiveCluster.serve at h
    dsimp only at h
    split_ifs at h
    obtain ⟨result, -, rfl⟩ := Option.map_eq_some_iff.mp h
    exact (quiet_refl s self).congr rfl rfl rfl

omit [DecidableEq μ] in
/-- A candidate changes its node. -/
lemma quiet_changeBy {α : Type} {c : Candidacy μ} {x : EStateM PyError (Node A μ) α}
    {stage : Stage μ}
    (hown : ∀ e ∈ (after x (s.nodes self)).replicationLog, e.leader = self → e ∈ s.log self)
    (h : s.changeBy self c x stage = some t) : s.Quiet t self := by
  unfold LiveCluster.changeBy at h
  split_ifs at h
  · exact Option.some.inj h ▸ (quiet_become hown).congr rfl rfl rfl
  · exact Option.some.inj h ▸ (quiet_become hown).congr rfl rfl rfl

/-- **A candidate** does what it does next. -/
lemma quiet_move {c : Candidacy μ} {intent : Intent μ}
    (h : s.move app keys self c intent = some t) : s.Quiet t self := by
  cases intent with
  | stop => exact Option.some.inj h ▸ (quiet_refl s self).congr rfl rfl rfl
  | ask call stage => exact Option.some.inj h ▸ (quiet_refl s self).congr rfl rfl rfl
  | reach stage => exact Option.some.inj h ▸ (quiet_refl s self).congr rfl rfl rfl
  | prepare remote turns entry entries =>
    exact quiet_changeBy (own_of_log_eq log_prepareReplica) h
  | commit remote turns entry entries => exact quiet_changeBy own_commitReplica h
  | adopt certificate =>
    unfold LiveCluster.move LiveCluster.adopt at h
    dsimp only at h
    split_ifs at h
    exact Option.some.inj h ▸
      (quiet_become (own_of_log_eq log_recordCertificate)).congr rfl rfl rfl

/-! ## The work of a leader -/

/-- What the work of a node comes from: an envelope that is offered has been signed by the node for
a request that was waiting, or that was about to be taken up. -/
def Sources (keys : Keyring μ) (s : LiveCluster A μ) (self : Role) : Task μ → Prop
  | .clearing work => s.tasks self = some (.clearing work) ∨ work ∈ s.waiting self
  | .transferring offer _ => ∀ e, offer = some e →
    (∃ transfers, s.tasks self = some (.transferring (some e) transfers)) ∨
    ((s.tasks self = some (.clearing (some e.mutation)) ∨ some e.mutation ∈ s.waiting self) ∧
      e.leader = self ∧
      e.signature = keys.replication.signature self e.nonce e.mutation)
  | _ => True

/-- **Where the work and the envelopes of a node come from.** -/
structure Origins (keys : Keyring μ) (s : LiveCluster A μ) (event : ClusterEvent A μ)
    (t : LiveCluster A μ) : Prop where
  waiting : ∀ r, ∀ work ∈ t.waiting r, work ∈ s.waiting r ∨ event = .submit r work
  tasks : ∀ r task, t.tasks r = some task → s.tasks r = some task ∨ s.Sources keys r task
  own : ∀ r, ∀ e ∈ t.log r, e.leader = r → e ∈ s.log r ∨ (event = .decide r ∧
    ∃ transfers, s.tasks r = some (.transferring (some e) transfers) ∧
      (transfers r.peers.1 = .ended true ∨ transfers r.peers.2 = .ended true))

omit [DecidableEq μ] in
/-- A step that concerns one node. -/
lemma Local.origins {event : ClusterEvent A μ} (h : s.Local t self)
    (hwaiting : ∀ work ∈ t.waiting self, work ∈ s.waiting self ∨ event = .submit self work)
    (htasks : ∀ task, t.tasks self = some task →
      s.tasks self = some task ∨ s.Sources keys self task)
    (hown : ∀ e ∈ t.log self, e.leader = self → e ∈ s.log self ∨ (event = .decide self ∧
      ∃ transfers, s.tasks self = some (.transferring (some e) transfers) ∧
        (transfers self.peers.1 = .ended true ∨ transfers self.peers.2 = .ended true))) :
    Origins keys s event t where
  waiting r work hwork := by
    by_cases hr : r = self
    · exact hr ▸ hwaiting work (hr ▸ hwork)
    · exact .inl (h.waiting r hr ▸ hwork)
  tasks r task htask := by
    by_cases hr : r = self
    · subst hr
      exact htasks task htask
    · exact .inl (h.tasks r hr ▸ htask)
  own r e he hleader := by
    by_cases hr : r = self
    · subst hr
      exact hown e he hleader
    · have hsame : t.log r = s.log r := congrArg (fun m => m.replicationLog) (h.nodes r hr)
      exact .inl (hsame ▸ he)

omit [DecidableEq μ] in
/-- A step that leaves the work of its node as it is. -/
lemma Quiet.origins {event : ClusterEvent A μ} (h : s.Quiet t self) : Origins keys s event t :=
  h.toLocal.origins (fun _ hwork => .inl (h.work.1 ▸ hwork))
    (fun _ htask => .inl (h.work.2 ▸ htask)) fun e he hleader => .inl (h.own e he hleader)

omit [DecidableEq μ] in
lemma tasks_setTask (s : LiveCluster A μ) (self r : Role) (task : Option (Task μ)) :
    (s.setTask self task).tasks r = if r = self then task else s.tasks r :=
  Function.update_apply _ _ _ _

omit [DecidableEq μ] in
/-- **Work begins.** The node keeps its log; an envelope that it offers has been signed for the
request. -/
lemma begin_spec (app : App A μ ρ) (keys : Keyring μ) (s : LiveCluster A μ) (self : Role)
    (work : Option μ) : s.Local (s.begin app keys self work) self ∧
    (s.begin app keys self work).log self = s.log self ∧
    (s.begin app keys self work).waiting self = s.waiting self ∧
    ∀ task, (s.begin app keys self work).tasks self = some task →
      ∃ offer transfers, task = .transferring offer transfers ∧ ∀ e, offer = some e →
        work = some e.mutation ∧ e.leader = self ∧
        e.signature = keys.replication.signature self e.nonce e.mutation := by
  unfold LiveCluster.begin
  cases work with
  | none =>
    refine ⟨⟨fun _ _ => rfl, fun _ _ => rfl, fun r hr => ?_⟩, rfl, rfl, fun task htask => ?_⟩
    · exact Function.update_of_ne hr _ _
    · rw [tasks_setTask, if_pos rfl] at htask
      obtain rfl := Option.some.inj htask
      exact ⟨none, _, rfl, fun e he => by cases he⟩
  | some mutation =>
    have hends := Node.turns_propose app keys self (s.nodes self) mutation
    dsimp only
    cases hpropose : Node.propose app keys self true mutation (s.nodes self) with
    | ok e n =>
      obtain ⟨rfl, hturns⟩ := (ends_of_eq_ok hpropose).mp hends
      refine ⟨⟨fun r hr => Function.update_of_ne hr _ _, fun _ _ => rfl, fun r hr => ?_⟩,
        (log_become_self s self n).trans hturns.log, rfl, fun task htask => ?_⟩
      · exact Function.update_of_ne hr _ _
      · rw [tasks_setTask, if_pos rfl] at htask
        obtain rfl := Option.some.inj htask
        refine ⟨_, _, rfl, fun e he => ?_⟩
        obtain rfl := Option.some.inj he
        exact ⟨rfl, rfl, rfl⟩
    | error e n =>
      have hturns := (ends_of_eq_error hpropose).mp hends
      refine ⟨⟨fun r hr => Function.update_of_ne hr _ _, fun _ _ => rfl, fun r hr => ?_⟩,
        (log_become_self s self n).trans hturns.log, rfl, fun task htask => ?_⟩
      · exact Function.update_of_ne hr _ _
      · rw [tasks_setTask, if_pos rfl] at htask
        cases htask

omit [DecidableEq μ] in
/-- **Work gets the lock.** -/
lemma start_spec (app : App A μ ρ) (keys : Keyring μ) (s : LiveCluster A μ) (self : Role)
    (work : Option μ) : s.Local (s.start app keys self work) self ∧
    (s.start app keys self work).log self = s.log self ∧
    (s.start app keys self work).waiting self = s.waiting self ∧
    ∀ task, (s.start app keys self work).tasks self = some task → task = .clearing work ∨
      ∃ offer transfers, task = .transferring offer transfers ∧ ∀ e, offer = some e →
        work = some e.mutation ∧ e.leader = self ∧
        e.signature = keys.replication.signature self e.nonce e.mutation := by
  unfold LiveCluster.start
  cases (s.nodes self).replicationPending with
  | none =>
    obtain ⟨hlocal, hlog, hwaiting, htasks⟩ := begin_spec app keys s self work
    exact ⟨hlocal, hlog, hwaiting, fun task htask => .inr (htasks task htask)⟩
  | some record =>
    refine ⟨⟨fun _ _ => rfl, fun _ _ => rfl, fun r hr => ?_⟩, rfl, rfl, fun task htask => ?_⟩
    · exact Function.update_of_ne hr _ _
    · rw [tasks_setTask, if_pos rfl] at htask
      exact .inl (Option.some.inj htask).symm

omit [DecidableEq μ] in
/-- **The transfers have ended**: the node commits the envelope that it has offered, if a peer has
taken it. -/
lemma conclude_spec (app : App A μ ρ) (s : LiveCluster A μ) (self : Role)
    (offer : Option (Envelope μ)) (acknowledged : Bool) :
    s.Local (s.conclude app self offer acknowledged) self ∧
      (s.conclude app self offer acknowledged).waiting self = s.waiting self ∧
      (∀ task, (s.conclude app self offer acknowledged).tasks self = some task →
        (∃ e, task = .abandoning e) ∨ ∃ e first second, task = .confirming e first second) ∧
      ∀ e ∈ (s.conclude app self offer acknowledged).log self, e ∈ s.log self ∨
        (offer = some e ∧ acknowledged = true) := by
  unfold LiveCluster.conclude
  cases offer with
  | none =>
    refine ⟨⟨fun _ _ => rfl, fun _ _ => rfl, fun r hr => Function.update_of_ne hr _ _⟩, rfl,
      fun task htask => ?_, fun e he => .inl he⟩
    rw [tasks_setTask, if_pos rfl] at htask
    cases htask
  | some e =>
    have hends := Node.turns_commitLocal app (s.nodes self) e
    dsimp only
    split_ifs with hacknowledged
    · cases hcommit : Node.commitLocal app true e (s.nodes self) with
      | ok r n =>
        have hturns := (ends_of_eq_ok hcommit).mp hends
        refine ⟨⟨fun r hr => Function.update_of_ne hr _ _, fun _ _ => rfl, fun r hr => ?_⟩, rfl,
          fun task htask => ?_, fun e' he' => ?_⟩
        · exact (Function.update_of_ne hr _ _).trans (Function.update_of_ne hr _ _)
        · rw [tasks_setTask, if_pos rfl] at htask
          exact .inr ⟨_, _, _, (Option.some.inj htask).symm⟩
        · have hlog : ((s.setTask self none).become self n).log self = s.log self ++ [e] :=
            (log_become_self ..).trans hturns.log
          have hmem : e' ∈ ((s.setTask self none).become self n).log self := he'
          rw [hlog] at hmem
          exact (List.mem_append.mp hmem).imp_right fun hnew =>
            ⟨congrArg some (List.mem_singleton.mp hnew).symm, hacknowledged⟩
      | error er n =>
        have hturns := (ends_of_eq_error hcommit).mp hends
        refine ⟨⟨fun r hr => Function.update_of_ne hr _ _, fun _ _ => rfl, fun r hr => ?_⟩, rfl,
          fun task htask => ?_, fun e' he' => ?_⟩
        · exact Function.update_of_ne hr _ _
        · have hnone : ((s.setTask self none).become self n).tasks self = none :=
            Function.update_self ..
          rw [hnone] at htask
          cases htask
        · rw [log_become_self, hturns.log] at he'
          exact .inl he'
    · refine ⟨⟨fun _ _ => rfl, fun _ _ => rfl, fun r hr => Function.update_of_ne hr _ _⟩, rfl,
        fun task htask => ?_, fun e' he' => .inl he'⟩
      rw [tasks_setTask, if_pos rfl] at htask
      exact .inl ⟨_, (Option.some.inj htask).symm⟩

/-! ## Steps -/

omit [DecidableEq μ] in
/-- The lock of a node is set free, or the work that holds it goes on. -/
lemma origins_of_tasks {event : ClusterEvent A μ} (task : Option (Task μ))
    (hnodes : ∀ r, r ≠ self → t.nodes r = s.nodes r)
    (hlog : t.log self = s.log self) (hwaiting : ∀ r, ∀ work ∈ t.waiting r, work ∈ s.waiting r)
    (htasks : t.tasks = Function.update s.tasks self task)
    (hsources : ∀ w, task = some w → s.Sources keys self w) : Origins keys s event t where
  waiting r work hwork := .inl (hwaiting r work hwork)
  tasks r w hw := by
    rw [htasks, Function.update_apply] at hw
    split_ifs at hw with hr
    · subst hr
      exact .inr (hsources w hw)
    · exact .inl hw
  own r e he _ := by
    by_cases hr : r = self
    · subst hr
      exact .inl (hlog ▸ he)
    · have hsame : t.log r = s.log r := congrArg (fun m => m.replicationLog) (hnodes r hr)
      exact .inl (hsame ▸ he)

/-- **Every step** concerns one node, and its changes have their origins. -/
theorem step_origins (h : s.Sound) {event : ClusterEvent A μ}
    (hstep : s.step app keys boot event = some t) :
    (∃ role, s.Local t role) ∧ Origins keys s event t := by
  have hquiet : ∀ role, s.Quiet t role → (∃ role, s.Local t role) ∧ Origins keys s event t :=
    fun role h => ⟨⟨role, h.toLocal⟩, h.origins⟩
  cases event with
  | handle k now =>
    simp only [LiveCluster.step, Option.bind_eq_bind, Option.bind_eq_some_iff] at hstep
    obtain ⟨p, -, hserve⟩ := hstep
    exact hquiet p.receiver (quiet_serve hserve)
  | perform self background =>
    unfold LiveCluster.step at hstep
    dsimp only at hstep
    split_ifs at hstep
    exact hquiet self (Option.some.inj hstep ▸
      quiet_become (own_of_log_eq (Node.turns_background background).log))
  | tell self =>
    simp only [LiveCluster.step, Option.bind_eq_bind, Option.bind_eq_some_iff,
      Option.guard_eq_some', exists_const, Option.pure_def, Option.some.injEq] at hstep
    obtain ⟨-, certificate, -, rfl⟩ := hstep
    exact hquiet self ((quiet_refl s self).congr rfl rfl rfl)
  | submit self work =>
    unfold LiveCluster.step at hstep
    dsimp only at hstep
    split_ifs at hstep
    obtain rfl := Option.some.inj hstep
    have hlocal : s.Local (s.setWaiting self (s.waiting self ++ [work])) self :=
      ⟨fun _ _ => rfl, fun r hr => Function.update_of_ne hr _ _, fun _ _ => rfl⟩
    refine ⟨⟨self, hlocal⟩, hlocal.origins (fun w hw => ?_) (fun _ htask => .inl htask)
      fun _ he _ => .inl he⟩
    have hsame : (s.setWaiting self (s.waiting self ++ [work])).waiting self =
        s.waiting self ++ [work] := Function.update_self ..
    rw [hsame] at hw
    exact (List.mem_append.mp hw).imp_right fun hnew => by rw [List.mem_singleton.mp hnew]
  | start self k =>
    simp only [LiveCluster.step, Option.bind_eq_bind, Option.bind_eq_some_iff,
      Option.guard_eq_some', exists_const, Option.pure_def, Option.some.injEq] at hstep
    obtain ⟨-, work, hwork, rfl⟩ := hstep
    have hmem := List.mem_of_getElem? hwork
    obtain ⟨hlocal, hlog, hwaiting, htasks⟩ := start_spec app keys
      (s.setWaiting self ((s.waiting self).eraseIdx k)) self work
    have hsame : (s.setWaiting self ((s.waiting self).eraseIdx k)).waiting self =
        (s.waiting self).eraseIdx k := Function.update_self ..
    have hown : s.Local ((s.setWaiting self ((s.waiting self).eraseIdx k)).start app keys self
        work) self :=
      ⟨hlocal.nodes, fun r hr => (hlocal.waiting r hr).trans (Function.update_of_ne hr _ _),
        hlocal.tasks⟩
    refine ⟨⟨self, hown⟩, hown.origins (fun w hw => .inl ?_) (fun task htask => .inr ?_)
      fun e he _ => .inl (hlog ▸ he)⟩
    · rw [hwaiting, hsame] at hw
      exact List.mem_of_mem_eraseIdx hw
    · rcases htasks task htask with rfl | ⟨offer, transfers, rfl, hoffer⟩
      · exact .inr hmem
      · intro e he
        obtain ⟨rfl, hleader, hsignature⟩ := hoffer e he
        exact .inr ⟨.inr hmem, hleader, hsignature⟩
  | cleared self =>
    unfold LiveCluster.step at hstep
    dsimp only at hstep
    cases htask : s.tasks self with
    | none => rw [htask] at hstep; cases hstep
    | some task =>
      rw [htask] at hstep
      cases task with
      | clearing work =>
        obtain rfl := Option.some.inj hstep
        obtain ⟨hlocal, hlog, hwaiting, htasks⟩ := begin_spec app keys
          (s.become self ((Operation.abortUncommitted true).run app keys self (s.nodes self)))
          self work
        have hown : s.Local ((s.become self ((Operation.abortUncommitted true).run app keys self
            (s.nodes self))).begin app keys self work) self :=
          ⟨fun r hr => (hlocal.nodes r hr).trans (Function.update_of_ne hr _ _), hlocal.waiting,
            hlocal.tasks⟩
        refine ⟨⟨self, hown⟩, hown.origins (fun w hw => .inl (hwaiting ▸ hw))
          (fun task hnew => .inr ?_) fun e he _ => .inl ?_⟩
        · obtain ⟨offer, transfers, rfl, hoffer⟩ := htasks task hnew
          intro e he
          obtain ⟨rfl, hleader, hsignature⟩ := hoffer e he
          exact .inr ⟨.inl htask, hleader, hsignature⟩
        · rw [hlog, log_become_self,
            (turns_abortUncommitted app keys self (s.nodes self)).log] at he
          exact he
      | _ => cases hstep
  | resume self peer result =>
    unfold LiveCluster.step at hstep
    dsimp only at hstep
    cases htask : s.tasks self with
    | none => rw [htask] at hstep; cases hstep
    | some task =>
      rw [htask] at hstep
      cases task with
      | transferring offer transfers =>
        dsimp only at hstep
        split_ifs at hstep
        have hsources : ∀ transfers' w, some (Task.transferring offer transfers') = some w →
            s.Sources keys self w := by
          intro transfers' w hw
          obtain rfl := Option.some.inj hw
          rintro e rfl
          exact .inl ⟨transfers, htask⟩
        generalize (transfers peer).answer offer s.packets.length (s.nodes self).replicationLog
          (s.nodes self).committedPosition result = answer at hstep
        obtain ⟨after, next⟩ := answer
        cases next with
        | some call =>
          obtain rfl := Option.some.inj hstep
          exact ⟨⟨self, fun _ _ => rfl, fun _ _ => rfl, fun r hr => Function.update_of_ne hr _ _⟩,
            origins_of_tasks _ (fun _ _ => rfl) rfl (fun _ _ hw => hw) rfl (hsources _)⟩
        | none =>
          obtain rfl := Option.some.inj hstep
          exact ⟨⟨self, fun _ _ => rfl, fun _ _ => rfl, fun r hr => Function.update_of_ne hr _ _⟩,
            origins_of_tasks _ (fun _ _ => rfl) rfl (fun _ _ hw => hw) rfl (hsources _)⟩
      | _ => cases hstep
  | decide self =>
    unfold LiveCluster.step at hstep
    dsimp only at hstep
    cases htask : s.tasks self with
    | none => rw [htask] at hstep; cases hstep
    | some task =>
      rw [htask] at hstep
      cases task with
      | transferring offer transfers =>
        dsimp only at hstep
        cases hfirst : transfers self.peers.1 with
        | ended first =>
          cases hsecond : transfers self.peers.2 with
          | ended second =>
            rw [hfirst, hsecond] at hstep
            obtain rfl := Option.some.inj hstep
            obtain ⟨hlocal, hwaiting, htasks, hlog⟩ := conclude_spec app s self offer
              (first || second)
            refine ⟨⟨self, hlocal⟩, hlocal.origins (fun _ hw => .inl (hwaiting ▸ hw))
              (fun task hnew => .inr ?_) fun e he _ => (hlog e he).imp_right ?_⟩
            · rcases htasks task hnew with ⟨e, rfl⟩ | ⟨e, _, _, rfl⟩
              · trivial
              · trivial
            · rintro ⟨rfl, hacknowledged⟩
              refine ⟨rfl, transfers, htask, ?_⟩
              rw [hfirst, hsecond]
              exact (Bool.or_eq_true_iff.mp hacknowledged).imp (congrArg Transfer.ended)
                (congrArg Transfer.ended)
          | _ => rw [hfirst, hsecond] at hstep; cases hstep
        | _ => rw [hfirst] at hstep; cases hstep
      | _ => cases hstep
  | abandoned self =>
    unfold LiveCluster.step at hstep
    dsimp only at hstep
    cases htask : s.tasks self with
    | none => rw [htask] at hstep; cases hstep
    | some task =>
      rw [htask] at hstep
      cases task with
      | abandoning e =>
        obtain rfl := Option.some.inj hstep
        refine ⟨⟨self, fun r hr => Function.update_of_ne hr _ _, fun _ _ => rfl,
          fun r hr => Function.update_of_ne hr _ _⟩, origins_of_tasks none
          (fun r hr => Function.update_of_ne hr _ _) ?_ (fun _ _ hw => hw) rfl
          fun w hw => by cases hw⟩
        exact (log_become_self s self _).trans (turns_abandon app keys self (s.nodes self)).log
      | _ => cases hstep
  | finish self first second =>
    unfold LiveCluster.step at hstep
    dsimp only at hstep
    cases htask : s.tasks self with
    | none => rw [htask] at hstep; cases hstep
    | some task =>
      rw [htask] at hstep
      cases task with
      | confirming e firstCall secondCall =>
        dsimp only at hstep
        split_ifs at hstep
        obtain rfl := Option.some.inj hstep
        exact ⟨⟨self, fun _ _ => rfl, fun _ _ => rfl, fun r hr => Function.update_of_ne hr _ _⟩,
          origins_of_tasks none (fun _ _ => rfl) rfl (fun _ _ hw => hw) rfl
            fun w hw => by cases hw⟩
      | _ => cases hstep
  | stand self tick =>
    simp only [LiveCluster.step, LiveCluster.stand, Option.bind_eq_bind, Option.bind_eq_some_iff,
      Option.guard_eq_some', exists_const, Option.pure_def, Option.some.injEq] at hstep
    obtain ⟨-, -, -, witness, -, rfl⟩ := hstep
    exact hquiet self ((quiet_refl s self).congr rfl rfl rfl)
  | proceed self result =>
    simp only [LiveCluster.step, Option.bind_eq_bind, Option.bind_eq_some_iff,
      Option.guard_eq_some', exists_const] at hstep
    obtain ⟨c, -, -, hmove⟩ := hstep
    exact hquiet self (quiet_move hmove)
  | crash self =>
    simp only [LiveCluster.step, Option.bind_eq_bind, Option.bind_eq_some_iff, Option.pure_def,
      Option.some.injEq] at hstep
    obtain ⟨n, hn, rfl⟩ := hstep
    have hlog : (s.become self n).log self = s.log self := (log_become_self ..).trans
      (congrArg (fun r => r.2.1) ((h.kept self).reboot hn).1)
    refine ⟨⟨self, fun r hr => Function.update_of_ne hr _ _,
      fun r hr => Function.update_of_ne hr _ _, fun r hr => Function.update_of_ne hr _ _⟩,
      origins_of_tasks none (fun r hr => Function.update_of_ne hr _ _) hlog
        (fun r work hwork => ?_) rfl fun w hw => by cases hw⟩
    have hsame : work ∈ Function.update s.waiting self [] r := hwork
    rw [Function.update_apply] at hsame
    split_ifs at hsame
    · cases hsame
    · exact hsame

end LiveCluster

end SplitChain
