import SplitChain.Model.Rejoining

set_option relaxedAutoImplicit false
set_option autoImplicit false

/-!
# The exchanges are runs of the cluster

`Node.replicateWith` computes what a leader and a peer come to when the peer answers every call of
the leader. In the cluster the events are single calls and results: from every state with free locks
some run leads to these two nodes, and leaves everything else as it is. So a replica that can come
back does come back in the cluster itself.

## Main definitions

* `SplitChain.LiveCluster.respond` — what a node whose lock is free does with a call.
* `SplitChain.LiveCluster.responded` — a call is served and answered.
* `SplitChain.LiveCluster.Hosts` — work that waits in a transfer.

## Main results

* `SplitChain.LiveCluster.Hosts.syncHistory` — the log is transferred.
* `SplitChain.LiveCluster.reaches_replicateWith` — a mutation that is replicated.
* `SplitChain.LiveCluster.reaches_rejoined` — a replica that comes back.
-/

namespace SplitChain

open Raise Proc Transition

namespace LiveCluster

variable {A μ ρ : Type} [DecidableEq μ] {app : App A μ ρ} {keys : Keyring μ} {boot : Role → A}
  {s t u : LiveCluster A μ} {self peer : Role} {k : ℕ} {p : Packet μ}

/-! ## A call and its result -/

section Exchange

/-- What comes of an operation that serves a call: the result, if it returns, and the node. -/
def servedBy {α : Type} (x : EStateM PyError (Node A μ) α) (result : PeerResult μ) (n : Node A μ) :
    Option (PeerResult μ) × Node A μ :=
  (if returns x n then some result else none, after x n)

variable (app keys) in
/-- What a node whose lock is free does with a call. -/
def respond (peer : Role) (now : ℤ) (n : Node A μ) :
    PeerCall μ → Option (PeerResult μ) × Node A μ
  | .prepare envelope => servedBy (Node.prepareReplica app keys peer true envelope) .prepared n
  | .commit envelope =>
    servedBy (Node.commitReplica app keys peer true envelope) (.committed envelope.nonce) n
  | .abort envelope => servedBy (Node.abortReplica app keys peer true envelope) .aborted n
  | .certificate c => servedBy (Node.recordCertificate keys true c) .recorded n
  | call => (query app keys n peer now call, n)

/-- A result is sent, if there is one. -/
def told (s : LiveCluster A μ) (k : ℕ) : Option (PeerResult μ) → LiveCluster A μ
  | some result => s.reply k result
  | none => s

variable (app keys) in
/-- A call that has been sent is served and answered. -/
def responded (s : LiveCluster A μ) (k : ℕ) (peer : Role) (now : ℤ) (call : PeerCall μ) :
    LiveCluster A μ :=
  (s.become peer (respond app keys peer now (s.nodes peer) call).2).told k
    (respond app keys peer now (s.nodes peer) call).1

/-- **The locks, the work and the candidates of a cluster** are those of another one. -/
structure Idle (s t : LiveCluster A μ) : Prop where
  tasks : t.tasks = s.tasks
  waiting : t.waiting = s.waiting
  candidacies : t.candidacies = s.candidacies

omit [DecidableEq μ] in
lemma Idle.refl (s : LiveCluster A μ) : s.Idle s := ⟨rfl, rfl, rfl⟩

omit [DecidableEq μ] in
lemma Idle.trans (h : s.Idle t) (h' : t.Idle u) : s.Idle u where
  tasks := h'.tasks.trans h.tasks
  waiting := h'.waiting.trans h.waiting
  candidacies := h'.candidacies.trans h.candidacies

omit [DecidableEq μ] in
/-- The locks stay free. -/
lemma Idle.free (h : s.Idle t) (hfree : s.free peer = true) : t.free peer = true := by
  rw [LiveCluster.free, h.tasks]
  exact hfree

omit [DecidableEq μ] in
/-- An operation that serves a call tells its result if it returns. -/
lemma isSome_servedBy {α : Type} (x : EStateM PyError (Node A μ) α) (result : PeerResult μ)
    (n : Node A μ) : (servedBy x result n).1.isSome = returns x n := by
  unfold servedBy
  cases returns x n <;> rfl

omit [DecidableEq μ] in
/-- A result changes nothing but the results. -/
lemma told_spec (s : LiveCluster A μ) (k : ℕ) (result : Option (PeerResult μ)) :
    s.Idle (s.told k result) ∧ (s.told k result).nodes = s.nodes ∧
      (s.told k result).packets = s.packets := by
  cases result <;> exact ⟨⟨rfl, rfl, rfl⟩, rfl, rfl⟩

/-- A result that has been told can be received. -/
lemma received_told (s : LiveCluster A μ) (k : ℕ) (result : Option (PeerResult μ)) :
    (s.told k result).received (some k) result = true := by
  cases result with
  | none => rfl
  | some result =>
    refine decide_eq_true ?_
    exact List.mem_append_right _ List.mem_cons_self

variable (app keys) in
/-- **An exchange** changes the peer alone, as it responds. -/
lemma responded_spec (s : LiveCluster A μ) (k : ℕ) (peer : Role) (now : ℤ) (call : PeerCall μ) :
    s.Idle (s.responded app keys k peer now call) ∧
      (s.responded app keys k peer now call).nodes = Function.update s.nodes peer
        (respond app keys peer now (s.nodes peer) call).2 ∧
      (s.responded app keys k peer now call).packets = s.packets := by
  obtain ⟨hidle, hnodes, hpackets⟩ := told_spec
    (s.become peer (respond app keys peer now (s.nodes peer) call).2) k
    (respond app keys peer now (s.nodes peer) call).1
  exact ⟨⟨hidle.tasks, hidle.waiting, hidle.candidacies⟩, hnodes, hpackets⟩

omit [DecidableEq μ] in
/-- A node that stays as it is. -/
lemma become_nodes (s : LiveCluster A μ) (r : Role) : s.become r (s.nodes r) = s := by
  rw [become, Function.update_eq_self]

variable (app keys boot) in
/-- **A call is served** by a node whose lock is free. -/
lemma reaches_responded (hk : s.packets[k]? = some p) (hfree : s.free p.receiver = true) (now : ℤ) :
    Reaches (step app keys boot) s (s.responded app keys k p.receiver now p.call) := by
  have hhandle : step app keys boot s (.handle k now) =
      s.serve app keys k p.receiver now p.call := by
    simp only [step, hk, Option.bind_eq_bind, Option.bind_some]
  have hserved : ∀ {α : Type} (x : EStateM PyError (Node A μ) α) (result : PeerResult μ),
      s.serveBy k p.receiver x result = some ((s.become p.receiver (servedBy x result
        (s.nodes p.receiver)).2).told k (servedBy x result (s.nodes p.receiver)).1) := by
    intro α x result
    rw [serveBy, if_pos hfree, servedBy]
    cases returns x (s.nodes p.receiver) <;> rfl
  -- a query that raises tells nothing, and nothing happens
  have hqueried : ∀ result : Option (PeerResult μ),
      (∀ told, result = some told →
        step app keys boot s (.handle k now) = some (s.reply k told)) →
      Reaches (step app keys boot) s ((s.become p.receiver (s.nodes p.receiver)).told k result) := by
    intro result hresult
    rw [become_nodes]
    cases result with
    | none => exact .refl s
    | some told => exact .head (hresult told rfl) (.refl _)
  have hlocked : (s.free p.receiver || isLockless p.call) = true := by
    rw [hfree, Bool.true_or]
  cases hcall : p.call with
  | prepare | commit | abort | certificate =>
    rw [hcall] at hhandle
    exact .head (hhandle.trans (hserved _ _)) (.refl _)
  | position | history | leadership | timeoutVote =>
    rw [hcall] at hhandle hlocked
    refine hqueried _ fun told htold => ?_
    rw [hhandle]
    simp only [serve]
    rw [if_pos hlocked]
    exact congrArg (Option.map (s.reply k)) htold

end Exchange

/-! ## A transfer -/

section Transfer

variable {offer : Option (Envelope μ)} {put : LiveCluster A μ → Transfer μ → LiveCluster A μ}
  {done : LiveCluster A μ → Bool → LiveCluster A μ}

/-- Where a transfer stands after a result: it has sent its next call, or it has ended. -/
def entered (self peer : Role) (put : LiveCluster A μ → Transfer μ → LiveCluster A μ)
    (done : LiveCluster A μ → Bool → LiveCluster A μ) (s : LiveCluster A μ) :
    Transfer μ × Option (PeerCall μ) → LiveCluster A μ
  | (x, some call) => put (s.send self peer call) x
  | (.ended success, none) => done s success
  | (x, none) => put s x

/-- **Work that waits in a transfer** from a node to its peer: `put` is the cluster in which it
waits there, and `done` the one in which the transfer has ended. -/
structure Hosts (app : App A μ ρ) (keys : Keyring μ) (boot : Role → A) (sender peer : Role)
    (offer : Option (Envelope μ)) (put : LiveCluster A μ → Transfer μ → LiveCluster A μ)
    (done : LiveCluster A μ → Bool → LiveCluster A μ) : Prop where
  distinct : sender ≠ peer
  packets : ∀ s x, (put s x).packets = s.packets
  nodes : ∀ s x, (put s x).nodes = s.nodes
  free : ∀ s x, (put s x).free peer = s.free peer
  become : ∀ s x n, (put s x).become peer n = put (s.become peer n) x
  told : ∀ s x k result, (put s x).told k result = put (s.told k result) x
  answer : ∀ (s : LiveCluster A μ) x k result, x.call? = some k →
    s.received (some k) result = true → Reaches (step app keys boot) (put s x)
      (entered sender peer put done s (x.answer offer s.packets.length
        (s.nodes sender).replicationLog (s.nodes sender).committedPosition result))

/-- **A call of a transfer** is served and answered. -/
lemma Hosts.respond (h : Hosts app keys boot self peer offer put done) {x : Transfer μ}
    {call : PeerCall μ} (hcall : x.call? = some k) (hk : s.packets[k]? = some ⟨self, peer, call⟩)
    (hfree : s.free peer = true) :
    Reaches (step app keys boot) (put s x) (entered self peer put done
      (s.responded app keys k peer 0 call) (x.answer offer s.packets.length
        (s.nodes self).replicationLog (s.nodes self).committedPosition
        (LiveCluster.respond app keys peer 0 (s.nodes peer) call).1)) := by
  obtain ⟨-, hnodes, hpackets⟩ := responded_spec app keys s k peer 0 call
  have hself : (s.responded app keys k peer 0 call).nodes self = s.nodes self := by
    rw [hnodes, Function.update_of_ne h.distinct]
  have hserved : Reaches (step app keys boot) (put s x)
      ((put s x).responded app keys k peer 0 call) :=
    reaches_responded app keys boot (p := ⟨self, peer, call⟩) ((h.packets s x).symm ▸ hk)
      ((h.free s x).trans hfree) 0
  have hput : (put s x).responded app keys k peer 0 call =
      put (s.responded app keys k peer 0 call) x := by
    rw [responded, h.nodes, h.become, h.told, responded]
  have hanswered := h.answer (s.responded app keys k peer 0 call) x k _ hcall
    (received_told _ k (LiveCluster.respond app keys peer 0 (s.nodes peer) call).1)
  rw [hpackets, hself] at hanswered
  exact (hput ▸ hserved).trans hanswered

/-- **A call that a transfer sends.** -/
lemma Hosts.exchange (h : Hosts app keys boot self peer offer put done) (x : Transfer μ)
    (call : PeerCall μ) (hcall : x.call? = some s.packets.length) (hfree : s.free peer = true) :
    ∃ t, s.Idle t ∧ t.nodes = Function.update s.nodes peer
        (LiveCluster.respond app keys peer 0 (s.nodes peer) call).2 ∧
      Reaches (step app keys boot) (put (s.send self peer call) x) (entered self peer put done t
        (x.answer offer t.packets.length (s.nodes self).replicationLog
          (s.nodes self).committedPosition
          (LiveCluster.respond app keys peer 0 (s.nodes peer) call).1)) := by
  have hlast : (s.send self peer call).packets[s.packets.length]? = some ⟨self, peer, call⟩ :=
    List.getElem?_concat_length
  have hanswered := h.respond hcall hlast hfree
  obtain ⟨hidle, hnodes, hpackets⟩ := responded_spec app keys
    (s.send self peer call) s.packets.length peer 0 call
  refine ⟨_, ⟨hidle.tasks, hidle.waiting, hidle.candidacies⟩, hnodes, ?_⟩
  rw [hpackets]
  exact hanswered

/-- **Envelopes that are sent again**: the transfer goes on with its offer, if all have been
taken. -/
lemma Hosts.resendAll (h : Hosts app keys boot self peer offer put done)
    {rest : List (Envelope μ)} (hfree : s.free peer = true) {all : Bool} {m : Node A μ}
    (hall : Node.resendAll app keys peer rest (s.nodes peer) = (all, m)) :
    ∃ t, s.Idle t ∧ t.nodes = Function.update s.nodes peer m ∧
      Reaches (step app keys boot)
        (entered self peer put done s (Transfer.next offer s.packets.length rest))
        (if all then entered self peer put done t (Transfer.next offer t.packets.length [])
        else done t false) := by
  induction rest generalizing s with
  | nil =>
    obtain ⟨rfl, rfl⟩ := Prod.mk.inj hall
    exact ⟨s, .refl s, (Function.update_eq_self _ _).symm, .refl _⟩
  | cons envelope rest ih =>
    obtain ⟨s₁, hidle₁, hnodes₁, hprepared⟩ := h.exchange (.preparing envelope rest
      s.packets.length) (.prepare envelope) rfl hfree
    obtain ⟨s₂, hidle₂, hnodes₂, hcommitted⟩ := h.exchange (s := s₁) (.committing envelope rest
      (LiveCluster.respond app keys peer 0 (s.nodes peer) (.prepare envelope)).1.isSome
      s₁.packets.length) (.commit envelope) rfl (hidle₁.free hfree)
    have hreach := hprepared.trans hcommitted
    have hnode₁ : s₁.nodes peer =
        after (Node.prepareReplica app keys peer true envelope) (s.nodes peer) := by
      rw [hnodes₁, Function.update_self]
      rfl
    have hnodes : s₂.nodes = Function.update s.nodes peer
        (Node.resend app keys peer envelope (s.nodes peer)).2 := by
      rw [hnodes₂, hnode₁, hnodes₁, Function.update_idem]
      rfl
    have hsent : ((LiveCluster.respond app keys peer 0 (s.nodes peer) (.prepare envelope)).1.isSome
        && (LiveCluster.respond app keys peer 0 (s₁.nodes peer) (.commit envelope)).1.isSome) =
        (Node.resend app keys peer envelope (s.nodes peer)).1 := by
      rw [hnode₁]
      exact congrArg₂ and (isSome_servedBy _ _ _) (isSome_servedBy _ _ _)
    rw [Transfer.answer, hsent] at hreach
    rw [Node.resendAll] at hall
    dsimp only at hall
    split_ifs at hall with hsame
    · rw [if_pos hsame] at hreach
      have hnode : s₂.nodes peer = (Node.resend app keys peer envelope (s.nodes peer)).2 := by
        rw [hnodes, Function.update_self]
      obtain ⟨t, hidle, hlast, hrest⟩ := ih (hidle₂.free (hidle₁.free hfree)) (hnode ▸ hall)
      refine ⟨t, (hidle₁.trans hidle₂).trans hidle, ?_, hreach.trans hrest⟩
      rw [hlast, hnodes, Function.update_idem]
    · rw [if_neg hsame] at hreach
      obtain ⟨rfl, rfl⟩ := Prod.mk.inj hall
      exact ⟨s₂, hidle₁.trans hidle₂, hnodes, hreach⟩

/-- **The log is transferred** to a peer that has been asked for its position. -/
lemma Hosts.syncHistory (h : Hosts app keys boot self peer offer put done)
    (hk : s.packets[k]? = some ⟨self, peer, .position⟩) (hfree : s.free peer = true) {all : Bool}
    {m : Node A μ}
    (hall : Node.syncHistory app keys peer (s.nodes self) (s.nodes peer) = (all, m)) :
    ∃ t, s.Idle t ∧ t.nodes = Function.update s.nodes peer m ∧
      Reaches (step app keys boot) (put s (.locating k))
        (if all then entered self peer put done t (Transfer.next offer t.packets.length [])
        else done t false) := by
  have hanswered := h.respond (x := .locating k) rfl hk hfree
  obtain ⟨hidle, hnodes, hpackets⟩ := responded_spec app keys s k peer 0 .position
  have hsame : (s.responded app keys k peer 0 .position).nodes = s.nodes :=
    hnodes.trans (Function.update_eq_self _ _)
  generalize s.responded app keys k peer 0 .position = s₁ at hanswered hidle hsame hpackets
  have hposition : (LiveCluster.respond app keys peer 0 (s.nodes peer) .position).1 =
      if (s.nodes peer).leadership.leader = peer then none
      else some (.position (s.nodes peer).committedPosition) := rfl
  rw [hposition] at hanswered
  rw [Node.syncHistory] at hall
  rw [← hsame] at hall hanswered ⊢
  split_ifs at hall hanswered with hleads hbehind
  · obtain ⟨rfl, rfl⟩ := Prod.mk.inj hall
    exact ⟨s₁, hidle, (Function.update_eq_self _ _).symm, hanswered⟩
  · obtain ⟨rfl, rfl⟩ := Prod.mk.inj hall
    rw [Transfer.answer, if_neg (by omega)] at hanswered
    exact ⟨s₁, hidle, (Function.update_eq_self _ _).symm, hanswered⟩
  · rw [Transfer.answer, if_pos (by omega), ← hpackets] at hanswered
    obtain ⟨t, hidle', hlast, hrest⟩ := h.resendAll (hidle.free hfree) hall
    exact ⟨t, hidle.trans hidle', hlast, hanswered.trans hrest⟩

end Transfer

/-! ## A mutation that is replicated -/

section Replication

variable {offer : Option (Envelope μ)} {transfers : Role → Transfer μ} {mutation : μ}
  {envelope : Envelope μ} {n m : Node A μ}

omit [DecidableEq μ] in
/-- The task that has been set. -/
lemma tasks_setTask_self (s : LiveCluster A μ) (self : Role) (task : Option (Task μ)) :
    (s.setTask self task).tasks self = task := Function.update_self ..

omit [DecidableEq μ] in
/-- The last task counts. -/
lemma setTask_setTask (s : LiveCluster A μ) (self : Role) (task task' : Option (Task μ)) :
    (s.setTask self task).setTask self task' = s.setTask self task' := by
  unfold setTask
  rw [Function.update_idem]

omit [DecidableEq μ] in
/-- A result does not change the work. -/
lemma told_setTask (s : LiveCluster A μ) (self : Role) (task : Option (Task μ)) (k : ℕ)
    (result : Option (PeerResult μ)) :
    (s.setTask self task).told k result = (s.told k result).setTask self task := by
  cases result <;> rfl

/-- The leader's work, with one transfer that has come to `x`. -/
def transferring (s : LiveCluster A μ) (self peer : Role) (offer : Option (Envelope μ))
    (transfers : Role → Transfer μ) (x : Transfer μ) : LiveCluster A μ :=
  s.setTask self (some (.transferring offer (Function.update transfers peer x)))

omit [DecidableEq μ] in
/-- The transfer goes on. -/
lemma transferring_transferring (s : LiveCluster A μ) (self peer : Role)
    (offer : Option (Envelope μ)) (transfers : Role → Transfer μ) (x y : Transfer μ) :
    (s.transferring self peer offer transfers x).transferring self peer offer
      (Function.update transfers peer x) y = s.transferring self peer offer transfers y := by
  unfold transferring
  rw [setTask_setTask, Function.update_idem]

/-- **A transfer of the leader** gets the result of its call, or gives it up. -/
lemma step_resume (htask : s.tasks self = some (.transferring offer transfers))
    (hcall : (transfers peer).call? = some k) (result : Option (PeerResult μ))
    (hreceived : s.received (some k) result = true) :
    step app keys boot s (.resume self peer result) = some (entered self peer
      (fun t x => t.transferring self peer offer transfers x)
      (fun t success => t.transferring self peer offer transfers (.ended success)) s
      ((transfers peer).answer offer s.packets.length (s.nodes self).replicationLog
        (s.nodes self).committedPosition result)) := by
  have hguard : (transfers peer).call?.isSome = true ∧
      s.received (transfers peer).call? result = true := ⟨hcall.symm ▸ rfl, hcall.symm ▸ hreceived⟩
  simp only [step, htask]
  rw [if_pos hguard]
  generalize (transfers peer).answer offer s.packets.length (s.nodes self).replicationLog
    (s.nodes self).committedPosition result = y
  obtain ⟨y, _ | call⟩ := y
  · cases y <;> rfl
  · rfl

variable (app keys boot) in
/-- **The leader's work** waits in a transfer. -/
lemma hosts_transferring (hne : self ≠ peer) (offer : Option (Envelope μ))
    (transfers : Role → Transfer μ) :
    Hosts app keys boot self peer offer
      (fun s x => s.transferring self peer offer transfers x)
      (fun s success => s.transferring self peer offer transfers (.ended success)) where
  distinct := hne
  packets _ _ := rfl
  nodes _ _ := rfl
  free _ _ := congrArg Option.isNone (Function.update_of_ne hne.symm _ _)
  become _ _ _ := rfl
  told _ _ _ result := by cases result <;> rfl
  answer s x k result hcall hreceived := by
    have hwaits : (Function.update transfers peer x peer).call? = some k := by
      rw [Function.update_self]
      exact hcall
    refine .head (step_resume (tasks_setTask_self s self _) hwaits result hreceived) ?_
    rw [Function.update_self]
    have hlast : ∀ y, entered self peer
        (fun t z => t.transferring self peer offer (Function.update transfers peer x) z)
        (fun t success => t.transferring self peer offer (Function.update transfers peer x)
          (.ended success)) (s.transferring self peer offer transfers x) y =
        entered self peer (fun t z => t.transferring self peer offer transfers z)
          (fun t success => t.transferring self peer offer transfers (.ended success)) s y := by
      rintro ⟨y, _ | call⟩
      · cases y <;> exact transferring_transferring ..
      · exact transferring_transferring (s.send self peer call) ..
    exact hlast _ ▸ .refl _

/-! ### Its end -/

omit [DecidableEq μ] in
/-- A call that is told both peers reaches each of them. -/
lemma exists_broadcast (s : LiveCluster A μ) (hne : self ≠ peer) (call : PeerCall μ) :
    ∃ k, (s.broadcast self call).packets[k]? = some ⟨self, peer, call⟩ ∧
      (if peer = self.peers.1 then Transfer.locating s.packets.length
        else if peer = self.peers.2 then .locating (s.packets.length + 1) else .ended false) =
      (.locating k : Transfer μ) := by
  have hboth : (s.broadcast self call).packets =
      s.packets ++ [⟨self, self.peers.1, call⟩] ++ [⟨self, self.peers.2, call⟩] := rfl
  by_cases hfirst : peer = self.peers.1
  · refine ⟨s.packets.length, ?_, if_pos hfirst⟩
    rw [hboth, hfirst, List.append_assoc, List.getElem?_append_right le_rfl, Nat.sub_self]
    rfl
  · have hsecond : peer = self.peers.2 := by
      revert hne hfirst
      cases self <;> cases peer <;> decide
    refine ⟨s.packets.length + 1, ?_, by rw [if_neg hfirst, if_pos hsecond]⟩
    rw [hboth, hsecond, List.getElem?_append_right (by simp)]
    simp

omit [DecidableEq μ] in
/-- The work that is set counts. -/
lemma Idle.setTask (h : s.Idle t) (task : Option (Task μ)) :
    (s.setTask self task).Idle (t.setTask self task) where
  tasks := by
    show Function.update t.tasks self task = Function.update s.tasks self task
    rw [h.tasks]
  waiting := h.waiting
  candidacies := h.candidacies

variable (app keys boot) in
/-- **A call that is told both peers** is served by one of them, while the work goes on. -/
lemma reaches_broadcast (hne : self ≠ peer) (hfree : s.free peer = true) (call : PeerCall μ)
    (task : Option (Task μ)) :
    ∃ t, s.Idle t ∧ t.nodes = Function.update s.nodes peer
        (respond app keys peer 0 (s.nodes peer) call).2 ∧
      Reaches (step app keys boot) ((s.broadcast self call).setTask self task)
        (t.setTask self task) := by
  obtain ⟨k, hk, -⟩ := exists_broadcast s hne call
  have hserved := reaches_responded app keys boot
    (s := (s.broadcast self call).setTask self task) hk
    ((congrArg Option.isNone (Function.update_of_ne hne.symm _ _)).trans hfree) 0
  have hput : ((s.broadcast self call).setTask self task).responded app keys k peer 0 call =
      ((s.broadcast self call).responded app keys k peer 0 call).setTask self task :=
    told_setTask ((s.broadcast self call).become peer _) self task k _
  obtain ⟨hidle, hnodes, -⟩ := responded_spec app keys (s.broadcast self call) k
    peer 0 call
  exact ⟨_, ⟨hidle.tasks, hidle.waiting, hidle.candidacies⟩, hnodes, hput ▸ hserved⟩

variable (app keys boot) in
/-- **The envelope is committed**, and the peer told so. -/
lemma reaches_committed (envelope : Envelope μ) (hne : self ≠ peer) (hfree : s.free peer = true) :
    ∃ t, (s.setTask self none).Idle t ∧ t.nodes = Function.update
        (Function.update s.nodes self (after (Node.commitLocal app true envelope) (s.nodes self)))
        peer (if returns (Node.commitLocal app true envelope) (s.nodes self) then
          after (Node.commitReplica app keys peer true envelope) (s.nodes peer)
        else s.nodes peer) ∧
      Reaches (step app keys boot) (s.conclude app self (some envelope) true) t := by
  have hpeer : ∀ n, Function.update s.nodes self n peer = s.nodes peer :=
    fun n => Function.update_of_ne hne.symm _ _
  cases hcommit : Node.commitLocal app true envelope (s.nodes self) with
  | error e n =>
    refine ⟨(s.setTask self none).become self n, ⟨rfl, rfl, rfl⟩, ?_, ?_⟩
    · rw [after, returns, hcommit, if_neg Bool.false_ne_true]
      exact (Function.update_eq_self_iff.mpr (hpeer n).symm).symm
    · simp only [conclude, if_true, hcommit]
      exact .refl _
  | ok r n =>
    have hfree' : ((s.setTask self none).become self n).free peer = true :=
      (congrArg Option.isNone (Function.update_of_ne hne.symm _ _)).trans hfree
    obtain ⟨t, hidle, hnodes, htold⟩ := reaches_broadcast app keys boot
      hne hfree' (.commit envelope)
      (some (.confirming envelope s.packets.length (s.packets.length + 1)))
    have hlast : (((s.setTask self none).become self n).setTask self none).Idle
        (t.setTask self none) := hidle.setTask none
    refine ⟨t.setTask self none, ⟨hlast.tasks.trans (Function.update_idem ..), hlast.waiting,
      hlast.candidacies⟩, ?_, ?_⟩
    · rw [after, returns, hcommit, if_pos rfl]
      refine hnodes.trans ?_
      show Function.update (Function.update s.nodes self n) peer (respond app keys peer 0
        (Function.update s.nodes self n peer) (.commit envelope)).2 = _
      rw [hpeer]
      rfl
    · simp only [conclude, if_true, hcommit]
      refine htold.trans (.head (e := .finish self false false) ?_ (.refl _))
      simp only [step, tasks_setTask_self, Bool.not_false, Bool.true_or, Bool.and_self, if_true,
        setTask_setTask]

variable (app keys boot) in
/-- **The envelope is given up**, and the peer told so. -/
lemma reaches_abandoned (envelope : Envelope μ) (hne : self ≠ peer) (hfree : s.free peer = true) :
    ∃ t, (s.setTask self none).Idle t ∧ t.nodes = Function.update
        (Function.update s.nodes self (after (Node.abandon (ρ := ρ) true) (s.nodes self)))
        peer (after (Node.abortReplica app keys peer true envelope) (s.nodes peer)) ∧
      Reaches (step app keys boot) (s.conclude app self (some envelope) false) t := by
  obtain ⟨t, hidle, hnodes, htold⟩ := reaches_broadcast app keys boot
    hne hfree (.abort envelope) (some (.abandoning envelope))
  have hlast : (s.setTask self none).Idle (t.setTask self none) := hidle.setTask none
  refine ⟨(t.become self (after (Node.abandon (ρ := ρ) true) (t.nodes self))).setTask self none,
    ⟨hlast.tasks, hlast.waiting, hlast.candidacies⟩, ?_, ?_⟩
  · have hself : t.nodes self = s.nodes self := by
      rw [hnodes, Function.update_of_ne hne]
    show Function.update t.nodes self _ = _
    rw [hself, hnodes, Function.update_comm hne]
    rfl
  · refine htold.trans (.head (e := .abandoned self) ?_ (.refl _))
    simp only [step, tasks_setTask_self]
    exact congrArg some (setTask_setTask (t.become self _) self _ none)

omit [DecidableEq μ] in
/-- What follows the transfers does not depend on them. -/
lemma conclude_setTask (s : LiveCluster A μ) (self : Role) (task : Option (Task μ))
    (offer : Option (Envelope μ)) (acknowledged : Bool) :
    (s.setTask self task).conclude app self offer acknowledged =
      s.conclude app self offer acknowledged := by
  cases offer with
  | none => exact setTask_setTask ..
  | some envelope =>
    cases acknowledged with
    | true =>
      have hsame : (s.setTask self task).nodes self = s.nodes self := rfl
      simp only [conclude, if_true, hsame]
      cases Node.commitLocal app true envelope (s.nodes self) with
      | ok r n =>
        simp only [setTask_setTask]
        rfl
      | error e n => simp only [setTask_setTask]
    | false => exact setTask_setTask (s.broadcast self (.abort envelope)) self task _

/-- **The transfers have ended**, all but one of them with nothing. -/
lemma step_decide (hne : self ≠ peer) (hothers : ∀ r ≠ peer, transfers r = .ended false)
    (success : Bool) :
    step app keys boot (s.transferring self peer offer transfers (.ended success)) (.decide self) =
      some (s.conclude app self offer success) := by
  have hpeers : ∃ first second,
      Function.update transfers peer (.ended success) self.peers.1 = .ended first ∧
      Function.update transfers peer (.ended success) self.peers.2 = .ended second ∧
      (first || second) = success := by
    by_cases hfirst : self.peers.1 = peer
    · refine ⟨success, false, ?_, ?_, Bool.or_false _⟩
      · rw [hfirst, Function.update_self]
      · have hsecond : self.peers.2 ≠ peer := by
          revert hfirst
          cases self <;> cases peer <;> decide
        rw [Function.update_of_ne hsecond, hothers _ hsecond]
    · have hsecond : self.peers.2 = peer := by
        revert hne hfirst
        cases self <;> cases peer <;> decide
      refine ⟨false, success, ?_, ?_, Bool.false_or _⟩
      · rw [Function.update_of_ne hfirst, hothers _ hfirst]
      · rw [hsecond, Function.update_self]
  obtain ⟨first, second, hfirst, hsecond, hany⟩ := hpeers
  have htask : (s.transferring self peer offer transfers (.ended success)).tasks self =
      some (.transferring offer (Function.update transfers peer (.ended success))) :=
    tasks_setTask_self ..
  simp only [step, htask, hfirst, hsecond, hany]
  exact congrArg some (conclude_setTask ..)

variable (app keys boot) in
/-- **A mutation that comes to the leader** gets the lock. -/
lemma reaches_begin (hleads : (s.nodes self).leadership.leader = self)
    (hclean : (s.nodes self).replicationPending = none) (hself : s.free self = true)
    (work : Option μ) : Reaches (step app keys boot) s (s.begin app keys self work) := by
  have hsubmit : step app keys boot s (.submit self work) =
      some (s.setWaiting self (s.waiting self ++ [work])) := if_pos hleads
  have hwaiting : (s.setWaiting self (s.waiting self ++ [work])).waiting self =
      s.waiting self ++ [work] := Function.update_self ..
  have hwork : (s.waiting self ++ [work])[(s.waiting self).length]? = some work :=
    List.getElem?_concat_length
  have hlast : (s.setWaiting self (s.waiting self ++ [work])).setWaiting self
      ((s.waiting self ++ [work]).eraseIdx (s.waiting self).length) = s := by
    rw [List.eraseIdx_append_of_length_le le_rfl, Nat.sub_self, List.eraseIdx_cons_zero,
      List.append_nil]
    unfold setWaiting
    rw [Function.update_idem, Function.update_eq_self]
  have hstart : step app keys boot (s.setWaiting self (s.waiting self ++ [work]))
      (.start self (s.waiting self).length) = some (s.begin app keys self work) := by
    have hfree : (s.setWaiting self (s.waiting self ++ [work])).free self = true := hself
    simp only [step, hfree, guard_true, hwaiting, hwork, hlast, start, hclean]
    rfl
  exact .head hsubmit (.head hstart (.refl _))

omit [DecidableEq μ] in
/-- The nodes after two of them have changed twice. -/
lemma update_pair (hne : self ≠ peer) (nodes : Role → Node A μ) (n n' m m' : Node A μ) :
    Function.update (Function.update (Function.update (Function.update nodes self n) peer m) self n')
      peer m' = Function.update (Function.update nodes self n') peer m' := by
  rw [Function.update_comm hne.symm, Function.update_idem, Function.update_idem]

/-- The third node. -/
lemma exists_other (hne : self ≠ peer) :
    ∃ other, self ≠ other ∧ peer ≠ other ∧ ∀ r, r ≠ peer → r ≠ other → r = self := by
  refine ⟨if peer = self.peers.1 then self.peers.2 else self.peers.1, ?_, ?_, fun r => ?_⟩
  · revert hne
    cases self <;> cases peer <;> decide
  · revert hne
    cases self <;> cases peer <;> decide
  · revert hne
    cases self <;> cases peer <;> cases r <;> decide

variable (app keys boot) in
/-- A transfer is given up before its first result. -/
lemma step_give_up (s : LiveCluster A μ) (self : Role) (offer : Option (Envelope μ)) {other : Role}
    (hwaits : transfers other = .locating k) :
    step app keys boot (s.setTask self (some (.transferring offer transfers)))
      (.resume self other none) = some (s.setTask self
        (some (.transferring offer (Function.update transfers other (.ended false))))) := by
  have hcall : (transfers other).call? = some k := by rw [hwaits]; rfl
  refine (step_resume (tasks_setTask_self s self _) hcall none rfl).trans ?_
  rw [hwaits]
  exact congrArg some (setTask_setTask ..)

variable (app keys boot) in
/-- **The transfers to both peers**, one of which does not answer. -/
lemma reaches_locating (hne : self ≠ peer)
    (hpropose : Node.propose app keys self true mutation (s.nodes self) = .ok envelope n) :
    ∃ (transfers : Role → Transfer μ) (k : ℕ), (∀ r ≠ peer, transfers r = .ended false) ∧
      ((s.become self n).broadcast self .position).packets[k]? = some ⟨self, peer, .position⟩ ∧
      Reaches (step app keys boot) (s.begin app keys self (some mutation))
        (((s.become self n).broadcast self .position).transferring self peer (some envelope)
          transfers (.locating k)) := by
  obtain ⟨other, hother, hpeer, hall⟩ := exists_other hne
  obtain ⟨k, hk, hwaits⟩ := exists_broadcast (s.become self n) hne .position
  obtain ⟨k', -, hgiven⟩ := exists_broadcast (s.become self n) hother .position
  let transfers (r : Role) : Transfer μ :=
    if r = self.peers.1 then .locating s.packets.length
    else if r = self.peers.2 then .locating (s.packets.length + 1) else .ended false
  have hself : transfers self = .ended false := by
    show (if self = self.peers.1 then _ else _) = _
    rw [if_neg (by cases self <;> decide), if_neg (by cases self <;> decide)]
  have hbegin : s.begin app keys self (some mutation) =
      ((s.become self n).broadcast self .position).setTask self
        (some (.transferring (some envelope) transfers)) := by
    simp only [begin, hpropose]
    rfl
  have hwaiting : transfers other = .locating k' := hgiven
  have hgiveUp := step_give_up app keys boot ((s.become self n).broadcast self .position) self
    (some envelope) hwaiting
  have hsame : Function.update (Function.update transfers other (.ended false)) peer (.locating k) =
      Function.update transfers other (.ended false) := by
    refine Function.update_eq_self_iff.mpr ?_
    rw [Function.update_of_ne hpeer]
    exact hwaits.symm
  refine ⟨Function.update transfers other (.ended false), k, fun r hr => ?_, hk, ?_⟩
  · by_cases hlast : r = other
    · rw [hlast, Function.update_self]
    · rw [Function.update_of_ne hlast, hall r hr hlast, hself]
  · rw [hbegin, transferring, hsame]
    exact .head hgiveUp (.refl _)

omit [DecidableEq μ] in
/-- The lock is free again. -/
lemma Idle.released (h : s.Idle t) (hself : s.free self = true)
    (hlast : (t.setTask self none).Idle u) : s.Idle u where
  tasks := by
    rw [hlast.tasks]
    show Function.update t.tasks self none = s.tasks
    rw [h.tasks]
    exact Function.update_eq_self_iff.mpr (tasks_eq_none_of_free hself).symm
  waiting := hlast.waiting.trans h.waiting
  candidacies := hlast.candidacies.trans h.candidacies

variable (app keys boot) in
/-- **The peer is brought to the position of the leader, and offered the envelope.** -/
lemma reaches_offered (hleads : (s.nodes self).leadership.leader = self)
    (hclean : (s.nodes self).replicationPending = none) (hself : s.free self = true)
    (hne : self ≠ peer) (hfree : s.free peer = true) {synced : Bool}
    (hpropose : Node.propose app keys self true mutation (s.nodes self) = .ok envelope n)
    (hsync : Node.syncHistory app keys peer n (s.nodes peer) = (synced, m)) :
    ∃ t, s.Idle t ∧ t.nodes = Function.update (Function.update s.nodes self n) peer
        (if synced then after (Node.prepareReplica app keys peer true envelope) m else m) ∧
      Reaches (step app keys boot) s (t.conclude app self (some envelope)
        (synced && returns (Node.prepareReplica app keys peer true envelope) m)) := by
  have hbegin := reaches_begin app keys boot hleads hclean hself
    (some mutation)
  obtain ⟨transfers, k, hothers, hk, hlocated⟩ := reaches_locating app keys boot hne hpropose
  have hhosts := hosts_transferring app keys boot hne
    (some envelope) transfers
  have hpeer : Function.update s.nodes self n peer = s.nodes peer :=
    Function.update_of_ne hne.symm _ _
  have hsync' : Node.syncHistory app keys peer (Function.update s.nodes self n self)
      (Function.update s.nodes self n peer) = (synced, m) := by
    rw [Function.update_self, hpeer, hsync]
  obtain ⟨t, hidle, hnodes, hsynced⟩ := hhosts.syncHistory
    (s := (s.become self n).broadcast self .position) hk hfree hsync'
  have hnodes' : t.nodes = Function.update (Function.update s.nodes self n) peer m := hnodes
  have hreach := (hbegin.trans hlocated).trans hsynced
  have hidle' : s.Idle t := ⟨hidle.tasks, hidle.waiting, hidle.candidacies⟩
  cases synced with
  | false =>
    exact ⟨t, hidle', hnodes', hreach.trans (.head (step_decide hne hothers false) (.refl _))⟩
  | true =>
    have hpeer' : t.nodes peer = m := by
      rw [hnodes', Function.update_self]
    obtain ⟨u, hlast, hoffer, hoffered⟩ := hhosts.exchange (s := t) (.offering t.packets.length)
      (.prepare envelope) rfl (hidle'.free hfree)
    rw [hpeer', hnodes', Function.update_idem] at hoffer
    refine ⟨u, hidle'.trans hlast, hoffer, hreach.trans (hoffered.trans ?_)⟩
    rw [hpeer']
    show Reaches _ (u.transferring self peer (some envelope) transfers (.ended
      (servedBy (Node.prepareReplica app keys peer true envelope) .prepared m).1.isSome)) _
    rw [isSome_servedBy]
    exact .head (step_decide hne hothers _) (.refl _)

/-- An envelope that the peer has acknowledged is committed. -/
lemma replicateWith_of_prepared {leader w : Node A μ} {synced : Bool}
    (hpropose : Node.propose app keys self true mutation leader = .ok envelope n)
    (hsync : Node.syncHistory app keys peer n w = (synced, m))
    (hprepared : (synced && returns (Node.prepareReplica app keys peer true envelope) m) = true) :
    Node.replicateWith app keys self peer mutation leader w =
      (returns (Node.commitLocal app true envelope) n, after (Node.commitLocal app true envelope) n,
        if returns (Node.commitLocal app true envelope) n then
          after (Node.commitReplica app keys peer true envelope)
            (after (Node.prepareReplica app keys peer true envelope) m)
        else after (Node.prepareReplica app keys peer true envelope) m) := by
  obtain ⟨rfl, hreturns⟩ := Bool.and_eq_true_iff.mp hprepared
  simp only [Node.replicateWith, hpropose, hsync, hreturns, if_true]

/-- An envelope that the peer has not acknowledged is abandoned. -/
lemma replicateWith_of_not {leader w : Node A μ} {synced : Bool}
    (hpropose : Node.propose app keys self true mutation leader = .ok envelope n)
    (hsync : Node.syncHistory app keys peer n w = (synced, m))
    (hnot : ¬ (synced && returns (Node.prepareReplica app keys peer true envelope) m) = true) :
    Node.replicateWith app keys self peer mutation leader w =
      (false, after (Node.abandon (ρ := ρ) true) n,
        after (Node.abortReplica app keys peer true envelope)
          (if synced then after (Node.prepareReplica app keys peer true envelope) m else m)) := by
  cases synced with
  | false => simp [Node.replicateWith, hpropose, hsync]
  | true =>
    rw [Bool.true_and, Bool.not_eq_true] at hnot
    simp [Node.replicateWith, hpropose, hsync, hnot]

/-- **A mutation that is replicated.** From every state of the cluster in which the locks of a
leader and of a peer are free, and the leader holds no prepared record, a run leads to what
`Node.replicateWith` makes of the two nodes.

**Proof sketch.** The mutation gets the lock; the calls to the other peer are never served, and the
leader gives up waiting for them. The peer serves every call at once, and each result is received
before the next call. -/
theorem reaches_replicateWith (hleads : (s.nodes self).leadership.leader = self)
    (hclean : (s.nodes self).replicationPending = none) (hself : s.free self = true)
    (hne : self ≠ peer) (hfree : s.free peer = true) {acknowledged : Bool}
    (hreplicate : Node.replicateWith app keys self peer mutation (s.nodes self) (s.nodes peer) =
      (acknowledged, n, m)) :
    ∃ t, s.Idle t ∧ t.nodes = Function.update (Function.update s.nodes self n) peer m ∧
      Reaches (step app keys boot) s t := by
  cases hpropose : Node.propose app keys self true mutation (s.nodes self) with
  | error e l =>
    have hbegin := reaches_begin app keys boot hleads hclean hself
      (some mutation)
    rw [Node.replicateWith, hpropose] at hreplicate
    obtain ⟨rfl, rfl, rfl⟩ : false = acknowledged ∧ l = n ∧ s.nodes peer = m := by
      simpa using hreplicate
    refine ⟨(s.become self l).setTask self none, ?_, ?_, ?_⟩
    · exact Idle.released (t := s.become self l) ⟨rfl, rfl, rfl⟩ hself (.refl _)
    · exact (Function.update_eq_self_iff.mpr (Function.update_of_ne hne.symm _ _).symm).symm
    · simp only [begin, hpropose] at hbegin
      exact hbegin
  | ok envelope l =>
    obtain ⟨synced, m₁, hsync⟩ : ∃ synced m₁,
        Node.syncHistory app keys peer l (s.nodes peer) = (synced, m₁) := ⟨_, _, rfl⟩
    obtain ⟨t, hidle, hnodes, hoffered⟩ := reaches_offered app keys boot
      hleads hclean hself hne hfree hpropose hsync
    have hleader : t.nodes self = l := by
      rw [hnodes, Function.update_of_ne hne, Function.update_self]
    have hpeer : t.nodes peer =
        if synced then after (Node.prepareReplica app keys peer true envelope) m₁ else m₁ := by
      rw [hnodes, Function.update_self]
    by_cases hprepared :
        (synced && returns (Node.prepareReplica app keys peer true envelope) m₁) = true
    · rw [replicateWith_of_prepared hpropose hsync hprepared] at hreplicate
      obtain ⟨-, rfl, rfl⟩ := hreplicate
      rw [hprepared] at hoffered
      obtain ⟨u, hlast, hend, hcommitted⟩ := reaches_committed app keys boot envelope
        hne (hidle.free hfree)
      refine ⟨u, hidle.released hself hlast, ?_, hoffered.trans hcommitted⟩
      rw [hend, hleader, hpeer, hnodes, update_pair hne, (Bool.and_eq_true_iff.mp hprepared).1]
      rfl
    · rw [replicateWith_of_not hpropose hsync hprepared] at hreplicate
      obtain ⟨-, rfl, rfl⟩ := hreplicate
      rw [Bool.eq_false_iff.mpr hprepared] at hoffered
      obtain ⟨u, hlast, hend, habandoned⟩ := reaches_abandoned app keys boot envelope
        hne (hidle.free hfree)
      refine ⟨u, hidle.released hself hlast, ?_, hoffered.trans habandoned⟩
      rw [hend, hleader, hpeer, hnodes, update_pair hne]

end Replication

/-! ## The replicas of the first term -/

section Runs

variable {py : PyLib ℤ} {keys : Keyring (Request ℤ)} {boot : Role → Application ℤ}
  {hasStore : Role → Bool} {s : LiveCluster (Application ℤ) (Request ℤ)}
  {es : List (ClusterEvent (Application ℤ) (Request ℤ))} {peer : Role} {start z : Ledger ℤ}
  {mutation : Request ℤ}

/-- **A replica of the first term comes back.** When the Primary and the replica are free, and the
replica holds no prepared record of another envelope than the one that it could take next, the
cluster can go on to a state in which both have the log of the Primary with a new envelope. -/
theorem reaches_rejoined (h : PlainRun py keys boot hasStore start es s) (hpeer : peer ≠ .primary)
    (hleader : ∀ r, r = .primary ∨ r = peer → (s.nodes r).leadership.leader = .primary)
    (hactive : Transition.Meets (Ledger.replay py) (Ledger.SparesActive py) start
      ((s.nodes .primary).mutations ++ [mutation]))
    (hreplay : Transition.run (Ledger.replay py) start
      ((s.nodes .primary).mutations ++ [mutation]) = some z)
    (hclean : (s.nodes .primary).replicationPending = none)
    (hfree : ∀ r, r = .primary ∨ r = peer → s.free r = true)
    (hrecord : ∀ record, (s.nodes peer).replicationPending = some record →
      s.nextFor keys peer mutation = some record) :
    ∃ t, Reaches (step (ledgerApp py) keys boot) s t ∧
      t.log .primary = s.log .primary ++
        [ReferenceNode.nextEnvelope keys .primary (s.nodes .primary) mutation] ∧
      t.log peer = t.log .primary := by
  obtain ⟨x, y, rest, hbehind, hspare, hhead⟩ := h.behind hleader hactive hreplay
  obtain ⟨n, m, hreplicate, hlog, -, hpeerLog, -⟩ :=
    hbehind.taken hpeer hspare (hhead.symm ▸ hrecord)
  obtain ⟨t, -, hnodes, hreach⟩ := reaches_replicateWith (hleader _ (.inl rfl)) hclean
    (hfree _ (.inl rfl)) hpeer.symm (hfree _ (.inr rfl)) hreplicate
  have hprimary : t.nodes .primary = n := by
    rw [hnodes, Function.update_of_ne hpeer.symm, Function.update_self]
  have hreplica : t.nodes peer = m := by
    rw [hnodes, Function.update_self]
  refine ⟨t, hreach, ?_, ?_⟩
  · rw [log, log, hprimary, hlog]
  · rw [log, log, hprimary, hreplica, hpeerLog]

end Runs

end LiveCluster

end SplitChain
