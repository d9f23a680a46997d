import SplitChain.Model.Election

set_option relaxedAutoImplicit false
set_option autoImplicit false

/-!
# Invariants of a node

The operations of a node try mutations, commit them, prepare and drop records, change the leadership
state and save. A property that outlives each of these outlives every operation.

## Main definitions

* `SplitChain.Node.Leads` — how an operation changes the leadership state.
* `SplitChain.Node.Stable` — what each part of an operation keeps.

## Main results

* `SplitChain.Node.Stable.run` — operations keep it, besides what is served to clients.
* `SplitChain.Node.Stable.preserves_recordCertificate`, `preserves_replicateMutation`.
-/

namespace SplitChain

open Raise Proc

variable {A μ ρ : Type}

namespace Node

/-- **How an operation changes the leadership state**: by a heartbeat at the position of the node,
by the first tick of its clock, or by a certificate. -/
inductive Leads (keys : Keyring μ) (n : Node A μ) : LeadershipState → Prop
  | heartbeat {leader : Role} {term tick : ℤ} {l : LeadershipState}
    (h : n.leadership.heartbeat leader term tick n.committedPosition = .ok l) : Leads keys n l
  | clock (h : n.leadership.lastHeartbeatTick = 0) (tick : ℤ) :
    Leads keys n { n.leadership with lastHeartbeatTick := tick }
  | certificate {c : LeadershipCertificate} {l : LeadershipState}
    (h : n.leadership.acceptCertificate keys.failover c = .ok l) : Leads keys n l

/-- **A property that every part of an operation keeps**: a save, another prepared record, a change
of the leadership state, the trial of a mutation, and its application together with the record of
the commit. -/
structure Stable (app : App A μ ρ) (keys : Keyring μ) (I : Node A μ → Prop) : Prop where
  saved : ∀ n, I n → I n.saved
  pending : ∀ n record, I n → I (n.setPending record)
  leadership : ∀ n leadership, Leads keys n leadership → I n → I { n with leadership := leadership }
  trial : ∀ mutation, Preserves I (onApp (app.trial mutation))
  commit : ∀ (envelope : Envelope μ) n, I n → Ends (onApp (app.apply envelope.mutation)) n
    (fun _ t => I (t.appendLog envelope)) fun _ t => I t

namespace Stable

variable {app : App A μ ρ} {I : Node A μ → Prop} {keys : Keyring μ} {role : Role} {saves : Bool}
  {envelope : Envelope μ} {mutation : μ}

lemma preserves_save (h : Stable app keys I) : Preserves I (save saves) := fun n hn =>
  ends_save.mpr ⟨fun _ => h.saved n hn, fun _ => hn⟩

/-- A change that is saved. -/
lemma preserves_changed (h : Stable app keys I) {f : Node A μ → Node A μ}
    (hf : ∀ n, I n → I (f n)) :
    Preserves I (do modify f; save saves) :=
  .bind (preserves_modify hf) fun _ => h.preserves_save

/-- A mutation is applied, recorded and saved. -/
lemma preserves_committed (h : Stable app keys I) : Preserves I (do
    let result ← onApp (app.apply envelope.mutation)
    modify fun n => n.appendLog envelope
    save saves
    return result) := by
  intro n hn
  rw [ends_bind]
  refine (h.commit envelope n hn).mono (fun result t ht => ?_) fun _ _ ht => ht
  rw [ends_bind, ends_modify]
  exact (Preserves.bind h.preserves_save fun _ => preserves_pure result) _ ht

section Replica

variable [DecidableEq μ]

lemma preserves_prepareReplica (h : Stable app keys I) :
    Preserves I (prepareReplica app keys role saves envelope) := by
  refine preserves_get fun n => .bind (preserves_lift _) fun _ => preserves_get fun n' => ?_
  split
  · split_ifs
    · exact preserves_pure _
    · exact preserves_throw _
  · exact .bind (h.trial _) fun _ => h.preserves_changed fun n hn => h.pending n _ hn

lemma preserves_commitReplica (h : Stable app keys I) :
    Preserves I (commitReplica app keys role saves envelope) := by
  refine preserves_get fun n => .bind (preserves_lift _) fun _ => preserves_get fun n' => ?_
  split_ifs
  · exact preserves_throw _
  · exact h.preserves_committed

lemma preserves_abortReplica (h : Stable app keys I) :
    Preserves I (abortReplica app keys role saves envelope) := by
  refine preserves_get fun n => .bind (preserves_lift _) fun _ => preserves_get fun n' => ?_
  split_ifs
  · exact preserves_throw _
  · exact h.preserves_changed fun n hn => h.pending n _ hn

end Replica

lemma preserves_abortUncommitted (h : Stable app keys I) :
    Preserves I (abortUncommitted saves) := by
  refine preserves_get fun n => ?_
  split_ifs
  · exact h.preserves_changed fun n hn => h.pending n _ hn
  · exact preserves_pure _

lemma preserves_propose (h : Stable app keys I) :
    Preserves I (propose app keys role saves mutation) :=
  .bind (h.trial _) fun _ => preserves_get fun _ => .bind (preserves_lift _) fun _ =>
    .bind (preserves_modify fun n hn => h.pending n _ hn) fun _ => .bind h.preserves_save fun _ =>
      preserves_pure _

lemma preserves_abandon (h : Stable app keys I) : Preserves I (abandon (ρ := ρ) saves) :=
  .bind (preserves_modify fun n hn => h.pending n _ hn) fun _ => .bind h.preserves_save fun _ =>
    preserves_throw _

lemma preserves_commitLocal (h : Stable app keys I) :
    Preserves I (commitLocal app saves envelope) :=
  h.preserves_committed

lemma preserves_receiveHeartbeat (h : Stable app keys I) {heartbeat : Heartbeat} :
    Preserves I (receiveHeartbeat keys saves heartbeat) := by
  refine fun n hn => ends_receiveHeartbeat hn (fun _ => hn) fun l hlead hnonce => ?_
  have hchanged := h.leadership n l (.heartbeat (hnonce ▸ hlead)) hn
  exact ⟨fun _ => h.saved _ hchanged, fun _ => hchanged⟩

/-- **A certificate**, adopted or not. -/
lemma preserves_recordCertificate (h : Stable app keys I) {certificate : LeadershipCertificate} :
    Preserves I (recordCertificate keys saves certificate) := by
  refine fun n hn => ends_recordCertificate (fun _ => hn) (fun _ => hn) fun l _ _ haccept => ?_
  have hchanged := h.pending _ none (h.leadership n l (.certificate haccept) hn)
  exact ⟨fun _ => h.saved _ hchanged, fun _ => hchanged⟩

lemma preserves_startClock (h : Stable app keys I) {tick : ℤ} :
    Preserves I (startClock saves tick) := by
  intro n hn
  unfold startClock
  rw [ends_bind, ends_get]
  split_ifs with hzero
  · have hchanged := h.leadership n _ (.clock hzero tick) hn
    exact ends_modify_save.mpr ⟨fun _ => h.saved _ hchanged, fun _ => hchanged⟩
  · exact hn

lemma preserves_recordBeat (h : Stable app keys I) {tick : ℤ} :
    Preserves I (recordBeat role saves tick) := by
  intro n hn
  unfold recordBeat
  rw [ends_bind, ends_get]
  split_ifs
  · rw [ends_bind, ends_lift]
    refine ⟨fun l hlead => ends_modify_save.mpr ?_, fun _ _ => hn⟩
    have hchanged := h.leadership n l (.heartbeat hlead) hn
    exact ⟨fun _ => h.saved _ hchanged, fun _ => hchanged⟩
  · exact hn

/-- **A whole mutation** of the leader. -/
lemma preserves_replicateMutation (h : Stable app keys I) {o : Outcome} :
    Preserves I (replicateMutation app keys role o mutation) := by
  refine preserves_get fun n => ?_
  split_ifs
  · exact preserves_throw _
  · exact .bind h.preserves_abortUncommitted fun _ => .bind h.preserves_propose fun _ =>
      .bind h.preserves_commitLocal fun _ => preserves_pure _
  · exact .bind h.preserves_abortUncommitted fun _ => .bind h.preserves_propose fun _ =>
      .bind h.preserves_commitLocal fun _ => preserves_throw _
  · exact .bind h.preserves_abortUncommitted fun _ => .bind h.preserves_propose fun _ =>
      h.preserves_abandon

/-- **Every operation** keeps the property, besides what is served to clients. -/
theorem run [DecidableEq μ] (h : Stable app keys I) {operation : Operation A μ} {n : Node A μ}
    (hserve : ∀ saves a, operation ≠ .serve saves a) (hn : I n) :
    I (operation.run app keys role n) := by
  have hafter : ∀ {α : Type} {x : EStateM PyError (Node A μ) α}, Preserves I x → I (after x n) :=
    fun hx => after_iff.mpr (hx n hn)
  cases operation with
  | serve saves a => exact absurd rfl (hserve saves a)
  | prepare => exact hafter h.preserves_prepareReplica
  | commit => exact hafter h.preserves_commitReplica
  | abort => exact hafter h.preserves_abortReplica
  | abortUncommitted => exact hafter h.preserves_abortUncommitted
  | propose => exact hafter h.preserves_propose
  | abandon => exact hafter h.preserves_abandon
  | commitLocal => exact hafter h.preserves_commitLocal
  | heartbeat => exact hafter h.preserves_receiveHeartbeat
  | startClock => exact hafter h.preserves_startClock
  | recordBeat => exact hafter h.preserves_recordBeat

end Stable

end Node

end SplitChain
