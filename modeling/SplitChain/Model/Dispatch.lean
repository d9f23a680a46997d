import SplitChain.Model.ReferenceNode

set_option relaxedAutoImplicit false
set_option autoImplicit false

/-!
# What a request can do

A request either reaches the ledger, where it is executed as one call, or it leaves the ledger,
the nonces and the log of the node as they were. This file says once when a request reaches the
ledger, on a node that executes it itself and on a leader that replicates it, and what is left in
both cases.

## Main definitions

* `SplitChain.Node.Proposed` — a leader's mutation has been prepared by a replica.
* `SplitChain.ReferenceNode.Reaches` — a request is executed on the ledger as a given call.

## Main results

* `SplitChain.Node.ends_replicateMutation`, `SplitChain.Node.ends_replicateMutation_of_not`.
* `SplitChain.ReferenceNode.ends_handle_of_reaches` — a request that reaches the ledger.
* `SplitChain.ReferenceNode.ends_handle_of_not_reaches` — any other request.
-/

namespace SplitChain

open Raise Proc

/-! ## The leader -/

namespace Node

variable {A μ ρ : Type}

/-- The leader has tried the mutation, which leaves the application state `a`, and a replica has
prepared it. -/
structure Proposed (app : App A μ ρ) (role : Role) (o : Outcome) (mutation : μ) (n : Node A μ)
    (a : A) : Prop where
  leads : n.leadership.leader = role
  aborts : n.replicationPending.isSome = true → n.CanSave o.abortSaves
  trial : app.trial mutation n.app = .ok () a
  numbered : 0 ≤ n.committedPosition
  saves : n.CanSave o.pendingSaves
  acknowledged : o.acknowledged = true

/-- The committed state of a node is the same, but for the application. -/
structure SameLog (n t : Node A μ) : Prop where
  nonces : t.replicationNonces = n.replicationNonces
  log : t.replicationLog = n.replicationLog
  hasStore : t.hasStore = n.hasStore

/-- The state of the application after the trial of a mutation. -/
def Tried (app : App A μ ρ) (mutation : μ) (a b : A) : Prop :=
  app.trial mutation a = .ok () b ∨ ∃ e, app.trial mutation a = .error e b

/-- The application, in memory and on disk, is as before or as the trial of a mutation leaves it. -/
structure OnlyTried (app : App A μ ρ) (mutation : μ) (n t : Node A μ) : Prop where
  memory : t.app = n.app ∨ Tried app mutation n.app t.app
  disk : t.disk = n.disk ∨
    ∃ s, t.disk = some s ∧ (s.app = n.app ∨ Tried app mutation n.app s.app)

variable {app : App A μ ρ} {keys : Keyring μ} {role : Role} {o : Outcome} {mutation : μ}
  {n t : Node A μ} {a : A}

lemma OnlyTried.setPending (h : OnlyTried app mutation n t) (pending : Option (Envelope μ)) :
    OnlyTried app mutation n (t.setPending pending) :=
  ⟨h.memory, h.disk⟩

lemma OnlyTried.setApp (h : OnlyTried app mutation n t) (ha : Tried app mutation n.app a) :
    OnlyTried app mutation n (t.setApp a) :=
  ⟨.inr ha, h.disk⟩

/-- What is saved is what is in memory. -/
lemma OnlyTried.saved (h : OnlyTried app mutation n t) : OnlyTried app mutation n t.saved where
  memory := by rw [toSaved_saved]; exact h.memory
  disk := by
    unfold Node.saved
    split_ifs
    · exact .inr ⟨_, rfl, h.memory⟩
    · exact h.disk

/-- Saving after a change of memory keeps what the change kept. -/
lemma SameLog.saved (h : SameLog n t) : SameLog n t.saved where
  nonces := by rw [toSaved_saved]; exact h.nonces
  log := by rw [toSaved_saved]; exact h.log
  hasStore := by rw [hasStore_saved]; exact h.hasStore

lemma SameLog.setApp (h : SameLog n t) (a : A) : SameLog n (t.setApp a) :=
  ⟨h.nonces, h.log, h.hasStore⟩

lemma SameLog.setPending (h : SameLog n t) (pending : Option (Envelope μ)) :
    SameLog n (t.setPending pending) :=
  ⟨h.nonces, h.log, h.hasStore⟩

/-- A leader that still holds a prepared record discards it first. -/
def cleared (n : Node A μ) : Node A μ :=
  if n.replicationPending.isSome then (n.setPending none).saved else n

/-- Discarding the prepared record changes nothing else in memory. -/
lemma toSaved_cleared (n : Node A μ) :
    n.cleared.toSaved = { n.toSaved with replicationPending := none } := by
  unfold cleared
  split_ifs with h
  · rw [toSaved_saved]; rfl
  · rw [Bool.not_eq_true, Option.isSome_eq_false_iff, Option.isNone_iff_eq_none] at h
    rw [← h]

@[simp] lemma hasStore_cleared (n : Node A μ) : n.cleared.hasStore = n.hasStore := by
  unfold cleared
  split_ifs
  · rw [hasStore_saved]; rfl
  · rfl

/-- Discarding the prepared record raises where it cannot be saved. -/
lemma ends_abortUncommitted {saves : Bool} {P : Unit → Node A μ → Prop}
    {E : PyError → Node A μ → Prop} : Ends (abortUncommitted saves) n P E ↔
      ((n.replicationPending.isSome = true → n.CanSave saves) → P () n.cleared) ∧
      (¬ (n.replicationPending.isSome = true → n.CanSave saves) →
        E (.protocol "unable to persist ledger state") (n.setPending none)) := by
  unfold abortUncommitted cleared
  rw [ends_bind, ends_get]
  split_ifs with hpending
  · rw [ends_bind, ends_modify, ends_save]
    simp only [forall_const, hpending]
    exact Iff.rfl
  · simp [hpending]

/-- The envelope of a mutation, with the next number. -/
def envelopeOf (keys : Keyring μ) (role : Role) (n : Node A μ) (mutation : μ) : Envelope μ :=
  ⟨role, n.committedPosition + 1, mutation,
    keys.replication.signature role (n.committedPosition + 1) mutation⟩

/-- The node that waits for its peers to prepare a mutation. -/
def waiting (keys : Keyring μ) (role : Role) (n : Node A μ) (mutation : μ) (a : A) : Node A μ :=
  ((n.cleared.setApp a).setPending (some (envelopeOf keys role n mutation))).saved

/-- A waiting node has the state of the trial, and a prepared record. -/
lemma toSaved_waiting (n : Node A μ) (mutation : μ) (a : A) :
    (n.waiting keys role mutation a).toSaved = { n.toSaved with
      app := a
      replicationPending := some (envelopeOf keys role n mutation) } := by
  unfold waiting
  rw [toSaved_saved, toSaved_setPending, toSaved_setApp, toSaved_cleared]

@[simp] lemma hasStore_waiting (n : Node A μ) (mutation : μ) (a : A) :
    (n.waiting keys role mutation a).hasStore = n.hasStore := by
  unfold waiting
  rw [hasStore_saved, hasStore_setPending]
  exact hasStore_cleared n

/-- Waiting for the peers changes no part of the committed state but the application. -/
lemma sameLog_waiting (keys : Keyring μ) (role : Role) (n : Node A μ) (mutation : μ) (a : A) :
    SameLog n (n.waiting keys role mutation a) where
  nonces := by rw [toSaved_waiting]
  log := by rw [toSaved_waiting]
  hasStore := hasStore_waiting n mutation a

/-- The node after a mutation that has left the application state `b`. -/
def applied (keys : Keyring μ) (role : Role) (n : Node A μ) (mutation : μ) (a b : A) : Node A μ :=
  ((n.waiting keys role mutation a).setApp b).appendLog (envelopeOf keys role n mutation)

lemma hasStore_applied (n : Node A μ) (mutation : μ) (a b : A) :
    (n.applied keys role mutation a b).hasStore = n.hasStore := by
  rw [applied, hasStore_appendLog, hasStore_setApp, hasStore_waiting]

/-- A node without a file writes none. -/
lemma disk_applied {b : A} (h : ¬ n.hasStore = true) :
    (n.applied keys role mutation a b).disk = n.disk := by
  have hcleared : n.cleared.disk = n.disk := by
    unfold cleared Node.saved
    split_ifs
    · contradiction
    · rfl
    · rfl
  have hwaiting : (n.waiting keys role mutation a).disk = n.cleared.disk := by
    unfold waiting Node.saved
    rw [if_neg (by rw [hasStore_setPending, hasStore_setApp, hasStore_cleared]; exact h)]
    rfl
  exact hwaiting.trans hcleared

/-- Clearing does not move the committed position. -/
lemma committedPosition_cleared (n : Node A μ) :
    n.cleared.committedPosition = n.committedPosition := by
  rw [Saved.committedPosition, toSaved_cleared]
  rfl

/-- **The first part of a mutation**, on a leader that has discarded its prepared record. -/
lemma ends_propose {saves : Bool} {P : Envelope μ → Node A μ → Prop}
    {E : PyError → Node A μ → Prop} (htrial : app.trial mutation n.app = .ok () a)
    (hnumbered : 0 ≤ n.committedPosition) (hsaves : n.CanSave saves) :
    Ends (propose app keys role saves mutation) n.cleared P E ↔
      P (envelopeOf keys role n mutation) (n.waiting keys role mutation a) := by
  have happ : n.cleared.app = n.app := by rw [toSaved_cleared]
  have htrial' : app.trial mutation n.cleared.app = .ok () a := by rw [happ]; exact htrial
  have hposition : (n.cleared.setApp a).committedPosition = n.committedPosition :=
    committedPosition_cleared n
  have hsign : keys.replication.sign role (n.committedPosition + 1) mutation =
      .ok (envelopeOf keys role n mutation) := by
    unfold ReplicationAuthenticator.sign
    rw [require, if_pos (by simp; omega)]
    rfl
  have hcan : ((n.cleared.setApp a).setPending (some (envelopeOf keys role n mutation))).CanSave
      saves := by
    rw [CanSave, hasStore_setPending, hasStore_setApp, hasStore_cleared]
    exact hsaves
  unfold propose
  rw [ends_bind, ends_onApp, ends_of_eq_ok htrial', ends_bind, ends_get, ends_bind, hposition,
    ends_of_eq_ok (by rw [hsign]; rfl), ends_bind, ends_modify, ends_bind, ends_save]
  exact ⟨fun h => h.1 hcan, fun h => ⟨fun _ => h, fun hnot => absurd hcan hnot⟩⟩

/-- **A mutation that a replica has prepared** is applied, and then saved and confirmed. -/
theorem ends_replicateMutation (h : Proposed app role o mutation n a) {P : ρ → Node A μ → Prop}
    {E : PyError → Node A μ → Prop} : Ends (replicateMutation app keys role o mutation) n P E ↔
      Ends (app.apply mutation) a
        (fun r b => (n.CanSave o.finalSaves → if o.confirmed
            then P r (n.applied keys role mutation a b).saved
            else E commitUncertain (n.applied keys role mutation a b).saved) ∧
          (¬ n.CanSave o.finalSaves → E (.protocol "unable to persist ledger state")
            (n.applied keys role mutation a b)))
        (fun e b => E e ((n.waiting keys role mutation a).setApp b)) := by
  have happ : (n.waiting keys role mutation a).app = a := by rw [toSaved_waiting]
  have hcan : ∀ b, (n.applied keys role mutation a b).CanSave o.finalSaves ↔
      n.CanSave o.finalSaves := by
    intro b
    rw [CanSave, applied, hasStore_appendLog, hasStore_setApp, hasStore_waiting]
    exact Iff.rfl
  unfold replicateMutation
  rw [ends_bind, ends_get, if_neg (not_not_intro h.leads), ends_bind, ends_abortUncommitted]
  simp only [ends_bind, ends_propose h.trial h.numbered h.saves, h.acknowledged, if_true]
  refine (and_iff_left fun hnot => absurd h.aborts hnot).trans ?_
  refine (imp_iff_right h.aborts).trans ?_
  unfold commitLocal
  rw [ends_bind, ends_onApp, happ]
  refine iff_of_eq (congrArg (Ends _ _ · _) (funext₂ fun r b => propext ?_))
  rw [ends_bind, ends_modify, ends_bind, ends_save]
  show ((n.applied keys role mutation a b).CanSave _ → _) ∧
    (¬ (n.applied keys role mutation a b).CanSave _ → _) ↔ _
  rw [hcan]
  cases o.confirmed <;> exact Iff.rfl

/-- **A mutation that no replica has prepared** raises. It leaves the committed state as it was,
and of the application at most what the trial has changed. -/
theorem ends_replicateMutation_of_not (h : ∀ a, ¬ Proposed app role o mutation n a) :
    Ends (replicateMutation app keys role o mutation) n (fun _ _ => False)
      (fun _ t => SameLog n t ∧ OnlyTried app mutation n t) := by
  have hstart : SameLog n n ∧ OnlyTried app mutation n n :=
    ⟨⟨rfl, rfl, rfl⟩, .inl rfl, .inl rfl⟩
  have hcleared : SameLog n n.cleared ∧ OnlyTried app mutation n n.cleared := by
    refine ⟨⟨by rw [toSaved_cleared], by rw [toSaved_cleared], hasStore_cleared n⟩, ?_⟩
    unfold cleared
    split_ifs
    · exact (hstart.2.setPending none).saved
    · exact hstart.2
  have happ : n.cleared.app = n.app := by rw [toSaved_cleared]
  unfold replicateMutation
  rw [ends_bind, ends_get]
  by_cases hleads : n.leadership.leader = role
  · rw [if_neg (not_not_intro hleads), ends_bind, ends_abortUncommitted]
    refine ⟨fun haborts => ?_, fun _ => ⟨hstart.1.setPending none, hstart.2.setPending none⟩⟩
    unfold propose
    rw [ends_bind, ends_bind, ends_onApp, happ]
    refine ends_iff.mpr ⟨fun _ a htrial => ?_, fun e a htrial =>
      ⟨hcleared.1.setApp a, hcleared.2.setApp (.inr ⟨e, htrial⟩)⟩⟩
    have htried : Tried app mutation n.app a := .inl htrial
    rw [ends_bind, ends_get, ends_bind, ends_lift]
    refine ⟨fun envelope hsign => ?_, fun _ _ => ⟨hcleared.1.setApp a, hcleared.2.setApp htried⟩⟩
    have hnumbered : 0 ≤ n.committedPosition := by
      unfold ReplicationAuthenticator.sign at hsign
      simp only [bind_eq_ok, require_eq_ok, decide_eq_true_eq] at hsign
      obtain ⟨-, hpositive, -⟩ := hsign
      have hposition : (n.cleared.setApp a).committedPosition = n.committedPosition :=
        committedPosition_cleared n
      omega
    have hwaiting := (hcleared.1.setApp a).setPending (some envelope)
    have hkept := (hcleared.2.setApp htried).setPending (some envelope)
    rw [ends_bind, ends_modify, ends_bind, ends_save]
    refine ⟨fun hsaves => ends_pure.mpr ?_, fun _ => ⟨hwaiting, hkept⟩⟩
    have hunacknowledged : o.acknowledged ≠ true := fun hack =>
      h a ⟨hleads, haborts, htrial, hnumbered, by simpa [CanSave] using hsaves, hack⟩
    have hend := hwaiting.saved.setPending none
    have hkeptEnd := hkept.saved.setPending none
    rw [if_neg hunacknowledged]
    unfold abandon
    rw [ends_bind, ends_modify, ends_bind, ends_save]
    exact ⟨fun _ => ends_throw.mpr ⟨hend.saved, hkeptEnd.saved⟩, fun _ => ⟨hend, hkeptEnd⟩⟩
  · rw [if_pos hleads]
    exact ends_throw.mpr hstart

end Node

/-! ## The node -/

namespace ReferenceNode

variable {ν : Type} [PyNumber ν]

/-- A request is executed on the ledger as the call `c`: it has passed the checks that come first,
and the node has established its actor, if it executes the request itself, or has found a replica
that has prepared it. -/
structure Reaches (py : PyLib ν) (place : Option Role) (peer : Option PeerIdentity)
    (o : Node.Outcome) (request : Request ν) (n : ReferenceNode ν) (c : Ledger.Call ν) : Prop where
  checked : checkRequest peer request = .ok ()
  decodes : ∃ method d, Method.ofJson? request.method = some method ∧
    request.params.dict? = some d ∧ Ledger.Call.ofParams method d = .ok c
  alone : place = none →
    (n.app.authenticator = none → Method.ofJson? request.method ≠ some .accountRegister) ∧
    ∃ app', Application.Established py n.app request true app'
  leads : ∀ role, place = some role →
    ∃ a, Node.Proposed (ledgerApp py) role o (n.mutation request) n a

/-- The ledger, the nonces and the log of a node are the same. -/
structure Unchanged (n t : ReferenceNode ν) : Prop where
  ledger : t.app.ledger = n.app.ledger
  nonces : t.replicationNonces = n.replicationNonces
  log : t.replicationLog = n.replicationLog

variable {py : PyLib ν} {self : Option Role} {role : Role} {peer : Option PeerIdentity}
  {o : Node.Outcome} {request : Request ν} {n : ReferenceNode ν} {c : Ledger.Call ν}
  {method : Method}

/-- A request that decodes is executed as the call it decodes to. -/
lemma execute_of_decodes {d : Dict String (Json ν)} (hd : request.params.dict? = some d)
    (hc : Ledger.Call.ofParams method d = .ok c) (l : Ledger ν) :
    l.execute py method request.params = l.perform py c := by
  unfold Ledger.execute
  rw [hd]
  show (Ledger.Call.ofParams method d >>= _) = _
  rw [hc]
  rfl

omit [PyNumber ν] in
/-- What a leader replicates has the method and the parameters of the request. -/
lemma method_mutation (n : ReferenceNode ν) (request : Request ν) :
    (n.mutation request).method = request.method := by
  unfold mutation
  split_ifs <;> rfl

omit [PyNumber ν] in
lemma params_mutation (n : ReferenceNode ν) (request : Request ν) :
    (n.mutation request).params = request.params := by
  unfold mutation
  split_ifs <;> rfl

/-- A trial that succeeds has established the actor of its mutation, and has decoded it. -/
lemma of_trial {app a : Application ν} {mutation : Request ν}
    (h : (ledgerApp py).trial mutation app = .ok () a) :
    a = app.loadCredential mutation.auth ∧
      (∃ app', Application.Established py app mutation true app') ∧
      ∃ method d c, Method.ofJson? mutation.method = some method ∧
        mutation.params.dict? = some d ∧ Ledger.Call.ofParams method d = .ok c := by
  have hend := Application.ends_tryMutation py app mutation
  rw [ends_of_eq_ok (x := Application.tryMutation py mutation) h] at hend
  obtain ⟨rfl, trial, method, l, r, app', -, happlied⟩ := hend
  have hback := happlied.established.setLedger app.ledger
  rw [Application.setLedger_setLedger, Application.setLedger_self] at hback
  obtain ⟨t, ht⟩ := hback.exists_of true
  obtain ⟨d, c, hd, hc, -⟩ := Ledger.execute_eq_ok happlied.execute
  exact ⟨rfl, ⟨_, ht⟩, method, d, c, happlied.method_eq, hd, hc⟩

/-- A trial leaves the ledger as it was. -/
lemma ledger_of_tried {app a : Application ν} {mutation : Request ν}
    (h : Node.Tried (ledgerApp py) mutation app a) : a.ledger = app.ledger := by
  have hload := Application.ledger_loadCredential app mutation.auth
  obtain ⟨hreturns, hraises⟩ := ends_iff.mp (Application.ends_tryMutation py app mutation)
  rcases h with hok | ⟨e, herror⟩
  · rw [(hreturns _ _ hok).1, hload]
  · rcases hraises _ _ herror with rfl | rfl
    · rfl
    · exact hload

/-- A call of a request, when the node executes it itself. -/
lemma ends_serve (hmethod : Method.ofJson? request.method = some method)
    {d : Dict String (Json ν)} (hd : request.params.dict? = some d)
    (hc : Ledger.Call.ofParams method d = .ok c)
    (hregister : n.app.authenticator = none → method ≠ .accountRegister) {app' : Application ν}
    (h : Application.Established py n.app request true app') {saves : Bool}
    {P : Reply ν → ReferenceNode ν → Prop} {E : PyError → ReferenceNode ν → Prop} :
    Ends (serve py saves request) n P E ↔
      (∀ l r, n.app.ledger.perform py c = .ok (l, r) →
        (n.CanSave saves → P (.result r) (n.setApp (app'.setLedger l)).saved) ∧
        (¬ n.CanSave saves → E (.protocol "unable to persist ledger state")
          (n.setApp (app'.setLedger l)))) ∧
      ∀ e, n.app.ledger.perform py c = .error e → E e (n.setApp app') := by
  unfold serve
  rw [ends_bind, Node.ends_onApp, h.ends_verifyRequestActor hmethod hregister, hmethod]
  show Ends (Node.onApp (Application.runMethod py method request.params) >>= _) _ P E ↔ _
  rw [ends_bind, Node.ends_onApp, Application.ends_runMethod,
    execute_of_decodes hd hc (n.setApp app').app.ledger]
  have hledger : (n.setApp app').app.ledger = n.app.ledger := h.ledger_eq
  rw [hledger]
  refine and_congr_left fun _ => forall₂_congr fun l r => imp_congr_right fun _ => ?_
  rw [ends_bind, Node.ends_save]
  exact Iff.rfl

omit [PyNumber ν] in
/-- A request that reaches the ledger is not for the cluster. -/
lemma not_clusterMethod (hmethod : Method.ofJson? request.method = some method) :
    ¬ (request.method.str?.any fun name => name ∈ clusterMethods) = true := by
  cases hname : request.method with
  | str name =>
    rw [hname] at hmethod
    rw [← Method.name_of_ofName? hmethod]
    show ¬ (method.name ∈ clusterMethods : Bool) = true
    cases method <;> decide
  | _ => simp [Json.str?]

variable {keys : Keyring (Request ν)} {l : Ledger ν}

/-- A call that is performed is the call. -/
lemma call_of_perform {l : Ledger ν} {x : Except PyError (Ledger ν × Result ν)}
    (h : l.perform py c = x) : l.call py c = Prod.fst <$> x := by
  rw [← Ledger.fst_perform, h]

/-- **A request that reaches the ledger** changes it as its call does, or not at all. Where the
call succeeds, the client is told unless the node cannot save its state. -/
theorem ends_handle_of_reaches (keys : Keyring (Request ν))
    (h : Reaches py self peer o request n c) : Ends (handle py keys self peer o request) n
      (fun answer t => n.app.ledger.call py c = .ok t.app.ledger ∧ n.CanSave o.finalSaves ∧
        ∃ reply, answer = .result reply)
      (fun e t => (n.app.ledger.call py c = .ok t.app.ledger ∧
          (n.CanSave o.finalSaves → e = Node.commitUncertain) ∧
          (¬ n.CanSave o.finalSaves → e = .protocol "unable to persist ledger state")) ∨
        ((∃ e', n.app.ledger.call py c = .error e') ∧ Unchanged n t)) := by
  obtain ⟨method, d, hmethod, hd, hc⟩ := h.decodes
  unfold handle
  rw [ends_bind, ends_lift]
  refine ⟨fun _ _ => ?_, fun e he => by rw [h.checked] at he; cases he⟩
  rw [if_neg (not_clusterMethod hmethod), hmethod]
  cases hself : self with
  | none =>
    obtain ⟨hregister, app', happ⟩ := h.alone hself
    rw [hmethod] at hregister
    show Ends (serve py o.finalSaves request >>= _) n _ _
    rw [ends_bind, ends_serve hmethod hd hc (fun hnone hm => hregister hnone (by rw [hm])) happ]
    refine ⟨fun l r hperform => ⟨fun hsaves => ends_pure.mpr ?_, fun hsaves => .inl ?_⟩,
      fun e hperform => .inr ⟨⟨e, call_of_perform hperform⟩, happ.ledger_eq, rfl, rfl⟩⟩
    · rw [Node.toSaved_saved]
      exact ⟨call_of_perform hperform, hsaves, _, rfl⟩
    · exact ⟨call_of_perform hperform, fun hcan => absurd hcan hsaves, fun _ => rfl⟩
  | some role =>
    obtain ⟨a, ha⟩ := h.leads role hself
    obtain ⟨rfl, ⟨app', happ⟩, -⟩ := of_trial ha.trial
    have hledger : (n.app.loadCredential (n.mutation request).auth).ledger = n.app.ledger :=
      Application.ledger_loadCredential _ _
    have hmethod' : Method.ofJson? (n.mutation request).method = some method := by
      rw [method_mutation, hmethod]
    show Ends (do
      let n ← get
      if n.leadership.leader = role then _ else _) n _ _
    rw [ends_bind, ends_get, if_pos ha.leads, ends_bind, Node.ends_replicateMutation ha]
    refine (happ.loadCredential.ends_applyMutation hmethod').mpr ?_
    rw [params_mutation, hledger, execute_of_decodes hd hc]
    refine ⟨fun l r hperform => ?_, fun e hperform => .inr ⟨⟨e, call_of_perform hperform⟩, ?_⟩⟩
    · have hcall := call_of_perform hperform
      refine ⟨fun hsaves => ?_, fun hsaves => .inl ⟨hcall, fun h => absurd h hsaves, fun _ => rfl⟩⟩
      split_ifs
      · refine ends_pure.mpr ?_
        rw [Node.toSaved_saved]
        exact ⟨hcall, hsaves, _, rfl⟩
      · rw [Node.toSaved_saved]
        exact .inl ⟨hcall, fun _ => rfl, fun h => absurd hsaves h⟩
    · have hload := Application.loadCredential_loadCredential n.app (n.mutation request).auth
      have hkeep := Node.sameLog_waiting keys role n (n.mutation request)
        (n.app.loadCredential (n.mutation request).auth)
      exact ⟨by rw [hload]; exact hledger, hkeep.nonces, hkeep.log⟩

/-- **Any other mutating request** leaves the ledger, the nonces and the log as they were, and is
not answered with a result. -/
theorem ends_handle_of_not_reaches (keys : Keyring (Request ν))
    (hmethod : Method.ofJson? request.method = some method)
    (h : ∀ c, ¬ Reaches py self peer o request n c) : Ends (handle py keys self peer o request) n
      (fun answer t => (∀ reply, answer ≠ .result reply) ∧ Unchanged n t)
      (fun _ t => Unchanged n t) := by
  unfold handle
  rw [ends_bind, ends_lift]
  refine ⟨fun _ hchecked => ?_, fun _ _ => ⟨rfl, rfl, rfl⟩⟩
  rw [if_neg (not_clusterMethod hmethod), hmethod]
  cases hself : self with
  | none =>
    show Ends (serve py o.finalSaves request >>= _) n _ _
    unfold serve
    rw [ends_bind, ends_bind, Node.ends_onApp]
    refine (Application.ends_verifyRequestActor py n.app request true).mono ?_
      fun _ t ht => ⟨ht.1.ledger_eq, rfl, rfl⟩
    intro _ t ht
    obtain ⟨hregister, hestablished⟩ : (n.app.authenticator = none →
        Method.ofJson? request.method ≠ some .accountRegister) ∧
        Application.Established py n.app request true t := by
      rcases ht with ⟨hnone, hother, rfl⟩ | ⟨hstatus, -⟩ | ⟨a, token, hadmits, rfl⟩
      · exact ⟨fun _ => hother, .unchecked hnone⟩
      · rw [Application.ofJson?_of_status hstatus] at hmethod
        cases hmethod
      · refine ⟨fun hnone => ?_, .admitted a token hadmits⟩
        have hsome := Application.authenticator_of_loaded hadmits.loaded
        rw [hnone] at hsome
        cases hsome
    have hledger : (n.setApp t).app.ledger = n.app.ledger := hestablished.ledger_eq
    rw [hmethod]
    show Ends (Node.onApp (Application.runMethod py method request.params) >>= _) _ _ _
    rw [ends_bind, Node.ends_onApp, Application.ends_runMethod, hledger]
    refine ⟨fun l r hexecute => ?_, fun _ _ => ⟨hledger, rfl, rfl⟩⟩
    obtain ⟨d, c, hd, hc, -⟩ := Ledger.execute_eq_ok hexecute
    have hleads : ∀ role, self ≠ some role := fun role => by rw [hself]; exact nofun
    exact absurd ⟨hchecked, ⟨method, d, hmethod, hd, hc⟩, fun _ => ⟨hregister, t, hestablished⟩,
      fun role hrole => absurd hrole (hleads role)⟩ (h c)
  | some role =>
    show Ends (do
      let n ← get
      if n.leadership.leader = role then _ else _) n _ _
    rw [ends_bind, ends_get]
    split_ifs with hleads
    · rw [ends_bind]
      refine (Node.ends_replicateMutation_of_not fun a ha => ?_).mono (fun _ _ h => h.elim) ?_
      · obtain ⟨-, -, method', d, c, hmethod', hd, hc⟩ := of_trial ha.trial
        rw [method_mutation] at hmethod'
        rw [params_mutation] at hd
        have halone : self ≠ none := by rw [hself]; exact Option.some_ne_none role
        exact h c ⟨hchecked, ⟨method', d, hmethod', hd, hc⟩, fun hnone => absurd hnone halone,
          fun role' hrole => Option.some_inj.mp (hself.symm.trans hrole) ▸ ⟨a, ha⟩⟩
      · rintro - t ⟨hkeep, happ | htried, -⟩
        · exact ⟨by rw [happ], hkeep.nonces, hkeep.log⟩
        · exact ⟨ledger_of_tried htried, hkeep.nonces, hkeep.log⟩
    · exact ends_pure.mpr ⟨(fun _ h => by cases h), rfl, rfl, rfl⟩

/-- `dispatch` in terms of the computation behind it. -/
lemma dispatch_iff {P : ReferenceNode ν → Answer ν → Prop} {keys : Keyring (Request ν)} :
    P (dispatch py keys self peer o request n).1 (dispatch py keys self peer o request n).2 ↔
      Ends (handle py keys self peer o request) n (fun answer t => P t answer)
        (fun e t => P t (.ofError e)) := by
  unfold dispatch Ends
  cases handle py keys self peer o request n <;> rfl

/-- **A request whose call succeeds** leaves the ledger of its call. -/
theorem ledger_dispatch_of_ok (keys : Keyring (Request ν))
    (h : Reaches py self peer o request n c) (hcall : n.app.ledger.call py c = .ok l) :
    (dispatch py keys self peer o request n).1.app.ledger = l := by
  refine (dispatch_iff (P := fun t _ => t.app.ledger = l)).mpr
    ((ends_handle_of_reaches keys h).mono ?_ ?_)
  · rintro answer t ⟨ht, -⟩
    exact Except.ok.inj (ht.symm.trans hcall)
  · rintro e t (⟨ht, -⟩ | ⟨⟨e', ht⟩, -⟩)
    · exact Except.ok.inj (ht.symm.trans hcall)
    · rw [hcall] at ht
      cases ht

/-- **Any other mutating request** leaves the node as it was, as far as the ledger, the nonces
and the log go. -/
theorem unchanged_dispatch (keys : Keyring (Request ν))
    (hmethod : Method.ofJson? request.method = some method)
    (h : ∀ c l, Reaches py self peer o request n c → n.app.ledger.call py c ≠ .ok l) :
    Unchanged n (dispatch py keys self peer o request n).1 := by
  refine (dispatch_iff (P := fun t _ => Unchanged n t)).mpr ?_
  by_cases hreaches : ∃ c, Reaches py self peer o request n c
  · obtain ⟨c, hc⟩ := hreaches
    refine (ends_handle_of_reaches keys hc).mono ?_ ?_
    · exact fun answer t ht => absurd ht.1 (h c _ hc)
    · rintro e t (⟨ht, -⟩ | ⟨-, ht⟩)
      · exact absurd ht (h c _ hc)
      · exact ht
  · rw [not_exists] at hreaches
    exact (ends_handle_of_not_reaches keys hmethod hreaches).mono (fun _ _ h => h.2) fun _ _ h => h

end ReferenceNode

end SplitChain
