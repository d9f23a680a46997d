import SplitChain.Library.Transition
import SplitChain.Model.Dispatch
import SplitChain.Model.ReplicaSteps

set_option relaxedAutoImplicit false
set_option autoImplicit false

/-!
# Runs of a node

Everything that can happen to one node, with or without a role: requests of clients, messages of
the cluster, the parts of its own operations, changes of its credential registry and restarts
from its file. Calls of `_save` return.

Whatever happens, it is one of two things: the ledger stays and no nonce is forgotten, or one
mutation is applied, for an actor whose request has been checked and recorded, and the node is
saved. This is what the results about single nodes start from.

## Main definitions

* `SplitChain.NodeEvent`, `SplitChain.ReferenceNode.nodeStep` — the transitions.
* `SplitChain.ReferenceNode.AppliesTo` — a mutation is applied to the ledger.
* `SplitChain.ReferenceNode.Keeps` — the ledger stays, and nonces only grow.

## Main results

* `SplitChain.ReferenceNode.nodeStep_cases` — every event but a restart is one of the two.
-/

namespace SplitChain

open Raise Proc

variable {ν : Type} [PyNumber ν] [DecidableEq ν]

/-- The call that a request makes. -/
def Request.Calls (request : Request ν) (c : Ledger.Call ν) : Prop :=
  ∃ method d, Method.ofJson? request.method = some method ∧ request.params.dict? = some d ∧
    Ledger.Call.ofParams method d = .ok c

/-- What can happen to a node. -/
inductive NodeEvent (ν : Type) where
  /-- A request that no operation of the cluster answers. On a leader this is the whole of
  `replicate_mutation`. -/
  | request (peer : Option PeerIdentity) (acknowledged confirmed : Bool) (request : Request ν)
  | prepare (envelope : Envelope (Request ν))
  | commit (envelope : Envelope (Request ν))
  | abort (envelope : Envelope (Request ν))
  | heartbeat (heartbeat : Heartbeat)
  | certificate (certificate : LeadershipCertificate)
  | startClock (tick : ℤ)
  | recordBeat (tick : ℤ)
  -- The parts of `replicate_mutation` and `sync_replicas`, which a crash can separate.
  | abortUncommitted
  | propose (mutation : Request ν)
  | abandon
  | commitLocal (envelope : Envelope (Request ν))
  /-- The operator replaces the credential registry. -/
  | registry (file : Option (Dict String (Json ν)))
  /-- The process ends and is started again, with the given credentials. -/
  | restart (secrets : Dict String String)

namespace ReferenceNode

/-- The application that a process starts with: the saved ledger and nonces, and the credentials it
is given. -/
def reload (py : PyLib ν) (genesis : Option GenesisConfig) (secrets : Dict String String)
    (registry : Option (Dict String (Json ν))) (saved : Application ν) :
    Except PyError (Application ν) := do
  let ledger ← Ledger.fromSnapshot py saved.ledger.snapshot genesis
  let nonces := (saved.authenticator.map fun a => a.nonces).getD ∅
  let authenticator ← saved.authenticator.mapM fun _ => Authenticator.restore ⟨secrets, nonces⟩
  return ⟨ledger, authenticator, registry⟩

/-- A process that is started again. A node whose file does not exist yet starts with the ledger
`boot` again; a node without a file has nothing to come back to. -/
def restarted (py : PyLib ν) (keys : Keyring (Request ν)) (boot : Ledger ν) (n : ReferenceNode ν)
    (secrets : Dict String String) : Option (ReferenceNode ν) :=
  if n.hasStore then
    match n.disk with
    | some saved => (Node.restart (ledgerApp py) keys
        (reload py boot.genesis secrets n.app.registry) saved).toOption
    | none => some (Node.fresh ⟨boot, n.app.authenticator.map fun _ => ⟨secrets, ∅⟩,
        n.app.registry⟩ true)
  else none

/-- One event. Messages of the cluster reach nodes with a role only. -/
def nodeStep (py : PyLib ν) (keys : Keyring (Request ν)) (self : Option Role) (boot : Ledger ν)
    (n : ReferenceNode ν) : NodeEvent ν → Option (ReferenceNode ν)
  | .request peer acknowledged confirmed request =>
    some (dispatch py keys self peer ⟨true, true, true, acknowledged, confirmed⟩ request n).1
  | .prepare envelope =>
    self.map fun role => after (Node.prepareReplica (ledgerApp py) keys role true envelope) n
  | .commit envelope =>
    self.map fun role => after (Node.commitReplica (ledgerApp py) keys role true envelope) n
  | .abort envelope =>
    self.map fun role => after (Node.abortReplica (ledgerApp py) keys role true envelope) n
  | .heartbeat heartbeat => self.map fun _ => after (Node.receiveHeartbeat keys true heartbeat) n
  | .certificate certificate =>
    self.map fun _ => after (Node.recordCertificate keys true certificate) n
  | .startClock tick => self.map fun _ => after (Node.startClock true tick) n
  | .recordBeat tick => self.map fun role => after (Node.recordBeat role true tick) n
  | .abortUncommitted => self.map fun _ => after (Node.abortUncommitted true) n
  | .propose mutation =>
    self.map fun role => after (Node.propose (ledgerApp py) keys role true mutation) n
  | .abandon => self.map fun _ => after (Node.abandon (ρ := Result ν) true) n
  | .commitLocal envelope =>
    self.map fun _ => after (Node.commitLocal (ledgerApp py) true envelope) n
  | .registry file => some (n.setApp { n.app with registry := file })
  | .restart secrets => restarted py keys boot n secrets

end ReferenceNode

/-! ## What stays -/

namespace Application

/-- The last nonce that an actor has used. -/
def last (app : Application ν) (actor : String) : ℤ :=
  (app.authenticator.map fun a => a.last actor).getD (-1)

/-- The ledger stays, and no nonce is forgotten. -/
structure Keeps (app t : Application ν) : Prop where
  ledger : t.ledger = app.ledger
  authenticated : t.authenticator.isSome = app.authenticator.isSome
  nonces : ∀ actor, app.last actor ≤ t.last actor

section Credentials

omit [PyNumber ν] [DecidableEq ν]

variable {app t u : Application ν}

lemma Keeps.refl (app : Application ν) : app.Keeps app := ⟨rfl, rfl, fun _ => le_rfl⟩

/-- Credentials do not count as nonces. -/
lemma last_loadCredential (app : Application ν) (auth : Json ν) (actor : String) :
    (app.loadCredential auth).last actor = app.last actor := by
  rcases loadCredential_eq app auth with heq | ⟨a, _, _, ha, -, -, heq⟩
  · rw [heq]
  · rw [heq, last, last, ha]
    rfl

/-- Loading a credential keeps the ledger and the nonces. -/
lemma keeps_loadCredential (app : Application ν) (auth : Json ν) :
    app.Keeps (app.loadCredential auth) where
  ledger := ledger_loadCredential app auth
  authenticated := by
    rcases loadCredential_eq app auth with heq | ⟨a, _, _, ha, -, -, heq⟩
    · rw [heq]
    · rw [heq, ha]
      rfl
  nonces actor := (last_loadCredential app auth actor).ge

/-- Setting the authenticator sets the nonces. -/
lemma last_setAuthenticator (app : Application ν) (a : Authenticator) (actor : String) :
    (app.setAuthenticator a).last actor = a.last actor := rfl

/-- The nonces after a checked request has been recorded. -/
lemma last_record {request : Request ν} {a : Authenticator} {token : Token}
    (hloaded : (app.loadCredential request.auth).authenticator = some a)
    (actor : String) :
    ((app.loadCredential request.auth).setAuthenticator (a.record token)).last actor =
      if token.actor = actor then token.nonce else app.last actor := by
  have hold : app.last actor = a.last actor := by
    rw [← last_loadCredential app request.auth, last, hloaded]
    rfl
  rw [last_setAuthenticator, Authenticator.last_record, hold]

end Credentials

omit [DecidableEq ν]

variable {py : PyLib ν} {app t : Application ν} {request : Request ν} {a : Authenticator}
  {token : Token}

/-- The request that has been checked is newer than what its actor has used. -/
lemma last_lt_of_checked (hloaded : (app.loadCredential request.auth).authenticator = some a)
    (hchecked : a.check py request = .ok token) : app.last token.actor < token.nonce := by
  have hold : app.last token.actor = a.last token.actor := by
    rw [← last_loadCredential app request.auth, last, hloaded]
    rfl
  rw [hold]
  exact (Authenticator.check_eq_ok.mp hchecked).2.2

/-- A check keeps the ledger and the nonces. -/
lemma Checked.keeps (h : Checked py app request t) : app.Keeps t := by
  cases h with
  | same => exact .refl app
  | loaded => exact keeps_loadCredential app request.auth
  | recorded a token hloaded hchecked =>
    refine ⟨ledger_loadCredential app request.auth, ?_, fun actor => ?_⟩
    · rw [authenticator_setAuthenticator, authenticator_of_loaded hloaded]
      rfl
    · rw [last_record hloaded]
      have hlt := last_lt_of_checked hloaded hchecked
      split_ifs with hactor
      · exact hactor ▸ hlt.le
      · exact le_rfl

end Application

namespace ReferenceNode

/-- The ledger stays and no nonce is forgotten, in memory and on disk. -/
structure Keeps (n t : ReferenceNode ν) : Prop where
  app : n.app.Keeps t.app
  disk : t.disk = n.disk ∨ ∃ s, t.disk = some s ∧ n.app.Keeps s.app
  hasStore : t.hasStore = n.hasStore

/-- A request has been applied to the ledger as the call `c`, for an actor that has been admitted;
its nonce has been recorded and the node has been saved. -/
structure AppliesTo (py : PyLib ν) (n t : ReferenceNode ν) (request : Request ν)
    (c : Ledger.Call ν) : Prop where
  calls : request.Calls c
  call : n.app.ledger.call py c = .ok t.app.ledger
  admitted : ∃ a token, n.app.Admits py request a token ∧ ∀ actor,
    t.app.last actor = if token.actor = actor then token.nonce else n.app.last actor
  authenticated : t.app.authenticator.isSome = true
  disk : t.disk = if n.hasStore then some t.toSaved else n.disk
  hasStore : t.hasStore = n.hasStore

/-- One of the two: the node keeps its ledger, or applies `request` to it. -/
def Steps (py : PyLib ν) (n : ReferenceNode ν) (request : Request ν) (t : ReferenceNode ν) : Prop :=
  Keeps n t ∨ ∃ c, AppliesTo py n t request c

section Keeping

omit [PyNumber ν] [DecidableEq ν]

variable {n t u : ReferenceNode ν}

lemma Keeps.refl (n : ReferenceNode ν) : Keeps n n := ⟨.refl _, .inl rfl, rfl⟩

lemma Keeps.setApp (h : Keeps n t) {a : Application ν} (ha : n.app.Keeps a) :
    Keeps n (t.setApp a) :=
  ⟨ha, h.disk, h.hasStore⟩

/-- A change that leaves the application alone. -/
lemma Keeps.of_app (h : Keeps n t) (happ : u.app = t.app) (hdisk : u.disk = t.disk)
    (hstore : u.hasStore = t.hasStore) : Keeps n u :=
  ⟨happ ▸ h.app, hdisk ▸ h.disk, hstore.trans h.hasStore⟩

lemma Keeps.setPending (h : Keeps n t) (pending : Option (Envelope (Request ν))) :
    Keeps n (t.setPending pending) :=
  h.of_app rfl rfl rfl

/-- Saving keeps what has been kept. -/
lemma Keeps.saved (h : Keeps n t) : Keeps n t.saved where
  app := by rw [Node.toSaved_saved]; exact h.app
  disk := by
    unfold Node.saved
    split_ifs
    · exact .inr ⟨_, rfl, h.app⟩
    · exact h.disk
  hasStore := by rw [Node.hasStore_saved]; exact h.hasStore

end Keeping

/-! ## The operations -/

variable {py : PyLib ν} {keys : Keyring (Request ν)} {role : Role} {n t : ReferenceNode ν}
  {request : Request ν} {envelope : Envelope (Request ν)} {app' : Application ν} {method : Method}
  {l : Ledger ν} {r : Result ν}

omit [DecidableEq ν] in
/-- **A method executed for an established actor** is a request that has been applied. -/
lemma appliesTo_of_established (h : Application.Established py n.app request true app')
    (hauth : n.app.authenticator.isSome = true)
    (hmethod : Method.ofJson? request.method = some method)
    (hexecute : n.app.ledger.execute py method request.params = .ok (l, r))
    (happ : t.app = app'.setLedger l) (hdisk : t.disk = if n.hasStore then some t.toSaved else n.disk)
    (hstore : t.hasStore = n.hasStore) : ∃ c, AppliesTo py n t request c := by
  obtain ⟨d, c, hd, hc, -, hcall⟩ := Ledger.execute_eq_ok hexecute
  cases h with
  | unchecked hnone =>
    rw [hnone] at hauth
    cases hauth
  | admitted a token hadmits =>
    refine ⟨c, ⟨method, d, hmethod, hd, hc⟩, by rw [happ]; exact hcall,
      ⟨a, token, hadmits, fun actor => ?_⟩, by rw [happ]; rfl, hdisk, hstore⟩
    rw [happ]
    exact Application.last_record hadmits.loaded actor

omit [DecidableEq ν] in
/-- A trial keeps the ledger and the nonces. -/
lemma keeps_of_tried {app a : Application ν} {mutation : Request ν}
    (h : Node.Tried (ledgerApp py) mutation app a) : app.Keeps a := by
  have hload := Application.keeps_loadCredential app mutation.auth
  obtain ⟨hreturns, hraises⟩ := ends_iff.mp (Application.ends_tryMutation py app mutation)
  rcases h with hok | ⟨e, herror⟩
  · rw [(hreturns _ _ hok).1]
    exact hload
  · rcases hraises _ _ herror with rfl | rfl
    · exact .refl _
    · exact hload

omit [DecidableEq ν] in
/-- What is only tried is kept. -/
lemma keeps_of_onlyTried {mutation : Request ν}
    (h : Node.OnlyTried (ledgerApp py) mutation n t) (hstore : t.hasStore = n.hasStore) :
    Keeps n t := by
  have hboth : ∀ a, (a = n.app ∨ Node.Tried (ledgerApp py) mutation n.app a) → n.app.Keeps a := by
    rintro a (rfl | ha)
    · exact .refl _
    · exact keeps_of_tried ha
  exact ⟨hboth _ h.memory, h.disk.imp_right fun ⟨s, hs, ha⟩ => ⟨s, hs, hboth _ ha⟩, hstore⟩

omit [DecidableEq ν] in
/-- The application of a mutation that raises keeps the ledger and the nonces. -/
lemma keeps_of_apply_error {app a : Application ν} {mutation : Request ν} {e : PyError}
    (h : (ledgerApp py).apply mutation app = .error e a) : app.Keeps a := by
  have hend := (ends_iff.mp (Application.ends_applyMutation py app mutation true)).2 e a h
  rcases hend with rfl | rfl
  · exact .refl _
  · exact Application.keeps_loadCredential app mutation.auth

omit [DecidableEq ν] in
/-- The application of a mutation that returns, on a node that is then saved. -/
lemma steps_of_apply_ok {mutation : Request ν} {b : Application ν}
    (hauth : n.app.authenticator.isSome = true)
    (h : (ledgerApp py).apply mutation n.app = .ok r b) (envelope : Envelope (Request ν)) :
    Steps py n mutation ((n.setApp b).appendLog envelope).saved := by
  have hend := (ends_iff.mp (Application.ends_applyMutation py n.app mutation true)).1 r b h
  obtain ⟨method, l, app', happlied, rfl⟩ := hend
  refine .inr (appliesTo_of_established happlied.established hauth happlied.method_eq
    happlied.execute (by rw [Node.toSaved_saved]; rfl) ?_ (by rw [Node.hasStore_saved]; rfl))
  rw [Node.toSaved_saved]
  unfold Node.saved
  show (if n.hasStore = true then _ else _ : ReferenceNode ν).disk = _
  split_ifs <;> rfl

/-- **Committing a prepared mutation** applies it, or keeps the ledger. -/
lemma steps_commitReplica (hauth : n.app.authenticator.isSome = true) :
    Steps py n envelope.mutation
      (after (Node.commitReplica (ledgerApp py) keys role true envelope) n) := by
  refine after_iff.mpr (Node.ends_commitReplica.mpr ⟨fun _ _ => .inl (.refl n), fun _ => ⟨fun _ =>
    .inl (.refl n), fun _ => ends_iff.mpr ⟨fun r b hr => ⟨fun _ => ?_, fun hnot => ?_⟩,
      fun e b he => ?_⟩⟩⟩)
  · exact steps_of_apply_ok hauth hr envelope
  · exact absurd (fun _ => rfl) hnot
  · exact .inl ((Keeps.refl n).setApp (keeps_of_apply_error he))

omit [DecidableEq ν] in
/-- The leader's commit applies its mutation, or keeps the ledger. -/
lemma steps_commitLocal (hauth : n.app.authenticator.isSome = true) :
    Steps py n envelope.mutation (after (Node.commitLocal (ledgerApp py) true envelope) n) := by
  refine after_iff.mpr ?_
  unfold Node.commitLocal
  rw [ends_bind, Node.ends_onApp]
  refine ends_iff.mpr ⟨fun r b hr => ?_, fun e b he => .inl ((Keeps.refl n).setApp
    (keeps_of_apply_error he))⟩
  rw [ends_bind, ends_modify, ends_bind, Node.ends_save]
  exact ⟨fun _ => steps_of_apply_ok hauth hr envelope, fun hnot => absurd (fun _ => rfl) hnot⟩

/-- Preparing a mutation keeps the ledger. -/
lemma keeps_prepareReplica :
    Keeps n (after (Node.prepareReplica (ledgerApp py) keys role true envelope) n) := by
  have hsame := Keeps.refl n
  refine after_iff.mpr (Node.ends_prepareReplica.mpr ⟨fun _ _ => hsame, fun _ => ⟨fun _ => hsame,
    fun _ _ _ => hsame, fun _ => ends_iff.mpr ⟨fun _ a ha => ?_, fun e a ha => ?_⟩⟩⟩)
  · have hkept := (hsame.setApp (keeps_of_tried (.inl ha))).setPending (some envelope)
    exact ⟨fun _ => hkept.saved, fun _ => hkept⟩
  · exact hsame.setApp (keeps_of_tried (.inr ⟨e, ha⟩))

/-- Aborting a mutation keeps the ledger. -/
lemma keeps_abortReplica :
    Keeps n (after (Node.abortReplica (ledgerApp py) keys role true envelope) n) := by
  have hsame := Keeps.refl n
  exact after_iff.mpr (Node.ends_abortReplica.mpr ⟨fun _ _ => hsame, fun _ => ⟨fun _ => hsame,
    fun _ => ⟨fun _ => (hsame.setPending none).saved, fun _ => hsame.setPending none⟩⟩⟩)

omit [DecidableEq ν] in
/-- Proposing a mutation keeps the ledger. -/
lemma keeps_propose :
    Keeps n (after (Node.propose (ledgerApp py) keys role true request) n) := by
  have hsame := Keeps.refl n
  refine after_iff.mpr ?_
  unfold Node.propose
  rw [ends_bind, Node.ends_onApp]
  refine ends_iff.mpr ⟨fun _ a ha => ?_, fun e a ha => hsame.setApp (keeps_of_tried (.inr ⟨e, ha⟩))⟩
  have hkept := hsame.setApp (keeps_of_tried (.inl ha))
  rw [ends_bind, ends_get, ends_bind, ends_lift]
  refine ⟨fun envelope _ => ?_, fun _ _ => hkept⟩
  rw [ends_bind, ends_modify, ends_bind, Node.ends_save]
  exact ⟨fun _ => (hkept.setPending _).saved, fun _ => hkept.setPending _⟩

omit [DecidableEq ν] [PyNumber ν] in
/-- The other operations do not touch the application. -/
lemma keeps_modify_save {f : ReferenceNode ν → ReferenceNode ν} (hf : ∀ n, Keeps n (f n)) :
    Ends (do modify f; Node.save true) n (fun _ t => Keeps n t) fun _ t => Keeps n t :=
  Node.ends_modify_save.mpr ⟨fun _ => (hf n).saved, fun _ => hf n⟩

omit [DecidableEq ν] [PyNumber ν] in
/-- A new leadership state keeps the application. -/
lemma keeps_setLeadership (n : ReferenceNode ν) (leadership : LeadershipState) :
    Keeps n { n with leadership := leadership } :=
  (Keeps.refl n).of_app rfl rfl rfl

omit [DecidableEq ν] [PyNumber ν] in
/-- A heartbeat keeps the application. -/
lemma keeps_receiveHeartbeat {heartbeat : Heartbeat} :
    Keeps n (after (Node.receiveHeartbeat keys true heartbeat) n) := by
  refine after_iff.mpr (Node.ends_receiveHeartbeat (.refl n) (fun _ => .refl n) ?_)
  exact fun leadership _ _ => ⟨fun _ => (keeps_setLeadership n leadership).saved,
    fun _ => keeps_setLeadership n leadership⟩

omit [DecidableEq ν] [PyNumber ν] in
/-- A certificate keeps the application. -/
lemma keeps_recordCertificate {certificate : LeadershipCertificate} :
    Keeps n (after (Node.recordCertificate keys true certificate) n) := by
  refine after_iff.mpr (Node.ends_recordCertificate (fun _ => .refl n) (fun _ => .refl n) ?_)
  intro leadership _ _ _
  have hkept : Keeps n { n with leadership := leadership, replicationPending := none } :=
    (Keeps.refl n).of_app rfl rfl rfl
  exact ⟨fun _ => hkept.saved, fun _ => hkept⟩

omit [DecidableEq ν] [PyNumber ν] in
/-- The clock keeps the application. -/
lemma keeps_startClock {tick : ℤ} : Keeps n (after (Node.startClock true tick) n) := by
  refine after_iff.mpr ?_
  unfold Node.startClock
  rw [ends_bind, ends_get]
  split_ifs
  · exact keeps_modify_save fun m => keeps_setLeadership m _
  · exact .refl n

omit [DecidableEq ν] [PyNumber ν] in
/-- A leader's own heartbeat keeps the application. -/
lemma keeps_recordBeat {tick : ℤ} : Keeps n (after (Node.recordBeat role true tick) n) := by
  refine after_iff.mpr ?_
  unfold Node.recordBeat
  rw [ends_bind, ends_get]
  split_ifs
  · rw [ends_bind, ends_lift]
    exact ⟨fun leadership _ => keeps_modify_save fun m => keeps_setLeadership m leadership,
      fun _ _ => .refl n⟩
  · exact .refl n

omit [DecidableEq ν] [PyNumber ν] in
/-- Discarding the prepared record keeps the application. -/
lemma keeps_abortUncommitted : Keeps n (after (Node.abortUncommitted true) n) := by
  refine after_iff.mpr (Node.ends_abortUncommitted.mpr ⟨fun _ => ?_, fun _ =>
    (Keeps.refl n).setPending none⟩)
  unfold Node.cleared
  split_ifs
  · exact ((Keeps.refl n).setPending none).saved
  · exact .refl n

omit [DecidableEq ν] [PyNumber ν] in
/-- So does giving a mutation up. -/
lemma keeps_abandon : Keeps n (after (Node.abandon (ρ := Result ν) true) n) := by
  refine after_iff.mpr ?_
  unfold Node.abandon
  rw [ends_bind, ends_modify, ends_bind, Node.ends_save]
  exact ⟨fun _ => ((Keeps.refl n).setPending none).saved, fun _ => (Keeps.refl n).setPending none⟩

omit [DecidableEq ν] [PyNumber ν] in
/-- The mutation of a leader with an authenticator is its request. -/
lemma mutation_of_authenticated (hauth : n.app.authenticator.isSome = true)
    (request : Request ν) : n.mutation request = request := by
  rw [mutation, if_pos hauth]

omit [DecidableEq ν] in
/-- **A leader's mutation from start to end** is applied, or keeps the ledger. -/
lemma steps_replicateMutation (hauth : n.app.authenticator.isSome = true) {o : Node.Outcome}
    (hsaves : o.abortSaves = true ∧ o.pendingSaves = true ∧ o.finalSaves = true) :
    Ends (Node.replicateMutation (ledgerApp py) keys role o request) n
      (fun _ t => Steps py n request t) fun _ t => Steps py n request t := by
  by_cases hproposed : ∃ a, Node.Proposed (ledgerApp py) role o request n a
  · obtain ⟨a, ha⟩ := hproposed
    obtain ⟨rfl, ⟨app', happ⟩, method, d, c, hmethod, -⟩ := of_trial ha.trial
    have hwaiting : Keeps n (n.waiting keys role request
        (n.app.loadCredential request.auth)) := by
      unfold Node.waiting Node.cleared
      have hload := Application.keeps_loadCredential n.app request.auth
      split_ifs
      · exact ((((Keeps.refl n).setPending none).saved.setApp hload).setPending _).saved
      · exact (((Keeps.refl n).setApp hload).setPending _).saved
    refine (Node.ends_replicateMutation ha).mpr
      ((happ.loadCredential.ends_applyMutation hmethod).mpr ⟨?_, ?_⟩)
    · intro l r hexecute
      rw [Application.ledger_loadCredential] at hexecute
      have hsteps : Steps py n request (n.applied keys role request
          (n.app.loadCredential request.auth) (app'.setLedger l)).saved := by
        refine .inr (appliesTo_of_established happ hauth hmethod hexecute
          (by rw [Node.toSaved_saved]; rfl) ?_ ?_)
        · rw [Node.toSaved_saved]
          unfold Node.saved
          rw [Node.hasStore_applied]
          split_ifs with hstore
          · rfl
          · exact Node.disk_applied hstore
        · rw [Node.hasStore_saved, Node.hasStore_applied]
      refine ⟨fun _ => ?_, fun hnot => absurd (fun _ => hsaves.2.2) hnot⟩
      split_ifs <;> exact hsteps
    · intro e hexecute
      rw [Application.loadCredential_loadCredential]
      exact .inl (hwaiting.setApp (Application.keeps_loadCredential n.app request.auth))
  · rw [not_exists] at hproposed
    refine (Node.ends_replicateMutation_of_not hproposed).mono (fun _ _ h => h.elim) ?_
    exact fun _ t ht => .inl (keeps_of_onlyTried ht.2 ht.1.hasStore)

omit [DecidableEq ν] in
/-- **A request that the node serves itself** is applied, or keeps the ledger. -/
lemma steps_serve (hauth : n.app.authenticator.isSome = true) :
    Ends (serve py true request) n (fun _ t => Steps py n request t)
      fun _ t => Steps py n request t := by
  have hsame := Keeps.refl n
  have hnone : n.app.authenticator ≠ none := fun h => by rw [h] at hauth; cases hauth
  unfold serve
  rw [ends_bind, Node.ends_onApp]
  refine (Application.ends_verifyRequestActor py n.app request true).mono ?_
    fun _ t ht => .inl (hsame.setApp ht.1.keeps)
  intro _ t ht
  cases hmethod : Method.ofJson? request.method with
  | none =>
    have hkept : Keeps n (n.setApp t) := by
      refine hsame.setApp ?_
      rcases ht with ⟨h, -⟩ | ⟨-, rfl⟩ | ⟨a, token, hadmits, rfl⟩
      · exact absurd h hnone
      · exact .refl _
      · exact (Application.Checked.recorded a token hadmits.loaded hadmits.checked).keeps
    dsimp only
    split
    · exact ends_bind.mpr (ends_get.mpr (ends_pure.mpr (.inl hkept)))
    · exact ends_pure.mpr (.inl hkept)
    · exact ends_throw.mpr (.inl hkept)
  | some method =>
    obtain ⟨a, token, hadmits, rfl⟩ : ∃ a token, n.app.Admits py request a token ∧
        t = (n.app.loadCredential request.auth).setAuthenticator (a.record token) := by
      rcases ht with ⟨h, -⟩ | ⟨hstatus, -⟩ | hadmits
      · exact absurd h hnone
      · rw [Application.ofJson?_of_status hstatus] at hmethod
        cases hmethod
      · exact hadmits
    have hestablished : Application.Established py n.app request true
        ((n.app.loadCredential request.auth).setAuthenticator (a.record token)) :=
      .admitted a token hadmits
    show Ends (Node.onApp (Application.runMethod py method request.params) >>= _) _ _ _
    rw [ends_bind, Node.ends_onApp, Application.ends_runMethod]
    constructor
    · intro l r hexecute
      have hledger : (n.setApp ((n.app.loadCredential request.auth).setAuthenticator
          (a.record token))).app.ledger = n.app.ledger := hestablished.ledger_eq
      rw [hledger] at hexecute
      rw [ends_bind, Node.ends_save]
      refine ⟨fun _ => ends_pure.mpr (.inr (appliesTo_of_established hestablished hauth hmethod
        hexecute (by rw [Node.toSaved_saved]; rfl) ?_ (by rw [Node.hasStore_saved]; rfl))),
        fun hnot => absurd (fun _ => rfl) hnot⟩
      rw [Node.toSaved_saved]
      unfold Node.saved
      show (if n.hasStore = true then _ else _ : ReferenceNode ν).disk = _
      split_ifs <;> rfl
    · intro e hexecute
      exact .inl (hsame.setApp
        (Application.Checked.recorded a token hadmits.loaded hadmits.checked).keeps)

omit [DecidableEq ν] in
/-- **A request** is applied, or keeps the ledger. -/
lemma steps_dispatch (hauth : n.app.authenticator.isSome = true) (self : Option Role)
    (peer : Option PeerIdentity) (acknowledged confirmed : Bool) :
    Steps py n request (dispatch py keys self peer ⟨true, true, true, acknowledged, confirmed⟩
      request n).1 := by
  refine (dispatch_iff (P := fun t _ => Steps py n request t)).mpr ?_
  unfold handle
  rw [ends_bind, ends_lift]
  refine ⟨fun _ _ => ?_, fun _ _ => .inl (.refl n)⟩
  split_ifs
  · exact ends_pure.mpr (.inl (.refl n))
  · split
    · rw [ends_bind, ends_get]
      split_ifs
      · rw [ends_bind, mutation_of_authenticated hauth]
        exact steps_replicateMutation hauth ⟨rfl, rfl, rfl⟩
      · exact ends_pure.mpr (.inl (.refl n))
    · rw [ends_bind]
      exact steps_serve hauth

end ReferenceNode

/-- The request that an event brings to the ledger. -/
def NodeEvent.carried : NodeEvent ν → Option (Request ν)
  | .request _ _ _ r => some r
  | .prepare envelope | .commit envelope | .commitLocal envelope => some envelope.mutation
  | .propose mutation => some mutation
  | _ => none

namespace ReferenceNode

variable {py : PyLib ν} {keys : Keyring (Request ν)} {self : Option Role} {boot : Ledger ν}
  {n t : ReferenceNode ν} {e : NodeEvent ν}

/-- **What an event can do** to a node with an authenticator: unless it is a restart, it applies the
request that it carries, or it keeps the ledger and the nonces. -/
theorem nodeStep_cases (hauth : n.app.authenticator.isSome = true)
    (hrestart : ∀ secrets, e ≠ .restart secrets) (h : nodeStep py keys self boot n e = some t) :
    Keeps n t ∨ ∃ request c, e.carried = some request ∧ AppliesTo py n t request c := by
  have hsteps : ∀ {request}, e.carried = some request → Steps py n request t →
      Keeps n t ∨ ∃ request c, e.carried = some request ∧ AppliesTo py n t request c := by
    rintro request hcarried (hkept | ⟨c, hc⟩)
    · exact .inl hkept
    · exact .inr ⟨request, c, hcarried, hc⟩
  -- An event that needs a role is not enabled without one.
  have hrole : ∀ {f : Role → ReferenceNode ν} {P : ReferenceNode ν → Prop},
      self.map f = some t → (∀ role, P (f role)) → P t := by
    intro f P hmap hP
    obtain ⟨role, -, rfl⟩ := Option.map_eq_some_iff.mp hmap
    exact hP role
  cases e with
  | request peer acknowledged confirmed request =>
    obtain rfl := Option.some.inj h
    exact hsteps rfl (steps_dispatch hauth self peer acknowledged confirmed)
  | prepare envelope => exact .inl (hrole h fun role => keeps_prepareReplica)
  | commit envelope =>
    exact hsteps rfl (hrole (P := Steps py n envelope.mutation) h fun role =>
      steps_commitReplica hauth)
  | abort envelope => exact .inl (hrole h fun role => keeps_abortReplica)
  | heartbeat heartbeat => exact .inl (hrole h fun _ => keeps_receiveHeartbeat)
  | certificate certificate => exact .inl (hrole h fun _ => keeps_recordCertificate)
  | startClock tick => exact .inl (hrole h fun _ => keeps_startClock)
  | recordBeat tick => exact .inl (hrole h fun _ => keeps_recordBeat)
  | abortUncommitted => exact .inl (hrole h fun _ => keeps_abortUncommitted)
  | propose mutation => exact .inl (hrole h fun _ => keeps_propose)
  | abandon => exact .inl (hrole h fun _ => keeps_abandon)
  | commitLocal envelope =>
    exact hsteps rfl (hrole (P := Steps py n envelope.mutation) h fun _ =>
      steps_commitLocal hauth)
  | registry file =>
    obtain rfl := Option.some.inj h
    exact .inl ((Keeps.refl n).setApp ⟨rfl, rfl, fun _ => le_rfl⟩)
  | restart secrets => exact absurd rfl (hrestart secrets)

/-! ## What has been applied -/

/-- The request that an event has applied, with the ledger it has been applied to: the one that the
event carries, if the ledger has become another one. -/
def appliedRequest (n : ReferenceNode ν) (e : NodeEvent ν) (t : ReferenceNode ν) :
    Option (Ledger ν × Request ν) :=
  match e with
  | .restart _ => none
  | _ => if t.app.ledger = n.app.ledger then none else e.carried.map fun r => (n.app.ledger, r)

/-- The requests that a run applies to the ledger, in order. -/
def applied (py : PyLib ν) (keys : Keyring (Request ν)) (self : Option Role) (boot : Ledger ν) :
    ReferenceNode ν → List (NodeEvent ν) → List (Ledger ν × Request ν)
  | _, [] => []
  | n, e :: es =>
    match nodeStep py keys self boot n e with
    | none => []
    | some t => (appliedRequest n e t).toList ++ applied py keys self boot t es

omit [PyNumber ν] in
/-- An event that keeps the ledger applies nothing. -/
lemma appliedRequest_of_keeps (h : Keeps n t) : appliedRequest n e t = none := by
  unfold appliedRequest
  split
  · rfl
  · exact if_pos h.app.ledger

/-- An event that applies the request it carries. -/
lemma appliedRequest_of_appliesTo {request : Request ν} {c : Ledger.Call ν}
    (hrestart : ∀ secrets, e ≠ .restart secrets) (hcarried : e.carried = some request)
    (h : AppliesTo py n t request c) :
    appliedRequest n e t = some (n.app.ledger, request) := by
  unfold appliedRequest
  split
  · exact absurd rfl (hrestart _)
  · rw [if_neg (Ledger.call_ne h.call), hcarried]
    rfl

/-- A process has come back from the file `s`, with the given credentials. -/
structure ComesBack (py : PyLib ν) (boot : Ledger ν) (secrets : Dict String String)
    (n : ReferenceNode ν) (s : Saved (Application ν) (Request ν)) (t : ReferenceNode ν) : Prop where
  ledger : Ledger.fromSnapshot py s.app.ledger.snapshot boot.genesis = .ok t.app.ledger
  authenticator : t.app.authenticator = s.app.authenticator.map fun a => ⟨secrets, a.nonces⟩
  registry : t.app.registry = n.app.registry
  nonces : t.replicationNonces = s.replicationNonces
  log : t.replicationLog = s.replicationLog
  pending : t.replicationPending = s.replicationPending
  leadership : t.leadership = { s.leadership with votes := ∅ }
  disk : t.disk = some s
  hasStore : t.hasStore = true

omit [DecidableEq ν] in
/-- **What a restart returns.** -/
theorem comesBack_of_restarted {secrets : Dict String String}
    {s : Saved (Application ν) (Request ν)} (hdisk : n.disk = some s)
    (h : restarted py keys boot n secrets = some t) : ComesBack py boot secrets n s t := by
  unfold restarted at h
  split_ifs at h
  rw [hdisk] at h
  cases hrestart : Node.restart (ledgerApp py) keys (reload py boot.genesis secrets n.app.registry)
    s with
  | error e => simp only [hrestart] at h; cases h
  | ok u =>
    simp only [hrestart] at h
    obtain rfl : u = t := Option.some.inj h
    simp only [Node.restart, bind_eq_ok, pure_eq_ok] at hrestart
    obtain ⟨a, hload, leadership, hleadership, -, -, -, -, rfl⟩ := hrestart
    simp only [reload, bind_eq_ok, pure_eq_ok] at hload
    obtain ⟨ledger, hledger, authenticator, hauth, rfl⟩ := hload
    simp only [LeadershipState.fromSnapshot, bind_eq_ok, pure_eq_ok] at hleadership
    obtain ⟨-, -, -, -, -, -, -, -, -, -, rfl⟩ := hleadership
    refine ⟨hledger, ?_, rfl, rfl, rfl, rfl, rfl, rfl, rfl⟩
    cases hs : s.app.authenticator with
    | none =>
      rw [hs] at hauth
      exact (Except.ok.inj hauth).symm
    | some b =>
      rw [hs] at hauth
      simp only [Option.mapM_some, Option.map_some, Option.getD_some, Authenticator.restore,
        map_eq_ok, bind_eq_ok, pure_eq_ok] at hauth
      obtain ⟨a, ⟨-, -, rfl⟩, rfl⟩ := hauth
      rfl

omit [PyNumber ν] [DecidableEq ν] in
/-- The nonces of a file stay when the credentials are replaced. -/
lemma last_of_comesBack {app s : Application ν} {secrets : Dict String String}
    (h : app.authenticator = s.authenticator.map fun a => ⟨secrets, a.nonces⟩) (actor : String) :
    app.last actor = s.last actor := by
  unfold Application.last
  rw [h]
  cases s.authenticator <;> rfl

omit [DecidableEq ν] in
/-- A node that comes back from its file has the nonces that it has saved. -/
lemma last_restarted {secrets : Dict String String} {s : Saved (Application ν) (Request ν)}
    (hdisk : n.disk = some s) (h : restarted py keys boot n secrets = some t) :
    (∀ actor, t.app.last actor = s.app.last actor) ∧ t.disk = some s ∧ t.hasStore = true ∧
      t.app.authenticator.isSome = s.app.authenticator.isSome := by
  have hback := comesBack_of_restarted hdisk h
  refine ⟨last_of_comesBack hback.authenticator, hback.disk, hback.hasStore, ?_⟩
  rw [hback.authenticator, Option.isSome_map]

end ReferenceNode

end SplitChain
