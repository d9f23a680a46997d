import SplitChain.Model.NodeRuns

set_option relaxedAutoImplicit false
set_option autoImplicit false

/-!
# The record of a replica between prepare and commit

A replica keeps one prepared envelope, and the commit of it looks at the same things as its
preparation: the committed position, the leader, the ledger, the credentials and the nonces. This
file says what an event other than a restart does to them while the record is kept. It loads
credentials, and nothing else, with one exception: a request that no table of mutations and no
operation of the cluster answers is served by the replica itself, and the nonce of its signature is
recorded.

## Main definitions

* `SplitChain.Application.Loads` — nothing but credentials has changed.
* `SplitChain.SameRecord` — the position, the leader and the prepared record are the same.
* `SplitChain.ReferenceNode.Rests` — what an event leaves of the record of another node.
* `SplitChain.NodeEvent.served` — the request that a replica serves itself.

## Main results

* `SplitChain.ReferenceNode.nodeStep_rests`, `SplitChain.ReferenceNode.nodeStep_serves` — every
  event but a restart rests, prepares a new record, or serves a request.
-/

namespace SplitChain

open Raise Proc

variable {ν : Type} [PyNumber ν]

/-! ## Credentials -/

namespace Application

omit [PyNumber ν]

/-- Credentials may have been loaded; nothing else has changed. -/
structure Loads (app t : Application ν) : Prop where
  ledger : t.ledger = app.ledger
  last : ∀ actor, t.last actor = app.last actor
  secrets : ∀ a, app.authenticator = some a → ∃ b, t.authenticator = some b ∧
    ∀ actor secret, a.secrets.get? actor = some secret → b.secrets.get? actor = some secret

variable {app t u : Application ν}

lemma Loads.refl (app : Application ν) : app.Loads app :=
  ⟨rfl, fun _ => rfl, fun a ha => ⟨a, ha, fun _ _ h => h⟩⟩

lemma Loads.trans (h : app.Loads t) (h' : t.Loads u) : app.Loads u where
  ledger := h'.ledger.trans h.ledger
  last actor := (h'.last actor).trans (h.last actor)
  secrets a ha := by
    obtain ⟨b, hb, hab⟩ := h.secrets a ha
    obtain ⟨c, hc, hbc⟩ := h'.secrets b hb
    exact ⟨c, hc, fun actor secret hs => hbc actor secret (hab actor secret hs)⟩

/-- A credential is only loaded for an actor that has none. -/
lemma loads_loadCredential (app : Application ν) (auth : Json ν) :
    app.Loads (app.loadCredential auth) where
  ledger := ledger_loadCredential app auth
  last actor := last_loadCredential app auth actor
  secrets a ha := by
    rcases loadCredential_eq app auth with heq | ⟨b, actor, secret, hb, -, hnew, heq⟩
    · exact ⟨a, by rw [heq]; exact ha, fun _ _ h => h⟩
    · obtain rfl : b = a := Option.some.inj (hb.symm.trans ha)
      refine ⟨_, by rw [heq]; rfl, fun other s hs => ?_⟩
      have hne : actor ≠ other := by
        rintro rfl
        rw [Dict.contains, hs] at hnew
        cases hnew
      show (b.secrets.set actor secret).get? other = some s
      rw [Dict.get?_set, if_neg hne]
      exact hs

end Application

namespace ReferenceNode

/-- A trial loads credentials. -/
lemma loads_of_tried {py : PyLib ν} {app a : Application ν} {mutation : Request ν}
    (h : Node.Tried (ledgerApp py) mutation app a) : app.Loads a := by
  have hload := Application.loads_loadCredential app mutation.auth
  obtain ⟨hreturns, hraises⟩ := ends_iff.mp (Application.ends_tryMutation py app mutation)
  rcases h with hok | ⟨e, herror⟩
  · rw [(hreturns _ _ hok).1]
    exact hload
  · rcases hraises _ _ herror with rfl | rfl
    · exact .refl _
    · exact hload

/-- So does a mutation that raises. -/
lemma loads_of_apply_error {py : PyLib ν} {app a : Application ν} {mutation : Request ν}
    {e : PyError} (h : (ledgerApp py).apply mutation app = .error e a) : app.Loads a := by
  have hend := (ends_iff.mp (Application.ends_applyMutation py app mutation true)).2 e a h
  rcases hend with rfl | rfl
  · exact .refl _
  · exact Application.loads_loadCredential app mutation.auth

end ReferenceNode

/-! ## The record -/

/-- Two states have the same committed position, leader and prepared record. -/
structure SameRecord {A μ : Type} (s t : Saved A μ) : Prop where
  nonces : t.replicationNonces = s.replicationNonces
  pending : t.replicationPending = s.replicationPending
  leader : t.leadership.leader = s.leadership.leader

namespace SameRecord

variable {A μ : Type} {s t u : Saved A μ}

lemma refl (s : Saved A μ) : SameRecord s s := ⟨rfl, rfl, rfl⟩

lemma trans (h : SameRecord s t) (h' : SameRecord t u) : SameRecord s u :=
  ⟨h'.nonces.trans h.nonces, h'.pending.trans h.pending, h'.leader.trans h.leader⟩

end SameRecord

namespace ReferenceNode

/-- The envelope of another node that a state has prepared. -/
def Foreign (role : Role) (s : Saved (Application ν) (Request ν)) (e : Envelope (Request ν)) :
    Prop :=
  s.replicationPending = some e ∧ e.leader ≠ role

/-- A state has no envelope of another node, or it has the one that `s` has, and nothing but
credentials has changed. -/
def Calm (role : Role) (s t : Saved (Application ν) (Request ν)) : Prop :=
  (∀ e, ¬ Foreign role t e) ∨ (SameRecord s t ∧ s.app.Loads t.app)

/-- **What an event leaves of a record.** Both states of a node are calm, and if the file has been
written it has the record that the memory has. -/
structure Rests (role : Role) (n t : ReferenceNode ν) : Prop where
  memory : Calm role n.toSaved t.toSaved
  disk : ∀ s, t.disk = some s → (n.disk = some s ∧ SameRecord n.toSaved t.toSaved) ∨
    (Calm role n.toSaved s ∧ SameRecord s t.toSaved)
  file : ∀ s, t.disk = some s → t.hasStore = true

section Resting

omit [PyNumber ν]

variable {role : Role} {s s' s'' : Saved (Application ν) (Request ν)} {n t u x : ReferenceNode ν}

lemma Calm.refl (role : Role) (s : Saved (Application ν) (Request ν)) : Calm role s s :=
  .inr ⟨.refl _, .refl _⟩

/-- Nothing prepared is nothing prepared for another node. -/
lemma calm_of_none (h : s'.replicationPending = none) : Calm role s s' :=
  .inl fun _ hf => by rw [hf.1] at h; cases h

lemma Calm.trans (h : Calm role s s') (h' : Calm role s' s'') : Calm role s s'' := by
  rcases h' with hnone | ⟨hsame', hloads'⟩
  · exact .inl hnone
  · rcases h with hnone | ⟨hsame, hloads⟩
    · exact .inl fun e hf => hnone e ⟨hsame'.pending.symm.trans hf.1, hf.2⟩
    · exact .inr ⟨hsame.trans hsame', hloads.trans hloads'⟩

lemma Rests.refl (role : Role) (hfile : ∀ s, n.disk = some s → n.hasStore = true) :
    Rests role n n :=
  ⟨.refl role _, fun _ hs => .inl ⟨hs, .refl _⟩, hfile⟩

lemma Rests.trans (h : Rests role n t) (h' : Rests role t u) : Rests role n u where
  memory := h.memory.trans h'.memory
  disk s hs := by
    rcases h'.disk s hs with ⟨hold, hsame'⟩ | ⟨hcalm, hsame⟩
    · rcases h.disk s hold with ⟨hold, hsame⟩ | ⟨hcalm, hsame⟩
      · exact .inl ⟨hold, hsame.trans hsame'⟩
      · exact .inr ⟨hcalm, hsame.trans hsame'⟩
    · exact .inr ⟨h.memory.trans hcalm, hsame⟩
  file := h'.file

/-- A change in memory that leaves the record alone. -/
lemma rests_of_same (hfile : ∀ s, n.disk = some s → n.hasStore = true)
    (hsame : SameRecord n.toSaved x.toSaved) (hloads : n.app.Loads x.app) (hdisk : x.disk = n.disk)
    (hstore : x.hasStore = n.hasStore) : Rests role n x :=
  ⟨.inr ⟨hsame, hloads⟩, fun _ hs => .inl ⟨hdisk ▸ hs, hsame⟩,
    fun s hs => hstore.trans (hfile s (hdisk ▸ hs))⟩

/-- A calm change that is saved. -/
lemma rests_saved (hfile : ∀ s, n.disk = some s → n.hasStore = true)
    (hcalm : Calm role n.toSaved x.toSaved) (hdisk : x.disk = n.disk)
    (hstore : x.hasStore = n.hasStore) : Rests role n x.saved := by
  refine ⟨by rw [Node.toSaved_saved]; exact hcalm, fun s hs => ?_, fun s hs => ?_⟩
  · rw [Node.toSaved_saved]
    unfold Node.saved at hs
    split_ifs at hs with hx
    · cases hs
      exact .inr ⟨hcalm, .refl _⟩
    · exact absurd (hstore.trans (hfile s (hdisk ▸ hs))) hx
  · rw [Node.hasStore_saved]
    unfold Node.saved at hs
    split_ifs at hs with hx
    · exact hx
    · exact hstore.trans (hfile s (hdisk ▸ hs))

/-- A computation rests, whether it returns or raises. -/
def Resting {α : Type} (role : Role) (x : EStateM PyError (ReferenceNode ν) α)
    (n : ReferenceNode ν) : Prop :=
  Ends x n (fun _ t => Rests role n t) fun _ t => Rests role n t

/-- Computations that rest can be composed. -/
lemma resting_bind {α β : Type} {x : EStateM PyError (ReferenceNode ν) α}
    {f : α → EStateM PyError (ReferenceNode ν) β} (hx : Resting role x n)
    (hf : ∀ a t, Rests role n t → Resting role (f a) t) : Resting role (x >>= f) n := by
  unfold Resting
  rw [ends_bind]
  exact Ends.mono hx (fun a t ht => Ends.mono (hf a t ht) (fun _ _ hu => ht.trans hu)
    fun _ _ hu => ht.trans hu) fun _ _ ht => ht

/-- Where a computation ends after resting. -/
lemma Resting.after {α : Type} {x : EStateM PyError (ReferenceNode ν) α} (h : Resting role x n) :
    Rests role n (after x n) :=
  after_iff.mpr h

end Resting

/-! ## The operations -/

section Operations

variable {py : PyLib ν} {keys : Keyring (Request ν)} {role : Role} {n : ReferenceNode ν}
  {envelope : Envelope (Request ν)}

/-- A heartbeat leaves the leader. -/
lemma heartbeat_eq_ok {s s' : LeadershipState} {leader : Role} {term tick nonce : ℤ}
    (h : s.heartbeat leader term tick nonce = .ok s') : s'.leader = s.leader := by
  unfold LeadershipState.heartbeat at h
  simp only [bind_eq_ok, require_eq_ok, exists_const, pure_eq_ok] at h
  obtain ⟨-, -, rfl⟩ := h
  rfl

/-- A preparation that returns makes its envelope the record, after a trial. -/
structure Prepares [DecidableEq ν] (py : PyLib ν) (keys : Keyring (Request ν)) (role : Role)
    (envelope : Envelope (Request ν)) (n t : ReferenceNode ν) : Prop where
  verified : Node.verifyEnvelope (ledgerApp py) keys role n envelope = .ok ()
  trial : (ledgerApp py).trial envelope.mutation n.app = .ok () t.app
  pending : t.replicationPending = some envelope
  nonces : t.replicationNonces = n.replicationNonces
  leader : t.leadership.leader = n.leadership.leader
  disk : ∀ s, t.disk = some s → s = t.toSaved
  file : ∀ s, t.disk = some s → t.hasStore = true

/-- **Preparing an envelope.** -/
lemma rests_prepareReplica [DecidableEq ν] (hfile : ∀ s, n.disk = some s → n.hasStore = true) :
    Rests role n (after (Node.prepareReplica (ledgerApp py) keys role true envelope) n) ∨
      Prepares py keys role envelope n
        (after (Node.prepareReplica (ledgerApp py) keys role true envelope) n) := by
  have hsame := Rests.refl role hfile
  refine (after_iff (P := fun t => Rests role n t ∨ Prepares py keys role envelope n t)).mpr
    (Node.ends_prepareReplica.mpr ⟨fun _ _ => .inl hsame, fun hverified => ⟨fun _ => .inl hsame,
      fun _ _ _ => .inl hsame, fun _ => ends_iff.mpr ⟨fun _ a ha => ⟨fun _ => .inr ?_, fun hnot =>
        absurd (fun _ => rfl) hnot⟩, fun e a ha => .inl ?_⟩⟩⟩)
  · have hmemory := Node.toSaved_saved ((n.setApp a).setPending (some envelope))
    refine ⟨hverified, by rw [hmemory]; exact ha, by rw [hmemory]; rfl, by rw [hmemory]; rfl,
      by rw [hmemory]; rfl, fun s hs => ?_, fun s hs => ?_⟩
    · rw [hmemory]
      unfold Node.saved at hs
      split_ifs at hs with hstore
      · cases hs
        rfl
      · exact absurd (hfile s hs) hstore
    · rw [Node.hasStore_saved]
      unfold Node.saved at hs
      split_ifs at hs with hstore
      · exact hstore
      · exact hfile s hs
  · exact rests_of_same hfile ⟨rfl, rfl, rfl⟩ (loads_of_tried (.inr ⟨e, ha⟩)) rfl rfl

lemma resting_abortReplica [DecidableEq ν] (hfile : ∀ s, n.disk = some s → n.hasStore = true) :
    Resting role (Node.abortReplica (ledgerApp py) keys role true envelope) n := by
  have hsame := Rests.refl role hfile
  exact Node.ends_abortReplica.mpr ⟨fun _ _ => hsame, fun _ => ⟨fun _ => hsame, fun _ =>
    ⟨fun _ => rests_saved hfile (calm_of_none rfl) rfl rfl,
    fun hnot => absurd (fun _ => rfl) hnot⟩⟩⟩

lemma resting_commitReplica [DecidableEq ν] (hfile : ∀ s, n.disk = some s → n.hasStore = true) :
    Resting role (Node.commitReplica (ledgerApp py) keys role true envelope) n := by
  have hsame := Rests.refl role hfile
  refine Node.ends_commitReplica.mpr ⟨fun _ _ => hsame, fun _ => ⟨fun _ => hsame, fun _ =>
    ends_iff.mpr ⟨fun r b hr => ⟨fun _ => ?_, fun hnot => absurd (fun _ => rfl) hnot⟩,
      fun e b he => ?_⟩⟩⟩
  · exact rests_saved hfile (calm_of_none rfl) rfl rfl
  · exact rests_of_same hfile ⟨rfl, rfl, rfl⟩ (loads_of_apply_error he) rfl rfl

lemma resting_commitLocal (hfile : ∀ s, n.disk = some s → n.hasStore = true) :
    Resting role (Node.commitLocal (ledgerApp py) true envelope) n := by
  unfold Resting Node.commitLocal
  rw [ends_bind, Node.ends_onApp]
  refine ends_iff.mpr ⟨fun r b hr => ?_, fun e b he =>
    rests_of_same hfile ⟨rfl, rfl, rfl⟩ (loads_of_apply_error he) rfl rfl⟩
  rw [ends_bind, ends_modify, ends_bind, Node.ends_save]
  exact ⟨fun _ => rests_saved hfile (calm_of_none rfl) rfl rfl,
    fun hnot => absurd (fun _ => rfl) hnot⟩

/-- **A leader's own envelope** is no record of another node. -/
lemma resting_propose {request : Request ν} (hfile : ∀ s, n.disk = some s → n.hasStore = true) :
    Resting role (Node.propose (ledgerApp py) keys role true request) n := by
  unfold Resting Node.propose
  rw [ends_bind, Node.ends_onApp]
  refine ends_iff.mpr ⟨fun _ a ha => ?_, fun e a ha =>
    rests_of_same hfile ⟨rfl, rfl, rfl⟩ (loads_of_tried (.inr ⟨e, ha⟩)) rfl rfl⟩
  rw [ends_bind, ends_get, ends_bind, ends_lift]
  refine ⟨fun envelope hsign => ?_, fun _ _ =>
    rests_of_same hfile ⟨rfl, rfl, rfl⟩ (loads_of_tried (.inl ha)) rfl rfl⟩
  rw [ends_bind, ends_modify, ends_bind, Node.ends_save]
  refine ⟨fun _ => rests_saved hfile (.inl fun e hf => ?_) rfl rfl,
    fun hnot => absurd (fun _ => rfl) hnot⟩
  simp only [ReplicationAuthenticator.sign, bind_eq_ok, pure_eq_ok] at hsign
  obtain ⟨-, -, rfl⟩ := hsign
  obtain ⟨hpending, hleader⟩ := hf
  cases hpending
  exact hleader rfl

omit [PyNumber ν] in
lemma resting_abandon (hfile : ∀ s, n.disk = some s → n.hasStore = true) :
    Resting role (Node.abandon (ρ := Result ν) true) n := by
  unfold Resting Node.abandon
  rw [ends_bind, ends_modify, ends_bind, Node.ends_save]
  exact ⟨fun _ => rests_saved hfile (calm_of_none rfl) rfl rfl,
    fun hnot => absurd (fun _ => rfl) hnot⟩

omit [PyNumber ν] in
lemma resting_abortUncommitted (hfile : ∀ s, n.disk = some s → n.hasStore = true) :
    Resting role (Node.abortUncommitted true) n := by
  refine Node.ends_abortUncommitted.mpr ⟨fun _ => ?_, fun hnot => absurd (fun _ _ => rfl) hnot⟩
  unfold Node.cleared
  split_ifs
  · exact rests_saved hfile (calm_of_none rfl) rfl rfl
  · exact .refl role hfile

omit [PyNumber ν] in
/-- A new leadership state of the same leader. -/
lemma rests_setLeadership (hfile : ∀ s, n.disk = some s → n.hasStore = true)
    {leadership : LeadershipState} (h : leadership.leader = n.leadership.leader) :
    Rests role n ({ n with leadership := leadership } : ReferenceNode ν).saved :=
  rests_saved hfile (.inr ⟨⟨rfl, rfl, h⟩, .refl _⟩) rfl rfl

omit [PyNumber ν] in
lemma resting_receiveHeartbeat {heartbeat : Heartbeat}
    (hfile : ∀ s, n.disk = some s → n.hasStore = true) :
    Resting role (Node.receiveHeartbeat keys true heartbeat) n :=
  Node.ends_receiveHeartbeat (.refl role hfile) (fun _ => .refl role hfile) fun _ hlead _ =>
    ⟨fun _ => rests_setLeadership hfile (heartbeat_eq_ok hlead),
      fun hnot => absurd (fun _ => rfl) hnot⟩

omit [PyNumber ν] in
lemma resting_recordCertificate {certificate : LeadershipCertificate}
    (hfile : ∀ s, n.disk = some s → n.hasStore = true) :
    Resting role (Node.recordCertificate keys true certificate) n :=
  Node.ends_recordCertificate (fun _ => .refl role hfile) (fun _ => .refl role hfile)
    fun _ _ _ _ => ⟨fun _ => rests_saved hfile (calm_of_none rfl) rfl rfl,
      fun hnot => absurd (fun _ => rfl) hnot⟩

omit [PyNumber ν] in
lemma resting_startClock {tick : ℤ} (hfile : ∀ s, n.disk = some s → n.hasStore = true) :
    Resting role (Node.startClock true tick) n := by
  unfold Resting Node.startClock
  rw [ends_bind, ends_get]
  split_ifs
  · exact Node.ends_modify_save.mpr ⟨fun _ => rests_setLeadership hfile rfl,
      fun hnot => absurd (fun _ => rfl) hnot⟩
  · exact .refl role hfile

omit [PyNumber ν] in
lemma resting_recordBeat {tick : ℤ} (hfile : ∀ s, n.disk = some s → n.hasStore = true) :
    Resting role (Node.recordBeat role true tick) n := by
  unfold Resting Node.recordBeat
  rw [ends_bind, ends_get]
  split_ifs
  · rw [ends_bind, ends_lift]
    exact ⟨fun leadership hlead => Node.ends_modify_save.mpr
      ⟨fun _ => rests_setLeadership hfile (heartbeat_eq_ok hlead),
        fun hnot => absurd (fun _ => rfl) hnot⟩, fun _ _ => .refl role hfile⟩
  · exact .refl role hfile

/-- **A mutation that a leader replicates** leaves no record of another node, or keeps it. -/
lemma resting_replicateMutation {request : Request ν} {acknowledged confirmed : Bool}
    (hfile : ∀ s, n.disk = some s → n.hasStore = true) :
    Resting role (Node.replicateMutation (ledgerApp py) keys role
      ⟨true, true, true, acknowledged, confirmed⟩ request) n := by
  unfold Node.replicateMutation
  refine ends_bind.mpr (ends_get.mpr ?_)
  by_cases hleads : n.leadership.leader = role
  · rw [if_neg (not_not_intro hleads)]
    refine resting_bind (resting_abortUncommitted hfile) fun _ t ht => ?_
    refine resting_bind (resting_propose ht.file) fun envelope u hu => ?_
    cases acknowledged with
    | true =>
      refine resting_bind (resting_commitLocal hu.file) fun r v hv => ?_
      cases confirmed with
      | true => exact .refl role hv.file
      | false => exact .refl role hv.file
    | false => exact resting_abandon hu.file
  · rw [if_pos hleads]
    exact .refl role hfile

end Operations

end ReferenceNode

/-! ## Requests -/

/-- The request that an event makes a node with a role serve itself, unless it is for the state of
the ledger. -/
def NodeEvent.served : NodeEvent ν → Option (Request ν)
  | .request peer _ _ r =>
    if ReferenceNode.checkRequest peer r = .ok () ∧
        ¬ (r.method.str?.any fun name => name ∈ ReferenceNode.clusterMethods) = true ∧
        Method.ofJson? r.method = none ∧ r.method.str? ≠ some "status" then some r
    else none
  | _ => none

namespace ReferenceNode

variable {py : PyLib ν} {keys : Keyring (Request ν)} {role : Role} {boot : Ledger ν}
  {n t : ReferenceNode ν} {e : NodeEvent ν}

/-- A node that serves a request stays as it is, but the request may have been checked. -/
structure Serves (py : PyLib ν) (request : Request ν) (n t : ReferenceNode ν) : Prop where
  record : SameRecord n.toSaved t.toSaved
  app : n.app.Checked py request t.app
  recorded : ∀ a token, (n.app.loadCredential request.auth).authenticator = some a →
    a.check py request = .ok token → t.app.last token.actor = token.nonce
  disk : t.disk = n.disk
  hasStore : t.hasStore = n.hasStore

/-- **The check of a request without a method**: where it can be passed, it is, and the nonce is
recorded. -/
lemma serves_verifyRequestActor {request : Request ν}
    (hstatus : request.method.str? ≠ some "status") :
    Ends (Application.verifyRequestActor py request true) n.app
      (fun _ a => Serves py request n (n.setApp a)) fun _ a => Serves py request n (n.setApp a) := by
  have hserves : ∀ {a : Application ν}, n.app.Checked py request a →
      (∀ b token, (n.app.loadCredential request.auth).authenticator = some b →
        b.check py request = .ok token → a.last token.actor = token.nonce) →
      Serves py request n (n.setApp a) :=
    fun hchecked hrecorded => ⟨⟨rfl, rfl, rfl⟩, hchecked, hrecorded, rfl, rfl⟩
  unfold Application.verifyRequestActor
  rw [ends_bind, ends_get]
  cases hnone : n.app.authenticator with
  | none =>
    have hsame : Serves py request n (n.setApp n.app) := hserves .same fun b token hb _ => by
      rw [Application.loadCredential_of_none hnone, hnone] at hb
      cases hb
    rw [Option.isNone_none, if_pos rfl]
    split_ifs
    · exact ends_throw.mpr hsame
    · exact ends_pure.mpr hsame
  | some b =>
    obtain ⟨a, ha⟩ := Application.exists_authenticator hnone request.auth
    rw [Option.isNone_some, if_neg Bool.false_ne_true, if_pos hstatus, ends_bind, ends_modify,
      ends_bind, Application.ends_verify ha]
    constructor
    · intro token htoken
      have hrecorded := hserves (.recorded a token ha htoken) fun b' token' hb' htoken' => by
        obtain rfl : a = b' := Option.some.inj (ha.symm.trans hb')
        obtain rfl : token = token' := Except.ok.inj (htoken.symm.trans htoken')
        rw [Application.last_record ha, if_pos rfl]
      exact ends_lift.mpr ⟨fun _ _ => hrecorded, fun _ _ => hrecorded⟩
    · intro e he
      refine hserves .loaded fun b' token' hb' htoken' => ?_
      obtain rfl : a = b' := Option.some.inj (ha.symm.trans hb')
      rw [he] at htoken'
      cases htoken'

/-- A request that names no mutation and is not for the state of the ledger is served. -/
lemma serves_serve {saves : Bool} {request : Request ν}
    (hmethod : Method.ofJson? request.method = none)
    (hstatus : request.method.str? ≠ some "status") :
    Ends (serve py saves request) n (fun _ t => Serves py request n t)
      fun _ t => Serves py request n t := by
  unfold serve
  rw [ends_bind, Node.ends_onApp, hmethod]
  refine (serves_verifyRequestActor hstatus).mono (fun _ a ha => ?_) fun _ _ ha => ha
  dsimp only
  split
  · exact ends_bind.mpr (ends_get.mpr (ends_pure.mpr ha))
  · exact ends_pure.mpr ha
  · exact ends_throw.mpr ha

/-- A request for the state of the ledger is not checked. -/
lemma rests_serve_status {request : Request ν} (hfile : ∀ s, n.disk = some s → n.hasStore = true)
    (hstatus : request.method.str? = some "status") :
    Resting role (serve py true request) n := by
  have hsame : ∀ a, a = n.app → Rests role n (n.setApp a) := by
    rintro _ rfl
    exact rests_of_same hfile ⟨rfl, rfl, rfl⟩ (.refl _) rfl rfl
  unfold Resting serve
  rw [ends_bind, Node.ends_onApp, Application.ofJson?_of_status hstatus]
  refine (Application.ends_verifyRequestActor_of_status n.app hstatus true).mono (fun _ a ha => ?_)
    fun _ a ha => hsame a ha
  dsimp only
  rw [hstatus]
  exact ends_bind.mpr (ends_get.mpr (ends_pure.mpr (hsame a ha)))

/-- **A request** rests, or is served. -/
lemma rests_dispatch {request : Request ν} {peer : Option PeerIdentity}
    {acknowledged confirmed : Bool} (hfile : ∀ s, n.disk = some s → n.hasStore = true)
    (hevent : e = .request peer acknowledged confirmed request)
    (ht : t = (dispatch py keys (some role) peer ⟨true, true, true, acknowledged, confirmed⟩
      request n).1) :
    e.served = none ∧ Rests role n t ∨ e.served = some request ∧ Serves py request n t := by
  subst hevent ht
  have hsame := Rests.refl role hfile
  refine (dispatch_iff (P := fun t _ => NodeEvent.served _ = none ∧ Rests role n t ∨
    NodeEvent.served _ = some request ∧ Serves py request n t)).mpr ?_
  unfold handle
  rw [ends_bind, ends_lift]
  refine ⟨fun _ hchecked => ?_, fun _ hraised => .inl ⟨if_neg fun h => ?_, hsame⟩⟩
  · by_cases hcluster : (request.method.str?.any fun name => name ∈ clusterMethods) = true
    · rw [if_pos hcluster]
      exact ends_pure.mpr (.inl ⟨if_neg fun h => h.2.1 hcluster, hsame⟩)
    · rw [if_neg hcluster]
      cases hmethod : Method.ofJson? request.method with
      | some method =>
        have hnone : (NodeEvent.request peer acknowledged confirmed request).served = none :=
          if_neg fun h => by rw [h.2.2.1] at hmethod; cases hmethod
        show Ends (do
          let n ← get
          if n.leadership.leader = role then _ else _) n _ _
        rw [ends_bind, ends_get]
        split_ifs with hleads
        · rw [ends_bind]
          exact Ends.mono (resting_replicateMutation hfile)
            (fun _ _ ht => ends_pure.mpr (.inl ⟨hnone, ht⟩)) fun _ _ ht => .inl ⟨hnone, ht⟩
        · exact ends_pure.mpr (.inl ⟨hnone, hsame⟩)
      | none =>
        show Ends (serve py true request >>= _) n _ _
        rw [ends_bind]
        by_cases hstatus : request.method.str? = some "status"
        · have hnone : (NodeEvent.request peer acknowledged confirmed request).served = none :=
            if_neg fun h => h.2.2.2 hstatus
          exact Ends.mono (rests_serve_status hfile hstatus)
            (fun _ _ ht => ends_pure.mpr (.inl ⟨hnone, ht⟩)) fun _ _ ht => .inl ⟨hnone, ht⟩
        · have hserved : (NodeEvent.request peer acknowledged confirmed request).served =
              some request := if_pos ⟨hchecked, hcluster, hmethod, hstatus⟩
          exact (serves_serve hmethod hstatus).mono
            (fun _ _ ht => ends_pure.mpr (.inr ⟨hserved, ht⟩)) fun _ _ ht => .inr ⟨hserved, ht⟩
  · rw [h.1] at hraised
    cases hraised

variable [DecidableEq ν]

/-- **What an event does to the record of a replica.** It rests or prepares a record, unless it is a
request that the replica serves. -/
theorem nodeStep_rests (hfile : ∀ s, n.disk = some s → n.hasStore = true)
    (hrestart : ∀ secrets, e ≠ .restart secrets) (hserved : e.served = none)
    (hstep : nodeStep py keys (some role) boot n e = some t) :
    Rests role n t ∨ ∃ envelope, Prepares py keys role envelope n t := by
  cases e with
  | request peer acknowledged confirmed request =>
    rcases rests_dispatch hfile rfl (Option.some.inj hstep).symm with ⟨-, h⟩ | ⟨h, -⟩
    · exact .inl h
    · rw [hserved] at h
      cases h
  | prepare envelope =>
    obtain rfl := Option.some.inj hstep
    exact (rests_prepareReplica hfile).imp_right fun h => ⟨envelope, h⟩
  | commit envelope => exact .inl (Option.some.inj hstep ▸ (resting_commitReplica hfile).after)
  | abort envelope => exact .inl (Option.some.inj hstep ▸ (resting_abortReplica hfile).after)
  | heartbeat heartbeat =>
    exact .inl (Option.some.inj hstep ▸ (resting_receiveHeartbeat hfile).after)
  | certificate certificate =>
    exact .inl (Option.some.inj hstep ▸ (resting_recordCertificate hfile).after)
  | startClock tick => exact .inl (Option.some.inj hstep ▸ (resting_startClock hfile).after)
  | recordBeat tick => exact .inl (Option.some.inj hstep ▸ (resting_recordBeat hfile).after)
  | abortUncommitted =>
    exact .inl (Option.some.inj hstep ▸ (resting_abortUncommitted hfile).after)
  | propose mutation => exact .inl (Option.some.inj hstep ▸ (resting_propose hfile).after)
  | abandon => exact .inl (Option.some.inj hstep ▸ (resting_abandon hfile).after)
  | commitLocal envelope => exact .inl (Option.some.inj hstep ▸ (resting_commitLocal hfile).after)
  | registry file =>
    obtain rfl := Option.some.inj hstep
    exact .inl (rests_of_same hfile ⟨rfl, rfl, rfl⟩
      ⟨rfl, fun _ => rfl, fun a ha => ⟨a, ha, fun _ _ h => h⟩⟩ rfl rfl)
  | restart secrets => exact absurd rfl (hrestart secrets)

/-- A request that a replica serves. -/
theorem nodeStep_serves {request : Request ν} (hfile : ∀ s, n.disk = some s → n.hasStore = true)
    (hserved : e.served = some request) (hstep : nodeStep py keys (some role) boot n e = some t) :
    Serves py request n t := by
  cases e with
  | request peer acknowledged confirmed r =>
    rcases rests_dispatch hfile rfl (Option.some.inj hstep).symm with ⟨h, -⟩ | ⟨h, hserves⟩
    · rw [hserved] at h
      cases h
    · obtain rfl : request = r := Option.some.inj (hserved.symm.trans h)
      exact hserves
  | _ => cases hserved

end ReferenceNode

end SplitChain
