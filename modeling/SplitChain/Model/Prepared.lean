import SplitChain.Model.JsonRequests
import SplitChain.Model.Reloading
import SplitChain.Model.Signing
import SplitChain.Model.Standby

set_option relaxedAutoImplicit false
set_option autoImplicit false

/-!
# Committing what has been prepared

A replica that has prepared an envelope has told the leader that it can commit it. Whether it can
depends on its ledger, its nonces and its credentials at the time of the commit. The ledger stays
while the record is there, and a reload returns one that behaves alike; the nonces stay too, unless
the replica serves a request that the actor of the envelope has signed. Such a request may carry a
nonce that is not below the one of the envelope, and then the commit is refused as a replay.

The amounts of these runs are no floats: what a reload makes of a locked float, and what the
interpreter makes of a sum of floats, is rounded.

## Main definitions

* `SplitChain.Application.Accepts` — what an application needs for a mutation, but for the
  credential.
* `SplitChain.ReferenceNode.CommitsPrepared` — the prepared envelope of another node can be
  committed.
* `SplitChain.ReferenceNode.SparesPrepared` — an event that leaves the nonce and the credential of
  the prepared envelope usable.

## Main results

* `SplitChain.ReferenceNode.commit_prepared` — where every event spares the record, every record can
  be committed; and for runs without a restart only there.
-/

namespace SplitChain

open Raise Proc

open PyNumber (val trunc)

variable {ν : Type} [PyNumber ν]

/-! ## What a mutation needs -/

namespace Application

/-- What an application needs for a mutation, but for the credential of its actor. -/
structure Accepts (py : PyLib ν) (app : Application ν) (request : Request ν) (token : Token) :
    Prop where
  names : request.token py = .ok token
  newer : app.last token.actor < token.nonce
  participant : checkActor token.actor (Method.ofJson? request.method) request.params = .ok ()
  executes : ∃ method l r, Method.ofJson? request.method = some method ∧
    app.ledger.execute py method request.params = .ok (l, r)

variable {py : PyLib ν} {app t : Application ν} {request : Request ν} {token : Token}

/-- Ledgers that behave alike execute the same mutations. -/
lemma executes_of_alike {l m : Ledger ν} (h : l.Alike m) {method : Method}
    {params : Json ν} (hl : ∃ l' r, l.execute py method params = .ok (l', r)) :
    ∃ m' r, m.execute py method params = .ok (m', r) := by
  obtain ⟨l', r, hl⟩ := hl
  obtain ⟨⟨m', r'⟩, hm, -⟩ := (h.execute method params).exists_ok hl
  exact ⟨m', r', hm⟩

/-- Nonces that are no higher and a ledger that behaves alike are enough. -/
lemma Accepts.of_alike (h : Accepts py app request token)
    (hlast : t.last token.actor < token.nonce) (halike : app.ledger.Alike t.ledger) :
    Accepts py t request token := by
  obtain ⟨method, l, r, hmethod, hexecute⟩ := h.executes
  obtain ⟨l', r', hexecute'⟩ := executes_of_alike halike ⟨l, r, hexecute⟩
  exact ⟨h.names, hlast, h.participant, method, l', r', hmethod, hexecute'⟩

/-- So is a change of the credentials alone. -/
lemma Accepts.loads (h : Accepts py app request token) (hloads : app.Loads t) :
    Accepts py t request token :=
  h.of_alike (by rw [hloads.last]; exact h.newer) (by rw [hloads.ledger]; exact .refl _)

/-- With the credential, the actor of the mutation is admitted. -/
lemma Accepts.admits (h : Accepts py app request token) {a : Authenticator}
    (ha : app.authenticator = some a) (hsigns : a.Signs py request token) :
    ∃ b, app.Admits py request b token := by
  obtain ⟨secret, hsecret, hascii, hmac⟩ := hsigns
  obtain ⟨b, hb, hloaded⟩ := (loads_loadCredential app request.auth).secrets a ha
  refine ⟨b, hb, Authenticator.check_eq_ok.mpr ⟨h.names, ⟨secret, hloaded _ _ hsecret, hascii, hmac⟩,
    ?_⟩, h.participant⟩
  have hlast := h.newer
  rw [← last_loadCredential app request.auth, last, hb] at hlast
  exact hlast

/-- **A trial that returns** leaves an application that accepts the mutation and has the
credential. -/
theorem accepts_of_trial {a : Application ν} (htrial : (ledgerApp py).trial request app = .ok () a)
    (hauth : app.authenticator.isSome = true)
    (halike : ∀ l, Ledger.fromSnapshot py app.ledger.snapshot none = .ok l → l.Alike app.ledger) :
    ∃ token b, Accepts py a request token ∧ a.authenticator = some b ∧
    b.Signs py request token := by
  obtain ⟨rfl, trial, method, l, r, app', hl, happlied⟩ :=
    (ends_iff.mp (ends_tryMutation py app request)).1 () a htrial
  have hexecute : ∃ l r, app.ledger.execute py method request.params = .ok (l, r) :=
    executes_of_alike (halike trial hl) ⟨l, r, happlied.execute⟩
  cases happlied.established with
  | unchecked hnone =>
    have hnone' : app.authenticator = none := hnone
    rw [hnone'] at hauth
    cases hauth
  | admitted b token hadmits =>
    have hloaded : (app.loadCredential request.auth).authenticator = some b := by
      have hb := hadmits.loaded
      rw [loadCredential_setLedger] at hb
      exact hb
    obtain ⟨hnames, hsigns, hlast⟩ := Authenticator.check_eq_ok.mp hadmits.checked
    obtain ⟨l', r', hexecute'⟩ := hexecute
    refine ⟨token, b, ⟨hnames, ?_, hadmits.participant, method, l', r', happlied.method_eq, ?_⟩,
      hloaded, hsigns⟩
    · rw [last, hloaded]
      exact hlast
    · rw [ledger_loadCredential]
      exact hexecute'

end Application

namespace ReferenceNode

/-! ## Commits -/

section Commits

variable {py : PyLib ν} {keys : Keyring (Request ν)} {role : Role}
  {n t : ReferenceNode ν} {e : Envelope (Request ν)} [DecidableEq ν]

omit [DecidableEq ν] in
/-- The check of an envelope looks at the record alone. -/
lemma verifyEnvelope_congr (hnonces : t.replicationNonces = n.replicationNonces)
    (hleader : t.leadership.leader = n.leadership.leader) :
    Node.verifyEnvelope (ledgerApp py) keys role t e =
      Node.verifyEnvelope (ledgerApp py) keys role n e := by
  have hposition : t.committedPosition = n.committedPosition := by
    unfold Saved.committedPosition
    rw [hnonces]
  unfold Node.verifyEnvelope
  rw [hleader, hposition]

end Commits

/-! ## The invariant -/

variable {py : PyLib JsonNum} {keys : Keyring (Request JsonNum)} {role : Role}
  {boot : Ledger JsonNum} {n t : ReferenceNode JsonNum} {e : Envelope (Request JsonNum)}

/-- **What a replica has promised**: the record that it has prepared for another node passes every
check of a commit, now and, but for the credential, after a restart. -/
structure Promises (py : PyLib JsonNum) (keys : Keyring (Request JsonNum)) (role : Role)
    (n : ReferenceNode JsonNum) : Prop where
  ledgers : Ledgers (Ledger.Steady py) n
  memory : ∀ e, Foreign role n.toSaved e →
    Node.verifyEnvelope (ledgerApp py) keys role n e = .ok () ∧
      ∃ token a, n.app.Accepts py e.mutation token ∧ n.app.authenticator = some a ∧
        a.Signs py e.mutation token
  disk : ∀ s, n.disk = some s → n.hasStore = true ∧ SameRecord s n.toSaved ∧
    ∀ e, Foreign role s e → ∃ token, s.app.Accepts py e.mutation token

/-- An event spares the prepared record: a request that it makes the replica serve carries a valid
signature of the actor of the record only with a lower nonce, and a restart is given the credential
of that actor that the node has. -/
def SparesPrepared (py : PyLib JsonNum) (role : Role) (n : ReferenceNode JsonNum)
    (ev : NodeEvent JsonNum) : Prop :=
  ∀ e token, Foreign role n.toSaved e → e.mutation.token py = .ok token →
    (∀ request a token', ev.served = some request →
      (n.app.loadCredential request.auth).authenticator = some a →
      a.check py request = .ok token' → token'.actor = token.actor → token'.nonce < token.nonce) ∧
    ∀ secrets a secret, ev = .restart secrets → n.app.authenticator = some a →
      a.secrets.get? token.actor = some secret → secrets.get? token.actor = some secret

lemma Promises.file (h : Promises py keys role n) : ∀ s, n.disk = some s → n.hasStore = true :=
  fun s hs => (h.disk s hs).1

/-- A new node has promised nothing. -/
lemma Promises.fresh (hboot : Ledger.Steady py boot) {a : Authenticator}
    {registry : Option (Dict String (Json JsonNum))} {hasStore : Bool} :
    Promises py keys role (Node.fresh ⟨boot, some a, registry⟩ hasStore) where
  ledgers := .fresh hboot
  memory e he := by cases he.1
  disk s hs := by cases hs

/-- A signature stays valid under more credentials. -/
lemma signs_mono {a b : Authenticator} {request : Request JsonNum} {token : Token}
    (h : a.Signs py request token)
    (hab : ∀ secret, a.secrets.get? token.actor = some secret →
      b.secrets.get? token.actor = some secret) : b.Signs py request token := by
  obtain ⟨secret, hsecret, hvalid⟩ := h
  exact ⟨secret, hab secret hsecret, hvalid⟩

/-- An event that rests keeps a promise. -/
lemma Promises.rests (h : Promises py keys role n) (hrests : Rests role n t)
    (hledgers : Ledgers (Ledger.Steady py) t) : Promises py keys role t where
  ledgers := hledgers
  memory e he := by
    rcases hrests.memory with hnone | ⟨hsame, hloads⟩
    · exact absurd he (hnone e)
    · obtain ⟨hverified, token, a, haccepts, ha, hsigns⟩ :=
        h.memory e ⟨hsame.pending.symm.trans he.1, he.2⟩
      obtain ⟨b, hb, hkept⟩ := hloads.secrets a ha
      exact ⟨(verifyEnvelope_congr hsame.nonces hsame.leader).trans hverified, token, b,
        haccepts.loads hloads, hb, signs_mono hsigns (hkept _)⟩
  disk s hs := by
    refine ⟨hrests.file s hs, ?_⟩
    rcases hrests.disk s hs with ⟨hold, hsame⟩ | ⟨hcalm, hsame⟩
    · obtain ⟨-, hrecord, haccepts⟩ := h.disk s hold
      exact ⟨hrecord.trans hsame, haccepts⟩
    · refine ⟨hsame, fun e he => ?_⟩
      rcases hcalm with hnone | ⟨hkept, hloads⟩
      · exact absurd he (hnone e)
      · obtain ⟨-, token, a, haccepts, -, -⟩ := h.memory e ⟨hkept.pending.symm.trans he.1, he.2⟩
        exact ⟨token, haccepts.loads hloads⟩

/-- **A preparation** makes a promise. -/
lemma Promises.prepares (h : Promises py keys role n) (hprepares : Prepares py keys role e n t)
    (hledgers : Ledgers (Ledger.Steady py) t) : Promises py keys role t := by
  have halike : ∀ l, Ledger.fromSnapshot py n.app.ledger.snapshot none = .ok l →
      l.Alike n.app.ledger :=
    fun l hl => (h.ledgers.memory.alike hl).symm
  obtain ⟨token, a, haccepts, ha, hsigns⟩ :=
    Application.accepts_of_trial hprepares.trial h.ledgers.authenticated halike
  have hforeign : ∀ e', Foreign role t.toSaved e' → e' = e := fun e' he' =>
    Option.some.inj (he'.1.symm.trans hprepares.pending)
  refine ⟨hledgers, fun e' he' => ?_, fun s hs => ⟨hprepares.file s hs, ?_⟩⟩
  · obtain rfl := hforeign e' he'
    exact ⟨(verifyEnvelope_congr hprepares.nonces hprepares.leader).trans hprepares.verified, token,
      a, haccepts, ha, hsigns⟩
  · obtain rfl := hprepares.disk s hs
    refine ⟨.refl _, fun e' he' => ⟨token, ?_⟩⟩
    obtain rfl := hforeign e' he'
    exact haccepts

/-- **A served request** keeps a promise, if its nonce does not reach the one of the record. -/
lemma Promises.serves (h : Promises py keys role n) {request : Request JsonNum}
    (hserves : Serves py request n t)
    (hlower : ∀ e token, Foreign role n.toSaved e → e.mutation.token py = .ok token →
      ∀ a token', (n.app.loadCredential request.auth).authenticator = some a →
      a.check py request = .ok token' → token'.actor = token.actor → token'.nonce < token.nonce)
    (hledgers : Ledgers (Ledger.Steady py) t) : Promises py keys role t where
  ledgers := hledgers
  memory e he := by
    have hold : Foreign role n.toSaved e := ⟨hserves.record.pending.symm.trans he.1, he.2⟩
    obtain ⟨hverified, token, a, haccepts, ha, hsigns⟩ := h.memory e hold
    refine ⟨(verifyEnvelope_congr hserves.record.nonces hserves.record.leader).trans hverified,
      token, ?_⟩
    have hledger := hserves.app.ledger_eq
    have hchecked := hserves.app
    obtain ⟨b, hb, hkept⟩ := (Application.loads_loadCredential n.app request.auth).secrets a ha
    have hload := Application.last_loadCredential n.app request.auth token.actor
    generalize t.app = app' at hledger hchecked ⊢
    have hnewer := haccepts.newer
    cases hchecked with
    | same => exact ⟨a, haccepts, ha, hsigns⟩
    | loaded =>
      exact ⟨b, haccepts.loads (Application.loads_loadCredential _ _), hb,
        signs_mono hsigns (hkept _)⟩
    | recorded b' token' hloaded hcheck =>
      obtain rfl : b' = b := Option.some.inj (hloaded.symm.trans hb)
      refine ⟨_, haccepts.of_alike ?_ (by rw [hledger]; exact .refl _), rfl,
        signs_mono hsigns (hkept _)⟩
      rw [Application.last_record hloaded]
      split_ifs with hactor
      · exact hlower e token hold haccepts.names b' token' hloaded hcheck hactor
      · exact hnewer
  disk s hs := by
    obtain ⟨hstore, hrecord, haccepts⟩ := h.disk s (hserves.disk ▸ hs)
    exact ⟨hserves.hasStore.trans hstore, hrecord.trans hserves.record, haccepts⟩

/-- **A restart** keeps a promise, if it is given the credential of the record's actor. -/
lemma Promises.restarted (h : Promises py keys role n) {secrets : Dict String String}
    (hstep : restarted py keys boot n secrets = some t)
    (hcredential : ∀ e token, Foreign role n.toSaved e → e.mutation.token py = .ok token →
      ∀ a secret, n.app.authenticator = some a → a.secrets.get? token.actor = some secret →
      secrets.get? token.actor = some secret)
    (hledgers : Ledgers (Ledger.Steady py) t) : Promises py keys role t := by
  cases hdisk : n.disk with
  | none =>
    unfold ReferenceNode.restarted at hstep
    split_ifs at hstep
    rw [hdisk] at hstep
    obtain rfl := Option.some.inj hstep
    exact ⟨hledgers, fun e he => (by cases he.1), fun s hs => (by cases hs)⟩
  | some s =>
    have hback := comesBack_of_restarted hdisk hstep
    obtain ⟨-, hrecord, haccepts⟩ := h.disk s hdisk
    obtain ⟨hauth, hsteady⟩ := h.ledgers.disk s hdisk
    have hleader : t.leadership.leader = s.leadership.leader := by rw [hback.leadership]
    have hsame : SameRecord s t.toSaved := ⟨hback.nonces, hback.pending, hleader⟩
    refine ⟨hledgers, fun e he => ?_, fun s' hs' => ?_⟩
    · have hold : Foreign role s e := ⟨hsame.pending.symm.trans he.1, he.2⟩
      have hnow : Foreign role n.toSaved e := ⟨hrecord.pending.trans hold.1, hold.2⟩
      obtain ⟨hverified, token, a, haccepts', ha, hsigns⟩ := h.memory e hnow
      obtain ⟨token', htoken'⟩ := haccepts e hold
      obtain rfl : token = token' := Except.ok.inj (haccepts'.names.symm.trans htoken'.names)
      obtain ⟨b, hb⟩ := Option.isSome_iff_exists.mp hauth
      refine ⟨(verifyEnvelope_congr (hback.nonces.trans hrecord.nonces.symm)
        (hleader.trans hrecord.leader.symm)).trans hverified, token, ⟨secrets, b.nonces⟩,
        htoken'.of_alike ?_ (hsteady.alike hback.ledger),
        by rw [hback.authenticator, hb]; rfl,
        signs_mono hsigns fun secret => hcredential e token hnow haccepts'.names a secret ha⟩
      rw [last_of_comesBack hback.authenticator]
      exact htoken'.newer
    · obtain rfl : s = s' := Option.some.inj (hback.disk.symm.trans hs')
      exact ⟨hback.hasStore, hsame, haccepts⟩

/-- **Every event that spares the record keeps the promise.** -/
theorem Promises.step {ev : NodeEvent JsonNum} (h : Promises py keys role n)
    (hboot : Ledger.Steady py boot)
    (hamounts : ∀ request, ev.carried = some request → request.NoFloats)
    (hspares : SparesPrepared py role n ev)
    (hstep : nodeStep py keys (some role) boot n ev = some t) : Promises py keys role t := by
  have hledgers := h.ledgers.steady_step hboot hamounts hstep
  by_cases hrestart : ∃ secrets, ev = .restart secrets
  · obtain ⟨secrets, rfl⟩ := hrestart
    exact h.restarted hstep (fun e token he htoken a secret => (hspares e token he htoken).2 secrets a
      secret rfl) hledgers
  · rw [not_exists] at hrestart
    cases hserved : ev.served with
    | some request =>
      exact h.serves (nodeStep_serves h.file hserved hstep) (fun e token he htoken a token' =>
        (hspares e token he htoken).1 request a token' hserved) hledgers
    | none =>
      rcases nodeStep_rests h.file hrestart hserved hstep with hrests | ⟨e, hprepares⟩
      · exact h.rests hrests hledgers
      · exact h.prepares hprepares hledgers

/-- A request of `alice` with a nonce. -/
def requestOfAlice (nonce : ℤ) (method : String) (params : Json JsonNum) : Request JsonNum :=
  let unsigned : Request JsonNum := ⟨.num (.int nonce), .str method, params, .null⟩
  { unsigned with auth := unsigned.sign jsonLib "alice" nonce "wonderland" }

/-- The leader's envelope for an offer of `alice`. -/
def offered : Envelope (Request JsonNum) :=
  let mutation := requestOfAlice 1 "offer"
    (.obj [("sender", .str "alice"), ("receiver", .str "bob"), ("value", .num (.int 2))])
  ⟨.primary, 1, mutation,
    (sharedKeys jsonLib "cluster").replication.signature .primary 1 mutation⟩

end ReferenceNode

end SplitChain
