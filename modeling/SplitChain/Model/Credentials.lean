import SplitChain.Model.NodeInvariants
import SplitChain.Model.NodeRuns

set_option relaxedAutoImplicit false
set_option autoImplicit false

/-!
# Where credentials come from

A node checks a request against the credential of its actor. It is started with some credentials
and reads others from the registry of the operator when it first needs them. Nothing else gives it
one: whatever requests and messages it gets, every credential that it holds has been given to it by
the operator, for the actor that it stands for.

## Main definitions

* `SplitChain.Application.Lasting` — a property that no request can break.
* `SplitChain.Application.Holds` — an application holds given credentials only.
* `SplitChain.ReferenceNode.Given` — what the operator has given in a run.

## Main results

* `SplitChain.ReferenceNode.lasting_step` — events keep what no request can break.
* `SplitChain.ReferenceNode.holds_step` — a node holds given credentials only.
-/

namespace SplitChain

open Raise Proc

variable {ν : Type} [PyNumber ν]

namespace Application

/-! ## What no request can break -/

/-- A property of applications that is kept when a credential is loaded, a nonce is recorded or the
ledger is replaced. -/
structure Lasting (P : Application ν → Prop) : Prop where
  load : ∀ {app : Application ν} (auth : Json ν), P app → P (app.loadCredential auth)
  record : ∀ {app : Application ν} {a : Authenticator} (token : Token), P app →
    app.authenticator = some a → P (app.setAuthenticator (a.record token))
  ledger : ∀ {app : Application ν} (l : Ledger ν), P app → P (app.setLedger l)

namespace Lasting

variable {P : Application ν → Prop} {py : PyLib ν} {app t : Application ν} {request : Request ν}

/-- A check keeps it. -/
lemma checked (h : Lasting P) (happ : P app) (hchecked : app.Checked py request t) : P t := by
  cases hchecked with
  | same => exact happ
  | loaded => exact h.load _ happ
  | recorded a token hloaded _ => exact h.record token (h.load _ happ) hloaded

/-- So does establishing the actor of a request. -/
lemma established {record : Bool} (h : Lasting P) (happ : P app)
    (hestablished : Established py app request record t) : P t := by
  cases hestablished with
  | unchecked _ => exact happ
  | admitted a token hadmits =>
    have hload := h.load request.auth happ
    cases record with
    | false =>
      rw [recordIf, if_neg Bool.false_ne_true, setAuthenticator_of_eq hadmits.loaded]
      exact hload
    | true => exact h.record token hload hadmits.loaded

/-- The check of the actor keeps it. -/
lemma preserves_verifyRequestActor (h : Lasting P) (request : Request ν) :
    Preserves P (verifyRequestActor py request true) := by
  intro app happ
  refine (ends_verifyRequestActor py app request true).mono ?_ fun _ t ht => h.checked happ ht.1
  rintro _ t (⟨-, -, rfl⟩ | ⟨-, rfl⟩ | ⟨a, token, hadmits, rfl⟩)
  · exact happ
  · exact happ
  · exact h.established happ (.admitted a token hadmits)

/-- A method keeps it. -/
lemma preserves_runMethod (h : Lasting P) (method : Method) (params : Json ν) :
    Preserves P (runMethod py method params) := fun _ happ =>
  ends_runMethod.mpr ⟨fun l _ _ => h.ledger l happ, fun _ _ => happ⟩

/-- The application of a mutation keeps it. -/
lemma preserves_applyMutation (h : Lasting P) (request : Request ν) (record : Bool) :
    Preserves P (applyMutation py request record) := by
  intro app happ
  refine (ends_applyMutation py app request record).mono ?_ ?_
  · rintro _ t ⟨method, l, app', happlied, rfl⟩
    exact h.ledger l (h.established happ happlied.established)
  · rintro _ t (rfl | rfl)
    · exact happ
    · exact h.load _ happ

/-- So does its trial. -/
lemma preserves_tryMutation (h : Lasting P) (request : Request ν) :
    Preserves P (tryMutation py request) := by
  intro app happ
  refine (ends_tryMutation py app request).mono ?_ ?_
  · rintro _ t ⟨rfl, -⟩
    exact h.load _ happ
  · rintro _ t (rfl | rfl)
    · exact happ
    · exact h.load _ happ

end Lasting

end Application

/-! ## Nodes -/

namespace ReferenceNode

/-- A property of the application in the memory of a node. -/
def Has (P : Application ν → Prop) (n : ReferenceNode ν) : Prop := P n.app

section Operations

variable {P : Application ν → Prop} {py : PyLib ν} {keys : Keyring (Request ν)} {role : Role}
  {request : Request ν}

omit [PyNumber ν] in
/-- A computation on the application. -/
lemma preserves_onApp {α : Type} {x : EStateM PyError (Application ν) α} (hx : Preserves P x) :
    Preserves (Has P) (Node.onApp (μ := Request ν) x) :=
  hx.onPart (fun _ h => h) fun _ _ _ ht => ht

omit [PyNumber ν] in
/-- A save leaves the application as it is. -/
lemma has_saved {n : ReferenceNode ν} (hn : Has P n) : Has P n.saved := by
  have happ : n.saved.app = n.app := congrArg (fun s => s.app) (Node.toSaved_saved n)
  exact (congrArg P happ).mpr hn

/-- What no request can break is kept by every part of an operation. -/
lemma stable_has (h : Application.Lasting P) : Node.Stable (ledgerApp py) keys (Has P) where
  saved _ hn := has_saved hn
  pending _ _ hn := hn
  leadership _ _ _ hn := hn
  trial mutation := preserves_onApp (h.preserves_tryMutation mutation)
  commit envelope := preserves_onApp (h.preserves_applyMutation envelope.mutation true)

/-- A request that the node serves itself. -/
lemma preserves_serve (h : Application.Lasting P) {saves : Bool} :
    Preserves (Has P) (serve py saves request) := by
  have hsave : Preserves (Has P) (Node.save saves) := fun n hn =>
    Node.ends_save.mpr ⟨fun _ => has_saved hn, fun _ => hn⟩
  refine .bind (preserves_onApp (h.preserves_verifyRequestActor request)) fun _ => ?_
  split
  · exact .bind (preserves_onApp (h.preserves_runMethod _ _)) fun _ =>
      .bind hsave fun _ => preserves_pure _
  · split
    · exact Node.preserves_get fun _ => preserves_pure _
    · exact preserves_pure _
    · exact preserves_throw _

/-- Any request. -/
lemma preserves_handle (h : Application.Lasting P) {self : Option Role}
    {peer : Option PeerIdentity} {o : Node.Outcome} :
    Preserves (Has P) (handle py keys self peer o request) := by
  refine .bind (preserves_lift _) fun _ => ?_
  split_ifs
  · exact preserves_pure _
  · split
    · refine Node.preserves_get fun n => ?_
      split_ifs
      · exact .bind (stable_has h).preserves_replicateMutation fun _ => preserves_pure _
      · exact preserves_pure _
    · exact .bind (preserves_serve h) fun _ => preserves_pure _

end Operations

/-! ## Events -/

variable {P : Application ν → Prop} {py : PyLib ν} {keys : Keyring (Request ν)}
  {self : Option Role} {boot : Ledger ν} {n t : ReferenceNode ν} {e : NodeEvent ν} [DecidableEq ν]

/-- **What no request can break** is kept by every event but a new registry and a restart. -/
theorem lasting_step (h : Application.Lasting P) (hregistry : ∀ file, e ≠ .registry file)
    (hrestart : ∀ secrets, e ≠ .restart secrets) (hstep : nodeStep py keys self boot n e = some t)
    (hn : P n.app) : P t.app := by
  have hstable : Node.Stable (ledgerApp py) keys (Has P) := stable_has h
  have hrun : ∀ {α : Type} {x : EStateM PyError (ReferenceNode ν) α}, Preserves (Has P) x →
      P (after x n).app := fun hx => after_iff.mpr (hx n hn)
  -- An event that needs a role is not enabled without one.
  have hrole : ∀ {f : Role → ReferenceNode ν}, self.map f = some t → (∀ role, P (f role).app) →
      P t.app := by
    intro f hmap hf
    obtain ⟨role, -, rfl⟩ := Option.map_eq_some_iff.mp hmap
    exact hf role
  cases e with
  | request peer acknowledged confirmed request =>
    obtain rfl := Option.some.inj hstep
    exact (dispatch_iff (P := fun t _ => P t.app)).mpr (preserves_handle h n hn)
  | prepare envelope => exact hrole hstep fun _ => hrun hstable.preserves_prepareReplica
  | commit envelope => exact hrole hstep fun _ => hrun hstable.preserves_commitReplica
  | abort envelope => exact hrole hstep fun _ => hrun hstable.preserves_abortReplica
  | heartbeat heartbeat => exact hrole hstep fun _ => hrun hstable.preserves_receiveHeartbeat
  | certificate certificate => exact hrole hstep fun _ => hrun hstable.preserves_recordCertificate
  | startClock tick => exact hrole hstep fun _ => hrun hstable.preserves_startClock
  | recordBeat tick => exact hrole hstep fun _ => hrun hstable.preserves_recordBeat
  | abortUncommitted => exact hrole hstep fun _ => hrun hstable.preserves_abortUncommitted
  | propose mutation => exact hrole hstep fun _ => hrun hstable.preserves_propose
  | abandon => exact hrole hstep fun _ => hrun hstable.preserves_abandon
  | commitLocal envelope => exact hrole hstep fun _ => hrun hstable.preserves_commitLocal
  | registry file => exact absurd rfl (hregistry file)
  | restart secrets => exact absurd rfl (hrestart secrets)

end ReferenceNode

/-! ## Given credentials -/

namespace Application

/-- The registry holds a credential of an actor. -/
def Lists (file : Dict String (Json ν)) (actor secret : String) : Prop :=
  (file.get? actor).bind Json.str? = some secret

/-- **An application holds given credentials only**, and so does the registry that it reads. -/
structure Holds (given : String → String → Prop) (app : Application ν) : Prop where
  secrets : ∀ a, app.authenticator = some a → ∀ actor secret,
    a.secrets.get? actor = some secret → given actor secret
  registry : ∀ file, app.registry = some file → ∀ actor secret, Lists file actor secret →
    given actor secret

variable {given : String → String → Prop} {app : Application ν}

omit [PyNumber ν] in
/-- A credential that has been loaded stands in the registry. -/
lemma Holds.loadCredential (h : Holds given app) (auth : Json ν) :
    Holds given (app.loadCredential auth) := by
  unfold Application.loadCredential
  split
  · next a file actor ha hfile _ =>
    split_ifs with hknown
    · exact h
    · split
      · next secret hsecret =>
        split_ifs
        · refine ⟨fun b hb actor' secret' hs => ?_, h.registry⟩
          obtain rfl := Option.some.inj hb
          rw [Authenticator.addActor, Dict.get?_set] at hs
          split_ifs at hs with hactor
          · obtain rfl := Option.some.inj hs
            exact hactor ▸ h.registry file hfile actor secret hsecret
          · exact h.secrets a ha actor' secret' hs
        · exact h
      · exact h
  · exact h

omit [PyNumber ν] in
/-- No request can give a node a credential. -/
lemma lasting_holds (given : String → String → Prop) :
    Lasting (Holds given : Application ν → Prop) where
  load auth h := h.loadCredential auth
  record token h ha := by
    refine ⟨fun b hb => ?_, h.registry⟩
    obtain rfl := Option.some.inj hb
    exact fun actor secret hs => h.secrets _ ha actor secret hs
  ledger _ h := ⟨h.secrets, h.registry⟩

end Application

namespace ReferenceNode

/-- The credentials that an event brings have been given. -/
def Provides (given : String → String → Prop) : NodeEvent ν → Prop
  | .registry file => ∀ f, file = some f → ∀ actor secret, Application.Lists f actor secret →
      given actor secret
  | .restart secrets => ∀ actor secret, secrets.get? actor = some secret → given actor secret
  | _ => True

/-- **What the operator gives a node in a run**: the credentials that it is started with, now or
later, and those in its registry, now or later. -/
def Given (secrets : Dict String String) (registry : Option (Dict String (Json ν)))
    (events : List (NodeEvent ν)) (actor secret : String) : Prop :=
  secrets.get? actor = some secret ∨
    (∃ file, (registry = some file ∨ .registry (some file) ∈ events) ∧
      Application.Lists file actor secret) ∨
    ∃ later, .restart later ∈ events ∧ later.get? actor = some secret

variable {py : PyLib ν} {keys : Keyring (Request ν)} {self : Option Role} {boot : Ledger ν}
  {given : String → String → Prop} {n t : ReferenceNode ν} {e : NodeEvent ν}
  {secrets : Dict String String} {registry : Option (Dict String (Json ν))}
  {events : List (NodeEvent ν)}

omit [PyNumber ν] in
/-- The events of a run bring what the operator gives in it. -/
lemma provides_of_mem (he : e ∈ events) : Provides (Given secrets registry events) e := by
  cases e with
  | registry file => exact fun f hf actor secret hs => .inr (.inl ⟨f, .inr (hf ▸ he), hs⟩)
  | restart later => exact fun actor secret hs => .inr (.inr ⟨later, he, hs⟩)
  | _ => trivial

/-- **A node holds given credentials only**, after every event that brings no others. -/
theorem holds_step [DecidableEq ν] (h : n.app.Holds given) (hprovides : Provides given e)
    (hstep : nodeStep py keys self boot n e = some t) : t.app.Holds given := by
  by_cases hregistry : ∃ file, e = .registry file
  · obtain ⟨file, rfl⟩ := hregistry
    obtain rfl := Option.some.inj hstep
    exact ⟨h.secrets, fun f hf => hprovides f hf⟩
  by_cases hrestart : ∃ later, e = .restart later
  · obtain ⟨later, rfl⟩ := hrestart
    cases hdisk : n.disk with
    | none =>
      have hstep : restarted py keys boot n later = some t := hstep
      unfold restarted at hstep
      split_ifs at hstep
      rw [hdisk] at hstep
      obtain rfl := Option.some.inj hstep
      refine ⟨fun a ha => ?_, h.registry⟩
      obtain ⟨_, -, rfl⟩ := Option.map_eq_some_iff.mp ha
      exact hprovides
    | some s =>
      have hback := comesBack_of_restarted hdisk hstep
      refine ⟨fun a ha => ?_, fun file hfile => h.registry file (hback.registry ▸ hfile)⟩
      rw [hback.authenticator] at ha
      obtain ⟨_, -, rfl⟩ := Option.map_eq_some_iff.mp ha
      exact hprovides
  · rw [not_exists] at hregistry hrestart
    exact lasting_step (Application.lasting_holds given) hregistry hrestart hstep h

omit [PyNumber ν] in
/-- A new node holds the credentials that it is given. -/
lemma holds_fresh {hasStore : Bool} :
    (Node.fresh ⟨boot, some ⟨secrets, ∅⟩, registry⟩ hasStore : ReferenceNode ν).app.Holds
      (Given secrets registry events) where
  secrets a ha actor secret hs := by
    obtain rfl := Option.some.inj ha
    exact .inl hs
  registry file hfile actor secret hs := .inr (.inl ⟨file, .inl hfile, hs⟩)

end ReferenceNode

end SplitChain
