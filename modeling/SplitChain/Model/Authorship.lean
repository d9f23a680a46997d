import Mathlib.Data.Fintype.EquivFin
import SplitChain.Model.RawReplica

set_option relaxedAutoImplicit false
set_option autoImplicit false

/-!
# Whose messages move a replica

The three calls that move a replica carry one envelope, and what is signed of it is neither the call
nor the members that `verify` does not read. This file has a party that has recorded what the
leaders have sent, can send any call with any envelope whose signature it has seen, and forges none.
It moves the replica to something that the leader has not sent exactly when the replica is
exposed: an envelope that it would prepare can be altered first, and one that it has prepared can be
aborted, or committed, before the leader says so.

## Main definitions

* `SplitChain.ReplicaMethod`, `SplitChain.SentMessage`, `SplitChain.Sent` — what leaders have sent.
* `SplitChain.Derivable` — envelopes without new signatures.
* `SplitChain.RawNode.deliver` — a call that arrives, from a peer with a certificate or without.
* `SplitChain.RawNode.Exposed` — the replica can be moved by somebody else.

## Main results

* `SplitChain.RawNode.only_leader_moves_iff` — only the leader moves a replica that is not exposed.
* `SplitChain.RawNode.prepare_replayed_as_commit` — a prepared envelope that is committed by another
  node.
-/

namespace SplitChain

open Raise Proc

variable {ν : Type} [PyNumber ν] {A ρ : Type}

/-! ## Messages -/

/-- The calls that move a replica. -/
inductive ReplicaMethod where
  | prepare | commit | abort
deriving DecidableEq

/-- The name of a call. -/
def ReplicaMethod.name : ReplicaMethod → String
  | prepare => "replica.prepare"
  | commit => "replica.commit"
  | abort => "replica.abort"

/-- A call that a leader has sent to its replicas. -/
structure SentMessage (ν : Type) where
  sender : Role
  method : ReplicaMethod
  envelope : RawEnvelope ν

/-- The sender has sent this call with this envelope. -/
def Sent (history : List (SentMessage ν)) (sender : Role) (method : ReplicaMethod)
    (envelope : RawEnvelope ν) : Prop :=
  ∃ m ∈ history, m.sender = sender ∧ m.method = method ∧ envelope.eqv m.envelope = true

/-- An envelope that can be made without a new signature: if it is signed, its leader has signed the
same bytes in a message that has been sent. -/
def Derivable (py : PyLib ν) (scheme : EnvelopeScheme) (history : List (SentMessage ν))
    (envelope : RawEnvelope ν) : Prop :=
  ∀ m, envelope.read py = .ok m → scheme.verify m.leader (m.bytes py) m.signature = .ok true →
    ∃ sent ∈ history, sent.sender.value = m.leader ∧
      ∃ m', sent.envelope.read py = .ok m' ∧ m'.bytes py = m.bytes py

/-- The roles of the peer allow it to call a replica; a peer without a certificate is not asked for
any. -/
def Permitted (peer : Option PeerIdentity) : Prop :=
  ∀ p, peer = some p → ∃ role ∈ PeerIdentity.nodeRoles, role ∈ p.roles

/-- A peer is refused exactly where it is not permitted. -/
lemma authorize_eq_ok {p : PeerIdentity} {method : ReplicaMethod} :
    p.authorize method.name = .ok () ↔ ∃ role ∈ PeerIdentity.nodeRoles, role ∈ p.roles := by
  have hroles : PeerIdentity.methodRoles method.name = PeerIdentity.nodeRoles := by
    cases method <;> rfl
  simp only [PeerIdentity.authorize, hroles, require_eq_ok, List.any_eq_true, decide_eq_true_iff]

namespace RawNode

variable (py : PyLib ν) (scheme : EnvelopeScheme) (app : App A (Json ν) ρ) (role : Role)

/-- A call to a replica, without its answer. -/
def call (saves : Bool) (method : ReplicaMethod) (envelope : RawEnvelope ν) :
    EStateM PyError (RawNode A ν) Unit :=
  match method with
  | .prepare => discard (prepareReplica py scheme app role saves envelope)
  | .commit => discard (commitReplica py scheme app role saves envelope)
  | .abort => discard (abortReplica py scheme role saves envelope)

/-- A call that arrives. -/
def deliver (peer : Option PeerIdentity) (saves : Bool) (method : ReplicaMethod)
    (envelope : RawEnvelope ν) : EStateM PyError (RawNode A ν) Unit := do
  if let some p := peer then
    lift (p.authorize method.name)
  call py scheme app role saves method envelope

/-- The prepared record or the log has changed. -/
def Moves (n t : RawNode A ν) : Prop :=
  t.replicationPending ≠ n.replicationPending ∨ t.replicationLog ≠ n.replicationLog

/-- **Exposed replicas.** Where nothing is prepared: there is a signed envelope for a later position
that the replica would prepare, or that would make it forget an empty record. Where an envelope
is prepared: the leader has not sent an abort of it; or no commit of it, and it can be applied. -/
def Exposed (history : List (SentMessage ν)) (n : RawNode A ν) : Prop :=
  match n.prepared with
  | none => ∃ envelope m, Derivable py scheme history envelope ∧
      verifyEnvelope py scheme role n envelope = .ok m ∧
      (n.replicationPending ≠ none ∨ ∃ a, app.trial m.mutation n.app = .ok () a)
  | some pending => ∃ envelope m, Derivable py scheme history envelope ∧
      verifyEnvelope py scheme role n envelope = .ok m ∧ pending.eqv envelope = true ∧
      (¬ Sent history n.leadership.leader .abort envelope ∨
        (¬ Sent history n.leadership.leader .commit envelope ∧
          ∃ r a, app.apply m.mutation n.app = .ok r a))

section Moves

variable {py : PyLib ν} {scheme : EnvelopeScheme} {app : App A (Json ν) ρ} {role : Role}
  {saves : Bool} {n : RawNode A ν} {envelope : RawEnvelope ν} {m : SignedMutation ν}
  {history : List (SentMessage ν)} {peer : Option PeerIdentity} {method : ReplicaMethod}

/-! ## Which calls move a replica -/

omit [PyNumber ν] in
lemma moves_stored {n t : RawNode A ν} : Moves n (t.stored saves) ↔ Moves n t := by
  unfold Moves
  rw [toRawSaved_stored]

/-- An envelope that has been verified can be read. -/
lemma read_of_verifyEnvelope (h : verifyEnvelope py scheme role n envelope = .ok m) :
    envelope.read py = .ok m :=
  (RawEnvelope.verify_eq_ok.mp (verify_of_verifyEnvelope h)).1

/-- **Preparing** moves a replica that has nothing prepared and whose trial returns. -/
lemma moves_prepareReplica :
    Moves n (after (prepareReplica py scheme app role saves envelope) n) ↔
      ∃ m a, Prepares py scheme app role n envelope m a := by
  constructor
  · intro h
    by_contra hnot
    push Not at hnot
    obtain ⟨a, ha⟩ := after_prepareReplica_of_not saves hnot
    rw [ha] at h
    exact h.elim (fun hp => hp rfl) fun hl => hl rfl
  · rintro ⟨m, a, h⟩
    rw [after_prepareReplica h, moves_stored]
    refine .inl fun heq => ?_
    -- the record that was there would count as one
    have hfree := h.free
    rw [prepared, show n.replicationPending = some envelope from heq.symm, Option.filter_some,
      if_pos (RawEnvelope.truthy_of_read (read_of_verifyEnvelope h.verified))] at hfree
    cases hfree

/-- **Committing** moves a replica that carries it out. -/
lemma moves_commitReplica :
    Moves n (after (commitReplica py scheme app role saves envelope) n) ↔
      ∃ m r a, Commits py scheme app role n envelope m r a := by
  constructor
  · intro h
    by_contra hnot
    push Not at hnot
    obtain ⟨a, ha⟩ := after_commitReplica_of_not saves hnot
    rw [ha] at h
    exact h.elim (fun hp => hp rfl) fun hl => hl rfl
  · rintro ⟨m, r, a, h⟩
    rw [after_commitReplica h, moves_stored]
    exact .inr fun heq => List.cons_ne_nil _ _ (List.append_right_eq_self.mp heq)

/-- **Aborting** moves a replica that has a record, and carries it out. -/
lemma moves_abortReplica :
    Moves n (after (abortReplica py scheme role saves envelope) n) ↔
      n.replicationPending ≠ none ∧ ∃ m, Aborts py scheme role n envelope m := by
  constructor
  · intro h
    by_cases hex : ∃ m, Aborts py scheme role n envelope m
    · obtain ⟨m, hm⟩ := hex
      rw [after_abortReplica hm, moves_stored] at h
      exact ⟨fun hnone => h.elim (fun hp => hp hnone.symm) fun hl => hl rfl, m, hm⟩
    · push Not at hex
      rw [after_abortReplica_of_not hex] at h
      exact (h.elim (fun hp => hp rfl) fun hl => hl rfl).elim
  · rintro ⟨hsome, m, hm⟩
    rw [after_abortReplica hm, moves_stored]
    exact .inl fun heq => hsome heq.symm

/-- The answer of a call is of no interest. -/
lemma after_call : after (call py scheme app role saves method envelope) n = match method with
    | .prepare => after (prepareReplica py scheme app role saves envelope) n
    | .commit => after (commitReplica py scheme app role saves envelope) n
    | .abort => after (abortReplica py scheme role saves envelope) n := by
  cases method <;> exact after_eq_iff.mpr (ends_map.mpr (after_eq_iff.mp rfl))

/-- A peer that is permitted makes its call. -/
lemma after_deliver (h : Permitted peer) :
    after (deliver py scheme app role peer saves method envelope) n =
      after (call py scheme app role saves method envelope) n := by
  cases peer with
  | none => rfl
  | some p =>
    refine after_eq_iff.mpr ?_
    unfold deliver
    rw [ends_bind, ends_guard]
    have hok : p.authorize method.name = .ok () := authorize_eq_ok.mpr (h p rfl)
    exact ⟨fun e he => (nomatch hok.symm.trans he), fun _ => after_eq_iff.mp rfl⟩

/-- A peer that is not permitted is refused. -/
lemma after_deliver_of_not (h : ¬ Permitted peer) :
    after (deliver py scheme app role peer saves method envelope) n = n := by
  simp only [Permitted, not_forall] at h
  obtain ⟨p, rfl, hp⟩ := h
  refine after_eq_iff.mpr ?_
  unfold deliver
  rw [ends_bind, ends_guard]
  exact ⟨fun _ _ => rfl, fun hok => absurd (authorize_eq_ok.mp hok) hp⟩

/-! ## An envelope that is altered -/

/-- **An altered envelope.** A member with a new key makes an envelope that is read in the same way,
and that nobody has sent. -/
lemma exists_altered (py : PyLib ν) (scheme : EnvelopeScheme) (role : Role)
    (history : List (SentMessage ν)) (e : RawEnvelope ν) : ∃ f : RawEnvelope ν,
      f.read py = e.read py ∧
      (∀ n : RawNode A ν, verifyEnvelope py scheme role n f =
        verifyEnvelope py scheme role n e) ∧
      ∀ sender method, ¬ Sent history sender method f := by
  let taken : List String := ["leader", "nonce", "mutation", "signature"] ++
    history.flatMap fun m => m.envelope.members.keys
  obtain ⟨key, hkey⟩ := Infinite.exists_notMem_finset taken.toFinset
  rw [List.mem_toFinset, List.mem_append, not_or] at hkey
  obtain ⟨hread, hfresh⟩ := hkey
  refine ⟨e.set key .null, e.read_set .null hread, fun n => ?_, ?_⟩
  · unfold verifyEnvelope
    have hleader : (e.set key .null).members.getD "leader" .null =
        e.members.getD "leader" .null := by
      have hne : key ≠ "leader" := fun h => hread (h ▸ List.mem_cons_self)
      simp only [Dict.getD, RawEnvelope.set, Dict.get?_set_of_ne _ _ hne]
    rw [hleader, e.verify_set .null hread]
  · rintro sender method ⟨m, hm, -, -, heqv⟩
    refine hfresh (List.mem_flatMap.mpr ⟨m, hm, ?_⟩)
    exact RawEnvelope.contains_of_eqv heqv (Dict.get?_set_self _ _ _)

/-- What can be derived is what is read. -/
lemma derivable_congr {e f : RawEnvelope ν} (h : Derivable py scheme history e)
    (hread : f.read py = e.read py) : Derivable py scheme history f := fun m hm =>
  h m (hread ▸ hm)

/-! ## Whose messages move a replica -/

/-- A replica that is not exposed is moved by what its leader has sent. -/
lemma sent_of_moves (h : ¬ Exposed py scheme app role history n)
    (hderivable : Derivable py scheme history envelope)
    (hmoves : Moves n (after (call py scheme app role saves method envelope) n)) :
    Sent history n.leadership.leader method envelope := by
  rw [after_call] at hmoves
  unfold Exposed at h
  cases method with
  | prepare =>
    obtain ⟨m, a, hm⟩ := moves_prepareReplica.mp hmoves
    rw [hm.free] at h
    exact (h ⟨envelope, m, hderivable, hm.verified, .inr ⟨a, hm.tried⟩⟩).elim
  | commit =>
    obtain ⟨m, r, a, hm⟩ := moves_commitReplica.mp hmoves
    obtain ⟨pending, hpending, heqv⟩ := (Option.any_eq_true _ _).mp hm.matching
    have htruthy : pending.truthy = true := by
      by_contra hfalse
      rw [Bool.not_eq_true] at hfalse
      rw [RawEnvelope.eqv_of_not_truthy hfalse
        (RawEnvelope.truthy_of_read (read_of_verifyEnvelope hm.verified))] at heqv
      cases heqv
    rw [prepared, hpending, Option.filter_some, if_pos htruthy] at h
    by_contra hnot
    exact h ⟨envelope, m, hderivable, hm.verified, heqv, .inr ⟨hnot, r, a, hm.applied⟩⟩
  | abort =>
    obtain ⟨hsome, m, hm⟩ := moves_abortReplica.mp hmoves
    have hmatching := hm.matching
    cases hprepared : n.prepared with
    | none =>
      rw [hprepared] at h
      exact (h ⟨envelope, m, hderivable, hm.verified, .inl hsome⟩).elim
    | some pending =>
      rw [hprepared] at h hmatching
      by_contra hnot
      refine h ⟨envelope, m, hderivable, hm.verified, ?_, .inl hnot⟩
      simpa using hmatching

/-- A replica that is exposed can be moved by what its leader has not sent. -/
lemma exists_moves_of_exposed (h : Exposed py scheme app role history n) :
    ∃ method envelope, Derivable py scheme history envelope ∧
      Moves n (after (call py scheme app role saves method envelope) n) ∧
      ¬ Sent history n.leadership.leader method envelope := by
  unfold Exposed at h
  cases hprepared : n.prepared with
  | none =>
    rw [hprepared] at h
    obtain ⟨e, m, hderivable, hverified, hmoved⟩ := h
    obtain ⟨f, hread, hsame, hnew⟩ := exists_altered py scheme role history e
    rw [← hsame] at hverified
    rcases hmoved with hsome | ⟨a, ha⟩
    · refine ⟨.abort, f, derivable_congr hderivable hread, ?_, hnew _ _⟩
      rw [after_call]
      exact moves_abortReplica.mpr ⟨hsome, m, hverified, by rw [hprepared]; rfl⟩
    · refine ⟨.prepare, f, derivable_congr hderivable hread, ?_, hnew _ _⟩
      rw [after_call]
      exact moves_prepareReplica.mpr ⟨m, a, hverified, hprepared, ha⟩
  | some pending =>
    rw [hprepared] at h
    obtain ⟨e, m, hderivable, hverified, heqv, hnot⟩ := h
    obtain ⟨hpending, htruthy⟩ := Option.filter_eq_some_iff.mp hprepared
    rcases hnot with hnot | ⟨hnot, r, a, ha⟩
    · refine ⟨.abort, e, hderivable, ?_, hnot⟩
      rw [after_call]
      refine moves_abortReplica.mpr ⟨by rw [hpending]; exact nofun, m, hverified, ?_⟩
      rw [hprepared, Option.any_some, heqv]
      rfl
    · refine ⟨.commit, e, hderivable, ?_, hnot⟩
      rw [after_call]
      refine moves_commitReplica.mpr ⟨m, r, a, hverified, ?_, ha⟩
      rw [hpending, Option.any_some, heqv]

end Moves

/-- **Only the leader moves a replica** that is not exposed, or that the party may not call: each
call that can be made without a new signature, and that changes the record or the log, has been sent
by the leader with the same envelope. A replica that is exposed to a party that may call it can be
moved otherwise.

**Proof sketch.** A call moves the replica only where it is exposed, or where the leader has sent
it. Conversely, what would be prepared is altered with a member that is not read, and what has been
prepared is aborted or committed. -/
theorem only_leader_moves_iff (py : PyLib ν) (scheme : EnvelopeScheme) (app : App A (Json ν) ρ)
    (role : Role) (peer : Option PeerIdentity) (saves : Bool) (history : List (SentMessage ν))
    (n : RawNode A ν) :
    (∀ method envelope, Derivable py scheme history envelope →
        Moves n (after (deliver py scheme app role peer saves method envelope) n) →
        Sent history n.leadership.leader method envelope) ↔
      ¬ (Permitted peer ∧ Exposed py scheme app role history n) := by
  constructor
  · rintro h ⟨hpermitted, hexposed⟩
    obtain ⟨method, envelope, hderivable, hmoves, hnot⟩ :=
      exists_moves_of_exposed hexposed
    refine hnot (h method envelope hderivable ?_)
    rw [after_deliver hpermitted]
    exact hmoves
  · intro h method envelope hderivable hmoves
    by_cases hpermitted : Permitted peer
    · rw [after_deliver hpermitted] at hmoves
      exact sent_of_moves (fun hexposed => h ⟨hpermitted, hexposed⟩) hderivable hmoves
    · rw [after_deliver_of_not hpermitted] at hmoves
      exact (hmoves.elim (fun hp => hp rfl) fun hl => hl rfl).elim

/-! ## A record that another node commits -/

section Example

open Ledger (integerLib)

/-- The secret of the cluster. -/
def clusterSecret : String := "a secret of the cluster, long enough"

/-- An offer of `alice`, as the leader signs it. -/
def signedOffer : RawEnvelope ℤ :=
  let mutation : Json ℤ := .obj [("method", .str "offer"),
    ("params", .obj [("sender", .str "alice"), ("receiver", .str "bob"), ("value", .num 2)])]
  let signature := integerLib.hmacSha256 clusterSecret
    (canonicalJson integerLib (envelopePayload "primary" 1 mutation))
  ⟨Dict.ofList [("leader", .str "primary"), ("mutation", mutation), ("nonce", .num 1),
    ("signature", .str signature)]⟩

/-- A replica to which the leader has sent the offer to be prepared. -/
def preparedReplica : RawNode (Application ℤ) ℤ :=
  after (prepareReplica integerLib (.ofSecret integerLib clusterSecret) (documentApp integerLib)
    .secondary true signedOffer)
    (fresh ⟨Ledger.ofBalances integerLib (Dict.ofList [("alice", 10), ("bob", 0)]), none, none⟩
      true)

/-- The leader has sent the offer to be prepared, and nothing else; the Tertiary sends the same
envelope to be committed, and the Secondary commits it. -/
theorem prepare_replayed_as_commit :
    preparedReplica.replicationPending = some signedOffer ∧
      Derivable integerLib (.ofSecret integerLib clusterSecret) [⟨.primary, .prepare, signedOffer⟩]
        signedOffer ∧
      Moves preparedReplica (after (deliver integerLib (.ofSecret integerLib clusterSecret)
        (documentApp integerLib) .secondary (some ⟨"tertiary", ["tertiary"]⟩) true .commit
        signedOffer) preparedReplica) ∧
      ¬ Sent [⟨.primary, .prepare, signedOffer⟩] preparedReplica.leadership.leader .commit
        signedOffer := by
  have hmoved : preparedReplica.replicationPending = some signedOffer ∧
      (after (deliver integerLib (.ofSecret integerLib clusterSecret)
        (documentApp integerLib) .secondary (some ⟨"tertiary", ["tertiary"]⟩) true .commit
        signedOffer) preparedReplica).replicationLog ≠ preparedReplica.replicationLog := by
    decide +kernel
  refine ⟨hmoved.1, fun m hm _ => ⟨_, List.mem_singleton_self _, ?_, m, hm, rfl⟩,
    .inr hmoved.2, ?_⟩
  · obtain rfl := Except.ok.inj hm
    rfl
  · rintro ⟨m, hm, -, hmethod, -⟩
    rw [List.mem_singleton.mp hm] at hmethod
    cases hmethod

end Example

end RawNode

end SplitChain
