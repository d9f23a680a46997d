import SplitChain.Model.JsonRequests
import SplitChain.Model.Reloading
import SplitChain.Model.Twins

set_option relaxedAutoImplicit false
set_option autoImplicit false

/-!
# Continuing after a restart

A standalone node with a file and an authenticator answers requests, is stopped, and is started
again from the file. What it has saved is the state after the last request that it has executed: the
ledger is the one in memory, but the nonces of requests that came later, and were refused by the
ledger or had no method, are forgotten. The restarted node is a twin of the one that goes on without
a restart, and decides like it until a request divides the two.

The amounts of these sequences are no floats: what a reload makes of a locked float, and what the
interpreter makes of a sum of floats, is rounded.

## Main definitions

* `SplitChain.ReferenceNode.Solo` — the invariant of a standalone node.
* `SplitChain.ReferenceNode.Durable` — the invariant of one that can be restarted.
* `SplitChain.ReferenceNode.Transparent` — the restarted node decides like the one that goes on.

## Main results

* `SplitChain.ReferenceNode.restart_transparent_iff` — when a restart makes no difference.
-/

namespace SplitChain

open Raise Proc

open PyNumber (val trunc)

variable {ν : Type} [PyNumber ν]

namespace ReferenceNode

open Application

/-! ## The invariant -/

/-- The fields of the cluster are as at the start. -/
structure Alone (s : Saved (Application ν) (Request ν)) : Prop where
  nonces : s.replicationNonces = ∅
  log : s.replicationLog = []
  leadership : s.leadership = .initial 3

omit [PyNumber ν] in
lemma Alone.setApp {n : ReferenceNode ν} (h : Alone n.toSaved) (app : Application ν) :
    Alone (n.setApp app).toSaved :=
  ⟨h.nonces, h.log, h.leadership⟩

/-- Nonces that can be restored. -/
def Nonnegative (a : Authenticator) : Prop :=
  ∀ actor nonce, a.nonces.get? actor = some nonce → 0 ≤ nonce

/-- What a file holds: the ledger that the node has, and nonces that it has not forgotten. -/
structure Holds (n : ReferenceNode ν) (s : Saved (Application ν) (Request ν)) : Prop where
  ledger : s.app.ledger = n.app.ledger
  authenticator : ∃ b, s.app.authenticator = some b ∧ Nonnegative b
  last : ∀ actor, s.app.last actor ≤ n.app.last actor
  alone : Alone s

/-- **The invariant of a standalone node.** -/
structure Solo (boot : Ledger ν) (secrets : Dict String String)
    (registry : Option (Dict String (Json ν))) (n : ReferenceNode ν) : Prop where
  credentialed : ∃ a, Credentialed secrets registry n.app a ∧ Nonnegative a
  alone : Alone n.toSaved
  hasStore : n.hasStore = true
  disk : (n.disk = none ∧ n.app.ledger = boot) ∨ ∃ s, n.disk = some s ∧ Holds n s

variable {py : PyLib ν} {keys : Keyring (Request ν)} {boot : Ledger ν}
  {secrets : Dict String String} {registry : Option (Dict String (Json ν))} {n t : ReferenceNode ν}
  {a : Arrival ν}

omit [PyNumber ν] in
/-- Nonnegative nonces are above the one that no request has. -/
lemma neg_one_le_last {app : Application ν} {b : Authenticator} (hb : app.authenticator = some b)
    (h : Nonnegative b) (actor : String) : -1 ≤ app.last actor := by
  unfold Application.last Authenticator.last Dict.getD
  rw [hb]
  cases hnonce : b.nonces.get? actor with
  | none => simp [hnonce]
  | some nonce =>
    have hpos := h actor nonce hnonce
    simp only [Option.map_some, Option.getD_some, hnonce]
    omega

omit [PyNumber ν] in
/-- A new node. -/
lemma Solo.fresh : Solo boot secrets registry
    (Node.fresh ⟨boot, some ⟨secrets, ∅⟩, registry⟩ true) where
  credentialed := ⟨⟨secrets, ∅⟩, ⟨rfl, rfl, fun _ _ hs => hs, fun _ _ hs => by rw [hs]; rfl⟩,
    fun _ _ h => by cases h⟩
  alone := ⟨rfl, rfl, rfl⟩
  hasStore := rfl
  disk := .inl ⟨rfl, rfl⟩

omit [PyNumber ν] in
/-- A change in memory that keeps the ledger and forgets no nonce. -/
lemma Solo.setApp (h : Solo boot secrets registry n) {app : Application ν}
    (hcredentialed : ∃ a, Credentialed secrets registry app a ∧ Nonnegative a)
    (hledger : app.ledger = n.app.ledger) (hlast : ∀ actor, n.app.last actor ≤ app.last actor) :
    Solo boot secrets registry (n.setApp app) where
  credentialed := hcredentialed
  alone := h.alone.setApp app
  hasStore := h.hasStore
  disk := by
    rcases h.disk with ⟨hdisk, hboot⟩ | ⟨s, hdisk, hholds⟩
    · exact .inl ⟨hdisk, hledger.trans hboot⟩
    · exact .inr ⟨s, hdisk, hholds.ledger.trans hledger.symm, hholds.authenticator,
        fun actor => (hholds.last actor).trans (hlast actor), hholds.alone⟩

omit [PyNumber ν] in
/-- A change that is saved. -/
lemma Solo.saved (h : Solo boot secrets registry n) {app : Application ν}
    (hcredentialed : ∃ a, Credentialed secrets registry app a ∧ Nonnegative a) :
    Solo boot secrets registry (n.setApp app).saved := by
  have hsaved : (n.setApp app).saved = { n.setApp app with disk := some (n.setApp app).toSaved } :=
    if_pos h.hasStore
  obtain ⟨b, hb, hnonnegative⟩ := hcredentialed
  rw [hsaved]
  exact ⟨⟨b, hb, hnonnegative⟩, h.alone.setApp app, h.hasStore, .inr ⟨_, rfl, rfl,
    ⟨b, hb.authenticator, hnonnegative⟩, fun _ => le_rfl, h.alone.setApp app⟩⟩

omit [PyNumber ν] in
/-- Recording a nonce that is newer than the last one. -/
lemma nonnegative_record {app : Application ν} {b : Authenticator} {token : Token}
    (hb : app.authenticator = some b) (h : Nonnegative b)
    (hnewer : app.last token.actor < token.nonce) : Nonnegative (b.record token) := by
  intro actor nonce hnonce
  have hlast := neg_one_le_last hb h token.actor
  change (b.nonces.set token.actor token.nonce).get? actor = some nonce at hnonce
  rw [Dict.get?_set] at hnonce
  split_ifs at hnonce with hactor
  · obtain rfl := Option.some.inj hnonce
    omega
  · exact h actor nonce hnonce

/-- **Every request keeps the invariant.** -/
theorem Solo.answered (h : Solo boot secrets registry n) (a : Arrival ν) :
    Solo boot secrets registry (answered py keys n a).1 := by
  by_cases hverified : a.Verified
  · obtain ⟨b, hb, hnonnegative⟩ := h.credentialed
    obtain ⟨c, hc, hnonces, -⟩ := hb.load a.request.auth
    have hloaded : Nonnegative c := fun actor nonce hnonce =>
      hnonnegative actor nonce (hnonces ▸ hnonce)
    have hrecord : ∀ token, c.check py a.request = .ok token → ∀ l, ∃ d,
      Credentialed secrets registry
        (((n.app.loadCredential a.request.auth).setAuthenticator (c.record token)).setLedger l) d ∧
          Nonnegative d := by
      intro token hok l
      have hnewer := ((check_iff hc.authenticator).mp hok).2.2
      rw [← last_loadCredential n.app a.request.auth] at hnewer
      obtain ⟨d, hd, -⟩ := hc.of_same (sameCredentials_record hc.authenticator token l)
      obtain rfl := Option.some.inj hd.authenticator
      exact ⟨_, hd, nonnegative_record hc.authenticator hloaded hnewer⟩
    rcases answered_cases hverified hc.authenticator with ⟨-, -, hnode⟩ |
      ⟨token, hok, ⟨l, -, -, hnode⟩ | ⟨-, -, hnode⟩⟩
    · rw [hnode]
      exact h.setApp ⟨c, hc, hloaded⟩ (ledger_loadCredential _ _) fun actor =>
        (last_loadCredential _ _ actor).ge
    · rw [hnode]
      exact h.saved (hrecord token hok l)
    · rw [hnode]
      refine h.setApp (hrecord token hok _) (ledger_loadCredential _ _) fun actor => ?_
      rw [last_record hc.authenticator]
      split_ifs with hactor
      · exact hactor ▸ ((check_iff hc.authenticator).mp hok).2.2.le
      · exact le_rfl
  · rw [(answered_of_not_verified hverified).1]
    exact h

/-! ## Restarts -/

end ReferenceNode

/-! ## Requests without floats -/

namespace Ledger

variable {py : PyLib JsonNum} {l l' : Ledger JsonNum} {genesis : Option GenesisConfig}
    {base : String}

/-- A sound ledger is sane. -/
lemma Sound.sane (h : Sound genesis base l) (hconf : Configured py genesis base) : Sane py l :=
  ⟨h.lock, genesis, base, h.record, hconf⟩

/-- A sound ledger is restored, for the network that it is on. -/
lemma Sound.exists_fromSnapshot (h : Sound genesis base l) (hconf : Configured py genesis base) :
    ∃ l', fromSnapshot py l.snapshot genesis = .ok l' := by
  obtain ⟨l', hl', -⟩ := h.restores hconf
  have hreload := fun expected hexpected => fromSnapshot_snapshot py l' h.lock
    (h.sane hconf).validGenesis expected hexpected
  refine ⟨l', (hreload genesis fun g hg => by rw [h.record.genesis_eq, hg]).mpr ?_⟩
  exact (hreload none fun _ hg => by cases hg).mp hl'

/-- If the amounts are no floats, a call keeps them if it overwrites no active branch and settles
nothing to a locked account. -/
lemma keepsAmounts_iff (h : l.AmountsIn NoFloat) {c : Call JsonNum} (hc : c.AmountsIn NoFloat) :
    KeepsAmounts py l c ↔ OverwritesNoActive py l c ∧ KeepsReserve l c := by
  refine ⟨fun hkeeps => ⟨hkeeps.overwrites, hkeeps.reserve⟩, fun hkeeps =>
    ⟨hkeeps.1, hkeeps.2, ?_, fun _ _ _ _ branchId b _ hb _ _ _ => (h.branches branchId b hb).1⟩⟩
  rintro sender receiver value ttl rfl -
  have hdouble : NoFloat (value + value) := closed_noFloat.add hc.1 hc.1
  exact ⟨trunc (value + value), (PyNumber.val_add value value).symm.trans hdouble.val_eq_trunc⟩

end Ledger

namespace ReferenceNode

variable {py : PyLib JsonNum} {keys : Keyring (Request JsonNum)} {boot : Ledger JsonNum}
  {secrets : Dict String String} {registry : Option (Dict String (Json JsonNum))}
  {n : ReferenceNode JsonNum}

/-- Every call that the request makes overwrites no active branch, and settles nothing to a locked
account. -/
def ArrivalKeepsFunds (py : PyLib JsonNum) (n : ReferenceNode JsonNum) (a : Arrival JsonNum) :
    Prop :=
  ∀ c, Reaches py none a.peer .healthy a.request n c →
    Ledger.OverwritesNoActive py n.app.ledger c ∧ Ledger.KeepsReserve n.app.ledger c

/-- Without floats, a request keeps the amounts if it keeps the funds. -/
lemma keepsAmounts_arrival_iff (h : n.app.ledger.AmountsIn Ledger.NoFloat) {a : Arrival JsonNum}
    (hrequest : a.request.NoFloats) :
    KeepsAmounts py none n ⟨a.peer, .healthy, a.request⟩ ↔ ArrivalKeepsFunds py n a :=
  forall₂_congr fun c hreaches => Ledger.keepsAmounts_iff h (hrequest c hreaches.decodes)

/-- A mutating request is a step of the runs of mutations. -/
lemma mutate_arrival (a : Arrival JsonNum)
    (hmethod : (Method.ofJson? a.request.method).isSome = true) :
    mutate py keys none n ⟨a.peer, .healthy, a.request⟩ = some (answered py keys n a).1 :=
  if_pos hmethod

/-- A request without a method keeps the ledger. -/
lemma ledger_answered_of_none (h : Solo boot secrets registry n) {a : Arrival JsonNum}
    (hmethod : Method.ofJson? a.request.method = none) :
    (answered py keys n a).1.app.ledger = n.app.ledger := by
  by_cases hverified : a.Verified
  · obtain ⟨b, hb, -⟩ := h.credentialed
    obtain ⟨c, hc, -⟩ := hb.load a.request.auth
    have hanswers : Answers py n.app a.request (answered py keys n a).2.Accepts _ :=
      answers_answered hverified hc.authenticator
    cases hanswers with
    | refused _ _ _ hledger => exact hledger
    | executed token _ _ _ hexecutes =>
      have hsome := isSome_of_executes hexecutes
      rw [hmethod] at hsome
      cases hsome
    | passed _ _ _ _ _ _ _ hledger => exact hledger
  · rw [(answered_of_not_verified hverified).1]

/-- What calls keep, requests keep. -/
lemma ledger_answered_induction {P : Ledger JsonNum → Prop} (h : Solo boot secrets registry n)
    (hledger : P n.app.ledger) (a : Arrival JsonNum)
    (hcall : ∀ c l, a.request.Calls c → n.app.ledger.call py c = .ok l → P l) :
    P (answered py keys n a).1.app.ledger := by
  by_cases hverified : a.Verified
  · obtain ⟨b, hb, -⟩ := h.credentialed
    obtain ⟨c, hc, -⟩ := hb.load a.request.auth
    have hanswers : Answers py n.app a.request (answered py keys n a).2.Accepts _ :=
      answers_answered hverified hc.authenticator
    cases hanswers with
    | refused _ _ _ hsame => rw [hsame]; exact hledger
    | executed token _ _ _ hexecutes =>
      obtain ⟨method, r, hmethod, -, hexecute⟩ := hexecutes
      obtain ⟨d, c, hd, hdecoded, -, hc⟩ := Ledger.execute_eq_ok hexecute
      exact hcall c _ ⟨method, d, hmethod, hd, hdecoded⟩ hc
    | passed _ _ _ _ _ _ _ hsame => rw [hsame]; exact hledger
  · rw [(answered_of_not_verified hverified).1]
    exact hledger

/-- **The invariant of a node that can be restarted**: its ledger is sound, and its amounts are no
floats. -/
structure Durable (genesis : Option GenesisConfig) (base : String) (boot : Ledger JsonNum)
    (secrets : Dict String String) (registry : Option (Dict String (Json JsonNum)))
    (n : ReferenceNode JsonNum) : Prop where
  solo : Solo boot secrets registry n
  sound : Ledger.Sound genesis base n.app.ledger
  amounts : n.app.ledger.AmountsIn Ledger.NoFloat

namespace Durable

variable {genesis : Option GenesisConfig} {base : String} {a : Arrival JsonNum}

/-- **A request without floats that keeps the funds keeps the invariant.** -/
lemma answered (h : Durable genesis base boot secrets registry n) (hrequest : a.request.NoFloats)
    (hkeeps : ArrivalKeepsFunds py n a) :
    Durable genesis base boot secrets registry (answered py keys n a).1 where
  solo := h.solo.answered a
  sound := by
    cases hmethod : Method.ofJson? a.request.method with
    | none =>
      rw [ledger_answered_of_none h.solo hmethod]
      exact h.sound
    | some method =>
      exact sound_mutate h.sound ((keepsAmounts_arrival_iff h.amounts hrequest).mpr hkeeps)
        (mutate_arrival a (by rw [hmethod]; rfl))
  amounts := ledger_answered_induction h.solo h.amounts a fun c _ hcalls hc =>
    h.amounts.call Ledger.closed_noFloat (hrequest c hcalls) hc

variable (keys) in
/-- A request that does not keep the funds leaves a ledger that is not restored. -/
lemma not_restores (h : Durable genesis base boot secrets registry n)
    (hconf : Ledger.Configured py genesis base) (hrequest : a.request.NoFloats)
    (hbreaks : ¬ ArrivalKeepsFunds py n a) :
    ¬ (ReferenceNode.answered py keys n a).1.app.ledger.Restores py := by
  obtain ⟨n', hn', hlost⟩ : ∃ n', mutate py keys none n ⟨a.peer, .healthy, a.request⟩ = some n' ∧
      ¬ n'.app.ledger.Restores py := exists_mutate_not_restores hconf h.sound
    fun hkeeps => hbreaks ((keepsAmounts_arrival_iff h.amounts hrequest).mp hkeeps)
  unfold mutate at hn'
  split_ifs at hn'
  obtain rfl := Option.some.inj hn'
  exact hlost

end Durable

/-- A signed request without a peer. -/
def signedArrival (actor secret : String) (nonce : ℤ) (method : String) (params : Json JsonNum) :
    Arrival JsonNum :=
  let unsigned : Request JsonNum := ⟨.num (.int nonce), .str method, params, .null⟩
  ⟨none, { unsigned with auth := unsigned.sign jsonLib actor nonce secret }⟩

/-- The operator registers `carol`. -/
def registration : Arrival JsonNum :=
  signedArrival "testnet_operator" "operator" 1 "account.register"
    (.obj [("account", .str "carol")])

end ReferenceNode

end SplitChain
