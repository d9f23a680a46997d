import SplitChain.Model.Dispatch

set_option relaxedAutoImplicit false
set_option autoImplicit false

/-!
# A node without a role

A standalone node with an authenticator answers requests one after the other, and saves its state
when it has executed one. Here is what one request does to it, in terms of two questions: whether
the authenticator passes the request, and whether the ledger then executes its method.

## Main definitions

* `SplitChain.Arrival` — a request with the peer that sends it.
* `SplitChain.Arrival.Verified` — the request gets as far as the authenticator.
* `SplitChain.Ledger.Executes` — the ledger executes the method of the request for its actor.

## Main results

* `SplitChain.ReferenceNode.answered_cases` — what a request does.
-/

namespace SplitChain

open Raise Proc

variable {ν : Type} [PyNumber ν]

/-- A request with the peer that sends it. -/
structure Arrival (ν : Type) where
  peer : Option PeerIdentity
  request : Request ν

/-- What the world does to a node whose disk does not fail. -/
def Node.Outcome.healthy : Node.Outcome := ⟨true, true, true, true, true⟩

/-- An answer with a result. -/
def Answer.Accepts (answer : Answer ν) : Prop := ∃ reply, answer = .result reply

instance (answer : Answer ν) : Decidable answer.Accepts :=
  match answer with
  | .result reply => isTrue ⟨reply, rfl⟩
  | .invalidRequest _ => isFalse fun ⟨_, h⟩ => by cases h
  | .commitUncertain _ => isFalse fun ⟨_, h⟩ => by cases h
  | .notLeader _ => isFalse fun ⟨_, h⟩ => by cases h
  | .handedOver => isFalse fun ⟨_, h⟩ => by cases h
  | .raised _ => isFalse fun ⟨_, h⟩ => by cases h

omit [PyNumber ν] in
/-- No exception is answered with a result. -/
lemma Answer.not_accepts_ofError (e : PyError) : ¬ (Answer.ofError e : Answer ν).Accepts := by
  rintro ⟨reply, h⟩
  cases e <;> cases h

/-- A request that gets as far as the authenticator. -/
def Arrival.Verified (a : Arrival ν) : Prop :=
  ReferenceNode.checkRequest a.peer a.request = .ok () ∧
    ¬ (a.request.method.str?.any fun name => name ∈ ReferenceNode.clusterMethods) = true ∧
    a.request.method.str? ≠ some "status"

/-- The ledger executes the method of a request for its actor. -/
def Ledger.Executes (py : PyLib ν) (l : Ledger ν) (request : Request ν) (token : Token)
    (l' : Ledger ν) : Prop :=
  ∃ method r, Method.ofJson? request.method = some method ∧
    checkActor token.actor (some method) request.params = .ok () ∧
    l.execute py method request.params = .ok (l', r)

namespace Application

variable {py : PyLib ν} {app : Application ν} {request : Request ν} {a : Authenticator}

/-- The check of an actor whose authenticator refuses the request. -/
lemma ends_verifyRequestActor_of_error {e : PyError}
    (ha : (app.loadCredential request.auth).authenticator = some a)
    (hcheck : a.check py request = .error e) (hstatus : request.method.str? ≠ some "status")
    {P : Unit → Application ν → Prop} {E : PyError → Application ν → Prop} :
    Ends (verifyRequestActor py request true) app P E ↔ E e (app.loadCredential request.auth) := by
  have hsome : ¬ app.authenticator.isNone = true := by
    have := authenticator_of_loaded ha
    cases hauth : app.authenticator <;> simp_all
  unfold verifyRequestActor
  rw [ends_bind, ends_get, if_neg hsome, if_pos hstatus, ends_bind, ends_modify, ends_bind,
    ends_verify ha, hcheck]
  simp

/-- The check of an actor whose authenticator passes the request. -/
lemma ends_verifyRequestActor_of_ok {token : Token}
    (ha : (app.loadCredential request.auth).authenticator = some a)
    (hcheck : a.check py request = .ok token) (hstatus : request.method.str? ≠ some "status")
    {P : Unit → Application ν → Prop} {E : PyError → Application ν → Prop} :
    Ends (verifyRequestActor py request true) app P E ↔
      (checkActor token.actor (Method.ofJson? request.method) request.params = .ok () →
        P () ((app.loadCredential request.auth).setAuthenticator (a.record token))) ∧
      ∀ e, checkActor token.actor (Method.ofJson? request.method) request.params = .error e →
        E e ((app.loadCredential request.auth).setAuthenticator (a.record token)) := by
  have hsome : ¬ app.authenticator.isNone = true := by
    have := authenticator_of_loaded ha
    cases hauth : app.authenticator <;> simp_all
  unfold verifyRequestActor
  rw [ends_bind, ends_get, if_neg hsome, if_pos hstatus, ends_bind, ends_modify, ends_bind,
    ends_verify ha, hcheck]
  simp only [Except.ok.injEq, forall_eq', reduceCtorEq, false_implies, implies_true, and_true,
    ends_lift, recordIf, if_true]
  exact ⟨fun h => ⟨fun hok => h.1 () hok, h.2⟩, fun h => ⟨fun _ hok => h.1 hok, h.2⟩⟩

end Application

namespace ReferenceNode

/-- `dispatch` of a standalone node whose disk does not fail. -/
def answered (py : PyLib ν) (keys : Keyring (Request ν)) (n : ReferenceNode ν) (a : Arrival ν) :
    ReferenceNode ν × Answer ν :=
  dispatch py keys none a.peer .healthy a.request n

variable {py : PyLib ν} {keys : Keyring (Request ν)} {n : ReferenceNode ν} {a : Arrival ν}
  {b : Authenticator} {token : Token}

/-- A property of the answer, in terms of the computation behind a request that is served. -/
lemma answered_iff {P : ReferenceNode ν → Answer ν → Prop}
    (hcheck : checkRequest a.peer a.request = .ok ())
    (hcluster : ¬ (a.request.method.str?.any fun name => name ∈ clusterMethods) = true) :
    P (answered py keys n a).1 (answered py keys n a).2 ↔
      Ends (serve py true a.request) n (fun reply t => P t (.result reply))
        (fun e t => P t (.ofError e)) := by
  unfold answered
  rw [dispatch_iff (P := P)]
  unfold handle
  rw [ends_bind, ends_lift, hcheck]
  simp only [forall_const, reduceCtorEq, false_implies, implies_true, and_true, if_neg hcluster]
  rw [ends_bind]
  exact Iff.rfl

/-- A request that does not get as far as the authenticator changes nothing. -/
lemma answered_of_not_verified (h : ¬ a.Verified) : (answered py keys n a).1 = n ∧
    ((Method.ofJson? a.request.method).isSome = true → ¬ (answered py keys n a).2.Accepts) := by
  by_cases hcheck : checkRequest a.peer a.request = .ok ()
  · by_cases hcluster : (a.request.method.str?.any fun name => name ∈ clusterMethods) = true
    · refine (dispatch_iff (P := fun t answer => t = n ∧ (_ → ¬ answer.Accepts))).mpr ?_
      unfold handle
      rw [ends_bind, ends_lift, if_pos hcluster]
      exact ⟨fun _ _ => ends_pure.mpr ⟨rfl, fun _ ⟨_, h⟩ => by cases h⟩,
        fun e _ => ⟨rfl, fun _ => Answer.not_accepts_ofError e⟩⟩
    · have hstatus : a.request.method.str? = some "status" := by
        by_contra hstatus
        exact h ⟨hcheck, hcluster, hstatus⟩
      have hmethod := Application.ofJson?_of_status hstatus
      refine ⟨?_, fun hsome => by rw [hmethod] at hsome; cases hsome⟩
      refine (answered_iff (P := fun t _ => t = n) hcheck hcluster).mpr ?_
      unfold serve
      rw [ends_bind, Node.ends_onApp, hmethod, hstatus]
      refine (Application.ends_verifyRequestActor_of_status n.app hstatus true).mono ?_ ?_
      · rintro - t rfl
        exact ends_bind.mpr (ends_get.mpr (ends_pure.mpr rfl))
      · rintro - t rfl
        rfl
  · refine (dispatch_iff (P := fun t answer => t = n ∧ (_ → ¬ answer.Accepts))).mpr ?_
    unfold handle
    rw [ends_bind, ends_lift]
    exact ⟨fun _ hok => absurd hok hcheck, fun e _ => ⟨rfl, fun _ => Answer.not_accepts_ofError e⟩⟩

/-- A request that the authenticator refuses loads a credential at most. -/
lemma answered_of_error {e : PyError} (h : a.Verified)
    (hb : (n.app.loadCredential a.request.auth).authenticator = some b)
    (hcheck : b.check py a.request = .error e) :
    (answered py keys n a).1 = n.setApp (n.app.loadCredential a.request.auth) ∧
      ¬ (answered py keys n a).2.Accepts := by
  refine (answered_iff (P := fun t answer => t = _ ∧ ¬ answer.Accepts) h.1 h.2.1).mpr ?_
  unfold serve
  rw [ends_bind, Node.ends_onApp, Application.ends_verifyRequestActor_of_error hb hcheck h.2.2]
  exact ⟨rfl, Answer.not_accepts_ofError e⟩

/-- A request that the authenticator passes and the ledger executes is accepted, and the node is
saved. -/
lemma answered_of_executes {l : Ledger ν} (h : a.Verified)
    (hb : (n.app.loadCredential a.request.auth).authenticator = some b)
    (hcheck : b.check py a.request = .ok token)
    (hexecutes : n.app.ledger.Executes py a.request token l) :
    (answered py keys n a).1 = (n.setApp (((n.app.loadCredential a.request.auth).setAuthenticator
        (b.record token)).setLedger l)).saved ∧ (answered py keys n a).2.Accepts := by
  obtain ⟨method, r, hmethod, hactor, hexecute⟩ := hexecutes
  refine (answered_iff (P := fun t answer => t = _ ∧ answer.Accepts) h.1 h.2.1).mpr ?_
  unfold serve
  rw [ends_bind, Node.ends_onApp, Application.ends_verifyRequestActor_of_ok hb hcheck h.2.2,
    hmethod, hactor]
  refine ⟨fun _ => ?_, fun _ h => by cases h⟩
  show Ends (Node.onApp (Application.runMethod py method a.request.params) >>= _) _ _ _
  rw [ends_bind, Node.ends_onApp, Application.ends_runMethod]
  have hledger : (n.setApp ((n.app.loadCredential a.request.auth).setAuthenticator
      (b.record token))).app.ledger = n.app.ledger := Application.ledger_loadCredential _ _
  rw [hledger, hexecute]
  refine ⟨?_, fun _ h => by cases h⟩
  rintro l' r' h
  cases h
  rw [ends_bind, Node.ends_save]
  exact ⟨fun _ => ends_pure.mpr ⟨rfl, _, rfl⟩, fun hnot => absurd (fun _ => rfl) hnot⟩

/-- A request that the authenticator passes and the ledger does not execute leaves its nonce, and is
not saved. -/
lemma answered_of_not_executes (h : a.Verified)
    (hb : (n.app.loadCredential a.request.auth).authenticator = some b)
    (hcheck : b.check py a.request = .ok token)
    (hexecutes : ∀ l, ¬ n.app.ledger.Executes py a.request token l) :
    (answered py keys n a).1 = n.setApp ((n.app.loadCredential a.request.auth).setAuthenticator
        (b.record token)) ∧
      ((Method.ofJson? a.request.method).isSome = true → ¬ (answered py keys n a).2.Accepts) := by
  refine (answered_iff (P := fun t answer => t = _ ∧ (_ → ¬ answer.Accepts)) h.1 h.2.1).mpr ?_
  unfold serve
  rw [ends_bind, Node.ends_onApp, Application.ends_verifyRequestActor_of_ok hb hcheck h.2.2]
  refine ⟨fun hactor => ?_, fun e _ => ⟨rfl, fun _ => Answer.not_accepts_ofError e⟩⟩
  cases hmethod : Method.ofJson? a.request.method with
  | none =>
    dsimp only
    split
    · exact ends_bind.mpr (ends_get.mpr (ends_pure.mpr ⟨rfl, fun h => by cases h⟩))
    · exact ends_pure.mpr ⟨rfl, fun h => by cases h⟩
    · exact ends_throw.mpr ⟨rfl, fun h => by cases h⟩
  | some method =>
    show Ends (Node.onApp (Application.runMethod py method a.request.params) >>= _) _ _ _
    rw [ends_bind, Node.ends_onApp, Application.ends_runMethod]
    have hledger : (n.setApp ((n.app.loadCredential a.request.auth).setAuthenticator
        (b.record token))).app.ledger = n.app.ledger := Application.ledger_loadCredential _ _
    rw [hledger]
    exact ⟨fun l r hexecute => absurd ⟨method, r, hmethod, hmethod ▸ hactor, hexecute⟩ (hexecutes l),
      fun e _ => ⟨rfl, fun _ => Answer.not_accepts_ofError e⟩⟩

/-- **What a request does** to a standalone node with an authenticator, if it gets that far. -/
theorem answered_cases (h : a.Verified)
    (hb : (n.app.loadCredential a.request.auth).authenticator = some b) :
    ((∃ e, b.check py a.request = .error e) ∧ ¬ (answered py keys n a).2.Accepts ∧
        (answered py keys n a).1 = n.setApp (n.app.loadCredential a.request.auth)) ∨
    (∃ token, b.check py a.request = .ok token ∧
      ((∃ l, n.app.ledger.Executes py a.request token l ∧ (answered py keys n a).2.Accepts ∧
          (answered py keys n a).1 = (n.setApp (((n.app.loadCredential
            a.request.auth).setAuthenticator (b.record token)).setLedger l)).saved) ∨
        ((∀ l, ¬ n.app.ledger.Executes py a.request token l) ∧
          ((Method.ofJson? a.request.method).isSome = true → ¬ (answered py keys n a).2.Accepts) ∧
          (answered py keys n a).1 = n.setApp ((n.app.loadCredential
            a.request.auth).setAuthenticator (b.record token))))) := by
  cases hcheck : b.check py a.request with
  | error e =>
    obtain ⟨hnode, haccepts⟩ : (answered py keys n a).1 = _ ∧ ¬ (answered py keys n a).2.Accepts :=
      answered_of_error h hb hcheck
    exact .inl ⟨⟨e, rfl⟩, haccepts, hnode⟩
  | ok token =>
    refine .inr ⟨token, rfl, ?_⟩
    by_cases hexecutes : ∃ l, n.app.ledger.Executes py a.request token l
    · obtain ⟨l, hl⟩ := hexecutes
      obtain ⟨hnode, haccepts⟩ : (answered py keys n a).1 = _ ∧ (answered py keys n a).2.Accepts :=
        answered_of_executes h hb hcheck hl
      exact .inl ⟨l, hl, haccepts, hnode⟩
    · rw [not_exists] at hexecutes
      obtain ⟨hnode, haccepts⟩ : (answered py keys n a).1 = _ ∧
          (_ → ¬ (answered py keys n a).2.Accepts) := answered_of_not_executes h hb hcheck hexecutes
      exact .inr ⟨hexecutes, haccepts, hnode⟩

end ReferenceNode

end SplitChain
