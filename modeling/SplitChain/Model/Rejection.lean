import SplitChain.Model.Dispatch
import SplitChain.Model.Runs
import SplitChain.Model.Signing

set_option relaxedAutoImplicit false
set_option autoImplicit false

/-!
# Definitive rejections

`INVALID_REQUEST` is the answer to every exception but one. A client that reads it as a definitive
rejection is right unless the request was executed before the exception was raised. This file
settles when that happens: only when the state of an executed request cannot be saved.

## Main results

* `SplitChain.ReferenceNode.rejection_unchanged_iff` — a rejected request has changed nothing,
  exactly where no executed request fails to be saved.
-/

namespace SplitChain

open Ledger (integerLib)

namespace ReferenceNode

variable {ν : Type} [PyNumber ν]

/-- A request is executed with success, but the state after it cannot be saved. -/
def ExecutedUnsaved (py : PyLib ν) (place : Option Role) (peer : Option PeerIdentity)
    (o : Node.Outcome) (request : Request ν) (n : ReferenceNode ν) : Prop :=
  (∃ c l, Reaches py place peer o request n c ∧ n.app.ledger.call py c = .ok l) ∧
    n.hasStore = true ∧ o.finalSaves = false

/-- A node that has a file cannot save where the call of `_save` raises. -/
lemma not_canSave_iff {A μ : Type} {n : Node A μ} {saves : Bool} :
    ¬ n.CanSave saves ↔ n.hasStore = true ∧ saves = false := by
  unfold Node.CanSave
  rw [Classical.not_imp, Bool.not_eq_true]

/-- **When a rejection is definitive.** A mutating request that is answered with `INVALID_REQUEST`
has changed neither the ledger nor the nonces nor the log of the node, if and only if it is not
executed with success on a node that then cannot save its state.

**Proof sketch.** A request that is not executed with success leaves all three as they were. One
that is changes the ledger, and is answered with a result or as uncertain where the node can be
saved, and with `INVALID_REQUEST` where it cannot. -/
theorem rejection_unchanged_iff (py : PyLib ν) (keys : Keyring (Request ν)) (self : Option Role)
    (peer : Option PeerIdentity) (o : Node.Outcome) (request : Request ν) (n : ReferenceNode ν)
    {method : Method} (hmethod : Method.ofJson? request.method = some method) :
    ((∃ cause, (dispatch py keys self peer o request n).2 = .invalidRequest cause) →
      Unchanged n (dispatch py keys self peer o request n).1) ↔
      ¬ ExecutedUnsaved py self peer o request n := by
  constructor
  · rintro h ⟨⟨c, l, hreaches, hcall⟩, hunsaved⟩
    have hledger := ledger_dispatch_of_ok keys hreaches hcall
    have hanswer : ∃ cause, (dispatch py keys self peer o request n).2 = .invalidRequest cause := by
      refine (dispatch_iff (P := fun _ answer => ∃ cause, answer = .invalidRequest cause)).mpr
        ((ends_handle_of_reaches keys hreaches).mono ?_ ?_)
      · exact fun answer t ht => absurd ht.2.1 (not_canSave_iff.mpr hunsaved)
      · rintro e t (⟨-, -, he⟩ | ⟨⟨e', ht⟩, -⟩)
        · rw [he (not_canSave_iff.mpr hunsaved)]
          exact ⟨_, rfl⟩
        · rw [hcall] at ht
          cases ht
    exact Ledger.call_ne hcall (hledger ▸ (h hanswer).ledger)
  · rintro h ⟨cause, hanswer⟩
    refine unchanged_dispatch keys hmethod fun c l hreaches hcall => ?_
    refine h ⟨⟨c, l, hreaches, hcall⟩, ?_⟩
    rw [← not_canSave_iff]
    intro hsaves
    have hother : ∀ cause, (dispatch py keys self peer o request n).2 ≠ .invalidRequest cause := by
      refine (dispatch_iff (P := fun _ answer => ∀ cause, answer ≠ .invalidRequest cause)).mpr
        ((ends_handle_of_reaches keys hreaches).mono ?_ ?_)
      · rintro answer t ⟨-, -, reply, rfl⟩ cause
        exact nofun
      · rintro e t (⟨-, he, -⟩ | ⟨⟨e', ht⟩, -⟩)
        · rw [he hsaves]
          exact nofun
        · rw [hcall] at ht
          cases ht
    exact hother cause hanswer

/-- A node on its own, with a file, and funds for one account. -/
def fundedNode : ReferenceNode ℤ :=
  Node.fresh ⟨Ledger.ofBalances integerLib (Dict.ofList [("alice", 10), ("bob", 0)]), none, none⟩
    true

/-- A request to open a branch. -/
def offerRequest : Request ℤ where
  id := .num 1
  method := .str "offer"
  params := .obj [("sender", .str "alice"), ("receiver", .str "bob"), ("value", .num 1)]
  auth := .null

/-- An outcome where the last call of `_save` raises. -/
def fullDisk : Node.Outcome := ⟨true, true, false, true, true⟩

/-- The offer is answered with `INVALID_REQUEST`, and its funds are locked. -/
theorem unsaved_offer_locks_funds :
    (dispatch integerLib (sharedKeys integerLib "cluster") none none fullDisk offerRequest
        fundedNode).2 = .invalidRequest (.protocol "unable to persist ledger state") ∧
      fundedNode.app.ledger.locked.getD "alice" 0 = 0 ∧
      (dispatch integerLib (sharedKeys integerLib "cluster") none none fullDisk offerRequest
        fundedNode).1.app.ledger.locked.getD "alice" 0 = 2 := by
  decide +kernel

/-- The condition at the offer whose state cannot be saved. -/
theorem rejection_unchanged_iff_offer :
    ((∃ cause, (dispatch integerLib (sharedKeys integerLib "cluster") none none fullDisk
        offerRequest fundedNode).2 = .invalidRequest cause) →
      Unchanged fundedNode (dispatch integerLib (sharedKeys integerLib "cluster") none none fullDisk
        offerRequest fundedNode).1) ↔
      ¬ ExecutedUnsaved integerLib none none fullDisk offerRequest fundedNode :=
  rejection_unchanged_iff integerLib (sharedKeys integerLib "cluster") none none fullDisk
    offerRequest fundedNode (Method.ofName?_name .offer)

end ReferenceNode

end SplitChain
