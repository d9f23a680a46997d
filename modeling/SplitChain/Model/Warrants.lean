import SplitChain.Model.AuditLog
import SplitChain.Model.Credentials
import SplitChain.Model.ExactlyOnce
import SplitChain.Model.Reloading

set_option relaxedAutoImplicit false
set_option autoImplicit false

/-!
# Who has signed what a ledger holds

Every state of a branch goes back to requests: an offer and a commitment of its sender, an
acceptance of its receiver, a cancellation of either. A node with an authenticator applies a request
only if it carries a signature of the party that the request speaks for, under a credential that the
operator has given the node for that party. So every branch that a node holds has been signed by its
parties, and an account loses no more than what it has itself committed to.

## Main definitions

* `SplitChain.Request.SignedBy` — a request carries a signature of an actor.
* `SplitChain.BranchState.deeds`, `SplitChain.Warranted` — what has to be signed for a branch to be
  in a state, and that it has been.
* `SplitChain.spent` — what an account has committed to in some requests.
* `SplitChain.Ledger.Backed` — the invariant.

## Main results

* `SplitChain.Ledger.Backed.call` — applying a signed request keeps the invariant.
* `SplitChain.ReferenceNode.no_theft` — the signatures behind every reachable ledger.
-/

namespace SplitChain

open Raise

open PyNumber (val ofInt)

variable {ν : Type} [PyNumber ν]

/-! ## Signed requests -/

namespace Ledger

/-- The actor that has to sign a call. -/
def Call.signer : Call ν → String
  | .register _ => "testnet_operator"
  | .offer sender _ _ _ => sender
  | .accept _ receiver => receiver
  | .commit _ sender _ => sender
  | .cancel _ actor => actor
  | .advance _ => "testnet_operator"

/-- A call on a branch is made by the party that it is for: the receiver accepts, the sender
commits, and either may cancel. -/
def Entitles (l : Ledger ν) : Call ν → Prop
  | .accept id receiver => ∃ b, l.branches.get? id = some b ∧ receiver = b.receiver
  | .commit id sender _ => ∃ b, l.branches.get? id = some b ∧ sender = b.sender
  | .cancel id actor => ∃ b, l.branches.get? id = some b ∧ (actor = b.sender ∨ actor = b.receiver)
  | _ => True

/-- The guards of the operations check who calls. -/
lemma entitles_of_call {py : PyLib ν} {l l' : Ledger ν} {c : Call ν} (h : l.call py c = .ok l') :
    l.Entitles c := by
  cases c with
  | accept id receiver =>
    obtain ⟨_, h⟩ := exists_of_fst_map_eq_ok h
    obtain ⟨b, hb, -, -, hreceiver, -⟩ := accept_eq_ok.mp h
    exact ⟨b, hb, hreceiver⟩
  | commit id sender payload =>
    obtain ⟨_, h⟩ := exists_of_fst_map_eq_ok h
    obtain ⟨b, hb, -, -, hsender, -⟩ := commit_eq_ok.mp h
    exact ⟨b, hb, hsender⟩
  | cancel id actor =>
    obtain ⟨_, h⟩ := exists_of_fst_map_eq_ok h
    obtain ⟨b, -, hb, -, hactor, -⟩ := cancel_eq_ok.mp h
    exact ⟨b, hb, hactor⟩
  | _ => trivial

end Ledger

omit [PyNumber ν] in
/-- A parameter that is used as a string is one. -/
lemma textArgument_eq_ok {params : Dict String (Json ν)} {refusal : Json ν → PyError}
    {name s : String} :
    textArgument params refusal name = .ok s ↔ params.get? name = some (.str s) := by
  unfold textArgument argument
  rw [bind_eq_ok]
  constructor
  · rintro ⟨value, hvalue, h⟩
    rw [orRaise_eq_ok] at hvalue
    cases value with
    | str s' =>
      obtain rfl := Except.ok.inj h
      exact hvalue
    | _ => cases h
  · exact fun h => ⟨.str s, orRaise_eq_ok.mpr h, rfl⟩

namespace Request

variable {py : PyLib ν} {request : Request ν} {c : Ledger.Call ν} {actor : String}

/-- The call that a request makes, if it makes one. -/
def call? (request : Request ν) : Option (Ledger.Call ν) :=
  (Method.ofJson? request.method).bind fun method => request.params.dict?.bind fun d =>
    (Ledger.Call.ofParams method d).toOption

lemma call?_of_calls (h : request.Calls c) : request.call? = some c := by
  obtain ⟨method, d, hmethod, hd, hc⟩ := h
  rw [call?, hmethod, Option.bind_some, hd, Option.bind_some, hc]
  rfl

/-- **A request carries the signature of an actor**, under a credential that is given for it. -/
def SignedBy (py : PyLib ν) (given : String → String → Prop) (request : Request ν)
    (actor : String) : Prop :=
  ∃ nonce secret, given actor secret ∧ request.token py =
    .ok ⟨actor, nonce, py.hmacSha256 secret (request.message py actor nonce)⟩

/-- **The actor behind a call** is the one that has to sign it.

**Proof sketch.** By the method: the parameter that the check of the actor reads is the one that the
operation gets as its actor. -/
lemma actor_eq_signer (hcalls : request.Calls c)
    (h : checkActor actor (Method.ofJson? request.method) request.params = .ok ()) :
    actor = c.signer := by
  obtain ⟨method, d, hmethod, hd, hc⟩ := hcalls
  have hfield : ∀ {field s : String}, method.actorField = some field →
      d.get? field = some (.str s) → actor = s := by
    intro field s hf hs
    rw [hmethod, checkActor, hf] at h
    simp only [hd, bind_eq_ok, orRaise_eq_ok, Option.some.injEq, require_eq_ok, beq_iff_eq,
      exists_eq_left', hs, Option.bind_some, Json.str?] at h
    exact h.symm
  have hoperator : method.actorField = none → actor = "testnet_operator" := by
    intro hf
    rw [hmethod, checkActor, hf] at h
    simpa only [require_eq_ok, beq_iff_eq] using h
  cases method with
  | offer =>
    simp only [Ledger.Call.ofParams, bind_eq_ok, pure_eq_ok] at hc
    obtain ⟨-, -, sender, hsender, -, -, -, -, -, -, -, -, rfl⟩ := hc
    exact hfield rfl (textArgument_eq_ok.mp hsender)
  | accept =>
    simp only [Ledger.Call.ofParams, bind_eq_ok, pure_eq_ok] at hc
    obtain ⟨-, -, id, -, receiver, hreceiver, rfl⟩ := hc
    exact hfield rfl (textArgument_eq_ok.mp hreceiver)
  | commit =>
    simp only [Ledger.Call.ofParams, bind_eq_ok, pure_eq_ok] at hc
    obtain ⟨-, -, id, -, sender, hsender, -, -, rfl⟩ := hc
    exact hfield rfl (textArgument_eq_ok.mp hsender)
  | cancel =>
    simp only [Ledger.Call.ofParams, bind_eq_ok, pure_eq_ok] at hc
    obtain ⟨-, -, id, -, by', hby, rfl⟩ := hc
    exact hfield rfl (textArgument_eq_ok.mp hby)
  | advance =>
    simp only [Ledger.Call.ofParams, bind_eq_ok, pure_eq_ok] at hc
    obtain ⟨-, -, rounds, -, rfl⟩ := hc
    exact hoperator rfl
  | accountRegister =>
    simp only [Ledger.Call.ofParams, bind_eq_ok, pure_eq_ok] at hc
    obtain ⟨-, -, account, -, rfl⟩ := hc
    exact hoperator rfl

end Request

/-- **An admitted request is signed** by the actor that it speaks for, if the application holds
given credentials only. -/
lemma Application.Admits.signedBy {py : PyLib ν} {given : String → String → Prop}
    {app : Application ν} {request : Request ν} {a : Authenticator} {token : Token}
    {c : Ledger.Call ν} (h : app.Admits py request a token) (hholds : app.Holds given)
    (hcalls : request.Calls c) : request.SignedBy py given c.signer := by
  obtain ⟨htoken, ⟨secret, hsecret, -, hmac⟩, -⟩ := Authenticator.check_eq_ok.mp h.checked
  rw [← Request.actor_eq_signer hcalls h.participant]
  refine ⟨token.nonce, secret, (hholds.loadCredential _).secrets a h.loaded _ _ hsecret, ?_⟩
  rw [hmac]
  exact htoken

/-! ## Deeds -/

/-- What a party does to a branch. -/
inductive Deed where
  | offer | accept | commit | cancel
deriving DecidableEq

/-- The deeds that bring a branch into a state. An expired branch may have been accepted. -/
def BranchState.deeds : BranchState → List Deed
  | .offered => [.offer]
  | .accepted => [.offer, .accept]
  | .committed => [.offer, .accept, .commit]
  | .final => [.offer, .accept, .commit]
  | .cancelled => [.offer, .cancel]
  | .expired => [.offer]

/-- A signed request that has been applied to a ledger has done something to a branch. -/
def Deed.Done (py : PyLib ν) (given : String → String → Prop) (id : String) (b : Branch ν) :
    Deed → Ledger ν × Request ν → Prop
  | .offer, (l, request) => id = l.nextBranchId py b.sender b.receiver b.value ∧
      (∃ ttl, request.Calls (.offer b.sender b.receiver b.value ttl)) ∧
      request.SignedBy py given b.sender
  | .accept, (_, request) => request.Calls (.accept id b.receiver) ∧
      request.SignedBy py given b.receiver
  | .commit, (_, request) => (∃ payload, request.Calls (.commit id b.sender payload) ∧
      b.txDigest = some (protocolDigest py .txCommit payload)) ∧ request.SignedBy py given b.sender
  | .cancel, (_, request) => ∃ actor, (actor = b.sender ∨ actor = b.receiver) ∧
      request.Calls (.cancel id actor) ∧ request.SignedBy py given actor

/-- **A branch is warranted** by some requests, each with the ledger that it has been applied to:
its state has come about by deeds that are among them, in this order. -/
def Warranted (py : PyLib ν) (given : String → String → Prop)
    (requests : List (Ledger ν × Request ν)) (id : String) (b : Branch ν) : Prop :=
  ∃ entries, entries.Sublist requests ∧
    List.Forall₂ (fun deed entry => Deed.Done py given id b deed entry) b.state.deeds entries

section Deeds

variable {py : PyLib ν} {given : String → String → Prop} {l l' : Ledger ν} {id : String}
  {b : Branch ν} {requests : List (Ledger ν × Request ν)} {request : Request ν}
  {entry : Ledger ν × Request ν}

/-- More requests do not take a warrant back. -/
lemma Warranted.append (h : Warranted py given requests id b) (entry : Ledger ν × Request ν) :
    Warranted py given (requests ++ [entry]) id b := by
  obtain ⟨entries, hsub, hdone⟩ := h
  exact ⟨entries, hsub.trans (List.sublist_append_left _ _), hdone⟩

/-- Every branch has been offered. -/
lemma Warranted.offered (h : Warranted py given requests id b) :
    ∃ entry ∈ requests, Deed.Done py given id b .offer entry := by
  obtain ⟨entries, hsub, hdone⟩ := h
  have hfirst : ∃ deeds, b.state.deeds = .offer :: deeds := by
    cases b.state <;> exact ⟨_, rfl⟩
  obtain ⟨deeds, hdeeds⟩ := hfirst
  rw [hdeeds] at hdone
  cases hdone with
  | cons hoffer _ => exact ⟨_, hsub.subset List.mem_cons_self, hoffer⟩

/-- A branch that has ended without a deed. -/
lemma Warranted.expired (h : Warranted py given requests id b) :
    Warranted py given requests id { b with state := .expired } := by
  obtain ⟨entry, hmem, hoffer⟩ := h.offered
  exact ⟨[entry], List.singleton_sublist.mpr hmem, .cons hoffer .nil⟩

/-- A branch that is cancelled by the request that comes next. -/
lemma Warranted.cancelled (h : Warranted py given requests id b)
    (hcancel : Deed.Done py given id b .cancel entry) :
    Warranted py given (requests ++ [entry]) id { b with state := .cancelled } := by
  obtain ⟨offer, hmem, hoffer⟩ := h.offered
  exact ⟨[offer] ++ [entry], (List.singleton_sublist.mpr hmem).append (List.Sublist.refl _),
    .cons hoffer (.cons hcancel .nil)⟩

/-- An offer that is accepted by the request that comes next. -/
lemma Warranted.accepted (h : Warranted py given requests id b) {round : ℤ}
    (haccept : Deed.Done py given id b .accept entry) :
    Warranted py given (requests ++ [entry]) id
      { b with state := .accepted, acceptedRound := some round } := by
  obtain ⟨offer, hmem, hoffer⟩ := h.offered
  exact ⟨[offer] ++ [entry], (List.singleton_sublist.mpr hmem).append (List.Sublist.refl _),
    .cons hoffer (.cons haccept .nil)⟩

/-- An accepted branch that is committed by the request that comes next. -/
lemma Warranted.committed (h : Warranted py given requests id b) (hs : b.state = .accepted)
    {b' : Branch ν} {digest : String} {round : ℤ} (hb' : b' = { b with
      txDigest := some digest, committedRound := some round, state := .committed })
    (hcommit : Deed.Done py given id b' .commit entry) :
    Warranted py given (requests ++ [entry]) id b' := by
  obtain ⟨entries, hsub, hdone⟩ := h
  rw [hs] at hdone
  subst hb'
  obtain ⟨offer, _, hoffer, hrest, rfl⟩ := List.forall₂_cons_left_iff.mp hdone
  obtain ⟨accept, _, haccept, hnil, rfl⟩ := List.forall₂_cons_left_iff.mp hrest
  obtain rfl := List.forall₂_nil_left_iff.mp hnil
  exact ⟨[offer, accept] ++ [entry], hsub.append (List.Sublist.refl _),
    .cons hoffer (.cons haccept (.cons hcommit .nil))⟩

/-- A committed branch that is settled. -/
lemma Warranted.final (h : Warranted py given requests id b) (hs : b.state = .committed) :
    Warranted py given requests id { b with state := .final } := by
  obtain ⟨entries, hsub, hdone⟩ := h
  rw [hs] at hdone
  exact ⟨entries, hsub, hdone⟩

/-- A visit of a branch keeps the warrants. -/
lemma warranted_turn {branchId : String} (hturn : Ledger.BranchTurn py l branchId l')
    (h : ∀ id b, l.branches.get? id = some b → Warranted py given requests id b) :
    ∀ id b, l'.branches.get? id = some b → Warranted py given requests id b := by
  intro id b' hb'
  cases hturn with
  | stay => exact h id b' hb'
  | expire b held hb =>
    rw [Ledger.branches_released, Dict.get?_set] at hb'
    split_ifs at hb' with hid
    · obtain rfl := Option.some.inj hb'
      exact (h id b (hid ▸ hb)).expired
    · exact h id b' hb'
  | final b _ balance held hb hs =>
    rw [Ledger.branches_settled, Dict.get?_set] at hb'
    split_ifs at hb' with hid
    · obtain rfl := Option.some.inj hb'
      exact (h id b (hid ▸ hb)).final hs
    · exact h id b' hb'

/-- **A signed request that is applied** warrants what it changes.

**Proof sketch.** By the call: an offer is the first deed of the branch that it opens, an
acceptance, a commitment or a cancellation is the next one of its branch; the branches that an
advance ends have their deeds already. -/
theorem warranted_call {c : Ledger.Call ν} (hc : l.call py c = .ok l') (hcalls : request.Calls c)
    (hsigned : request.SignedBy py given c.signer)
    (h : ∀ id b, l.branches.get? id = some b → Warranted py given requests id b) :
    ∀ id b, l'.branches.get? id = some b → Warranted py given (requests ++ [(l, request)]) id b := by
  have hmore : ∀ id b, l.branches.get? id = some b →
      Warranted py given (requests ++ [(l, request)]) id b :=
    fun id b hb => (h id b hb).append _
  -- a change of one branch
  have hset : ∀ {branchId : String} {b' : Branch ν},
      Warranted py given (requests ++ [(l, request)]) branchId b' → ∀ id b,
        (l.branches.set branchId b').get? id = some b →
        Warranted py given (requests ++ [(l, request)]) id b := by
    intro branchId b' hb' id b hb
    rw [Dict.get?_set] at hb
    split_ifs at hb with hid
    · obtain rfl := Option.some.inj hb
      exact hid ▸ hb'
    · exact hmore id b hb
  refine Ledger.call_induction (I := fun m => ∀ id b, m.branches.get? id = some b →
    Warranted py given (requests ++ [(l, request)]) id b) hc hmore (fun _ _ _ => hmore) ?_ ?_ ?_ ?_
    (fun _ _ _ _ _ hm => hm) fun _ m m' branchId _ _ hturn hm => warranted_turn hturn hm
  · rintro sender receiver value ttl rfl -
    exact hset ⟨[(l, request)], List.sublist_append_right _ _,
      .cons ⟨rfl, ⟨ttl, hcalls⟩, hsigned⟩ .nil⟩
  · rintro branchId b rfl hb - -
    exact hset ((h branchId b hb).accepted ⟨hcalls, hsigned⟩)
  · rintro branchId b payload rfl hb hs -
    exact hset ((h branchId b hb).committed hs rfl ⟨⟨payload, hcalls, rfl⟩, hsigned⟩)
  · rintro branchId actor b held rfl hb - hactor -
    exact hset ((h branchId b hb).cancelled ⟨actor, hactor, hcalls, hsigned⟩)

end Deeds

/-! ## Funds -/

/-- What an account commits to in a request: the value of the branch that it commits. -/
def spends (account : String) (entry : Ledger ν × Request ν) : ℚ :=
  match entry.2.call? with
  | some (.commit id sender _) =>
    if sender = account then ((entry.1.branches.get? id).map fun b => val b.value).getD 0 else 0
  | _ => 0

/-- What an account has committed to in some requests. -/
def spent (account : String) (requests : List (Ledger ν × Request ν)) : ℚ :=
  (requests.map (spends account)).sum

namespace Ledger

/-- The value of a branch, if it is a committed one of an account. -/
def committedOf (account : String) (b : Branch ν) : ℚ :=
  if b.sender = account ∧ b.state = .committed then val b.value else 0

/-- The value of the committed branches of an account. -/
def committedBy (l : Ledger ν) (account : String) : ℚ :=
  l.branches.sum fun _ b => committedOf account b

section Funds

variable {py : PyLib ν} {l l' m : Ledger ν} {id a : String} {b b' : Branch ν} {base : ℚ}

lemma committedOf_of_ne (h : b.state ≠ .committed) : committedOf a b = 0 :=
  if_neg fun hb => h hb.2

lemma committedOf_of_committed (h : b.state = .committed) :
    committedOf a b = if b.sender = a then val b.value else 0 := by
  rw [committedOf]
  exact if_congr (and_iff_left h) rfl rfl

/-- Branches have values. -/
lemma committedOf_nonneg (h : LockInv l) (hb : l.branches.get? id = some b) :
    0 ≤ committedOf a b := by
  unfold committedOf
  split_ifs
  · exact (h.branch id b hb).value_pos.le
  · exact le_rfl

lemma committedBy_nonneg (h : LockInv l) (a : String) : 0 ≤ l.committedBy a :=
  Dict.sum_nonneg fun _ _ hb => committedOf_nonneg h hb

/-- The free funds of an account that no longer count what it has committed. -/
def uncommitted (l : Ledger ν) (a : String) : ℚ :=
  val (l.balances.getD a (ofInt 0)) - l.committedBy a

/-- A change of one branch. -/
lemma uncommitted_set (hbalances : m.balances = l.balances)
    (hbranches : m.branches = l.branches.set id b') (hb : l.branches.get? id = some b) :
    m.uncommitted a = l.uncommitted a - (committedOf a b' - committedOf a b) := by
  rw [uncommitted, uncommitted, committedBy, committedBy, hbalances, hbranches,
    Dict.sum_set_of_some _ _ hb]
  ring

/-- A change of one branch that is not committed, before or after. -/
lemma uncommitted_set_of_ne (hbalances : m.balances = l.balances)
    (hbranches : m.branches = l.branches.set id b') (hb : l.branches.get? id = some b)
    (hs : b.state ≠ .committed) (hs' : b'.state ≠ .committed) :
    m.uncommitted a = l.uncommitted a := by
  rw [uncommitted_set hbalances hbranches hb, committedOf_of_ne hs, committedOf_of_ne hs']
  ring

/-- An offer commits nothing, and what it overwrites is not taken from anyone. -/
lemma uncommitted_le_opened (h : LockInv l) {sender receiver : String} {value ttl : ν} :
    l.uncommitted a ≤ (l.opened py sender receiver value ttl).uncommitted a := by
  have hnew : committedOf a (l.newBranch py sender receiver value ttl) = 0 :=
    committedOf_of_ne (by show BranchState.offered ≠ .committed; decide)
  cases hold : l.branches.get? (l.nextBranchId py sender receiver value) with
  | none =>
    rw [uncommitted, uncommitted, committedBy, committedBy, branches_opened,
      Dict.sum_set_of_none _ _ hold, hnew, add_zero]
    exact le_rfl
  | some b =>
    have hb := committedOf_nonneg (a := a) h hold
    rw [uncommitted_set (l := l) (m := l.opened py sender receiver value ttl) rfl rfl hold, hnew]
    linarith

/-- A settlement takes from the sender what it has committed, and gives it to the receiver. -/
lemma uncommitted_le_settled (h : LockInv l) (hb : l.branches.get? id = some b)
    (hs : b.state = .committed) {balance held : ν}
    (hbalance : l.balances.get? b.sender = some balance) :
    l.uncommitted a ≤ (l.settled py id b balance held).uncommitted a := by
  have hbranch := h.branch id b hb
  have hvalue := hbranch.value_pos
  have hfinal : committedOf a { b with state := .final } = 0 :=
    committedOf_of_ne (by show BranchState.final ≠ .committed; decide)
  rw [uncommitted, uncommitted, committedBy, committedBy, balances_settled, branches_settled,
    Dict.sum_set_of_some _ _ hb, hfinal, committedOf_of_committed hs,
    val_transferred hbalance hbranch.distinct]
  split_ifs <;> linarith

/-- A visit of a branch. -/
lemma uncommitted_le_turn (h : LockInv l) (hturn : BranchTurn py l id m) :
    l.uncommitted a ≤ m.uncommitted a := by
  cases hturn with
  | stay => exact le_rfl
  | expire b held hb hs =>
    refine (uncommitted_set_of_ne (l := l) (m := l.released id b .expired held) rfl rfl hb
      ?_ ?_).ge
    · rcases hs with hs | hs <;> rw [hs] <;> decide
    · show BranchState.expired ≠ .committed
      decide
  | final b _ balance held hb hs _ _ hbalance _ => exact uncommitted_le_settled h hb hs hbalance

/-- Registering an account. -/
lemma uncommitted_registered {account : String} (hnew : l.balances.get? account = none) :
    (l.registered py account).uncommitted a = l.uncommitted a := by
  have hbalance : (l.registered py account).balances.getD a (ofInt 0) =
      l.balances.getD a (ofInt 0) := by
    show (l.balances.set account (ofInt 0)).getD a (ofInt 0) = _
    rw [Dict.getD_set]
    split_ifs with ha
    · rw [← ha, Dict.getD, hnew]
      rfl
    · rfl
  rw [uncommitted, hbalance]
  rfl

end Funds

end Ledger

section Spending

variable {py : PyLib ν} {l l' : Ledger ν} {request : Request ν} {c : Ledger.Call ν} {a : String}

/-- A request commits to nothing negative. -/
lemma spends_nonneg (h : Ledger.LockInv l) : 0 ≤ spends a (l, request) := by
  unfold spends
  split
  · split_ifs
    · next id _ _ _ _ =>
      cases hb : l.branches.get? id with
      | none => exact le_rfl
      | some b => exact (h.branch id b hb).value_pos.le
    · exact le_rfl
  · exact le_rfl

/-- **A request that is applied** takes from the free funds of an account no more than what the
account commits to in it.

**Proof sketch.** By the call. Only a commitment lowers the free funds, by the value of its branch;
the settlement that follows later finds this value set aside. -/
theorem uncommitted_call (h : Ledger.LockInv l) (hcalls : request.Calls c)
    (hc : l.call py c = .ok l') :
    l.uncommitted a - spends a (l, request) ≤ l'.uncommitted a := by
  have hspends : 0 ≤ spends a (l, request) := spends_nonneg h
  have hweaker : ∀ {q : ℚ}, l.uncommitted a ≤ q → l.uncommitted a - spends a (l, request) ≤ q :=
    fun hq => by linarith
  cases c with
  | register account =>
    obtain ⟨⟨-, -, hnew⟩, rfl⟩ := Ledger.registerAccount_eq_ok.mp hc
    exact hweaker (Ledger.uncommitted_registered hnew).ge
  | offer sender receiver value ttl =>
    obtain ⟨_, hc⟩ := Ledger.exists_of_fst_map_eq_ok hc
    obtain ⟨-, rfl, -⟩ := Ledger.offer_eq_ok.mp hc
    exact hweaker (Ledger.uncommitted_le_opened h)
  | accept id receiver =>
    obtain ⟨_, hc⟩ := Ledger.exists_of_fst_map_eq_ok hc
    obtain ⟨b, hb, hs, -, -, rfl, rfl⟩ := Ledger.accept_eq_ok.mp hc
    refine hweaker (Ledger.uncommitted_set_of_ne (l := l) (m := l.setBranch id _) rfl rfl hb
      ?_ ?_).ge
    · rw [hs]
      decide
    · show BranchState.accepted ≠ .committed
      decide
  | commit id sender payload =>
    obtain ⟨_, hc⟩ := Ledger.exists_of_fst_map_eq_ok hc
    obtain ⟨b, hb, hs, -, rfl, rfl, rfl⟩ := Ledger.commit_eq_ok.mp hc
    have hopen : b.state ≠ .committed := by
      rw [hs]
      decide
    rw [Ledger.uncommitted_set (l := l) (m := l.setBranch id _) rfl rfl hb,
      Ledger.committedOf_of_ne hopen, Ledger.committedOf_of_committed rfl, spends,
      Request.call?_of_calls hcalls]
    simp [hb]
  | cancel id actor =>
    obtain ⟨_, hc⟩ := Ledger.exists_of_fst_map_eq_ok hc
    obtain ⟨b, held, hb, hs, -, -, -, rfl⟩ := Ledger.cancel_eq_ok.mp hc
    refine hweaker (Ledger.uncommitted_set_of_ne (l := l) (m := l.released id b .cancelled held)
      rfl rfl hb ?_ ?_).ge
    · rcases hs with hs | hs <;> rw [hs] <;> decide
    · show BranchState.cancelled ≠ .committed
      decide
  | advance rounds =>
    refine hweaker (Ledger.advance_induction (I := fun m => Ledger.LockInv m ∧
      l.uncommitted a ≤ m.uncommitted a) hc ⟨h, le_rfl⟩ ?_ ?_).2
    · exact fun m hm => ⟨hm.1.ticked, hm.2⟩
    · exact fun m m' id _ hturn hm =>
        ⟨hm.1.turn hturn, hm.2.trans (Ledger.uncommitted_le_turn hm.1 hturn)⟩

end Spending

/-! ## The invariant -/

/-- A request that has been applied to a ledger was signed by the actor that it speaks for, and this
is the party that the branch asks for. -/
def Authorized (py : PyLib ν) (given : String → String → Prop) (entry : Ledger ν × Request ν) :
    Prop :=
  ∃ c, entry.2.Calls c ∧ entry.1.Entitles c ∧ entry.2.SignedBy py given c.signer

namespace Ledger

/-- **The invariant of a ledger** that some requests have led to: it is sane, its branches are
warranted, and no account has lost more than it has committed to. -/
structure Backed (py : PyLib ν) (given : String → String → Prop) (start : Ledger ν)
    (requests : List (Ledger ν × Request ν)) (l : Ledger ν) : Prop where
  sane : Sane py l
  warranted : ∀ id b, l.branches.get? id = some b → Warranted py given requests id b
  funds : ∀ a, val (start.balances.getD a (ofInt 0)) - spent a requests ≤ l.uncommitted a

variable {py : PyLib ν} {given : String → String → Prop} {start l l' : Ledger ν}
  {requests : List (Ledger ν × Request ν)} {request : Request ν}

/-- An initial ledger has no branches. -/
lemma Initial.backed (h : Initial py start) : Backed py given start [] start where
  sane := h.sane
  warranted id b hb := by
    rw [h.branches_eq] at hb
    cases hb
  funds a := by
    rw [uncommitted, committedBy, h.branches_eq]
    exact le_of_eq (by simp [spent, Dict.sum])

/-- **A signed request that is applied** keeps the invariant. -/
theorem Backed.call (h : Backed py given start requests l) {c : Call ν}
    (hcalls : request.Calls c) (hsigned : request.SignedBy py given c.signer)
    (hc : l.call py c = .ok l') : Backed py given start (requests ++ [(l, request)]) l' where
  sane := h.sane.call hc
  warranted := warranted_call hc hcalls hsigned h.warranted
  funds a := by
    have hfunds := h.funds a
    have hstep := uncommitted_call (a := a) h.sane.lock hcalls hc
    have hspent : spent a (requests ++ [(l, request)]) =
        spent a requests + spends a (l, request) := by
      simp [spent]
    rw [hspent]
    linarith

/-- A reload keeps the invariant. -/
lemma Backed.reload (h : Backed py given start requests l) {expected : Option GenesisConfig}
    (hl : Ledger.fromSnapshot py l.snapshot expected = .ok l') :
    Backed py given start requests l' := by
  have hsane := h.sane.reload hl
  obtain ⟨rfl, -⟩ := h.sane.fromSnapshot hl
  refine ⟨hsane, h.warranted, fun a => (h.funds a).trans_eq ?_⟩
  rw [uncommitted, uncommitted, Dict.getD, Dict.getD, reloaded, Dict.get?_sorted]
  rfl

end Ledger

namespace ReferenceNode

/-- **The invariant of a node** that has applied some requests: they were all authorized, and they
back the ledger in memory and the one that the node would come back with. -/
structure Guarded (py : PyLib ν) (given : String → String → Prop) (boot : Ledger ν)
    (requests : List (Ledger ν × Request ν)) (n : ReferenceNode ν) : Prop where
  authenticated : n.app.authenticator.isSome = true
  holds : n.app.Holds given
  authorized : ∀ entry ∈ requests, Authorized py given entry
  memory : Ledger.Backed py given boot requests n.app.ledger
  disk : n.hasStore = true → ∀ s, n.disk = some s →
    s.app.authenticator.isSome = true ∧
      Ledger.Backed py given boot requests s.app.ledger
  unsaved : n.hasStore = true → n.disk = none → requests = []

section Steps

variable {py : PyLib ν} {given : String → String → Prop} {keys : Keyring (Request ν)}
  {self : Option Role} {boot : Ledger ν} {requests : List (Ledger ν × Request ν)}
  {n t : ReferenceNode ν} {e : NodeEvent ν}

/-- An event that keeps the ledger. -/
lemma Guarded.keeps (h : Guarded py given boot requests n) (hkeeps : Keeps n t)
    (hholds : t.app.Holds given) : Guarded py given boot requests t where
  authenticated := hkeeps.app.authenticated.trans h.authenticated
  holds := hholds
  authorized := h.authorized
  memory := hkeeps.app.ledger ▸ h.memory
  disk hstore s hs := by
    rcases hkeeps.disk with hsame | ⟨s', hs', hsaved⟩
    · exact h.disk (hkeeps.hasStore ▸ hstore) s (hsame ▸ hs)
    · obtain rfl : s' = s := Option.some.inj (hs'.symm.trans hs)
      exact ⟨hsaved.authenticated.trans h.authenticated, hsaved.ledger ▸ h.memory⟩
  unsaved hstore hnone := by
    rcases hkeeps.disk with hsame | ⟨s', hs', -⟩
    · exact h.unsaved (hkeeps.hasStore ▸ hstore) (hsame ▸ hnone)
    · rw [hnone] at hs'
      cases hs'

/-- An event that applies a request. -/
lemma Guarded.applies (h : Guarded py given boot requests n) {request : Request ν}
    {c : Ledger.Call ν} (happlies : AppliesTo py n t request c) (hholds : t.app.Holds given) :
    Guarded py given boot (requests ++ [(n.app.ledger, request)]) t := by
  obtain ⟨a, token, hadmits, -⟩ := happlies.admitted
  have hsigned := hadmits.signedBy h.holds happlies.calls
  have hbacked := h.memory.call happlies.calls hsigned happlies.call
  refine ⟨happlies.authenticated, hholds, fun entry hmem => ?_, hbacked, fun hstore s hs => ?_,
    fun hstore hnone => ?_⟩
  · rcases List.mem_append.mp hmem with hmem | hmem
    · exact h.authorized entry hmem
    · obtain rfl := List.mem_singleton.mp hmem
      exact ⟨c, happlies.calls, Ledger.entitles_of_call happlies.call, hsigned⟩
  · rw [happlies.disk, if_pos (happlies.hasStore ▸ hstore)] at hs
    cases hs
    exact ⟨happlies.authenticated, hbacked⟩
  · rw [happlies.disk, if_pos (happlies.hasStore ▸ hstore)] at hnone
    cases hnone

/-- A restart: the ledger in the file is backed by what has been applied. -/
lemma Guarded.restarted {secrets : Dict String String} (h : Guarded py given boot requests n)
    (hboot : Ledger.Initial py boot) (hholds : t.app.Holds given)
    (hstep : ReferenceNode.restarted py keys boot n secrets = some t) :
    Guarded py given boot requests t := by
  have hstore : n.hasStore = true := by
    unfold ReferenceNode.restarted at hstep
    split_ifs at hstep with hstore
    exact hstore
  cases hdisk : n.disk with
  | none =>
    obtain rfl := h.unsaved hstore hdisk
    unfold ReferenceNode.restarted at hstep
    rw [if_pos hstore, hdisk] at hstep
    obtain rfl := Option.some.inj hstep
    refine ⟨?_, hholds, h.authorized, hboot.backed, fun _ s hs => (by cases hs), fun _ _ => rfl⟩
    show (n.app.authenticator.map _).isSome = true
    rw [Option.isSome_map]
    exact h.authenticated
  | some s =>
    have hback := comesBack_of_restarted hdisk hstep
    obtain ⟨hsaved, hbacked⟩ := h.disk hstore s hdisk
    refine ⟨?_, hholds, h.authorized, hbacked.reload hback.ledger, fun _ s' hs' => ?_,
      fun _ hnone => ?_⟩
    · rw [hback.authenticator, Option.isSome_map]
      exact hsaved
    · obtain rfl : s = s' := Option.some.inj (hback.disk.symm.trans hs')
      exact ⟨hsaved, hbacked⟩
    · rw [hback.disk] at hnone
      cases hnone

/-- **Every event keeps the invariant**, if the credentials that it brings have been given. -/
theorem Guarded.step [DecidableEq ν] (h : Guarded py given boot requests n)
    (hboot : Ledger.Initial py boot) (hprovides : Provides given e)
    (hstep : nodeStep py keys self boot n e = some t) :
    Guarded py given boot (requests ++ (appliedRequest n e t).toList) t := by
  have hholds := holds_step h.holds hprovides hstep
  by_cases hrestart : ∃ secrets, e = .restart secrets
  · obtain ⟨secrets, rfl⟩ := hrestart
    have hnothing : appliedRequest n (.restart secrets) t = none := rfl
    rw [hnothing, Option.toList_none, List.append_nil]
    exact h.restarted hboot hholds hstep
  · rw [not_exists] at hrestart
    rcases nodeStep_cases h.authenticated hrestart hstep with hkeeps | ⟨r, c, hcarried, happlies⟩
    · rw [appliedRequest_of_keeps hkeeps, Option.toList_none, List.append_nil]
      exact h.keeps hkeeps hholds
    · rw [appliedRequest_of_appliesTo hrestart hcarried happlies]
      exact h.applies happlies hholds

/-- A run keeps the invariant. -/
lemma Guarded.run [DecidableEq ν] {events : List (NodeEvent ν)}
    (h : Guarded py given boot requests n) (hboot : Ledger.Initial py boot)
    (hprovides : ∀ e ∈ events, Provides given e)
    (hrun : Transition.run (nodeStep py keys self boot) n events = some t) :
    Guarded py given boot (requests ++ applied py keys self boot n events) t := by
  induction events generalizing n requests with
  | nil =>
    obtain rfl := Option.some.inj hrun
    rw [applied, List.append_nil]
    exact h
  | cons e events ih =>
    obtain ⟨m, hm, hrest⟩ := Transition.run_cons_eq_some_iff.mp hrun
    have happlied : applied py keys self boot n (e :: events) =
        (appliedRequest n e m).toList ++ applied py keys self boot m events := by
      rw [applied, hm]
    rw [happlied, ← List.append_assoc]
    exact ih (h.step hboot (hprovides e List.mem_cons_self) hm)
      (fun f hf => hprovides f (List.mem_cons_of_mem _ hf)) hrest

end Steps

/-- **No theft.** On a node with an authenticator, after every run with integer amounts,

* every request that has been applied was signed, under a credential that the operator has given for
  it, by the actor that it speaks for: an offer or a commitment by the sender of its branch, an
  acceptance by the receiver, a cancellation by one of the two, a new round or a registration by the
  operator of the network;
* every branch in the ledger has come into its state by such requests of its parties, in order;
* the balance of an account has fallen by no more than the values of the branches that the account
  itself has committed.

**Proof sketch.** Induction on the run. An event keeps the ledger, applies one admitted request, or
reloads the file, which holds what has been applied. What is admitted is signed under a credential
that the node holds, and a node holds given credentials only. -/
theorem no_theft (py : PyLib ℤ) (keys : Keyring (Request ℤ)) (self : Option Role) {boot : Ledger ℤ}
    (hboot : Ledger.Initial py boot) (secrets : Dict String String)
    (registry : Option (Dict String (Json ℤ))) (hasStore : Bool) {events : List (NodeEvent ℤ)}
    {n : ReferenceNode ℤ}
    (hrun : Transition.run (nodeStep py keys self boot)
      (Node.fresh ⟨boot, some ⟨secrets, ∅⟩, registry⟩ hasStore) events = some n) :
    let requests := applied py keys self boot
      (Node.fresh ⟨boot, some ⟨secrets, ∅⟩, registry⟩ hasStore) events
    (∀ entry ∈ requests, Authorized py (Given secrets registry events) entry) ∧
      (∀ id b, n.app.ledger.branches.get? id = some b →
        Warranted py (Given secrets registry events) requests id b) ∧
      ∀ a, val (boot.balances.getD a (ofInt 0)) - spent a requests ≤
        val (n.app.ledger.balances.getD a (ofInt 0)) := by
  have hstart : Guarded py (Given secrets registry events) boot []
      (Node.fresh ⟨boot, some ⟨secrets, ∅⟩, registry⟩ hasStore) :=
    ⟨rfl, holds_fresh, fun _ hmem => (by cases hmem), hboot.backed, fun _ _ hs => (by cases hs),
      fun _ _ => rfl⟩
  have hend := hstart.run hboot (fun _ he => provides_of_mem he) hrun
  refine ⟨hend.authorized, hend.memory.warranted, fun a => (hend.memory.funds a).trans ?_⟩
  have hcommitted := Ledger.committedBy_nonneg hend.memory.sane.lock a
  rw [Ledger.uncommitted]
  linarith

/-- The credentials of a payer, a payee and the operator of the network. -/
def partiesCredentials : Dict String String :=
  Dict.ofList [("alice", "wonderland"), ("bob", "builder"), ("testnet_operator", "operations")]

/-- A request that its actor has signed. -/
def signedRequest (actor : String) (nonce : ℤ) (method : String)
    (params : List (String × Json ℤ)) : NodeEvent ℤ :=
  let unsigned : Request ℤ := ⟨.num nonce, .str method, .obj params, .null⟩
  let auth := unsigned.sign Ledger.integerLib actor nonce (partiesCredentials.getD actor "")
  .request none true true { unsigned with auth := auth }

/-- A payment from its offer to its settlement. -/
def payment (branchId : String) : List (NodeEvent ℤ) :=
  [signedRequest "alice" 1 "offer"
      [("sender", .str "alice"), ("receiver", .str "bob"), ("value", .num 4)],
    signedRequest "bob" 1 "accept" [("branch_id", .str branchId), ("receiver", .str "bob")],
    signedRequest "alice" 2 "commit"
      [("branch_id", .str branchId), ("sender", .str "alice"), ("payload", .obj [])],
    signedRequest "testnet_operator" 1 "advance" [("rounds", .num 3)]]

/-- Once `alice` has lost four coins, she has committed to as many. -/
theorem no_theft_payment :
    let boot := Ledger.ofBalances Ledger.integerLib (Dict.ofList [("alice", 10), ("bob", 0)])
    let start := Node.fresh ⟨boot, some ⟨partiesCredentials, ∅⟩, none⟩ true
    let events := payment (boot.nextBranchId Ledger.integerLib "alice" "bob" 4)
    ∃ n, Transition.run (nodeStep Ledger.integerLib (sharedKeys Ledger.integerLib "cluster") none
        boot) start events = some n ∧
      n.app.ledger.balances.getD "alice" 0 = 6 ∧
      4 ≤ spent "alice" (applied Ledger.integerLib (sharedKeys Ledger.integerLib "cluster") none
        boot start events) := by
  intro boot start events
  have hrun : (Transition.run (nodeStep Ledger.integerLib
      (sharedKeys Ledger.integerLib "cluster") none boot) start events).any (fun n =>
        decide (n.app.ledger.balances.getD "alice" 0 = 6)) = true := by
    decide +kernel
  obtain ⟨n, hn, hbalance⟩ := (Option.any_eq_true _ _).mp hrun
  have hbalance := of_decide_eq_true hbalance
  refine ⟨n, hn, hbalance, ?_⟩
  have hfunds := (no_theft Ledger.integerLib (sharedKeys Ledger.integerLib "cluster") none
    Ledger.initial_payment partiesCredentials none true hn).2.2 "alice"
  have hstart : boot.balances.getD "alice" (ofInt 0) = 10 := by decide
  rw [hstart, PyNumber.ofInt_int, hbalance, PyNumber.val_int, PyNumber.val_int] at hfunds
  have hsix : ((10 : ℤ) : ℚ) - ((6 : ℤ) : ℚ) = 4 := by norm_num
  linarith

end ReferenceNode

end SplitChain
