import SplitChain.Model.Distributor
import SplitChain.Model.Lifecycle

set_option relaxedAutoImplicit false
set_option autoImplicit false

/-!
# Payments of the distributor

The distributor pays nobody twice. At any time the cluster has, of all the offers the distributor
has made to a recipient, at most one that it has not refused; and if there is one, the journal on
disk either knows a branch of that recipient or has the offer in flight. The first is kept because
a new offer is made only when the journal shows neither; the second because the entry that is in
flight is cleared only for a branch that takes its place, or for a refused request.

## Main definitions

* `SplitChain.Ledger.faucetBranches`, `SplitChain.Ledger.received` — what the faucet has offered and
  paid to an account.
* `SplitChain.Cluster.Orderly`, `SplitChain.DistributorState.Records` — the invariant.

## Main results

* `SplitChain.Distributor.ends_mutate`, `SplitChain.Distributor.ends_fund` — the programs keep the
  invariant, however they end.
* `SplitChain.Distributor.never_pays_twice` — every schedule of runs.
-/

namespace SplitChain

open Raise Proc

open PyNumber (val ofInt)

variable {ν : Type} [PyNumber ν]

/-! ## Branches of the faucet -/

namespace Ledger

/-- The branches that the faucet has opened to an account. -/
def faucetBranches (l : Ledger ν) (recipient : String) : List (Branch ν) :=
  l.branches.values.filter fun b => b.sender == Distributor.sender && b.receiver == recipient

/-- What the faucet has paid to an account. -/
def received (l : Ledger ν) (recipient : String) : ℚ :=
  ((l.faucetBranches recipient).map fun b => if b.state = .final then val b.value else 0).sum

/-- The branch under a name is one of the faucet to an account. -/
def Pays (l : Ledger ν) (recipient id : String) : Prop :=
  ∃ b, l.branches.get? id = some b ∧ b.sender = Distributor.sender ∧ b.receiver = recipient

variable {py : PyLib ν} {l l' : Ledger ν} {c : Call ν} {id recipient : String}

/-- A branch after a call is new, or it has the terms of the branch there was. -/
lemma branch_of_call (h : l.call py c = .ok l') {b' : Branch ν}
    (hb' : l'.branches.get? id = some b') :
    (∃ s r v t, c = .offer s r v t ∧ b' = l.newBranch py s r v t ∧ id = l.nextBranchId py s r v) ∨
    ∃ b, l.branches.get? id = some b ∧ b'.branchId = b.branchId ∧ b'.sender = b.sender ∧
      b'.receiver = b.receiver ∧ b'.value = b.value := by
  rcases get?_call h id with ⟨s, r, v, t, rfl, -, hid, -, hnew⟩ | ⟨rounds, -, -, -, haged⟩ |
    ⟨-, -, hacts⟩
  · exact .inl ⟨s, r, v, t, rfl, Option.some.inj (hb'.symm.trans hnew), hid.symm⟩
  · rw [hb', eq_comm, Option.map_eq_some_iff] at haged
    obtain ⟨b, hb, rfl⟩ := haged
    obtain ⟨hid, hs, hr, hv, -⟩ := (Branch.later_aged (b := b)).terms
    exact .inr ⟨b, hb, hid, hs, hr, hv⟩
  · rw [hb'] at hacts
    cases hb : l.branches.get? id with
    | none => rw [hb] at hacts; cases hacts
    | some b =>
      rw [hb] at hacts
      cases hacts with
      | some hacts =>
        refine .inr ⟨b, rfl, ?_⟩
        cases hacts <;> exact ⟨rfl, rfl, rfl, rfl⟩

/-- A branch of the faucet was there before a call, or the call is the offer that opens it. -/
lemma pays_of_call (h : l.call py c = .ok l') (hpays : l'.Pays recipient id) :
    l.Pays recipient id ∨ ∃ v t, c = .offer Distributor.sender recipient v t ∧
      id = l.nextBranchId py Distributor.sender recipient v := by
  obtain ⟨b', hb', hsender, hreceiver⟩ := hpays
  obtain ⟨s, r, v, t, rfl, rfl, hid⟩ | ⟨b, hb, -, hs, hr, -⟩ := branch_of_call h hb'
  · obtain rfl : s = Distributor.sender := hsender
    obtain rfl : r = recipient := hreceiver
    exact .inr ⟨v, t, rfl, hid⟩
  · exact .inl ⟨b, hb, hs ▸ hsender, hr ▸ hreceiver⟩

omit [PyNumber ν] in
/-- One branch under one name: the faucet has at most one to the account. -/
lemma length_faucetBranches (h : ∀ id id', l.Pays recipient id → l.Pays recipient id' → id = id') :
    (l.faucetBranches recipient).length ≤ 1 := by
  have hpays : ∀ p ∈ l.branches.entries, p.2.sender = Distributor.sender →
      p.2.receiver = recipient → l.Pays recipient p.1 := fun p hp hs hr =>
    ⟨p.2, Dict.get?_eq_some_iff.mpr hp, hs, hr⟩
  have hdistinct : l.branches.entries.Pairwise fun p q => p.1 ≠ q.1 :=
    List.pairwise_map.mp l.branches.nodup_keys
  unfold faucetBranches Dict.values
  rw [List.filter_map, List.length_map]
  -- Two branches in the list would have two names.
  match hlist : l.branches.entries.filter _ with
  | [] => exact Nat.zero_le 1
  | [_] => exact le_rfl
  | p :: q :: ps =>
    have hpair := hdistinct.sublist (hlist ▸ List.filter_sublist)
    have hmem : ∀ e ∈ p :: q :: ps, l.Pays recipient e.1 := fun e he => by
      rw [← hlist, List.mem_filter] at he
      simp only [Function.comp_apply, Bool.and_eq_true, beq_iff_eq] at he
      exact hpays e he.1 he.2.1 he.2.2
    exact ((List.pairwise_cons.mp hpair).1 q List.mem_cons_self (h _ _ (hmem p List.mem_cons_self)
      (hmem q (List.mem_cons_of_mem _ List.mem_cons_self)))).elim

/-- An account to which the faucet has one branch has received its value at most. -/
lemma received_le {amount : ℚ} (hpositive : 0 ≤ amount)
    (hlength : (l.faucetBranches recipient).length ≤ 1)
    (hvalue : ∀ b ∈ l.faucetBranches recipient, val b.value = amount) :
    l.received recipient ≤ amount := by
  unfold received
  match hlist : l.faucetBranches recipient with
  | [] => simpa using hpositive
  | [b] =>
    have hb := hvalue b (hlist ▸ List.mem_cons_self)
    rw [List.map_singleton, List.sum_singleton, hb]
    split_ifs
    · exact le_rfl
    · exact hpositive
  | _ :: _ :: _ => rw [hlist] at hlength; simp at hlength

end Ledger

/-! ## The requests of the distributor -/

/-- Whether a request offers something to an account. -/
def Request.offersTo (recipient : String) (request : Request ν) : Bool :=
  match request.call with
  | .ok (.offer _ receiver _ _) => receiver == recipient
  | _ => false

/-- A request that offers something to an account. -/
lemma Request.offersTo_iff {recipient : String} {request : Request ν} :
    request.offersTo recipient = true ↔ ∃ s v t, request.call = .ok (.offer s recipient v t) := by
  unfold Request.offersTo
  split
  · next s r v t hcall =>
    simp only [hcall, beq_iff_eq, Except.ok.injEq, Ledger.Call.offer.injEq]
    exact ⟨fun h => ⟨s, v, t, rfl, h, rfl, rfl⟩, fun ⟨_, _, _, _, h, _, _⟩ => h⟩
  · next hcall => exact ⟨nofun, fun ⟨s, v, t, h⟩ => (hcall _ _ _ _ h).elim⟩

section Calls

variable (id auth : Json ν)

/-- The offer that the distributor makes. -/
lemma Request.call_offer (s r : String) (v t : ν) :
    Request.call ⟨id, .str Method.offer.name, .obj [("sender", .str s), ("receiver", .str r),
      ("value", .num v), ("ttl", .num t)], auth⟩ = .ok (.offer s r v t) := by
  have hparams : (Dict.ofList [("sender", Json.str s), ("receiver", .str r), ("value", .num v),
      ("ttl", .num t)]).entries = _ := Dict.entries_ofList (by simp)
  simp only [Request.call, Method.ofJson?, Method.ofName?_name, orRaise, Json.dict?, ok_bind]
  simp [Ledger.Call.ofParams, checkKeywords, argument, textArgument, nameArgument, numberArgument,
    require, Dict.keys, Dict.contains, Dict.get?, Dict.getD, Dict.lookup, hparams, orRaise,
      Json.num?]

/-- The acceptance that the distributor signs for a recipient. -/
lemma Request.call_accept (branchId r : String) :
    Request.call ⟨id, .str Method.accept.name, .obj [("branch_id", .str branchId),
      ("receiver", .str r)], auth⟩ = .ok (.accept branchId r) := by
  have hparams : (Dict.ofList [("branch_id", (Json.str branchId : Json ν)),
      ("receiver", .str r)]).entries = _ := Dict.entries_ofList (by simp)
  simp only [Request.call, Method.ofJson?, Method.ofName?_name, orRaise, Json.dict?, ok_bind]
  simp [Ledger.Call.ofParams, checkKeywords, argument, textArgument, nameArgument,
    participantArgument, require, Dict.keys, Dict.contains, Dict.get?, Dict.lookup, hparams,
    orRaise]

/-- The commit that the distributor makes. -/
lemma Request.call_commit (branchId s : String) (payload : Json ν) :
    Request.call ⟨id, .str Method.commit.name, .obj [("branch_id", .str branchId),
      ("sender", .str s), ("payload", payload)], auth⟩ = .ok (.commit branchId s payload) := by
  have hparams : (Dict.ofList [("branch_id", (Json.str branchId : Json ν)), ("sender", .str s),
      ("payload", payload)]).entries = _ := Dict.entries_ofList (by simp)
  simp only [Request.call, Method.ofJson?, Method.ofName?_name, orRaise, Json.dict?, ok_bind]
  simp [Ledger.Call.ofParams, checkKeywords, argument, textArgument, nameArgument,
    participantArgument, require, Dict.keys, Dict.contains, Dict.get?, Dict.lookup, hparams,
    orRaise]

end Calls

/-- Nobody but the distributor moves as the faucet. -/
def Move.SparesFaucet (m : Move ν) : Prop :=
  ∀ r v t, m ≠ .call (.offer Distributor.sender r v t)

namespace Distributor

/-- A request as the distributor makes them: if it is an offer, it is one of the faucet, of the
planned amount. -/
def Makes (d : Distributor) (request : Request ν) : Prop :=
  ∀ s r v t, request.call = .ok (.offer s r v t) → s = sender ∧ val v = d.plan.amount

end Distributor

namespace Cluster

/-- How many offers to an account the cluster has not refused. -/
def offers (c : Cluster ν) (recipient : String) : ℕ := c.requests.countP (·.offersTo recipient)

/-- **The invariant of the cluster**: its requests are the distributor's, at most one of them is an
offer to any one account, and the branches of the faucet are the ones that such offers open. -/
structure Orderly (d : Distributor) (c : Cluster ν) : Prop where
  made : ∀ q ∈ c.requests, d.Makes q
  single : ∀ r, c.offers r ≤ 1
  terms : ∀ l ∈ c.ledgers, ∀ id b, l.branches.get? id = some b → b.sender = Distributor.sender →
    b.branchId ≠ "" ∧ val b.value = d.plan.amount
  backed : ∀ r id, c.ledger.Pays r id → 0 < c.applied.countP (·.offersTo r)
  unique : ∀ l ∈ c.ledgers, ∀ r id id', l.Pays r id → l.Pays r id' → id = id'

variable {py : PyLib ν} {d : Distributor} {c : Cluster ν} {l : Ledger ν}

/-- The name of a branch is not empty, as digests are not. -/
lemma nextBranchId_ne (hsha : ∀ bs, py.sha256 bs ≠ "") (l : Ledger ν) (s r : String) (v : ν) :
    l.nextBranchId py s r v ≠ "" := by
  have hdigest : (protocolDigest py .branchId (l.branchIdValue s r v)).toList ≠ [] := fun h =>
    hsha _ (String.toList_inj.mp h)
  obtain ⟨ch, chs, hchs⟩ := List.exists_cons_of_ne_nil hdigest
  unfold Ledger.nextBranchId Ledger.shortId
  rw [hchs]
  intro h
  simpa using congrArg String.toList h

/-- The branches of the faucet after a call, if it is an offer of the faucet only with the planned
amount. -/
lemma Orderly.terms_become (h : c.Orderly d) (hsha : ∀ bs, py.sha256 bs ≠ "") {call : Ledger.Call ν}
    (hcall : c.ledger.call py call = .ok l)
    (hoffer : ∀ r v t, call = .offer Distributor.sender r v t → val v = d.plan.amount) :
    ∀ m ∈ l :: c.ledgers, ∀ id b, m.branches.get? id = some b → b.sender = Distributor.sender →
      b.branchId ≠ "" ∧ val b.value = d.plan.amount := by
  intro m hm id b hb hs
  rcases List.mem_cons.mp hm with rfl | hm
  · rcases Ledger.branch_of_call hcall hb with ⟨s, r, v, t, rfl, rfl, -⟩ | ⟨b', hb', hid, hs', -,
      hv⟩
    · obtain rfl : s = Distributor.sender := hs
      exact ⟨nextBranchId_ne hsha _ _ _ _, hoffer r v t rfl⟩
    · rw [hid, hv]
      exact h.terms _ List.mem_cons_self _ _ hb' (hs' ▸ hs)
  · exact h.terms m hm id b hb hs

/-- What a move does: nothing, a call of somebody else, or the application of a request. -/
lemma move_cases (py : PyLib ν) (c : Cluster ν) (m : Move ν) : c.move py m = c ∨
    (∃ call l, m = .call call ∧ c.ledger.call py call = .ok l ∧ c.move py m = c.become l) ∨
    ∃ request rest call l, c.pending.Perm (request :: rest) ∧ request.call = .ok call ∧
      c.ledger.call py call = .ok l ∧
      c.move py m = { c.become l with pending := rest, applied := request :: c.applied } := by
  unfold move
  cases m with
  | call call =>
    cases hcall : c.ledger.call py call with
    | error e => exact .inl (by simp only [hcall])
    | ok l => exact .inr (.inl ⟨call, l, rfl, hcall, by simp only [hcall]⟩)
  | apply index =>
    cases hpending : c.pending[index]? with
    | none => exact .inl (by simp only [hpending])
    | some request =>
      cases hcall : request.call >>= c.ledger.call py with
      | error e => exact .inl (by simp only [hpending, hcall])
      | ok l =>
        obtain ⟨call, hrequest, happlied⟩ := bind_eq_ok.mp hcall
        obtain ⟨hindex, rfl⟩ := List.getElem?_eq_some_iff.mp hpending
        exact .inr (.inr ⟨_, _, call, l, (List.getElem_cons_eraseIdx_perm hindex).symm, hrequest,
          happlied, by simp only [hpending, hcall]⟩)

/-- A call of somebody else keeps the invariant: it opens no branch of the faucet. -/
lemma Orderly.become (h : c.Orderly d) (hsha : ∀ bs, py.sha256 bs ≠ "") {call : Ledger.Call ν}
    (hcall : c.ledger.call py call = .ok l)
    (hother : ∀ r v t, call ≠ .offer Distributor.sender r v t) : (c.become l).Orderly d := by
  have hold : ∀ r id, l.Pays r id → c.ledger.Pays r id := fun r id hpays =>
    (Ledger.pays_of_call hcall hpays).resolve_right fun ⟨v, t, hc, _⟩ => hother r v t hc
  refine ⟨h.made, h.single, h.terms_become hsha hcall fun r v t hc => (hother r v t hc).elim,
    fun r id hpays => h.backed r id (hold r id hpays), ?_⟩
  intro m hm r id id' hid hid'
  rcases List.mem_cons.mp hm with rfl | hm
  · exact h.unique _ List.mem_cons_self r id id' (hold r id hid) (hold r id' hid')
  · exact h.unique m hm r id id' hid hid'

/-- The application of a request keeps the invariant.

**Proof sketch.** An offer that is applied is the only one to its account, so none has been applied
before and the faucet has no branch to the account yet. -/
lemma Orderly.apply (h : c.Orderly d) (hsha : ∀ bs, py.sha256 bs ≠ "") {request : Request ν}
    {rest : List (Request ν)} {call : Ledger.Call ν} (hperm : c.pending.Perm (request :: rest))
    (hrequest : request.call = .ok call) (hcall : c.ledger.call py call = .ok l) :
    ({ c.become l with pending := rest, applied := request :: c.applied } : Cluster ν).Orderly d := by
  have hrequests : (rest ++ request :: c.applied).Perm c.requests :=
    List.perm_middle.trans (hperm.symm.append_right _)
  have hmade := h.made request (List.mem_append_left _ (hperm.mem_iff.mpr List.mem_cons_self))
  -- No branch of the faucet to the account of the offer.
  have hfirst : ∀ {r id s v t}, call = .offer s r v t → ¬ c.ledger.Pays r id := by
    rintro r id s v t rfl hpays
    have hsingle := h.single r
    have hbacked := h.backed r id hpays
    unfold offers at hsingle
    rw [← hrequests.countP_eq, List.countP_append, List.countP_cons_of_pos
      (Request.offersTo_iff.mpr ⟨s, v, t, hrequest⟩)] at hsingle
    exact absurd (hsingle.trans' (Nat.le_add_left _ _)) (by simpa using hbacked.ne')
  refine ⟨fun q hq => h.made q (hrequests.mem_iff.mp hq),
    fun r => (hrequests.countP_eq _).trans_le (h.single r),
    h.terms_become hsha hcall fun r v t hc => (hmade _ r v t (hc ▸ hrequest)).2, ?_, ?_⟩
  · intro r id hpays
    rcases Ledger.pays_of_call hcall hpays with hold | ⟨v, t, rfl, -⟩
    · exact (h.backed r id hold).trans_le (List.sublist_cons_self ..).countP_le
    · exact List.countP_pos_iff.mpr
        ⟨request, List.mem_cons_self, Request.offersTo_iff.mpr ⟨_, v, t, hrequest⟩⟩
  · intro m hm r id id' hid hid'
    rcases List.mem_cons.mp hm with rfl | hm
    · rcases Ledger.pays_of_call hcall hid with hold | ⟨v, t, hc, rfl⟩
      · rcases Ledger.pays_of_call hcall hid' with hold' | ⟨v, t, hc, rfl⟩
        · exact h.unique _ List.mem_cons_self r id id' hold hold'
        · exact (hfirst hc hold).elim
      · rcases Ledger.pays_of_call hcall hid' with hold' | ⟨v', t', hc', rfl⟩
        · exact (hfirst hc hold').elim
        · cases hc.symm.trans hc'
          rfl
    · exact h.unique m hm r id id' hid hid'

/-- **Moves keep the invariant**, and the requests that the cluster has not refused. -/
lemma Orderly.move (h : c.Orderly d) (hsha : ∀ bs, py.sha256 bs ≠ "") {m : Move ν}
    (hm : m.SparesFaucet) : (c.move py m).Orderly d ∧ (c.move py m).requests.Perm c.requests := by
  obtain heq | ⟨call, l, rfl, hcall, heq⟩ | ⟨request, rest, call, l, hperm, hrequest, hcall, heq⟩ :=
    move_cases py c m
  · rw [heq]
    exact ⟨h, .refl _⟩
  · rw [heq]
    exact ⟨h.become hsha hcall fun r v t hc => hm r v t (hc ▸ rfl), .refl _⟩
  · rw [heq]
    exact ⟨h.apply hsha hperm hrequest hcall,
      List.perm_middle.trans (hperm.symm.append_right _)⟩

/-- The moves of a turn keep the invariant. -/
lemma Orderly.moves (hsha : ∀ bs, py.sha256 bs ≠ "") {ms : List (Move ν)} (h : c.Orderly d)
    (hms : ∀ m ∈ ms, m.SparesFaucet) :
    (ms.foldl (Cluster.move py) c).Orderly d ∧
      (ms.foldl (Cluster.move py) c).requests.Perm c.requests := by
  induction ms generalizing c with
  | nil => exact ⟨h, .refl _⟩
  | cons m ms ih =>
    obtain ⟨hfirst, hperm⟩ := h.move hsha (hms m List.mem_cons_self)
    obtain ⟨hrest, hperm'⟩ := ih hfirst fun n hn => hms n (List.mem_cons_of_mem _ hn)
    exact ⟨hrest, hperm'.trans hperm⟩

section Requests

variable [DecidableEq ν] {request : Request ν}

/-- A request can be sent: it has been before, or no offer to the same account is left. -/
def Admits (c : Cluster ν) (request : Request ν) : Prop :=
  request ∈ c.requests ∨ ∀ r, request.offersTo r = true → c.offers r = 0

/-- A request that is admitted keeps the invariant. -/
lemma Orderly.send (h : c.Orderly d) (hmakes : d.Makes request) (hadmits : c.Admits request) :
    (c.send request).Orderly d ∧ request ∈ (c.send request).requests ∧
      ∀ r, request.offersTo r = false → (c.send request).offers r = c.offers r := by
  unfold Cluster.send
  split_ifs with hmem
  · exact ⟨h, hmem, fun _ _ => rfl⟩
  · have hnone := hadmits.resolve_left hmem
    refine ⟨⟨?_, fun r => ?_, h.terms, h.backed, h.unique⟩, List.mem_cons_self, fun r hr => ?_⟩
    · intro q hq
      rcases List.mem_cons.mp hq with rfl | hq
      · exact hmakes
      · exact h.made q hq
    · show List.countP _ (request :: c.requests) ≤ 1
      by_cases hr : request.offersTo r = true
      · rw [List.countP_cons_of_pos hr]
        exact (congrArg (· + 1) (hnone r hr)).le
      · rw [List.countP_cons_of_neg hr]
        exact h.single r
    · exact List.countP_cons_of_neg (by rw [hr]; exact Bool.false_ne_true)

/-- A refusal keeps the invariant: no offer of the kind that is refused is left. -/
lemma Orderly.refuse (h : c.Orderly d) (hmem : request ∈ c.pending) :
    (c.refuse request).Orderly d ∧
      ∀ r, (c.refuse request).offers r + (if request.offersTo r then 1 else 0) = c.offers r := by
  have hperm : (request :: (c.refuse request).requests).Perm c.requests :=
    (List.perm_cons_erase hmem).symm.append_right _
  have hcount : ∀ r, (c.refuse request).offers r + (if request.offersTo r then 1 else 0) =
      c.offers r := fun r => by
    unfold offers
    rw [← hperm.countP_eq, List.countP_cons]
  refine ⟨⟨fun q hq => h.made q (hperm.mem_iff.mp (List.mem_cons_of_mem _ hq)), fun r => ?_,
    h.terms, h.backed, h.unique⟩, hcount⟩
  exact (Nat.le_add_right _ _).trans ((hcount r).le.trans (h.single r))

end Requests

end Cluster

/-! ## The journal -/

namespace DistributorState

/-- The journal has an offer to an account in flight. -/
def Reserves (state : DistributorState) (recipient : String) : Prop :=
  ∃ nonce, state.inFlight = some ⟨recipient, .offer, nonce⟩

/-- The journal knows a branch of an account. -/
def Knows (state : DistributorState) (recipient : String) : Prop :=
  state.knownBranches.getD recipient "" ≠ ""

/-- **The invariant of the journal**: it shows every offer that the cluster has not refused. -/
def Records (state : DistributorState) (c : Cluster ν) : Prop :=
  ∀ r, 0 < c.offers r → state.Reserves r ∨ state.Knows r

variable {state : DistributorState} {recipient branchId : String}

/-- A branch that is known stays known, and is one more. -/
lemma knows_learn (hid : branchId ≠ "") (r : String) :
    (state.learn recipient branchId).Knows r ↔ r = recipient ∨ state.Knows r := by
  unfold Knows learn
  rw [Dict.getD_set]
  split_ifs with h
  · exact ⟨fun _ => .inl h.symm, fun _ => hid⟩
  · exact ⟨.inr, fun hr => hr.resolve_left fun heq => h heq.symm⟩

end DistributorState

/-! ## Runs of the program -/

namespace Distribution

variable {d : Distributor} {s t : Distribution ν}

/-- The world of a run is in order, and nobody else will move as the faucet. -/
structure Sound (d : Distributor) (s : Distribution ν) : Prop where
  orderly : s.cluster.Orderly d
  records : (s.disk.getD .fresh).Records s.cluster
  spares : ∀ turn ∈ s.turns, ∀ m ∈ turn.moves, m.SparesFaucet

/-- The journal in memory does not matter. -/
lemma Sound.onState (h : s.Sound d) (f : DistributorState → DistributorState) :
    (s.onState f).Sound d :=
  ⟨h.orderly, h.records, h.spares⟩

/-- The journal in memory is also the one on disk. -/
structure Steady (d : Distributor) (s : Distribution ν) : Prop extends Sound d s where
  synced : s.disk.getD .fresh = s.state

/-- Between two states of a run only the cluster has moved. -/
structure Passes (s t : Distribution ν) : Prop where
  state : t.state = s.state
  disk : t.disk = s.disk
  requests : t.cluster.requests.Perm s.cluster.requests

omit [PyNumber ν] in
lemma Passes.trans {u : Distribution ν} (h : Passes s t) (h' : Passes t u) : Passes s u :=
  ⟨h'.state.trans h.state, h'.disk.trans h.disk, h'.requests.trans h.requests⟩

/-- The requests decide what is left of the offers. -/
lemma Passes.offers (h : Passes s t) (r : String) : t.cluster.offers r = s.cluster.offers r :=
  h.requests.countP_eq _

/-- A journal that shows all offers goes on doing so. -/
lemma Passes.records (h : Passes s t) {state : DistributorState}
    (hrecords : state.Records s.cluster) : state.Records t.cluster := fun r hr =>
  hrecords r (h.offers r ▸ hr)

lemma Steady.passes (h : s.Steady d) (ht : t.Sound d) (hpasses : Passes s t) : t.Steady d :=
  ⟨ht, by rw [hpasses.disk, hpasses.state, h.synced]⟩

end Distribution

namespace Distributor

variable {py : PyLib ν} {d : Distributor} {s : Distribution ν}

section Waiting

variable (hsha : ∀ bs, py.sha256 bs ≠ "")

include hsha

/-- Waiting for the end of an operation. -/
lemma ends_next (h : s.Sound d) :
    Ends (next py) s (fun _ t => t.Sound d ∧ s.Passes t) fun _ t => t.Sound d := by
  unfold next
  rw [ends_bind, ends_get]
  cases hturns : s.turns with
  | nil => exact ends_throw.mpr h
  | cons turn turns =>
    have hspares := hturns ▸ h.spares
    obtain ⟨horderly, hperm⟩ := h.orderly.moves hsha (hspares turn List.mem_cons_self)
    have hpasses : s.Passes (s.passed py turn turns) := ⟨rfl, rfl, hperm⟩
    rw [ends_bind, ends_modify, ends_pure]
    exact ⟨⟨horderly, hpasses.records h.records,
      fun u hu => hspares u (List.mem_cons_of_mem _ hu)⟩, hpasses⟩

/-- Saving a journal that shows all offers. -/
lemma ends_save (h : s.Sound d) (hrecords : s.state.Records s.cluster) :
    Ends (save py) s (fun _ t => t.Steady d ∧ t.state = s.state ∧
      t.cluster.requests.Perm s.cluster.requests) fun _ t => t.Sound d := by
  refine (ends_next hsha h).bind fun outcome t ⟨ht, hpasses⟩ => ?_
  have hwritten : t.written.Steady d :=
    ⟨⟨ht.orderly, by
      show ((some t.state).getD .fresh).Records t.cluster
      rw [Option.getD_some, hpasses.state]
      exact hpasses.records hrecords, ht.spares⟩, rfl⟩
  match outcome with
  | .done => exact ends_modify.mpr ⟨hwritten, hpasses.state, hpasses.requests⟩
  | .dies true => exact ends_bind.mpr (ends_modify.mpr (ends_throw.mpr hwritten.toSound))
  | .dies false => exact ends_throw.mpr ht
  | .lost | .now _ _ | .status _ | .notLeader | .mismatched | .response _ => exact ends_throw.mpr ht

/-- A request that the journal has in flight can be sent. -/
lemma ends_transmit [DecidableEq ν] {request : Request ν} (hmakes : d.Makes request)
    (h : s.Sound d) (hadmits : s.cluster.Admits request)
    (hreserved : ∀ r, request.offersTo r = true → (s.disk.getD .fresh).Reserves r) :
    Ends (transmit py request) s (fun _ t => t.Sound d ∧ t.state = s.state ∧ t.disk = s.disk ∧
      request ∈ t.cluster.requests) fun _ t => t.Sound d := by
  refine (ends_next hsha h).bind fun outcome t ⟨ht, hpasses⟩ => ?_
  match outcome with
  | .done =>
    have hadmits' : t.cluster.Admits request := hadmits.imp hpasses.requests.mem_iff.mpr
      fun hnone r hr => (hpasses.offers r).trans (hnone r hr)
    obtain ⟨horderly, hmem, hothers⟩ := ht.orderly.send hmakes hadmits'
    refine ends_modify.mpr ⟨⟨horderly, fun r hr => ?_, ht.spares⟩, hpasses.state, hpasses.disk,
      hmem⟩
    cases hoffers : request.offersTo r with
    | true => exact .inl (hpasses.disk ▸ hreserved r hoffers)
    | false => exact ht.records r (hothers r hoffers ▸ hr)
  | .dies _ | .lost | .now _ _ | .status _ | .notLeader | .mismatched | .response _ =>
    exact ends_throw.mpr ht

/-- An answer that refuses an offer leaves none to its account. -/
lemma ends_receive [DecidableEq ν] {request : Request ν} (h : s.Sound d)
    (hmem : request ∈ s.cluster.requests) :
    Ends (receive py request) s (fun response t => t.Sound d ∧ t.state = s.state ∧
      t.disk = s.disk ∧ (response = none → request ∈ t.cluster.requests) ∧
      ((∃ message, response = some (.invalidRequest message)) →
        ∀ r, request.offersTo r = true → t.cluster.offers r = 0)) fun _ t => t.Sound d := by
  refine (ends_next hsha h).bind fun outcome t ⟨ht, hpasses⟩ => ?_
  match outcome with
  | .notLeader =>
    exact ends_pure.mpr ⟨ht, hpasses.state, hpasses.disk,
      fun _ => hpasses.requests.mem_iff.mpr hmem, nofun⟩
  | .response (.invalidRequest message) =>
    rw [ends_bind, ends_get]
    split_ifs with hpending
    · obtain ⟨horderly, hcount⟩ := ht.orderly.refuse hpending
      refine ends_bind.mpr (ends_modify.mpr (ends_pure.mpr
        ⟨⟨horderly, fun r hr => ht.records r (hr.trans_le ?_), ht.spares⟩, hpasses.state,
          hpasses.disk, nofun, ?_⟩))
      · exact (Nat.le_add_right _ _).trans (hcount r).le
      · rintro - r hr
        have hrefused := hcount r
        have hsingle := ht.orderly.single r
        rw [if_pos hr] at hrefused
        show (t.cluster.refuse request).offers r = 0
        omega
    · exact ends_throw.mpr ht
  | .response (.error _) | .response (.result _) =>
    exact ends_pure.mpr ⟨ht, hpasses.state, hpasses.disk, nofun, nofun⟩
  | .done | .dies _ | .lost | .now _ _ | .status _ | .mismatched => exact ends_throw.mpr ht

/-- A request that the journal has in flight can be sent from one backend to the next.

**Proof sketch.** Induction on the backends: after the first attempt the request is among those
that the cluster has, so that the next attempt adds nothing. -/
lemma ends_attempt [DecidableEq ν] {request : Request ν} (hmakes : d.Makes request)
    (bs : List String) (h : s.Sound d) (hadmits : s.cluster.Admits request)
    (hreserved : ∀ r, request.offersTo r = true → (s.disk.getD .fresh).Reserves r) :
    Ends (attempt py request bs) s (fun response t => t.Sound d ∧ t.state = s.state ∧
      t.disk = s.disk ∧ ((∃ message, response = .invalidRequest message) →
        ∀ r, request.offersTo r = true → t.cluster.offers r = 0)) fun _ t => t.Sound d := by
  induction bs generalizing s with
  | nil => exact ends_throw.mpr h
  | cons b bs ih =>
    unfold attempt
    refine (ends_transmit hsha hmakes h hadmits hreserved).bind
      fun _ t ⟨ht, hstate, hdisk, hmem⟩ => ?_
    refine (ends_receive hsha ht hmem).bind fun response u ⟨hu, hstate', hdisk', hnone,
      hrefused⟩ => ?_
    cases response with
    | some response =>
      exact ends_pure.mpr ⟨hu, hstate'.trans hstate, hdisk'.trans hdisk,
        fun ⟨message, hmessage⟩ => hrefused ⟨message, congrArg some hmessage⟩⟩
    | none =>
      refine (ih hu (.inl (hnone rfl)) (hdisk'.trans hdisk ▸ hreserved)).mono ?_ fun _ _ hv => hv
      rintro response v ⟨hv, hstate'', hdisk'', hrefused'⟩
      exact ⟨hv, hstate''.trans (hstate'.trans hstate), hdisk''.trans (hdisk'.trans hdisk),
        hrefused'⟩

/-- A status of the ledger comes from a ledger that the cluster has had. -/
lemma ends_attemptSnapshot (bs : List String) (h : s.Sound d) :
    Ends (attemptSnapshot py d bs) s (fun snapshot t => t.Sound d ∧ s.Passes t ∧
      ∀ b ∈ snapshot.branches, b.sender = sender → b.branchId ≠ "") fun _ t => t.Sound d := by
  induction bs generalizing s with
  | nil => exact ends_throw.mpr h
  | cons b bs ih =>
    unfold attemptSnapshot
    refine (ends_next hsha h).bind fun outcome t ⟨ht, hpasses⟩ => ?_
    have hnext : Ends (attemptSnapshot py d bs) t (fun snapshot u => u.Sound d ∧ s.Passes u ∧
        ∀ b ∈ snapshot.branches, b.sender = sender → b.branchId ≠ "") fun _ u => u.Sound d :=
      (ih ht).mono (fun _ _ ⟨hu, hpasses', hbranches⟩ =>
        ⟨hu, hpasses.trans hpasses', hbranches⟩) fun _ _ hu => hu
    match outcome with
    | .status age =>
      rw [ends_bind, ends_get]
      cases hl : t.cluster.ledgers[age]? with
      | none => exact hnext
      | some l =>
        dsimp only
        split_ifs
        · refine ends_pure.mpr ⟨ht, hpasses, fun b hb hs => ?_⟩
          obtain ⟨id, hid⟩ := Dict.mem_values_iff.mp hb
          exact (ht.orderly.terms l (List.mem_of_getElem? hl) id b hid hs).1
        · exact hnext
    | .dies _ => exact ends_throw.mpr ht
    | .done | .lost | .now _ _ | .notLeader | .mismatched | .response _ => exact hnext

/-- The status of the ledger: its branches of the faucet have names. -/
lemma ends_snapshot (h : s.Steady d) :
    Ends (snapshot py d) s (fun snapshot t => t.Steady d ∧
      ∀ b ∈ snapshot.branches, b.sender = sender → b.branchId ≠ "") fun _ t => t.Sound d :=
  (ends_attemptSnapshot hsha backends h.toSound).mono
    (fun _ _ ⟨ht, hpasses, hbranches⟩ => ⟨h.passes ht hpasses, hbranches⟩) fun _ _ ht => ht

omit hsha in
/-- No branch in a status means that the journal knows none. -/
lemma of_branch_eq_ok {state : DistributorState} {ledger : Snapshot ν}
    {recipient : String} {found : Option (Branch ν)}
    (h : d.branch state ledger recipient = .ok found) :
    (found = none → ¬ state.Knows recipient) ∧
      ∀ b, found = some b → b ∈ ledger.branches ∧ b.sender = sender := by
  simp only [branch, bind_eq_ok, require_eq_ok, exists_const, pure_eq_ok] at h
  obtain ⟨-, -, hknown, rfl⟩ := h
  constructor
  · intro hnone
    rw [hnone, Option.any_none, Bool.or_false, beq_iff_eq] at hknown
    exact not_not_intro hknown
  · intro b hb
    have hmem := List.mem_filter.mp (List.mem_of_head? hb)
    simp only [Bool.and_eq_true, beq_iff_eq] at hmem
    exact ⟨hmem.1, hmem.2.1⟩

/-- A request in flight is settled, or the run stops. -/
lemma ends_reconcile {ledger : Snapshot ν} {recipient : String} (h : s.Steady d)
    (hbranches : ∀ b ∈ ledger.branches, b.sender = sender → b.branchId ≠ "") :
    Ends (reconcile py d recipient ledger) s (fun _ t => t.Steady d ∧ t.state.inFlight = none)
      fun _ t => t.Sound d := by
  unfold reconcile
  rw [ends_bind, ends_get]
  cases hpending : s.state.inFlight with
  | none => exact ends_pure.mpr ⟨h, hpending⟩
  | some pending =>
    dsimp only
    split_ifs with hrecipient
    · exact ends_bind.mpr (ends_throw.mpr h.toSound)
    · obtain rfl := not_not.mp hrecipient
      rw [ends_bind, ends_get, ends_bind, ends_lift]
      refine ⟨fun found hfound => ?_, fun _ _ => h.toSound⟩
      obtain ⟨-, hmem⟩ := of_branch_eq_ok hfound
      cases found with
      | none => exact ends_bind.mpr (ends_throw.mpr h.toSound)
      | some b =>
        split_ifs
        · exact ends_bind.mpr (ends_throw.mpr h.toSound)
        · rw [ends_bind, ends_modify, ends_bind, ends_modify]
          have hid := hbranches b (hmem b rfl).1 (hmem b rfl).2
          -- What was in flight is known now.
          refine (ends_save hsha ((h.toSound.onState _).onState _) fun r hr => .inr ?_).mono
            (fun _ t ⟨ht, hstate, _⟩ => ⟨ht, by rw [hstate]; rfl⟩) fun _ _ ht => ht
          refine (DistributorState.knows_learn hid r).mpr ?_
          have hrecords := h.synced ▸ h.records
          rcases hrecords r hr with ⟨nonce, hreserved⟩ | hknown
          · rw [hpending, Option.some.injEq] at hreserved
            exact .inl (by rw [hreserved])
          · exact .inr hknown

/-- What the answer to the request in flight tells keeps the journal.

**Proof sketch.** The journal knows a branch for every offer but one to the recipient. If that offer
is refused, none is left; if there is a result, the journal knows a branch for it too. -/
lemma ends_conclude {method : Method} {recipient : String} {response : Response} (h : s.Sound d)
    (hknown : ∀ r, 0 < s.cluster.offers r → (method = .offer ∧ r = recipient) ∨ s.state.Knows r)
    (hrefused : (∃ message, response = .invalidRequest message) → method = .offer →
      s.cluster.offers recipient = 0) :
    Ends (conclude py method recipient response) s (fun _ t => t.Steady d) fun _ t => t.Sound d := by
  cases response with
  | invalidRequest message =>
    simp only [conclude, ends_bind, ends_modify]
    refine (ends_save hsha (h.onState _) fun r hr => .inr ?_).mono
      (fun _ _ ht => ends_throw.mpr ht.1.toSound) fun _ _ ht => ht
    refine (hknown r hr).resolve_left fun hoffer => ?_
    exact hr.ne' (hoffer.2 ▸ hrefused ⟨message, rfl⟩ hoffer.1)
  | error message => exact ends_throw.mpr h
  | result branchId =>
    simp only [conclude]
    by_cases hoffer : method = .offer
    · rw [if_pos hoffer]
      by_cases hid : branchId.getD "" = ""
      · rw [if_pos hid]
        exact ends_bind.mpr (ends_throw.mpr h)
      · rw [if_neg hid, ends_bind, ends_modify, ends_bind, ends_modify]
        refine (ends_save hsha ((h.onState _).onState _) fun r hr => .inr ?_).mono
          (fun _ _ ht => ht.1) fun _ _ ht => ht
        exact (DistributorState.knows_learn hid r).mpr ((hknown r hr).imp_left And.right)
    · rw [if_neg hoffer, ends_bind, ends_modify]
      refine (ends_save hsha (h.onState _) fun r hr => .inr ?_).mono (fun _ _ ht => ht.1)
        fun _ _ ht => ht
      exact (hknown r hr).resolve_left fun hmethod => hoffer hmethod.1

/-- **A mutation keeps the journal**, if nothing is in flight, and an offer only if the journal
knows no branch of its recipient.

**Proof sketch.** Nothing being in flight, the branches that the journal knows account for all
offers, so there is none to the recipient of an offer. The journal then has the request in flight,
and what its answer tells keeps the journal. -/
lemma ends_mutate [DecidableEq ν] {method : Method} {recipient actor : String} {params : Json ν}
    (h : s.Steady d) (hidle : s.state.inFlight = none)
    (hmakes : ∀ id auth : Json ν, d.Makes ⟨id, .str method.name, params, auth⟩)
    (hoffers : ∀ (id auth : Json ν) (r : String),
      Request.offersTo r ⟨id, .str method.name, params, auth⟩ = true ↔
        method = .offer ∧ r = recipient)
    (hnew : method = .offer → ¬ s.state.Knows recipient) :
    Ends (mutate py d method recipient params actor) s (fun _ t => t.Steady d)
      fun _ t => t.Sound d := by
  unfold mutate
  refine (ends_next hsha h.toSound).bind fun outcome t ⟨ht, hpasses⟩ => ?_
  have hknown : ∀ r, 0 < t.cluster.offers r → s.state.Knows r := by
    intro r hr
    have hrecords := h.synced ▸ h.records
    refine (hrecords r (hpasses.offers r ▸ hr)).resolve_left fun ⟨_, hreserved⟩ => ?_
    rw [hidle] at hreserved
    cases hreserved
  match outcome with
  | .done | .dies _ | .lost | .status _ | .notLeader | .mismatched | .response _ =>
    exact ends_throw.mpr ht
  | .now ms uuid =>
    dsimp only
    rw [ends_bind, ends_get, ends_bind, ends_modify, ends_bind, ends_lift]
    refine ⟨fun secret _ => ?_, fun _ _ => ht.onState _⟩
    rw [ends_bind, ends_modify]
    generalize max ms _ = nonce
    refine Ends.bind (ends_save hsha ((ht.onState _).onState _) fun r hr => .inr ?_)
      fun _ u ⟨hu, hstate, hperm⟩ => ?_
    · show t.state.Knows r
      exact hpasses.state ▸ hknown r hr
    have hcount : ∀ r, u.cluster.offers r = t.cluster.offers r := fun r => hperm.countP_eq _
    have hdisk : (u.disk.getD .fresh).inFlight = some ⟨recipient, method, nonce⟩ := by
      rw [hu.synced, hstate]
      rfl
    refine (ends_attempt hsha (hmakes _ _) backends hu.toSound (.inr fun r hr => ?_)
      fun r hr => ?_).bind fun response v ⟨hv, hstate', hdisk', hrefused⟩ => ?_
    · obtain ⟨hmethod, rfl⟩ := (hoffers _ _ r).mp hr
      exact Nat.eq_zero_of_not_pos fun hpos => hnew hmethod (hknown r (hcount r ▸ hpos))
    · obtain ⟨rfl, rfl⟩ := (hoffers _ _ r).mp hr
      exact ⟨nonce, hdisk⟩
    · refine ends_conclude hsha hv (fun r hr => ?_) fun hresponse hmethod =>
        hrefused hresponse recipient ((hoffers _ _ recipient).mpr ⟨hmethod, rfl⟩)
      rcases hdisk' ▸ hv.records r hr with ⟨_, hreserved⟩ | hr
      · rw [hdisk, Option.some.injEq, InFlight.mk.injEq] at hreserved
        exact .inl ⟨hreserved.2.1, hreserved.1.symm⟩
      · refine .inr ?_
        rw [hstate', ← hu.synced]
        exact hr

/-- A mutation that is no offer keeps the journal. -/
lemma ends_mutate_of_ne_offer [DecidableEq ν] {method : Method} {recipient actor : String}
    {params : Json ν} (h : s.Steady d) (hidle : s.state.inFlight = none) (hmethod : method ≠ .offer)
    (hcall : ∀ (id auth : Json ν) (s r : String) (v t : ν),
      Request.call ⟨id, .str method.name, params, auth⟩ ≠ .ok (.offer s r v t)) :
    Ends (mutate py d method recipient params actor) s (fun _ t => t.Steady d)
      fun _ t => t.Sound d := by
  refine ends_mutate hsha h hidle (fun id auth s r v t h => (hcall _ _ _ _ _ _ h).elim)
    (fun id auth r => ?_) fun h => (hmethod h).elim
  rw [Request.offersTo_iff]
  exact ⟨fun ⟨_, _, _, h⟩ => (hcall _ _ _ _ _ _ h).elim, fun h => (hmethod h.1).elim⟩

/-- One look at the ledger keeps the journal.

**Proof sketch.** After the status has settled what was in flight, an offer is made only where there
is no branch in the status, and then the journal knows none. -/
lemma ends_advanceOne [DecidableEq ν] {recipient : String} (h : s.Steady d) :
    Ends (advanceOne py d recipient) s (fun _ t => t.Steady d) fun _ t => t.Sound d := by
  unfold advanceOne
  refine (ends_snapshot hsha h).bind fun ledger t hloaded => ?_
  obtain ⟨ht, hbranches⟩ := hloaded
  refine (ends_reconcile hsha ht hbranches).bind fun _ u hreconciled => ?_
  obtain ⟨hu, hidle⟩ := hreconciled
  rw [ends_bind, ends_get, ends_bind, ends_lift]
  refine ⟨fun found hfound => ?_, fun _ _ => hu.toSound⟩
  cases found with
  | none =>
    dsimp only
    split_ifs
    · exact ends_bind.mpr (ends_throw.mpr hu.toSound)
    · exact ends_bind.mpr (ends_throw.mpr hu.toSound)
    · exact ends_bind.mpr (ends_throw.mpr hu.toSound)
    · refine (ends_mutate hsha hu hidle ?_ ?_ fun _ => (of_branch_eq_ok hfound).1 rfl).bind
        fun _ v hv => ends_pure.mpr hv
      · intro id auth s r v t hcall
        rw [Request.call_offer, Except.ok.injEq, Ledger.Call.offer.injEq] at hcall
        obtain ⟨rfl, -, rfl, -⟩ := hcall
        exact ⟨rfl, PyNumber.val_ofInt _⟩
      · intro id auth r
        rw [Request.offersTo_iff, Request.call_offer]
        constructor
        · rintro ⟨_, _, _, hcall⟩
          cases hcall
          exact ⟨rfl, rfl⟩
        · rintro ⟨-, rfl⟩
          exact ⟨_, _, _, rfl⟩
  | some b =>
    dsimp only
    -- An acceptance or a commit is no offer.
    cases b.state with
    | offered =>
      refine (ends_mutate_of_ne_offer hsha hu hidle (by decide) fun id auth s r v t hcall => ?_).bind
        fun _ v hv => ends_pure.mpr hv
      rw [Request.call_accept] at hcall
      cases hcall
    | accepted =>
      refine (ends_mutate_of_ne_offer hsha hu hidle (by decide) fun id auth s r v t hcall => ?_).bind
        fun _ v hv => ends_pure.mpr hv
      rw [Request.call_commit] at hcall
      cases hcall
    | committed => exact ends_pure.mpr hu
    | final => exact ends_pure.mpr hu
    | cancelled => exact ends_throw.mpr hu.toSound
    | expired => exact ends_throw.mpr hu.toSound

/-- The iterations for one recipient keep the journal. -/
lemma ends_iterate [DecidableEq ν] {recipient : String} (n : ℕ) (h : s.Steady d) :
    Ends (iterate py d recipient n) s (fun _ t => t.Steady d) fun _ t => t.Sound d := by
  induction n generalizing s with
  | zero => exact ends_throw.mpr h.toSound
  | succ n ih =>
    refine (ends_advanceOne hsha h).bind fun state t ht => ?_
    cases state with
    | none => exact ih ht
    | some state => exact ends_pure.mpr ht

/-- The payment of all recipients keeps the journal. -/
lemma ends_run [DecidableEq ν] (recipients : List String) (h : s.Steady d) :
    Ends (run py d recipients) s (fun _ t => t.Steady d) fun _ t => t.Sound d := by
  induction recipients generalizing s with
  | nil => exact ends_pure.mpr h
  | cons recipient recipients ih => exact (ends_iterate hsha 4 h).bind fun _ t ht => ih ht

/-- **A run of the distributor keeps the journal**, however it ends. -/
lemma ends_fund [DecidableEq ν] (faucetNextNonce : Option ℤ) (h : s.Steady d) :
    Ends (fund py d faucetNextNonce) s (fun _ t => t.Sound d) fun _ t => t.Sound d := by
  have hrun : ∀ {t : Distribution ν}, t.Steady d →
      Ends (run py d d.plan.recipients) t (fun _ u => u.Sound d) fun _ u => u.Sound d := fun ht =>
    (ends_run hsha d.plan.recipients ht).mono (fun _ _ hu => hu.toSound) fun _ _ hu => hu
  unfold fund
  cases faucetNextNonce with
  | none => exact hrun h
  | some nonce =>
    dsimp only
    split_ifs
    · exact ends_bind.mpr (ends_throw.mpr h.toSound)
    · rw [ends_bind, ends_modify]
      refine Ends.bind (ends_save hsha (h.toSound.onState _) ?_) fun _ t ht => hrun ht.1
      exact fun r hr => (h.synced ▸ h.records) r hr

end Waiting

/-! ## Every schedule -/

/-- The world before the first run: no journal, and nothing on its way. -/
def start (ledger : Ledger ν) (past : List (Ledger ν)) : World ν := ⟨none, ⟨ledger, past, [], []⟩⟩

/-- Nobody but the distributor moves as the faucet while an event happens. -/
def Sole : DistributorEvent ν → Prop
  | .move m => m.SparesFaucet
  | .fund _ turns => ∀ turn ∈ turns, ∀ m ∈ turn.moves, m.SparesFaucet

/-- The world is in order: so is its cluster, and the journal on disk shows all offers. -/
structure Safe (d : Distributor) (w : World ν) : Prop where
  orderly : w.cluster.Orderly d
  records : (w.disk.getD .fresh).Records w.cluster

/-- A world without branches of the faucet is in order before the first run. -/
lemma safe_start {ledger : Ledger ν} {past : List (Ledger ν)} (hunused : ∀ l ∈ ledger :: past,
    ∀ id b, l.branches.get? id = some b → b.sender ≠ sender) : Safe d (start ledger past) := by
  have hnone : ∀ l ∈ ledger :: past, ∀ r id, ¬ l.Pays r id := fun l hl r id ⟨b, hb, hs, _⟩ =>
    hunused l hl id b hb hs
  refine ⟨⟨fun _ hq => ?_, fun _ => Nat.zero_le 1, fun l hl id b hb hs => ?_, fun r id h => ?_,
    fun l hl r id _ h => ?_⟩, fun r hr => ?_⟩
  · cases hq
  · exact (hunused l hl id b hb hs).elim
  · exact (hnone _ List.mem_cons_self r id h).elim
  · exact (hnone l hl r id h).elim
  · exact (Nat.lt_irrefl 0 hr).elim

/-- Every event keeps the world in order. -/
lemma Safe.step [DecidableEq ν] (hsha : ∀ bs, py.sha256 bs ≠ "") {w w' : World ν}
    {e : DistributorEvent ν} (h : Safe d w) (he : Sole e) (hstep : d.step py w e = some w') :
    Safe d w' := by
  cases e with
  | move m =>
    obtain rfl := Option.some.inj hstep
    obtain ⟨horderly, hperm⟩ := h.orderly.move hsha he
    exact ⟨horderly, fun r hr => h.records r (hr.trans_eq (hperm.countP_eq _))⟩
  | fund faucetNextNonce turns =>
    obtain rfl := Option.some.inj hstep
    have hstart : (⟨w, w.disk.getD .fresh, turns⟩ : Distribution ν).Steady d :=
      ⟨⟨h.orderly, h.records, he⟩, rfl⟩
    have hend : (after (d.fund py faucetNextNonce) ⟨w, w.disk.getD .fresh, turns⟩).Sound d :=
      after_iff.mpr (ends_fund hsha faucetNextNonce hstart)
    exact ⟨hend.orderly, hend.records⟩

/-- **The distributor pays nobody twice.** Whatever the cluster does, and wherever runs of the
distributor stop or die, at most one of its offers to an account is applied; no ledger ever has
more than one branch of the faucet to the account, and the account has received no more than the
planned amount through it.

**Proof sketch.** Every event keeps the world in order, and in a world that is in order an offer to
an account is the only one, and its branch has the planned amount. -/
theorem never_pays_twice [DecidableEq ν] (d : Distributor) (hsha : ∀ bs, py.sha256 bs ≠ "")
    {ledger : Ledger ν} {past : List (Ledger ν)} (hunused : ∀ l ∈ ledger :: past,
      ∀ id b, l.branches.get? id = some b → b.sender ≠ sender)
    {es : List (DistributorEvent ν)} (hsole : ∀ e ∈ es, Sole e) {w : World ν}
    (hrun : Transition.run (d.step py) (start ledger past) es = some w) (recipient : String) :
    w.cluster.applied.countP (·.offersTo recipient) ≤ 1 ∧
      ∀ l ∈ w.cluster.ledgers, (l.faucetBranches recipient).length ≤ 1 ∧
        l.received recipient ≤ d.plan.amount := by
  have hsafe : Safe d w := Transition.run_induction_of_meets (I := Safe d) (G := fun _ e => Sole e)
    (fun _ _ _ h he hstep => h.step hsha he hstep) (safe_start hunused)
    (Transition.meets_of_forall hsole) hrun
  constructor
  · exact (List.sublist_append_right _ _).countP_le.trans (hsafe.orderly.single recipient)
  · intro l hl
    have hlength := Ledger.length_faucetBranches (hsafe.orderly.unique l hl recipient)
    have hpositive : (0 : ℚ) ≤ d.plan.amount := by exact_mod_cast d.plan.positive.trans' zero_le_one
    refine ⟨hlength, Ledger.received_le hpositive hlength fun b hb => ?_⟩
    obtain ⟨hmem, hb⟩ := List.mem_filter.mp hb
    obtain ⟨id, hid⟩ := Dict.mem_values_iff.mp hmem
    simp only [Bool.and_eq_true, beq_iff_eq] at hb
    exact (hsafe.orderly.terms l hl id b hid hb.1).2

/-- A network whose faucet has funds. -/
def faucetGenesis : GenesisConfig where
  networkId := "testnet"
  maxSupply := 10
  allocations := Dict.ofList [(sender, 10)]
  lockedAccounts := []

/-- A batch of one payment. -/
def onePayment : Distributor where
  plan := ⟨["friend001"], 2, by decide⟩
  genesis := faucetGenesis
  registry := Dict.ofList [(sender, "faucet"), ("friend001", "friend")]

/-- The recipient is registered. The answer to the first offer is lost, though it is applied. The
next run meets an old status and stops; the third one meets a new status, and completes the
payment, which becomes final. -/
def lostAnswer : List (DistributorEvent ℤ) :=
  [.move (.call (.register "friend001")),
    .fund none [⟨[], .status 0⟩, ⟨[], .now 5 "a1"⟩, ⟨[], .done⟩, ⟨[], .done⟩,
      ⟨[.apply 0], .lost⟩],
    .fund none [⟨[], .status 1⟩],
    .fund none [⟨[], .status 0⟩, ⟨[], .done⟩,
      ⟨[], .now 6 "a2"⟩, ⟨[], .done⟩, ⟨[], .done⟩, ⟨[.apply 0], .response (.result none)⟩,
      ⟨[], .done⟩, ⟨[], .status 0⟩,
      ⟨[], .now 7 "a3"⟩, ⟨[], .done⟩, ⟨[], .done⟩, ⟨[.apply 0], .response (.result none)⟩,
      ⟨[], .done⟩, ⟨[], .status 0⟩],
    .move (.call (.advance 3))]

theorem never_pays_twice_lost_answer : ∃ w, Transition.run (onePayment.step Ledger.integerLib)
      (start (Ledger.ofGenesis Ledger.integerLib faucetGenesis) []) lostAnswer = some w ∧
    w.cluster.applied.countP (·.offersTo "friend001") ≤ 1 ∧
      ∀ l ∈ w.cluster.ledgers, (l.faucetBranches "friend001").length ≤ 1 ∧
        l.received "friend001" ≤ (2 : ℤ) := by
  obtain ⟨w, hw⟩ : ∃ w, Transition.run (onePayment.step Ledger.integerLib)
      (start (Ledger.ofGenesis Ledger.integerLib faucetGenesis) []) lostAnswer = some w := ⟨_, rfl⟩
  refine ⟨w, hw, never_pays_twice onePayment Sha256.hexDigest_ne ?_ ?_ hw "friend001"⟩
  · intro l hl id b hb
    rw [List.mem_singleton.mp hl] at hb
    cases hb
  · simp [lostAnswer, Sole, Move.SparesFaucet]

-- The payment has been made.
example : (Transition.run (onePayment.step Ledger.integerLib)
    (start (Ledger.ofGenesis Ledger.integerLib faucetGenesis) []) lostAnswer).map
      (fun w => w.cluster.ledger.received "friend001") = some 2 := by decide +kernel

end Distributor

end SplitChain
