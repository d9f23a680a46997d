import SplitChain.Formal.MultiBranch
import SplitChain.Model.Runs

set_option relaxedAutoImplicit false
set_option autoImplicit false

/-!
# The ledger refines the multi-branch model

A run of the ledger in which no account is registered and all offers have the same time to live is
a run of the formal model. An operation of a participant is one action; a round is a tick, followed
by the expiry or the finalization of each branch that is due, in the order in which the ledger
visits them; and a call that raises does nothing.

A branch of the model stands for an accepted offer. It is not its identifier, since an identifier
can be given away again: the naming of the stored branches is part of the simulation.

## Main definitions

* `SplitChain.Ledger.Represents` — a state of the model stands for a ledger.
* `SplitChain.Ledger.Follows` — the actions that a call is made of.
* `SplitChain.Ledger.Refines` — every step of a run is followed by the model.

## Main results

* `SplitChain.Ledger.Represents.call` — the model follows a call.
* `SplitChain.Ledger.run_refines` — the model follows a run.
-/

namespace SplitChain

open MultiBranch (Constants State Action Phase)

open PyNumber (val ofInt)

/-! ## The simulation relation -/

/-- The state of a branch in the model. -/
def BranchState.phase : BranchState → Phase
  | offered => .offered
  | accepted => .accepted
  | committed => .committed
  | final => .final
  | cancelled => .cancelled
  | expired => .expired

variable {β : Type}

/-- The branch `x` of the model stands for the branch `b` of the ledger. -/
structure Branch.Represented (k : Constants String β) (m : State String β) (x : β) (b : Branch ℤ) :
    Prop where
  mem : x ∈ k.branches
  state : m.state x = b.state.phase
  sender : m.sender x = b.sender
  receiver : m.receiver x = b.receiver
  value : m.value x = b.value
  offeredRound : m.offeredRound x = b.createdRound
  commitRound : ∀ r, b.committedRound = some r → m.commitRound x = r
  expiresRound : b.expiresRound = b.createdRound + k.ttl

/-- A branch of the model that does not change stands for what it stood for. -/
lemma Branch.Represented.congr {k : Constants String β} {m m' : State String β} {x : β}
    {b : Branch ℤ} (h : b.Represented k m x)
    (hstate : m'.state x = m.state x) (hsender : m'.sender x = m.sender x)
    (hreceiver : m'.receiver x = m.receiver x) (hvalue : m'.value x = m.value x)
    (hoffered : m'.offeredRound x = m.offeredRound x)
    (hcommit : m'.commitRound x = m.commitRound x) : b.Represented k m' x :=
  ⟨h.mem, hstate.trans h.state, hsender.trans h.sender, hreceiver.trans h.receiver,
    hvalue.trans h.value, hoffered.trans h.offeredRound,
    fun r hr => hcommit.trans (h.commitRound r hr), h.expiresRound⟩

namespace Ledger

/-- **A state of the model stands for a ledger**, when `ι` names its branches. -/
structure Represents (k : Constants String β) (ι : String → β) (l : Ledger ℤ) (m : State String β) :
    Prop where
  round : m.round = l.round
  accounts : ∀ a, a ∈ k.accounts ↔ l.balances.contains a = true
  balance : ∀ a, m.balance a = l.balances.getD a 0
  locked : ∀ a, m.locked a = l.locked.getD a 0
  branch : ∀ id b, l.branches.get? id = some b → b.Represented k m (ι id)
  injective : ∀ id id' b b', l.branches.get? id = some b → l.branches.get? id' = some b' →
    ι id = ι id' → id = id'

variable [DecidableEq β]

/-- The actions that a call which succeeds is made of. An advance is made of its rounds, each of
them a tick and then the branches that end. -/
def Follows (py : PyLib ℤ) (l : Ledger ℤ) (ι ι' : String → β) :
    Call ℤ → List (Action String β) → Prop
  | .register _, _ => False
  | .offer s r v _, actions => ∃ x, ι' = Function.update ι (l.nextBranchId py s r v) x ∧
      actions = [.offer x s r v]
  | .accept branchId _, actions => ι' = ι ∧ actions = [.accept (ι branchId)]
  | .commit branchId _ _, actions => ι' = ι ∧ actions = [.commit (ι branchId)]
  | .cancel branchId _, actions => ι' = ι ∧ actions = [.cancel (ι branchId)]
  | .advance n, actions => ι' = ι ∧ ∃ rounds : List (List (Action String β)),
      rounds.length = n ∧ actions = rounds.flatten ∧ ∀ round ∈ rounds, ∃ ends,
        round = .tick :: ends ∧ ∀ action ∈ ends, ∃ x, action = .expire x ∨ action = .finalize x

/-- **The model follows a run**: it represents every ledger of it, by the actions of each call that
succeeds, and stays where it is when a call raises. -/
def Refines (py : PyLib ℤ) (k : Constants String β) :
    (String → β) → Ledger ℤ → State String β → List (Call ℤ) → Prop
  | ι, l, m, [] => Represents k ι l m
  | ι, l, m, c :: cs => Represents k ι l m ∧
      match l.call py c with
      | .ok l' => ∃ ι' actions m', Follows py l ι ι' c actions ∧
          Transition.run (MultiBranch.step k) m actions = some m' ∧ Refines py k ι' l' m' cs
      | .error _ => Refines py k ι l m cs

/-- The calls that the model knows. -/
def InModel (ttl : ℤ) : Call ℤ → Prop
  | .register _ => False
  | .offer _ _ _ t => t = ttl
  | _ => True

/-- Whether a call is an offer. -/
def Call.isOffer : Call ℤ → Bool
  | .offer .. => true
  | _ => false

/-! ## Elementary changes -/

variable {py : PyLib ℤ} {k : Constants String β} {ι : String → β} {l l' : Ledger ℤ}
  {m m' : State String β} {id : String} {b b' : Branch ℤ}

omit [DecidableEq β] in
/-- A change of one stored branch. -/
lemma Represents.setBranch (h : Represents k ι l m) (hb : l.branches.get? id = some b)
    (hbranches : l'.branches = l.branches.set id b') (hround : m'.round = l'.round)
    (haccounts : ∀ a, l'.balances.contains a = l.balances.contains a)
    (hbalance : ∀ a, m'.balance a = l'.balances.getD a 0)
    (hlocked : ∀ a, m'.locked a = l'.locked.getD a 0) (hself : b'.Represented k m' (ι id))
    (hother : ∀ x (c : Branch ℤ), x ≠ ι id → c.Represented k m x → c.Represented k m' x) :
    Represents k ι l' m' := by
  have hold : ∀ j c, l'.branches.get? j = some c → ∃ c', l.branches.get? j = some c' := by
    intro j c hc
    rw [hbranches, Dict.get?_set] at hc
    split_ifs at hc with hj
    · exact ⟨b, hj ▸ hb⟩
    · exact ⟨c, hc⟩
  refine ⟨hround, fun a => by rw [haccounts, h.accounts], hbalance, hlocked, fun j c hc => ?_,
    fun j j' c c' hc hc' => ?_⟩
  · rw [hbranches, Dict.get?_set] at hc
    split_ifs at hc with hj
    · cases hc
      exact hj ▸ hself
    · exact hother _ c (fun heq => hj (h.injective j id c b hc hb heq).symm) (h.branch j c hc)
  · obtain ⟨d, hd⟩ := hold j c hc
    obtain ⟨d', hd'⟩ := hold j' c' hc'
    exact h.injective j j' d d' hd hd'

omit [DecidableEq β] in
/-- The funds that the model gives back are those that the ledger gives back. -/
lemma Represents.unlocked_eq (h : Represents k ι l m) (hinv : LockInv l)
    (hb : l.branches.get? id = some b) {held : ℤ} (hheld : l.locked.get? b.sender = some held)
    (a : String) :
    m.unlocked (ι id) a = (l.locked.set b.sender (held - (b.value + b.stake))).getD a 0 := by
  have hbranch := h.branch id b hb
  unfold State.unlocked
  rw [hbranch.sender, hbranch.value, (hinv.branch id b hb).stake_eq, Dict.getD_set]
  split_ifs with ha
  · rw [← ha, Function.update_self, h.locked, Dict.getD, hheld, Option.getD_some]
    ring
  · rw [Function.update_of_ne (Ne.symm ha), h.locked]

omit [DecidableEq β] in
/-- The funds that the model moves are those that the ledger moves. -/
lemma Represents.paid_eq (h : Represents k ι l m) (hb : l.branches.get? id = some b)
    {balance : ℤ} (hbalance : l.balances.get? b.sender = some balance) (a : String) :
    m.paid (ι id) a = (l.transferred b balance).getD a 0 := by
  have hbranch := h.branch id b hb
  have hdebited : ∀ c, Function.update m.balance b.sender (m.balance b.sender - b.value) c =
      (l.balances.set b.sender (balance - b.value)).getD c 0 := by
    intro c
    rw [Dict.getD_set]
    split_ifs with hc
    · rw [← hc, Function.update_self, h.balance, Dict.getD, hbalance, Option.getD_some]
    · rw [Function.update_of_ne (Ne.symm hc), h.balance]
  unfold State.paid transferred
  rw [hbranch.sender, hbranch.receiver, hbranch.value]
  dsimp only
  rw [Dict.getD_set]
  split_ifs with ha
  · rw [← ha, Function.update_self, hdebited]
    rfl
  · rw [Function.update_of_ne (Ne.symm ha), hdebited]

/-- A branch that ends without a payment: its state changes, and its funds are given back. -/
lemma Represents.released (h : Represents k ι l m) (hinv : LockInv l)
    (hb : l.branches.get? id = some b) {held : ℤ} (hheld : l.locked.get? b.sender = some held)
    (s : BranchState) :
    Represents k ι (l.released id b s held)
      { m with state := Function.update m.state (ι id) s.phase, locked := m.unlocked (ι id) } := by
  have hbranch := h.branch id b hb
  refine h.setBranch hb (branches_released _ _ _ _ _) h.round (fun _ => rfl) h.balance
    (h.unlocked_eq hinv hb hheld) ?_ fun x c hx hc => ?_
  · exact ⟨hbranch.mem, Function.update_self _ _ _, hbranch.sender, hbranch.receiver,
      hbranch.value, hbranch.offeredRound, hbranch.commitRound, hbranch.expiresRound⟩
  · exact hc.congr (Function.update_of_ne hx _ _) rfl rfl rfl rfl rfl

/-- A branch that ends with its payment. -/
lemma Represents.settled (h : Represents k ι l m) (hinv : LockInv l)
    (hb : l.branches.get? id = some b) {balance held : ℤ}
    (hbalance : l.balances.get? b.sender = some balance)
    (hheld : l.locked.get? b.sender = some held) :
    Represents k ι (l.settled py id b balance held)
      { m with
        state := Function.update m.state (ι id) .final
        balance := m.paid (ι id)
        locked := m.unlocked (ι id) } := by
  have hbranch := h.branch id b hb
  have hreceiver := (hinv.branch id b hb).receiver_known
  have hsender : l.balances.contains b.sender = true := Dict.contains_iff.mpr ⟨_, hbalance⟩
  refine h.setBranch hb (branches_settled _ _ _ _ _ _) h.round (fun a => ?_)
    (h.paid_eq hb hbalance) (h.unlocked_eq hinv hb hheld) ?_ fun x c hx hc => ?_
  · rw [balances_settled, transferred]
    unfold Dict.contains at hreceiver hsender ⊢
    rw [Dict.get?_set, Dict.get?_set]
    split_ifs with h1 h2
    · rw [← h1, hreceiver]; rfl
    · rw [← h2, hsender]; rfl
    · rfl
  · exact ⟨hbranch.mem, Function.update_self _ _ _, hbranch.sender, hbranch.receiver,
      hbranch.value, hbranch.offeredRound, hbranch.commitRound, hbranch.expiresRound⟩
  · exact hc.congr (Function.update_of_ne hx _ _) rfl rfl rfl rfl rfl

omit [DecidableEq β] in
/-- A new round. -/
lemma Represents.ticked (h : Represents k ι l m) :
    Represents k ι l.ticked { m with round := m.round + 1 } where
  round := congrArg (· + 1) h.round
  accounts := h.accounts
  balance := h.balance
  locked := h.locked
  branch id b hb := (h.branch id b hb).congr rfl rfl rfl rfl rfl rfl
  injective := h.injective

/-- **A visit of a branch** is an expiry, a finalization, or nothing. -/
lemma Represents.turn (h : Represents k ι l m) (hinv : LockInv l) (ht : BranchTurn py l id l') :
    ∃ ends m', (∀ action ∈ ends, ∃ x, action = .expire x ∨ action = .finalize x) ∧
      Transition.run (MultiBranch.step k) m ends = some m' ∧ Represents k ι l' m' := by
  cases ht with
  | stay => exact ⟨[], m, nofun, rfl, h⟩
  | expire b held hb hs hdue hheld =>
    have hbranch := h.branch id b hb
    rw [PyNumber.val_int, Int.cast_le, hbranch.expiresRound] at hdue
    refine ⟨[.expire (ι id)], _, fun action haction => ?_, ?_, h.released hinv hb hheld .expired⟩
    · exact ⟨_, .inl (List.mem_singleton.mp haction)⟩
    · refine Transition.run_cons_eq_some_iff.mpr ⟨_, if_pos ⟨hbranch.mem, ?_, ?_⟩, rfl⟩
      · rw [hbranch.state]
        rcases hs with hs | hs <;> simp [hs, BranchState.phase]
      · rw [hbranch.offeredRound, h.round]
        exact hdue
  | final b r balance held hb hs hr hdue hbalance hheld =>
    have hbranch := h.branch id b hb
    refine ⟨[.finalize (ι id)], _, fun action haction => ?_, ?_,
      h.settled hinv hb hbalance hheld⟩
    · exact ⟨_, .inr (List.mem_singleton.mp haction)⟩
    · refine Transition.run_cons_eq_some_iff.mpr ⟨_, if_pos ⟨hbranch.mem, ?_, ?_⟩, rfl⟩
      · rw [hbranch.state, hs]
        rfl
      · rw [hbranch.commitRound r hr, h.round]
        unfold finalityRounds at hdue
        omega

/-- The visits of a round. -/
lemma Represents.visits {ids : List String} {changed : List (Branch ℤ)} (h : Represents k ι l m)
    (hinv : LockInv l) (hvisits : advanceBranches py ids l = .ok (l', changed)) :
    ∃ ends m', (∀ action ∈ ends, ∃ x, action = .expire x ∨ action = .finalize x) ∧
      Transition.run (MultiBranch.step k) m ends = some m' ∧ Represents k ι l' m' ∧ LockInv l' := by
  induction ids generalizing l m changed with
  | nil =>
    simp only [advanceBranches, Except.ok.injEq, Prod.mk.injEq] at hvisits
    obtain ⟨rfl, -⟩ := hvisits
    exact ⟨[], m, (fun _ hm => absurd hm List.not_mem_nil), rfl, h, hinv⟩
  | cons id ids ih =>
    simp only [advanceBranches, Raise.bind_eq_ok, Raise.pure_eq_ok, Prod.mk.injEq,
      Prod.exists] at hvisits
    obtain ⟨l₁, _, hfirst, _, _, hrest, rfl, -⟩ := hvisits
    have hturn := branchTurn_of_advanceBranch hfirst
    obtain ⟨ends, m₁, hends, hrun, h₁⟩ := h.turn hinv hturn
    obtain ⟨ends', m', hends', hrun', h', hinv'⟩ := ih h₁ (hinv.turn hturn) hrest
    refine ⟨ends ++ ends', m', fun action haction => ?_, ?_, h', hinv'⟩
    · exact (List.mem_append.mp haction).elim (hends action) (hends' action)
    · exact Transition.run_append_eq_some_iff.mpr ⟨m₁, hrun, hrun'⟩

/-- **Rounds** are ticks, each of them followed by the branches that end. -/
lemma Represents.rounds {n : ℕ} {changed : List (Branch ℤ)} (h : Represents k ι l m)
    (hinv : LockInv l) (hrounds : advanceRounds py n l = .ok (l', changed)) :
    ∃ (rounds : List (List (Action String β))) (m' : State String β), rounds.length = n ∧
      (∀ round ∈ rounds, ∃ ends, round = .tick :: ends ∧
        ∀ action ∈ ends, ∃ x, action = .expire x ∨ action = .finalize x) ∧
      Transition.run (MultiBranch.step k) m rounds.flatten = some m' ∧ Represents k ι l' m' := by
  induction n generalizing l m changed with
  | zero =>
    simp only [advanceRounds, Except.ok.injEq, Prod.mk.injEq] at hrounds
    obtain ⟨rfl, -⟩ := hrounds
    exact ⟨[], m, rfl, (fun _ hm => absurd hm List.not_mem_nil), rfl, h⟩
  | succ n ih =>
    simp only [advanceRounds, Raise.bind_eq_ok, Raise.pure_eq_ok, Prod.mk.injEq,
      Prod.exists] at hrounds
    obtain ⟨l₁, _, hfirst, _, _, hrest, rfl, -⟩ := hrounds
    obtain ⟨ends, m₁, hends, hrun, h₁, hinv₁⟩ := h.ticked.visits hinv.ticked hfirst
    obtain ⟨rounds, m', hlength, hticks, hrun', h'⟩ := ih h₁ hinv₁ hrest
    refine ⟨(.tick :: ends) :: rounds, m', congrArg (· + 1) hlength, ?_, ?_, h'⟩
    · rintro round (_ | ⟨_, hround⟩)
      · exact ⟨ends, rfl, hends⟩
      · exact hticks round hround
    · rw [List.flatten_cons]
      exact Transition.run_append_eq_some_iff.mpr
        ⟨m₁, Transition.run_cons_eq_some_iff.mpr ⟨_, rfl, hrun⟩, hrun'⟩

/-- The balance of an account is within the supply. -/
lemma balance_le_supply (hinv : LockInv l) (a : String) :
    ((l.balances.getD a 0 : ℤ) : ℚ) ≤ l.supply := by
  have hnonneg : ∀ c v, l.balances.get? c = some v → 0 ≤ val v := by
    intro c v hv
    have hbalance := hinv.balance_nonneg c
    rwa [Dict.getD, hv] at hbalance
  cases ha : l.balances.get? a with
  | none =>
    rw [Dict.getD, ha]
    exact Int.cast_zero.trans_le (Dict.sum_nonneg hnonneg)
  | some v =>
    rw [Dict.getD, ha]
    exact Dict.single_le_sum (f := fun _ v => val v) hnonneg ha

/-- An offer, under a branch of the model that is not in use. -/
lemma Represents.opened (py : PyLib ℤ) (h : Represents k ι l m) (hinv : LockInv l)
    (hsupply : l.supply ≤ k.maxValue) {s r : String} {v : ℤ} (hcan : l.CanOffer s r v k.ttl) {x : β}
    (hx : x ∈ MultiBranch.unused k m) :
    ∃ m', MultiBranch.step k m (.offer x s r v) = some m' ∧
      Represents k (Function.update ι (l.nextBranchId py s r v) x) (l.opened py s r v k.ttl) m' := by
  obtain ⟨hmem, hunused⟩ := Finset.mem_filter.mp hx
  have hused : ∀ j c, l.branches.get? j = some c → ι j ≠ x := by
    rintro j c hc rfl
    rw [(h.branch j c hc).state] at hunused
    cases hs : c.state <;> rw [hs] at hunused <;> cases hunused
  have hpos : 0 < v := by
    have hvalue := hcan.value_pos
    rwa [PyNumber.val_int, Int.cast_pos] at hvalue
  have hfunds : v + v ≤ l.balances.getD s 0 - l.locked.getD s 0 := by
    have hfunds := hcan.funds
    rw [PyNumber.val_int, PyNumber.val_int, available, PyNumber.ofInt_int] at hfunds
    exact_mod_cast hfunds
  have hlocked : 0 ≤ l.locked.getD s 0 := by
    have hnonneg := hinv.locked_nonneg s
    rwa [PyNumber.val_int, PyNumber.ofInt_int, Int.cast_nonneg_iff] at hnonneg
  have hbound : l.balances.getD s 0 ≤ k.maxValue := by
    exact_mod_cast (balance_le_supply hinv s).trans hsupply
  have hsender : s ∈ k.accounts := by
    rw [h.accounts, Dict.contains]
    cases hs : l.balances.get? s with
    | some _ => rfl
    | none =>
      rw [Dict.getD, hs, Option.getD_none] at hfunds
      omega
  refine ⟨_, if_pos ⟨hmem, hsender, (h.accounts r).mpr hcan.known, hunused, hcan.distinct,
    ⟨hpos, by omega⟩, by rw [h.balance, h.locked]; omega⟩, h.round, h.accounts, h.balance,
    fun a => ?_, fun j c hc => ?_, fun j j' c c' hc hc' hsame => ?_⟩
  · show Function.update m.locked s (m.locked s + 2 * v) a =
      (l.locked.set s (l.locked.getD s 0 + (v + v))).getD a 0
    rw [Dict.getD_set]
    split_ifs with ha
    · rw [← ha, Function.update_self, h.locked]
      ring
    · rw [Function.update_of_ne (Ne.symm ha), h.locked]
  · rw [branches_opened, Dict.get?_set] at hc
    split_ifs at hc with hj
    · cases hc
      rw [← hj, Function.update_self]
      exact ⟨hmem, Function.update_self _ _ _, Function.update_self _ _ _,
        Function.update_self _ _ _, Function.update_self _ _ _,
        (Function.update_self _ _ _).trans h.round, (fun _ hr => by cases hr), rfl⟩
    · have hother := hused j c hc
      rw [Function.update_of_ne (Ne.symm hj)]
      exact (h.branch j c hc).congr (Function.update_of_ne hother _ _)
        (Function.update_of_ne hother _ _) (Function.update_of_ne hother _ _)
        (Function.update_of_ne hother _ _) (Function.update_of_ne hother _ _) rfl
  · rw [branches_opened, Dict.get?_set] at hc hc'
    by_cases hj : l.nextBranchId py s r v = j
    · by_cases hj' : l.nextBranchId py s r v = j'
      · exact hj.symm.trans hj'
      · rw [if_neg hj'] at hc'
        rw [hj, Function.update_self, ← hj, Function.update_of_ne (Ne.symm hj')] at hsame
        exact absurd hsame.symm (hused j' c' hc')
    · rw [if_neg hj] at hc
      rw [Function.update_of_ne (Ne.symm hj)] at hsame
      by_cases hj' : l.nextBranchId py s r v = j'
      · rw [hj', Function.update_self] at hsame
        exact absurd hsame (hused j c hc)
      · rw [if_neg hj'] at hc'
        rw [Function.update_of_ne (Ne.symm hj')] at hsame
        exact h.injective j j' c c' hc hc' hsame

/-- **The model follows a call.**

**Proof sketch.** Each guard of the ledger implies the guard of the action: an offer is within the
supply, a branch is live before its time to live has passed, and a visit ends a branch when it is
due. -/
theorem Represents.call {c : Call ℤ} (h : Represents k ι l m) (hinv : LockInv l)
    (hsupply : l.supply ≤ k.maxValue) (hmodel : InModel k.ttl c)
    (hfree : c.isOffer = true → 0 < (MultiBranch.unused k m).card) (hc : l.call py c = .ok l') :
    ∃ ι' actions m', Follows py l ι ι' c actions ∧
      Transition.run (MultiBranch.step k) m actions = some m' ∧ Represents k ι' l' m' ∧
      (MultiBranch.unused k m).card ≤
        (MultiBranch.unused k m').card + if c.isOffer = true then 1 else 0 := by
  -- One action that is no offer.
  have hone : ∀ {action : Action String β} {m' : State String β},
      MultiBranch.step k m action = some m' → (∀ x s r v, action ≠ .offer x s r v) →
      Transition.run (MultiBranch.step k) m [action] = some m' ∧
        (MultiBranch.unused k m).card ≤ (MultiBranch.unused k m').card + 0 := by
    intro action m' hstep hoffer
    refine ⟨Transition.run_cons_eq_some_iff.mpr ⟨m', hstep, rfl⟩, ?_⟩
    have hle := MultiBranch.card_unused_le k hstep
    cases action with
    | offer x s r v => exact absurd rfl (hoffer x s r v)
    | accept | commit | cancel | expire | finalize | tick => exact hle
  cases c with
  | register account => exact hmodel.elim
  | offer s r v t =>
    obtain rfl : t = k.ttl := hmodel
    obtain ⟨_, hc⟩ := exists_of_fst_map_eq_ok hc
    obtain ⟨hcan, rfl, -⟩ := offer_eq_ok.mp hc
    obtain ⟨x, hx⟩ := Finset.card_pos.mp (hfree rfl)
    obtain ⟨m', hstep, h'⟩ := h.opened py hinv hsupply hcan hx
    exact ⟨_, _, m', ⟨x, rfl, rfl⟩, Transition.run_cons_eq_some_iff.mpr ⟨m', hstep, rfl⟩, h',
      MultiBranch.card_unused_le k hstep⟩
  | accept branchId receiver =>
    obtain ⟨_, hc⟩ := exists_of_fst_map_eq_ok hc
    obtain ⟨b, hb, hs, hlive, -, rfl, rfl⟩ := accept_eq_ok.mp hc
    have hbranch := h.branch branchId b hb
    rw [PyNumber.val_int, Int.cast_lt, hbranch.expiresRound] at hlive
    have hstep : MultiBranch.step k m (.accept (ι branchId)) = some
        { m with state := Function.update m.state (ι branchId) .accepted } := by
      refine if_pos ⟨hbranch.mem, by rw [hbranch.state, hs]; rfl, ?_⟩
      rw [hbranch.offeredRound, h.round]
      exact hlive
    obtain ⟨hrun, hcard⟩ := hone hstep (by exact nofun)
    refine ⟨ι, _, _, ⟨rfl, rfl⟩, hrun, ?_, hcard⟩
    refine h.setBranch hb (branches_setBranch _ _ _) h.round (fun _ => rfl) h.balance h.locked ?_
      fun x c hx hc => hc.congr (Function.update_of_ne hx _ _) rfl rfl rfl rfl rfl
    exact ⟨hbranch.mem, Function.update_self _ _ _, hbranch.sender, hbranch.receiver,
      hbranch.value, hbranch.offeredRound, hbranch.commitRound, hbranch.expiresRound⟩
  | commit branchId sender payload =>
    obtain ⟨_, hc⟩ := exists_of_fst_map_eq_ok hc
    obtain ⟨b, hb, hs, hlive, -, rfl, rfl⟩ := commit_eq_ok.mp hc
    have hbranch := h.branch branchId b hb
    rw [PyNumber.val_int, Int.cast_lt, hbranch.expiresRound] at hlive
    have hstep : MultiBranch.step k m (.commit (ι branchId)) = some
        { m with
          state := Function.update m.state (ι branchId) .committed
          commitRound := Function.update m.commitRound (ι branchId) m.round } := by
      refine if_pos ⟨hbranch.mem, by rw [hbranch.state, hs]; rfl, ?_⟩
      rw [hbranch.offeredRound, h.round]
      exact hlive
    obtain ⟨hrun, hcard⟩ := hone hstep (by exact nofun)
    refine ⟨ι, _, _, ⟨rfl, rfl⟩, hrun, ?_, hcard⟩
    refine h.setBranch hb (branches_setBranch _ _ _) h.round (fun _ => rfl) h.balance h.locked ?_
      fun x c hx hc => hc.congr (Function.update_of_ne hx _ _) rfl rfl rfl rfl
        (Function.update_of_ne hx _ _)
    refine ⟨hbranch.mem, Function.update_self _ _ _, hbranch.sender, hbranch.receiver,
      hbranch.value, hbranch.offeredRound, fun q hq => ?_, hbranch.expiresRound⟩
    rw [← Option.some.inj hq]
    exact (Function.update_self _ _ _).trans h.round
  | cancel branchId actor =>
    obtain ⟨_, hc⟩ := exists_of_fst_map_eq_ok hc
    obtain ⟨b, held, hb, hs, -, hheld, -, rfl⟩ := cancel_eq_ok.mp hc
    have hbranch := h.branch branchId b hb
    have hstep : MultiBranch.step k m (.cancel (ι branchId)) = some
        { m with
          state := Function.update m.state (ι branchId) .cancelled
          locked := m.unlocked (ι branchId) } := by
      refine if_pos ⟨hbranch.mem, ?_⟩
      rw [hbranch.state]
      rcases hs with hs | hs <;> simp [hs, BranchState.phase]
    obtain ⟨hrun, hcard⟩ := hone hstep (by exact nofun)
    exact ⟨ι, _, _, ⟨rfl, rfl⟩, hrun, h.released hinv hb hheld .cancelled, hcard⟩
  | advance n =>
    have hpos := (advance_spec hc).1
    obtain ⟨_, hc⟩ := exists_of_fst_map_eq_ok hc
    simp only [advance, Raise.bind_eq_ok, Raise.require_eq_ok, exists_const] at hc
    obtain ⟨rounds, m', hlength, hticks, hrun, h'⟩ := h.rounds hinv hc.2
    refine ⟨ι, _, m', ⟨rfl, rounds, by rw [hlength]; omega, rfl, hticks⟩, hrun, h', ?_⟩
    refine Transition.run_induction_of_meets
      (I := fun m₁ => (MultiBranch.unused k m).card ≤ (MultiBranch.unused k m₁).card)
      (G := fun _ action => ∀ x s r v, action ≠ .offer x s r v) ?_ le_rfl
      (Transition.meets_of_forall ?_) hrun
    · intro m₁ action m₂ hle hoffer hstep
      have hcard := MultiBranch.card_unused_le k hstep
      cases action with
      | offer x s r v => exact absurd rfl (hoffer x s r v)
      | accept | commit | cancel | expire | finalize | tick => exact hle.trans hcard
    · intro action haction
      obtain ⟨round, hround, hmem⟩ := List.mem_flatten.mp haction
      obtain ⟨ends, rfl, hends⟩ := hticks round hround
      rcases List.mem_cons.mp hmem with rfl | hmem
      · exact nofun
      · obtain ⟨x, rfl | rfl⟩ := hends action hmem
        · exact nofun
        · exact nofun

/-! ## Runs -/

/-- The model follows a run from a ledger that it represents, if enough branches are unused. -/
lemma Represents.refines {cs : List (Call ℤ)} (h : Represents k ι l m) (hinv : LockInv l)
    (hsupply : l.supply ≤ k.maxValue) (hmodel : ∀ c ∈ cs, InModel k.ttl c)
    (hfree : cs.countP Call.isOffer ≤ (MultiBranch.unused k m).card) :
    Refines py k ι l m cs := by
  induction cs generalizing ι l m with
  | nil => exact h
  | cons c cs ih =>
    have hrest : ∀ c ∈ cs, InModel k.ttl c := fun c hc => hmodel c (List.mem_cons_of_mem _ hc)
    rw [List.countP_cons] at hfree
    unfold Refines
    refine ⟨h, ?_⟩
    cases hc : l.call py c with
    | error e => exact ih h hinv hsupply hrest (by omega)
    | ok l' =>
      obtain ⟨ι', actions, m', hfollows, hrun, h', hcard⟩ := h.call hinv hsupply
        (hmodel c List.mem_cons_self) (fun hoffer => by rw [if_pos hoffer] at hfree; omega) hc
      exact ⟨ι', actions, m', hfollows, hrun,
        ih h' (hinv.call hc) (by rw [supply_call hc]; exact hsupply) hrest (by omega)⟩

/-- **The ledger refines the multi-branch model.** Take any run without registrations in which all
offers have the time to live of the model, from nonnegative integer balances or a genesis
configuration. The model over the accounts of the ledger, with enough branches for the offers and
with values up to the supply, follows the run from an initial state: a call that succeeds is a
sequence of its actions, which leads to a state that stands for the ledger again, and a call that
raises is no action at all.

**Proof sketch.** Initially nothing is locked and no branch is in use; then call by call. -/
theorem run_refines [Inhabited β] (py : PyLib ℤ) {start : Ledger ℤ} (hstart : Initial py start)
    (k : Constants String β) (haccounts : k.accounts = start.balances.keys.toFinset)
    (hsupply : start.balances.sum (fun _ v => v) ≤ k.maxValue) (calls : List (Call ℤ))
    (hmodel : ∀ c ∈ calls, InModel k.ttl c)
    (hbranches : calls.countP Call.isOffer ≤ k.branches.card) :
    ∃ ι m, MultiBranch.Init k m ∧ Refines py k ι start m calls := by
  have hinv := hstart.lockInv
  have hsupply' : start.supply ≤ k.maxValue := by
    unfold supply
    rw [sum_val_int start.balances]
    exact_mod_cast hsupply
  have hnew : start.round = 0 ∧ start.locked = ∅ := by cases hstart <;> exact ⟨rfl, rfl⟩
  -- No branch is stored yet, so that the naming does not matter.
  have hrepresents : Represents k (fun _ => default) start
      (State.initial k fun a => start.balances.getD a 0) := by
    refine ⟨hnew.1.symm, fun a => ?_, fun _ => rfl, fun a => by rw [hnew.2]; rfl, ?_, ?_⟩
    · rw [haccounts, List.mem_toFinset, Dict.mem_keys_iff, Dict.contains_iff]
    · intro id b hb
      rw [hstart.branches_eq] at hb
      cases hb
    · intro id _ b _ hb
      rw [hstart.branches_eq] at hb
      cases hb
  have hfree : calls.countP Call.isOffer ≤ (MultiBranch.unused k
      (State.initial k fun a => start.balances.getD a 0)).card := by
    rw [MultiBranch.unused_initial]
    exact hbranches
  refine ⟨_, _, MultiBranch.init_initial k fun a _ => ⟨?_, ?_⟩,
    hrepresents.refines hinv hsupply' hmodel hfree⟩
  · have hnonneg := hinv.balance_nonneg a
    rwa [PyNumber.val_int, PyNumber.ofInt_int, Int.cast_nonneg_iff] at hnonneg
  · exact_mod_cast (balance_le_supply hinv a).trans hsupply'

/-- The constants for two accounts with ten units and for two branches. -/
def paymentConstants : Constants String (Fin 2) where
  accounts := {"alice", "bob"}
  branches := {0, 1}
  maxValue := 10
  ttl := 6
  anyAccount := "alice"
  maxValue_pos := by decide
  ttl_covers := by decide

/-- An offer, one that exceeds the funds, and the rounds in which the first expires. -/
theorem run_refines_expired_offer :
    ∃ ι m, MultiBranch.Init paymentConstants m ∧ Refines integerLib paymentConstants ι
      (ofBalances integerLib (Dict.ofList [("alice", 10), ("bob", 0)])) m
      [.offer "alice" "bob" 2 6, .offer "alice" "bob" 4 6, .advance 6] := by
  refine run_refines integerLib initial_payment paymentConstants (by decide) (by decide) _ ?_
    (by decide)
  intro c hc
  simp only [List.mem_cons, List.not_mem_nil, or_false] at hc
  rcases hc with rfl | rfl | rfl
  · rfl
  · rfl
  · trivial

end Ledger

end SplitChain
