import SplitChain.Model.Ledger

set_option relaxedAutoImplicit false
set_option autoImplicit false

/-!
# What a ledger operation can do

Every operation that succeeds is one elementary change of the ledger, except `advance`, which
is a sequence of them. This file says once what each change is and when it happens, and derives
the rule by which later files prove invariants: `Ledger.call_induction`.

## Main definitions

* `SplitChain.Ledger.registered`, `opened`, `released`, `settled`, `ticked` — the ledger after an
  elementary change.
* `SplitChain.Ledger.CanOffer` — the guard of `offer`.
* `SplitChain.Ledger.Call` — a call of an operation; `SplitChain.Ledger.call` — its execution.

## Main results

* `SplitChain.Ledger.offer_eq_ok`, `accept_eq_ok`, `commit_eq_ok`, `cancel_eq_ok` — the
  operations as guarded changes.
* `SplitChain.Ledger.branchTurn_of_advanceBranch` — in a round a branch expires, is finalized or
  stays.
* `SplitChain.Ledger.not_overdue_of_advanceRounds` — rounds leave no branch overdue.
* `SplitChain.Ledger.call_induction` — invariants of calls.
-/

namespace SplitChain

namespace Ledger

open Raise

open PyNumber (val ofInt)

variable {ν : Type} [PyNumber ν]

/-! ## Elementary changes -/

/-- The ledger after registering an account. -/
def registered (py : PyLib ν) (l : Ledger ν) (account : String) : Ledger ν :=
  appendBlock { l with balances := l.balances.set account (ofInt 0) } (l.registerDigest py account)

/-- The ledger after an offer. -/
def opened (py : PyLib ν) (l : Ledger ν) (sender receiver : String) (value ttl : ν) : Ledger ν :=
  (l.setBranch (l.nextBranchId py sender receiver value)
    (l.newBranch py sender receiver value ttl)).setLocked sender
      (l.locked.getD sender (ofInt 0) + (value + value))

/-- The ledger after a branch with `held` locked funds of its sender has ended in state `s`. -/
def released (l : Ledger ν) (branchId : String) (b : Branch ν) (s : BranchState) (held : ν) :
    Ledger ν :=
  (l.setBranch branchId { b with state := s }).setLocked b.sender (held - (b.value + b.stake))

/-- The balances after a transfer from a sender that has `balance`. -/
def transferred (l : Ledger ν) (b : Branch ν) (balance : ν) : Dict String ν :=
  let debited := l.balances.set b.sender (balance - b.value)
  debited.set b.receiver (debited.getD b.receiver (ofInt 0) + b.value)

/-- The ledger after a branch has been finalized. -/
def settled (py : PyLib ν) (l : Ledger ν) (branchId : String) (b : Branch ν) (balance held : ν) :
    Ledger ν :=
  (appendFinalized { l.released branchId b .final held with balances := l.transferred b balance }
    b).appendBlock (l.finalizeDigest py b)

/-- The ledger at the next round, before its branches are visited. -/
def ticked (l : Ledger ν) : Ledger ν := { l with round := l.round + 1 }

/-! ## Operations as guarded changes -/

/-- The guard of `offer`. -/
structure CanOffer (l : Ledger ν) (sender receiver : String) (value ttl : ν) : Prop where
  unlocked : l.isLocked sender = false
  value_pos : 0 < val value
  ttl_covers : finalityRounds ≤ val ttl
  distinct : sender ≠ receiver
  known : l.balances.contains receiver = true
  funds : val value + val value ≤ val (l.available sender)

/-- An account is registered when it is new. -/
lemma registerAccount_eq_ok {py : PyLib ν} {l l' : Ledger ν} {account : String} :
    l.registerAccount py account = .ok l' ↔
      (accountPattern account = true ∧ "testnet_".isPrefixOf account = false ∧
        l.balances.get? account = none) ∧ l' = l.registered py account := by
  unfold registerAccount registered
  simp only [bind_eq_ok, require_eq_ok, pure_eq_ok, Bool.and_eq_true, Bool.not_eq_true',
    Dict.contains, Option.isSome_eq_false_iff, Option.isNone_iff_eq_none, exists_const, and_assoc,
    eq_comm (a := l')]

/-- An offer succeeds exactly under its guard. -/
lemma offer_eq_ok {py : PyLib ν} {l l' : Ledger ν} {sender receiver : String} {value ttl : ν}
    {b : Branch ν} :
    l.offer py sender receiver value ttl = .ok (l', b) ↔
      l.CanOffer sender receiver value ttl ∧ l' = l.opened py sender receiver value ttl ∧
        b = l.newBranch py sender receiver value ttl := by
  unfold offer
  simp only [bind_eq_ok, require_eq_ok, pure_eq_ok, exists_const, Prod.mk.injEq]
  constructor
  · rintro ⟨h1, h2, h3, h4, h5, rfl, rfl⟩
    simp only [Bool.not_eq_true', Bool.or_eq_false_iff, decide_eq_false_iff_not, not_le,
      not_lt, bne_iff_ne, PyNumber.val_add] at h1 h2 h3 h5
    exact ⟨⟨h1, h2.1, h2.2, h3, h4, h5⟩, rfl, rfl⟩
  · rintro ⟨h, rfl, rfl⟩
    refine ⟨?_, ?_, ?_, h.known, ?_, rfl, rfl⟩
    · simp [h.unlocked]
    · simp [h.value_pos, h.ttl_covers]
    · simpa using h.distinct
    · simpa using h.funds

omit [PyNumber ν] in
/-- A named branch is found exactly when it exists in an admissible state. -/
lemma branch_eq_ok {l : Ledger ν} {branchId : String} {states : List BranchState} {b : Branch ν} :
    l.branch branchId states = .ok b ↔ l.branches.get? branchId = some b ∧ b.state ∈ states := by
  unfold branch
  simp only [bind_eq_ok, orRaise_eq_ok, require_eq_ok, pure_eq_ok, exists_const,
    List.contains_iff_mem]
  constructor
  · rintro ⟨c, hc, hs, rfl⟩; exact ⟨hc, hs⟩
  · rintro ⟨hc, hs⟩; exact ⟨b, hc, hs, rfl⟩

/-- A branch is live before its expiry round. -/
lemma ensureLive_eq_ok {l : Ledger ν} {b : Branch ν} {u : Unit} :
    l.ensureLive b = .ok u ↔ (l.round : ℚ) < val b.expiresRound := by
  simp [ensureLive]

/-- An acceptance succeeds exactly on a live offer, for its receiver. -/
lemma accept_eq_ok {l l' : Ledger ν} {branchId receiver : String} {b' : Branch ν} :
    l.accept branchId receiver = .ok (l', b') ↔ ∃ b, l.branches.get? branchId = some b ∧
      b.state = .offered ∧ (l.round : ℚ) < val b.expiresRound ∧ receiver = b.receiver ∧
      b' = { b with state := .accepted, acceptedRound := some l.round } ∧
      l' = l.setBranch branchId b' := by
  unfold accept
  simp only [bind_eq_ok, branch_eq_ok, ensureLive_eq_ok, require_eq_ok, pure_eq_ok, exists_const,
    Prod.mk.injEq, beq_iff_eq, List.mem_singleton]
  constructor
  · rintro ⟨b, ⟨hb, hs⟩, hl, hr, rfl, rfl⟩; exact ⟨b, hb, hs, hl, hr, rfl, rfl⟩
  · rintro ⟨b, hb, hs, hl, hr, rfl, rfl⟩; exact ⟨b, ⟨hb, hs⟩, hl, hr, rfl, rfl⟩

/-- A commitment succeeds exactly on a live accepted branch, for its sender. -/
lemma commit_eq_ok {py : PyLib ν} {l l' : Ledger ν} {branchId sender : String} {payload : Json ν}
    {b' : Branch ν} :
    l.commit py branchId sender payload = .ok (l', b') ↔
      ∃ b, l.branches.get? branchId = some b ∧
      b.state = .accepted ∧ (l.round : ℚ) < val b.expiresRound ∧ sender = b.sender ∧
      b' = { b with
        txDigest := some (protocolDigest py .txCommit payload)
        committedRound := some l.round
        state := .committed } ∧
      l' = l.setBranch branchId b' := by
  unfold commit
  simp only [bind_eq_ok, branch_eq_ok, ensureLive_eq_ok, require_eq_ok, pure_eq_ok, exists_const,
    Prod.mk.injEq, beq_iff_eq, List.mem_singleton]
  constructor
  · rintro ⟨b, ⟨hb, hs⟩, hl, hr, rfl, rfl⟩; exact ⟨b, hb, hs, hl, hr, rfl, rfl⟩
  · rintro ⟨b, hb, hs, hl, hr, rfl, rfl⟩; exact ⟨b, ⟨hb, hs⟩, hl, hr, rfl, rfl⟩

/-- Releasing the funds of a branch that has just changed state. -/
lemma unlock_setBranch_eq_ok {l l' : Ledger ν} {branchId : String} {b : Branch ν}
    {s : BranchState} :
    (l.setBranch branchId { b with state := s }).unlock { b with state := s } = .ok l' ↔
      ∃ held, l.locked.get? b.sender = some held ∧ l' = l.released branchId b s held := by
  simp only [unlock, bind_eq_ok, orRaise_eq_ok, pure_eq_ok, released, eq_comm (b := l')]
  rfl

/-- A cancellation succeeds exactly on an uncommitted branch, for a participant. -/
lemma cancel_eq_ok {l l' : Ledger ν} {branchId actor : String} {b' : Branch ν} :
    l.cancel branchId actor = .ok (l', b') ↔ ∃ b held, l.branches.get? branchId = some b ∧
      (b.state = .offered ∨ b.state = .accepted) ∧ (actor = b.sender ∨ actor = b.receiver) ∧
      l.locked.get? b.sender = some held ∧ b' = { b with state := .cancelled } ∧
      l' = l.released branchId b .cancelled held := by
  unfold cancel
  simp only [bind_eq_ok, branch_eq_ok, require_eq_ok, pure_eq_ok, exists_const, Prod.mk.injEq,
    beq_iff_eq, Bool.or_eq_true, List.mem_cons, List.not_mem_nil, or_false,
    unlock_setBranch_eq_ok]
  constructor
  · rintro ⟨b, ⟨hb, hs⟩, ha, _, ⟨held, hh, rfl⟩, rfl, rfl⟩
    exact ⟨b, held, hb, hs, ha, hh, rfl, rfl⟩
  · rintro ⟨b, held, hb, hs, ha, hh, rfl, rfl⟩
    exact ⟨b, ⟨hb, hs⟩, ha, _, ⟨held, hh, rfl⟩, rfl, rfl⟩

/-- A finalization succeeds exactly when the sender has a balance and locked funds. -/
lemma finalize_eq_ok {py : PyLib ν} {l l' : Ledger ν} {branchId : String} {b b' : Branch ν} :
    l.finalize py branchId b = .ok (l', b') ↔ ∃ balance held,
      l.balances.get? b.sender = some balance ∧ l.locked.get? b.sender = some held ∧
      b' = { b with state := .final } ∧ l' = l.settled py branchId b balance held := by
  unfold finalize transfer unlock
  simp only [bind_eq_ok, orRaise_eq_ok, pure_eq_ok, Prod.mk.injEq]
  constructor
  · rintro ⟨_, ⟨balance, hb, rfl⟩, _, ⟨held, hh, rfl⟩, rfl, rfl⟩
    exact ⟨balance, held, hb, hh, rfl, rfl⟩
  · rintro ⟨balance, held, hb, hh, rfl, rfl⟩
    exact ⟨_, ⟨balance, hb, rfl⟩, _, ⟨held, hh, rfl⟩, rfl, rfl⟩

/-! ## Rounds -/

/-- Whether a round has to end a branch: it expires, or it has been committed long enough. -/
def Overdue (l : Ledger ν) (branchId : String) : Prop :=
  ∃ b, l.branches.get? branchId = some b ∧
    (((b.state = .offered ∨ b.state = .accepted) ∧ val b.expiresRound ≤ (l.round : ℚ)) ∨
      (b.state = .committed ∧ ∃ r, b.committedRound = some r ∧ finalityRounds ≤ l.round - r))

/-- One branch of one round: it stays as it is, it expires, or it is finalized. -/
inductive BranchTurn (py : PyLib ν) (l : Ledger ν) (branchId : String) : Ledger ν → Prop
  /-- The branch is not due. -/
  | stay (notDue : ¬ l.Overdue branchId) : BranchTurn py l branchId l
  /-- The branch was not committed in time. -/
  | expire (b : Branch ν) (held : ν) (get : l.branches.get? branchId = some b)
      (state : b.state = .offered ∨ b.state = .accepted)
      (due : val b.expiresRound ≤ (l.round : ℚ)) (locked : l.locked.get? b.sender = some held) :
      BranchTurn py l branchId (l.released branchId b .expired held)
  /-- The branch was committed long enough ago. -/
  | final (b : Branch ν) (committedRound : ℤ) (balance held : ν)
      (get : l.branches.get? branchId = some b) (state : b.state = .committed)
      (committed : b.committedRound = some committedRound)
      (due : finalityRounds ≤ l.round - committedRound)
      (funds : l.balances.get? b.sender = some balance)
      (locked : l.locked.get? b.sender = some held) :
      BranchTurn py l branchId (l.settled py branchId b balance held)

/-- A branch is overdue by its own state and rounds. -/
lemma overdue_iff {l : Ledger ν} {branchId : String} {b : Branch ν}
    (hb : l.branches.get? branchId = some b) : l.Overdue branchId ↔
      ((b.state = .offered ∨ b.state = .accepted) ∧ val b.expiresRound ≤ (l.round : ℚ)) ∨
      (b.state = .committed ∧ ∃ r, b.committedRound = some r ∧ finalityRounds ≤ l.round - r) := by
  simp [Overdue, hb]

/-- What a visit of a branch does.

**Proof sketch.** By the state of the branch: an open one expires when its round has come, a
committed one is finalized when it is old enough, and one that has ended is never due. -/
lemma branchTurn_of_advanceBranch {py : PyLib ν} {l l' : Ledger ν} {branchId : String}
    {changed : List (Branch ν)} (h : l.advanceBranch py branchId = .ok (l', changed)) :
    BranchTurn py l branchId l' := by
  unfold advanceBranch at h
  have stay : ¬ l.Overdue branchId →
      (.ok (l, []) : Except PyError (Ledger ν × List (Branch ν))) = .ok (l', changed) →
      BranchTurn py l branchId l' := by
    intro hdue h
    simp only [Except.ok.injEq, Prod.mk.injEq] at h
    exact h.1 ▸ .stay hdue
  cases hb : l.branches.get? branchId with
  | none => rw [hb] at h; exact stay (by simp [Overdue, hb]) h
  | some b =>
    have expire : b.state = .offered ∨ b.state = .accepted →
        (if val b.expiresRound ≤ (l.round : ℚ) then do
          let l' ← (l.setBranch branchId { b with state := .expired }).unlock
            { b with state := .expired }
          return (l', [{ b with state := .expired }])
        else (.ok (l, []) : Except PyError (Ledger ν × List (Branch ν)))) = .ok (l', changed) →
        BranchTurn py l branchId l' := by
      intro hs h
      split_ifs at h with hdue
      · simp only [bind_eq_ok, unlock_setBranch_eq_ok, pure_eq_ok, Prod.mk.injEq] at h
        obtain ⟨_, ⟨held, hh, rfl⟩, rfl, -⟩ := h
        exact .expire b held hb hs hdue hh
      · refine stay ?_ h
        rw [overdue_iff hb]
        rintro (⟨-, hd⟩ | ⟨hc, -⟩)
        · exact hdue hd
        · rw [hc] at hs; simp at hs
    have ended : b.state ≠ .offered → b.state ≠ .accepted → b.state ≠ .committed →
        ¬ l.Overdue branchId := by
      intro h1 h2 h3
      rw [overdue_iff hb]
      rintro (⟨h | h, -⟩ | ⟨h, -⟩)
      exacts [h1 h, h2 h, h3 h]
    simp only [hb] at h
    cases hs : b.state with
    | offered => rw [hs] at h; exact expire (.inl hs) h
    | accepted => rw [hs] at h; exact expire (.inr hs) h
    | committed =>
      rw [hs] at h
      simp only [bind_eq_ok, orRaise_eq_ok] at h
      obtain ⟨r, hr, h⟩ := h
      split_ifs at h with hdue
      · simp only [bind_eq_ok, pure_eq_ok, Prod.mk.injEq, Prod.exists] at h
        obtain ⟨_, _, hfin, rfl, -⟩ := h
        obtain ⟨balance, held, hbal, hh, -, rfl⟩ := finalize_eq_ok.mp hfin
        exact .final b r balance held hb hs hr hdue hbal hh
      · refine stay ?_ h
        rw [overdue_iff hb]
        rintro (⟨hc | hc, -⟩ | ⟨-, r', hr', hd⟩)
        · rw [hs] at hc; cases hc
        · rw [hs] at hc; cases hc
        · rw [hr, Option.some.injEq] at hr'; exact hdue (hr' ▸ hd)
    | final | cancelled | expired =>
      rw [hs] at h; exact stay (ended (by simp [hs]) (by simp [hs]) (by simp [hs])) h

/-- A turn does not change the round. -/
lemma BranchTurn.round_eq {py : PyLib ν} {l l' : Ledger ν} {branchId : String}
    (h : BranchTurn py l branchId l') : l'.round = l.round := by
  cases h <;> rfl

/-- A turn leaves its branch not overdue. -/
lemma BranchTurn.not_overdue {py : PyLib ν} {l l' : Ledger ν} {branchId : String}
    (h : BranchTurn py l branchId l') : ¬ l'.Overdue branchId := by
  cases h with
  | stay hdue => exact hdue
  | expire b held hb hs _ _ =>
    rw [overdue_iff (Dict.get?_set_self _ _ _)]
    rintro (⟨h | h, -⟩ | ⟨h, -⟩) <;> cases h
  | final b r balance held hb hs _ _ _ _ =>
    rw [overdue_iff (Dict.get?_set_self _ _ _)]
    rintro (⟨h | h, -⟩ | ⟨h, -⟩) <;> cases h

/-- A turn makes no branch overdue. -/
lemma BranchTurn.overdue_of_overdue {py : PyLib ν} {l l' : Ledger ν} {branchId : String}
    (h : BranchTurn py l branchId l') {id : String} (hdue : l'.Overdue id) : l.Overdue id := by
  by_cases hid : branchId = id
  · exact absurd hdue (hid ▸ h.not_overdue)
  · obtain ⟨b, hb, hd⟩ := hdue
    rw [h.round_eq] at hd
    refine ⟨b, ?_, hd⟩
    cases h with
    | stay => exact hb
    | expire => rwa [← Dict.get?_set_of_ne _ _ hid]
    | final => rwa [← Dict.get?_set_of_ne _ _ hid]

/-- A turn commits no branch. -/
lemma BranchTurn.get?_of_committed {py : PyLib ν} {l l' : Ledger ν} {branchId : String}
    (h : BranchTurn py l branchId l') {id : String} {b : Branch ν}
    (hb : l'.branches.get? id = some b) (hs : b.state = .committed) :
    l.branches.get? id = some b := by
  have hset : ∀ (c : Branch ν) (s : BranchState), s ≠ .committed →
      (l.branches.set branchId { c with state := s }).get? id = some b →
      l.branches.get? id = some b := by
    intro c s hne hget
    rw [Dict.get?_set] at hget
    split_ifs at hget
    · cases hget; exact absurd hs hne
    · exact hget
  cases h with
  | stay => exact hb
  | expire c => exact hset c .expired (by simp) hb
  | final c => exact hset c .final (by simp) hb

section Advance

variable {py : PyLib ν} {l l' : Ledger ν} {changed : List (Branch ν)}

/-- What every turn of a round keeps holds at its end. -/
lemma advanceBranches_induction {I : Ledger ν → Prop} {ids : List String}
    (h : advanceBranches py ids l = .ok (l', changed)) (hI : I l)
    (turn : ∀ m m' branchId, m.round = l.round → BranchTurn py m branchId m' → I m → I m') :
    I l' ∧ l'.round = l.round := by
  induction ids generalizing l changed with
  | nil => simp only [advanceBranches, Except.ok.injEq, Prod.mk.injEq] at h; exact h.1 ▸ ⟨hI, rfl⟩
  | cons branchId ids ih =>
    simp only [advanceBranches, bind_eq_ok, pure_eq_ok, Prod.mk.injEq, Prod.exists] at h
    obtain ⟨m, _, hm, _, _, hrest, rfl, -⟩ := h
    have ht := branchTurn_of_advanceBranch hm
    have hr := ht.round_eq
    have hrest := ih hrest (turn l m branchId rfl ht hI)
      fun m' m'' id hm' => turn m' m'' id (hm'.trans hr)
    exact ⟨hrest.1, hrest.2.trans hr⟩

/-- What every new round and every turn keeps holds after a number of rounds. -/
lemma advanceRounds_induction {I : Ledger ν → Prop} {n : ℕ}
    (h : advanceRounds py n l = .ok (l', changed)) (hI : I l)
    (tick : ∀ m, l.round ≤ m.round → m.round < l.round + n → I m → I m.ticked)
    (turn : ∀ m m' branchId, m.round ≤ l.round + n → BranchTurn py m branchId m' → I m → I m') :
    I l' ∧ l'.round = l.round + n := by
  induction n generalizing l changed with
  | zero =>
    simp only [advanceRounds, Except.ok.injEq, Prod.mk.injEq] at h
    exact h.1 ▸ ⟨hI, by simp⟩
  | succ n ih =>
    simp only [advanceRounds, bind_eq_ok, pure_eq_ok, Prod.mk.injEq, Prod.exists] at h
    obtain ⟨m, _, hm, _, _, hrest, rfl, -⟩ := h
    obtain ⟨hIm, hround⟩ := advanceBranches_induction hm (tick l le_rfl (by omega) hI)
      fun a b id ha => turn a b id (by rw [ha]; simp)
    simp only at hround
    obtain ⟨hI', hround'⟩ := ih hrest hIm (fun a ha hb => tick a (by omega) (by omega))
      fun a b id ha => turn a b id (by omega)
    exact ⟨hI', by omega⟩

/-- After the visits of a round, no visited branch is overdue. -/
lemma not_overdue_of_advanceBranches {ids : List String}
    (h : advanceBranches py ids l = .ok (l', changed)) {id : String} (hid : id ∈ ids) :
    ¬ l'.Overdue id := by
  induction ids generalizing l changed with
  | nil => cases hid
  | cons branchId ids ih =>
    simp only [advanceBranches, bind_eq_ok, pure_eq_ok, Prod.mk.injEq, Prod.exists] at h
    obtain ⟨m, _, hm, _, _, hrest, rfl, -⟩ := h
    rcases List.mem_cons.mp hid with rfl | hid
    · exact (advanceBranches_induction (I := fun m => ¬ m.Overdue id) hrest
        (branchTurn_of_advanceBranch hm).not_overdue
        fun _ _ _ _ ht hn hd => hn (ht.overdue_of_overdue hd)).1
    · exact ih hrest hid

/-- A turn keeps the branch identifiers. -/
lemma BranchTurn.keys_eq {branchId : String} (h : BranchTurn py l branchId l') :
    l'.branches.keys = l.branches.keys := by
  cases h with
  | stay => rfl
  | expire b _ hb => exact Dict.keys_set_of_some _ hb
  | final b _ _ _ hb => exact Dict.keys_set_of_some _ hb

/-- After at least one round, no branch is overdue. -/
lemma not_overdue_of_advanceRounds {n : ℕ} (hn : n ≠ 0)
    (h : advanceRounds py n l = .ok (l', changed)) (id : String) : ¬ l'.Overdue id := by
  induction n generalizing l changed with
  | zero => exact absurd rfl hn
  | succ n ih =>
    simp only [advanceRounds, bind_eq_ok, pure_eq_ok, Prod.mk.injEq, Prod.exists] at h
    obtain ⟨m, _, hm, _, _, hrest, rfl, -⟩ := h
    cases n with
    | succ n => exact ih (by simp) hrest
    | zero =>
      simp only [advanceRounds, Except.ok.injEq, Prod.mk.injEq] at hrest
      rw [← hrest.1]
      have hkeys := (advanceBranches_induction (I := fun a => a.branches.keys = l.branches.keys)
        hm rfl fun _ _ _ _ ht ha => ht.keys_eq.trans ha).1
      by_cases hid : id ∈ l.branches.keys
      · exact not_overdue_of_advanceBranches hm hid
      · rintro ⟨b, hb, -⟩
        exact hid (hkeys ▸ Dict.mem_keys_iff.mpr ⟨b, hb⟩)

end Advance

/-! ## Calls -/

/-- A call of a ledger operation. -/
inductive Call (ν : Type) where
  | register (account : String)
  | offer (sender receiver : String) (value ttl : ν)
  | accept (branchId receiver : String)
  | commit (branchId sender : String) (payload : Json ν)
  | cancel (branchId actor : String)
  | advance (rounds : ℤ)

/-- The ledger after a call. -/
def call (py : PyLib ν) (l : Ledger ν) : Call ν → Except PyError (Ledger ν)
  | .register account => l.registerAccount py account
  | .offer sender receiver value ttl => Prod.fst <$> l.offer py sender receiver value ttl
  | .accept branchId receiver => Prod.fst <$> l.accept branchId receiver
  | .commit branchId sender payload => Prod.fst <$> l.commit py branchId sender payload
  | .cancel branchId actor => Prod.fst <$> l.cancel branchId actor
  | .advance rounds => Prod.fst <$> l.advance py rounds

omit [PyNumber ν] in
/-- An operation that returns a pair. -/
lemma exists_of_fst_map_eq_ok {α : Type} {x : Except PyError (Ledger ν × α)} {l : Ledger ν}
    (h : Prod.fst <$> x = .ok l) : ∃ a, x = .ok (l, a) := by
  cases x with
  | error e => cases h
  | ok p => cases h; exact ⟨p.2, rfl⟩

/-- An offer that meets its guard. -/
lemma call_offer {py : PyLib ν} {l : Ledger ν} {sender receiver : String} {value ttl : ν}
    (h : l.CanOffer sender receiver value ttl) :
    l.call py (.offer sender receiver value ttl) = .ok (l.opened py sender receiver value ttl) := by
  simp only [call, offer_eq_ok.mpr ⟨h, rfl, rfl⟩]
  rfl

/-- An advance that returns lets its rounds pass and leaves no branch overdue. -/
lemma advance_spec {py : PyLib ν} {l l' : Ledger ν} {rounds : ℤ}
    (h : l.call py (.advance rounds) = .ok l') :
    1 ≤ rounds ∧ l'.round = l.round + rounds ∧ ∀ branchId, ¬ l'.Overdue branchId := by
  obtain ⟨changed, h⟩ := exists_of_fst_map_eq_ok h
  unfold advance at h
  simp only [bind_eq_ok, require_eq_ok, Bool.not_eq_true', decide_eq_false_iff_not, not_lt,
    exists_const] at h
  obtain ⟨hpos, h⟩ := h
  have hround := (advanceRounds_induction (I := fun _ => True) h trivial
    (fun _ _ _ _ => trivial) fun _ _ _ _ _ _ => trivial).2
  rw [Int.toNat_of_nonneg (by omega)] at hround
  exact ⟨hpos, hround, not_overdue_of_advanceRounds (by omega) h⟩

/-- **A call that succeeds changes the ledger.** -/
theorem call_ne {py : PyLib ν} {l l' : Ledger ν} {c : Call ν} (h : l.call py c = .ok l') :
    l' ≠ l := by
  -- A branch that has changed its state is another branch.
  have hmoved : ∀ {branchId : String} {b b' : Branch ν}, l.branches.get? branchId = some b →
      b'.state ≠ b.state → (l.branches.set branchId b') ≠ l.branches := by
    intro branchId b b' hb hstate heq
    rw [← heq, Dict.get?_set_self, Option.some.injEq] at hb
    exact hstate (hb ▸ rfl)
  rintro rfl
  cases c with
  | register account =>
    obtain ⟨-, heq⟩ := registerAccount_eq_ok.mp h
    have hheight : l'.canonicalHeight = l'.canonicalHeight + 1 := congrArg (·.canonicalHeight) heq
    omega
  | offer sender receiver value ttl =>
    obtain ⟨b, h⟩ := exists_of_fst_map_eq_ok h
    obtain ⟨hcan, heq, -⟩ := offer_eq_ok.mp h
    have hlocked : val (l'.locked.getD sender (ofInt 0)) =
        val (l'.locked.getD sender (ofInt 0)) + (val value + val value) := by
      conv_lhs => rw [heq]
      show val ((l'.locked.set sender _).getD sender (ofInt 0)) = _
      rw [Dict.getD_set, if_pos rfl, PyNumber.val_add, PyNumber.val_add]
    have hpos := hcan.value_pos
    linarith
  | accept branchId receiver =>
    obtain ⟨b', h⟩ := exists_of_fst_map_eq_ok h
    obtain ⟨b, hb, hs, -, -, rfl, heq⟩ := accept_eq_ok.mp h
    exact hmoved hb (by rw [hs]; exact nofun) (congrArg (·.branches) heq).symm
  | commit branchId sender payload =>
    obtain ⟨b', h⟩ := exists_of_fst_map_eq_ok h
    obtain ⟨b, hb, hs, -, -, rfl, heq⟩ := commit_eq_ok.mp h
    exact hmoved hb (by rw [hs]; exact nofun) (congrArg (·.branches) heq).symm
  | cancel branchId actor =>
    obtain ⟨b', h⟩ := exists_of_fst_map_eq_ok h
    obtain ⟨b, held, hb, hs, -, -, -, heq⟩ := cancel_eq_ok.mp h
    have hbranches := (congrArg (·.branches) heq).symm
    refine hmoved hb ?_ hbranches
    rcases hs with hs | hs <;> rw [hs] <;> exact nofun
  | advance rounds =>
    obtain ⟨hpos, hround, -⟩ := advance_spec h
    omega

/-- **What a call keeps.** A property holds after a call if each elementary change the call can
make keeps it.

**Proof sketch.** All calls but `advance` are one change under their guard. An `advance` is a
sequence of new rounds and branch turns; the property is carried along by induction. -/
theorem call_induction {py : PyLib ν} {I : Ledger ν → Prop} {l l' : Ledger ν} {c : Call ν}
    (h : l.call py c = .ok l') (hI : I l)
    (register : ∀ account, c = .register account → l.balances.get? account = none →
      I (l.registered py account))
    (offer : ∀ sender receiver value ttl, c = .offer sender receiver value ttl →
      l.CanOffer sender receiver value ttl → I (l.opened py sender receiver value ttl))
    (accept : ∀ branchId b, c = .accept branchId b.receiver →
      l.branches.get? branchId = some b → b.state = .offered →
      (l.round : ℚ) < val b.expiresRound →
      I (l.setBranch branchId { b with state := .accepted, acceptedRound := some l.round }))
    (commit : ∀ branchId b payload, c = .commit branchId b.sender payload →
      l.branches.get? branchId = some b → b.state = .accepted →
      (l.round : ℚ) < val b.expiresRound →
      I (l.setBranch branchId { b with
        txDigest := some (protocolDigest py .txCommit payload)
        committedRound := some l.round
        state := .committed }))
    (cancel : ∀ branchId actor b held, c = .cancel branchId actor →
      l.branches.get? branchId = some b → (b.state = .offered ∨ b.state = .accepted) →
      (actor = b.sender ∨ actor = b.receiver) → l.locked.get? b.sender = some held →
      I (l.released branchId b .cancelled held))
    (tick : ∀ rounds m, c = .advance rounds → l.round ≤ m.round → m.round < l.round + rounds →
      I m → I m.ticked)
    (turn : ∀ rounds m m' branchId, c = .advance rounds → m.round ≤ l.round + rounds →
      BranchTurn py m branchId m' → I m → I m') :
    I l' := by
  cases c with
  | register account =>
    obtain ⟨⟨-, -, hnew⟩, rfl⟩ := registerAccount_eq_ok.mp h
    exact register account rfl hnew
  | offer sender receiver value ttl =>
    obtain ⟨_, hx⟩ := exists_of_fst_map_eq_ok h
    obtain ⟨hcan, rfl, -⟩ := offer_eq_ok.mp hx
    exact offer sender receiver value ttl rfl hcan
  | accept branchId receiver =>
    obtain ⟨_, hx⟩ := exists_of_fst_map_eq_ok h
    obtain ⟨b, hb, hs, hlive, rfl, rfl, rfl⟩ := accept_eq_ok.mp hx
    exact accept branchId b rfl hb hs hlive
  | commit branchId sender payload =>
    obtain ⟨_, hx⟩ := exists_of_fst_map_eq_ok h
    obtain ⟨b, hb, hs, hlive, rfl, rfl, rfl⟩ := commit_eq_ok.mp hx
    exact commit branchId b payload rfl hb hs hlive
  | cancel branchId actor =>
    obtain ⟨_, hx⟩ := exists_of_fst_map_eq_ok h
    obtain ⟨b, held, hb, hs, ha, hh, -, rfl⟩ := cancel_eq_ok.mp hx
    exact cancel branchId actor b held rfl hb hs ha hh
  | advance rounds =>
    obtain ⟨_, hx⟩ := exists_of_fst_map_eq_ok h
    unfold advance at hx
    simp only [bind_eq_ok, require_eq_ok, Bool.not_eq_true', decide_eq_false_iff_not, not_lt,
      exists_const] at hx
    obtain ⟨hpos, hx⟩ := hx
    have hn : ((rounds.toNat : ℕ) : ℤ) = rounds := Int.toNat_of_nonneg (by omega)
    refine (advanceRounds_induction hx hI (fun m h1 h2 => ?_) fun m m' id h1 => ?_).1
    · exact tick rounds m rfl h1 (by omega)
    · exact turn rounds m m' id rfl (by omega)

/-- What an advance keeps. -/
lemma advance_induction {py : PyLib ν} {I : Ledger ν → Prop} {l l' : Ledger ν} {rounds : ℤ}
    (h : l.call py (.advance rounds) = .ok l') (hI : I l) (tick : ∀ m, I m → I m.ticked)
    (turn : ∀ m m' branchId, m.round ≤ l.round + rounds → BranchTurn py m branchId m' → I m →
      I m') : I l' := by
  refine call_induction h hI ?_ ?_ ?_ ?_ ?_ (fun _ m _ _ _ hm => tick m hm) ?_
  · intro _ hcall; cases hcall
  · intro _ _ _ _ hcall; cases hcall
  · intro _ _ hcall; cases hcall
  · intro _ _ _ hcall; cases hcall
  · intro _ _ _ _ hcall; cases hcall
  · intro n m m' branchId hcall hle
    cases hcall
    exact turn m m' branchId hle

/-- **A branch that falls due.** An advance that lets a committed branch fall due settles it on the
way, and what the settlement brings about lasts if the rest of the advance keeps it.

**Proof sketch.** The branch is committed until its turn comes; it cannot be left over, since an
advance leaves no branch overdue. -/
lemma advance_of_due {py : PyLib ν} {I Q : Ledger ν → Prop} {l l' : Ledger ν} {rounds : ℤ}
    (h : l.call py (.advance rounds) = .ok l') {branchId : String} {b : Branch ν} {r : ℤ}
    (hb : l.branches.get? branchId = some b) (hs : b.state = .committed)
    (hr : b.committedRound = some r) (hdue : finalityRounds ≤ l.round + rounds - r) (hI : I l)
    (tick : ∀ m, I m → I m.ticked ∧ (Q m → Q m.ticked))
    (turn : ∀ m m' id, BranchTurn py m id m' → I m → I m' ∧ (Q m → Q m'))
    (settle : ∀ m balance held, I m → m.branches.get? branchId = some b →
      m.balances.get? b.sender = some balance → Q (m.settled py branchId b balance held)) :
    Q l' := by
  obtain ⟨-, hround, hleft⟩ := advance_spec h
  have hend := advance_induction (I := fun m => I m ∧ (m.branches.get? branchId = some b ∨ Q m))
    h ⟨hI, .inl hb⟩ ?_ ?_
  · rcases hend.2 with hstill | hdone
    · refine absurd ((overdue_iff hstill).mpr (.inr ⟨hs, r, hr, ?_⟩)) (hleft branchId)
      rwa [hround]
    · exact hdone
  · rintro m ⟨hm, hstate⟩
    exact ⟨(tick m hm).1, hstate.imp id (tick m hm).2⟩
  · rintro m m' id - ht ⟨hm, hstate⟩
    refine ⟨(turn m m' id ht hm).1, ?_⟩
    rcases hstate with hstill | hdone
    · by_cases hid : id = branchId
      · subst hid
        cases ht with
        | stay => exact .inl hstill
        | expire c _ hgc hopen =>
          rw [hstill, Option.some.injEq] at hgc
          rw [← hgc, hs] at hopen
          simp at hopen
        | final c _ balance held hgc _ _ _ hbalance _ =>
          rw [hstill, Option.some.injEq] at hgc
          subst hgc
          exact .inr (settle m balance held hm hstill hbalance)
      · left
        cases ht with
        | stay => exact hstill
        | expire =>
          show (m.branches.set _ _).get? branchId = some b
          rwa [Dict.get?_set_of_ne _ _ hid]
        | final =>
          show (m.branches.set _ _).get? branchId = some b
          rwa [Dict.get?_set_of_ne _ _ hid]
    · exact .inr ((turn m m' id ht hm).2 hdone)

/-- Only an advance moves funds. -/
lemma balance_call_of_ne_advance {py : PyLib ν} {l l' : Ledger ν} {c : Call ν}
    (h : l.call py c = .ok l') (hc : ∀ rounds, c ≠ .advance rounds) (a : String) :
    l'.balances.getD a (ofInt 0) = l.balances.getD a (ofInt 0) := by
  refine call_induction (I := fun m => m.balances.getD a (ofInt 0) = l.balances.getD a (ofInt 0))
    h rfl ?_ ?_ ?_ ?_ ?_ ?_ ?_
  · intro account _ hnew
    show (l.balances.set account (ofInt 0)).getD a (ofInt 0) = _
    rw [Dict.getD_set]
    split_ifs with ha
    · rw [← ha, Dict.getD, hnew]; rfl
    · rfl
  · exact fun _ _ _ _ _ _ => rfl
  · exact fun _ _ _ _ _ _ => rfl
  · exact fun _ _ _ _ _ _ _ => rfl
  · exact fun _ _ _ _ _ _ _ _ _ => rfl
  · exact fun n _ hcall => absurd hcall (hc n)
  · exact fun n _ _ _ hcall => absurd hcall (hc n)

end Ledger

end SplitChain
