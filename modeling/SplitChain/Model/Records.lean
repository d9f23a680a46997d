import SplitChain.Model.Snapshot

set_option relaxedAutoImplicit false
set_option autoImplicit false

/-!
# Records and reserves

What a ledger records besides funds: the canonical history with its head, the origins of the
branches, and that no account the network locked at genesis ever sends. It follows that the
balance of a locked account can only rise, and that it rises exactly when a branch to it is
finalized.

## Main definitions

* `SplitChain.Ledger.RecordInv` — the invariant of the records.
* `SplitChain.Ledger.KeepsReserve` — a call finalizes no branch to a locked account.

## Main results

* `SplitChain.Ledger.RecordInv.call` — calls keep the records.
* `SplitChain.Ledger.RecordInv.balance_mono` — locked accounts never lose funds.
* `SplitChain.Ledger.RecordInv.reserve_call` — they gain none in a call that keeps the reserve.
* `SplitChain.Ledger.RecordInv.reserve_broken` — they gain some in any other call.
-/

namespace SplitChain

namespace Ledger

open Raise

open PyNumber (val ofInt)

variable {ν : Type}

/-- **The invariant of the records** of a ledger that started with `genesis` and the digest
`base`. -/
structure RecordInv (genesis : Option GenesisConfig) (base : String) (l : Ledger ν) : Prop where
  genesis_eq : l.genesis = genesis
  senders : ∀ branchId b, l.branches.get? branchId = some b → l.isLocked b.sender = false
  known : ∀ a, l.isLocked a = true → l.balances.contains a = true
  round_nonneg : 0 ≤ l.round
  height_nonneg : 0 ≤ l.canonicalHeight
  head : l.canonicalHistory.get? l.canonicalHeight = some l.canonicalDigest
  bounded : ∀ h d, l.canonicalHistory.get? h = some d → h ≤ l.canonicalHeight
  base_eq : l.canonicalHistory.get? 0 = some base
  origin : ∀ branchId b, l.branches.get? branchId = some b →
    l.canonicalHistory.get? b.originHeight = some b.originDigest

/-- An advance that finalizes no committed branch whose receiver the network has locked. -/
def KeepsReserve (l : Ledger ν) (c : Call ν) : Prop :=
  ∀ rounds, c = .advance rounds → 1 ≤ rounds → ∀ branchId b r,
    l.branches.get? branchId = some b → b.state = .committed → l.isLocked b.receiver = true →
    b.committedRound = some r → l.round + rounds - r < finalityRounds

namespace RecordInv

variable {l l' : Ledger ν} {genesis : Option GenesisConfig} {base : String}

/-! ## Elementary changes keep the records -/

/-- Changing funds, as long as no account disappears. -/
lemma funds (h : RecordInv genesis base l) (hgenesis : l'.genesis = l.genesis)
    (hround : l'.round = l.round) (hbranches : l'.branches = l.branches)
    (hheight : l'.canonicalHeight = l.canonicalHeight)
    (hdigest : l'.canonicalDigest = l.canonicalDigest)
    (hhistory : l'.canonicalHistory = l.canonicalHistory)
    (hknown : ∀ a, l.balances.contains a = true → l'.balances.contains a = true) :
    RecordInv genesis base l' := by
  have hlocked : ∀ a, l'.isLocked a = l.isLocked a := by intro a; simp only [isLocked, hgenesis]
  exact {
    genesis_eq := hgenesis.trans h.genesis_eq
    senders := by rw [hbranches]; intro id b hb; rw [hlocked]; exact h.senders id b hb
    known := by intro a ha; rw [hlocked] at ha; exact hknown a (h.known a ha)
    round_nonneg := hround ▸ h.round_nonneg
    height_nonneg := hheight ▸ h.height_nonneg
    head := by rw [hhistory, hheight, hdigest]; exact h.head
    bounded := by rw [hhistory, hheight]; exact h.bounded
    base_eq := by rw [hhistory]; exact h.base_eq
    origin := by rw [hhistory, hbranches]; exact h.origin }

/-- A new block. -/
lemma appendBlock (h : RecordInv genesis base l) (digest : String) :
    RecordInv genesis base (l.appendBlock digest) := by
  have hold : ∀ {k d}, l.canonicalHistory.get? k = some d →
      (l.appendBlock digest).canonicalHistory.get? k = some d := by
    intro k d hk
    have := h.bounded k d hk
    show (l.canonicalHistory.set _ _).get? k = some d
    rwa [Dict.get?_set_of_ne _ _ (by omega)]
  exact { h with
    height_nonneg := by have := h.height_nonneg; show 0 ≤ l.canonicalHeight + 1; omega
    head := Dict.get?_set_self _ _ _
    bounded := by
      intro k d hk
      change (l.canonicalHistory.set _ _).get? k = some d at hk
      show k ≤ l.canonicalHeight + 1
      rw [Dict.get?_set] at hk
      split_ifs at hk with heq
      · omega
      · have := h.bounded k d hk; omega
    base_eq := hold h.base_eq
    origin := fun branchId b hb => hold (h.origin branchId b hb) }

/-- Recording a branch with an open sender and a canonical origin. -/
lemma setBranch (h : RecordInv genesis base l) {branchId : String} {b : Branch ν}
    (hsender : l.isLocked b.sender = false)
    (horigin : l.canonicalHistory.get? b.originHeight = some b.originDigest) :
    RecordInv genesis base (l.setBranch branchId b) :=
  { h with
    senders := by
      intro id c hc
      rw [branches_setBranch, Dict.get?_set] at hc
      split_ifs at hc
      · cases hc; exact hsender
      · exact h.senders id c hc
    origin := by
      intro id c hc
      rw [branches_setBranch, Dict.get?_set] at hc
      split_ifs at hc
      · cases hc; exact horigin
      · exact h.origin id c hc }

/-- A branch that moves on or ends. -/
lemma restated (h : RecordInv genesis base l) {branchId : String} {b b' : Branch ν}
    (hb : l.branches.get? branchId = some b) (hsender : b'.sender = b.sender)
    (hheight : b'.originHeight = b.originHeight) (hdigest : b'.originDigest = b.originDigest) :
    RecordInv genesis base (l.setBranch branchId b') :=
  h.setBranch (hsender ▸ h.senders branchId b hb)
    (by rw [hheight, hdigest]; exact h.origin branchId b hb)

/-- A new round. -/
lemma ticked (h : RecordInv genesis base l) : RecordInv genesis base l.ticked :=
  { h with round_nonneg := by have := h.round_nonneg; show 0 ≤ l.round + 1; omega }

variable [PyNumber ν] {py : PyLib ν}

/-- A branch that ends gives its funds back. -/
lemma released (h : RecordInv genesis base l) {branchId : String} {b : Branch ν}
    (hb : l.branches.get? branchId = some b) (s : BranchState) (held : ν) :
    RecordInv genesis base (l.released branchId b s held) :=
  have hended : RecordInv genesis base (l.setBranch branchId { b with state := s }) :=
    h.restated hb rfl rfl rfl
  hended.funds rfl rfl rfl rfl rfl rfl fun _ ha => ha

/-- A visit of a branch. -/
lemma turn (h : RecordInv genesis base l) {branchId : String} (ht : BranchTurn py l branchId l') :
    RecordInv genesis base l' := by
  cases ht with
  | stay => exact h
  | expire b held hb => exact h.released hb _ _
  | final b _ balance held hb =>
    refine RecordInv.appendBlock ?_ _
    exact (h.released hb .final held).funds rfl rfl rfl rfl rfl rfl
      fun _ ha => contains_set (contains_set ha)

/-- **Every call keeps the records.** -/
theorem call (h : RecordInv genesis base l) {c : Call ν} (hc : l.call py c = .ok l') :
    RecordInv genesis base l' := by
  refine call_induction hc h ?_ ?_ ?_ ?_ ?_ ?_ ?_
  · intro account _ _
    refine RecordInv.appendBlock ?_ _
    exact h.funds rfl rfl rfl rfl rfl rfl fun _ ha => contains_set ha
  · intro s r v t _ hcan
    exact (h.setBranch (b := l.newBranch py s r v t) hcan.unlocked h.head).funds
      rfl rfl rfl rfl rfl rfl fun _ ha => ha
  · exact fun id b _ hb _ _ => h.restated hb rfl rfl rfl
  · exact fun id b _ _ hb _ _ => h.restated hb rfl rfl rfl
  · exact fun id _ b held _ hb _ _ _ => h.released hb _ _
  · exact fun _ m _ _ _ hm => hm.ticked
  · exact fun _ m m' _ _ _ ht hm => hm.turn ht

/-! ## Reserves -/

/-- The funds a turn gives to an account that cannot send. -/
lemma balance_turn (h : RecordInv genesis base l) {branchId : String}
    (ht : BranchTurn py l branchId l') {a : String} (ha : l.isLocked a = true) :
    val (l'.balances.getD a (ofInt 0)) = val (l.balances.getD a (ofInt 0)) ∨
      ∃ b, l.branches.get? branchId = some b ∧ b.state = .committed ∧ l.Overdue branchId ∧
        b.receiver = a ∧
        val (l'.balances.getD a (ofInt 0)) = val (l.balances.getD a (ofInt 0)) + val b.value := by
  cases ht with
  | stay => exact .inl rfl
  | expire => exact .inl rfl
  | final b r balance held hb hs hr hdue hbalance _ =>
    have hsender : ¬ b.sender = a := by
      rintro rfl
      rw [h.senders branchId b hb] at ha
      cases ha
    rw [balances_settled, transferred, Dict.getD_set]
    split_ifs with hreceiver
    · right
      refine ⟨b, hb, hs, (overdue_iff hb).mpr (.inr ⟨hs, r, hr, hdue⟩), hreceiver, ?_⟩
      rw [PyNumber.val_add, Dict.getD_set, hreceiver, if_neg hsender]
    · left
      rw [Dict.getD_set, if_neg hsender]

omit [PyNumber ν] in
/-- The locked accounts are those of the genesis configuration. -/
lemma isLocked_eq (h : RecordInv genesis base l) (h' : RecordInv genesis base l') (a : String) :
    l'.isLocked a = l.isLocked a := by
  simp only [isLocked, h.genesis_eq, h'.genesis_eq]

/-- **Locked accounts never lose funds.** -/
theorem balance_mono (h : RecordInv genesis base l) (hinv : LockInv l) {c : Call ν}
    (hc : l.call py c = .ok l') {a : String} (ha : l.isLocked a = true) :
    val (l.balances.getD a (ofInt 0)) ≤ val (l'.balances.getD a (ofInt 0)) := by
  by_cases hadv : ∃ rounds, c = .advance rounds
  · obtain ⟨rounds, rfl⟩ := hadv
    refine (advance_induction (I := fun m => RecordInv genesis base m ∧ LockInv m ∧
      val (l.balances.getD a (ofInt 0)) ≤ val (m.balances.getD a (ofInt 0)))
      hc ⟨h, hinv, le_rfl⟩ ?_ ?_).2.2
    · rintro m ⟨hm, hmi, hle⟩
      exact ⟨hm.ticked, hmi.ticked, hle⟩
    · rintro m m' branchId - ht ⟨hm, hmi, hle⟩
      refine ⟨hm.turn ht, hmi.turn ht, hle.trans ?_⟩
      rcases hm.balance_turn ht ((h.isLocked_eq hm a).trans ha) with heq | ⟨b, hb, -, -, -, heq⟩
      · exact heq.ge
      · have := (hmi.branch branchId b hb).value_pos
        linarith
  · rw [balance_call_of_ne_advance hc fun n hn => hadv ⟨n, hn⟩]

/-- **Keeping the reserve.** In a call that finalizes no branch to a locked account, no locked
account gains funds.

**Proof sketch.** A branch that is finalized on the way was committed before the call, and is due
by its end. -/
theorem reserve_call (h : RecordInv genesis base l) {c : Call ν} (hkeeps : KeepsReserve l c)
    (hc : l.call py c = .ok l') {a : String} (ha : l.isLocked a = true) :
    val (l'.balances.getD a (ofInt 0)) = val (l.balances.getD a (ofInt 0)) := by
  by_cases hadv : ∃ rounds, c = .advance rounds
  · obtain ⟨rounds, rfl⟩ := hadv
    have hpos := (advance_spec hc).1
    refine (advance_induction (I := fun m => RecordInv genesis base m ∧
      (∀ id b, m.branches.get? id = some b → b.state = .committed →
        l.branches.get? id = some b) ∧
      val (m.balances.getD a (ofInt 0)) = val (l.balances.getD a (ofInt 0)))
      hc ⟨h, fun _ _ hb _ => hb, rfl⟩ ?_ ?_).2.2
    · rintro m ⟨hm, hcommitted, heq⟩
      exact ⟨hm.ticked, hcommitted, heq⟩
    · rintro m m' branchId hround ht ⟨hm, hcommitted, heq⟩
      refine ⟨hm.turn ht, fun id b hb hs => hcommitted id b (ht.get?_of_committed hb hs) hs, ?_⟩
      rcases hm.balance_turn ht ((h.isLocked_eq hm a).trans ha) with hsame | ⟨b, hb, hs, hdue, hr,
        -⟩
      · exact hsame.trans heq
      · -- The turn finalizes a branch to a locked account, which the guard excludes.
        rcases (overdue_iff hb).mp hdue with ⟨hopen, -⟩ | ⟨-, r, hr', hlate⟩
        · rw [hs] at hopen; simp at hopen
        · have := hkeeps rounds rfl hpos branchId b r (hcommitted branchId b hb hs) hs
            (hr ▸ ha) hr'
          omega
  · rw [balance_call_of_ne_advance hc fun n hn => hadv ⟨n, hn⟩]

/-- **Breaking the reserve.** An advance that lets a committed branch to a locked account fall due
gives the account funds.

**Proof sketch.** The settlement of the branch raises the balance, and nothing lowers it. -/
theorem reserve_broken (h : RecordInv genesis base l) (hinv : LockInv l) {rounds : ℤ}
    (hc : l.call py (.advance rounds) = .ok l') {branchId : String} {b : Branch ν} {r : ℤ}
    (hb : l.branches.get? branchId = some b) (hs : b.state = .committed)
    (ha : l.isLocked b.receiver = true) (hr : b.committedRound = some r)
    (hdue : finalityRounds ≤ l.round + rounds - r) :
    val (l.balances.getD b.receiver (ofInt 0)) < val (l'.balances.getD b.receiver (ofInt 0)) := by
  refine advance_of_due (I := fun m => RecordInv genesis base m ∧ LockInv m ∧
    val (l.balances.getD b.receiver (ofInt 0)) ≤ val (m.balances.getD b.receiver (ofInt 0)))
    (Q := fun m => val (l.balances.getD b.receiver (ofInt 0)) <
      val (m.balances.getD b.receiver (ofInt 0)))
    hc hb hs hr hdue ⟨h, hinv, le_rfl⟩ ?_ ?_ ?_
  · rintro m ⟨hm, hmi, hle⟩
    exact ⟨⟨hm.ticked, hmi.ticked, hle⟩, fun hlt => hlt⟩
  · rintro m m' id ht ⟨hm, hmi, hle⟩
    have hmono : val (m.balances.getD b.receiver (ofInt 0)) ≤
        val (m'.balances.getD b.receiver (ofInt 0)) := by
      rcases hm.balance_turn ht ((h.isLocked_eq hm b.receiver).trans ha) with
        heq | ⟨c, hgc, -, -, -, heq⟩
      · exact heq.ge
      · have := (hmi.branch id c hgc).value_pos
        linarith
    exact ⟨⟨hm.turn ht, hmi.turn ht, hle.trans hmono⟩, fun hlt => hlt.trans_le hmono⟩
  · rintro m balance held ⟨hm, hmi, hle⟩ hstill -
    have hbi := hmi.branch branchId b hstill
    have hpos := hbi.value_pos
    rw [balances_settled, transferred, Dict.getD_set, if_pos rfl, PyNumber.val_add,
      Dict.getD_set, if_neg hbi.distinct]
    linarith

end RecordInv

end Ledger

end SplitChain
