import SplitChain.Model.Runs

set_option relaxedAutoImplicit false
set_option autoImplicit false

/-!
# The canonical chain as an audit log

Two kinds of blocks make up the canonical chain: the registration of an account and the settlement
of a branch. Every reachable ledger has a list of blocks behind it that its canonical history, its
list of finalized branches, its accounts and their balances are determined by.

## Main definitions

* `SplitChain.Block` — a block of the canonical chain.
* `SplitChain.Ledger.Chained` — the canonical history is the digests of a list of blocks.
* `SplitChain.Ledger.Audited` — a ledger is what its blocks say.
* `SplitChain.Ledger.Stored` — the branches that blocks have settled are the final branches.

## Main results

* `SplitChain.Ledger.Audited.call` — calls append blocks.
* `SplitChain.Ledger.run_audited` — every reachable ledger has an audit log.
-/

namespace SplitChain

open Raise

open PyNumber (val ofInt)

variable {ν : Type} [PyNumber ν]

/-! ## Blocks -/

/-- A block of the canonical chain: an account is registered, or a branch is settled. -/
inductive Block (ν : Type) where
  | register (account : String)
  | settle (b : Branch ν)

namespace Block

/-- The digest of a block, by its height and the digest of its parent. -/
def digest (py : PyLib ν) (height : ℤ) (parent : String) : Block ν → String
  | register account => protocolDigest py .canonicalBlock (.obj [("account", .str account),
      ("height", .num (ofInt height)), ("parent", .str parent), ("type", .str "account.register")])
  | settle b => protocolDigest py .canonicalBlock (.obj [("branch_id", .str b.branchId),
      ("height", .num (ofInt height)), ("parent", .str parent),
      ("tx_digest", optionalText b.txDigest)])

/-- The account that a block registers. -/
def account? : Block ν → Option String
  | register account => some account
  | settle _ => none

/-- The branch that a block settles. -/
def branch? : Block ν → Option (Branch ν)
  | register _ => none
  | settle b => some b

end Block

/-- The accounts that blocks register. -/
def registeredBy (blocks : List (Block ν)) : List String := blocks.filterMap Block.account?

/-- The branches that blocks settle. -/
def settledBy (blocks : List (Block ν)) : List (Branch ν) := blocks.filterMap Block.branch?

/-- What an account has received by some branches. -/
def received (a : String) (bs : List (Branch ν)) : ℚ :=
  (bs.map fun b => if b.receiver = a then val b.value else 0).sum

/-- What an account has sent by some branches. -/
def sent (a : String) (bs : List (Branch ν)) : ℚ :=
  (bs.map fun b => if b.sender = a then val b.value else 0).sum

omit [PyNumber ν] in
/-- Every block registers an account or settles a branch. -/
lemma length_blocks (blocks : List (Block ν)) :
    blocks.length = (settledBy blocks).length + (registeredBy blocks).length := by
  induction blocks with
  | nil => rfl
  | cons block blocks ih =>
    cases block with
    | register account =>
      simp only [settledBy, registeredBy, List.filterMap_cons, Block.account?, Block.branch?,
        List.length_cons] at ih ⊢
      omega
    | settle b =>
      simp only [settledBy, registeredBy, List.filterMap_cons, Block.account?, Block.branch?,
        List.length_cons] at ih ⊢
      omega

namespace Ledger

/-! ## The chain -/

/-- **The canonical history is the digests of some blocks**, one after the other. -/
structure Chained (py : PyLib ν) (base : String) (l : Ledger ν) (blocks : List (Block ν)) :
    Prop where
  height : l.canonicalHeight = blocks.length
  heights : ∀ h, (∃ d, l.canonicalHistory.get? h = some d) ↔ 0 ≤ h ∧ h ≤ l.canonicalHeight
  genesis : l.canonicalHistory.get? 0 = some base
  head : l.canonicalHistory.get? l.canonicalHeight = some l.canonicalDigest
  linked : ∀ (h : ℕ) block, blocks[h]? = some block → ∃ parent,
    l.canonicalHistory.get? h = some parent ∧
      l.canonicalHistory.get? (h + 1) = some (block.digest py (h + 1) parent)

section Chain

variable {py : PyLib ν} {base : String} {l l' : Ledger ν} {blocks : List (Block ν)}

/-- The chain is about the canonical fields. -/
lemma Chained.congr (h : Chained py base l blocks)
    (hheight : l'.canonicalHeight = l.canonicalHeight)
    (hdigest : l'.canonicalDigest = l.canonicalDigest)
    (hhistory : l'.canonicalHistory = l.canonicalHistory) : Chained py base l' blocks := by
  constructor
  · rw [hheight]; exact h.height
  · rw [hheight, hhistory]; exact h.heights
  · rw [hhistory]; exact h.genesis
  · rw [hheight, hhistory, hdigest]; exact h.head
  · rw [hhistory]; exact h.linked

/-- A block on top of the chain. -/
lemma Chained.append (h : Chained py base l blocks) (block : Block ν) :
    Chained py base (l.appendBlock (block.digest py (l.canonicalHeight + 1) l.canonicalDigest))
      (blocks ++ [block]) := by
  have hnonneg : 0 ≤ l.canonicalHeight := h.height ▸ Int.natCast_nonneg _
  have hget : ∀ k, (l.appendBlock (block.digest py (l.canonicalHeight + 1)
      l.canonicalDigest)).canonicalHistory.get? k = if l.canonicalHeight + 1 = k then
        some (block.digest py (l.canonicalHeight + 1) l.canonicalDigest)
      else l.canonicalHistory.get? k := fun k => Dict.get?_set _ _ _ _
  refine ⟨?_, fun k => ?_, ?_, ?_, fun k c hc => ?_⟩
  · rw [List.length_append, List.length_singleton, Nat.cast_add, ← h.height]
    rfl
  · rw [hget]
    show _ ↔ 0 ≤ k ∧ k ≤ l.canonicalHeight + 1
    split_ifs with hk
    · exact iff_of_true ⟨_, rfl⟩ (by omega)
    · rw [h.heights k]
      omega
  · rw [hget, if_neg (by omega)]
    exact h.genesis
  · rw [hget]
    exact if_pos rfl
  · rcases Nat.lt_or_ge k blocks.length with hlt | hge
    · rw [List.getElem?_append_left hlt] at hc
      have hheight := h.height
      rw [hget, hget, if_neg (by omega), if_neg (by omega)]
      exact h.linked k c hc
    · rw [List.getElem?_append_right hge] at hc
      have hlast : k - blocks.length = 0 := by
        by_contra hne
        rw [List.getElem?_eq_none (by simp; omega)] at hc
        cases hc
      have hk : (k : ℤ) = l.canonicalHeight := by rw [h.height]; omega
      rw [hlast] at hc
      obtain rfl : block = c := Option.some.inj hc
      refine ⟨l.canonicalDigest, ?_, ?_⟩
      · rw [hget, if_neg (by omega), hk]
        exact h.head
      · rw [hget, if_pos (by omega), hk]

end Chain

/-! ## The log -/

/-- **A ledger is what its blocks say**: its history, its accounts, its list of finalized branches
and its balances. The branches name a place in its history. -/
structure Audited (py : PyLib ν) (start l : Ledger ν) (blocks : List (Block ν)) : Prop where
  chained : Chained py start.canonicalDigest l blocks
  accounts : l.balances.keys = start.balances.keys ++ registeredBy blocks
  finalized : l.finalized = (settledBy blocks).map fun b => ⟨b.branchId, b.txDigest⟩
  final : ∀ b ∈ settledBy blocks, b.state = .final ∧ b.txDigest.isSome = true
  balance : ∀ a, val (l.balances.getD a (ofInt 0)) = val (start.balances.getD a (ofInt 0)) +
    received a (settledBy blocks) - sent a (settledBy blocks)
  origin : ∀ id b, l.branches.get? id = some b →
    l.canonicalHistory.get? b.originHeight = some b.originDigest
  signed : ∀ id b, l.branches.get? id = some b → b.state = .committed → b.txDigest.isSome = true

/-- The branches that blocks have settled are the final branches of the ledger, each of them
once. -/
structure Stored (l : Ledger ν) (blocks : List (Block ν)) : Prop where
  distinct : ((settledBy blocks).map Branch.branchId).Nodup
  final_iff : ∀ id b, (l.branches.get? id = some b ∧ b.state = .final) ↔
    b ∈ settledBy blocks ∧ b.branchId = id

/-! ## Elementary changes -/

section Changes

variable {py : PyLib ν} {start l l' : Ledger ν} {blocks : List (Block ν)} {id : String}
  {b b' : Branch ν}

omit [PyNumber ν] in
@[simp] lemma settledBy_append (blocks more : List (Block ν)) :
    settledBy (blocks ++ more) = settledBy blocks ++ settledBy more := List.filterMap_append

omit [PyNumber ν] in
@[simp] lemma registeredBy_append (blocks more : List (Block ν)) :
    registeredBy (blocks ++ more) = registeredBy blocks ++ registeredBy more :=
  List.filterMap_append

omit [PyNumber ν] in
lemma settledBy_register (account : String) : settledBy (ν := ν) [.register account] = [] := rfl

omit [PyNumber ν] in
lemma settledBy_settle (b : Branch ν) : settledBy [.settle b] = [b] := rfl

omit [PyNumber ν] in
/-- A new block leaves the history below it. -/
lemma get?_appendBlock {k : ℤ} (digest : String) (h : k ≤ l.canonicalHeight) :
    (l.appendBlock digest).canonicalHistory.get? k = l.canonicalHistory.get? k :=
  Dict.get?_set_of_ne _ _ (by omega)

/-- The balances after a transfer. -/
lemma val_transferred {balance : ν} (hbalance : l.balances.get? b.sender = some balance)
    (hdistinct : b.sender ≠ b.receiver) (a : String) :
    val ((l.transferred b balance).getD a (ofInt 0)) = val (l.balances.getD a (ofInt 0)) +
      (if b.receiver = a then val b.value else 0) - if b.sender = a then val b.value else 0 := by
  rw [transferred, Dict.getD_set]
  split_ifs with hreceiver hsender hsender
  · exact absurd (hsender.trans hreceiver.symm) hdistinct
  · rw [PyNumber.val_add, Dict.getD_set, if_neg hdistinct, hreceiver]
    ring
  · rw [Dict.getD_set, if_pos hsender, PyNumber.val_sub, ← hsender, Dict.getD, hbalance]
    simp
  · rw [Dict.getD_set, if_neg hsender]
    ring

/-- A change of one branch, which keeps its place in the history. -/
lemma Audited.setBranch (h : Audited py start l blocks)
    (hbranches : l'.branches = l.branches.set id b')
    (hbalances : l'.balances = l.balances) (hfinalized : l'.finalized = l.finalized)
    (hheight : l'.canonicalHeight = l.canonicalHeight)
    (hdigest : l'.canonicalDigest = l.canonicalDigest)
    (hhistory : l'.canonicalHistory = l.canonicalHistory)
    (horigin : l.canonicalHistory.get? b'.originHeight = some b'.originDigest)
    (hsigned : b'.state = .committed → b'.txDigest.isSome = true) : Audited py start l' blocks where
  chained := h.chained.congr hheight hdigest hhistory
  accounts := by rw [hbalances]; exact h.accounts
  finalized := by rw [hfinalized]; exact h.finalized
  final := h.final
  balance a := by rw [hbalances]; exact h.balance a
  origin j c hc := by
    rw [hbranches, Dict.get?_set] at hc
    rw [hhistory]
    split_ifs at hc
    · cases hc; exact horigin
    · exact h.origin j c hc
  signed j c hc := by
    rw [hbranches, Dict.get?_set] at hc
    split_ifs at hc
    · cases hc; exact hsigned
    · exact h.signed j c hc

omit [PyNumber ν] in
/-- A change of one branch that is not final, and does not become final. -/
lemma Stored.setBranch (h : Stored l blocks)
    (hbranches : l'.branches = l.branches.set id b')
    (hold : ∀ b, l.branches.get? id = some b → b.state ≠ .final) (hnew : b'.state ≠ .final) :
    Stored l' blocks where
  distinct := h.distinct
  final_iff j c := by
    rw [hbranches, Dict.get?_set]
    split_ifs with hj
    · subst hj
      refine iff_of_false ?_ fun hc => ?_
      · rintro ⟨hc, hs⟩
        cases hc
        exact hnew hs
      · obtain ⟨hget, hs⟩ := (h.final_iff id c).mpr hc
        exact hold c hget hs
    · exact h.final_iff j c

/-- A new round. -/
lemma Audited.ticked (h : Audited py start l blocks) : Audited py start l.ticked blocks :=
  { h with chained := h.chained.congr rfl rfl rfl }

/-- Registering an account. -/
lemma Audited.registered (h : Audited py start l blocks) {account : String}
    (hnew : l.balances.get? account = none) :
    Audited py start (l.registered py account) (blocks ++ [.register account]) where
  chained :=
    have hset : Chained py start.canonicalDigest
        { l with balances := l.balances.set account (ofInt 0) } blocks :=
      h.chained.congr rfl rfl rfl
    hset.append (.register account)
  accounts := by
    show (l.balances.set account (ofInt 0)).keys = _
    rw [Dict.keys_set, if_neg (Dict.get?_eq_none_iff.mp hnew), h.accounts, registeredBy_append,
      List.append_assoc]
    rfl
  finalized := by
    rw [settledBy_append]
    exact h.finalized.trans (by rw [settledBy_register, List.append_nil])
  final c hc := by
    rw [settledBy_append, settledBy_register, List.append_nil] at hc
    exact h.final c hc
  balance a := by
    have hsame : (l.registered py account).balances.getD a (ofInt 0) =
        l.balances.getD a (ofInt 0) := by
      show (l.balances.set account (ofInt 0)).getD a (ofInt 0) = _
      rw [Dict.getD_set]
      split_ifs with ha
      · rw [← ha, Dict.getD, hnew]; rfl
      · rfl
    rw [hsame, settledBy_append, settledBy_register, List.append_nil]
    exact h.balance a
  origin j c hc := by
    have hget := h.origin j c hc
    have hle := ((h.chained.heights _).mp ⟨_, hget⟩).2
    exact (get?_appendBlock _ hle).trans hget
  signed := h.signed

/-- Settling a branch. -/
lemma Audited.settled (h : Audited py start l blocks) (hinv : LockInv l) {balance held : ν}
    (hb : l.branches.get? id = some b) (hs : b.state = .committed)
    (hbalance : l.balances.get? b.sender = some balance) :
    Audited py start (l.settled py id b balance held)
      (blocks ++ [.settle { b with state := .final }]) where
  chained :=
    have hpaid : Chained py start.canonicalDigest (appendFinalized { l.released id b .final held with
        balances := l.transferred b balance } b) blocks := h.chained.congr rfl rfl rfl
    hpaid.append (.settle { b with state := .final })
  accounts := by
    obtain ⟨known, hknown⟩ := Dict.contains_iff.mp (hinv.branch id b hb).receiver_known
    have hdebited : ∃ v, (l.balances.set b.sender (balance - b.value)).get? b.receiver = some v := by
      rw [Dict.get?_set]
      split_ifs
      · exact ⟨_, rfl⟩
      · exact ⟨known, hknown⟩
    obtain ⟨v, hv⟩ := hdebited
    rw [balances_settled, transferred, Dict.keys_set_of_some _ hv,
      Dict.keys_set_of_some _ hbalance, h.accounts, registeredBy_append]
    simp [registeredBy, Block.account?]
  finalized := by
    rw [settledBy_append, settledBy_settle, List.map_append]
    exact congrArg (· ++ [_]) h.finalized
  final c hc := by
    rw [settledBy_append, settledBy_settle, List.mem_append, List.mem_singleton] at hc
    rcases hc with hc | rfl
    · exact h.final c hc
    · exact ⟨rfl, h.signed id b hb hs⟩
  balance a := by
    rw [balances_settled, val_transferred hbalance (hinv.branch id b hb).distinct, h.balance a,
      settledBy_append, settledBy_settle, received, received, sent, sent, List.map_append,
      List.map_append, List.sum_append, List.sum_append]
    simp only [List.map_cons, List.map_nil, List.sum_cons, List.sum_nil]
    ring
  origin j c hc := by
    have hplace : l.canonicalHistory.get? c.originHeight = some c.originDigest := by
      rw [branches_settled, Dict.get?_set] at hc
      split_ifs at hc
      · cases hc
        exact h.origin id b hb
      · exact h.origin j c hc
    have hle := ((h.chained.heights _).mp ⟨_, hplace⟩).2
    exact (get?_appendBlock _ hle).trans hplace
  signed j c hc hcommitted := by
    rw [branches_settled, Dict.get?_set] at hc
    split_ifs at hc
    · cases hc
      cases hcommitted
    · exact h.signed j c hc hcommitted

/-- Settling a branch that is not final yet. -/
lemma Stored.settled (h : Stored l blocks) (hinv : LockInv l) {balance held : ν}
    (hb : l.branches.get? id = some b) (hs : b.state = .committed) :
    Stored (l.settled py id b balance held) (blocks ++ [.settle { b with state := .final }]) where
  distinct := by
    rw [settledBy_append, settledBy_settle, List.map_append, List.map_singleton,
      List.nodup_append]
    refine ⟨h.distinct, List.nodup_singleton _, ?_⟩
    rintro name hname _ hsingle rfl
    rw [List.mem_singleton] at hsingle
    obtain ⟨c, hc, hcname⟩ := List.mem_map.mp hname
    have hid : c.branchId = id := (hcname.trans hsingle).trans (hinv.branch id b hb).keyed
    obtain ⟨hget, hfinal⟩ := (h.final_iff id c).mpr ⟨hc, hid⟩
    rw [hb, Option.some.injEq] at hget
    rw [← hget, hs] at hfinal
    cases hfinal
  final_iff j c := by
    rw [branches_settled, settledBy_append, settledBy_settle, List.mem_append,
      List.mem_singleton, Dict.get?_set]
    split_ifs with hj
    · subst hj
      rw [Option.some.injEq]
      constructor
      · rintro ⟨rfl, -⟩
        exact ⟨.inr rfl, (hinv.branch id b hb).keyed⟩
      · rintro ⟨hc | rfl, hid⟩
        · obtain ⟨hget, hfinal⟩ := (h.final_iff id c).mpr ⟨hc, hid⟩
          rw [hb, Option.some.injEq] at hget
          rw [← hget, hs] at hfinal
          cases hfinal
        · exact ⟨rfl, rfl⟩
    · rw [h.final_iff j c]
      constructor
      · rintro ⟨hc, hid⟩
        exact ⟨.inl hc, hid⟩
      · rintro ⟨hc | rfl, hid⟩
        · exact ⟨hc, hid⟩
        · exact absurd ((hinv.branch id b hb).keyed.symm.trans hid) hj

/-- A visit of a branch appends a block, or none. -/
lemma Audited.turn (h : Audited py start l blocks) (hinv : LockInv l)
    (ht : BranchTurn py l id l') : ∃ more, Audited py start l' (blocks ++ more) ∧
      (Stored l blocks → Stored l' (blocks ++ more)) := by
  cases ht with
  | stay =>
    refine ⟨[], ?_, fun hstored => ?_⟩
    · rw [List.append_nil]; exact h
    · rw [List.append_nil]; exact hstored
  | expire b held hb hopen =>
    refine ⟨[], ?_, fun hstored => ?_⟩
    · rw [List.append_nil]
      exact h.setBranch rfl rfl rfl rfl rfl rfl (h.origin id b hb) nofun
    · rw [List.append_nil]
      refine hstored.setBranch rfl (fun c hc hs => ?_) nofun
      obtain rfl : b = c := Option.some.inj (hb.symm.trans hc)
      rw [hs] at hopen
      rcases hopen with hopen | hopen <;> cases hopen
  | final b r balance held hb hs hr hdue hbalance =>
    exact ⟨_, h.settled hinv hb hs hbalance, fun hstored => hstored.settled hinv hb hs⟩

/-- **Calls append blocks.** -/
theorem Audited.call {c : Call ν} (h : Audited py start l blocks) (hinv : LockInv l)
    (hc : l.call py c = .ok l') : ∃ more, Audited py start l' (blocks ++ more) ∧
      (FreshId py l c → Stored l blocks → Stored l' (blocks ++ more)) := by
  -- A call that changes a branch which is not final.
  have hset : ∀ {m : Ledger ν} {id : String} {b b' : Branch ν}, l.branches.get? id = some b →
      m.branches = l.branches.set id b' → b.state ≠ .final → b'.state ≠ .final →
      Stored l blocks → Stored m blocks := by
    intro m id b b' hb hbranches hold hnew hstored
    refine hstored.setBranch hbranches (fun c hc => ?_) hnew
    obtain rfl : b = c := Option.some.inj (hb.symm.trans hc)
    exact hold
  cases c with
  | register account =>
    obtain ⟨⟨-, -, hnew⟩, rfl⟩ := registerAccount_eq_ok.mp hc
    refine ⟨[.register account], h.registered hnew, fun _ hstored => ⟨?_, fun j d => ?_⟩⟩
    · rw [settledBy_append, settledBy_register, List.append_nil]
      exact hstored.distinct
    · rw [settledBy_append, settledBy_register, List.append_nil]
      exact hstored.final_iff j d
  | offer sender receiver value ttl =>
    obtain ⟨_, hc⟩ := exists_of_fst_map_eq_ok hc
    obtain ⟨hcan, rfl, -⟩ := offer_eq_ok.mp hc
    refine ⟨[], ?_⟩
    rw [List.append_nil]
    refine ⟨h.setBranch rfl rfl rfl rfl rfl rfl h.chained.head nofun, fun hfresh hstored => ?_⟩
    refine hstored.setBranch (branches_opened _ _ _ _ _ _) (fun b hb => ?_) nofun
    rw [hfresh _ _ _ _ rfl hcan] at hb
    cases hb
  | accept branchId receiver =>
    obtain ⟨_, hc⟩ := exists_of_fst_map_eq_ok hc
    obtain ⟨b, hb, hs, -, -, rfl, rfl⟩ := accept_eq_ok.mp hc
    refine ⟨[], ?_⟩
    rw [List.append_nil]
    exact ⟨h.setBranch rfl rfl rfl rfl rfl rfl (h.origin _ b hb) nofun,
      fun _ => hset hb rfl (by rw [hs]; exact nofun) nofun⟩
  | commit branchId sender payload =>
    obtain ⟨_, hc⟩ := exists_of_fst_map_eq_ok hc
    obtain ⟨b, hb, hs, -, -, rfl, rfl⟩ := commit_eq_ok.mp hc
    refine ⟨[], ?_⟩
    rw [List.append_nil]
    exact ⟨h.setBranch rfl rfl rfl rfl rfl rfl (h.origin _ b hb) fun _ => rfl,
      fun _ => hset hb rfl (by rw [hs]; exact nofun) nofun⟩
  | cancel branchId actor =>
    obtain ⟨_, hc⟩ := exists_of_fst_map_eq_ok hc
    obtain ⟨b, held, hb, hs, -, -, -, rfl⟩ := cancel_eq_ok.mp hc
    refine ⟨[], ?_⟩
    rw [List.append_nil]
    refine ⟨h.setBranch rfl rfl rfl rfl rfl rfl (h.origin _ b hb) nofun,
      fun _ => hset hb rfl ?_ nofun⟩
    rcases hs with hs | hs <;> rw [hs] <;> exact nofun
  | advance rounds =>
    refine (advance_induction (I := fun m => LockInv m ∧ ∃ more, Audited py start m (blocks ++ more) ∧
      (FreshId py l (.advance rounds) → Stored l blocks → Stored m (blocks ++ more))) hc
      ⟨hinv, [], by rw [List.append_nil]; exact ⟨h, fun _ hs => hs⟩⟩ ?_ ?_).2
    · rintro m ⟨hm, more, haudited, hstored⟩
      exact ⟨hm.ticked, more, haudited.ticked, fun hfresh hs =>
        ⟨(hstored hfresh hs).distinct, (hstored hfresh hs).final_iff⟩⟩
    · rintro m m' id - ht ⟨hm, more, haudited, hstored⟩
      obtain ⟨more', haudited', hstored'⟩ := haudited.turn hm ht
      rw [List.append_assoc] at haudited' hstored'
      exact ⟨hm.turn ht, more ++ more', haudited', fun hfresh hs => hstored' (hstored hfresh hs)⟩

end Changes

/-! ## Runs -/

section Runs

variable {py : PyLib ν} {start l l' : Ledger ν} {blocks : List (Block ν)}

/-- A run appends blocks. -/
lemma Audited.run {cs : List (Call ν)} (h : Audited py start l blocks) (hinv : LockInv l)
    (hrun : Transition.run (step py) l cs = some l') :
    ∃ more, Audited py start l' (blocks ++ more) ∧
      (Transition.Meets (step py) (FreshId py) l cs → Stored l blocks →
        Stored l' (blocks ++ more)) := by
  induction cs generalizing l blocks with
  | nil =>
    obtain rfl := Option.some.inj hrun
    exact ⟨[], by rw [List.append_nil]; exact ⟨h, fun _ hs => hs⟩⟩
  | cons c cs ih =>
    obtain ⟨m, hm, hrest⟩ := Transition.run_cons_eq_some_iff.mp hrun
    rcases step_eq_some hm with hc | ⟨-, rfl⟩
    · obtain ⟨more, haudited, hstored⟩ := h.call hinv hc
      obtain ⟨more', haudited', hstored'⟩ := ih haudited (hinv.call hc) hrest
      rw [List.append_assoc] at haudited' hstored'
      exact ⟨more ++ more', haudited', fun hfresh hs =>
        hstored' (hfresh.2 m hm) (hstored hfresh.1 hs)⟩
    · obtain ⟨more, haudited, hstored⟩ := ih h hinv hrest
      exact ⟨more, haudited, fun hfresh hs => hstored (hfresh.2 m hm) hs⟩

/-- An initial ledger has an empty log. -/
lemma Initial.audited (h : Initial py l) : Audited py l l [] := by
  have hcanonical : l.canonicalHeight = 0 ∧
      l.canonicalHistory = Dict.set ∅ 0 l.canonicalDigest ∧ l.finalized = [] := by
    cases h <;> exact ⟨rfl, rfl, rfl⟩
  obtain ⟨hheight, hhistory, hfinalized⟩ := hcanonical
  have hget : ∀ k, l.canonicalHistory.get? k = if 0 = k then some l.canonicalDigest else none := by
    intro k
    rw [hhistory]
    exact Dict.get?_set _ _ _ _
  refine ⟨⟨hheight, fun k => ?_, by rw [hget]; rfl, by rw [hget, hheight]; rfl, ?_⟩,
    (List.append_nil _).symm, hfinalized, ?_, ?_, ?_, ?_⟩
  · rw [hget, hheight]
    split_ifs with hk
    · exact iff_of_true ⟨_, rfl⟩ (by omega)
    · exact iff_of_false nofun (by omega)
  · exact fun k block hblock => by cases hblock
  · exact fun b hb => by cases hb
  · exact fun a => by simp [received, sent, settledBy]
  · exact fun id b hb => by rw [h.branches_eq] at hb; cases hb
  · exact fun id b hb => by rw [h.branches_eq] at hb; cases hb

omit [PyNumber ν] in
/-- The branches that have been settled are the final branches, in some order. -/
lemma Stored.perm (h : Stored l blocks) (hkeyed : ∀ id b, l.branches.get? id = some b →
    b.branchId = id) :
    (l.branches.values.filter fun b => b.state = .final).Perm (settledBy blocks) := by
  have hnames : l.branches.values.map Branch.branchId = l.branches.keys := by
    unfold Dict.values Dict.keys
    rw [List.map_map]
    exact List.map_congr_left fun e he => hkeyed e.1 e.2 (Dict.get?_eq_some_iff.mpr he)
  have hnodup : l.branches.keys.Nodup := l.branches.nodup_keys
  refine (List.perm_ext_iff_of_nodup ((hnames ▸ hnodup).of_map.filter _) h.distinct.of_map).mpr ?_
  intro b
  rw [List.mem_filter, decide_eq_true_eq, Dict.mem_values_iff]
  constructor
  · rintro ⟨⟨id, hb⟩, hs⟩
    exact ((h.final_iff id b).mp ⟨hb, hs⟩).1
  · intro hb
    obtain ⟨hget, hs⟩ := (h.final_iff b.branchId b).mpr ⟨hb, rfl⟩
    exact ⟨⟨_, hget⟩, hs⟩

/-- **The canonical chain is a complete audit log.** Behind every reachable ledger is a list of
blocks. Its canonical history has exactly the heights up to the head, begins with the genesis
digest, and each further entry is the digest of a block on the entry before it; its height is the
number of settled branches and of registered accounts; the list of finalized branches names the
settled branches with the digests of their transactions, in the order of the blocks; the balances
are the initial ones with what has been received and sent; and every branch names a place in the
history. If the identifiers of the run do not collide, the settled branches are the final branches
of the ledger.

**Proof sketch.** Every elementary change appends a block or leaves what blocks determine alone. A
branch that is final stays as it is until an offer is given its name. -/
theorem run_audited (py : PyLib ν) {start : Ledger ν} (hstart : Initial py start)
    (calls : List (Call ν)) :
    ∃ l blocks, Transition.run (step py) start calls = some l ∧ Audited py start l blocks ∧
      l.canonicalHeight = (settledBy blocks).length + (registeredBy blocks).length ∧
      (NoIdCollision py start calls →
        (l.branches.values.filter fun b => b.state = .final).Perm (settledBy blocks)) := by
  obtain ⟨l, hl, -, hinv⟩ := run_lockInv hstart calls
  obtain ⟨blocks, haudited, hstored⟩ := hstart.audited.run hstart.lockInv hl
  refine ⟨l, blocks, hl, haudited, ?_, fun hids => ?_⟩
  · rw [haudited.chained.height, List.nil_append, length_blocks]
    push_cast
    rfl
  · refine (hstored (meets_freshId hstart hids) ⟨List.nodup_nil, fun id b => ?_⟩).perm
      fun id b hb => (hinv.branch id b hb).keyed
    rw [hstart.branches_eq]
    exact iff_of_false (fun h => by cases h.1) fun h => by cases h.1

/-- A new account, and an offer that nobody accepts. -/
theorem run_audited_register :
    ∃ l blocks, Transition.run (step integerLib)
        (ofBalances integerLib (Dict.ofList [("alice", 10), ("bob", 0)]))
        [.register "carol", .offer "alice" "carol" 2 6, .advance 7] = some l ∧
      Audited integerLib (ofBalances integerLib (Dict.ofList [("alice", 10), ("bob", 0)])) l blocks ∧
      l.canonicalHeight = (settledBy blocks).length + (registeredBy blocks).length ∧
      (NoIdCollision integerLib (ofBalances integerLib (Dict.ofList [("alice", 10), ("bob", 0)]))
          [.register "carol", .offer "alice" "carol" 2 6, .advance 7] →
        (l.branches.values.filter fun b => b.state = .final).Perm (settledBy blocks)) :=
  run_audited integerLib initial_payment _

end Runs

end Ledger

end SplitChain
