import SplitChain.Model.Runs

set_option relaxedAutoImplicit false
set_option autoImplicit false

/-!
# The life of a branch

Rounds end branches: an open branch expires in the round its offer has set, a committed branch is
final three rounds after its commitment. What a number of rounds makes of a branch depends on the
branch and on the last of these rounds only, and this decides when, from where and how often a
branch ends.

Branches are stored under sixteen digits of a digest, and an offer that is given the name of a
stored branch replaces it. What is said about a branch holds until that happens.

## Main definitions

* `SplitChain.Branch.aged` — a branch when a round has been reached.
* `SplitChain.Branch.Moves` — what one operation, or one round, can do to a branch.
* `SplitChain.Branch.Later` — what lasts.
* `SplitChain.Ledger.changes` — the branches that the advances of a run return.
* `SplitChain.Ledger.Lifecycle` — the timing of branches, seen from one ledger.

## Main results

* `SplitChain.Ledger.get?_advanceRounds` — rounds age every branch.
* `SplitChain.Ledger.run_lifecycle` — the timing holds of every reachable ledger.
-/

namespace SplitChain

open Raise

open PyNumber (val ofInt)

variable {ν : Type} [PyNumber ν]

/-! ## Ageing -/

namespace Branch

/-- The branch when `round` has been reached: an open branch that is due has expired, and a
committed branch that is due is final. -/
def aged (b : Branch ν) (round : ℤ) : Branch ν :=
  match b.state, b.committedRound with
  | .offered, _ | .accepted, _ =>
    if val b.expiresRound ≤ round then { b with state := .expired } else b
  | .committed, some r => if Ledger.finalityRounds ≤ round - r then { b with state := .final } else b
  | _, _ => b

/-- The branch, if reaching `round` has ended it. -/
def ended (b : Branch ν) (round : ℤ) : List (Branch ν) :=
  if (b.aged round).state = b.state then [] else [b.aged round]

variable {b : Branch ν} {round round' : ℤ}

/-- An open branch ages by its expiry round. -/
lemma aged_of_open (h : b.state = .offered ∨ b.state = .accepted) :
    b.aged round = if val b.expiresRound ≤ round then { b with state := .expired } else b := by
  rcases h with h | h <;> simp [aged, h]

/-- A committed branch ages by the round of its commitment. -/
lemma aged_of_committed {r : ℤ} (h : b.state = .committed) (hr : b.committedRound = some r) :
    b.aged round = if Ledger.finalityRounds ≤ round - r then { b with state := .final } else b := by
  simp [aged, h, hr]

/-- A branch that has ended does not age. -/
lemma aged_of_inactive (h : b.state.active = false) : b.aged round = b := by
  unfold aged
  cases hs : b.state <;> rw [hs] at h <;> first | rfl | cases h

/-- A branch keeps its name. -/
@[simp] lemma branchId_aged : (b.aged round).branchId = b.branchId := by
  unfold aged
  split
  · split_ifs <;> rfl
  · split_ifs <;> rfl
  · split_ifs <;> rfl
  · rfl

/-- Ageing changes nothing, or ends the branch. -/
lemma aged_eq_or (b : Branch ν) (round : ℤ) :
    b.aged round = b ∨ (b.aged round).state.active = false := by
  unfold aged
  split
  · split_ifs
    · exact .inr rfl
    · exact .inl rfl
  · split_ifs
    · exact .inr rfl
    · exact .inl rfl
  · split_ifs
    · exact .inr rfl
    · exact .inl rfl
  · exact .inl rfl

/-- Ageing in two steps.

**Proof sketch.** What is due in the first round is due in the later one, and a branch that has
ended stays as it is. -/
lemma aged_aged (h : round ≤ round') : (b.aged round).aged round' = b.aged round' := by
  have hle : ∀ {q : ℚ}, q ≤ round → q ≤ round' := fun hq => hq.trans (by exact_mod_cast h)
  by_cases hopen : b.state = .offered ∨ b.state = .accepted
  · rw [aged_of_open hopen, aged_of_open hopen]
    by_cases hdue : val b.expiresRound ≤ round
    · rw [if_pos hdue, if_pos (hle hdue)]
      exact aged_of_inactive rfl
    · rw [if_neg hdue, aged_of_open hopen]
  · by_cases hcommitted : ∃ r, b.state = .committed ∧ b.committedRound = some r
    · obtain ⟨r, hs, hr⟩ := hcommitted
      rw [aged_of_committed hs hr, aged_of_committed hs hr]
      by_cases hdue : Ledger.finalityRounds ≤ round - r
      · rw [if_pos hdue, if_pos (by omega)]
        exact aged_of_inactive rfl
      · rw [if_neg hdue, aged_of_committed hs hr]
    · have hsame : ∀ k, b.aged k = b := by
        intro k
        unfold aged
        cases hs : b.state with
        | offered => exact absurd (.inl hs) hopen
        | accepted => exact absurd (.inr hs) hopen
        | committed =>
          cases hr : b.committedRound with
          | none => rfl
          | some r => exact absurd ⟨r, hs, hr⟩ hcommitted
        | final | cancelled | expired => rfl
      rw [hsame, hsame]

end Branch

namespace Ledger

variable {py : PyLib ν} {l l' : Ledger ν} {changed : List (Branch ν)}

/-- A branch that is not overdue is as it will be in this round. -/
lemma aged_of_not_overdue {branchId : String} {b : Branch ν}
    (hb : l.branches.get? branchId = some b) (h : ¬ l.Overdue branchId) : b.aged l.round = b := by
  rw [overdue_iff hb, not_or] at h
  by_cases hopen : b.state = .offered ∨ b.state = .accepted
  · rw [Branch.aged_of_open hopen, if_neg fun hdue => h.1 ⟨hopen, hdue⟩]
  · by_cases hcommitted : ∃ r, b.state = .committed ∧ b.committedRound = some r
    · obtain ⟨r, hs, hr⟩ := hcommitted
      rw [Branch.aged_of_committed hs hr, if_neg fun hdue => h.2 ⟨hs, r, hr, hdue⟩]
    · unfold Branch.aged
      split
      · next hs => exact absurd (.inl hs) hopen
      · next hs => exact absurd (.inr hs) hopen
      · next r hs hr => exact absurd ⟨r, hs, hr⟩ hcommitted
      · rfl

/-- A visit ages the branch that is visited. -/
lemma get?_turn {branchId : String} (h : BranchTurn py l branchId l') (id : String) :
    l'.branches.get? id =
      if branchId = id then (l.branches.get? id).map (·.aged l.round) else l.branches.get? id := by
  cases h with
  | stay hdue =>
    split_ifs with hid
    · subst hid
      cases hb : l.branches.get? branchId with
      | none => rfl
      | some b => rw [Option.map_some, aged_of_not_overdue hb hdue]
    · rfl
  | expire b held hb hs hdue =>
    rw [branches_released, Dict.get?_set]
    split_ifs with hid
    · rw [← hid, hb, Option.map_some, Branch.aged_of_open hs, if_pos hdue]
    · rfl
  | final b r balance held hb hs hr hdue =>
    rw [branches_settled, Dict.get?_set]
    split_ifs with hid
    · rw [← hid, hb, Option.map_some, Branch.aged_of_committed hs hr, if_pos hdue]
    · rfl

/-- A visit returns the branch if it has ended it. -/
lemma changed_advanceBranch {branchId : String}
    (h : l.advanceBranch py branchId = .ok (l', changed)) :
    changed = (l.branches.get? branchId).elim [] fun b => b.ended l.round := by
  unfold advanceBranch at h
  cases hb : l.branches.get? branchId with
  | none =>
    rw [hb] at h
    exact (Prod.mk.inj (Except.ok.inj h)).2.symm
  | some b =>
    simp only [hb] at h
    show changed = b.ended l.round
    have expire : b.state = .offered ∨ b.state = .accepted →
        (if val b.expiresRound ≤ (l.round : ℚ) then do
          let l' ← (l.setBranch branchId { b with state := .expired }).unlock
            { b with state := .expired }
          return (l', [{ b with state := .expired }])
        else (.ok (l, []) : Except PyError (Ledger ν × List (Branch ν)))) = .ok (l', changed) →
        changed = b.ended l.round := by
      intro hs h
      unfold Branch.ended
      rw [Branch.aged_of_open hs]
      split_ifs at h ⊢ with hdue hstate
      · simp only at hstate
        rw [← hstate] at hs
        rcases hs with hs | hs <;> cases hs
      · simp only [bind_eq_ok, pure_eq_ok, Prod.mk.injEq] at h
        obtain ⟨_, -, -, rfl⟩ := h
        rfl
      · exact (Prod.mk.inj (Except.ok.inj h)).2.symm
      · exact absurd rfl ‹_›
    cases hs : b.state with
    | offered => rw [hs] at h; exact expire (.inl hs) h
    | accepted => rw [hs] at h; exact expire (.inr hs) h
    | committed =>
      rw [hs] at h
      simp only [bind_eq_ok, orRaise_eq_ok] at h
      obtain ⟨r, hr, h⟩ := h
      unfold Branch.ended
      rw [Branch.aged_of_committed hs hr]
      split_ifs at h ⊢ with hdue hstate
      · simp only [hs] at hstate
        cases hstate
      · simp only [bind_eq_ok, pure_eq_ok, Prod.mk.injEq, Prod.exists] at h
        obtain ⟨_, b', hfin, -, rfl⟩ := h
        obtain ⟨_, _, -, -, rfl, -⟩ := finalize_eq_ok.mp hfin
        rfl
      · exact (Prod.mk.inj (Except.ok.inj h)).2.symm
      · exact absurd rfl ‹_›
    | final | cancelled | expired =>
      rw [hs] at h
      unfold Branch.ended
      rw [Branch.aged_of_inactive (by rw [hs]; rfl), if_pos rfl]
      exact (Prod.mk.inj (Except.ok.inj h)).2.symm

/-- **The visits of one round** age the branches that are visited, and return those that they
end, in order. -/
lemma get?_advanceBranches {ids : List String} (hids : ids.Nodup)
    (h : advanceBranches py ids l = .ok (l', changed)) :
    (∀ id, l'.branches.get? id =
      if id ∈ ids then (l.branches.get? id).map (·.aged l.round) else l.branches.get? id) ∧
    changed = ids.flatMap fun id => (l.branches.get? id).elim [] fun b => b.ended l.round := by
  induction ids generalizing l changed with
  | nil =>
    simp only [advanceBranches, Except.ok.injEq, Prod.mk.injEq] at h
    obtain ⟨rfl, rfl⟩ := h
    exact ⟨fun id => by simp, rfl⟩
  | cons branchId ids ih =>
    obtain ⟨hnew, hids⟩ := List.nodup_cons.mp hids
    simp only [advanceBranches, bind_eq_ok, pure_eq_ok, Prod.mk.injEq, Prod.exists] at h
    obtain ⟨m, first, hm, _, rest, hrest, rfl, rfl⟩ := h
    have hturn := branchTurn_of_advanceBranch hm
    have hother : ∀ id ∈ ids, m.branches.get? id = l.branches.get? id := by
      intro id hid
      rw [get?_turn hturn, if_neg]
      rintro rfl
      exact hnew hid
    obtain ⟨hget, hchanged⟩ := ih hids hrest
    constructor
    · intro id
      rw [hget, hturn.round_eq]
      by_cases hid : id ∈ ids
      · rw [if_pos hid, if_pos (List.mem_cons_of_mem _ hid), hother id hid]
      · rw [if_neg hid, get?_turn hturn]
        by_cases hself : branchId = id
        · rw [if_pos hself, if_pos (hself ▸ List.mem_cons_self)]
        · rw [if_neg hself, if_neg]
          simpa [eq_comm, hself] using hid
    · rw [List.flatMap_cons, changed_advanceBranch hm, hchanged]
      congr 1
      refine List.flatMap_congr fun id hid => ?_
      rw [hother id hid, hturn.round_eq]

/-- One round ages every branch. -/
lemma get?_round (h : advanceBranches py l.branches.keys l.ticked = .ok (l', changed)) :
    l'.round = l.round + 1 ∧
    (∀ id, l'.branches.get? id = (l.branches.get? id).map (·.aged (l.round + 1))) ∧
    changed = l.branches.keys.flatMap fun id =>
      (l.branches.get? id).elim [] fun b => b.ended (l.round + 1) := by
  have hround := (advanceBranches_induction (I := fun _ => True) h trivial
    fun _ _ _ _ _ _ => trivial).2
  obtain ⟨hget, hchanged⟩ := get?_advanceBranches l.branches.nodup_keys h
  refine ⟨hround, fun id => ?_, hchanged⟩
  rw [hget]
  split_ifs with hid
  · rfl
  · show l.branches.get? id = (l.branches.get? id).map _
    rw [Dict.get?_eq_none_iff.mpr hid]
    rfl

/-- **Rounds age every branch**, whatever happens in between. -/
theorem get?_advanceRounds {n : ℕ} (hn : n ≠ 0) (h : advanceRounds py n l = .ok (l', changed)) :
    l'.round = l.round + n ∧
      ∀ id, l'.branches.get? id = (l.branches.get? id).map (·.aged l'.round) := by
  induction n generalizing l changed with
  | zero => exact absurd rfl hn
  | succ n ih =>
    simp only [advanceRounds, bind_eq_ok, pure_eq_ok, Prod.mk.injEq, Prod.exists] at h
    obtain ⟨m, first, hm, _, rest, hrest, rfl, -⟩ := h
    obtain ⟨hround, hget, -⟩ := get?_round hm
    cases n with
    | zero =>
      simp only [advanceRounds, Except.ok.injEq, Prod.mk.injEq] at hrest
      obtain ⟨rfl, -⟩ := hrest
      exact ⟨by rw [hround]; rfl, fun id => by rw [hget, hround]⟩
    | succ n =>
      obtain ⟨hround', hget'⟩ := ih (by omega) hrest
      refine ⟨by rw [hround', hround]; push_cast; ring, fun id => ?_⟩
      rw [hget', hget, Option.map_map]
      refine congrFun (congrArg Option.map (funext fun b => ?_)) _
      exact Branch.aged_aged (by rw [hround', hround]; omega)

end Ledger

/-! ## What a call makes of a branch -/

namespace Branch

/-- What the participants of a branch can do to it in a round. -/
inductive Acts (round : ℤ) (b : Branch ν) : Branch ν → Prop
  | stay : Acts round b b
  | accept (state : b.state = .offered) (live : (round : ℚ) < val b.expiresRound) :
      Acts round b { b with state := .accepted, acceptedRound := some round }
  | commit (digest : String) (state : b.state = .accepted)
      (live : (round : ℚ) < val b.expiresRound) :
      Acts round b { b with
        txDigest := some digest
        committedRound := some round
        state := .committed }
  | cancel (state : b.state = .offered ∨ b.state = .accepted) :
      Acts round b { b with state := .cancelled }

end Branch

namespace Ledger

variable {py : PyLib ν} {l l' : Ledger ν} {c : Call ν}

/-- **What a call makes of the branch under a name**: an offer can put a new one there, an advance
ages it, and other calls are what its participants do. -/
theorem get?_call (h : l.call py c = .ok l') (id : String) :
    (∃ s r v t, c = .offer s r v t ∧ l.CanOffer s r v t ∧ l.nextBranchId py s r v = id ∧
      l'.round = l.round ∧ l'.branches.get? id = some (l.newBranch py s r v t)) ∨
    (∃ rounds, c = .advance rounds ∧ 1 ≤ rounds ∧ l'.round = l.round + rounds ∧
      l'.branches.get? id = (l.branches.get? id).map (·.aged l'.round)) ∨
    ((∀ rounds, c ≠ .advance rounds) ∧ l'.round = l.round ∧
      Option.Rel (Branch.Acts l.round) (l.branches.get? id) (l'.branches.get? id)) := by
  have hsame : ∀ o : Option (Branch ν), Option.Rel (Branch.Acts l.round) o o := by
    rintro (_ | b)
    · exact .none
    · exact .some .stay
  -- A call that stores another version of one branch.
  have hacts : ∀ {branchId : String} {b b' : Branch ν}, l.branches.get? branchId = some b →
      b.Acts l.round b' → Option.Rel (Branch.Acts l.round) (l.branches.get? id)
        ((l.branches.set branchId b').get? id) := by
    intro branchId b b' hb hact
    rw [Dict.get?_set]
    split_ifs with hid
    · subst hid
      rw [hb]
      exact .some hact
    · exact hsame _
  cases c with
  | register account =>
    obtain ⟨-, rfl⟩ := registerAccount_eq_ok.mp h
    exact .inr (.inr ⟨nofun, rfl, hsame _⟩)
  | offer sender receiver value ttl =>
    obtain ⟨_, h⟩ := exists_of_fst_map_eq_ok h
    obtain ⟨hcan, rfl, -⟩ := offer_eq_ok.mp h
    by_cases hid : l.nextBranchId py sender receiver value = id
    · refine .inl ⟨sender, receiver, value, ttl, rfl, hcan, hid, rfl, ?_⟩
      rw [branches_opened, hid, Dict.get?_set_self]
    · refine .inr (.inr ⟨nofun, rfl, ?_⟩)
      rw [branches_opened, Dict.get?_set_of_ne _ _ hid]
      exact hsame _
  | accept branchId receiver =>
    obtain ⟨_, h⟩ := exists_of_fst_map_eq_ok h
    obtain ⟨b, hb, hs, hlive, -, rfl, rfl⟩ := accept_eq_ok.mp h
    exact .inr (.inr ⟨nofun, rfl, hacts hb (.accept hs hlive)⟩)
  | commit branchId sender payload =>
    obtain ⟨_, h⟩ := exists_of_fst_map_eq_ok h
    obtain ⟨b, hb, hs, hlive, -, rfl, rfl⟩ := commit_eq_ok.mp h
    exact .inr (.inr ⟨nofun, rfl, hacts hb (.commit _ hs hlive)⟩)
  | cancel branchId actor =>
    obtain ⟨_, h⟩ := exists_of_fst_map_eq_ok h
    obtain ⟨b, held, hb, hs, -, -, -, rfl⟩ := cancel_eq_ok.mp h
    exact .inr (.inr ⟨nofun, rfl, hacts hb (.cancel hs)⟩)
  | advance rounds =>
    obtain ⟨hpos, hround, -⟩ := advance_spec h
    obtain ⟨_, h⟩ := exists_of_fst_map_eq_ok h
    simp only [advance, bind_eq_ok, require_eq_ok, exists_const] at h
    exact .inr (.inl ⟨rounds, rfl, hpos, hround, (get?_advanceRounds (by omega) h.2).2 id⟩)

end Ledger

/-! ## Timely branches -/

namespace Branch

/-- A branch that is on time: none of its deadlines has passed unnoticed, and it carries the marks
of its state. -/
structure Timely (round : ℤ) (b : Branch ν) : Prop where
  live : b.state = .offered ∨ b.state = .accepted → (round : ℚ) < val b.expiresRound
  young : b.state = .committed → ∃ r, b.committedRound = some r ∧ round - r < Ledger.finalityRounds
  unaccepted : b.state = .offered → b.acceptedRound = none
  uncommitted : b.state = .offered ∨ b.state = .accepted →
    b.committedRound = none ∧ b.txDigest = none

/-- What lasts of a branch: its terms, the marks that are set, and its end. A branch that is
committed is committed until it is final. -/
structure Later (b b' : Branch ν) : Prop where
  terms : b'.branchId = b.branchId ∧ b'.sender = b.sender ∧ b'.receiver = b.receiver ∧
    b'.value = b.value ∧ b'.stake = b.stake ∧ b'.createdRound = b.createdRound ∧
    b'.expiresRound = b.expiresRound ∧ b'.originHeight = b.originHeight ∧
    b'.originDigest = b.originDigest
  acceptedRound : ∀ r, b.acceptedRound = some r → b'.acceptedRound = some r
  committedRound : ∀ r, b.committedRound = some r → b'.committedRound = some r
  txDigest : ∀ d, b.txDigest = some d → b'.txDigest = some d
  ended : b.state.active = false → b' = b
  committed : b.state = .committed → b'.state = .committed ∨ b'.state = .final

variable {b b' b'' : Branch ν} {round round' : ℤ}

omit [PyNumber ν] in
lemma Later.refl (b : Branch ν) : b.Later b :=
  ⟨⟨rfl, rfl, rfl, rfl, rfl, rfl, rfl, rfl, rfl⟩, fun _ h => h, fun _ h => h, fun _ h => h,
    fun _ => rfl, .inl⟩

omit [PyNumber ν] in
lemma Later.trans (h : b.Later b') (h' : b'.Later b'') : b.Later b'' where
  terms := by
    obtain ⟨h1, h2, h3, h4, h5, h6, h7, h8, h9⟩ := h.terms
    rw [← h1, ← h2, ← h3, ← h4, ← h5, ← h6, ← h7, ← h8, ← h9]
    exact h'.terms
  acceptedRound r hr := h'.acceptedRound r (h.acceptedRound r hr)
  committedRound r hr := h'.committedRound r (h.committedRound r hr)
  txDigest d hd := h'.txDigest d (h.txDigest d hd)
  ended hs := by
    obtain rfl := h.ended hs
    exact h'.ended hs
  committed hs := by
    rcases h.committed hs with hs' | hs'
    · exact h'.committed hs'
    · rw [h'.ended (by rw [hs']; rfl)]
      exact .inr hs'

omit [PyNumber ν] in
/-- A branch with another state and the same marks. -/
lemma later_setState {s : BranchState} (hactive : b.state.active = true)
    (hcommitted : b.state = .committed → s = .final) : b.Later { b with state := s } where
  terms := ⟨rfl, rfl, rfl, rfl, rfl, rfl, rfl, rfl, rfl⟩
  acceptedRound _ hr := hr
  committedRound _ hr := hr
  txDigest _ hd := hd
  ended hs := by rw [hactive] at hs; cases hs
  committed hs := .inr (hcommitted hs)

omit [PyNumber ν] in
/-- An open branch is not committed. -/
lemma not_committed_of_open (h : b.state = .offered ∨ b.state = .accepted) :
    b.state ≠ .committed := by
  rcases h with h | h <;> rw [h] <;> exact nofun

/-- Age leaves what lasts. -/
lemma later_aged : b.Later (b.aged round) := by
  unfold aged
  split
  · next hs =>
    split_ifs
    · exact later_setState (by rw [hs]; rfl) (by rw [hs]; exact nofun)
    · exact .refl b
  · next hs =>
    split_ifs
    · exact later_setState (by rw [hs]; rfl) (by rw [hs]; exact nofun)
    · exact .refl b
  · next hs _ =>
    split_ifs
    · exact later_setState (by rw [hs]; rfl) fun _ => rfl
    · exact .refl b
  · exact .refl b

/-- So do the participants. -/
lemma Acts.later (h : b.Acts round b') (ht : b.Timely round) : b.Later b' := by
  cases h with
  | stay => exact .refl b
  | accept state live =>
    refine ⟨⟨rfl, rfl, rfl, rfl, rfl, rfl, rfl, rfl, rfl⟩, fun r hr => ?_, fun _ hr => hr,
      fun _ hd => hd, fun hs => ?_, fun hs => ?_⟩
    · rw [ht.unaccepted state] at hr
      cases hr
    · rw [state] at hs
      cases hs
    · rw [state] at hs
      cases hs
  | commit digest state live =>
    obtain ⟨hround, hdigest⟩ := ht.uncommitted (.inr state)
    refine ⟨⟨rfl, rfl, rfl, rfl, rfl, rfl, rfl, rfl, rfl⟩, fun _ hr => hr, fun r hr => ?_,
      fun d hd => ?_, fun hs => ?_, fun _ => .inl rfl⟩
    · rw [hround] at hr
      cases hr
    · rw [hdigest] at hd
      cases hd
    · rw [state] at hs
      cases hs
  | cancel state =>
    exact later_setState (Ledger.active_of_open state) fun hs =>
      absurd hs (not_committed_of_open state)

/-- A branch that has ended has no deadlines. -/
lemma timely_of_inactive (h : b.state.active = false) : b.Timely round := by
  have hclosed : ¬ (b.state = .offered ∨ b.state = .accepted) := by
    rintro (hs | hs) <;> rw [hs] at h <;> cases h
  refine ⟨fun hs => absurd hs hclosed, fun hs => ?_, fun hs => absurd (.inl hs) hclosed,
    fun hs => absurd hs hclosed⟩
  rw [hs] at h
  cases h

/-- A branch that has aged is on time. -/
lemma Timely.aged (h : b.Timely round) : (b.aged round').Timely round' := by
  by_cases hopen : b.state = .offered ∨ b.state = .accepted
  · rw [aged_of_open hopen]
    split_ifs with hdue
    · exact timely_of_inactive rfl
    · exact ⟨fun _ => not_le.mp hdue, fun hs => absurd hs (not_committed_of_open hopen),
        h.unaccepted, h.uncommitted⟩
  · by_cases hcommitted : b.state = .committed
    · obtain ⟨r, hr, -⟩ := h.young hcommitted
      rw [aged_of_committed hcommitted hr]
      split_ifs with hdue
      · exact timely_of_inactive rfl
      · exact ⟨fun hs => absurd hs hopen, fun _ => ⟨r, hr, not_le.mp hdue⟩, h.unaccepted,
          h.uncommitted⟩
    · have hended : b.state.active = false := by
        cases hs : b.state with
        | offered => exact absurd (.inl hs) hopen
        | accepted => exact absurd (.inr hs) hopen
        | committed => exact absurd hs hcommitted
        | final | cancelled | expired => rfl
      rw [aged_of_inactive hended]
      exact timely_of_inactive hended

/-- Participants keep a branch on time. -/
lemma Timely.acts (h : b.Timely round) (hacts : b.Acts round b') : b'.Timely round := by
  cases hacts with
  | stay => exact h
  | accept state live => exact ⟨fun _ => live, nofun, nofun, fun _ => h.uncommitted (.inl state)⟩
  | commit digest state live =>
    exact ⟨fun hs => absurd rfl (not_committed_of_open hs),
      fun _ => ⟨round, rfl, by rw [sub_self]; decide⟩, nofun,
      fun hs => absurd rfl (not_committed_of_open hs)⟩
  | cancel state => exact timely_of_inactive rfl

end Branch

namespace Ledger

/-- Every branch is on time. -/
def Timely (l : Ledger ν) : Prop :=
  ∀ id b, l.branches.get? id = some b → b.Timely l.round

/-- A call does not give the name of a stored branch to another one. -/
def Spares (py : PyLib ν) (id : String) (l : Ledger ν) (c : Call ν) : Prop :=
  ∀ sender receiver value ttl, c = .offer sender receiver value ttl →
    l.CanOffer sender receiver value ttl → l.nextBranchId py sender receiver value = id →
    l.branches.get? id = none

variable {py : PyLib ν} {l l' : Ledger ν} {c : Call ν}

/-- New names spare every branch. -/
lemma FreshId.spares (h : FreshId py l c) (id : String) : Spares py id l c := by
  rintro s r v t rfl hcan rfl
  exact h s r v t rfl hcan

/-- **Calls keep branches on time.** -/
theorem Timely.call (h : l.Timely) (hc : l.call py c = .ok l') : l'.Timely := by
  intro id b' hb'
  rcases get?_call hc id with ⟨s, r, v, t, -, hcan, -, hround, hnew⟩ |
    ⟨rounds, -, -, -, haged⟩ | ⟨-, hround, hacts⟩
  · obtain rfl := Option.some.inj (hnew.symm.trans hb')
    rw [hround]
    refine ⟨fun _ => ?_, nofun, fun _ => rfl, fun _ => ⟨rfl, rfl⟩⟩
    have hcovers := hcan.ttl_covers
    show (l.round : ℚ) < val (ofInt l.round + t)
    rw [PyNumber.val_add, PyNumber.val_ofInt]
    have hpos : (0 : ℚ) < finalityRounds := by norm_num [finalityRounds]
    linarith
  · rw [haged, Option.map_eq_some_iff] at hb'
    obtain ⟨b, hb, rfl⟩ := hb'
    exact (h id b hb).aged
  · rw [hb'] at hacts
    cases hb : l.branches.get? id with
    | none => rw [hb] at hacts; cases hacts
    | some b =>
      rw [hb] at hacts
      cases hacts with
      | some hact => exact hround ▸ (h id b hb).acts hact

/-- A call that spares a branch leaves what lasts of it. -/
lemma later_call (h : l.Timely) (hc : l.call py c = .ok l') {id : String} {b : Branch ν}
    (hspares : Spares py id l c) (hb : l.branches.get? id = some b) :
    ∃ b', l'.branches.get? id = some b' ∧ b.Later b' := by
  rcases get?_call hc id with ⟨s, r, v, t, hoffer, hcan, hid, -, -⟩ |
    ⟨rounds, -, -, -, haged⟩ | ⟨-, -, hacts⟩
  · rw [hspares s r v t hoffer hcan hid] at hb
    cases hb
  · rw [haged, hb]
    exact ⟨_, rfl, Branch.later_aged⟩
  · rw [hb] at hacts
    cases hb' : l'.branches.get? id with
    | none => rw [hb'] at hacts; cases hacts
    | some b' =>
      rw [hb'] at hacts
      cases hacts with
      | some hact => exact ⟨b', rfl, hact.later (h id b hb)⟩

/-! ## What advances return -/

/-- The branches that an advance returns. -/
def changed (py : PyLib ν) (l : Ledger ν) : Call ν → List (Branch ν)
  | .advance rounds =>
    match l.advance py rounds with
    | .ok (_, bs) => bs
    | .error _ => []
  | _ => []

/-- The branches that the advances of a run return. -/
def changes (py : PyLib ν) : Ledger ν → List (Call ν) → List (Branch ν)
  | _, [] => []
  | l, c :: cs => l.changed py c ++
      match l.step py c with
      | some l' => changes py l' cs
      | none => []

/-- How often the branch under a name can still end: once, unless it has ended. A name that is not
in use can be given to one branch. -/
def chances (o : Option (Branch ν)) : ℕ := if o.all fun b => b.state.active then 1 else 0

/-- How often a name occurs in a list of branches. -/
def occurrences (id : String) (bs : List (Branch ν)) : ℕ := (bs.map Branch.branchId).count id

omit [PyNumber ν] in
lemma chances_le_one (o : Option (Branch ν)) : chances o ≤ 1 := by
  unfold chances
  split_ifs <;> omega

omit [PyNumber ν] in
@[simp] lemma occurrences_nil (id : String) : occurrences (ν := ν) id [] = 0 := rfl

omit [PyNumber ν] in
@[simp] lemma occurrences_append (id : String) (bs cs : List (Branch ν)) :
    occurrences id (bs ++ cs) = occurrences id bs + occurrences id cs := by
  simp [occurrences]

/-- A branch that ends uses up its chance. -/
lemma length_ended_le (b : Branch ν) (round : ℤ) :
    (b.ended round).length + chances (some (b.aged round)) ≤ chances (some b) := by
  unfold Branch.ended
  by_cases hactive : b.state.active = true
  · have hone : chances (some b) = 1 := by simp [chances, hactive]
    rw [hone]
    rcases b.aged_eq_or round with hsame | hended
    · rw [hsame, if_pos rfl, hone]
      rfl
    · have hzero : chances (some (b.aged round)) = 0 := by simp [chances, hended]
      rw [hzero]
      split_ifs <;> simp
  · have hended : b.state.active = false := by simpa using hactive
    rw [Branch.aged_of_inactive hended, if_pos rfl]
    simp

omit [PyNumber ν] in
/-- Occurrences of a name in what is returned for distinct names. -/
lemma occurrences_flatMap {ids : List String} (hids : ids.Nodup) {f : String → List (Branch ν)}
    (hf : ∀ id, ∀ b ∈ f id, b.branchId = id) (id : String) :
    occurrences id (ids.flatMap f) = if id ∈ ids then (f id).length else 0 := by
  have hown : ∀ j, occurrences id (f j) = if j = id then (f id).length else 0 := by
    intro j
    unfold occurrences
    split_ifs with hj
    · subst hj
      have hall : (f j).map Branch.branchId = List.replicate (f j).length j :=
        List.map_eq_replicate_iff.mpr (hf j)
      rw [hall, List.count_replicate_self]
    · refine List.count_eq_zero.mpr fun hmem => ?_
      obtain ⟨b, hb, hname⟩ := List.mem_map.mp hmem
      exact hj ((hf j b hb).symm.trans hname)
  induction ids with
  | nil => rfl
  | cons j ids ih =>
    obtain ⟨hnew, hids⟩ := List.nodup_cons.mp hids
    rw [List.flatMap_cons, occurrences_append, hown, ih hids]
    by_cases hj : j = id
    · subst hj
      simp [hnew]
    · simp [hj, Ne.symm hj]

/-- **Rounds end a branch at most once.** -/
lemma occurrences_advanceRounds {n : ℕ} {bs : List (Branch ν)} (hkeyed : l.Keyed)
    (h : advanceRounds py n l = .ok (l', bs)) (id : String) :
    occurrences id bs + chances (l'.branches.get? id) ≤ chances (l.branches.get? id) := by
  induction n generalizing l bs with
  | zero =>
    simp only [advanceRounds, Except.ok.injEq, Prod.mk.injEq] at h
    obtain ⟨rfl, rfl⟩ := h
    simp
  | succ n ih =>
    simp only [advanceRounds, bind_eq_ok, pure_eq_ok, Prod.mk.injEq, Prod.exists] at h
    obtain ⟨m, first, hm, _, rest, hrest, rfl, rfl⟩ := h
    obtain ⟨-, hget, hfirst⟩ := get?_round hm
    have hkeyed' : m.Keyed := by
      intro j b' hb'
      rw [hget, Option.map_eq_some_iff] at hb'
      obtain ⟨b, hb, rfl⟩ := hb'
      rw [Branch.branchId_aged, hkeyed j b hb]
    have hone : occurrences id first + chances (m.branches.get? id) ≤
        chances (l.branches.get? id) := by
      have hnodup : l.branches.keys.Nodup := l.branches.nodup_keys
      rw [hfirst, occurrences_flatMap hnodup, hget]
      · cases hb : l.branches.get? id with
        | none =>
          rw [if_neg (Dict.get?_eq_none_iff.mp hb)]
          simp
        | some b =>
          rw [if_pos (Dict.mem_keys_iff.mpr ⟨b, hb⟩)]
          exact length_ended_le b _
      · intro j b hb
        cases hj : l.branches.get? j with
        | none => rw [hj] at hb; cases hb
        | some c =>
          rw [hj] at hb
          simp only [Option.elim_some, Branch.ended] at hb
          split_ifs at hb
          · cases hb
          · obtain rfl := List.mem_singleton.mp hb
            rw [Branch.branchId_aged, hkeyed j c hj]
    have hrest' := ih hkeyed' hrest
    rw [occurrences_append]
    omega

/-- A call that spares a branch uses up its chance if it returns it. -/
lemma occurrences_changed (hkeyed : l.Keyed) (hc : l.call py c = .ok l') {id : String}
    (hspares : Spares py id l c) :
    occurrences id (l.changed py c) + chances (l'.branches.get? id) ≤
      chances (l.branches.get? id) := by
  by_cases hadvance : ∃ rounds, c = .advance rounds
  · obtain ⟨rounds, rfl⟩ := hadvance
    obtain ⟨bs, h⟩ := exists_of_fst_map_eq_ok hc
    have hbs : l.changed py (.advance rounds) = bs := by simp only [changed, h]
    rw [hbs]
    simp only [advance, bind_eq_ok, require_eq_ok, exists_const] at h
    exact occurrences_advanceRounds hkeyed h.2 id
  · have hnothing : l.changed py c = [] := by
      cases c with
      | advance rounds => exact absurd ⟨rounds, rfl⟩ hadvance
      | register | offer | accept | commit | cancel => rfl
    rw [hnothing, occurrences_nil, zero_add]
    rcases get?_call hc id with ⟨s, r, v, t, hoffer, hcan, hid, -, -⟩ |
      ⟨rounds, hrounds, -⟩ | ⟨-, -, hacts⟩
    · rw [hspares s r v t hoffer hcan hid]
      unfold chances
      split_ifs <;> simp_all
    · exact absurd ⟨rounds, hrounds⟩ hadvance
    · generalize l.branches.get? id = o at hacts ⊢
      generalize l'.branches.get? id = o' at hacts ⊢
      cases hacts with
      | none => rfl
      | some hact =>
        cases hact with
        | stay => rfl
        | accept state => simp [chances, state, BranchState.active]
        | commit digest state => simp [chances, state, BranchState.active]
        | cancel state => simp [chances, BranchState.active]

end Ledger

/-! ## The life of a branch -/

namespace Branch

/-- What one operation, or one round, can do to a branch with an integer expiry round, when the
round is `before` at its start and `after` at its end. -/
inductive Moves (before after : ℤ) (b : Branch ℤ) : Branch ℤ → Prop
  /-- Nothing, while no deadline has been reached. -/
  | stay (timely : b.Timely after) : Moves before after b b
  /-- The participants act. -/
  | acts (b' : Branch ℤ) (round : after = before) (acts : b.Acts before b') :
      Moves before after b b'
  /-- An open branch expires, in the round that its offer has set. -/
  | expire (state : b.state = .offered ∨ b.state = .accepted) (now : after = b.expiresRound)
      (next : after = before + 1) : Moves before after b { b with state := .expired }
  /-- A committed branch is final, three rounds after its commitment. -/
  | finalize (r : ℤ) (state : b.state = .committed) (committed : b.committedRound = some r)
      (now : after = r + Ledger.finalityRounds) (next : after = before + 1) :
      Moves before after b { b with state := .final }

/-- A round moves a branch that is on time. -/
lemma moves_aged {b : Branch ℤ} {before : ℤ} (h : b.Timely before) :
    b.Moves before (before + 1) (b.aged (before + 1)) := by
  have hstay : b.aged (before + 1) = b → b.Moves before (before + 1) (b.aged (before + 1)) := by
    intro hsame
    have htimely : (b.aged (before + 1)).Timely (before + 1) := h.aged
    rw [hsame] at htimely ⊢
    exact .stay htimely
  by_cases hopen : b.state = .offered ∨ b.state = .accepted
  · have hlive := h.live hopen
    rw [PyNumber.val_int, Int.cast_lt] at hlive
    rw [aged_of_open hopen] at hstay ⊢
    split_ifs at hstay ⊢ with hdue
    · rw [PyNumber.val_int, Int.cast_le] at hdue
      exact .expire hopen (by omega) rfl
    · exact hstay rfl
  · by_cases hcommitted : b.state = .committed
    · obtain ⟨r, hr, hyoung⟩ := h.young hcommitted
      rw [aged_of_committed hcommitted hr] at hstay ⊢
      split_ifs at hstay ⊢ with hdue
      · exact .finalize r hcommitted hr (by omega) rfl
      · exact hstay rfl
    · refine hstay (aged_of_inactive ?_)
      cases hs : b.state with
      | offered => exact absurd (.inl hs) hopen
      | accepted => exact absurd (.inr hs) hopen
      | committed => exact absurd hs hcommitted
      | final | cancelled | expired => rfl

end Branch

namespace Ledger

/-- **The timing of branches, seen from one ledger.** -/
structure Lifecycle (py : PyLib ℤ) (l : Ledger ℤ) : Prop where
  /-- No branch has missed a deadline. -/
  timely : l.Timely
  /-- An advance by several rounds is one round after the other, and returns what they return. -/
  rounds : ∀ n : ℤ, 1 ≤ n → l.advance py (n + 1) = do
    let (m, first) ← l.advance py 1
    let (l', rest) ← m.advance py n
    return (l', first ++ rest)
  /-- What one operation or one round does to a stored branch. -/
  moves : ∀ c l', l.call py c = .ok l' → (∀ n, c = .advance n → n = 1) →
    ∀ id b, l.branches.get? id = some b → Spares py id l c →
      ∃ b', l'.branches.get? id = some b' ∧ b.Moves l.round l'.round b'
  /-- What lasts of a stored branch. -/
  later : ∀ cs l', Transition.run (step py) l cs = some l' →
    ∀ id b, l.branches.get? id = some b → Transition.Meets (step py) (Spares py id) l cs →
      ∃ b', l'.branches.get? id = some b' ∧ b.Later b'
  /-- A branch is returned at most once. -/
  once : ∀ cs id, Transition.Meets (step py) (Spares py id) l cs →
    occurrences id (changes py l cs) ≤ 1

/-- An advance by several rounds is one round after the other. -/
lemma advance_succ (py : PyLib ν) (l : Ledger ν) {n : ℤ} (hn : 1 ≤ n) :
    l.advance py (n + 1) = do
      let (m, first) ← l.advance py 1
      let (l', rest) ← m.advance py n
      return (l', first ++ rest) := by
  have hguard : ∀ k : ℤ, 1 ≤ k → ∀ m : Ledger ν, m.advance py k = advanceRounds py k.toNat m := by
    intro k hk m
    unfold advance
    rw [show (!decide (k < 1)) = true by simpa using hk]
    rfl
  have hsucc : (n + 1).toNat = n.toNat + 1 := by omega
  have hone : (1 : ℤ).toNat = 0 + 1 := rfl
  rw [hguard _ (by omega), hguard 1 le_rfl, hsucc, hone]
  simp only [advanceRounds, hguard n hn]
  cases advanceBranches py l.branches.keys { l with round := l.round + 1 } with
  | error e => rfl
  | ok p =>
    obtain ⟨m, first⟩ := p
    show (advanceRounds py n.toNat m >>= _) = (advanceRounds py n.toNat m >>= _)
    simp only [List.append_nil]

/-- Runs keep branches on time, and store them under their own names. -/
lemma timely_run {l : Ledger ν} {cs : List (Call ν)} {py : PyLib ν} {start : Ledger ν}
    (hstart : Initial py start) (h : Transition.run (step py) start cs = some l) :
    l.Timely ∧ LockInv l := by
  refine Transition.run_induction (I := fun m => m.Timely ∧ LockInv m) ?_ ?_ h
  · rintro m c m' ⟨ht, hinv⟩ hstep
    refine ⟨?_, hinv.step hstep⟩
    rcases step_eq_some hstep with hc | ⟨-, rfl⟩
    · exact ht.call hc
    · exact ht
  · refine ⟨fun id b hb => ?_, hstart.lockInv⟩
    rw [hstart.branches_eq] at hb
    cases hb

/-- A run that spares a branch leaves what lasts of it. -/
lemma later_run {py : PyLib ν} {l l' : Ledger ν} {cs : List (Call ν)} (h : l.Timely)
    (hrun : Transition.run (step py) l cs = some l') {id : String} {b : Branch ν}
    (hb : l.branches.get? id = some b) (hspares : Transition.Meets (step py) (Spares py id) l cs) :
    ∃ b', l'.branches.get? id = some b' ∧ b.Later b' := by
  refine (Transition.run_induction_of_meets (I := fun m => m.Timely ∧
    ∃ b', m.branches.get? id = some b' ∧ b.Later b') ?_ ⟨h, b, hb, .refl b⟩ hspares hrun).2
  rintro m c m' ⟨ht, b', hb', hlater⟩ hkeeps hstep
  rcases step_eq_some hstep with hc | ⟨-, rfl⟩
  · obtain ⟨b'', hb'', hlater'⟩ := later_call ht hc hkeeps hb'
    exact ⟨ht.call hc, b'', hb'', hlater.trans hlater'⟩
  · exact ⟨ht, b', hb', hlater⟩

/-- A run that spares a branch returns it at most once. -/
lemma occurrences_changes {py : PyLib ν} (cs : List (Call ν)) (id : String) :
    ∀ {l : Ledger ν}, LockInv l → Transition.Meets (step py) (Spares py id) l cs →
      occurrences id (changes py l cs) ≤ chances (l.branches.get? id) := by
  induction cs with
  | nil => exact fun _ _ => Nat.zero_le _
  | cons c cs ih =>
    intro l hinv hmeets
    obtain ⟨l', hstep⟩ := hinv.exists_step py c
    have hrest := ih (hinv.step hstep) (hmeets.2 l' hstep)
    unfold changes
    rw [hstep, occurrences_append]
    rcases step_eq_some hstep with hc | ⟨⟨e, he⟩, rfl⟩
    · have hone := occurrences_changed (fun id b hb => (hinv.branch id b hb).keyed) hc hmeets.1
      simp only at hrest ⊢
      omega
    · have hnothing : l'.changed py c = [] := by
        cases c with
        | advance rounds =>
          have hraise : Prod.fst <$> l'.advance py rounds = .error e := he
          cases hadvance : l'.advance py rounds with
          | error e' => simp only [changed, hadvance]
          | ok p => rw [hadvance] at hraise; cases hraise
        | register | offer | accept | commit | cancel => rfl
      rw [hnothing, occurrences_nil, zero_add]
      exact hrest

/-- **The life of a branch.** Every sequence of calls with integer amounts, terms and rounds reaches
a ledger in which no branch has missed a deadline, from which an open branch expires exactly in the
round its offer has set and a committed one is final exactly three rounds after its commitment, and
in which the marks and the end of a branch last. Advances return a branch at most once; over a whole
run of which the identifiers do not collide, they return no identifier twice.

**Proof sketch.** What rounds make of a branch is `Branch.aged`, so that nothing is missed; the rest
is read off what one call makes of a branch, by induction on the run. -/
theorem run_lifecycle (py : PyLib ℤ) {start : Ledger ℤ} (hstart : Initial py start)
    (calls : List (Call ℤ)) :
    ∃ l, Transition.run (step py) start calls = some l ∧ l.Lifecycle py ∧
      (NoIdCollision py start calls →
        ((changes py start calls).map Branch.branchId).Nodup) := by
  obtain ⟨l, hl, -, hinv⟩ := run_lockInv hstart calls
  have htimely := (timely_run hstart hl).1
  refine ⟨l, hl, ⟨htimely, fun n => advance_succ py l, ?_, ?_, ?_⟩, fun hids => ?_⟩
  · intro c l' hc hone id b hb hspares
    have htimely' := htimely.call hc
    rcases get?_call hc id with ⟨s, r, v, t, hoffer, hcan, hid, -, -⟩ |
      ⟨n, hn, -, hround, haged⟩ | ⟨-, hround, hacts⟩
    · rw [hspares s r v t hoffer hcan hid] at hb
      cases hb
    · obtain rfl := hone n hn
      rw [haged, hb, hround]
      exact ⟨_, rfl, Branch.moves_aged (htimely id b hb)⟩
    · rw [hb] at hacts
      cases hb' : l'.branches.get? id with
      | none => rw [hb'] at hacts; cases hacts
      | some b' =>
        rw [hb'] at hacts
        cases hacts with
        | some hact => exact ⟨b', rfl, .acts b' hround hact⟩
  · exact fun cs l' hrun id b hb hspares => later_run htimely hrun hb hspares
  · intro cs id hspares
    exact (occurrences_changes cs id hinv hspares).trans (chances_le_one _)
  · refine List.nodup_iff_count_le_one.mpr fun id => ?_
    have hspares := (meets_freshId hstart hids).mono fun _ _ hfresh => hfresh.spares id
    exact (occurrences_changes calls id hstart.lockInv hspares).trans (chances_le_one _)

/-- The calls of a payment, from the offer of the branch to its settlement. -/
def paymentCalls (branchId : String) : List (Call ℤ) :=
  [.offer "alice" "bob" 2 6, .accept branchId "bob", .commit branchId "alice" (.obj []), .advance 3]

/-- A payment, whose branch is final three rounds after its commitment. -/
theorem run_lifecycle_payment :
    let start := ofBalances integerLib (Dict.ofList [("alice", 10), ("bob", 0)])
    let calls := paymentCalls (start.nextBranchId integerLib "alice" "bob" 2)
    (changes integerLib start calls).map (fun b => (b.branchId, b.state)) =
        [(start.nextBranchId integerLib "alice" "bob" 2, .final)] ∧
      ∃ l, Transition.run (step integerLib) start calls = some l ∧ l.Lifecycle integerLib ∧
        ((changes integerLib start calls).map Branch.branchId).Nodup := by
  intro start calls
  have hids : NoIdCollision integerLib start calls := noIdCollision_of_nodup (by decide +kernel)
  obtain ⟨l, hl, hlife, hnodup⟩ := run_lifecycle integerLib initial_payment calls
  exact ⟨by decide +kernel, l, hl, hlife, hnodup hids⟩

end Ledger

end SplitChain
