import SplitChain.Model.Records

set_option relaxedAutoImplicit false
set_option autoImplicit false

/-!
# Restoring a ledger

A restart, and the trial of every replicated mutation, restore the ledger from its own snapshot.
This file says what the restored ledger is, reduces the checks to conditions on the original
ledger, and settles for integer amounts on which runs from a genesis configuration the restore
succeeds in every state reached.

## Main definitions

* `SplitChain.Ledger.reloaded` — the ledger that a snapshot is restored to.

## Main results

* `SplitChain.Ledger.fromSnapshot_snapshot` — when a ledger is restored from its own snapshot.
* `SplitChain.Ledger.run_restores_iff` — a run from a genesis configuration keeps the reserve and
  stays restorable exactly when no call finalizes a branch to a locked account and no offer
  overwrites an active branch.
-/

namespace SplitChain

namespace Ledger

open Raise

open PyNumber (val ofInt trunc)

variable {ν : Type} [PyNumber ν]

/-- The ledger that the snapshot of `l` is restored to: the dictionaries are in key order and the
locked amounts are truncated. -/
def reloaded (l : Ledger ν) : Ledger ν where
  genesis := l.genesis.map fun g => { g with allocations := g.allocations.sorted }
  round := l.round
  balances := l.balances.sorted
  locked := l.locked.sorted.mapVal fun v => ofInt (trunc v)
  branches := l.branches
  finalized := l.finalized
  canonicalHeight := l.canonicalHeight
  canonicalDigest := l.canonicalDigest
  canonicalHistory := l.canonicalHistory.sorted

/-! ## What is read back -/

omit [PyNumber ν] in
/-- Branches stored under their own identifiers are read back in order. -/
lemma ofList_branches {d : Dict String (Branch ν)}
    (h : ∀ branchId b, d.get? branchId = some b → b.branchId = branchId) :
    Dict.ofList (d.values.map fun b => (b.branchId, b)) = d := by
  have hentries : d.values.map (fun b => (b.branchId, b)) = d.entries := by
    rw [Dict.values, List.map_map]
    refine (List.map_congr_left fun p hp => ?_).trans (List.map_id _)
    exact Prod.ext (h p.1 p.2 (Dict.get?_eq_some_iff.mpr hp)) rfl
  rw [hentries]
  exact Dict.ext (Dict.entries_ofList d.nodup_keys)

/-- A canonical history is read back from its numerals. -/
lemma parseHistory_eq (py : PyLib ν) (d : Dict ℤ String) :
    parseHistory py (Dict.ofList (d.entries.map fun p => (toString p.1, p.2))) = some d := by
  have hinj : Function.Injective (toString : ℤ → String) := fun m n h => by
    have := congrArg py.intOfString h
    rwa [py.intOfString_toString, py.intOfString_toString, Option.some.injEq] at this
  have hnodup : ((d.entries.map fun p => (toString p.1, p.2)).map Prod.fst).Nodup := by
    have := d.nodup_keys.map hinj
    rwa [List.map_map] at this ⊢
  have hparse : ∀ es : List (ℤ × String), (es.map fun p => (toString p.1, p.2)).mapM
      (fun p => (py.intOfString p.1).map fun height => (height, p.2)) = some es := by
    intro es
    induction es with
    | nil => rfl
    | cons e es ih =>
      rw [List.map_cons, List.mapM_cons, ih]
      dsimp only
      rw [py.intOfString_toString]
      rfl
  rw [parseHistory, Dict.entries_ofList hnodup, hparse, Option.map_some]
  exact congrArg some (Dict.ext (Dict.entries_ofList d.nodup_keys))

/-- The order of the allocations does not matter to the digest. -/
lemma digest_sorted (py : PyLib ν) (g : GenesisConfig) :
    GenesisConfig.digest py { g with allocations := g.allocations.sorted } = g.digest py := by
  simp [GenesisConfig.digest, GenesisConfig.publicForm]

/-- A configuration equals the one read back from its public form. -/
lemma eqv_sorted (g : GenesisConfig) :
    GenesisConfig.eqv { g with allocations := g.allocations.sorted } g = true := by
  have halloc : g.allocations.sorted.eqvBy (· == ·) g.allocations = true := by
    rw [Dict.eqvBy_iff]
    intro k
    rw [Dict.get?_sorted]
    cases g.allocations.get? k <;> simp
  simp [GenesisConfig.eqv, halloc]

/-- The genesis configuration of a ledger is one that was accepted. -/
def ValidGenesis (l : Ledger ν) : Prop := ∀ g, l.genesis = some g → g.Valid

/-- Whether all balances of a ledger with a genesis configuration are of type `int`. -/
def BalancesTyped (l : Ledger ν) : Prop :=
  l.genesis.isSome = true → ∀ a v, l.balances.get? a = some v → (PyNumber.int? v).isSome = true

/-- **Restoring a ledger from its own snapshot** succeeds exactly when the balances are integers
on a genesis network and the reloaded ledger passes the validation.

**Proof sketch.** Every part of the snapshot is read back as it was written; what is left are the
type check of the balances and the validation. -/
theorem fromSnapshot_snapshot_of_keyed (py : PyLib ν) {l : Ledger ν} (l' : Ledger ν)
    (hkeyed : l.Keyed) (hvalid : l.ValidGenesis) (expected : Option GenesisConfig)
    (hexpected : ∀ g, expected = some g → l.genesis = some g) :
    fromSnapshot py l.snapshot expected = .ok l' ↔
      (l.BalancesTyped ∧ l.reloaded.Restorable py) ∧ l' = l.reloaded := by
  have hgenesis : l.snapshot.genesis.mapM GenesisConfig.fromDict = (.ok l.reloaded.genesis :
      Except PyError (Option GenesisConfig)) := by
    cases hg : l.genesis with
    | none => simp only [snapshot, reloaded, hg, Option.map_none, Option.mapM_none]; rfl
    | some g =>
      simp only [snapshot, reloaded, hg, Option.map_some, Option.mapM_some,
        GenesisConfig.fromDict_publicForm (hvalid g hg)]
      rfl
  have hsame : (expected.all fun expected =>
      l.reloaded.genesis.any fun g => g.eqv expected) = true := by
    cases expected with
    | none => rfl
    | some g => simp [reloaded, hexpected g rfl, eqv_sorted]
  have htyped : (l.reloaded.genesis.isNone || l.snapshot.balances.values.all fun v =>
      (PyNumber.int? v).isSome) = true ↔ l.BalancesTyped := by
    have hvalues : (∀ v ∈ l.balances.sorted.values, (PyNumber.int? v).isSome = true) ↔
        ∀ a v, l.balances.get? a = some v → (PyNumber.int? v).isSome = true := by
      simp only [Dict.mem_values_iff, Dict.get?_sorted]
      exact ⟨fun h a v hv => h v ⟨a, hv⟩, fun h v ⟨a, hv⟩ => h a v hv⟩
    rw [Bool.or_eq_true, List.all_eq_true, BalancesTyped]
    cases hg : l.genesis with
    | none => simp [reloaded, hg]
    | some g => simpa [reloaded, hg, snapshot] using hvalues
  have hround : trunc l.snapshot.round = l.round :=
    PyNumber.trunc_of_val_eq (PyNumber.val_ofInt _)
  have hheight : trunc l.snapshot.headHeight = l.canonicalHeight :=
    PyNumber.trunc_of_val_eq (PyNumber.val_ofInt _)
  have hbranches : Dict.ofList (l.snapshot.branches.map fun b => (b.branchId, b)) = l.branches :=
    ofList_branches hkeyed
  unfold fromSnapshot
  rw [hgenesis]
  simp only [bind_eq_ok, require_eq_ok, ok_bind, orRaise_eq_ok, pure_eq_ok, exists_const,
    hsame, htyped, hround, hheight, hbranches]
  constructor
  · rintro ⟨-, -, ht, history, hh, u, hvalid, rfl⟩
    rw [snapshot, parseHistory_eq, Option.some.injEq] at hh
    subst hh
    exact ⟨⟨ht, validateRestoredState_eq_ok.mp hvalid⟩, rfl⟩
  · rintro ⟨⟨ht, hr⟩, rfl⟩
    exact ⟨beq_self_eq_true _, trivial, ht, _, parseHistory_eq py _, (),
      validateRestoredState_eq_ok.mpr hr, rfl⟩

/-- A ledger with the lock invariant is restored in these cases. -/
theorem fromSnapshot_snapshot (py : PyLib ν) {l : Ledger ν} (l' : Ledger ν) (hinv : LockInv l)
    (hvalid : l.ValidGenesis) (expected : Option GenesisConfig)
    (hexpected : ∀ g, expected = some g → l.genesis = some g) :
    fromSnapshot py l.snapshot expected = .ok l' ↔
      (l.BalancesTyped ∧ l.reloaded.Restorable py) ∧ l' = l.reloaded :=
  fromSnapshot_snapshot_of_keyed py l' (fun id b hb => (hinv.branch id b hb).keyed) hvalid expected
    hexpected

/-! ## When the reloaded ledger passes the validation -/

/-- The locked amounts of a reloaded ledger. -/
lemma locked_reloaded (l : Ledger ν) (a : String) :
    val (l.reloaded.locked.getD a (ofInt 0)) = trunc (l.locked.getD a (ofInt 0)) := by
  simp only [reloaded, Dict.getD, Dict.get?_mapVal, Dict.get?_sorted]
  cases l.locked.get? a with
  | none =>
    simp only [Option.map_none, Option.getD_none, PyNumber.val_ofInt]
    rw [PyNumber.trunc_of_val_eq (PyNumber.val_ofInt 0)]
  | some v => simp

/-- **What a reachable ledger still needs to be restorable**: locked amounts that are not changed
by truncation and match the active branches, and unchanged reserves.

**Proof sketch.** All other checks are invariants of the ledger; sorting changes no lookup and no
sum, and truncation lowers the locked amounts. -/
theorem restorable_reloaded_iff (py : PyLib ν) {l : Ledger ν} {genesis : Option GenesisConfig}
    {base : String} (hinv : LockInv l) (hrec : RecordInv genesis base l)
    (hbase : ∀ g, genesis = some g → base = g.digest py)
    (hsupply : ∀ g, genesis = some g → l.supply = (g.allocations.sum fun _ v => v : ℤ)) :
    l.reloaded.Restorable py ↔
      (∀ a, (trunc (l.locked.getD a (ofInt 0)) : ℚ) = l.lockedBy a) ∧
      ∀ g a n, genesis = some g → g.allocations.get? a = some n → a ∈ g.lockedAccounts →
        val (l.balances.getD a (ofInt 0)) = n := by
  have hexcess : ∀ a, l.reloaded.excess a =
      trunc (l.locked.getD a (ofInt 0)) - l.lockedBy a := by
    intro a
    rw [excess, locked_reloaded]
    rfl
  have hgenesis : ∀ g', l.reloaded.genesis = some g' ↔ ∃ g, genesis = some g ∧
      { g with allocations := g.allocations.sorted } = g' := by
    intro g'
    simp only [reloaded, hrec.genesis_eq, Option.map_eq_some_iff]
  constructor
  · intro h
    refine ⟨fun a => ?_, fun g a n hg ha hmem => ?_⟩
    · have := h.excess a
      rwa [hexcess, sub_eq_zero] at this
    · obtain ⟨v, hv, hval⟩ := (h.genesis _ ((hgenesis _).mpr ⟨g, hg, rfl⟩)).reserve a n
        (by simpa using ha) hmem
      rw [reloaded, Dict.get?_sorted] at hv
      simpa [Dict.getD, hv] using hval
  · rintro ⟨htrunc, hreserve⟩
    have hlookup : ∀ k, l.reloaded.canonicalHistory.get? k = l.canonicalHistory.get? k :=
      fun k => Dict.get?_sorted _ k
    exact {
      genesis := by
        intro g' hg'
        obtain ⟨g, hg, rfl⟩ := (hgenesis g').mp hg'
        refine ⟨?_, ?_, fun a n ha hmem => ?_, fun id b hb => ?_⟩
        · rw [hlookup, digest_sorted, hrec.base_eq, hbase g hg]
        · rw [Dict.sum_sorted, ← hsupply g hg]
          exact Dict.sum_sorted _ _
        · have hlocked : l.isLocked a = true := by simp [isLocked, hrec.genesis_eq, hg, hmem]
          obtain ⟨v, hv⟩ := Dict.contains_iff.mp (hrec.known a hlocked)
          refine ⟨v, by rw [← hv]; exact Dict.get?_sorted _ _, ?_⟩
          have := hreserve g a n hg (by simpa using ha) hmem
          simpa [Dict.getD, hv] using this
        · have := hrec.senders id b hb
          simpa [isLocked, hrec.genesis_eq, hg] using this
      round_nonneg := hrec.round_nonneg
      height_nonneg := hrec.height_nonneg
      head := by rw [hlookup]; exact hrec.head
      balance_nonneg := by
        intro a v hv
        rw [reloaded, Dict.get?_sorted] at hv
        simpa [Dict.getD, hv] using hinv.balance_nonneg a
      branch := by
        intro id b hb
        rw [hlookup]
        have hbi := hinv.branch id b hb
        exact ⟨⟨hbi.value_pos, by rw [hbi.stake_eq]⟩, hrec.origin id b hb⟩
      excess := by intro a; rw [hexcess, htrunc, sub_self]
      locked_le := by
        intro a
        rw [locked_reloaded]
        refine (PyNumber.trunc_le (hinv.locked_nonneg a)).trans ((hinv.locked_le a).trans_eq ?_)
        simp [reloaded, Dict.getD] }

/-! ## Runs -/

/-- A step keeps the records. -/
lemma RecordInv.step {py : PyLib ν} {l l' : Ledger ν} {genesis : Option GenesisConfig}
    {base : String} {c : Call ν} (h : RecordInv genesis base l) (hstep : l.step py c = some l') :
    RecordInv genesis base l' := by
  rcases step_eq_some hstep with hc | ⟨-, rfl⟩
  · exact h.call hc
  · exact h

omit [PyNumber ν] in
/-- A new ledger has the records of its digest. -/
lemma recordInv_initial {genesis : Option GenesisConfig} {balances : Dict String ν}
    (digest : String) (hknown : ∀ a, (initial genesis balances digest).isLocked a = true →
      balances.contains a = true) : RecordInv genesis digest (initial genesis balances digest) where
  genesis_eq := rfl
  senders _ _ hb := by cases hb
  known := hknown
  round_nonneg := le_rfl
  height_nonneg := le_rfl
  head := Dict.get?_set_self _ _ _
  bounded h d hd := by
    change (Dict.set ∅ 0 digest).get? h = some d at hd
    show h ≤ 0
    rw [Dict.get?_set] at hd
    split_ifs at hd with h0
    · exact h0 ▸ le_rfl
    · cases hd
  base_eq := Dict.get?_set_self _ _ _
  origin _ _ hb := by cases hb

/-- A call that neither overwrites an active branch nor finalizes a branch to a locked account. -/
def KeepsRestorable (py : PyLib ν) (l : Ledger ν) (c : Call ν) : Prop :=
  OverwritesNoActive py l c ∧ KeepsReserve l c

/-- An offer that overwrites an active branch leaves what that branch holds as excess. -/
lemma exists_excess_of_overwrites {py : PyLib ν} {l l' : Ledger ν} {c : Call ν} (hinv : LockInv l)
    (hover : ¬ OverwritesNoActive py l c) (hstep : l.step py c = some l') :
    ∃ branchId b, l.branches.get? branchId = some b ∧
      l'.excess b.sender = l.excess b.sender + (val b.value + val b.value) := by
  simp only [OverwritesNoActive, not_forall, Bool.not_eq_false] at hover
  obtain ⟨s, r, v, t, rfl, hcan, b, hb, hactive⟩ := hover
  simp only [step, call_offer hcan, Option.some.injEq] at hstep
  subst hstep
  refine ⟨_, b, hb, ?_⟩
  rw [excess_opened, overwrittenBy, hb, Option.map_some, Option.getD_some,
    heldBy_of_active hactive, if_pos rfl, (hinv.branch _ b hb).stake_eq]

/-- A step does not lower the excess. -/
lemma excess_le_step {py : PyLib ν} {l l' : Ledger ν} {c : Call ν} (hinv : LockInv l)
    (hstep : l.step py c = some l') (a : String) : l.excess a ≤ l'.excess a := by
  rcases step_eq_some hstep with hc | ⟨-, rfl⟩
  · rcases excess_call hc a with he | ⟨s, r, v, t, -, -, he⟩
    · exact he.ge
    · have := hinv.overwrittenBy_nonneg py s r v a
      linarith
  · rfl

/-- A step does not lower the balance of a locked account. -/
lemma balance_le_step {py : PyLib ν} {l l' : Ledger ν} {genesis : Option GenesisConfig}
    {base : String} {c : Call ν} (hinv : LockInv l) (hrec : RecordInv genesis base l)
    (hstep : l.step py c = some l') {a : String} (ha : l.isLocked a = true) :
    val (l.balances.getD a (ofInt 0)) ≤ val (l'.balances.getD a (ofInt 0)) := by
  rcases step_eq_some hstep with hc | ⟨-, rfl⟩
  · exact hrec.balance_mono hinv hc ha
  · rfl

/-- A step that finalizes a branch to a locked account raises its balance. -/
lemma exists_raise_of_not_keepsReserve {py : PyLib ν} {l l' : Ledger ν}
    {genesis : Option GenesisConfig} {base : String} {c : Call ν} (hinv : LockInv l)
    (hrec : RecordInv genesis base l) (hkeeps : ¬ KeepsReserve l c)
    (hstep : l.step py c = some l') : ∃ a, l.isLocked a = true ∧
      val (l.balances.getD a (ofInt 0)) < val (l'.balances.getD a (ofInt 0)) := by
  simp only [KeepsReserve, not_forall, not_lt] at hkeeps
  obtain ⟨n, rfl, hpos, id, b, r, hb, hs, ha, hr, hdue⟩ := hkeeps
  refine ⟨b.receiver, ha, ?_⟩
  obtain ⟨m, hcall⟩ := hinv.exists_advance py hpos
  simp only [step, hcall, Option.some.injEq] at hstep
  exact hstep ▸ hrec.reserve_broken hinv hcall hb hs ha hr hdue

/-- **Funds and reserves of runs.** A run leaves no excess and every reserve as it was exactly when
none of its calls overwrites an active branch or finalizes a branch to a locked account.

**Proof sketch.** A call of either kind raises an excess or a reserve, and neither ever falls
again; every other call keeps both. -/
theorem run_intact_iff {py : PyLib ν} {start l : Ledger ν} {genesis : Option GenesisConfig}
    {base : String} {cs : List (Call ν)} (hinv : LockInv start)
    (hrec : RecordInv genesis base start) (hexcess : ∀ a, start.excess a = 0)
    (hl : Transition.run (step py) start cs = some l) :
    ((∀ a, l.excess a = 0) ∧ ∀ a, start.isLocked a = true →
      val (l.balances.getD a (ofInt 0)) = val (start.balances.getD a (ofInt 0))) ↔
    Transition.Meets (step py) (KeepsRestorable py) start cs := by
  constructor
  · rintro ⟨hzero, hsame⟩
    refine Transition.meets_of_not_broken
      (I := fun m => LockInv m ∧ RecordInv genesis base m ∧ ∀ a, start.isLocked a = true →
        val (start.balances.getD a (ofInt 0)) ≤ val (m.balances.getD a (ofInt 0)))
      (B := fun m => (∃ a, 0 < m.excess a) ∨ ∃ a, start.isLocked a = true ∧
        val (start.balances.getD a (ofInt 0)) < val (m.balances.getD a (ofInt 0)))
      ?_ ?_ ?_ ⟨hinv, hrec, fun _ _ => le_rfl⟩ hl ?_
    · rintro m c m' ⟨hmi, hmr, hle⟩ hstep
      refine ⟨hmi.step hstep, hmr.step hstep, fun a ha => (hle a ha).trans ?_⟩
      exact balance_le_step hmi hmr hstep ((hrec.isLocked_eq hmr a).trans ha)
    · rintro m c m' ⟨hmi, hmr, -⟩ hB hstep
      rcases hB with ⟨a, ha⟩ | ⟨a, ha, hlt⟩
      · exact .inl ⟨a, ha.trans_le (excess_le_step hmi hstep a)⟩
      · refine .inr ⟨a, ha, hlt.trans_le ?_⟩
        exact balance_le_step hmi hmr hstep ((hrec.isLocked_eq hmr a).trans ha)
    · rintro m c m' ⟨hmi, hmr, hle⟩ hG hstep
      rcases not_and_or.mp hG with hover | hkeeps
      · obtain ⟨id, b, hb, heq⟩ := exists_excess_of_overwrites hmi hover hstep
        have hpos := (hmi.branch id b hb).value_pos
        have hold := hmi.excess_nonneg b.sender
        exact .inl ⟨b.sender, by rw [heq]; linarith⟩
      · obtain ⟨a, ha, hlt⟩ := exists_raise_of_not_keepsReserve hmi hmr hkeeps hstep
        have ha' := (hmr.isLocked_eq hrec a).trans ha
        exact .inr ⟨a, ha', (hle a ha').trans_lt hlt⟩
    · rintro (⟨a, ha⟩ | ⟨a, ha, hlt⟩)
      · exact absurd (hzero a) ha.ne'
      · exact absurd (hsame a ha) hlt.ne'
  · intro hmeets
    have hrun := Transition.run_induction_of_meets (I := fun m => RecordInv genesis base m ∧
      (∀ a, m.excess a = 0) ∧ ∀ a, start.isLocked a = true →
        val (m.balances.getD a (ofInt 0)) = val (start.balances.getD a (ofInt 0)))
      ?_ ⟨hrec, hexcess, fun _ _ => rfl⟩ hmeets hl
    · exact hrun.2
    · rintro m c m' ⟨hmr, hzero, hsame⟩ ⟨hover, hkeeps⟩ hstep
      refine ⟨hmr.step hstep, fun a => (excess_step hover hstep a).trans (hzero a),
        fun a ha => ?_⟩
      rw [← hsame a ha]
      rcases step_eq_some hstep with hc | ⟨-, rfl⟩
      · exact hmr.reserve_call hkeeps hc ((hrec.isLocked_eq hmr a).trans ha)
      · rfl

/-! ## Integer amounts -/

/-- Truncation does not change integers, so a reloaded ledger has the snapshot it was read from. -/
lemma snapshot_reloaded (l : Ledger ℤ) : l.reloaded.snapshot = l.snapshot := by
  have hlocked : l.reloaded.locked.sorted = l.locked.sorted := by
    have hid : l.locked.sorted.mapVal (fun v => (ofInt (trunc v) : ℤ)) = l.locked.sorted := by
      refine Dict.ext ((List.map_congr_left fun p _ => ?_).trans (List.map_id _))
      exact Prod.ext rfl (PyNumber.trunc_of_val_eq (PyNumber.val_int p.2))
    rw [reloaded, hid, Dict.sorted_sorted]
  have hgenesis : l.reloaded.genesis.map GenesisConfig.publicForm =
      l.genesis.map (GenesisConfig.publicForm (ν := ℤ)) := by
    cases hg : l.genesis with
    | none => simp [reloaded, hg]
    | some g => simp [reloaded, hg, GenesisConfig.publicForm]
  unfold snapshot
  rw [hlocked, hgenesis]
  simp [reloaded]

/-- The supply of a ledger that starts from a genesis configuration. -/
lemma supply_ofGenesis (py : PyLib ν) (g : GenesisConfig) :
    (ofGenesis py g).supply = (g.allocations.sum fun _ v => v : ℤ) := by
  have hval : (ofGenesis py g).supply = g.allocations.sum fun _ v => val v := by
    show ((g.allocations.mapVal ofInt).entries.map fun p => val p.2).sum = _
    simp [Dict.mapVal, Dict.sum, Function.comp_def]
  rw [hval, sum_val_int g.allocations]

/-- The balance of an account that starts from a genesis configuration. -/
lemma balance_ofGenesis (py : PyLib ν) {g : GenesisConfig} {a : String} {n : ℤ}
    (h : g.allocations.get? a = some n) :
    val ((ofGenesis py g).balances.getD a (ofInt 0)) = n := by
  show val (((g.allocations.mapVal ofInt).get? a).getD (ofInt 0)) = n
  rw [Dict.get?_mapVal, h]
  simp

/-- The records of a ledger that starts from an accepted genesis configuration. -/
lemma recordInv_ofGenesis (py : PyLib ν) {g : GenesisConfig} (hg : g.Valid) :
    RecordInv (some g) (g.digest py) (ofGenesis py g) := by
  refine recordInv_initial _ fun a ha => ?_
  have hmem : a ∈ g.lockedAccounts := by simpa [isLocked, initial] using ha
  obtain ⟨n, hn⟩ := Dict.contains_iff.mp (hg.locked_mem a hmem)
  exact Dict.contains_iff.mpr ⟨ofInt n, by rw [Dict.get?_mapVal, hn]; rfl⟩

/-- **Reserves and restores of runs.** From an accepted genesis configuration and with integer
arguments, the locked accounts hold their allocations and the ledger is restored from its snapshot
with an equal snapshot exactly after those runs in which no call finalizes a branch to a locked
account and no offer overwrites an active branch.

**Proof sketch.** The lock and record invariants reduce the validation to the absence of excess
and to the reserves, and `run_intact_iff` says which runs keep these. -/
theorem run_restores_iff (py : PyLib ℤ) {raw : Json JsonNum} {g : GenesisConfig}
    (hg : GenesisConfig.fromDict raw = .ok g) (calls : List (Call ℤ)) :
    ∃ l, Transition.run (step py) (ofGenesis py g) calls = some l ∧
      (((∀ a ∈ g.lockedAccounts, l.balances.get? a = g.allocations.get? a) ∧
        ∃ l', fromSnapshot py l.snapshot (some g) = .ok l' ∧ l'.snapshot = l.snapshot) ↔
      Transition.Meets (step py) (KeepsRestorable py) (ofGenesis py g) calls) := by
  have hstart : Initial py (ofGenesis py g) := .genesis raw g hg
  have hvalid := GenesisConfig.fromDict_valid hg
  have hrec₀ := recordInv_ofGenesis py hvalid
  obtain ⟨l, hl, hsupply, hinv⟩ := run_lockInv hstart calls
  have hrec : RecordInv (some g) (g.digest py) l :=
    Transition.run_induction (fun _ _ _ hm h => hm.step h) hrec₀ hl
  have hlocked : ∀ a, (ofGenesis py g).isLocked a = true ↔ a ∈ g.lockedAccounts := by
    intro a; simp [ofGenesis, initial, isLocked]
  have hrestorable := restorable_reloaded_iff py hinv hrec
    (fun _ h => by cases h; rfl) (fun _ h => by cases h; rw [hsupply, supply_ofGenesis])
  have hreload := fun l' : Ledger ℤ => fromSnapshot_snapshot py l' hinv
    (fun g' hg' => by rw [hrec.genesis_eq] at hg'; cases hg'; exact hvalid) (some g)
    (fun g' hg' => by rw [hrec.genesis_eq]; exact hg')
  refine ⟨l, hl, ?_⟩
  rw [← run_intact_iff hstart.lockInv hrec₀ hstart.excess_eq hl]
  constructor
  · rintro ⟨-, l', hl', -⟩
    obtain ⟨htrunc, hreserve⟩ := hrestorable.mp ((hreload l').mp hl').1.2
    refine ⟨fun a => ?_, fun a ha => ?_⟩
    · rw [excess, ← htrunc, PyNumber.trunc_of_val_eq (PyNumber.val_int _)]
      exact sub_self _
    · have hmem := (hlocked a).mp ha
      obtain ⟨n, hn⟩ := Dict.contains_iff.mp (hvalid.locked_mem a hmem)
      rw [hreserve g a n rfl hn hmem, balance_ofGenesis py hn]
  · rintro ⟨hexcess, hsame⟩
    have hreserve : ∀ a n, g.allocations.get? a = some n → a ∈ g.lockedAccounts →
        val (l.balances.getD a (ofInt 0)) = n := by
      intro a n hn hmem
      rw [hsame a ((hlocked a).mpr hmem), balance_ofGenesis py hn]
    refine ⟨fun a hmem => ?_, l.reloaded, (hreload _).mpr ⟨⟨?_, hrestorable.mpr ⟨?_, ?_⟩⟩, rfl⟩,
      snapshot_reloaded l⟩
    · obtain ⟨n, hn⟩ := Dict.contains_iff.mp (hvalid.locked_mem a hmem)
      obtain ⟨v, hv⟩ := Dict.contains_iff.mp
        (hrec.known a (by simp [isLocked, hrec.genesis_eq, hmem]))
      have := hreserve a n hn hmem
      rw [hn, hv, Option.some.injEq]
      simpa [Dict.getD, hv] using this
    · exact fun _ _ _ _ => rfl
    · intro a
      rw [PyNumber.trunc_of_val_eq (PyNumber.val_int _), ← sub_eq_zero]
      exact hexcess a
    · rintro g' a n hg' hn hmem
      cases hg'
      exact hreserve a n hn hmem

/-! ### A branch to the reserve -/

/-- A genesis document with a locked reserve. -/
def reserveDocument : Json JsonNum :=
  .obj [("schema", .str "splitchain-genesis/v1"), ("network_id", .str "demo"),
    ("max_supply", .num (.int 20)),
    ("allocations", .obj [("faucet", .num (.int 10)), ("reserve", .num (.int 5))]),
    ("locked_accounts", .arr [.str "reserve"])]

/-- The configuration of the document. -/
def reserveGenesis : GenesisConfig where
  networkId := "demo"
  maxSupply := 20
  allocations := Dict.ofList [("faucet", 10), ("reserve", 5)]
  lockedAccounts := ["reserve"]

/-- The faucet pays one unit to the reserve. -/
def reserveCalls : List (Call ℤ) :=
  [.offer "faucet" "reserve" 1 6, .accept "1229b9b7d7f3fd56" "reserve",
    .commit "1229b9b7d7f3fd56" "faucet" (.obj []), .advance 3]

/-- The equivalence at a run that pays the reserve. -/
theorem run_restores_iff_reserve :
    ∃ l, Transition.run (step integerLib) (ofGenesis integerLib reserveGenesis) reserveCalls =
        some l ∧
      (((∀ a ∈ reserveGenesis.lockedAccounts,
          l.balances.get? a = reserveGenesis.allocations.get? a) ∧
        ∃ l', fromSnapshot integerLib l.snapshot (some reserveGenesis) = .ok l' ∧
          l'.snapshot = l.snapshot) ↔
      Transition.Meets (step integerLib) (KeepsRestorable integerLib)
        (ofGenesis integerLib reserveGenesis) reserveCalls) :=
  run_restores_iff integerLib
    (by decide +kernel : GenesisConfig.fromDict reserveDocument = .ok reserveGenesis) reserveCalls

/-- A payment to the reserve changes the locked balance, and the snapshot is refused. -/
theorem reserve_payment_blocks_restore :
    GenesisConfig.fromDict reserveDocument = .ok reserveGenesis ∧
      (Transition.run (step integerLib) (ofGenesis integerLib reserveGenesis) reserveCalls).map
        (fun l => (l.balances.get? "reserve",
          fromSnapshot integerLib l.snapshot (some reserveGenesis))) =
      some (some 6, .error (.protocol "snapshot changed locked reserve")) := by
  decide +kernel

end Ledger

end SplitChain
