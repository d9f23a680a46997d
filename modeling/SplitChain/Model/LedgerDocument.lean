import SplitChain.Model.ReferenceNode
import SplitChain.Model.Restore
import SplitChain.Python.Loads

set_option relaxedAutoImplicit false
set_option autoImplicit false

/-!
# Ledgers as documents

The snapshot of a ledger is saved as a JSON document, with its heights as keys, its states as
strings and its dictionaries sorted by key. What is read back is the snapshot, up to the order of
its dictionaries.

Documents are read as far as their fields have the types that `snapshot` writes; of the others
nothing is said here.

## Main definitions

* `SplitChain.Branch.ofDocument?`, `SplitChain.Snapshot.ofDocument?` — what is read from a document.
* `SplitChain.Ledger.fromDocument` — `from_snapshot` of a document.

## Main results

* `SplitChain.Snapshot.ofDocument?_sortBy` — a snapshot is read from its document.
* `SplitChain.Ledger.fromSnapshot_written` — the order of the canonical history does not matter.
-/

namespace Dict

variable {κ ν μ : Type} [DecidableEq κ]

/-- Read all values of a dictionary. -/
def read (f : ν → Option μ) (d : Dict κ ν) : Option (Dict κ μ) :=
  (d.entries.mapM fun p => (f p.2).map fun v => (p.1, v)).map ofList

/-- Values that can be read back are. -/
lemma read_mapVal {f : ν → Option μ} {g : μ → ν} (h : ∀ v, f (g v) = some v) (d : Dict κ μ) :
    (d.mapVal g).read f = some d := by
  have hentries : ∀ es : List (κ × μ), (es.map fun p => (p.1, g p.2)).mapM
      (fun p => (f p.2).map fun v => (p.1, v)) = some es := by
    intro es
    induction es with
    | nil => rfl
    | cons e es ih => simp only [List.map_cons, List.mapM_cons, h, ih, Option.map_some,
        Option.bind_eq_bind, Option.bind_some, Option.pure_def]
  unfold read
  rw [show (d.mapVal g).entries = d.entries.map fun p => (p.1, g p.2) from rfl, hentries]
  exact congrArg some (ext (entries_ofList d.nodup_keys))

end Dict

namespace Json

variable {ν : Type}

/-- Whether a value is an object whose keys are among the given names. -/
def keysWithin (names : List String) (v : Json ν) : Bool :=
  v.dict?.any fun d => d.keys.all fun k => names.contains k

/-- The object that is written for a dictionary, with its keys sorted. -/
lemma dict?_sortBy_entries {μ : Type} (g : μ → Json ν) (d : Dict String μ) :
    ((obj (d.mapVal g).entries).sortBy (· ≤ ·)).dict? =
      some (d.sorted.mapVal fun v => (g v).sortBy (· ≤ ·)) := by
  have hentries : sortByKey (· ≤ ·) (sortMembersBy (· ≤ ·) (d.mapVal g).entries) =
      (d.sorted.mapVal fun v => (g v).sortBy (· ≤ ·)).entries := by
    have hmap : sortMembersBy (· ≤ ·) (d.mapVal g).entries =
        d.entries.map fun p => (p.1, (g p.2).sortBy (· ≤ ·)) := by
      rw [sortMembersBy_eq, Dict.mapVal, List.map_map]
      rfl
    rw [hmap]
    exact sortByKey_map (· ≤ ·) (fun v => (g v).sortBy (· ≤ ·)) d.entries
  show some (Dict.ofList (sortByKey (· ≤ ·) (sortMembersBy (· ≤ ·) (d.mapVal g).entries))) = _
  rw [hentries]
  exact congrArg some (Dict.ext (Dict.entries_ofList (Dict.nodup_keys _)))

/-- The keys of a sorted object are those of the object. -/
lemma keysWithin_sortBy {names : List String} {kvs : List (String × Json ν)}
    (hkeys : (kvs.map Prod.fst).Nodup) (h : ∀ k ∈ kvs.map Prod.fst, k ∈ names) :
    ((obj kvs).sortBy (· ≤ ·)).keysWithin names = true := by
  have hperm : ((sortByKey (· ≤ ·) (sortMembersBy (· ≤ ·) kvs)).map Prod.fst).Perm
      (kvs.map Prod.fst) := by
    have hsorted := (List.perm_insertionSort (fun p q => p.1 ≤ q.1)
      (sortMembersBy (· ≤ ·) kvs)).map Prod.fst
    have hfst : (sortMembersBy (· ≤ ·) kvs).map Prod.fst = kvs.map Prod.fst := by
      rw [sortMembersBy_eq, List.map_map]
      rfl
    rw [hfst] at hsorted
    exact hsorted
  have hentries := Dict.entries_ofList (hperm.nodup_iff.mpr hkeys)
  show ((Dict.ofList (sortByKey (· ≤ ·) (sortMembersBy (· ≤ ·) kvs))).keys.all
    fun k => names.contains k) = true
  rw [Dict.keys, hentries, List.all_eq_true]
  exact fun k hk => List.contains_iff_mem.mpr (h k (hperm.mem_iff.mp hk))

variable [PyNumber ν]

/-- A value that may be null or missing. -/
def optional {α : Type} (read : Json ν → Option α) : Option (Json ν) → Option (Option α)
  | none | some null => some none
  | some v => (read v).map some

end Json

namespace SplitChain

open Raise

open PyNumber (val ofInt trunc)

variable {ν : Type} [PyNumber ν]

/-! ## Reading documents -/

/-- The state with a published name. -/
def BranchState.ofValue? (name : String) : Option BranchState :=
  [offered, accepted, committed, final, cancelled, expired].find? fun s => s.value == name

/-- A state is found by its name. -/
lemma BranchState.ofValue?_value (s : BranchState) : BranchState.ofValue? s.value = some s := by
  cases s <;> decide

/-- The fields of `Branch`. -/
def Branch.fields : List String :=
  ["branch_id", "sender", "receiver", "value", "stake", "created_round", "expires_round",
    "origin_height", "origin_digest", "state", "accepted_round", "committed_round", "tx_digest"]

/-- `Branch(**data)`, for fields of the declared types; the last three may be missing. -/
def Branch.ofDocument? (v : Json ν) : Option (Branch ν) :=
  if v.keysWithin Branch.fields then do
    let branchId ← (v.member? "branch_id").bind Json.str?
    let sender ← (v.member? "sender").bind Json.str?
    let receiver ← (v.member? "receiver").bind Json.str?
    let value ← (v.member? "value").bind Json.num?
    let stake ← (v.member? "stake").bind Json.num?
    let createdRound ← (v.member? "created_round").bind Json.int?
    let expiresRound ← (v.member? "expires_round").bind Json.num?
    let originHeight ← (v.member? "origin_height").bind Json.int?
    let originDigest ← (v.member? "origin_digest").bind Json.str?
    let state ← ((v.member? "state").bind Json.str?).bind BranchState.ofValue?
    let acceptedRound ← Json.optional Json.int? (v.member? "accepted_round")
    let committedRound ← Json.optional Json.int? (v.member? "committed_round")
    let txDigest ← Json.optional Json.str? (v.member? "tx_digest")
    some {
      branchId := branchId
      sender := sender
      receiver := receiver
      value := value
      stake := stake
      createdRound := createdRound
      expiresRound := expiresRound
      originHeight := originHeight
      originDigest := originDigest
      state := state
      acceptedRound := acceptedRound
      committedRound := committedRound
      txDigest := txDigest }
  else none

/-- An entry of the list of finalized branches. -/
def Finalized.ofDocument? (v : Json ν) : Option Finalized := do
  let branchId ← (v.member? "branch_id").bind Json.str?
  let txDigest ← Json.optional Json.str? (v.member? "tx_digest")
  some ⟨branchId, txDigest⟩

/-- The parts of a snapshot document, if they have the types that `snapshot` writes. -/
def Snapshot.ofDocument? (v : Json ν) : Option (Snapshot ν) := do
  let schema ← (v.member? "schema").bind Json.str?
  let round ← (v.member? "round").bind Json.num?
  let head ← v.member? "canonical_head"
  let headHeight ← (head.member? "height").bind Json.num?
  let headDigest ← (head.member? "digest").bind Json.str?
  let balances ← ((v.member? "balances").bind Json.dict?).bind (Dict.read Json.num?)
  let locked ← ((v.member? "locked").bind Json.dict?).bind (Dict.read Json.num?)
  let branches ← ((v.member? "branches").bind Json.arr?).bind (List.mapM Branch.ofDocument?)
  let finalized ← ((v.member? "finalized").bind Json.arr?).bind (List.mapM Finalized.ofDocument?)
  let history ← ((v.member? "canonical_history").bind Json.dict?).bind (Dict.read Json.str?)
  let genesis ← Json.optional some (v.member? "genesis")
  some {
    schema := schema
    round := round
    headHeight := headHeight
    headDigest := headDigest
    balances := balances
    locked := locked
    branches := branches
    finalized := finalized
    canonicalHistory := history
    genesis := genesis }

/-- `from_snapshot` of a document, if its fields have the types that `snapshot` writes. -/
def Ledger.fromDocument (py : PyLib ν) (document : Json ν)
    (expectedGenesis : Option GenesisConfig) : Option (Except PyError (Ledger ν)) :=
  (Snapshot.ofDocument? document).map fun s => Ledger.fromSnapshot py s expectedGenesis

/-! ## What has been written is read -/

/-- An optional integer is read back. -/
lemma optional_optionalInt (n : Option ℤ) :
    Json.optional Json.int? (some ((optionalInt n : Json ν).sortBy (· ≤ ·))) = some n := by
  cases n with
  | none => rfl
  | some n =>
    show ((Json.num (ofInt n) : Json ν).int?).map some = _
    rw [show (Json.num (ofInt n) : Json ν).int? = some n from PyNumber.int?_ofInt n]
    rfl

omit [PyNumber ν] in
/-- An optional string is read back. -/
lemma optional_optionalText (s : Option String) :
    Json.optional Json.str? (some ((optionalText s : Json ν).sortBy (· ≤ ·))) = some s := by
  cases s <;> rfl

/-- **A branch is read from its published form.** -/
lemma Branch.ofDocument?_sortBy (b : Branch ν) :
    Branch.ofDocument? (b.publicForm.sortBy (· ≤ ·)) = some b := by
  have hint : ∀ n : ℤ, (Json.num (ofInt n) : Json ν).int? = some n := PyNumber.int?_ofInt
  have hkeys : (b.publicForm.members.map Prod.fst).Nodup := by
    show Branch.fields.Nodup
    decide
  have hwithin : (b.publicForm.sortBy (· ≤ ·)).keysWithin Branch.fields = true :=
    Json.keysWithin_sortBy hkeys fun k hk => hk
  have hmember : ∀ k, (b.publicForm.sortBy (· ≤ ·)).member? k =
      (Dict.lookup k b.publicForm.members).map (Json.sortBy (· ≤ ·)) := fun k =>
    (Json.member?_sortBy hkeys k).trans (congrArg _ (Json.member?_eq hkeys k))
  have hid : (b.publicForm.sortBy (· ≤ ·)).member? "branch_id" = some (.str b.branchId) :=
    hmember _
  have hsender : (b.publicForm.sortBy (· ≤ ·)).member? "sender" = some (.str b.sender) := hmember _
  have hreceiver : (b.publicForm.sortBy (· ≤ ·)).member? "receiver" = some (.str b.receiver) :=
    hmember _
  have hvalue : (b.publicForm.sortBy (· ≤ ·)).member? "value" = some (.num b.value) := hmember _
  have hstake : (b.publicForm.sortBy (· ≤ ·)).member? "stake" = some (.num b.stake) := hmember _
  have hcreated : (b.publicForm.sortBy (· ≤ ·)).member? "created_round" =
      some (.num (ofInt b.createdRound)) := hmember _
  have hexpires : (b.publicForm.sortBy (· ≤ ·)).member? "expires_round" =
      some (.num b.expiresRound) := hmember _
  have hheight : (b.publicForm.sortBy (· ≤ ·)).member? "origin_height" =
      some (.num (ofInt b.originHeight)) := hmember _
  have hdigest : (b.publicForm.sortBy (· ≤ ·)).member? "origin_digest" =
      some (.str b.originDigest) := hmember _
  have hstate : (b.publicForm.sortBy (· ≤ ·)).member? "state" = some (.str b.state.value) :=
    hmember _
  have haccepted : (b.publicForm.sortBy (· ≤ ·)).member? "accepted_round" =
      some ((optionalInt b.acceptedRound).sortBy (· ≤ ·)) := hmember _
  have hcommitted : (b.publicForm.sortBy (· ≤ ·)).member? "committed_round" =
      some ((optionalInt b.committedRound).sortBy (· ≤ ·)) := hmember _
  have htx : (b.publicForm.sortBy (· ≤ ·)).member? "tx_digest" =
      some ((optionalText b.txDigest).sortBy (· ≤ ·)) := hmember _
  unfold Branch.ofDocument?
  rw [if_pos hwithin, hid, hsender, hreceiver, hvalue, hstake, hcreated, hexpires, hheight, hdigest,
    hstate, haccepted, hcommitted, htx, optional_optionalInt, optional_optionalInt,
    optional_optionalText]
  simp only [Option.bind_eq_bind, Option.bind_some, hint, Json.str?, Json.num?,
    BranchState.ofValue?_value]

omit [PyNumber ν] in
/-- An entry of the list of finalized branches is read from its document. -/
lemma Finalized.ofDocument?_sortBy (f : Finalized) :
    Finalized.ofDocument? ((Json.obj [("branch_id", .str f.branchId),
      ("tx_digest", optionalText f.txDigest)] : Json ν).sortBy (· ≤ ·)) = some f := by
  have hkeys : ((Json.obj [("branch_id", .str f.branchId),
      ("tx_digest", optionalText f.txDigest)] : Json ν).members.map Prod.fst).Nodup := by
    show ["branch_id", "tx_digest"].Nodup
    decide
  have hmember := fun k => (Json.member?_sortBy (r := (· ≤ ·)) hkeys k).trans
    (congrArg _ (Json.member?_eq hkeys k))
  have hid := hmember "branch_id"
  have htx := hmember "tx_digest"
  unfold Finalized.ofDocument?
  rw [hid, htx]
  show Option.bind (some f.branchId) _ = _
  rw [Option.bind_some]
  show Option.bind (Json.optional Json.str? (some ((optionalText f.txDigest).sortBy _))) _ = _
  rw [optional_optionalText]
  rfl

/-- **A plain snapshot is read from its document**, with its dictionaries sorted.

**Proof sketch.** The document has its keys once, so that sorting does not change what is found
under them. -/
theorem Snapshot.ofDocument?_sortBy (s : Snapshot ν) (hgenesis : s.genesis = none) :
    Snapshot.ofDocument? (s.document.sortBy (· ≤ ·)) = some { s with
      balances := s.balances.sorted
      locked := s.locked.sorted
      canonicalHistory := s.canonicalHistory.sorted } := by
  have hmembers : s.document.members = [("schema", .str s.schema), ("round", .num s.round),
      ("canonical_head", .obj [("height", .num s.headHeight), ("digest", .str s.headDigest)]),
      ("balances", .obj (s.balances.mapVal Json.num).entries),
      ("locked", .obj (s.locked.mapVal Json.num).entries),
      ("branches", .arr (s.branches.map Branch.publicForm)),
      ("finalized", .arr (s.finalized.map fun f =>
        .obj [("branch_id", .str f.branchId), ("tx_digest", optionalText f.txDigest)])),
      ("canonical_history", .obj (s.canonicalHistory.mapVal Json.str).entries)] := by
    unfold Snapshot.document
    rw [hgenesis]
    rfl
  have hkeys : (s.document.members.map Prod.fst).Nodup := by
    rw [hmembers]
    show ["schema", "round", "canonical_head", "balances", "locked", "branches", "finalized",
      "canonical_history"].Nodup
    decide
  have hmember : ∀ k, (s.document.sortBy (· ≤ ·)).member? k =
      (Dict.lookup k s.document.members).map (Json.sortBy (· ≤ ·)) := fun k =>
    (Json.member?_sortBy hkeys k).trans (congrArg _ (Json.member?_eq hkeys k))
  rw [hmembers] at hmember
  have hschema : (s.document.sortBy (· ≤ ·)).member? "schema" = some (.str s.schema) := hmember _
  have hround : (s.document.sortBy (· ≤ ·)).member? "round" = some (.num s.round) := hmember _
  have hhead : (s.document.sortBy (· ≤ ·)).member? "canonical_head" =
      some ((Json.obj [("height", .num s.headHeight), ("digest", .str s.headDigest)]).sortBy
        (· ≤ ·)) := hmember _
  have hbalances : (s.document.sortBy (· ≤ ·)).member? "balances" =
      some ((Json.obj (s.balances.mapVal Json.num).entries).sortBy (· ≤ ·)) := hmember _
  have hlocked : (s.document.sortBy (· ≤ ·)).member? "locked" =
      some ((Json.obj (s.locked.mapVal Json.num).entries).sortBy (· ≤ ·)) := hmember _
  have hbranches : (s.document.sortBy (· ≤ ·)).member? "branches" =
      some ((Json.arr (s.branches.map Branch.publicForm)).sortBy (· ≤ ·)) := hmember _
  have hfinalized : (s.document.sortBy (· ≤ ·)).member? "finalized" =
      some ((Json.arr (s.finalized.map fun f => .obj [("branch_id", .str f.branchId),
        ("tx_digest", optionalText f.txDigest)])).sortBy (· ≤ ·)) := hmember _
  have hhistory : (s.document.sortBy (· ≤ ·)).member? "canonical_history" =
      some ((Json.obj (s.canonicalHistory.mapVal Json.str).entries).sortBy (· ≤ ·)) := hmember _
  have hnone : (s.document.sortBy (· ≤ ·)).member? "genesis" = none := hmember _
  have hheadKeys : (((Json.obj [("height", .num s.headHeight), ("digest", .str s.headDigest)] :
      Json ν).members).map Prod.fst).Nodup := by
    show ["height", "digest"].Nodup
    decide
  have hheadMember := fun k => (Json.member?_sortBy (r := (· ≤ ·)) hheadKeys k).trans
    (congrArg _ (Json.member?_eq hheadKeys k))
  have hheight : ((Json.obj [("height", .num s.headHeight), ("digest", .str s.headDigest)]).sortBy
      (· ≤ ·)).member? "height" = some (.num s.headHeight) := hheadMember _
  have hdigest : ((Json.obj [("height", .num s.headHeight), ("digest", .str s.headDigest)]).sortBy
      (· ≤ ·)).member? "digest" = some (.str s.headDigest) := hheadMember _
  have hbranchList : ((Json.arr (s.branches.map Branch.publicForm)).sortBy (· ≤ ·)).arr? =
      some (s.branches.map fun b => b.publicForm.sortBy (· ≤ ·)) := by
    rw [Json.arr?_sortBy]
    simp only [Json.arr?, Option.map_some, List.map_map]
    rfl
  have hfinalizedList : ((Json.arr (s.finalized.map fun f => .obj [("branch_id", .str f.branchId),
        ("tx_digest", optionalText f.txDigest)] : List (Json ν))).sortBy (· ≤ ·)).arr? =
      some (s.finalized.map fun f => (Json.obj [("branch_id", .str f.branchId),
        ("tx_digest", optionalText f.txDigest)]).sortBy (· ≤ ·)) := by
    rw [Json.arr?_sortBy]
    simp only [Json.arr?, Option.map_some, List.map_map]
    rfl
  unfold Snapshot.ofDocument?
  rw [hschema, hround, hhead, hbalances, hlocked, hbranches, hfinalized, hhistory, hnone]
  simp only [Option.bind_eq_bind, Option.bind_some, Json.str?, Json.num?, hheight, hdigest,
    Json.dict?_sortBy_entries, hbranchList, hfinalizedList, Json.optional,
    Json.mapM_map_eq Branch.ofDocument?_sortBy, Json.mapM_map_eq Finalized.ofDocument?_sortBy]
  have hnumbers : ∀ d : Dict String ν,
      (d.sorted.mapVal fun v => (Json.num v).sortBy (· ≤ ·)).read Json.num? = some d.sorted :=
    fun d => Dict.read_mapVal (g := fun v => (Json.num v).sortBy (· ≤ ·)) (fun _ => rfl) d.sorted
  have htexts : (s.canonicalHistory.sorted.mapVal fun v =>
      (Json.str v : Json ν).sortBy (· ≤ ·)).read Json.str? = some s.canonicalHistory.sorted :=
    Dict.read_mapVal (g := fun v => (Json.str v).sortBy (· ≤ ·)) (fun _ => rfl) _
  rw [hnumbers, hnumbers, htexts]
  simp only [Option.bind_some, hgenesis]

/-! ## The order of the canonical history -/

namespace Ledger

open Raise

/-- The validation looks up heights, in whatever order they stand. -/
lemma Restorable.withHistory {py : PyLib ν} {l : Ledger ν} (h : l.Restorable py)
    {history : Dict ℤ String} (hsame : ∀ k, history.get? k = l.canonicalHistory.get? k) :
    { l with canonicalHistory := history }.Restorable py where
  genesis g hg :=
    have hgenesis := h.genesis g hg
    ⟨(hsame 0).trans hgenesis.digest, hgenesis.supply, hgenesis.reserve, hgenesis.senders⟩
  round_nonneg := h.round_nonneg
  height_nonneg := h.height_nonneg
  head := (hsame _).trans h.head
  balance_nonneg := h.balance_nonneg
  branch branchId b hb :=
    have hbranch := h.branch branchId b hb
    ⟨hbranch.1, (hsame _).trans hbranch.2⟩
  excess := h.excess
  locked_le := h.locked_le

/-- A ledger that has been restored has passed the validation, with the balances of the snapshot. -/
lemma restorable_of_fromSnapshot {py : PyLib ν} {s : Snapshot ν} {expected : Option GenesisConfig}
    {l : Ledger ν} (h : fromSnapshot py s expected = .ok l) :
    l.Restorable py ∧ l.balances = s.balances := by
  unfold fromSnapshot at h
  simp only [bind_eq_ok, require_eq_ok, orRaise_eq_ok, pure_eq_ok, exists_const,
    validateRestoredState_eq_ok] at h
  obtain ⟨-, _, -, -, -, _, -, hrestorable, rfl⟩ := h
  exact ⟨hrestorable, rfl⟩

/-- A snapshot whose history is in another order is restored to a ledger whose history is. -/
lemma fromSnapshot_withHistory {py : PyLib ν} {s : Snapshot ν} {expected : Option GenesisConfig}
    {written : Dict String String} {history history' : Dict ℤ String} {l : Ledger ν}
    (hread : parseHistory py s.canonicalHistory = some history)
    (hread' : parseHistory py written = some history')
    (hsame : ∀ k, history'.get? k = history.get? k)
    (h : fromSnapshot py s expected = .ok l) :
    fromSnapshot py { s with canonicalHistory := written } expected =
      .ok { l with canonicalHistory := history' } := by
  unfold fromSnapshot at h ⊢
  simp only [bind_eq_ok, require_eq_ok, orRaise_eq_ok, pure_eq_ok, exists_const, hread, hread',
    Option.some.injEq, validateRestoredState_eq_ok] at h ⊢
  obtain ⟨hschema, genesis, hgenesis, hexpected, htyped, _, rfl, hrestorable, rfl⟩ := h
  exact ⟨hschema, genesis, hgenesis, hexpected, htyped, _, rfl, hrestorable.withHistory hsame, rfl⟩

/-- A history is read from its numerals in any order.

**Proof sketch.** The numerals are taken back to heights, which gives the entries of the history in
the order of the numerals. -/
lemma exists_parseHistory (py : PyLib ν) {d : Dict ℤ String} {written : Dict String String}
    (h : written.entries.Perm (d.entries.map fun p => (toString p.1, p.2))) :
    ∃ history, parseHistory py written = some history ∧ ∀ k, history.get? k = d.get? k := by
  obtain ⟨es, hes, hwritten⟩ : ∃ es : List (ℤ × String), es.Perm d.entries ∧
      written.entries = es.map fun p => (toString p.1, p.2) := by
    have hback : ∀ p ∈ written.entries,
        (toString ((py.intOfString p.1).getD 0), p.2) = p := by
      intro p hp
      obtain ⟨e, -, rfl⟩ := List.mem_map.mp (h.mem_iff.mp hp)
      rw [py.intOfString_toString, Option.getD_some]
    refine ⟨written.entries.map fun p => ((py.intOfString p.1).getD 0, p.2), ?_, ?_⟩
    · have hmap := h.map fun p => ((py.intOfString p.1).getD 0, p.2)
      rw [List.map_map] at hmap
      refine hmap.trans (.of_eq ((List.map_congr_left fun e _ => ?_).trans (List.map_id _)))
      show ((py.intOfString (toString e.1)).getD 0, e.2) = e
      rw [py.intOfString_toString]
      rfl
    · rw [List.map_map]
      exact ((List.map_congr_left hback).trans (List.map_id _)).symm
  have hnodup : (es.map Prod.fst).Nodup := (hes.map Prod.fst).nodup_iff.mpr d.nodup_keys
  refine ⟨⟨es, hnodup⟩, ?_, fun k => ?_⟩
  · have hparse := parseHistory_eq py ⟨es, hnodup⟩
    rw [show written = Dict.ofList (es.map fun p => (toString p.1, p.2)) from
      Dict.ext (by rw [← hwritten]; exact (Dict.entries_ofList written.nodup_keys).symm)]
    exact hparse
  · refine Option.ext fun v => ?_
    rw [Dict.get?_eq_some_iff, Dict.get?_eq_some_iff]
    exact hes.mem_iff

/-- The history of a snapshot is read from the written form as from the snapshot, up to order. -/
lemma exists_parseHistory_written (py : PyLib ν) (l : Ledger ν) :
    ∃ history, parseHistory py l.snapshot.canonicalHistory.sorted = some history ∧
      ∀ k, history.get? k = l.canonicalHistory.sorted.get? k := by
  have hnumerals : (toString : ℤ → String).Injective := fun i j hij => by
    have := congrArg py.intOfString hij
    rwa [py.intOfString_toString, py.intOfString_toString, Option.some.injEq] at this
  have hkeys : ((l.canonicalHistory.sorted.entries.map
      fun p => (toString p.1, p.2)).map Prod.fst).Nodup := by
    have := l.canonicalHistory.sorted.nodup_keys.map hnumerals
    rwa [List.map_map] at this ⊢
  exact exists_parseHistory py
    ((Dict.entries_sorted_perm _).trans (.of_eq (Dict.entries_ofList hkeys)))

/-- **A ledger that is restored from its snapshot is restored from the written one**, which differs
in the order of the history. -/
theorem fromSnapshot_written (py : PyLib ν) {l m : Ledger ν} {expected : Option GenesisConfig}
    (h : fromSnapshot py l.snapshot expected = .ok m) :
    ∃ history : Dict ℤ String, (∀ k, history.get? k = l.canonicalHistory.get? k) ∧
      fromSnapshot py { l.snapshot with
        canonicalHistory := l.snapshot.canonicalHistory.sorted } expected =
        .ok { m with canonicalHistory := history } := by
  obtain ⟨history, hread', hsame⟩ := exists_parseHistory_written py l
  refine ⟨history, fun k => (hsame k).trans (Dict.get?_sorted _ k), ?_⟩
  exact fromSnapshot_withHistory (parseHistory_eq py _) hread' hsame h

/-- The same the other way round. -/
lemma fromSnapshot_of_written (py : PyLib ν) {l m : Ledger ν} {expected : Option GenesisConfig}
    (h : fromSnapshot py { l.snapshot with
      canonicalHistory := l.snapshot.canonicalHistory.sorted } expected = .ok m) :
    ∃ m', fromSnapshot py l.snapshot expected = .ok m' := by
  obtain ⟨history, hread', hsame⟩ := exists_parseHistory_written py l
  exact ⟨_, fromSnapshot_withHistory (s := { l.snapshot with
    canonicalHistory := l.snapshot.canonicalHistory.sorted }) hread' (parseHistory_eq py _)
    (fun k => (hsame k).symm) h⟩

end Ledger

end SplitChain
