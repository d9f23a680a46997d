import SplitChain.Model.Alike
import SplitChain.Model.Amounts
import SplitChain.Model.JsonRequests
import SplitChain.Model.LedgerDocument

set_option relaxedAutoImplicit false
set_option autoImplicit false

/-!
# The store of a node

`LedgerStore` writes the ledger of a node and its other records to one file, as JSON text, and
reads each of them back. After calls with integers the file holds everything: what is read back
equals what was saved, and no later call can tell the restored ledger from the original.

A save raises if the document has an integer that the interpreter does not print. A save that raises
leaves the old file, and nothing is said about it here.

## Main definitions

* `SplitChain.NodeRecords` — what is saved besides the ledger.
* `SplitChain.LedgerStore.save`, `SplitChain.LedgerStore.loadFullNodeState`,
  `SplitChain.LedgerStore.loadReplicationLog`, `SplitChain.LedgerStore.loadOptional` — the store.
* `SplitChain.Ledger.WholeFunds`, `SplitChain.Ledger.WholeAmounts` — all amounts are of type `int`.
* `SplitChain.Ledger.transcript` — what later calls return.

## Main results

* `SplitChain.Ledger.closed_whole` — calls with integers keep the amounts integers.
* `SplitChain.LedgerStore.survives_iff` — after which calls a node survives saving and loading.
-/

namespace SplitChain

open Raise

open PyNumber (val ofInt trunc)

/-! ## Amounts of type `int` -/

namespace Ledger

/-- A number whose type is `int`. -/
def Whole (v : JsonNum) : Prop := (PyNumber.int? v).isSome = true

/-- Integer literals are of type `int`. -/
lemma whole_ofInt (n : ℤ) : Whole (ofInt n) := rfl

/-- A number of type `int` is an integer literal. -/
lemma Whole.exists_ofInt {v : JsonNum} (h : Whole v) : ∃ n : ℤ, v = ofInt n := by
  cases v with
  | int n => exact ⟨n, rfl⟩
  | bool b => cases h
  | float q => cases h

/-- Sums and differences of integers are integers. -/
lemma closed_whole : Closed Whole where
  ofInt := whole_ofInt
  add {v w} hv hw := by
    obtain ⟨m, rfl⟩ := hv.exists_ofInt
    obtain ⟨n, rfl⟩ := hw.exists_ofInt
    exact whole_ofInt (m + n)
  sub {v w} hv hw := by
    obtain ⟨m, rfl⟩ := hv.exists_ofInt
    obtain ⟨n, rfl⟩ := hw.exists_ofInt
    exact whole_ofInt (m - n)

/-- **All funds of a ledger are of type `int`.** -/
abbrev WholeFunds (l : Ledger JsonNum) : Prop := FundsIn Whole l

/-- **All amounts of a ledger are of type `int`**, also the rounds in which branches expire. -/
abbrev WholeAmounts (l : Ledger JsonNum) : Prop := AmountsIn Whole l

/-- A call with integers as arguments. -/
abbrev Call.Whole (c : Call JsonNum) : Prop := c.AmountsIn Ledger.Whole

/-- Truncation does not change the locked amounts. -/
lemma WholeFunds.val_locked {l : Ledger JsonNum} (h : WholeFunds l) (a : String) :
    (trunc (l.locked.getD a (ofInt 0)) : ℚ) = val (l.locked.getD a (ofInt 0)) := by
  obtain ⟨n, hn⟩ := (FundsIn.getD closed_whole h.locked a).exists_ofInt
  rw [hn, PyNumber.val_ofInt, PyNumber.trunc_of_val_eq (PyNumber.val_ofInt n)]

/-- A ledger that starts with integer balances. -/
lemma WholeAmounts.ofBalances (py : PyLib JsonNum) (balances : Dict String ℤ) :
    WholeAmounts (Ledger.ofBalances py (balances.mapVal ofInt)) where
  balances a v hv := by
    change (balances.mapVal ofInt).get? a = some v at hv
    rw [Dict.get?_mapVal, Option.map_eq_some_iff] at hv
    obtain ⟨n, -, rfl⟩ := hv
    rfl
  locked _ _ hv := by cases hv
  branches _ _ hb := by cases hb
  expires _ _ hb := by cases hb

/-! ## Later calls -/

section Later

variable {ν : Type} [PyNumber ν]

/-- **What later calls return**: of each call the result or the exception, and after it the
canonical digest and the identifiers of the branches. -/
def transcript (py : PyLib ν) (l : Ledger ν) :
    List (Call ν) → List (Except PyError (Result ν) × String × List String)
  | [] => []
  | c :: cs =>
    match l.perform py c with
    | .ok (l', result) =>
      (.ok result, l'.canonicalDigest, l'.branches.keys) :: transcript py l' cs
    | .error e => (.error e, l.canonicalDigest, l.branches.keys) :: transcript py l cs

/-- Later calls cannot tell ledgers that are alike apart. -/
lemma Alike.transcript_eq {py : PyLib ν} (cs : List (Call ν)) :
    ∀ {l m : Ledger ν}, Alike l m → l.transcript py cs = m.transcript py cs := by
  induction cs with
  | nil => exact fun _ => rfl
  | cons c cs ih =>
    intro l m h
    unfold transcript
    have hperform : Rel Alike.Same (l.perform py c) (m.perform py c) := h.perform c
    cases hl : l.perform py c with
    | ok p =>
      cases hm : m.perform py c with
      | ok q =>
        rw [hl, hm] at hperform
        obtain ⟨halike, hresult⟩ := hperform
        simp only [hresult, halike.canonicalDigest, halike.branches, ih halike]
      | error e =>
        rw [hl, hm] at hperform
        cases hperform
    | error e =>
      cases hm : m.perform py c with
      | ok q =>
        rw [hl, hm] at hperform
        cases hperform
      | error e' =>
        rw [hl, hm] at hperform
        cases hperform
        simp only [h.canonicalDigest, h.branches, ih h]

/-- **Equality of ledgers**, field by field, as the interpreter compares the fields: the order of a
dictionary does not matter. The branches are in the same order besides. -/
structure Equal (l m : Ledger ν) : Prop where
  genesis : l.genesis = m.genesis
  round : l.round = m.round
  balances : ∀ a, l.balances.get? a = m.balances.get? a
  locked : ∀ a, l.locked.get? a = m.locked.get? a
  branches : l.branches = m.branches
  finalized : l.finalized = m.finalized
  canonicalHeight : l.canonicalHeight = m.canonicalHeight
  canonicalDigest : l.canonicalDigest = m.canonicalDigest
  canonicalHistory : ∀ h, l.canonicalHistory.get? h = m.canonicalHistory.get? h

/-- Equal ledgers are alike. -/
lemma Equal.alike {l m : Ledger ν} (h : Equal l m) : Alike l m where
  genesis a := by rw [isLocked, isLocked, h.genesis]
  round := h.round
  balances := h.balances
  locked a := by
    rw [h.locked]
    cases m.locked.get? a <;> constructor
    rfl
  branches := h.branches
  finalized := h.finalized
  canonicalHeight := h.canonicalHeight
  canonicalDigest := h.canonicalDigest
  canonicalHistory := h.canonicalHistory

end Later

/-- A ledger with integer amounts and no genesis configuration equals its reloaded form. -/
lemma WholeAmounts.equal_reloaded {l : Ledger JsonNum} (h : WholeAmounts l)
    (hgenesis : l.genesis = none) {history : Dict ℤ String}
    (hsame : ∀ k, history.get? k = l.canonicalHistory.get? k) :
    Equal l { l.reloaded with canonicalHistory := history } where
  genesis := by simp only [reloaded, hgenesis, Option.map_none]
  round := rfl
  balances a := (Dict.get?_sorted _ a).symm
  locked a := by
    show _ = (l.locked.sorted.mapVal fun v => ofInt (trunc v)).get? a
    rw [Dict.get?_mapVal, Dict.get?_sorted]
    cases ha : l.locked.get? a with
    | none => rfl
    | some v =>
      obtain ⟨n, rfl⟩ := (h.locked a v ha).exists_ofInt
      rw [Option.map_some, PyNumber.trunc_of_val_eq (PyNumber.val_ofInt n)]
  branches := rfl
  finalized := rfl
  canonicalHeight := rfl
  canonicalDigest := rfl
  canonicalHistory k := (hsame k).symm

end Ledger

/-! ## The file -/

section Store

variable {ν : Type} [PyNumber ν]

/-- A dictionary of JSON values, no key of it twice, and with numbers that are read back from
their numerals. -/
structure JsonRecord (float : String → Option ν) (number : ν → String) where
  value : Json ν
  isObject : value.dict?.isSome = true
  distinctKeys : value.DistinctKeys
  readable : value.EveryNumber (Json.NumberReadable float number)

/-- What is saved besides the ledger. -/
structure NodeRecords (float : String → Option ν) (number : ν → String) where
  replayNonces : Dict String ℤ
  replicationNonces : Dict String ℤ
  replicationLog : List (JsonRecord float number)
  replicationPending : Option (JsonRecord float number)
  leadership : Option (JsonRecord float number)

namespace LedgerStore

/-- An optional dictionary in JSON. -/
def optionalRecord {float : String → Option ν} {number : ν → String} :
    Option (JsonRecord float number) → Json ν
  | some r => r.value
  | none => .null

/-- The document that `save` writes. -/
def document {float : String → Option ν} {number : ν → String} (l : Ledger ν)
    (r : NodeRecords float number) : Json ν :=
  .obj [("schema", .str "splitchain-node-state/v1"), ("ledger", l.snapshot.document),
    ("replay_nonces", .obj (r.replayNonces.sorted.mapVal fun n => .num (ofInt n)).entries),
    ("replication_nonces", .obj (r.replicationNonces.sorted.mapVal fun n => .num (ofInt n)).entries),
    ("replication_log", .arr (r.replicationLog.map JsonRecord.value)),
    ("replication_pending", optionalRecord r.replicationPending),
    ("leadership", optionalRecord r.leadership)]

/-- The text of the file. -/
def content (py : PyLib ν) {float : String → Option ν} (l : Ledger ν)
    (r : NodeRecords float py.numberText) : List Char :=
  Json.text py.numberText (document l r)

/-- `save`: the text that is written, unless `json.dumps` raises. -/
def save (py : PyLib ν) {float : String → Option ν} (l : Ledger ν)
    (r : NodeRecords float py.numberText) : Except PyError (List Char) :=
  Json.dumps py.numberText (document l r)

/-- What is written, if every number of the document is printed. -/
lemma save_eq_ok {py : PyLib ν} {float : String → Option ν} {l : Ledger ν}
    {r : NodeRecords float py.numberText} {text : List Char} :
    save py l r = .ok text ↔
      (document l r).EveryNumber Json.Printable ∧ text = content py l r :=
  Json.dumps_eq_ok

/-- `json.loads(self.path.read_text(encoding="utf-8"))`, for its method `get` -/
def read (float : String → Option ν) (message : String) (text : List Char) :
    Except PyError (Dict String (Json ν)) := do
  let data ← orRaise (Json.loads float text) (.protocol message)
  orRaise data.dict? .attribute

/-- `int(x)` -/
def toInt (py : PyLib ν) (v : Json ν) : Except PyError ℤ :=
  orRaise (v.toInt? py) (if v.str?.isSome then .value "" else .type)

/-- `{str(name): int(nonce) for name, nonce in nonces.items()}` -/
def toNonces (py : PyLib ν) (nonces : Dict String (Json ν)) : Except PyError (Dict String ℤ) :=
  Dict.ofList <$> nonces.entries.mapM fun p => (fun n => (p.1, n)) <$> toInt py p.2

/-- The ledger and the replay state of a node that has no file. -/
def fresh (py : PyLib ν) (defaultBalances : Dict String ν) (genesis : Option GenesisConfig) :
    Ledger ν × Dict String ℤ × Dict String ℤ :=
  (match genesis with
    | some g => Ledger.ofGenesis py g
    | none => Ledger.ofBalances py defaultBalances, ∅, ∅)

/-- The checks of `load_full_node_state` that come before the ledger is restored. -/
def checkReplay (data : Dict String (Json ν)) :
    Except PyError (Json ν × Dict String (Json ν) × Dict String (Json ν)) := do
  let replay ← orRaise (data.getD "replay_nonces" (.obj [])).dict? (.protocol "invalid replay state")
  let replication ← orRaise (data.getD "replication_nonces" (.obj [])).dict?
    (.protocol "invalid replication replay state")
  let ledger ← orRaise (data.get? "ledger") .key
  return (ledger, replay, replication)

/-- `load_full_node_state`, if the ledger document has fields of the types that `snapshot`
writes. -/
def loadFullNodeState (py : PyLib ν) (float : String → Option ν) (defaultBalances : Dict String ν)
    (genesis : Option GenesisConfig) :
    Option (List Char) → Option (Except PyError (Ledger ν × Dict String ℤ × Dict String ℤ))
  | none => some (.ok (fresh py defaultBalances genesis))
  | some text =>
    match read float "unable to load ledger state" text with
    | .error e => some (.error e)
    | .ok data =>
      if (data.get? "schema").bind Json.str? = some "splitchain-node-state/v1" then
        match checkReplay data with
        | .error e => some (.error e)
        | .ok (ledger, replay, replication) =>
          (Ledger.fromDocument py ledger genesis).map fun restored => do
            let l ← restored
            let replay ← toNonces py replay
            let replication ← toNonces py replication
            return (l, replay, replication)
      else
        (Ledger.fromDocument py (.obj data.entries) genesis).map fun restored => do
          let l ← restored
          return (l, ∅, ∅)

/-- `load_replication_log` -/
def loadReplicationLog (float : String → Option ν) :
    Option (List Char) → Except PyError (List (Json ν))
  | none => .ok []
  | some text => do
    let data ← read float "unable to load replication log" text
    let value ← orRaise (data.getD "replication_log" (.arr [])).arr?
      (.protocol "invalid replication log")
    require (value.all fun item => item.dict?.isSome) (.protocol "invalid replication log")
    return value

/-- An optional dictionary under a key, with the messages of its two errors. -/
def loadOptional (float : String → Option ν) (key invalid unable : String) :
    Option (List Char) → Except PyError (Option (Json ν))
  | none => .ok none
  | some text => do
    let data ← read float unable text
    match data.get? key with
    | none | some .null => return none
    | some v => do
      require v.dict?.isSome (.protocol invalid)
      return some v

/-- `load_replication_pending` -/
def loadReplicationPending (float : String → Option ν) (file : Option (List Char)) :
    Except PyError (Option (Json ν)) :=
  loadOptional float "replication_pending" "invalid pending replication record"
    "unable to load pending replication record" file

/-- `load_leadership_snapshot` -/
def loadLeadershipSnapshot (float : String → Option ν) (file : Option (List Char)) :
    Except PyError (Option (Json ν)) :=
  loadOptional float "leadership" "invalid leadership record" "unable to load leadership record"
    file

/-! ## What has been saved is read -/

omit [PyNumber ν] in
/-- The members of an object with one value under each key are read back. -/
lemma everyNumber_mapVal {P : ν → Prop} {α : Type} (d : Dict String α) {g : α → Json ν}
    (h : ∀ k v, d.get? k = some v → (g v).EveryNumber P) :
    (Json.obj (d.mapVal g).entries).EveryNumber P := by
  refine Json.everyNumber_obj.mpr fun p hp => ?_
  obtain ⟨e, he, rfl⟩ := List.mem_map.mp hp
  exact h e.1 e.2 (Dict.get?_eq_some_iff.mpr he)

variable {py : PyLib ν} {float : String → Option ν}

/-- An optional integer has a readable number. -/
lemma everyNumber_optionalInt (py : PyLib ν) (float : String → Option ν) (n : Option ℤ) :
    (optionalInt n : Json ν).EveryNumber (Json.NumberReadable float py.numberText) := by
  cases n with
  | none => trivial
  | some n => exact Json.numberReadable_ofInt py float n

omit [PyNumber ν] in
/-- An optional string has no number. -/
lemma everyNumber_optionalText {P : ν → Prop} (s : Option String) :
    (optionalText s : Json ν).EveryNumber P := by
  cases s <;> trivial

/-- The numbers of a branch are read back. -/
lemma everyNumber_branch {b : Branch ν}
    (hvalue : Json.NumberReadable float py.numberText b.value)
    (hstake : Json.NumberReadable float py.numberText b.stake)
    (hexpires : Json.NumberReadable float py.numberText b.expiresRound) :
    b.publicForm.EveryNumber (Json.NumberReadable float py.numberText) := by
  have hread := Json.numberReadable_ofInt py float
  refine Json.everyNumber_obj.mpr fun p hp => ?_
  simp only [List.mem_cons, List.not_mem_nil, or_false] at hp
  rcases hp with rfl | rfl | rfl | rfl | rfl | rfl | rfl | rfl | rfl | rfl | rfl | rfl | rfl
  · trivial
  · trivial
  · trivial
  · exact hvalue
  · exact hstake
  · exact hread _
  · exact hexpires
  · exact hread _
  · trivial
  · trivial
  · exact everyNumber_optionalInt py float _
  · exact everyNumber_optionalInt py float _
  · exact everyNumber_optionalText _

/-- The numbers of a plain snapshot are read back if those of its amounts are. -/
lemma everyNumber_snapshot {l : Ledger ν} (hgenesis : l.genesis = none)
    (hbalances : ∀ a v, l.balances.get? a = some v → Json.NumberReadable float py.numberText v)
    (hlocked : ∀ a v, l.locked.get? a = some v → Json.NumberReadable float py.numberText v)
    (hbranches : ∀ branchId b, l.branches.get? branchId = some b →
      b.publicForm.EveryNumber (Json.NumberReadable float py.numberText)) :
    l.snapshot.document.EveryNumber (Json.NumberReadable float py.numberText) := by
  have hread := Json.numberReadable_ofInt py float
  have hmembers : l.snapshot.document.members = [("schema", .str l.snapshot.schema),
      ("round", .num (ofInt l.round)),
      ("canonical_head", .obj [("height", .num (ofInt l.canonicalHeight)),
        ("digest", .str l.canonicalDigest)]),
      ("balances", .obj (l.balances.sorted.mapVal Json.num).entries),
      ("locked", .obj (l.locked.sorted.mapVal Json.num).entries),
      ("branches", .arr (l.branches.values.map Branch.publicForm)),
      ("finalized", .arr (l.finalized.map fun f =>
        .obj [("branch_id", .str f.branchId), ("tx_digest", optionalText f.txDigest)])),
      ("canonical_history", .obj (l.snapshot.canonicalHistory.mapVal Json.str).entries)] := by
    unfold Snapshot.document Ledger.snapshot
    rw [hgenesis]
    rfl
  show (Json.obj l.snapshot.document.members).EveryNumber _
  rw [hmembers]
  refine Json.everyNumber_obj.mpr fun p hp => ?_
  simp only [List.mem_cons, List.not_mem_nil, or_false] at hp
  rcases hp with rfl | rfl | rfl | rfl | rfl | rfl | rfl | rfl
  · trivial
  · exact hread _
  · refine Json.everyNumber_obj.mpr fun p hp => ?_
    simp only [List.mem_cons, List.not_mem_nil, or_false] at hp
    rcases hp with rfl | rfl
    · exact hread _
    · trivial
  · exact everyNumber_mapVal _ fun a v hv => hbalances a v (by rwa [Dict.get?_sorted] at hv)
  · exact everyNumber_mapVal _ fun a v hv => hlocked a v (by rwa [Dict.get?_sorted] at hv)
  · refine Json.everyNumber_arr.mpr fun x hx => ?_
    obtain ⟨b, hb, rfl⟩ := List.mem_map.mp hx
    obtain ⟨branchId, hget⟩ := Dict.mem_values_iff.mp hb
    exact hbranches branchId b hget
  · refine Json.everyNumber_arr.mpr fun x hx => ?_
    obtain ⟨f, -, rfl⟩ := List.mem_map.mp hx
    refine Json.everyNumber_obj.mpr fun p hp => ?_
    simp only [List.mem_cons, List.not_mem_nil, or_false] at hp
    rcases hp with rfl | rfl
    · trivial
    · exact everyNumber_optionalText _
  · exact everyNumber_mapVal _ fun _ _ _ => trivial

/-- An optional dictionary is read back. -/
lemma everyNumber_optionalRecord {number : ν → String} (r : Option (JsonRecord float number)) :
    (optionalRecord r).EveryNumber (Json.NumberReadable float number) := by
  cases r with
  | none => trivial
  | some r => exact r.readable

/-- The numbers of a saved document are read back if those of the ledger are. -/
lemma everyNumber_document {l : Ledger ν}
    (h : l.snapshot.document.EveryNumber (Json.NumberReadable float py.numberText))
    (r : NodeRecords float py.numberText) :
    (document l r).EveryNumber (Json.NumberReadable float py.numberText) := by
  have hread := Json.numberReadable_ofInt py float
  refine Json.everyNumber_obj.mpr fun p hp => ?_
  simp only [List.mem_cons, List.not_mem_nil, or_false] at hp
  rcases hp with rfl | rfl | rfl | rfl | rfl | rfl | rfl
  · trivial
  · exact h
  · exact everyNumber_mapVal _ fun _ n _ => hread n
  · exact everyNumber_mapVal _ fun _ n _ => hread n
  · refine Json.everyNumber_arr.mpr fun x hx => ?_
    obtain ⟨item, -, rfl⟩ := List.mem_map.mp hx
    exact item.readable
  · exact everyNumber_optionalRecord _
  · exact everyNumber_optionalRecord _

/-- **The file is read** as the dictionary of the saved document, with its values sorted. -/
lemma exists_read_content {l : Ledger ν}
    (h : l.snapshot.document.EveryNumber (Json.NumberReadable float py.numberText))
    (r : NodeRecords float py.numberText) (message : String) :
    ∃ data, read float message (content py l r) = .ok data ∧ ∀ k, data.get? k =
      (Dict.lookup k (document l r).members).map (Json.sortBy (· ≤ ·)) := by
  have hkeys : ((document l r).members.map Prod.fst).Nodup := by
    show ["schema", "ledger", "replay_nonces", "replication_nonces", "replication_log",
      "replication_pending", "leadership"].Nodup
    decide
  have hmember : ∀ k, ((document l r).sortBy (· ≤ ·)).member? k =
      (Dict.lookup k (document l r).members).map (Json.sortBy (· ≤ ·)) := fun k =>
    (Json.member?_sortBy hkeys k).trans (congrArg _ (Json.member?_eq hkeys k))
  refine ⟨_, ?_, hmember⟩
  unfold read content
  rw [Json.loads_text_sorted (everyNumber_document h r)]
  rfl

omit [PyNumber ν] in
/-- An object is still one when its members are sorted. -/
lemma isSome_dict?_sortBy (v : Json ν) :
    (v.sortBy (· ≤ ·)).dict?.isSome = v.dict?.isSome := by
  cases v <;> rfl

/-- The nonces are read back, in the order of their names. -/
lemma toNonces_written (d : Dict String ℤ) :
    toNonces py (d.sorted.mapVal fun n => (Json.num (ofInt n)).sortBy (· ≤ ·)) =
      .ok d.sorted := by
  have hint : ∀ n : ℤ, toInt py ((Json.num (ofInt n)).sortBy (· ≤ ·)) = .ok n := fun n =>
    congrArg Except.ok (PyNumber.trunc_of_val_eq (PyNumber.val_ofInt n))
  have hentries : ∀ es : List (String × ℤ),
      (es.map fun p => (p.1, (Json.num (ofInt p.2)).sortBy (· ≤ ·))).mapM
        (fun p => (fun n => (p.1, n)) <$> toInt py p.2) = .ok es := by
    intro es
    induction es with
    | nil => rfl
    | cons e es ih =>
      rw [List.map_cons, List.mapM_cons, ih]
      dsimp only
      rw [hint]
      rfl
  unfold toNonces
  rw [show (d.sorted.mapVal fun n => (Json.num (ofInt n)).sortBy (· ≤ ·)).entries =
    d.sorted.entries.map fun p => (p.1, (Json.num (ofInt p.2)).sortBy (· ≤ ·)) from rfl, hentries]
  exact congrArg Except.ok (Dict.ext (Dict.entries_ofList d.sorted.nodup_keys))

/-- **The ledger and the nonces are read back** from the file.

**Proof sketch.** The document has all its keys; the nonces are sorted twice, which is sorting them
once. -/
lemma loadFullNodeState_content {l : Ledger ν} (hgenesis : l.genesis = none)
    (h : l.snapshot.document.EveryNumber (Json.NumberReadable float py.numberText))
    (r : NodeRecords float py.numberText) (defaultBalances : Dict String ν) :
    loadFullNodeState py float defaultBalances none (some (content py l r)) = some (do
      let l' ← Ledger.fromSnapshot py { l.snapshot with
        canonicalHistory := l.snapshot.canonicalHistory.sorted } none
      return (l', r.replayNonces.sorted, r.replicationNonces.sorted)) := by
  obtain ⟨data, hread, hdata⟩ := exists_read_content h r "unable to load ledger state"
  have hschema : data.get? "schema" = some (.str "splitchain-node-state/v1") := hdata _
  have hledger : data.get? "ledger" = some (l.snapshot.document.sortBy (· ≤ ·)) := hdata _
  have hreplay : data.getD "replay_nonces" (.obj []) = (Json.obj
      (r.replayNonces.sorted.mapVal fun n => .num (ofInt n)).entries).sortBy (· ≤ ·) :=
    by rw [Dict.getD, hdata]; rfl
  have hreplication : data.getD "replication_nonces" (.obj []) = (Json.obj
      (r.replicationNonces.sorted.mapVal fun n => .num (ofInt n)).entries).sortBy (· ≤ ·) :=
    by rw [Dict.getD, hdata]; rfl
  have hcheck : checkReplay data = .ok (l.snapshot.document.sortBy (· ≤ ·),
      r.replayNonces.sorted.mapVal fun n => (Json.num (ofInt n)).sortBy (· ≤ ·),
      r.replicationNonces.sorted.mapVal fun n => (Json.num (ofInt n)).sortBy (· ≤ ·)) := by
    unfold checkReplay
    rw [hreplay, hreplication, hledger, Json.dict?_sortBy_entries, Json.dict?_sortBy_entries,
      Dict.sorted_sorted, Dict.sorted_sorted]
    rfl
  have hsnapshot : l.snapshot.genesis = none := by
    show l.genesis.map GenesisConfig.publicForm = none
    rw [hgenesis, Option.map_none]
  have hdocument := Snapshot.ofDocument?_sortBy l.snapshot hsnapshot
  have hbalances : l.snapshot.balances.sorted = l.snapshot.balances :=
    Dict.sorted_sorted l.balances
  have hlocked : l.snapshot.locked.sorted = l.snapshot.locked := Dict.sorted_sorted l.locked
  rw [hbalances, hlocked] at hdocument
  unfold loadFullNodeState
  simp only [hread, hschema, hcheck, Option.bind_some, Json.str?, if_true, Ledger.fromDocument,
    hdocument, Option.map_some, toNonces_written]
  rfl

/-- **The log is read back.** -/
lemma loadReplicationLog_content {l : Ledger ν}
    (h : l.snapshot.document.EveryNumber (Json.NumberReadable float py.numberText))
    (r : NodeRecords float py.numberText) :
    loadReplicationLog float (some (content py l r)) =
      .ok (r.replicationLog.map fun item => item.value.sortBy (· ≤ ·)) := by
  obtain ⟨data, hread, hdata⟩ := exists_read_content h r "unable to load replication log"
  have hlog : data.getD "replication_log" (.arr []) =
      (Json.arr (r.replicationLog.map JsonRecord.value)).sortBy (· ≤ ·) :=
    by rw [Dict.getD, hdata]; rfl
  have hitems : ((Json.arr (r.replicationLog.map JsonRecord.value)).sortBy (· ≤ ·)).arr? =
      some (r.replicationLog.map fun item => item.value.sortBy (· ≤ ·)) := by
    rw [Json.arr?_sortBy, Json.arr?, Option.map_some, List.map_map]
    rfl
  have hobjects : ((r.replicationLog.map fun item => item.value.sortBy (· ≤ ·)).all
      fun item => item.dict?.isSome) = true := by
    rw [List.all_map, List.all_eq_true]
    exact fun item _ => (isSome_dict?_sortBy item.value).trans item.isObject
  show (read float "unable to load replication log" (content py l r) >>= _) = _
  rw [hread]
  show (orRaise (data.getD "replication_log" (.arr [])).arr? _ >>= _) = _
  rw [hlog, hitems]
  show (require _ _ >>= _) = _
  rw [hobjects]
  rfl

/-- **An optional dictionary is read back.** -/
lemma loadOptional_content {l : Ledger ν}
    (h : l.snapshot.document.EveryNumber (Json.NumberReadable float py.numberText))
    (r : NodeRecords float py.numberText) {key : String} (invalid unable : String)
    {o : Option (JsonRecord float py.numberText)}
    (hkey : Dict.lookup key (document l r).members = some (optionalRecord o)) :
    loadOptional float key invalid unable (some (content py l r)) =
      .ok (o.map fun item => item.value.sortBy (· ≤ ·)) := by
  obtain ⟨data, hread, hdata⟩ := exists_read_content h r unable
  have hvalue := hdata key
  rw [hkey, Option.map_some] at hvalue
  show (read float unable (content py l r) >>= _) = _
  rw [hread]
  simp only [ok_bind, hvalue]
  cases o with
  | none => rfl
  | some item =>
    have hobject := (isSome_dict?_sortBy item.value).trans item.isObject
    show (match some (item.value.sortBy (· ≤ ·)) with
      | none | some .null => _
      | some v => _) = _
    cases hsorted : item.value.sortBy (· ≤ ·) with
    | obj kvs =>
      rw [Option.map_some, hsorted]
      rfl
    | null | bool | num | str | arr =>
      rw [hsorted] at hobject
      cases hobject

/-! ## Surviving -/

/-- What a node loads when it starts. -/
structure Loaded (ν : Type) where
  ledger : Ledger ν
  replayNonces : Dict String ℤ
  replicationNonces : Dict String ℤ
  replicationLog : List (Json ν)
  replicationPending : Option (Json ν)
  leadership : Option (Json ν)

/-- The four loads of a node that starts. -/
def load (py : PyLib ν) (float : String → Option ν) (defaultBalances : Dict String ν)
    (genesis : Option GenesisConfig) (file : Option (List Char)) :
    Option (Except PyError (Loaded ν)) :=
  (loadFullNodeState py float defaultBalances genesis file).map fun restored => do
    let (ledger, replayNonces, replicationNonces) ← restored
    let replicationLog ← loadReplicationLog float file
    let replicationPending ← loadReplicationPending float file
    let leadership ← loadLeadershipSnapshot float file
    return ⟨ledger, replayNonces, replicationNonces, replicationLog, replicationPending, leadership⟩

/-- A value that is read for a dictionary, equal to it. -/
def Holds {number : ν → String} (item : JsonRecord float number) (v : Json ν) : Prop :=
  item.value.SameUpToKeyOrder v

/-- **What is loaded equals what was saved.** -/
structure Loaded.Matches {number : ν → String} (loaded : Loaded ν) (l : Ledger ν)
    (r : NodeRecords float number) : Prop where
  ledger : l.Equal loaded.ledger
  replayNonces : ∀ name, loaded.replayNonces.get? name = r.replayNonces.get? name
  replicationNonces : ∀ name, loaded.replicationNonces.get? name = r.replicationNonces.get? name
  replicationLog : List.Forall₂ Holds r.replicationLog loaded.replicationLog
  replicationPending : Option.Rel Holds r.replicationPending loaded.replicationPending
  leadership : Option.Rel Holds r.leadership loaded.leadership

/-- **A node survives saving and loading**: the save returns, everything is read back, and no later
call can tell the restored ledger from the original. -/
def Survives (py : PyLib ν) (float : String → Option ν) (l : Ledger ν)
    (r : NodeRecords float py.numberText) : Prop :=
  ∃ text loaded, save py l r = .ok text ∧ load py float ∅ none (some text) = some (.ok loaded) ∧
    loaded.Matches l r ∧ ∀ later, loaded.ledger.transcript py later = l.transcript py later

/-- An optional dictionary equals what is read for it. -/
lemma rel_sorted {number : ν → String} (o : Option (JsonRecord float number)) :
    Option.Rel Holds o (o.map fun item => item.value.sortBy (· ≤ ·)) := by
  cases o with
  | none => exact .none
  | some item => exact .some (Json.sameUpToKeyOrder_sortBy (· ≤ ·) item.value)

/-- **Loading comes down to restoring the ledger.** -/
lemma load_content {l : Ledger ν} (hgenesis : l.genesis = none)
    (h : l.snapshot.document.EveryNumber (Json.NumberReadable float py.numberText))
    (r : NodeRecords float py.numberText) :
    load py float ∅ none (some (content py l r)) = some (do
      let l' ← Ledger.fromSnapshot py { l.snapshot with
        canonicalHistory := l.snapshot.canonicalHistory.sorted } none
      return ⟨l', r.replayNonces.sorted, r.replicationNonces.sorted,
        r.replicationLog.map fun item => item.value.sortBy (· ≤ ·),
        r.replicationPending.map fun item => item.value.sortBy (· ≤ ·),
        r.leadership.map fun item => item.value.sortBy (· ≤ ·)⟩) := by
  have hpending : loadReplicationPending float (some (content py l r)) = _ :=
    loadOptional_content h r _ _ (o := r.replicationPending) rfl
  have hleadership : loadLeadershipSnapshot float (some (content py l r)) = _ :=
    loadOptional_content h r _ _ (o := r.leadership) rfl
  unfold load
  rw [loadFullNodeState_content hgenesis h, loadReplicationLog_content h, hpending, hleadership]
  cases Ledger.fromSnapshot py { l.snapshot with
    canonicalHistory := l.snapshot.canonicalHistory.sorted } none <;> rfl

/-- A node survives whose ledger is restored to an equal one. -/
lemma survives_of_fromSnapshot {l l' : Ledger ν} (hgenesis : l.genesis = none)
    (h : l.snapshot.document.EveryNumber (Json.NumberReadable float py.numberText))
    (r : NodeRecords float py.numberText)
    (hprinted : (document l r).EveryNumber Json.Printable)
    (hl' : Ledger.fromSnapshot py { l.snapshot with
      canonicalHistory := l.snapshot.canonicalHistory.sorted } none = .ok l')
    (hequal : l.Equal l') : Survives py float l r := by
  refine ⟨_, _, save_eq_ok.mpr ⟨hprinted, rfl⟩, by rw [load_content hgenesis h, hl']; rfl, ?_, ?_⟩
  · exact {
      ledger := hequal
      replayNonces := fun name => Dict.get?_sorted _ name
      replicationNonces := fun name => Dict.get?_sorted _ name
      replicationLog := List.forall₂_map_right_iff.mpr
        (List.forall₂_same.mpr fun item _ => Json.sameUpToKeyOrder_sortBy (· ≤ ·) item.value)
      replicationPending := rel_sorted _
      leadership := rel_sorted _ }
  · exact fun later => (hequal.alike.transcript_eq later).symm

/-- The document of a node that survives is printed. -/
lemma Survives.printed {l : Ledger ν} {r : NodeRecords float py.numberText}
    (hsurvives : Survives py float l r) : (document l r).EveryNumber Json.Printable := by
  obtain ⟨text, -, hsave, -⟩ := hsurvives
  exact (save_eq_ok.mp hsave).1

/-- The ledger of a node that survives is restored. -/
lemma Survives.exists_fromSnapshot {l : Ledger ν} {r : NodeRecords float py.numberText}
    (hsurvives : Survives py float l r) (hgenesis : l.genesis = none)
    (h : l.snapshot.document.EveryNumber (Json.NumberReadable float py.numberText)) :
    ∃ l', Ledger.fromSnapshot py { l.snapshot with
      canonicalHistory := l.snapshot.canonicalHistory.sorted } none = .ok l' := by
  obtain ⟨text, loaded, hsave, hload, -⟩ := hsurvives
  obtain rfl := (save_eq_ok.mp hsave).2
  rw [load_content hgenesis h, Option.some.injEq] at hload
  obtain ⟨l', hl', -⟩ := bind_eq_ok.mp hload
  exact ⟨l', hl'⟩

end LedgerStore

end Store

/-! ## Which ledgers survive -/

namespace LedgerStore

variable {py : PyLib JsonNum} {float : String → Option JsonNum} {l : Ledger JsonNum}

/-- The numbers of a ledger with integer amounts are read back. -/
lemma everyNumber_of_whole (h : l.WholeAmounts) (hgenesis : l.genesis = none) :
    l.snapshot.document.EveryNumber (Json.NumberReadable float py.numberText) := by
  have hread : ∀ {v : JsonNum}, Ledger.Whole v → Json.NumberReadable float py.numberText v := by
    intro v hv
    obtain ⟨n, rfl⟩ := hv.exists_ofInt
    exact Json.numberReadable_ofInt py float n
  refine everyNumber_snapshot hgenesis (fun a v hv => hread (h.balances a v hv))
    (fun a v hv => hread (h.locked a v hv)) fun branchId b hb => ?_
  obtain ⟨hvalue, hstake⟩ := h.branches branchId b hb
  exact everyNumber_branch (hread hvalue) (hread hstake) (hread (h.expires branchId b hb))

/-- **A ledger with integer amounts and the invariants survives exactly when its document is printed
and it has no excess.**

**Proof sketch.** All checks of the restore but that of the locked funds follow from the invariants;
truncation does not change the locked funds. -/
theorem survives_iff_excess {base : String} (hinv : l.LockInv) (hrec : l.RecordInv none base)
    (hwhole : l.WholeAmounts) (r : NodeRecords float py.numberText) :
    Survives py float l r ↔
      (document l r).EveryNumber Json.Printable ∧ ∀ a, l.excess a = 0 := by
  have hgenesis := hrec.genesis_eq
  have hnumbers : l.snapshot.document.EveryNumber (Json.NumberReadable float py.numberText) :=
    everyNumber_of_whole hwhole hgenesis
  have hvalid : l.ValidGenesis := fun g hg => by rw [hgenesis] at hg; cases hg
  have htyped : l.BalancesTyped := fun hsome => by rw [hgenesis] at hsome; cases hsome
  have hrestorable : l.reloaded.Restorable py ↔ ∀ a, l.excess a = 0 := by
    rw [Ledger.restorable_reloaded_iff py hinv hrec (fun _ hg => by cases hg)
      fun _ hg => by cases hg]
    simp only [Ledger.WholeFunds.val_locked hwhole.toFundsIn, Ledger.excess, sub_eq_zero]
    exact and_iff_left fun _ _ _ hg => by cases hg
  have hsnapshot := fun l' => Ledger.fromSnapshot_snapshot py (l := l) l' hinv hvalid none
    fun _ hg => by cases hg
  rw [← hrestorable]
  constructor
  · intro hsurvives
    obtain ⟨l', hl'⟩ := hsurvives.exists_fromSnapshot hgenesis hnumbers
    obtain ⟨m, hm⟩ := Ledger.fromSnapshot_of_written py hl'
    exact ⟨hsurvives.printed, ((hsnapshot m).mp hm).1.2⟩
  · rintro ⟨hprinted, hr⟩
    obtain ⟨history, hsame, hwritten⟩ := Ledger.fromSnapshot_written py
      ((hsnapshot l.reloaded).mpr ⟨⟨htyped, hr⟩, rfl⟩)
    exact survives_of_fromSnapshot hgenesis hnumbers r hprinted hwritten
      (hwhole.equal_reloaded hgenesis hsame)

/-- The ledger of `Ledger(balances)`, for integer balances. -/
abbrev plainLedger (py : PyLib JsonNum) (balances : Dict String ℤ) : Ledger JsonNum :=
  Ledger.ofBalances py (balances.mapVal ofInt)

/-- A plain ledger with nonnegative balances is an initial one. -/
lemma initial_plainLedger (py : PyLib JsonNum) {balances : Dict String ℤ}
    (hbalances : ∀ a n, balances.get? a = some n → 0 ≤ n) :
    Ledger.Initial py (plainLedger py balances) := by
  refine .balances _ fun a v hv => ?_
  rw [Dict.get?_mapVal, Option.map_eq_some_iff] at hv
  obtain ⟨n, hn, rfl⟩ := hv
  rw [PyNumber.val_ofInt]
  exact_mod_cast hbalances a n hn

/-- A call whose offered amount and committed payload have no integer of too many digits. Of longer
ones the digests cannot be computed. -/
def Short : Ledger.Call JsonNum → Prop
  | .offer _ _ value _ => Json.Printable value
  | .commit _ _ payload => payload.EveryNumber Json.Printable
  | .register _ | .accept _ _ | .cancel _ _ | .advance _ => True

/-- **Which nodes survive saving and loading.** From nonnegative integer balances and with integer
arguments, all of which can be printed, a node is loaded as it was saved exactly if every number of
the saved document can be printed, and no offer has drawn the identifier of an active branch.

**Proof sketch.** An offer that overwrites an active branch leaves an excess, which never falls
again; all other calls keep the excess zero. -/
theorem survives_iff (py : PyLib JsonNum) (float : String → Option JsonNum)
    (balances : Dict String ℤ)
    (hbalances : ∀ a n, balances.get? a = some n → 0 ≤ n ∧ Json.Printable (JsonNum.int n))
    (calls : List (Ledger.Call JsonNum)) (hcalls : ∀ c ∈ calls, c.Whole ∧ Short c)
    (r : NodeRecords float py.numberText) :
    ∃ l, Transition.run (Ledger.step py) (plainLedger py balances) calls = some l ∧
      (Survives py float l r ↔ (document l r).EveryNumber Json.Printable ∧
        Transition.Meets (Ledger.step py) (Ledger.OverwritesNoActive py) (plainLedger py balances)
          calls) := by
  have hinitial := initial_plainLedger py fun a n hn => (hbalances a n hn).1
  obtain ⟨l, hl, -, hinv⟩ := Ledger.run_lockInv hinitial calls
  have hstart : Ledger.RecordInv none (plainLedger py balances).canonicalDigest
      (plainLedger py balances) := Ledger.recordInv_initial _ nofun
  have hrec : Ledger.RecordInv none (plainLedger py balances).canonicalDigest l :=
    Transition.run_induction (I := Ledger.RecordInv none (plainLedger py balances).canonicalDigest)
      (fun _ _ _ hm hstep => hm.step hstep) hstart hl
  have hwhole : l.WholeAmounts := Ledger.AmountsIn.run Ledger.closed_whole
    (Ledger.WholeAmounts.ofBalances py balances) (fun c hc => (hcalls c hc).1) hl
  refine ⟨l, hl, (survives_iff_excess hinv hrec hwhole r).trans (and_congr_right fun _ => ?_)⟩
  constructor
  · intro hexcess
    have hmeets := (Ledger.run_intact_iff hinitial.lockInv hstart hinitial.excess_eq hl).mp
      ⟨hexcess, nofun⟩
    exact hmeets.mono fun _ _ h => h.1
  · exact fun hmeets => Ledger.run_excess hinitial hmeets hl

/-- No other records. -/
def noRecords (py : PyLib JsonNum) (float : String → Option JsonNum) :
    NodeRecords float py.numberText := ⟨∅, ∅, [], none, none⟩

/-- A node with a replay nonce and a pending record, after an offer. -/
theorem survives_iff_offered :
    let r : NodeRecords (fun _ => none) jsonLib.numberText :=
      ⟨Dict.ofList [("alice", 1)], ∅, [], some ⟨.obj [("nonce", .str "n")], rfl,
        Json.everyObject_obj.mpr ⟨by decide, by rintro _ (_ | ⟨_, ⟨⟩⟩); trivial⟩,
        Json.everyNumber_obj.mpr (by rintro _ (_ | ⟨_, ⟨⟩⟩); trivial)⟩, none⟩
    ∃ l, Transition.run (Ledger.step jsonLib)
        (plainLedger jsonLib (Dict.ofList [("alice", 10), ("bob", 0)]))
        [.offer "alice" "bob" (.int 2) (.int 6)] = some l ∧
      (Survives jsonLib (fun _ => none) l r ↔ (document l r).EveryNumber Json.Printable ∧
        Transition.Meets (Ledger.step jsonLib) (Ledger.OverwritesNoActive jsonLib)
          (plainLedger jsonLib (Dict.ofList [("alice", 10), ("bob", 0)]))
          [.offer "alice" "bob" (.int 2) (.int 6)]) := by
  intro r
  refine survives_iff jsonLib (fun _ => none) _ (fun a n hn => ?_) _ (fun c hc => ?_) r
  · have hall : ∀ e ∈ (Dict.ofList [("alice", (10 : ℤ)), ("bob", 0)]).entries,
        0 ≤ e.2 ∧ Json.Printable (JsonNum.int e.2) := by decide +kernel
    exact hall _ (Dict.get?_eq_some_iff.mp hn)
  · rw [List.mem_singleton.mp hc]
    exact ⟨⟨rfl, rfl⟩, (by decide +kernel : Json.Printable (JsonNum.int 2))⟩

/-- A ledger that starts with a negative balance is saved, and not loaded. -/
theorem not_survives_negative :
    save jsonLib (plainLedger jsonLib (Dict.ofList [("alice", -1)]))
        (noRecords jsonLib fun _ => none) =
      .ok (content jsonLib (plainLedger jsonLib (Dict.ofList [("alice", -1)]))
        (noRecords jsonLib fun _ => none)) ∧
      ¬ Survives jsonLib (fun _ => none) (plainLedger jsonLib (Dict.ofList [("alice", -1)]))
        (noRecords jsonLib fun _ => none) := by
  refine ⟨by decide +kernel, fun hsurvives => ?_⟩
  have hwhole := Ledger.WholeAmounts.ofBalances jsonLib (Dict.ofList [("alice", -1)])
  obtain ⟨l', hl'⟩ := hsurvives.exists_fromSnapshot rfl (everyNumber_of_whole hwhole rfl)
  obtain ⟨hrestorable, hbalances⟩ := Ledger.restorable_of_fromSnapshot hl'
  have halice : l'.balances.get? "alice" = some (.int (-1)) := by
    rw [hbalances]
    rfl
  have hnonneg := hrestorable.balance_nonneg _ _ halice
  exact absurd hnonneg (by decide)

end LedgerStore

end SplitChain
