import SplitChain.Library.Raise
import SplitChain.Python.Json

set_option relaxedAutoImplicit false
set_option autoImplicit false

/-!
# Protocol digests and genesis configurations

`protocol_digest` hashes canonical JSON behind an explicit domain separator, and
`GenesisConfig.from_dict` is the only way a genesis configuration enters the program: it checks
the document it is given and normalises the order of the locked accounts.

## Main definitions

* `SplitChain.HashDomain`, `SplitChain.protocolDigest`.
* `SplitChain.GenesisConfig` — network, supply cap, allocations and locked accounts, with
  `GenesisConfig.fromDict`, `GenesisConfig.publicForm` and `GenesisConfig.digest`.

## Main results

* `SplitChain.GenesisConfig.fromDict_valid` — an accepted configuration is well formed.
* `SplitChain.GenesisConfig.fromDict_publicForm` — an accepted configuration is accepted again from
  its public form, up to the order of its allocations.
-/

namespace SplitChain

open Raise

variable {ν : Type} [PyNumber ν]

/-! ## Digests -/

/-- A hash domain: nonempty and free of the separator. -/
structure HashDomain where
  text : String
  nonempty : text ≠ ""
  noSeparator : '\x00' ∉ text.toList

/-- The bytes hashed for a value in a domain: `ASCII(domain) || 0x00 || canonical_json(value)`. -/
def digestInput (py : PyLib ν) (domain : HashDomain) (value : Json ν) : List UInt8 :=
  encodeUtf8 domain.text.toList ++ 0 :: canonicalJson py value

/-- Hash canonical data with an explicit protocol domain separator. -/
def protocolDigest (py : PyLib ν) (domain : HashDomain) (value : Json ν) : String :=
  py.sha256 (digestInput py domain value)

/-- The domain of plain genesis balances. -/
def HashDomain.canonicalGenesisV1 : HashDomain :=
  ⟨"splitchain/canonical-genesis/v1", by decide, by decide⟩

/-- The domain of genesis configurations. -/
def HashDomain.canonicalGenesisV2 : HashDomain :=
  ⟨"splitchain/canonical-genesis/v2", by decide, by decide⟩

/-- The domain of canonical blocks. -/
def HashDomain.canonicalBlock : HashDomain :=
  ⟨"splitchain/canonical-block/v1", by decide, by decide⟩

/-- The domain of branch identifiers. -/
def HashDomain.branchId : HashDomain := ⟨"splitchain/branch-id/v1", by decide, by decide⟩

/-- The domain of transaction commitments. -/
def HashDomain.txCommit : HashDomain := ⟨"splitchain/tx-commit/v1", by decide, by decide⟩

/-! ## Genesis configurations -/

/-- The initial state of a network. -/
structure GenesisConfig where
  networkId : String
  maxSupply : ℤ
  allocations : Dict String ℤ
  lockedAccounts : List String
deriving DecidableEq

namespace GenesisConfig

/-- Whether a network id is made of ASCII letters, digits, `-` and `_`, and is neither empty nor
longer than 64 characters. -/
def validNetworkId (network : String) : Bool :=
  network ≠ "" && network.length ≤ 64 &&
    network.toList.all fun c => (c.toNat < 128 && c.isAlphanum) || c = '-' || c = '_'

/-- The keys of a genesis document. -/
def schemaKeys : List String :=
  ["schema", "network_id", "max_supply", "allocations", "locked_accounts"]

/-- Whether a document is an object with exactly the keys of the genesis schema, naming it. -/
def validSchema (d : Dict String (Json ν)) : Bool :=
  d.size == schemaKeys.length && schemaKeys.all (fun k => d.contains k) &&
    ((d.get? "schema").bind Json.str? == some "splitchain-genesis/v1")

/-- The allocations, if every account is named and every amount is a nonnegative integer. -/
def allocations? (d : Dict String (Json ν)) : Option (Dict String ℤ) :=
  if d.entries.all fun p => p.1 ≠ "" && (Json.int? p.2).any (0 ≤ ·) then
    some (d.mapVal fun v => (Json.int? v).getD 0)
  else none

/-- Read a genesis configuration, checking everything the ledger relies on. -/
def fromDict (raw : Json ν) : Except PyError GenesisConfig := do
  let d ← orRaise (raw.dict?.filter validSchema) (.protocol "invalid genesis schema")
  let network ← orRaise (((d.get? "network_id").bind Json.str?).filter validNetworkId)
    (.protocol "invalid network id")
  let cap ← orRaise (((d.get? "max_supply").bind Json.int?).filter (0 < ·))
    (.protocol "invalid genesis supply")
  let accounts ← orRaise (((d.get? "allocations").bind Json.dict?).filter (0 < ·.size))
    (.protocol "invalid genesis supply")
  let allocations ← orRaise ((allocations? accounts).filter (·.sum (fun _ v => v) ≤ cap))
    (.protocol "invalid genesis allocation")
  let locked ← orRaise ((d.get? "locked_accounts").bind Json.arr?) (.protocol "invalid locked accounts")
  -- `set(locked)` needs hashable elements
  require (locked.all Json.hashable) .type
  let names ← orRaise ((locked.mapM Json.str?).filter fun names =>
      decide names.Nodup && names.all (fun k => allocations.contains k))
    (.protocol "invalid locked accounts")
  return ⟨network, cap, allocations, names.insertionSort (· ≤ ·)⟩

/-- The published form of a configuration. -/
def publicForm (g : GenesisConfig) : Json ν :=
  .obj [("schema", .str "splitchain-genesis/v1"), ("network_id", .str g.networkId),
    ("max_supply", .num (PyNumber.ofInt g.maxSupply)),
    ("allocations", .obj (g.allocations.sorted.entries.map
      fun p => (p.1, .num (PyNumber.ofInt p.2)))),
    ("locked_accounts", .arr (g.lockedAccounts.map .str))]

/-- The digest that identifies a network. -/
def digest (py : PyLib ν) (g : GenesisConfig) : String :=
  protocolDigest py .canonicalGenesisV2 g.publicForm

/-- Equality of configurations: the order of the allocations is immaterial. -/
def eqv (g h : GenesisConfig) : Bool :=
  g.networkId == h.networkId && g.maxSupply == h.maxSupply &&
    g.allocations.eqvBy (· == ·) h.allocations && g.lockedAccounts == h.lockedAccounts

/-! ### What `fromDict` accepts -/

/-- What holds of every accepted configuration. -/
structure Valid (g : GenesisConfig) : Prop where
  networkId : validNetworkId g.networkId = true
  maxSupply : 0 < g.maxSupply
  nonempty : 0 < g.allocations.size
  named : ∀ k v, g.allocations.get? k = some v → k ≠ "" ∧ 0 ≤ v
  supply : g.allocations.sum (fun _ v => v) ≤ g.maxSupply
  locked_nodup : g.lockedAccounts.Nodup
  locked_sorted : g.lockedAccounts.Pairwise (· ≤ ·)
  locked_mem : ∀ k ∈ g.lockedAccounts, g.allocations.contains k = true

/-- The allocations read from a document name every account and are nonnegative. -/
lemma named_of_allocations? {d : Dict String (Json ν)} {a : Dict String ℤ}
    (h : allocations? d = some a) : ∀ k v, a.get? k = some v → k ≠ "" ∧ 0 ≤ v := by
  unfold allocations? at h
  split_ifs at h with hall
  simp only [Option.some.injEq] at h
  subst h
  intro k v hv
  rw [Dict.get?_mapVal, Option.map_eq_some_iff] at hv
  obtain ⟨x, hx, rfl⟩ := hv
  have := List.all_eq_true.mp hall (k, x) (Dict.get?_eq_some_iff.mp hx)
  simp only [Bool.and_eq_true, decide_eq_true_eq, Option.any_eq_true] at this
  obtain ⟨hk, n, hn, h0⟩ := this
  exact ⟨hk, by simpa [hn] using h0⟩

/-- Reading the allocations keeps the number of entries. -/
lemma size_of_allocations? {d : Dict String (Json ν)} {a : Dict String ℤ}
    (h : allocations? d = some a) : a.size = d.size := by
  unfold allocations? at h
  split_ifs at h
  simp only [Option.some.injEq] at h
  subst h
  simp [Dict.size, Dict.mapVal]

/-- **An accepted configuration is well formed.**

**Proof sketch.** Each guard of `fromDict` is one field of `Valid`; sorting the locked accounts
permutes them. -/
theorem fromDict_valid {raw : Json ν} {g : GenesisConfig} (h : fromDict raw = .ok g) :
    g.Valid := by
  unfold fromDict at h
  simp only [bind_eq_ok, orRaise_eq_ok, require_eq_ok, pure_eq_ok, Option.filter_eq_some_iff,
    Bool.and_eq_true, decide_eq_true_eq, List.all_eq_true] at h
  obtain ⟨d, -, network, ⟨-, hnet⟩, cap, ⟨-, hcap⟩, accounts, ⟨-, hsize⟩, allocations,
    ⟨halloc, hsum⟩, locked, -, -, -, names, ⟨-, hnodup, hmem⟩, rfl⟩ := h
  exact {
    networkId := hnet
    maxSupply := hcap
    nonempty := by rw [size_of_allocations? halloc]; exact hsize
    named := named_of_allocations? halloc
    supply := hsum
    locked_nodup := (List.perm_insertionSort _ names).nodup_iff.mpr hnodup
    locked_sorted := List.pairwise_insertionSort _ names
    locked_mem := fun k hk => hmem k ((List.mem_insertionSort _).mp hk) }

/-- The published form as a dictionary. -/
lemma dict?_publicForm (g : GenesisConfig) :
    (g.publicForm : Json ν).dict? = some ⟨[("schema", .str "splitchain-genesis/v1"),
      ("network_id", .str g.networkId), ("max_supply", .num (PyNumber.ofInt g.maxSupply)),
      ("allocations", .obj (g.allocations.sorted.entries.map
        fun p => (p.1, .num (PyNumber.ofInt p.2)))),
      ("locked_accounts", .arr (g.lockedAccounts.map .str))], by simp⟩ := by
  simp only [publicForm, Json.dict?, Option.some.injEq]
  exact Dict.ext (Dict.entries_ofList (by simp))

/-- The published allocations as a dictionary of numbers. -/
lemma dict?_allocations (a : Dict String ℤ) :
    (Json.obj (a.entries.map fun p => (p.1, .num (PyNumber.ofInt p.2))) : Json ν).dict? =
      some (a.mapVal fun n => .num (PyNumber.ofInt n)) := by
  simp only [Json.dict?, Option.some.injEq]
  exact Dict.ext (Dict.entries_ofList (by simpa [Function.comp_def] using a.nodup_keys))

/-- Reading published allocations gives them back. -/
lemma allocations?_mapVal {a : Dict String ℤ} (h : ∀ k v, a.get? k = some v → k ≠ "" ∧ 0 ≤ v) :
    allocations? (ν := ν) (a.mapVal fun n => .num (PyNumber.ofInt n)) = some a := by
  unfold allocations?
  rw [if_pos]
  · simp [Dict.mapVal, Json.int?, Function.comp_def]
  · simp only [List.all_eq_true, Bool.and_eq_true, decide_eq_true_eq, Dict.mapVal, List.mem_map]
    rintro _ ⟨⟨k, v⟩, hp, rfl⟩
    obtain ⟨hk, hv⟩ := h k v (Dict.get?_eq_some_iff.mpr hp)
    exact ⟨hk, by simpa [Json.int?] using hv⟩

omit [PyNumber ν] in
/-- Reading published account names gives them back. -/
lemma mapM_str? (names : List String) :
    (names.map (Json.str (ν := ν))).mapM Json.str? = some names := by
  induction names with
  | nil => rfl
  | cons k ks ih => simp [List.mapM_cons, ih, Json.str?]

/-- **The published form of a well-formed configuration is accepted**, and read back with its
allocations in key order. -/
theorem fromDict_publicForm {g : GenesisConfig} (h : g.Valid) :
    fromDict (g.publicForm : Json ν) = .ok { g with allocations := g.allocations.sorted } := by
  have hnamed : ∀ k v, g.allocations.sorted.get? k = some v → k ≠ "" ∧ 0 ≤ v := by
    intro k v hk
    exact h.named k v (by simpa using hk)
  have hcontains : ∀ k, g.allocations.sorted.contains k = g.allocations.contains k := by
    intro k; simp [Dict.contains]
  have hsize : g.allocations.sorted.size = g.allocations.size :=
    (Dict.entries_sorted_perm _).length_eq
  unfold fromDict
  simp only [bind_eq_ok, orRaise_eq_ok, require_eq_ok, pure_eq_ok, Option.filter_eq_some_iff,
    Bool.and_eq_true, decide_eq_true_eq, List.all_eq_true, dict?_publicForm]
  refine ⟨_, ⟨rfl, rfl⟩, g.networkId, ⟨rfl, h.networkId⟩, g.maxSupply, ⟨?_, h.maxSupply⟩,
    _, ⟨dict?_allocations g.allocations.sorted, ?_⟩, g.allocations.sorted,
    ⟨allocations?_mapVal hnamed, by rw [Dict.sum_sorted]; exact h.supply⟩,
    g.lockedAccounts.map .str, rfl, (), ?_, g.lockedAccounts,
    ⟨mapM_str? _, h.locked_nodup, fun k hk => by rw [hcontains]; exact h.locked_mem k hk⟩, ?_⟩
  · simp [Dict.get?, Dict.lookup, Json.int?]
  · have hpos := h.nonempty
    rw [← hsize] at hpos
    simpa [Dict.mapVal, Dict.size] using hpos
  · intro x hx
    obtain ⟨k, -, rfl⟩ := List.mem_map.mp hx
    rfl
  · rw [h.locked_sorted.insertionSort_eq]

end GenesisConfig

end SplitChain
