import Mathlib.Data.List.Sort
import Mathlib.Algebra.BigOperators.Group.List.Basic
import Mathlib.Algebra.Order.BigOperators.Group.List
import Mathlib.Tactic.Abel

set_option relaxedAutoImplicit false
set_option autoImplicit false

/-!
# Insertion-ordered dictionaries

A finite map that remembers the order in which its keys were first inserted: assigning to a
present key keeps its place, assigning to a new key appends it. The keys are distinct by
construction, so that a lookup, a fold over the values and a sum over the values speak about
the same entries.

## Main definitions

* `Dict` — an entry list with distinct keys; `Dict.get?`, `Dict.getD`, `Dict.set`.
* `Dict.sum` — the sum of a function of the entries.
* `Dict.eqvBy` — equality up to the order of the entries.
* `Dict.ofList`, `Dict.sorted`, `Dict.mapVal`, `Dict.filterVal`, `Dict.erase`.

## Main results

* `Dict.get?_set` — an assignment changes one key.
* `Dict.sum_set_of_some`, `Dict.sum_set_of_none` — how an assignment changes a sum.
* `Dict.get?_sorted`, `Dict.sorted_sorted` — sorting keeps the map and is idempotent.
-/

/-- An insertion-ordered dictionary: an entry list whose keys are distinct. -/
structure Dict (κ ν : Type*) where
  /-- The entries, in the order in which their keys were first inserted. -/
  entries : List (κ × ν)
  nodup_keys : (entries.map Prod.fst).Nodup
deriving DecidableEq

namespace Dict

variable {κ ν μ : Type*}

/-! ## Entry lists -/

/-- The value of the first entry with key `k`. -/
def lookup [DecidableEq κ] (k : κ) : List (κ × ν) → Option ν
  | [] => none
  | (k', v) :: es => if k' = k then some v else lookup k es

/-- Overwrite the first entry with key `k`, or append one. -/
def assign [DecidableEq κ] (k : κ) (v : ν) : List (κ × ν) → List (κ × ν)
  | [] => [(k, v)]
  | (k', v') :: es => if k' = k then (k', v) :: es else (k', v') :: assign k v es

section Entries

variable [DecidableEq κ]

/-- An assignment keeps the keys, appending the new one if it was absent. -/
lemma keys_assign (k : κ) (v : ν) (es : List (κ × ν)) :
    (assign k v es).map Prod.fst =
      if k ∈ es.map Prod.fst then es.map Prod.fst else es.map Prod.fst ++ [k] := by
  induction es with
  | nil => simp [assign]
  | cons e es ih =>
    obtain ⟨k', v'⟩ := e
    by_cases h : k' = k
    · simp [assign, h]
    · have h' : ¬ k = k' := fun e => h e.symm
      simp only [assign, h, if_false, List.map_cons, ih, List.mem_cons, h', false_or]
      split_ifs <;> simp

/-- A lookup after an assignment. -/
lemma lookup_assign (k j : κ) (v : ν) (es : List (κ × ν)) :
    lookup j (assign k v es) = if k = j then some v else lookup j es := by
  induction es with
  | nil => simp [assign, lookup]
  | cons e es ih =>
    obtain ⟨k', v'⟩ := e
    by_cases h : k' = k
    · subst h; by_cases hj : k' = j <;> simp [assign, lookup, hj]
    · by_cases hj : k' = j
      · subst hj
        have h' : ¬ k = k' := fun e => h e.symm
        simp [assign, lookup, h, h']
      · simp [assign, lookup, h, hj, ih]

/-- With distinct keys, a lookup finds exactly the entries of the list. -/
lemma lookup_eq_some_iff {es : List (κ × ν)} (hes : (es.map Prod.fst).Nodup) {k : κ} {v : ν} :
    lookup k es = some v ↔ (k, v) ∈ es := by
  induction es with
  | nil => simp [lookup]
  | cons e es ih =>
    obtain ⟨k', v'⟩ := e
    rw [List.map_cons, List.nodup_cons] at hes
    by_cases h : k' = k
    · subst h
      simp only [lookup, if_true, Option.some.injEq, List.mem_cons, Prod.mk.injEq, true_and]
      refine ⟨fun e => .inl e.symm, ?_⟩
      rintro (e | e)
      · exact e.symm
      · exact absurd (List.mem_map_of_mem (f := Prod.fst) e) hes.1
    · have h' : ¬ k = k' := fun e => h e.symm
      simp [lookup, h, h', ih hes.2]

/-- A lookup fails exactly off the keys. -/
lemma lookup_eq_none_iff {es : List (κ × ν)} {k : κ} :
    lookup k es = none ↔ k ∉ es.map Prod.fst := by
  induction es with
  | nil => simp [lookup]
  | cons e es ih =>
    obtain ⟨k', v'⟩ := e
    by_cases h : k' = k
    · simp [lookup, h]
    · have h' : ¬ k = k' := fun e => h e.symm
      simp only [lookup, h, if_false, ih, List.map_cons, List.mem_cons, h', false_or]

/-- The sum over the entries after overwriting a present key. -/
lemma sum_assign_of_some {M : Type*} [AddCommGroup M] (f : κ → ν → M) {k : κ} {v₀ : ν} (v : ν) :
    ∀ {es : List (κ × ν)}, lookup k es = some v₀ →
      ((assign k v es).map fun p => f p.1 p.2).sum =
        (es.map fun p => f p.1 p.2).sum - f k v₀ + f k v := by
  intro es
  induction es with
  | nil => simp [lookup]
  | cons e es ih =>
    obtain ⟨k', v'⟩ := e
    intro hk
    by_cases h : k' = k
    · subst h
      simp only [lookup, if_true, Option.some.injEq] at hk
      subst hk
      simp only [assign, if_true, List.map_cons, List.sum_cons]
      abel
    · simp only [lookup, h, if_false] at hk
      simp only [assign, h, if_false, List.map_cons, List.sum_cons, ih hk]
      abel

/-- The sum over the entries after appending a new key. -/
lemma sum_assign_of_none {M : Type*} [AddCommGroup M] (f : κ → ν → M) {k : κ} (v : ν) :
    ∀ {es : List (κ × ν)}, lookup k es = none →
      ((assign k v es).map fun p => f p.1 p.2).sum =
        (es.map fun p => f p.1 p.2).sum + f k v := by
  intro es
  induction es with
  | nil => simp [assign]
  | cons e es ih =>
    obtain ⟨k', v'⟩ := e
    intro hk
    by_cases h : k' = k
    · simp [lookup, h] at hk
    · simp only [lookup, h, if_false] at hk
      simp only [assign, h, if_false, List.map_cons, List.sum_cons, ih hk]
      abel

end Entries

/-! ## Dictionaries -/

/-- The keys, in insertion order. -/
def keys (d : Dict κ ν) : List κ := d.entries.map Prod.fst

/-- The values, in insertion order. -/
def values (d : Dict κ ν) : List ν := d.entries.map Prod.snd

/-- The number of entries. -/
def size (d : Dict κ ν) : ℕ := d.entries.length

/-- The empty dictionary. -/
def empty : Dict κ ν := ⟨[], by simp⟩

instance : EmptyCollection (Dict κ ν) := ⟨empty⟩

instance : Inhabited (Dict κ ν) := ⟨empty⟩

/-- The sum of `f` over the entries. -/
def sum {M : Type*} [AddCommMonoid M] (d : Dict κ ν) (f : κ → ν → M) : M :=
  (d.entries.map fun p => f p.1 p.2).sum

/-- Apply `f` to every value. -/
def mapVal (f : ν → μ) (d : Dict κ ν) : Dict κ μ :=
  ⟨d.entries.map fun p => (p.1, f p.2), by simpa [Function.comp_def] using d.nodup_keys⟩

/-- Keep the entries whose value satisfies `p`. -/
def filterVal (p : ν → Bool) (d : Dict κ ν) : Dict κ ν :=
  ⟨d.entries.filter fun e => p e.2, d.nodup_keys.sublist (List.filter_sublist.map _)⟩

/-- Remove a key. -/
def erase [DecidableEq κ] (d : Dict κ ν) (k : κ) : Dict κ ν :=
  ⟨d.entries.filter fun e => e.1 ≠ k, d.nodup_keys.sublist (List.filter_sublist.map _)⟩

@[ext] lemma ext {d e : Dict κ ν} (h : d.entries = e.entries) : d = e := by
  cases d; cases e; simpa using h

@[simp] lemma entries_empty : (∅ : Dict κ ν).entries = [] := rfl

lemma size_eq_length_keys (d : Dict κ ν) : d.size = d.keys.length := by simp [size, keys]

@[simp] lemma keys_mapVal (f : ν → μ) (d : Dict κ ν) : (d.mapVal f).keys = d.keys := by
  simp [mapVal, keys, Function.comp_def]

section Lookup

variable [DecidableEq κ]

/-- The value at `k`, if any. -/
def get? (d : Dict κ ν) (k : κ) : Option ν := lookup k d.entries

/-- The value at `k`, or `v` if there is none. -/
def getD (d : Dict κ ν) (k : κ) (v : ν) : ν := (d.get? k).getD v

/-- Whether `k` is a key. -/
def contains (d : Dict κ ν) (k : κ) : Bool := (d.get? k).isSome

/-- Assign `v` to `k`. -/
def set (d : Dict κ ν) (k : κ) (v : ν) : Dict κ ν :=
  ⟨assign k v d.entries, by
    have h := d.nodup_keys
    rw [keys_assign]
    split_ifs with hk
    · exact h
    · exact List.nodup_append.mpr ⟨h, by simp, by
        intro a ha b hb
        rw [List.mem_singleton] at hb
        rintro rfl
        exact hk (hb ▸ ha)⟩⟩

/-- Equality of dictionaries up to the order of the entries, values compared by `r`. -/
def eqvBy (r : ν → μ → Bool) (d : Dict κ ν) (e : Dict κ μ) : Bool :=
  d.size == e.size && d.entries.all fun p => (e.get? p.1).any (r p.2)

/-- The dictionary built by assigning the entries of a list from left to right. -/
def ofList (es : List (κ × ν)) : Dict κ ν := es.foldl (fun d p => d.set p.1 p.2) ∅

/-- `{**d, **e}` -/
def update (d e : Dict κ ν) : Dict κ ν := e.entries.foldl (fun d p => d.set p.1 p.2) d

@[simp] lemma get?_empty (k : κ) : (∅ : Dict κ ν).get? k = none := rfl

/-- A lookup after an assignment. -/
lemma get?_set (d : Dict κ ν) (k j : κ) (v : ν) :
    (d.set k v).get? j = if k = j then some v else d.get? j := lookup_assign k j v d.entries

@[simp] lemma get?_set_self (d : Dict κ ν) (k : κ) (v : ν) : (d.set k v).get? k = some v := by
  simp [get?_set]

lemma get?_set_of_ne (d : Dict κ ν) {k j : κ} (v : ν) (h : k ≠ j) :
    (d.set k v).get? j = d.get? j := by simp [get?_set, h]

/-- A defaulted lookup after an assignment. -/
lemma getD_set (d : Dict κ ν) (k j : κ) (v w : ν) :
    (d.set k v).getD j w = if k = j then v else d.getD j w := by
  unfold getD; rw [get?_set]; split_ifs <;> rfl

/-- A lookup finds exactly the entries. -/
lemma get?_eq_some_iff {d : Dict κ ν} {k : κ} {v : ν} :
    d.get? k = some v ↔ (k, v) ∈ d.entries := lookup_eq_some_iff d.nodup_keys

/-- A lookup fails exactly off the keys. -/
lemma get?_eq_none_iff {d : Dict κ ν} {k : κ} : d.get? k = none ↔ k ∉ d.keys :=
  lookup_eq_none_iff

lemma contains_iff {d : Dict κ ν} {k : κ} : d.contains k = true ↔ ∃ v, d.get? k = some v :=
  Option.isSome_iff_exists

/-- A key is present exactly when its lookup succeeds. -/
lemma mem_keys_iff {d : Dict κ ν} {k : κ} : k ∈ d.keys ↔ ∃ v, d.get? k = some v := by
  rw [← Option.ne_none_iff_exists', ne_eq, get?_eq_none_iff, not_not]

/-- A value is present exactly when some lookup returns it. -/
lemma mem_values_iff {d : Dict κ ν} {v : ν} : v ∈ d.values ↔ ∃ k, d.get? k = some v := by
  simp only [values, List.mem_map, Prod.exists, get?_eq_some_iff]
  exact ⟨fun ⟨k, _, h, e⟩ => ⟨k, e ▸ h⟩, fun ⟨k, h⟩ => ⟨k, v, h, rfl⟩⟩

/-- The keys after an assignment. -/
lemma keys_set (d : Dict κ ν) (k : κ) (v : ν) :
    (d.set k v).keys = if k ∈ d.keys then d.keys else d.keys ++ [k] := keys_assign k v d.entries

/-- Overwriting a present key keeps the keys. -/
lemma keys_set_of_some {d : Dict κ ν} {k : κ} {v₀ : ν} (v : ν) (h : d.get? k = some v₀) :
    (d.set k v).keys = d.keys := by
  rw [keys_set, if_pos (mem_keys_iff.mpr ⟨v₀, h⟩)]

/-- Assigning to a new key adds one entry. -/
lemma size_set_of_none {d : Dict κ ν} {k : κ} (v : ν) (h : d.get? k = none) :
    (d.set k v).size = d.size + 1 := by
  have hk := congrArg List.length (keys_set d k v)
  rw [if_neg (get?_eq_none_iff.mp h)] at hk
  simpa [keys, size] using hk

/-- Assigning to a present key keeps the number of entries. -/
lemma size_set_of_some {d : Dict κ ν} {k : κ} {v₀ : ν} (v : ν) (h : d.get? k = some v₀) :
    (d.set k v).size = d.size := by
  have hk := congrArg List.length (keys_set d k v)
  rw [if_pos (mem_keys_iff.mpr ⟨v₀, h⟩)] at hk
  simpa [keys, size] using hk

/-- The entry list after assigning to a new key. -/
lemma entries_set_of_none {d : Dict κ ν} {k : κ} (v : ν) (h : d.get? k = none) :
    (d.set k v).entries = d.entries ++ [(k, v)] := by
  have key : ∀ es : List (κ × ν), lookup k es = none → assign k v es = es ++ [(k, v)] := by
    intro es
    induction es with
    | nil => intro _; rfl
    | cons e es ih =>
      obtain ⟨k', v'⟩ := e
      intro hk
      by_cases h : k' = k
      · simp [lookup, h] at hk
      · simp only [lookup, h, if_false] at hk
        simp [assign, h, ih hk]
  exact key d.entries h

/-- The sum over the entries after overwriting a present key. -/
lemma sum_set_of_some {M : Type*} [AddCommGroup M] (f : κ → ν → M) {d : Dict κ ν} {k : κ}
    {v₀ : ν} (v : ν) (h : d.get? k = some v₀) :
    (d.set k v).sum f = d.sum f - f k v₀ + f k v := sum_assign_of_some f v h

/-- The sum over the entries after appending a new key. -/
lemma sum_set_of_none {M : Type*} [AddCommGroup M] (f : κ → ν → M) {d : Dict κ ν} {k : κ}
    (v : ν) (h : d.get? k = none) : (d.set k v).sum f = d.sum f + f k v :=
  sum_assign_of_none f v h

/-- Summing two functions that agree on the entries. -/
lemma sum_congr {M : Type*} [AddCommMonoid M] {d : Dict κ ν} {f g : κ → ν → M}
    (h : ∀ k v, d.get? k = some v → f k v = g k v) : d.sum f = d.sum g := by
  unfold sum
  congr 1
  exact List.map_congr_left fun p hp => h p.1 p.2 (get?_eq_some_iff.mpr hp)

/-- A sum of nonnegative terms is nonnegative. -/
lemma sum_nonneg {M : Type*} [AddCommMonoid M] [PartialOrder M] [IsOrderedAddMonoid M]
    {d : Dict κ ν} {f : κ → ν → M} (h : ∀ k v, d.get? k = some v → 0 ≤ f k v) : 0 ≤ d.sum f := by
  refine List.sum_nonneg fun x hx => ?_
  obtain ⟨p, hp, rfl⟩ := List.mem_map.mp hx
  exact h p.1 p.2 (get?_eq_some_iff.mpr hp)

/-- One term of a sum of nonnegative terms is at most the sum. -/
lemma single_le_sum {M : Type*} [AddCommMonoid M] [PartialOrder M] [IsOrderedAddMonoid M]
    {d : Dict κ ν} {f : κ → ν → M} (h : ∀ k v, d.get? k = some v → 0 ≤ f k v) {k : κ} {v : ν}
    (hk : d.get? k = some v) : f k v ≤ d.sum f := by
  refine List.single_le_sum (fun x hx => ?_) _
    (List.mem_map.mpr ⟨(k, v), get?_eq_some_iff.mp hk, rfl⟩)
  obtain ⟨p, hp, rfl⟩ := List.mem_map.mp hx
  exact h p.1 p.2 (get?_eq_some_iff.mpr hp)

/-- A lookup in a mapped dictionary. -/
lemma get?_mapVal (f : ν → μ) (d : Dict κ ν) (k : κ) :
    (d.mapVal f).get? k = (d.get? k).map f := by
  have key : ∀ es : List (κ × ν), lookup k (es.map fun p => (p.1, f p.2)) = (lookup k es).map f := by
    intro es
    induction es with
    | nil => rfl
    | cons e es ih =>
      by_cases h : e.1 = k <;> simp [lookup, h, ih]
  exact key d.entries

omit [DecidableEq κ] in
/-- Mapping the values twice. -/
@[simp] lemma mapVal_mapVal {ξ : Type*} (f : ν → μ) (g : μ → ξ) (d : Dict κ ν) :
    (d.mapVal f).mapVal g = d.mapVal fun v => g (f v) := by
  refine ext ?_
  simp [mapVal]

/-- Maps that agree on the values. -/
lemma mapVal_congr {f g : ν → μ} {d : Dict κ ν} (h : ∀ k v, d.get? k = some v → f v = g v) :
    d.mapVal f = d.mapVal g := by
  refine ext (List.map_congr_left fun p hp => ?_)
  rw [h p.1 p.2 (get?_eq_some_iff.mpr hp)]

/-- A lookup in a filtered dictionary. -/
lemma get?_filterVal (p : ν → Bool) (d : Dict κ ν) (k : κ) :
    (d.filterVal p).get? k = (d.get? k).filter p := by
  refine Option.ext fun v => ?_
  rw [get?_eq_some_iff, Option.filter_eq_some_iff, get?_eq_some_iff]
  simp [filterVal]

/-- A lookup after a key is removed. -/
lemma get?_erase (d : Dict κ ν) (k j : κ) :
    (d.erase k).get? j = if k = j then none else d.get? j := by
  refine Option.ext fun v => ?_
  by_cases h : k = j
  · subst h
    simp [get?_eq_some_iff, erase]
  · have hne : ¬j = k := fun e => h e.symm
    simp [get?_eq_some_iff, erase, h, hne]

/-- Two dictionaries are equal up to order exactly when every lookup fails in both or yields
related values.

**Proof sketch.** The entries of the first are among those of the second, so its keys are a
sublist up to permutation of the second's; the sizes agree, so the key sets do. -/
lemma eqvBy_iff {r : ν → μ → Bool} {d : Dict κ ν} {e : Dict κ μ} :
    d.eqvBy r e = true ↔ ∀ k, Option.Rel (fun v w => r v w = true) (d.get? k) (e.get? k) := by
  simp only [eqvBy, Bool.and_eq_true, beq_iff_eq, List.all_eq_true, Prod.forall,
    ← get?_eq_some_iff, Option.any_eq_true]
  have hsize : d.size = d.keys.length ∧ e.size = e.keys.length := by simp [size, keys]
  constructor
  · rintro ⟨hlen, h⟩ k
    have hsub : d.keys ⊆ e.keys := by
      intro j hj
      obtain ⟨v, hv⟩ := mem_keys_iff.mp hj
      obtain ⟨w, hw, -⟩ := h j v hv
      exact mem_keys_iff.mpr ⟨w, hw⟩
    have hnodup : d.keys.Nodup := d.nodup_keys
    have hperm : d.keys.Perm e.keys :=
      (List.subperm_of_subset hnodup hsub).perm_of_length_le (by omega)
    cases hd : d.get? k with
    | some v =>
      obtain ⟨w, hw, hr⟩ := h k v hd
      rw [hw]; exact .some hr
    | none =>
      have : e.get? k = none :=
        get?_eq_none_iff.mpr fun hk => get?_eq_none_iff.mp hd (hperm.mem_iff.mpr hk)
      rw [this]; exact .none
  · intro h
    have hkeys : ∀ k, k ∈ d.keys ↔ k ∈ e.keys := by
      intro k
      rw [mem_keys_iff, mem_keys_iff]
      have hk := h k
      cases hd : d.get? k <;> cases he : e.get? k <;> rw [hd, he] at hk <;> simp_all
    refine ⟨?_, fun k v hv => ?_⟩
    · rw [hsize.1, hsize.2]
      exact ((List.perm_ext_iff_of_nodup d.nodup_keys e.nodup_keys).mpr hkeys).length_eq
    · have hk := h k
      rw [hv] at hk
      cases he : e.get? k with
      | none => rw [he] at hk; cases hk
      | some w => rw [he] at hk; cases hk with | some hr => exact ⟨w, rfl, hr⟩

/-- Later assignments to other keys do not change what is found. -/
lemma get?_foldl_set {es : List (κ × ν)} {k : κ} (h : k ∉ es.map Prod.fst) (d : Dict κ ν) :
    (es.foldl (fun d p => d.set p.1 p.2) d).get? k = d.get? k := by
  induction es generalizing d with
  | nil => rfl
  | cons e es ih =>
    rw [List.map_cons, List.mem_cons, not_or] at h
    exact (ih h.2 _).trans (get?_set_of_ne d e.2 fun he => h.1 he.symm)

/-- The last entry with a key is the one that is found. -/
lemma get?_ofList_append {es fs : List (κ × ν)} {k : κ} (v : ν) (h : k ∉ fs.map Prod.fst) :
    (ofList (es ++ (k, v) :: fs)).get? k = some v := by
  rw [ofList, List.foldl_append, List.foldl_cons, get?_foldl_set h, get?_set_self]

/-- A dictionary that holds just the pairs of a list has them for entries, in some order. -/
lemma entries_perm {d : Dict κ ν} {es : List (κ × ν)} (hes : es.Nodup)
    (h : ∀ k v, d.get? k = some v ↔ (k, v) ∈ es) : d.entries.Perm es := by
  have hentries : d.entries.Nodup := List.Nodup.of_map Prod.fst d.nodup_keys
  refine (List.perm_ext_iff_of_nodup hentries hes).mpr fun p => ?_
  rw [← h p.1 p.2, get?_eq_some_iff]

/-- An updated dictionary has the newer values. -/
lemma get?_update (d e : Dict κ ν) (k : κ) : (d.update e).get? k = (e.get? k).or (d.get? k) := by
  cases he : e.get? k with
  | none => exact get?_foldl_set (get?_eq_none_iff.mp he) d
  | some v =>
    obtain ⟨before, after, hsplit⟩ := List.append_of_mem (get?_eq_some_iff.mp he)
    have hnot : k ∉ after.map Prod.fst := by
      have hnodup := e.nodup_keys
      rw [hsplit, List.map_append, List.map_cons] at hnodup
      exact (List.nodup_cons.mp (List.nodup_append.mp hnodup).2.1).1
    rw [update, hsplit, List.foldl_append, List.foldl_cons, get?_foldl_set hnot, get?_set_self]
    rfl

/-- A list with distinct keys is the entry list of its dictionary. -/
lemma entries_ofList {es : List (κ × ν)} (h : (es.map Prod.fst).Nodup) :
    (ofList es).entries = es := by
  have key : ∀ (es : List (κ × ν)) (d : Dict κ ν), (d.keys ++ es.map Prod.fst).Nodup →
      (es.foldl (fun d p => d.set p.1 p.2) d).entries = d.entries ++ es := by
    intro es
    induction es with
    | nil => intro d _; simp
    | cons e es ih =>
      intro d hd
      obtain ⟨k, v⟩ := e
      rw [List.map_cons] at hd
      have hk : d.get? k = none := get?_eq_none_iff.mpr fun hmem =>
        (List.nodup_append.mp hd).2.2 k hmem k (by simp) rfl
      have hkeys : (d.set k v).keys = d.keys ++ [k] := by
        rw [keys_set, if_neg (get?_eq_none_iff.mp hk)]
      rw [List.foldl_cons, ih _ (by rw [hkeys]; simpa using hd), entries_set_of_none v hk]
      simp
  exact key es ∅ (by simpa [keys] using h)

end Lookup

/-! ## Sorting by key -/

section Sorted

variable [LinearOrder κ]

/-- The entries sorted by key. -/
def sorted (d : Dict κ ν) : Dict κ ν :=
  ⟨d.entries.insertionSort fun a b => a.1 ≤ b.1,
    ((List.perm_insertionSort _ d.entries).map Prod.fst).nodup_iff.mpr d.nodup_keys⟩

/-- Sorting permutes the entries. -/
lemma entries_sorted_perm (d : Dict κ ν) : d.sorted.entries.Perm d.entries :=
  List.perm_insertionSort _ _

/-- Sorting does not change the map. -/
@[simp] lemma get?_sorted (d : Dict κ ν) (k : κ) : d.sorted.get? k = d.get? k := by
  refine Option.ext fun v => ?_
  rw [get?_eq_some_iff, get?_eq_some_iff, (entries_sorted_perm d).mem_iff]

/-- Sorting does not change sums. -/
@[simp] lemma sum_sorted {M : Type*} [AddCommMonoid M] (d : Dict κ ν) (f : κ → ν → M) :
    d.sorted.sum f = d.sum f := ((entries_sorted_perm d).map _).sum_eq

/-- The sorted entries are in key order. -/
lemma pairwise_sorted (d : Dict κ ν) : d.sorted.entries.Pairwise fun a b => a.1 ≤ b.1 := by
  have : Std.Total fun a b : κ × ν => a.1 ≤ b.1 := ⟨fun a b => le_total a.1 b.1⟩
  have : IsTrans (κ × ν) fun a b => a.1 ≤ b.1 := ⟨fun a b c => le_trans⟩
  exact List.pairwise_insertionSort _ _

/-- Sorting is idempotent. -/
@[simp] lemma sorted_sorted (d : Dict κ ν) : d.sorted.sorted = d.sorted :=
  ext (pairwise_sorted d).insertionSort_eq

/-- Dictionaries with the same map are the same, once they are sorted. -/
lemma sorted_congr {d e : Dict κ ν} (h : ∀ k, d.get? k = e.get? k) : d.sorted = e.sorted := by
  have hmem : ∀ p, p ∈ d.sorted.entries ↔ p ∈ e.sorted.entries := by
    rintro ⟨k, v⟩
    rw [← get?_eq_some_iff, ← get?_eq_some_iff, get?_sorted, get?_sorted, h]
  have hperm : d.sorted.entries.Perm e.sorted.entries :=
    (List.perm_ext_iff_of_nodup (d.sorted.nodup_keys.of_map _) (e.sorted.nodup_keys.of_map _)).mpr
      fun p => hmem p
  refine ext (hperm.eq_of_pairwise ?_ (pairwise_sorted d) (pairwise_sorted e))
  rintro ⟨k, v⟩ ⟨k', w⟩ hv hw hle hge
  obtain rfl : k = k' := le_antisymm hle hge
  have hv' := get?_eq_some_iff.mpr ((hmem _).mp hv)
  rw [get?_eq_some_iff.mpr hw, Option.some.injEq] at hv'
  rw [hv']

/-- Changing the values keeps the key order. -/
lemma sorted_mapVal_sorted {μ : Type*} (d : Dict κ ν) (f : ν → μ) :
    (d.sorted.mapVal f).sorted = d.sorted.mapVal f := by
  refine ext (List.Pairwise.insertionSort_eq ?_)
  exact List.pairwise_map.mpr (pairwise_sorted d)

end Sorted

end Dict
