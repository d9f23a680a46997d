import SplitChain.Model.Alike
import SplitChain.Model.Amounts
import SplitChain.Model.NodeRuns
import SplitChain.Model.Runs

set_option relaxedAutoImplicit false
set_option autoImplicit false

/-!
# The ledgers of a node

A node has two ledgers, the one in memory and the one in its file, and it reads the second one back
when it is started again. Whatever calls keep and a reload keeps holds of both, after every run. The
invariants of funds and records are such properties, and with them a reload says what it returns:
the ledger it has been taken from, in another order and with truncated amounts.

## Main definitions

* `SplitChain.Ledger.Sane` — the invariants of funds and records.
* `SplitChain.Ledger.Steady` — the invariants of a ledger whose amounts are no floats.
* `SplitChain.ReferenceNode.Ledgers` — a property of both ledgers of a node.

## Main results

* `SplitChain.Ledger.Sane.fromSnapshot`, `SplitChain.Ledger.Sane.alike` — what a reload returns.
* `SplitChain.ReferenceNode.Ledgers.step` — properties that calls and reloads keep.
-/

namespace SplitChain

open Raise

open PyNumber (val ofInt trunc)

variable {ν : Type} [PyNumber ν]

/-- Sorting the allocations keeps a configuration well formed. -/
lemma GenesisConfig.Valid.sorted {g : GenesisConfig} (h : g.Valid) :
    GenesisConfig.Valid { g with allocations := g.allocations.sorted } where
  networkId := h.networkId
  maxSupply := h.maxSupply
  nonempty := h.nonempty.trans_eq (Dict.entries_sorted_perm g.allocations).length_eq.symm
  named k v hk := h.named k v (by simpa using hk)
  supply := by rw [Dict.sum_sorted]; exact h.supply
  locked_nodup := h.locked_nodup
  locked_sorted := h.locked_sorted
  locked_mem k hk := by
    rw [Dict.contains, Dict.get?_sorted]
    exact h.locked_mem k hk

namespace Ledger

/-! ## One ledger -/

/-- **The invariants of funds and records** of a ledger on a network that was accepted. -/
structure Sane (py : PyLib ν) (l : Ledger ν) : Prop where
  lock : LockInv l
  record : ∃ genesis base, RecordInv genesis base l ∧
    ∀ g, genesis = some g → g.Valid ∧ base = g.digest py

/-- An initial ledger is sane. -/
lemma Initial.sane {py : PyLib ν} {l : Ledger ν} (h : Initial py l) : Sane py l := by
  refine ⟨h.lockInv, ?_⟩
  cases h with
  | balances balances _ =>
    refine ⟨none, _, recordInv_initial _ fun a ha => ?_, fun _ hg => by cases hg⟩
    simp [isLocked, initial] at ha
  | genesis raw g accepted =>
    have hvalid := GenesisConfig.fromDict_valid accepted
    exact ⟨some g, _, recordInv_ofGenesis py hvalid, fun _ hg => by cases hg; exact ⟨hvalid, rfl⟩⟩

namespace Sane

variable {py : PyLib ν} {l l' : Ledger ν} {expected : Option GenesisConfig}

/-- A call keeps a ledger sane. -/
lemma call (h : Sane py l) {c : Call ν} (hc : l.call py c = .ok l') : Sane py l' := by
  obtain ⟨genesis, base, hrecord, hvalid⟩ := h.record
  exact ⟨h.lock.call hc, genesis, base, hrecord.call hc, hvalid⟩

lemma validGenesis (h : Sane py l) : l.ValidGenesis := by
  obtain ⟨genesis, base, hrecord, hvalid⟩ := h.record
  exact fun g hg => (hvalid g (hrecord.genesis_eq ▸ hg)).1

/-- A snapshot that is restored for a network is restored without looking at the network. -/
lemma fromSnapshot_none {s : Snapshot ν} (h : Ledger.fromSnapshot py s expected = .ok l') :
    Ledger.fromSnapshot py s none = .ok l' := by
  unfold Ledger.fromSnapshot at h ⊢
  simp only [bind_eq_ok, require_eq_ok, exists_const] at h ⊢
  obtain ⟨hschema, genesis, hgenesis, -, hrest⟩ := h
  exact ⟨hschema, genesis, hgenesis, rfl, hrest⟩

/-- **What a reload returns.** -/
theorem fromSnapshot (h : Sane py l) (hl : Ledger.fromSnapshot py l.snapshot expected = .ok l') :
    l' = l.reloaded ∧ l.reloaded.Restorable py := by
  obtain ⟨⟨-, hrestorable⟩, rfl⟩ := (fromSnapshot_snapshot py l' h.lock h.validGenesis none
    fun _ hg => by cases hg).mp (fromSnapshot_none hl)
  exact ⟨rfl, hrestorable⟩

/-- **A reload keeps a ledger sane.** -/
theorem reload (h : Sane py l) (hl : Ledger.fromSnapshot py l.snapshot expected = .ok l') :
    Sane py l' := by
  obtain ⟨rfl, hrestorable⟩ := h.fromSnapshot hl
  obtain ⟨genesis, base, hrecord, hvalid⟩ := h.record
  have hbalances : ∀ a, l.reloaded.balances.contains a = l.balances.contains a := fun a => by
    rw [Dict.contains, reloaded, Dict.get?_sorted]
    rfl
  have hhistory : ∀ k, l.reloaded.canonicalHistory.get? k = l.canonicalHistory.get? k :=
    fun k => Dict.get?_sorted _ k
  have hislocked : ∀ a, l.reloaded.isLocked a = l.isLocked a := fun a => by
    unfold isLocked reloaded
    cases l.genesis <;> rfl
  refine ⟨⟨fun id b hb => ?_, fun a => (hrestorable.excess a).ge, hrestorable.locked_le⟩,
    genesis.map fun g => { g with allocations := g.allocations.sorted }, base, ?_, ?_⟩
  · have hbranch := h.lock.branch id b hb
    refine ⟨hbranch.keyed, hbranch.value_pos, hbranch.stake_eq, hbranch.distinct,
      (hbalances _).trans hbranch.receiver_known, ?_, hbranch.committed⟩
    obtain ⟨v, hv⟩ := Dict.contains_iff.mp hbranch.sender_locked
    exact Dict.contains_iff.mpr ⟨ofInt (trunc v), by simp [reloaded, Dict.get?_mapVal, hv]⟩
  · exact {
      genesis_eq := by rw [reloaded, hrecord.genesis_eq]
      senders := fun id b hb => (hislocked _).trans (hrecord.senders id b hb)
      known := fun a ha => (hbalances a).trans (hrecord.known a (hislocked a ▸ ha))
      round_nonneg := hrecord.round_nonneg
      height_nonneg := hrecord.height_nonneg
      head := (hhistory _).trans hrecord.head
      bounded := fun k d hk => hrecord.bounded k d (hhistory k ▸ hk)
      base_eq := (hhistory 0).trans hrecord.base_eq
      origin := fun id b hb => (hhistory _).trans (hrecord.origin id b hb) }
  · intro g' hg'
    obtain ⟨g, hg, rfl⟩ := Option.map_eq_some_iff.mp hg'
    exact ⟨(hvalid g hg).1.sorted, by rw [digest_sorted]; exact (hvalid g hg).2⟩

/-- **A reload returns a ledger that behaves alike**, if what is locked are whole numbers. -/
theorem alike (h : Sane py l) (hl : Ledger.fromSnapshot py l.snapshot expected = .ok l')
    (hwhole : ∀ a v, l.locked.get? a = some v → val v = trunc v) : Alike l l' := by
  obtain ⟨rfl, -⟩ := h.fromSnapshot hl
  exact alike_reloaded hwhole

end Sane

/-- **A ledger is steady**: it is sane, and its amounts are no floats, so that a reload does not
change them. -/
structure Steady (py : PyLib JsonNum) (l : Ledger JsonNum) : Prop where
  sane : Sane py l
  amounts : AmountsIn NoFloat l

namespace Steady

variable {py : PyLib JsonNum} {l l' : Ledger JsonNum} {expected : Option GenesisConfig}

/-- A new ledger whose balances are no floats. -/
lemma of_initial (h : Initial py l) (hbalances : ∀ a v, l.balances.get? a = some v → NoFloat v) :
    Steady py l :=
  ⟨h.sane, .of_initial h hbalances⟩

/-- A reload of a steady ledger behaves alike. -/
lemma alike (h : Steady py l) (hl : Ledger.fromSnapshot py l.snapshot expected = .ok l') :
    Alike l l' :=
  h.sane.alike hl fun a v hv => (h.amounts.locked a v hv).val_eq_trunc

/-- A reload keeps a ledger steady. -/
lemma reload (h : Steady py l) (hl : Ledger.fromSnapshot py l.snapshot expected = .ok l') :
    Steady py l' := by
  refine ⟨h.sane.reload hl, ?_⟩
  obtain ⟨rfl, -⟩ := h.sane.fromSnapshot hl
  exact h.amounts.reloaded closed_noFloat

/-- A call that names no float keeps a ledger steady. -/
lemma call {c : Call JsonNum} (h : Steady py l) (hcall : c.AmountsIn NoFloat)
    (hc : l.call py c = .ok l') : Steady py l' :=
  ⟨h.sane.call hc, h.amounts.call closed_noFloat hcall hc⟩

end Steady

end Ledger

/-- A request that offers no float. -/
def Request.NoFloats (request : Request JsonNum) : Prop :=
  ∀ c, request.Calls c → c.AmountsIn Ledger.NoFloat

namespace ReferenceNode

/-- A property of the ledgers of a node with an authenticator: of the one in memory, and of the one
that it would come back with. -/
structure Ledgers (P : Ledger ν → Prop) (n : ReferenceNode ν) : Prop where
  authenticated : n.app.authenticator.isSome = true
  memory : P n.app.ledger
  disk : ∀ s, n.disk = some s → s.app.authenticator.isSome = true ∧ P s.app.ledger

variable {py : PyLib ν} {keys : Keyring (Request ν)} {self : Option Role} {boot : Ledger ν}
  {P : Ledger ν → Prop} {n t : ReferenceNode ν}

/-- A restart reloads the ledger from the file, or starts with the first one. -/
lemma Ledgers.restarted {secrets : Dict String String} (h : Ledgers P n) (hboot : P boot)
    (hload : ∀ {l l'}, P l → Ledger.fromSnapshot py l.snapshot boot.genesis = .ok l' → P l')
    (hstep : restarted py keys boot n secrets = some t) : Ledgers P t := by
  cases hdisk : n.disk with
  | none =>
    unfold ReferenceNode.restarted at hstep
    split_ifs at hstep
    rw [hdisk] at hstep
    obtain rfl := Option.some.inj hstep
    refine ⟨?_, hboot, fun s hs => by cases hs⟩
    show (n.app.authenticator.map _).isSome = true
    rw [Option.isSome_map]
    exact h.authenticated
  | some s =>
    have hback := comesBack_of_restarted hdisk hstep
    obtain ⟨hsaved, hs⟩ := h.disk s hdisk
    refine ⟨?_, hload hs hback.ledger, fun s' hs' => ?_⟩
    · rw [hback.authenticator, Option.isSome_map]
      exact hsaved
    · obtain rfl : s = s' := Option.some.inj (hback.disk.symm.trans hs')
      exact ⟨hsaved, hs⟩

/-- **Properties that calls and reloads keep** hold of both ledgers after every event. -/
theorem Ledgers.step [DecidableEq ν] {e : NodeEvent ν} (h : Ledgers P n) (hboot : P boot)
    (hload : ∀ {l l'}, P l → Ledger.fromSnapshot py l.snapshot boot.genesis = .ok l' → P l')
    (hcall : ∀ {request c l'}, e.carried = some request → request.Calls c →
      n.app.ledger.call py c = .ok l' → P l')
    (hstep : nodeStep py keys self boot n e = some t) : Ledgers P t := by
  by_cases hrestart : ∃ secrets, e = .restart secrets
  · obtain ⟨secrets, rfl⟩ := hrestart
    exact h.restarted hboot hload hstep
  · rw [not_exists] at hrestart
    rcases nodeStep_cases h.authenticated hrestart hstep with hkeeps | ⟨r, c, hcarried, happlies⟩
    · refine ⟨hkeeps.app.authenticated.trans h.authenticated, hkeeps.app.ledger ▸ h.memory, ?_⟩
      intro s hs
      rcases hkeeps.disk with hsame | ⟨s', hs', hsaved⟩
      · exact h.disk s (hsame ▸ hs)
      · obtain rfl : s' = s := Option.some.inj (hs'.symm.trans hs)
        exact ⟨hsaved.authenticated.trans h.authenticated, hsaved.ledger ▸ h.memory⟩
    · have hledger := hcall hcarried happlies.calls happlies.call
      refine ⟨happlies.authenticated, hledger, fun s hs => ?_⟩
      rw [happlies.disk] at hs
      split_ifs at hs
      · cases hs
        exact ⟨happlies.authenticated, hledger⟩
      · exact h.disk s hs

omit [PyNumber ν] in
/-- A new node has one ledger. -/
lemma Ledgers.fresh {a : Authenticator} {registry : Option (Dict String (Json ν))}
    {hasStore : Bool} (hboot : P boot) :
    Ledgers P (Node.fresh ⟨boot, some a, registry⟩ hasStore) :=
  ⟨rfl, hboot, fun s hs => by cases hs⟩

/-! ## Amounts without floats -/

/-- Both ledgers of a node stay steady, if the request that an event carries offers no float. -/
theorem Ledgers.steady_step {py : PyLib JsonNum} {keys : Keyring (Request JsonNum)}
    {self : Option Role} {boot : Ledger JsonNum} {n t : ReferenceNode JsonNum}
    {e : NodeEvent JsonNum} (h : Ledgers (Ledger.Steady py) n) (hboot : Ledger.Steady py boot)
    (hcarried : ∀ request, e.carried = some request → request.NoFloats)
    (hstep : nodeStep py keys self boot n e = some t) : Ledgers (Ledger.Steady py) t :=
  h.step hboot (fun hl hload => hl.reload hload)
    (fun hrequest hcalls hc => h.memory.call (hcarried _ hrequest _ hcalls) hc) hstep

end ReferenceNode

end SplitChain
