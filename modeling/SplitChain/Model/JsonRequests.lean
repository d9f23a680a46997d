import SplitChain.Model.Dispatch
import SplitChain.Model.JsonAmounts
import SplitChain.Model.Signing

set_option relaxedAutoImplicit false
set_option autoImplicit false

/-!
# Requests with arbitrary numbers

A node that is sent mutating requests, one after the other, whose parameters are any decoded JSON.
This file lifts the condition on calls to the requests that reach the ledger: the ledger stays
restorable over a run exactly if each of them satisfies it.

## Main definitions

* `SplitChain.Event`, `SplitChain.ReferenceNode.mutate` — a mutating request as a transition.
* `SplitChain.jsonLib` — the library for decoded numbers.

## Main results

* `SplitChain.ReferenceNode.requests_restore_iff` — on which runs the ledger stays restorable.
-/

namespace SplitChain

open PyNumber (val ofInt)

/-! ## Initial ledgers -/

namespace Ledger

variable {py : PyLib JsonNum} {l : Ledger JsonNum}

/-- An initial ledger is sound. -/
lemma Initial.sound (h : Initial py l) :
    ∃ genesis base, Sound genesis base l ∧ Configured py genesis base := by
  have hlock := h.lockInv
  have hexcess := h.excess_eq
  have hbranches := h.branches_eq
  have hnone : ∀ branchId b, l.branches.get? branchId ≠ some b := by
    rw [hbranches]
    exact fun _ _ h => by cases h
  cases h with
  | balances balances nonneg =>
    refine ⟨none, _, ⟨hlock, recordInv_initial _ fun a ha => ?_, fun _ h => (by cases h), hexcess,
      fun id b hb => absurd hb (hnone id b), fun h => (by cases h), fun _ _ _ h => (by cases h)⟩,
      fun _ h => by cases h⟩
    simp [isLocked, initial] at ha
  | genesis raw g accepted =>
    have hvalid := GenesisConfig.fromDict_valid accepted
    refine ⟨some g, g.digest py, ⟨hlock, recordInv_ofGenesis py hvalid, ?_, hexcess,
      fun id b hb => absurd hb (hnone id b), fun _ a v hv => ?_, ?_⟩, ?_⟩
    · rintro _ ⟨rfl⟩
      exact supply_ofGenesis py g
    · change (g.allocations.mapVal ofInt).get? a = some v at hv
      rw [Dict.get?_mapVal, Option.map_eq_some_iff] at hv
      obtain ⟨n, -, rfl⟩ := hv
      rw [PyNumber.int?_ofInt]
      rfl
    · rintro _ a n ⟨rfl⟩ hn -
      exact balance_ofGenesis py hn
    · rintro _ ⟨rfl⟩
      exact ⟨hvalid, rfl⟩

end Ledger

/-! ## Runs of requests -/

/-- A request with the peer that sends it and what the world does to it. -/
structure Event (ν : Type) where
  peer : Option PeerIdentity
  outcome : Node.Outcome
  request : Request ν

namespace ReferenceNode

section Runs

variable {ν : Type} [PyNumber ν]

/-- A mutating request as a transition. -/
def mutate (py : PyLib ν) (keys : Keyring (Request ν)) (self : Option Role) (n : ReferenceNode ν)
    (e : Event ν) : Option (ReferenceNode ν) :=
  if (Method.ofJson? e.request.method).isSome then
    some (dispatch py keys self e.peer e.outcome e.request n).1
  else none

end Runs

/-- Every call that the request makes keeps the amounts. -/
def KeepsAmounts (py : PyLib JsonNum) (place : Option Role) (n : ReferenceNode JsonNum)
    (e : Event JsonNum) : Prop :=
  ∀ c, Reaches py place e.peer e.outcome e.request n c → Ledger.KeepsAmounts py n.app.ledger c

section Steps

variable {py : PyLib JsonNum} {keys : Keyring (Request JsonNum)} {self : Option Role}
  {n n' : ReferenceNode JsonNum} {e : Event JsonNum} {genesis : Option GenesisConfig}
  {base : String}

/-- A request that keeps the amounts keeps the ledger sound. -/
lemma sound_mutate (hn : Ledger.Sound genesis base n.app.ledger) (hkeeps : KeepsAmounts py self n e)
    (hstep : mutate py keys self n e = some n') : Ledger.Sound genesis base n'.app.ledger := by
  unfold mutate at hstep
  split_ifs at hstep with hmutating
  obtain ⟨method, hmethod⟩ := Option.isSome_iff_exists.mp hmutating
  obtain rfl := Option.some.inj hstep
  by_cases hcall : ∃ c l, Reaches py self e.peer e.outcome e.request n c ∧
      n.app.ledger.call py c = .ok l
  · obtain ⟨c, l, hreaches, hl⟩ := hcall
    rw [ledger_dispatch_of_ok keys hreaches hl]
    exact hn.call (hkeeps c hreaches) hl
  · simp only [not_exists, not_and] at hcall
    rw [(unchanged_dispatch keys hmethod hcall).ledger]
    exact hn

/-- A request that does not keep the amounts leaves a ledger that is not restored. -/
lemma exists_mutate_not_restores (hconf : Ledger.Configured py genesis base)
    (hn : Ledger.Sound genesis base n.app.ledger) (hbreaks : ¬ KeepsAmounts py self n e) :
    ∃ n', mutate py keys self n e = some n' ∧ ¬ n'.app.ledger.Restores py := by
  simp only [KeepsAmounts, not_forall] at hbreaks
  obtain ⟨c, hreaches, hbreaks⟩ := hbreaks
  obtain ⟨l, hl, hlost⟩ := hn.not_restores hconf hbreaks
  obtain ⟨method, -, hmethod, -⟩ := hreaches.decodes
  refine ⟨_, if_pos (by rw [hmethod]; rfl), ?_⟩
  rw [ledger_dispatch_of_ok keys hreaches hl]
  exact hlost

end Steps

/-- **Restorable runs.** A node starts with an initial ledger and is sent mutating requests with
arbitrary parameters. In every state of the run its ledger is restored from its snapshot with an
equal snapshot, if and only if every request that reaches the ledger makes a call that overwrites
no active branch, offers a value whose double is integral, and settles neither a payment to a locked
account nor, on a genesis network, one whose value is a float.

**Proof sketch.** The sound ledgers are restored; a call that satisfies the condition keeps the
ledger sound, and the first one that violates it leaves a ledger that is not restored. -/
theorem requests_restore_iff (py : PyLib JsonNum) (keys : Keyring (Request JsonNum))
    (self : Option Role) {start : ReferenceNode JsonNum}
    (hstart : Ledger.Initial py start.app.ledger) (events : List (Event JsonNum)) :
    Transition.Always (mutate py keys self) (fun n => n.app.ledger.Restores py) start events ↔
      Transition.Meets (mutate py keys self) (KeepsAmounts py self) start events := by
  obtain ⟨genesis, base, hsound, hconf⟩ := hstart.sound
  exact Transition.always_iff_meets (I := fun n => Ledger.Sound genesis base n.app.ledger)
    (fun n hn => hn.restores hconf) (fun _ _ _ hn hkeeps hstep => sound_mutate hn hkeeps hstep)
    (fun _ _ hn hbreaks => exists_mutate_not_restores hconf hn hbreaks) hsound

end ReferenceNode

/-! ## A fraction as an amount -/

/-- The digits of a fraction after the point. -/
def fractionDigits : ℕ → ℚ → List Char
  | 0, _ => []
  | fuel + 1, q =>
    Nat.digitChar ⌊q * 10⌋.toNat :: if Int.fract (q * 10) = 0 then [] else
      fractionDigits fuel (Int.fract (q * 10))

/-- The decimal text of a float that has at most 17 digits after the point. -/
def floatText (q : ℚ) : String :=
  (if q < 0 then "-" else "") ++ toString ⌊|q|⌋ ++ "." ++
    String.ofList (fractionDigits 17 (Int.fract |q|))

/-- The library with SHA-256 and decimal numbers. -/
def jsonLib : PyLib JsonNum where
  numberText
    | .bool b => if b then "true" else "false"
    | .int n => toString n
    | .float q => floatText q
  sha256 := Sha256.hexDigest
  hmacSha256 key := Sha256.hmacHexDigest key.toUTF8.toList
  str
    | .str s => s
    | .num (.int n) => toString n
    | _ => ""
  intOfString := parseInt
  numberText_ofInt _ := rfl
  intOfString_toString := parseInt_toString
  str_str _ := rfl

namespace ReferenceNode

/-- A node on its own, with funds for one account. -/
def jsonNode : ReferenceNode JsonNum :=
  Node.fresh ⟨Ledger.ofBalances jsonLib (Dict.ofList [("alice", .int 10), ("bob", .int 0)]), none,
    none⟩ false

/-- An offer of a quarter. -/
def quarterOffer : Event JsonNum where
  peer := none
  outcome := ⟨true, true, true, true, true⟩
  request := {
    id := .num (.int 1)
    method := .str "offer"
    params := .obj [("sender", .str "alice"), ("receiver", .str "bob"),
      ("value", .num (.float (1 / 4)))]
    auth := .null }

/-- The offer of a quarter is accepted, and the ledger after it is not restored. -/
theorem quarter_offer_blocks_restore :
    (dispatch jsonLib (sharedKeys jsonLib "cluster") none quarterOffer.peer quarterOffer.outcome
        quarterOffer.request jsonNode).2 =
      .result (.result (.branch (jsonNode.app.ledger.newBranch jsonLib "alice" "bob"
        (.float (1 / 4)) (.int 6)))) ∧
      (mutate jsonLib (sharedKeys jsonLib "cluster") none jsonNode quarterOffer).map
        (fun n => Ledger.fromSnapshot jsonLib n.app.ledger.snapshot none) =
      some (.error (.protocol "snapshot locked funds do not match active branches")) := by
  decide +kernel

/-- The equivalence at the offer of a quarter. -/
theorem requests_restore_iff_quarter :
    Transition.Always (mutate jsonLib (sharedKeys jsonLib "cluster") none)
        (fun n => n.app.ledger.Restores jsonLib) jsonNode [quarterOffer] ↔
      Transition.Meets (mutate jsonLib (sharedKeys jsonLib "cluster") none)
        (KeepsAmounts jsonLib none) jsonNode [quarterOffer] :=
  requests_restore_iff jsonLib (sharedKeys jsonLib "cluster") none
    (.balances (Dict.ofList [("alice", JsonNum.int 10), ("bob", JsonNum.int 0)]) (by
      intro a v hv
      have hmem : ∀ e ∈ (Dict.ofList [("alice", JsonNum.int 10), ("bob", .int 0)]).entries,
          0 ≤ val e.2 := by decide +kernel
      exact hmem _ (Dict.get?_eq_some_iff.mp hv)))
    [quarterOffer]

end ReferenceNode

end SplitChain
