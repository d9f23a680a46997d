import SplitChain.Library.Proc
import SplitChain.Python.Canonical
import SplitChain.Model.Invariant
import SplitChain.Model.Request

set_option relaxedAutoImplicit false
set_option autoImplicit false

/-!
# The ledger as an object

The methods of `Ledger` assign to the fields of an object, and an exception does not take back what
has been assigned before it. This file has the methods as they change the object, in the order of
the source, and connects them to the operations. A digest is not taken of every value: the
interpreter does not print an integer of more than 4300 digits, and `canonical_json` then raises a
`ProtocolError`. Where the digest of a block is taken, the head has moved already. While the height
of the head is printed, a method returns what the operation returns and leaves the ledger that it
returns, and it leaves the object alone if it raises a `ProtocolError`.

## Main definitions

* `SplitChain.LedgerObject.digest` — `protocol_digest`, with the values that it refuses.
* `SplitChain.LedgerObject.perform` — a call of a method.
* `SplitChain.LedgerObject.Fits` — the heights of the head that are printed.
* `SplitChain.LedgerObject.Performs`, `Answers` — a method does what an operation does, and may
  refuse.

## Main results

* `SplitChain.LedgerObject.Performs.bind` — the rule of sequential composition.
* `SplitChain.LedgerObject.answers_perform` — every method does what its operation does.
-/

namespace SplitChain

open Raise Proc

open PyNumber (val ofInt)

namespace LedgerObject

variable {ν : Type} [PyNumber ν]

/-- A method of the ledger. -/
abbrev LedgerM (ν α : Type) := EStateM PyError (Ledger ν) α

/-- Evaluate an expression over the fields. -/
def eval {α : Type} (f : Ledger ν → Except PyError α) : LedgerM ν α := do
  lift (f (← get))

/-! ## The methods -/

/-- What `canonical_json` raises for a value that `json.dumps` refuses. -/
def notCanonical : PyError := .protocol "payload is not canonical JSON"

/-- `protocol_digest` -/
def digest (py : PyLib ν) (domain : HashDomain) (value : Json ν) : Except PyError String := do
  require (value.numbers.all fun n => decide (Json.Printable n)) notCanonical
  return protocolDigest py domain value

/-- A canonical block with the given content, which names the height that the head has now. -/
def appendBlock (py : PyLib ν) (content : Ledger ν → Json ν) : LedgerM ν PUnit := do
  modify fun l => { l with canonicalHeight := l.canonicalHeight + 1 }
  let block ← eval fun l => digest py .canonicalBlock (content l)
  modify fun l => { l with canonicalDigest := block }
  modify fun l => { l with
    canonicalHistory := l.canonicalHistory.set l.canonicalHeight l.canonicalDigest }

/-- The block that registers an account. -/
def registerBlock (account : String) (l : Ledger ν) : Json ν :=
  .obj [("account", .str account), ("height", .num (ofInt l.canonicalHeight)),
    ("parent", .str l.canonicalDigest), ("type", .str "account.register")]

/-- The block that finalizes a branch. -/
def finalizeBlock (b : Branch ν) (l : Ledger ν) : Json ν :=
  .obj [("branch_id", .str b.branchId), ("height", .num (ofInt l.canonicalHeight)),
    ("parent", .str l.canonicalDigest), ("tx_digest", optionalText b.txDigest)]

/-- `_unlock` -/
def unlock (b : Branch ν) : LedgerM ν PUnit := do
  let held ← eval fun l => orRaise (l.locked.get? b.sender) .key
  modify fun l => l.setLocked b.sender (held - (b.value + b.stake))

/-- `register_account` -/
def registerAccount (py : PyLib ν) (account : String) : LedgerM ν PUnit := do
  eval fun l => require
    (Ledger.accountPattern account && !"testnet_".isPrefixOf account &&
      !l.balances.contains account)
    (.protocol "invalid or existing account")
  modify fun l => { l with balances := l.balances.set account (ofInt 0) }
  appendBlock py (registerBlock account)

/-- `offer` -/
def offer (py : PyLib ν) (sender receiver : String) (value ttl : ν) : LedgerM ν (Branch ν) := do
  eval fun l => require (!l.isLocked sender) (.protocol "genesis locked account cannot offer")
  eval fun _ => require (!(decide (val value ≤ 0) || decide (val ttl < Ledger.finalityRounds)))
    (.protocol "value must be positive and ttl must cover finality")
  eval fun _ => require (sender != receiver) (.protocol "sender and receiver must differ")
  eval fun l => require (l.balances.contains receiver) (.protocol "unknown receiver account")
  eval fun l => require (!decide (val (l.available sender) < val (value + value)))
    (.protocol "sender needs value plus equal branch stake")
  let name ← eval fun l => digest py .branchId (l.branchIdValue sender receiver value)
  let branch ← eval fun l => .ok
    { l.newBranch py sender receiver value ttl with branchId := Ledger.shortId name }
  modify fun l => l.setBranch branch.branchId branch
  modify fun l => l.setLocked sender (l.locked.getD sender (ofInt 0) + (value + value))
  return branch

/-- `accept` -/
def accept (branchId receiver : String) : LedgerM ν (Branch ν) := do
  let b ← eval fun l => l.branch branchId [.offered]
  eval fun l => l.ensureLive b
  eval fun _ => require (receiver == b.receiver) (.protocol "only the named receiver can accept")
  let b' ← eval fun l => .ok { b with state := .accepted, acceptedRound := some l.round }
  modify fun l => l.setBranch branchId b'
  return b'

/-- `commit` -/
def commit (py : PyLib ν) (branchId sender : String) (payload : Json ν) :
    LedgerM ν (Branch ν) := do
  let b ← eval fun l => l.branch branchId [.accepted]
  eval fun l => l.ensureLive b
  eval fun _ => require (sender == b.sender) (.protocol "only the sender can commit")
  let txDigest ← eval fun _ => digest py .txCommit payload
  let b' ← eval fun l => .ok
    { b with txDigest := some txDigest, committedRound := some l.round, state := .committed }
  modify fun l => l.setBranch branchId b'
  return b'

/-- `cancel` -/
def cancel (branchId actor : String) : LedgerM ν (Branch ν) := do
  let b ← eval fun l => l.branch branchId [.offered, .accepted]
  eval fun _ => require (actor == b.sender || actor == b.receiver)
    (.protocol "only a participant can cancel")
  let b' := { b with state := .cancelled }
  modify fun l => l.setBranch branchId b'
  unlock b'
  return b'

/-- `_finalize` -/
def finalize (py : PyLib ν) (branchId : String) (b : Branch ν) : LedgerM ν (Branch ν) := do
  let held ← eval fun l => orRaise (l.balances.get? b.sender) .key
  modify fun l => { l with balances := l.balances.set b.sender (held - b.value) }
  modify fun l => { l with
    balances := l.balances.set b.receiver (l.balances.getD b.receiver (ofInt 0) + b.value) }
  unlock b
  let b' := { b with state := .final }
  modify fun l => l.setBranch branchId b'
  modify fun l => l.appendFinalized b
  appendBlock py (finalizeBlock b)
  return b'

/-- One branch of one round. -/
def advanceBranch (py : PyLib ν) (branchId : String) : LedgerM ν (List (Branch ν)) := do
  let l ← get
  match l.branches.get? branchId with
  | none => return []
  | some b =>
    match b.state with
    | .offered | .accepted =>
      if val b.expiresRound ≤ l.round then
        let b' := { b with state := .expired }
        modify fun l => l.setBranch branchId b'
        unlock b'
        return [b']
      else return []
    | .committed =>
      let committedRound ← lift (orRaise b.committedRound .assertion)
      if Ledger.finalityRounds ≤ l.round - committedRound then
        let b' ← finalize py branchId b
        return [b']
      else return []
    | _ => return []

/-- The branches of one round. -/
def advanceBranches (py : PyLib ν) : List String → LedgerM ν (List (Branch ν))
  | [] => return []
  | branchId :: ids => do
    let changed ← advanceBranch py branchId
    let rest ← advanceBranches py ids
    return changed ++ rest

/-- The rounds of an `advance` call. -/
def advanceRounds (py : PyLib ν) : ℕ → LedgerM ν (List (Branch ν))
  | 0 => return []
  | n + 1 => do
    let ids ← eval fun l => .ok l.branches.keys
    modify fun l => { l with round := l.round + 1 }
    let changed ← advanceBranches py ids
    let rest ← advanceRounds py n
    return changed ++ rest

/-- `advance` -/
def advance (py : PyLib ν) (rounds : ℤ) : LedgerM ν (List (Branch ν)) := do
  eval fun _ => require (!decide (rounds < 1)) (.protocol "rounds must be positive")
  advanceRounds py rounds.toNat

/-- A call of a method, with its result. -/
def perform (py : PyLib ν) : Ledger.Call ν → LedgerM ν (Result ν)
  | .register account => do
    registerAccount py account
    let height ← eval fun l => .ok l.canonicalHeight
    return .account account height
  | .offer sender receiver value ttl => .branch <$> offer py sender receiver value ttl
  | .accept branchId receiver => .branch <$> accept branchId receiver
  | .commit branchId sender payload => .branch <$> commit py branchId sender payload
  | .cancel branchId actor => .branch <$> cancel branchId actor
  | .advance rounds => .changed <$> advance py rounds

/-! ## What the methods do -/

/-- The head moves from one height to another, and both are printed. -/
def Fits (l l' : Ledger ν) : Prop :=
  0 ≤ l.canonicalHeight ∧ l'.canonicalHeight < 10 ^ Json.maxStrDigits

/-- **A method does what an operation does**, while the height of the head is printed. It returns
the same and leaves the ledger that the operation returns, whose head is not lower; and where the
operation raises a `ProtocolError`, it raises the same, and leaves the object as it was. -/
structure Performs {α : Type} (x : LedgerM ν α)
    (f : Ledger ν → Except PyError (Ledger ν × α)) : Prop where
  returns : ∀ l l' a, f l = .ok (l', a) → Fits l l' → x l = .ok a l'
  refuses : ∀ l e, f l = .error e → e.isProtocol = true → x l = .error e l
  grows : ∀ l l' a, f l = .ok (l', a) → l.canonicalHeight ≤ l'.canonicalHeight

/-- **A method does what an operation does, or refuses** a value that has no digest, and leaves the
object as it was. -/
structure Answers {α : Type} (x : LedgerM ν α)
    (f : Ledger ν → Except PyError (Ledger ν × α)) : Prop where
  returns : ∀ l l' a, f l = .ok (l', a) → Fits l l' → x l = .ok a l' ∨ x l = .error notCanonical l
  refuses : ∀ l e, f l = .error e → e.isProtocol = true → x l = .error e l

/-- An operation that raises no `ProtocolError`. -/
def Internal {α : Type} (f : Ledger ν → Except PyError α) : Prop :=
  ∀ l, RaisesOnly (fun e => e.isProtocol = false) (f l)

section Rules

variable {α β : Type} {f : Ledger ν → Except PyError (Ledger ν × α)} {x : LedgerM ν α}

omit [PyNumber ν] in
/-- A sequence whose first part returns. -/
lemma bind_of_ok {y : α → LedgerM ν β} {l t : Ledger ν} {a : α} (h : x l = .ok a t) :
    (x >>= y) l = y a t := by
  simp only [bind, EStateM.bind, h]

omit [PyNumber ν] in
/-- A sequence whose first part raises. -/
lemma bind_of_error {y : α → LedgerM ν β} {l t : Ledger ν} {e : PyError} (h : x l = .error e t) :
    (x >>= y) l = .error e t := by
  simp only [bind, EStateM.bind, h]

omit [PyNumber ν] in
/-- The value of an expression. -/
lemma eval_of_ok {g : Ledger ν → Except PyError α} {l : Ledger ν} {a : α} (h : g l = .ok a) :
    eval g l = .ok a l := by
  show lift (g l) l = _
  rw [h]
  rfl

omit [PyNumber ν] in
/-- An expression that raises. -/
lemma eval_of_error {g : Ledger ν → Except PyError α} {l : Ledger ν} {e : PyError}
    (h : g l = .error e) : eval g l = .error e l := by
  show lift (g l) l = _
  rw [h]
  rfl

omit [PyNumber ν] in
/-- A change of the fields that does not move the head. -/
lemma performs_modify (g : Ledger ν → Ledger ν)
    (hg : ∀ l, (g l).canonicalHeight = l.canonicalHeight) :
    Performs (modify g) fun l => .ok (g l, ⟨⟩) where
  returns l l' a h _ := by cases h; rfl
  refuses l e h := by cases h
  grows l l' a h := by cases h; exact (hg l).ge

omit [PyNumber ν] in
/-- A method that only returns. -/
lemma performs_pure (a : α) : Performs (pure a : LedgerM ν α) fun l => .ok (l, a) where
  returns l l' a h _ := by cases h; rfl
  refuses l e h := by cases h
  grows l l' a h := by cases h; exact le_rfl

omit [PyNumber ν] in
/-- **Checks come first.** A method that begins with a check, or with an expression. -/
lemma performs_eval {g : Ledger ν → Except PyError β} {y : β → LedgerM ν α}
    {h : β → Ledger ν → Except PyError (Ledger ν × α)} (hy : ∀ b, Performs (y b) (h b)) :
    Performs (eval g >>= y) fun l => g l >>= fun b => h b l where
  returns l l' a hl hfits := by
    obtain ⟨b, hb, hrest⟩ := bind_eq_ok.mp hl
    rw [bind_of_ok (eval_of_ok hb)]
    exact (hy b).returns l l' a hrest hfits
  refuses l e hl hprotocol := by
    cases hg : g l with
    | error e' =>
      rw [hg] at hl
      cases hl
      exact bind_of_error (eval_of_error hg)
    | ok b =>
      rw [hg] at hl
      rw [bind_of_ok (eval_of_ok hg)]
      exact (hy b).refuses l e hl hprotocol
  grows l l' a hl := by
    obtain ⟨b, -, hrest⟩ := bind_eq_ok.mp hl
    exact (hy b).grows l l' a hrest

omit [PyNumber ν] in
/-- **Changes come last.** After the first change no `ProtocolError` is raised. -/
lemma Performs.bind {y : α → LedgerM ν β} {h : α → Ledger ν → Except PyError (Ledger ν × β)}
    (hx : Performs x f) (hinternal : ∀ a, Internal (h a)) (hy : ∀ a, Performs (y a) (h a)) :
    Performs (x >>= y) fun l => f l >>= fun p => h p.2 p.1 where
  returns l l' b hl hfits := by
    obtain ⟨p, hp, hrest⟩ := bind_eq_ok.mp hl
    have hup := hx.grows l p.1 p.2 hp
    have hon := (hy p.2).grows p.1 l' b hrest
    have hreturns : x l = .ok p.2 p.1 :=
      hx.returns l p.1 p.2 hp ⟨hfits.1, hon.trans_lt hfits.2⟩
    rw [bind_of_ok hreturns]
    exact (hy p.2).returns p.1 l' b hrest ⟨hfits.1.trans hup, hfits.2⟩
  refuses l e hl hprotocol := by
    cases hf : f l with
    | error e' =>
      rw [hf] at hl
      cases hl
      exact bind_of_error (hx.refuses l e hf hprotocol)
    | ok p =>
      rw [hf] at hl
      rw [hinternal p.2 p.1 e hl] at hprotocol
      cases hprotocol
  grows l l' b hl := by
    obtain ⟨p, hp, hrest⟩ := bind_eq_ok.mp hl
    exact (hx.grows l p.1 p.2 hp).trans ((hy p.2).grows p.1 l' b hrest)

omit [PyNumber ν] in
/-- A change of the fields before a method that raises no `ProtocolError`. -/
lemma Performs.changed (hx : Performs x f) (hinternal : Internal f) (g : Ledger ν → Ledger ν)
    (hg : ∀ l, (g l).canonicalHeight = l.canonicalHeight) :
    Performs (modify g >>= fun _ => x) fun l => f (g l) :=
  (performs_modify g hg).bind (fun _ => hinternal) fun _ => hx

omit [PyNumber ν] in
/-- A method does what an equal operation does. -/
lemma Performs.congr {g : Ledger ν → Except PyError (Ledger ν × α)} (hx : Performs x f)
    (h : ∀ l, f l = g l) : Performs x g :=
  funext h ▸ hx

omit [PyNumber ν] in
/-- A method that reads the fields first is compared with the operation on each ledger. -/
lemma performs_of_forall {g : Ledger ν → Except PyError (Ledger ν × α)}
    (h : ∀ l, ∃ y f, Performs y f ∧ x l = y l ∧ g l = f l) : Performs x g where
  returns l l' a hl hfits := by
    obtain ⟨y, f, hy, hx, hg⟩ := h l
    exact hx.trans (hy.returns l l' a (hg.symm.trans hl) hfits)
  refuses l e hl hprotocol := by
    obtain ⟨y, f, hy, hx, hg⟩ := h l
    exact hx.trans (hy.refuses l e (hg.symm.trans hl) hprotocol)
  grows l l' a hl := by
    obtain ⟨y, f, hy, -, hg⟩ := h l
    exact hy.grows l l' a (hg.symm.trans hl)

omit [PyNumber ν] in
/-- An operation that returns raises nothing. -/
lemma internal_ok (g : Ledger ν → α) : Internal fun l => .ok (g l) := fun _ =>
  raisesOnly_of_eq_ok rfl

omit [PyNumber ν] in
/-- A sequence of operations that raise no `ProtocolError`. -/
lemma Internal.bind {h : α → Ledger ν → Except PyError β} (hf : Internal f)
    (hh : ∀ a, Internal (h a)) : Internal fun l => f l >>= fun p => h p.2 p.1 := fun l =>
  RaisesOnly.bind (hf l) fun p _ => hh p.2 p.1

/-! ### Methods that may refuse -/

omit [PyNumber ν] in
/-- A method that does what an operation does answers. -/
lemma Performs.answers (hx : Performs x f) : Answers x f where
  returns l l' a hl hfits := .inl (hx.returns l l' a hl hfits)
  refuses := hx.refuses

omit [PyNumber ν] in
/-- A method that begins with a check, or with an expression. -/
lemma answers_eval {g : Ledger ν → Except PyError β} {y : β → LedgerM ν α}
    {h : β → Ledger ν → Except PyError (Ledger ν × α)} (hy : ∀ b, Answers (y b) (h b)) :
    Answers (eval g >>= y) fun l => g l >>= fun b => h b l where
  returns l l' a hl hfits := by
    obtain ⟨b, hb, hrest⟩ := bind_eq_ok.mp hl
    rw [bind_of_ok (eval_of_ok hb)]
    exact (hy b).returns l l' a hrest hfits
  refuses l e hl hprotocol := by
    cases hg : g l with
    | error e' =>
      rw [hg] at hl
      cases hl
      exact bind_of_error (eval_of_error hg)
    | ok b =>
      rw [hg] at hl
      rw [bind_of_ok (eval_of_ok hg)]
      exact (hy b).refuses l e hl hprotocol

omit [PyNumber ν] in
/-- A method whose result is put into another form. -/
lemma Answers.map (hx : Answers x f) (g : α → β) :
    Answers (g <$> x) fun l => Prod.map id g <$> f l where
  returns l l' b hl hfits := by
    obtain ⟨p, hp, hpair⟩ := map_eq_ok.mp hl
    cases hpair
    refine (hx.returns l p.1 p.2 hp hfits).imp (fun hok => ?_) fun herror => ?_
    · simp only [Functor.map, EStateM.map, hok]
      rfl
    · simp only [Functor.map, EStateM.map, herror]
  refuses l e hl hprotocol := by
    cases hf : f l with
    | error e' =>
      rw [hf] at hl
      cases hl
      simp only [Functor.map, EStateM.map, hx.refuses l e hf hprotocol]
    | ok p =>
      rw [hf] at hl
      cases hl

omit [PyNumber ν] in
/-- A method answers as an equal operation does. -/
lemma Answers.congr {g : Ledger ν → Except PyError (Ledger ν × α)} (hx : Answers x f)
    (h : ∀ l, f l = g l) : Answers x g :=
  funext h ▸ hx

/-! ### Digests -/

variable {py : PyLib ν}

variable (py) in
/-- A value has a digest, or is refused. -/
lemma digest_cases (domain : HashDomain) (value : Json ν) :
    digest py domain value = .ok (protocolDigest py domain value) ∨
      digest py domain value = .error notCanonical := by
  unfold digest
  cases (value.numbers.all fun n => decide (Json.Printable n)) with
  | true => exact .inl rfl
  | false => exact .inr rfl

variable (py) in
/-- A value whose only number is the height of the head has a digest. -/
lemma digest_of_height (domain : HashDomain) {value : Json ν} {height : ℤ}
    (hvalue : value.numbers = [ofInt height]) (hnonneg : 0 ≤ height)
    (hlt : height < 10 ^ Json.maxStrDigits) :
    digest py domain value = .ok (protocolDigest py domain value) := by
  have hprint : Json.Printable (ofInt height : ν) := by
    intro i hi
    rw [PyNumber.int?_ofInt, Option.some.injEq] at hi
    subst hi
    have hcast : (height.natAbs : ℤ) < ((10 ^ Json.maxStrDigits : ℕ) : ℤ) := by
      rw [Int.natAbs_of_nonneg hnonneg, Nat.cast_pow]
      exact hlt
    exact Int.ofNat_lt.mp hcast
  have hall : (value.numbers.all fun n => decide (Json.Printable n)) = true := by
    rw [hvalue, List.all_cons, List.all_nil, Bool.and_true, decide_eq_true hprint]
  rw [digest, hall]
  rfl

/-- **A digest comes before the changes.** A method that begins with a digest, and then raises no
`ProtocolError`. -/
lemma answers_digest {domain : HashDomain} {value : Ledger ν → Json ν} {y : String → LedgerM ν α}
    {h : String → Ledger ν → Except PyError (Ledger ν × α)} (hy : ∀ s, Performs (y s) (h s))
    (hinternal : ∀ s, Internal (h s)) :
    Answers (eval (fun l => digest py domain (value l)) >>= y)
      fun l => h (protocolDigest py domain (value l)) l where
  returns l l' a hl hfits := by
    rcases digest_cases py domain (value l) with hdigest | hdigest
    · rw [bind_of_ok (eval_of_ok hdigest)]
      exact .inl ((hy _).returns l l' a hl hfits)
    · exact .inr (bind_of_error (eval_of_error hdigest))
  refuses l e hl hprotocol := by
    rw [hinternal _ l e hl] at hprotocol
    cases hprotocol

end Rules

/-! ## Method by method -/

section Methods

variable {py : PyLib ν}

/-- `Ledger.unlock`, as an operation that returns nothing. -/
def unlockOp (b : Branch ν) (l : Ledger ν) : Except PyError (Ledger ν × PUnit) :=
  (fun l' => (l', ⟨⟩)) <$> l.unlock b

lemma internal_unlockOp (b : Branch ν) : Internal (unlockOp b) := fun l => by
  have hheld : RaisesOnly (fun e => e.isProtocol = false)
      (orRaise (l.locked.get? b.sender) PyError.key) := raisesOnly_orRaise rfl
  exact RaisesOnly.map (hheld.bind fun _ _ => raisesOnly_pure _) _

lemma performs_unlock (b : Branch ν) : Performs (unlock b) (unlockOp b) := by
  refine (performs_eval fun held =>
    performs_modify (·.setLocked b.sender (held - (b.value + b.stake))) fun _ => rfl).congr
    fun l => ?_
  unfold unlockOp Ledger.unlock
  cases l.locked.get? b.sender <;> rfl

/-- The block that `appendBlock` appends, as an operation. -/
def appendBlockOp (py : PyLib ν) (content : Ledger ν → Json ν) (l : Ledger ν) :
    Except PyError (Ledger ν × PUnit) :=
  .ok (l.appendBlock (protocolDigest py .canonicalBlock
    (content { l with canonicalHeight := l.canonicalHeight + 1 })), ⟨⟩)

/-- A block whose only number is its height is appended while the height of the head is printed. -/
lemma performs_appendBlock {content : Ledger ν → Json ν}
    (hcontent : ∀ l, (content l).numbers = [ofInt l.canonicalHeight]) :
    Performs (appendBlock py content) (appendBlockOp py content) where
  returns l l' a h hfits := by
    cases h
    have hnonneg := hfits.1
    have hdigest := digest_of_height py .canonicalBlock
      (hcontent { l with canonicalHeight := l.canonicalHeight + 1 })
      (show 0 ≤ l.canonicalHeight + 1 by omega) hfits.2
    show (eval _ >>= _) _ = _
    rw [bind_of_ok (eval_of_ok hdigest)]
    rfl
  refuses l e h := by cases h
  grows l l' a h := by
    cases h
    show l.canonicalHeight ≤ l.canonicalHeight + 1
    omega

lemma numbers_registerBlock (account : String) (l : Ledger ν) :
    (registerBlock account l).numbers = [ofInt l.canonicalHeight] := rfl

lemma numbers_finalizeBlock (b : Branch ν) (l : Ledger ν) :
    (finalizeBlock b l).numbers = [ofInt l.canonicalHeight] := by
  unfold finalizeBlock optionalText
  cases b.txDigest <;> rfl

lemma performs_registerAccount (account : String) :
    Performs (registerAccount py account) fun l =>
      (fun l' => (l', ⟨⟩)) <$> l.registerAccount py account := by
  refine (performs_eval fun _ => (performs_appendBlock (numbers_registerBlock account)).changed
    (internal_ok _) (fun l => { l with balances := l.balances.set account (ofInt 0) })
    fun _ => rfl).congr fun l => ?_
  unfold Ledger.registerAccount
  cases (require _ _ : Except PyError Unit) <;> rfl

lemma answers_offer (sender receiver : String) (value ttl : ν) :
    Answers (offer py sender receiver value ttl) fun l =>
      l.offer py sender receiver value ttl := by
  -- What follows the digest cannot raise.
  have hrest : ∀ name : String, Performs (do
      let branch ← eval fun l : Ledger ν => .ok
        { l.newBranch py sender receiver value ttl with branchId := Ledger.shortId name }
      modify fun l => l.setBranch branch.branchId branch
      modify fun l => l.setLocked sender (l.locked.getD sender (ofInt 0) + (value + value))
      return branch) fun l =>
        let branch :=
          { l.newBranch py sender receiver value ttl with branchId := Ledger.shortId name }
        .ok ((l.setBranch branch.branchId branch).setLocked sender
          (l.locked.getD sender (ofInt 0) + (value + value)), branch) := fun name =>
    performs_eval (g := fun l : Ledger ν => .ok
      { l.newBranch py sender receiver value ttl with branchId := Ledger.shortId name })
      fun b => ((performs_pure b).changed (internal_ok _)
        (fun l => l.setLocked sender (l.locked.getD sender (ofInt 0) + (value + value)))
        fun _ => rfl).changed (internal_ok _) (·.setBranch b.branchId b) fun _ => rfl
  exact (answers_eval fun _ => answers_eval fun _ => answers_eval fun _ => answers_eval fun _ =>
    answers_eval fun _ => answers_digest hrest fun _ => internal_ok _).congr fun _ => rfl

lemma performs_accept (branchId receiver : String) :
    Performs (accept branchId receiver) fun l : Ledger ν => l.accept branchId receiver :=
  (performs_eval fun _ => performs_eval fun _ => performs_eval fun _ => performs_eval fun b' =>
    (performs_pure b').changed (internal_ok _) (·.setBranch branchId b') fun _ => rfl).congr
    fun _ => rfl

lemma answers_commit (branchId sender : String) (payload : Json ν) :
    Answers (commit py branchId sender payload) fun l => l.commit py branchId sender payload := by
  -- What follows the digest cannot raise.
  have hrest : ∀ (b : Branch ν) (txDigest : String), Performs (do
      let b' ← eval fun l : Ledger ν => .ok
        { b with txDigest := some txDigest, committedRound := some l.round, state := .committed }
      modify fun l => l.setBranch branchId b'
      return b') fun l =>
        let b' :=
          { b with txDigest := some txDigest, committedRound := some l.round, state := .committed }
        .ok (l.setBranch branchId b', b') := fun b txDigest =>
    performs_eval (g := fun l : Ledger ν => .ok
      { b with txDigest := some txDigest, committedRound := some l.round, state := .committed })
      fun b' => (performs_pure b').changed (internal_ok _) (·.setBranch branchId b') fun _ => rfl
  exact (answers_eval fun b => answers_eval fun _ => answers_eval fun _ =>
    answers_digest (hrest b) fun _ => internal_ok _).congr fun _ => rfl

/-- A branch that is recorded in another state, and gives its funds back. -/
lemma performs_restated {α : Type} (branchId : String) (b : Branch ν) (a : α) : Performs (do
      modify fun l : Ledger ν => l.setBranch branchId b
      unlock b
      return a) fun l => do
        let l' ← (l.setBranch branchId b).unlock b
        return (l', a) := by
  have hunlock : Performs (unlock b >>= fun _ => pure a) fun l =>
      unlockOp b l >>= fun p => .ok (p.1, a) :=
    (performs_unlock b).bind (fun _ => internal_ok _) fun _ => performs_pure a
  have hinternal : Internal fun l => unlockOp b l >>= fun p => .ok (p.1, a) :=
    (internal_unlockOp b).bind fun _ => internal_ok fun l => (l, a)
  refine (hunlock.changed hinternal (·.setBranch branchId b) fun _ => rfl).congr fun l => ?_
  unfold unlockOp
  cases (l.setBranch branchId b).unlock b <;> rfl

lemma performs_cancel (branchId actor : String) :
    Performs (cancel branchId actor) fun l : Ledger ν => l.cancel branchId actor := by
  have hended : ∀ b : Branch ν, Performs (do
      let b' := { b with state := .cancelled }
      modify fun l : Ledger ν => l.setBranch branchId b'
      unlock b'
      return b') fun l => do
        let b' := { b with state := .cancelled }
        let l' ← (l.setBranch branchId b').unlock b'
        return (l', b') := fun b => performs_restated branchId { b with state := .cancelled } _
  exact (performs_eval fun b => performs_eval fun _ => hended b).congr fun _ => rfl

lemma internal_finalize (branchId : String) (b : Branch ν) :
    Internal fun l => l.finalize py branchId b := fun l => by
  have htransfer : RaisesOnly (fun e => e.isProtocol = false) (l.transfer b) :=
    RaisesOnly.bind (raisesOnly_orRaise rfl) fun _ _ => raisesOnly_pure _
  have hunlock : ∀ l' : Ledger ν, RaisesOnly (fun e => e.isProtocol = false) (l'.unlock b) :=
    fun l' => RaisesOnly.bind (raisesOnly_orRaise rfl) fun _ _ => raisesOnly_pure _
  exact htransfer.bind fun l' _ => (hunlock l').bind fun _ _ => raisesOnly_pure _

/-- The end of a branch whose value has been moved, as an operation. -/
def endOp (py : PyLib ν) (branchId : String) (b : Branch ν) (l : Ledger ν) :
    Except PyError (Ledger ν × Branch ν) := do
  let (unlocked, _) ← unlockOp b l
  let (appended, _) ← appendBlockOp py (finalizeBlock b)
    ((unlocked.setBranch branchId { b with state := .final }).appendFinalized b)
  return (appended, { b with state := .final })

lemma internal_endOp (branchId : String) (b : Branch ν) : Internal (endOp py branchId b) :=
  fun l => RaisesOnly.bind (internal_unlockOp b l) fun _ _ => raisesOnly_of_eq_ok rfl

lemma performs_end (branchId : String) (b : Branch ν) : Performs (do
      unlock b
      modify fun l => l.setBranch branchId { b with state := .final }
      modify fun l => l.appendFinalized b
      appendBlock py (finalizeBlock b)
      return { b with state := .final }) (endOp py branchId b) := by
  have happend : Performs (do
      appendBlock py (finalizeBlock b)
      return { b with state := .final }) fun l =>
        appendBlockOp py (finalizeBlock b) l >>= fun p => .ok (p.1, { b with state := .final }) :=
    (performs_appendBlock (numbers_finalizeBlock b)).bind (fun _ => internal_ok _)
      fun _ => performs_pure _
  have hrecord := (happend.changed (fun _ => raisesOnly_of_eq_ok rfl)
    (·.appendFinalized b) fun _ => rfl).changed (fun _ => raisesOnly_of_eq_ok rfl)
    (·.setBranch branchId { b with state := .final }) fun _ => rfl
  exact (performs_unlock b).bind (fun _ _ => raisesOnly_of_eq_ok rfl) fun _ => hrecord

lemma performs_finalize (branchId : String) (b : Branch ν) :
    Performs (finalize py branchId b) fun l => l.finalize py branchId b := by
  refine (performs_eval fun held => ((performs_end branchId b).changed
    (internal_endOp branchId b) (fun l => { l with
      balances := l.balances.set b.receiver (l.balances.getD b.receiver (ofInt 0) + b.value) })
    fun _ => rfl).changed (fun l => internal_endOp branchId b _)
    (fun l => { l with balances := l.balances.set b.sender (held - b.value) })
    fun _ => rfl).congr fun l => ?_
  unfold Ledger.finalize Ledger.transfer endOp unlockOp
  cases l.balances.get? b.sender with
  | none => rfl
  | some held =>
    show ((fun l' => (l', PUnit.unit)) <$>
        (orRaise (l.locked.get? b.sender) PyError.key >>= _)) >>= _ =
      (orRaise (l.locked.get? b.sender) PyError.key >>= _) >>= _
    cases l.locked.get? b.sender <;> rfl

lemma internal_advanceBranch (branchId : String) :
    Internal fun l => l.advanceBranch py branchId := fun l => by
  have hunlock : ∀ (l' : Ledger ν) b, RaisesOnly (fun e => e.isProtocol = false) (l'.unlock b) :=
    fun l' b => RaisesOnly.bind (raisesOnly_orRaise rfl) fun _ _ => raisesOnly_pure _
  show RaisesOnly _ (l.advanceBranch py branchId)
  unfold Ledger.advanceBranch
  split
  · exact raisesOnly_of_eq_ok rfl
  · split
    · split_ifs
      · exact (hunlock _ _).bind fun _ _ => raisesOnly_pure _
      · exact raisesOnly_of_eq_ok rfl
    · split_ifs
      · exact (hunlock _ _).bind fun _ _ => raisesOnly_pure _
      · exact raisesOnly_of_eq_ok rfl
    · refine RaisesOnly.bind (raisesOnly_orRaise rfl) fun r _ => ?_
      split_ifs
      · exact RaisesOnly.bind (internal_finalize branchId _ l) fun _ _ => raisesOnly_pure _
      · exact raisesOnly_pure _
    · exact raisesOnly_of_eq_ok rfl

/-- Finalizing a branch in a round. -/
lemma performs_finalized (branchId : String) (b : Branch ν) : Performs (do
      let b' ← finalize py branchId b
      return [b']) fun l : Ledger ν => do
        let (l', b') ← l.finalize py branchId b
        return (l', [b']) :=
  (performs_finalize branchId b).bind (fun _ => internal_ok _) fun b' => performs_pure [b']

omit [PyNumber ν] in
/-- A computation that looks at the ledger. -/
lemma get_bind {α : Type} (f : Ledger ν → LedgerM ν α) (l : Ledger ν) : (get >>= f) l = f l l :=
  rfl

lemma performs_advanceBranch (branchId : String) :
    Performs (advanceBranch py branchId) fun l => l.advanceBranch py branchId := by
  refine performs_of_forall fun l => ?_
  unfold advanceBranch Ledger.advanceBranch
  rw [get_bind]
  cases l.branches.get? branchId with
  | none => exact ⟨_, _, performs_pure [], rfl, rfl⟩
  | some b =>
    cases hs : b.state with
    | offered | accepted =>
      simp only [hs]
      split_ifs
      · exact ⟨_, _, performs_restated branchId { b with state := .expired } _, rfl, rfl⟩
      · exact ⟨_, _, performs_pure [], rfl, rfl⟩
    | committed =>
      simp only [hs]
      cases b.committedRound with
      | none =>
        exact ⟨_, _, performs_eval (g := fun _ => (.error .assertion : Except PyError PUnit))
          fun _ => performs_pure [], rfl, rfl⟩
      | some r =>
        by_cases hdue : Ledger.finalityRounds ≤ l.round - r
        · refine ⟨_, _, @performs_finalized _ _ py branchId b, ?_, ?_⟩
          · show (if Ledger.finalityRounds ≤ l.round - r then _ else _ : LedgerM ν _) l = _
            rw [if_pos hdue]
          · show (if Ledger.finalityRounds ≤ l.round - r then _ else _) = _
            rw [if_pos hdue]
        · refine ⟨_, _, performs_pure [], ?_, ?_⟩
          · show (if Ledger.finalityRounds ≤ l.round - r then _ else _ : LedgerM ν _) l = _
            rw [if_neg hdue]
          · show (if Ledger.finalityRounds ≤ l.round - r then _ else _) = _
            rw [if_neg hdue]
            rfl
    | final | cancelled | expired =>
      simp only [hs]
      exact ⟨_, _, performs_pure [], rfl, rfl⟩

lemma internal_advanceBranches (ids : List String) :
    Internal fun l => Ledger.advanceBranches py ids l := by
  induction ids with
  | nil => exact fun l => raisesOnly_of_eq_ok rfl
  | cons branchId ids ih =>
    exact fun l => RaisesOnly.bind (internal_advanceBranch branchId l) fun p _ =>
      RaisesOnly.bind (ih p.1) fun _ _ => raisesOnly_pure _

lemma performs_advanceBranches (ids : List String) :
    Performs (advanceBranches py ids) fun l => Ledger.advanceBranches py ids l := by
  induction ids with
  | nil => exact performs_pure []
  | cons branchId ids ih =>
    refine ((performs_advanceBranch branchId).bind (fun changed => ?_) fun changed =>
      ih.bind (fun rest => internal_ok _) fun rest => performs_pure (changed ++ rest)).congr
      fun _ => rfl
    exact fun l => RaisesOnly.bind (internal_advanceBranches ids l) fun _ _ =>
      raisesOnly_of_eq_ok rfl

lemma internal_advanceRounds (n : ℕ) : Internal fun l => Ledger.advanceRounds py n l := by
  induction n with
  | zero => exact fun l => raisesOnly_of_eq_ok rfl
  | succ n ih =>
    exact fun l => RaisesOnly.bind (internal_advanceBranches _ _) fun p _ =>
      RaisesOnly.bind (ih p.1) fun _ _ => raisesOnly_pure _

lemma performs_advanceRounds (n : ℕ) :
    Performs (advanceRounds py n) fun l => Ledger.advanceRounds py n l := by
  induction n with
  | zero => exact performs_pure []
  | succ n ih =>
    refine (performs_eval fun ids => (((performs_advanceBranches ids).bind (fun changed => ?_)
      fun changed => ih.bind (fun rest => internal_ok _) fun rest =>
        performs_pure (changed ++ rest)).changed ?_ (fun l => { l with round := l.round + 1 })
        fun _ => rfl)).congr fun _ => rfl
    · exact fun l => RaisesOnly.bind (internal_advanceRounds n l) fun _ _ =>
        raisesOnly_of_eq_ok rfl
    · exact fun l => RaisesOnly.bind (internal_advanceBranches ids l) fun p _ =>
        RaisesOnly.bind (internal_advanceRounds n p.1) fun _ _ => raisesOnly_of_eq_ok rfl

lemma performs_advance (rounds : ℤ) :
    Performs (advance py rounds) fun l => l.advance py rounds :=
  (performs_eval fun _ => performs_advanceRounds rounds.toNat).congr fun _ => rfl

/-- **Every method does what its operation does**, or refuses a value that has no digest. -/
theorem answers_perform (c : Ledger.Call ν) :
    Answers (perform py c) fun l => l.perform py c := by
  cases c with
  | register account =>
    have hresult : Performs (do
        let height ← eval fun l : Ledger ν => .ok l.canonicalHeight
        return (Result.account account height : Result ν)) fun l : Ledger ν =>
          .ok (l, (Result.account account l.canonicalHeight : Result ν)) :=
      (performs_eval fun height => performs_pure (Result.account account height)).congr
        fun _ => rfl
    refine (((performs_registerAccount account).bind (fun _ => internal_ok _)
      fun _ => hresult).congr fun l => ?_).answers
    show ((fun l' => (l', PUnit.unit)) <$> l.registerAccount py account) >>= _ =
      l.registerAccount py account >>= _
    cases l.registerAccount py account <;> rfl
  | offer sender receiver value ttl => exact (answers_offer sender receiver value ttl).map _
  | accept branchId receiver => exact (performs_accept branchId receiver).answers.map _
  | commit branchId sender payload => exact (answers_commit branchId sender payload).map _
  | cancel branchId actor => exact (performs_cancel branchId actor).answers.map _
  | advance rounds => exact (performs_advance rounds).answers.map _

end Methods

end LedgerObject

end SplitChain
