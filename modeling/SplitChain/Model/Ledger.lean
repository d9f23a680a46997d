import SplitChain.Model.Genesis

set_option relaxedAutoImplicit false
set_option autoImplicit false

/-!
# The ledger

The executable model of `splitchain.model`: a canonical ledger plus temporary two-party
branches, with the operations that move a branch through its states. The operations are generic
in the type of numbers, as the program is; an operation that raises leaves the ledger as it was.

## Main definitions

* `SplitChain.BranchState`, `SplitChain.Branch`, `SplitChain.Ledger`.
* `SplitChain.Ledger.ofBalances`, `SplitChain.Ledger.ofGenesis` — the initial ledgers.
* `SplitChain.Ledger.registerAccount`, `offer`, `accept`, `commit`, `cancel`, `advance`.
-/

namespace SplitChain

open Raise

/-- The states of a branch. -/
inductive BranchState where
  | offered | accepted | committed | final | cancelled | expired
deriving DecidableEq, Repr

namespace BranchState

/-- The published name of a state. -/
def value : BranchState → String
  | offered => "offered"
  | accepted => "accepted"
  | committed => "committed"
  | final => "final"
  | cancelled => "cancelled"
  | expired => "expired"

/-- Whether a branch in this state holds locked funds. -/
def active : BranchState → Bool
  | offered | accepted | committed => true
  | _ => false

end BranchState

/-- A temporary execution branch between two participants. -/
structure Branch (ν : Type) where
  branchId : String
  sender : String
  receiver : String
  value : ν
  stake : ν
  createdRound : ℤ
  expiresRound : ν
  originHeight : ℤ
  originDigest : String
  state : BranchState
  acceptedRound : Option ℤ
  committedRound : Option ℤ
  txDigest : Option String
deriving DecidableEq

/-- An entry of the list of finalized branches. -/
structure Finalized where
  branchId : String
  txDigest : Option String
deriving DecidableEq

/-- The canonical ledger and its branches. -/
structure Ledger (ν : Type) where
  genesis : Option GenesisConfig
  round : ℤ
  balances : Dict String ν
  locked : Dict String ν
  branches : Dict String (Branch ν)
  finalized : List Finalized
  canonicalHeight : ℤ
  canonicalDigest : String
  canonicalHistory : Dict ℤ String
deriving DecidableEq

variable {ν : Type} [PyNumber ν]

open PyNumber (val ofInt)

/-- An optional string in JSON. -/
def optionalText : Option String → Json ν
  | some s => .str s
  | none => .null

/-- An optional integer in JSON. -/
def optionalInt : Option ℤ → Json ν
  | some n => .num (ofInt n)
  | none => .null

/-- The published form of a branch. -/
def Branch.publicForm (b : Branch ν) : Json ν :=
  .obj [("branch_id", .str b.branchId), ("sender", .str b.sender), ("receiver", .str b.receiver),
    ("value", .num b.value), ("stake", .num b.stake),
    ("created_round", .num (ofInt b.createdRound)), ("expires_round", .num b.expiresRound),
    ("origin_height", .num (ofInt b.originHeight)), ("origin_digest", .str b.originDigest),
    ("state", .str b.state.value), ("accepted_round", optionalInt b.acceptedRound),
    ("committed_round", optionalInt b.committedRound), ("tx_digest", optionalText b.txDigest)]

namespace Ledger

/-- `FINALITY_ROUNDS` -/
def finalityRounds : ℤ := 3

/-! ## Initial ledgers -/

/-- A ledger at round zero with the given balances and genesis digest. -/
def initial (genesis : Option GenesisConfig) (balances : Dict String ν) (genesisDigest : String) :
    Ledger ν where
  genesis := genesis
  round := 0
  balances := balances
  locked := ∅
  branches := ∅
  finalized := []
  canonicalHeight := 0
  canonicalDigest := genesisDigest
  canonicalHistory := Dict.set ∅ 0 genesisDigest

/-- `Ledger(balances)` -/
def ofBalances (py : PyLib ν) (balances : Dict String ν) : Ledger ν :=
  initial none balances (protocolDigest py .canonicalGenesisV1
    (.obj [("balances", .obj (balances.sorted.mapVal Json.num).entries)]))

/-- `Ledger(genesis=genesis)` -/
def ofGenesis (py : PyLib ν) (genesis : GenesisConfig) : Ledger ν :=
  initial (some genesis) (genesis.allocations.mapVal ofInt) (genesis.digest py)

/-! ## Operations -/

/-- The funds of an account that no branch has locked. -/
def available (l : Ledger ν) (account : String) : ν :=
  l.balances.getD account (ofInt 0) - l.locked.getD account (ofInt 0)

/-- Whether a name matches `[a-z][a-z0-9_]{2,31}`. -/
def accountPattern (account : String) : Bool :=
  match account.toList with
  | [] => false
  | c :: cs => c.isLower && 2 ≤ cs.length && cs.length ≤ 31 &&
      cs.all fun c => c.isLower || c.isDigit || c = '_'

/-- Whether an account is one the network locked at genesis. -/
def isLocked (l : Ledger ν) (account : String) : Bool :=
  match l.genesis with
  | some g => account ∈ g.lockedAccounts
  | none => false

/-- Append a canonical block. -/
def appendBlock (l : Ledger ν) (digest : String) : Ledger ν :=
  { l with
    canonicalHeight := l.canonicalHeight + 1
    canonicalDigest := digest
    canonicalHistory := l.canonicalHistory.set (l.canonicalHeight + 1) digest }

/-- The digest of the block that registers an account. -/
def registerDigest (py : PyLib ν) (l : Ledger ν) (account : String) : String :=
  protocolDigest py .canonicalBlock (.obj [("account", .str account),
    ("height", .num (ofInt (l.canonicalHeight + 1))), ("parent", .str l.canonicalDigest),
    ("type", .str "account.register")])

/-- The digest of the block that finalizes a branch. -/
def finalizeDigest (py : PyLib ν) (l : Ledger ν) (b : Branch ν) : String :=
  protocolDigest py .canonicalBlock (.obj [("branch_id", .str b.branchId),
    ("height", .num (ofInt (l.canonicalHeight + 1))), ("parent", .str l.canonicalDigest),
    ("tx_digest", optionalText b.txDigest)])

/-- Add an approved, initially empty account to the canonical ledger. -/
def registerAccount (py : PyLib ν) (l : Ledger ν) (account : String) :
    Except PyError (Ledger ν) := do
  require (accountPattern account && !"testnet_".isPrefixOf account && !l.balances.contains account)
    (.protocol "invalid or existing account")
  return { l with balances := l.balances.set account (ofInt 0) }.appendBlock
    (l.registerDigest py account)

/-- The value whose digest names the branch an offer creates. -/
def branchIdValue (l : Ledger ν) (sender receiver : String) (value : ν) : Json ν :=
  .obj [("nonce", .num (ofInt l.branches.size)), ("origin_digest", .str l.canonicalDigest),
    ("origin_height", .num (ofInt l.canonicalHeight)), ("receiver", .str receiver),
    ("round", .num (ofInt l.round)), ("sender", .str sender), ("value", .num value)]

/-- `digest[:16]` -/
def shortId (digest : String) : String := String.ofList (digest.toList.take 16)

/-- The name of the branch an offer creates. -/
def nextBranchId (py : PyLib ν) (l : Ledger ν) (sender receiver : String) (value : ν) : String :=
  shortId (protocolDigest py .branchId (l.branchIdValue sender receiver value))

/-- The branch an offer creates. -/
def newBranch (py : PyLib ν) (l : Ledger ν) (sender receiver : String) (value ttl : ν) :
    Branch ν where
  branchId := l.nextBranchId py sender receiver value
  sender := sender
  receiver := receiver
  value := value
  stake := value
  createdRound := l.round
  expiresRound := ofInt l.round + ttl
  originHeight := l.canonicalHeight
  originDigest := l.canonicalDigest
  state := .offered
  acceptedRound := none
  committedRound := none
  txDigest := none

/-- Store a branch under an identifier. -/
def setBranch (l : Ledger ν) (branchId : String) (b : Branch ν) : Ledger ν :=
  { l with branches := l.branches.set branchId b }

/-- Set the locked funds of an account. -/
def setLocked (l : Ledger ν) (account : String) (amount : ν) : Ledger ν :=
  { l with locked := l.locked.set account amount }

/-- Open a branch, locking its value and an equal stake. -/
def offer (py : PyLib ν) (l : Ledger ν) (sender receiver : String) (value ttl : ν) :
    Except PyError (Ledger ν × Branch ν) := do
  require (!l.isLocked sender) (.protocol "genesis locked account cannot offer")
  require (!(decide (val value ≤ 0) || decide (val ttl < finalityRounds)))
    (.protocol "value must be positive and ttl must cover finality")
  require (sender != receiver) (.protocol "sender and receiver must differ")
  require (l.balances.contains receiver) (.protocol "unknown receiver account")
  require (!decide (val (l.available sender) < val (value + value)))
    (.protocol "sender needs value plus equal branch stake")
  let branch := l.newBranch py sender receiver value ttl
  return ((l.setBranch branch.branchId branch).setLocked sender
    (l.locked.getD sender (ofInt 0) + (value + value)), branch)

/-- `_branch`: the named branch, if it is in one of the given states. -/
def branch (l : Ledger ν) (branchId : String) (states : List BranchState) :
    Except PyError (Branch ν) := do
  let b ← orRaise (l.branches.get? branchId) (.protocol "unknown branch")
  require (states.contains b.state) (.protocol ("invalid transition from " ++ b.state.value))
  return b

/-- `_ensure_live` -/
def ensureLive (l : Ledger ν) (b : Branch ν) : Except PyError Unit :=
  require (!decide (val b.expiresRound ≤ l.round)) (.protocol "branch expired")

/-- `_unlock`: release the funds a branch has locked. -/
def unlock (l : Ledger ν) (b : Branch ν) : Except PyError (Ledger ν) := do
  let held ← orRaise (l.locked.get? b.sender) .key
  return l.setLocked b.sender (held - (b.value + b.stake))

/-- The named receiver accepts an open offer. -/
def accept (l : Ledger ν) (branchId receiver : String) : Except PyError (Ledger ν × Branch ν) := do
  let b ← l.branch branchId [.offered]
  l.ensureLive b
  require (receiver == b.receiver) (.protocol "only the named receiver can accept")
  let b' := { b with state := .accepted, acceptedRound := some l.round }
  return (l.setBranch branchId b', b')

/-- The sender commits the transaction of an accepted branch. -/
def commit (py : PyLib ν) (l : Ledger ν) (branchId sender : String) (payload : Json ν) :
    Except PyError (Ledger ν × Branch ν) := do
  let b ← l.branch branchId [.accepted]
  l.ensureLive b
  require (sender == b.sender) (.protocol "only the sender can commit")
  let b' := { b with
    txDigest := some (protocolDigest py .txCommit payload)
    committedRound := some l.round
    state := .committed }
  return (l.setBranch branchId b', b')

/-- A participant withdraws from an uncommitted branch. -/
def cancel (l : Ledger ν) (branchId actor : String) : Except PyError (Ledger ν × Branch ν) := do
  let b ← l.branch branchId [.offered, .accepted]
  require (actor == b.sender || actor == b.receiver) (.protocol "only a participant can cancel")
  let b' := { b with state := .cancelled }
  let l' ← (l.setBranch branchId b').unlock b'
  return (l', b')

/-- Record a branch as finalized. -/
def appendFinalized (l : Ledger ν) (b : Branch ν) : Ledger ν :=
  { l with finalized := l.finalized ++ [{ branchId := b.branchId, txDigest := b.txDigest }] }

/-- Move the value of a branch from its sender to its receiver. -/
def transfer (l : Ledger ν) (b : Branch ν) : Except PyError (Ledger ν) := do
  let held ← orRaise (l.balances.get? b.sender) .key
  let debited := l.balances.set b.sender (held - b.value)
  return { l with
    balances := debited.set b.receiver (debited.getD b.receiver (ofInt 0) + b.value) }

/-- `_finalize`: move the value of a branch, release its funds and append a canonical block. -/
def finalize (py : PyLib ν) (l : Ledger ν) (branchId : String) (b : Branch ν) :
    Except PyError (Ledger ν × Branch ν) := do
  let transferred ← l.transfer b
  let unlocked ← transferred.unlock b
  let b' := { b with state := .final }
  let settled := (unlocked.setBranch branchId b').appendFinalized b
  return (settled.appendBlock (l.finalizeDigest py b), b')

/-- One branch of one round: expire it or finalize it if it is due. -/
def advanceBranch (py : PyLib ν) (l : Ledger ν) (branchId : String) :
    Except PyError (Ledger ν × List (Branch ν)) :=
  match l.branches.get? branchId with
  | none => .ok (l, [])
  | some b =>
    match b.state with
    | .offered | .accepted =>
      if val b.expiresRound ≤ l.round then do
        let b' := { b with state := .expired }
        let l' ← (l.setBranch branchId b').unlock b'
        return (l', [b'])
      else .ok (l, [])
    | .committed => do
      let committedRound ← orRaise b.committedRound .assertion
      if finalityRounds ≤ l.round - committedRound then do
        let (l', b') ← l.finalize py branchId b
        return (l', [b'])
      else return (l, [])
    | _ => .ok (l, [])

/-- The branches of one round, in the order they were offered. -/
def advanceBranches (py : PyLib ν) :
    List String → Ledger ν → Except PyError (Ledger ν × List (Branch ν))
  | [], l => .ok (l, [])
  | branchId :: ids, l => do
    let (l', changed) ← l.advanceBranch py branchId
    let (l'', rest) ← advanceBranches py ids l'
    return (l'', changed ++ rest)

/-- The rounds of an `advance` call, one after the other. -/
def advanceRounds (py : PyLib ν) : ℕ → Ledger ν → Except PyError (Ledger ν × List (Branch ν))
  | 0, l => .ok (l, [])
  | n + 1, l => do
    let (l', changed) ← advanceBranches py l.branches.keys { l with round := l.round + 1 }
    let (l'', rest) ← advanceRounds py n l'
    return (l'', changed ++ rest)

/-- Let rounds pass, expiring and finalizing the branches that fall due. -/
def advance (py : PyLib ν) (l : Ledger ν) (rounds : ℤ) :
    Except PyError (Ledger ν × List (Branch ν)) := do
  require (!decide (rounds < 1)) (.protocol "rounds must be positive")
  advanceRounds py rounds.toNat l

end Ledger

end SplitChain
