import SplitChain.Model.Auth

set_option relaxedAutoImplicit false
set_option autoImplicit false

/-!
# The batch distributor

The operator's program `splitchain.distributor`, which pays one amount from the faucet to each
account of a plan. A run keeps a journal: before a request leaves, the journal says on disk that
it is in flight, and the entry is cleared when the answer, or a later status of the ledger, tells
what became of the request. A run can stop or die between any two of its operations, and the
cluster moves on meanwhile.

## Main definitions

* `SplitChain.Plan`, `SplitChain.DistributorState` — the batch, and the journal `state.json`.
* `SplitChain.Cluster` — the canonical ledger, its past, and the requests on their way to it.
* `SplitChain.Turn` — what the world does until an operation of a run ends.
* `SplitChain.Distributor.branch`, `reconcile`, `mutate`, `fundOne`, `fund` — the program.
* `SplitChain.Distributor.step` — the cluster moves by itself, or a run of the program takes place.
-/

namespace SplitChain

open Raise Proc

open PyNumber (val ofInt)

variable {ν : Type} [PyNumber ν]

/-! ## Plans and journals -/

/-- A batch of payments, as `plan_for` makes it. -/
structure Plan where
  recipients : List String
  amount : ℤ
  positive : 1 ≤ amount

/-- The request that the journal has in flight. -/
structure InFlight where
  recipient : String
  method : Method
  nonce : ℤ
deriving DecidableEq

/-- The journal `state.json`. -/
structure DistributorState where
  lastNonces : Dict String ℤ
  knownBranches : Dict String String
  inFlight : Option InFlight
deriving DecidableEq

namespace DistributorState

/-- The journal of the first run. -/
def fresh : DistributorState := ⟨∅, ∅, none⟩

/-- Use a nonce. -/
def useNonce (state : DistributorState) (actor : String) (nonce : ℤ) : DistributorState :=
  { state with lastNonces := state.lastNonces.set actor nonce }

/-- Put a request in flight. -/
def reserve (state : DistributorState) (request : InFlight) : DistributorState :=
  { state with inFlight := some request }

/-- Note the branch of a recipient. -/
def learn (state : DistributorState) (recipient branchId : String) : DistributorState :=
  { state with knownBranches := state.knownBranches.set recipient branchId }

/-- Nothing is in flight any more. -/
def settle (state : DistributorState) : DistributorState := { state with inFlight := none }

end DistributorState

/-- How a run of the distributor ends early. -/
inductive DistributionError where
  /-- `DistributionError`, or another exception that ends the program -/
  | stopped (message : String)
  /-- The process dies. -/
  | died
deriving DecidableEq

/-! ## The world of a run -/

/-- The call that a request asks for. -/
def Request.call (request : Request ν) : Except PyError (Ledger.Call ν) := do
  let method ← orRaise (Method.ofJson? request.method) (.protocol "unknown replicated mutation")
  let params ← orRaise request.params.dict? .type
  Ledger.Call.ofParams method params

/-- The cluster as the distributor meets it: the canonical ledger, the earlier ones, the newest
first, and the distributor's requests: those on their way, which the cluster has neither
applied nor refused, and those it has applied. -/
structure Cluster (ν : Type) where
  ledger : Ledger ν
  past : List (Ledger ν)
  pending : List (Request ν)
  applied : List (Request ν)

/-- What the cluster does by itself. -/
inductive Move (ν : Type) where
  /-- It applies a call of somebody else, or a round advances. -/
  | call (c : Ledger.Call ν)
  /-- It applies one of the requests on their way. -/
  | apply (index : ℕ)

namespace Cluster

/-- The ledgers that the cluster has had. -/
def ledgers (c : Cluster ν) : List (Ledger ν) := c.ledger :: c.past

/-- The requests that the cluster has not refused. -/
def requests (c : Cluster ν) : List (Request ν) := c.pending ++ c.applied

/-- The ledger becomes another one. -/
def become (c : Cluster ν) (l : Ledger ν) : Cluster ν := { c with ledger := l, past := c.ledgers }

/-- A move of the cluster. A request is applied once: then it is not on its way any more. -/
def move (py : PyLib ν) (c : Cluster ν) : Move ν → Cluster ν
  | .call call =>
    match c.ledger.call py call with
    | .ok l => c.become l
    | .error _ => c
  | .apply index =>
    match c.pending[index]? with
    | none => c
    | some request =>
      match request.call >>= c.ledger.call py with
      | .ok l => { c.become l with
          pending := c.pending.eraseIdx index
          applied := request :: c.applied }
      | .error _ => c

variable [DecidableEq ν]

/-- A request reaches the cluster, unless it has before. -/
def send (c : Cluster ν) (request : Request ν) : Cluster ν :=
  if request ∈ c.requests then c else { c with pending := request :: c.pending }

/-- The cluster refuses a request on its way. -/
def refuse (c : Cluster ν) (request : Request ν) : Cluster ν :=
  { c with pending := c.pending.erase request }

end Cluster

/-- The answer to a request, as far as the distributor reads it. -/
inductive Response where
  /-- `INVALID_REQUEST` -/
  | invalidRequest (message : String)
  /-- Another error. -/
  | error (message : String)
  /-- A result, with its `branch_id` if that is a string. -/
  | result (branchId : Option String)

/-- How an operation of a run ends. -/
inductive Outcome where
  /-- It is done. -/
  | done
  /-- The process dies, after the file has been written or before. -/
  | dies (written : Bool)
  /-- The connection fails, or time runs out. -/
  | lost
  /-- The clock shows a time, and an identifier is drawn. -/
  | now (ms : ℤ) (uuid : String)
  /-- A node answers with the ledger it had so many changes ago. -/
  | status (age : ℕ)
  /-- `NOT_LEADER` -/
  | notLeader
  /-- An answer to another request. -/
  | mismatched
  | response (r : Response)

/-- What happens until an operation of a run ends: moves of the cluster, and the end. -/
structure Turn (ν : Type) where
  moves : List (Move ν)
  outcome : Outcome

/-- What outlasts a run of the distributor: its journal on disk, and the cluster. -/
structure World (ν : Type) where
  disk : Option DistributorState
  cluster : Cluster ν

/-- A run of the distributor: the journal in memory, and what is still to happen. -/
structure Distribution (ν : Type) extends World ν where
  state : DistributorState
  turns : List (Turn ν)

namespace Distribution

/-- Change the journal in memory. -/
def onState (s : Distribution ν) (f : DistributorState → DistributorState) : Distribution ν :=
  { s with state := f s.state }

/-- Write the journal to disk. -/
def written (s : Distribution ν) : Distribution ν := { s with disk := some s.state }

/-- Change the cluster. -/
def onCluster (s : Distribution ν) (f : Cluster ν → Cluster ν) : Distribution ν :=
  { s with cluster := f s.cluster }

/-- The moves of a turn have happened. -/
def passed (py : PyLib ν) (s : Distribution ν) (turn : Turn ν) (turns : List (Turn ν)) :
    Distribution ν :=
  { s.onCluster fun c => turn.moves.foldl (Cluster.move py) c with turns := turns }

end Distribution

/-! ## The program -/

/-- The batch distributor: its plan, the genesis it is pinned to, and the credentials. -/
structure Distributor where
  plan : Plan
  genesis : GenesisConfig
  registry : Dict String String

namespace Distributor

/-- `SENDER` -/
def sender : String := "testnet_faucet"

/-- `BACKENDS` -/
def backends : List String :=
  ["ws://primary:8765", "ws://secondary:8765", "ws://tertiary:8765"]

variable (py : PyLib ν) (d : Distributor)

/-- The end of the next operation. -/
def next : EStateM DistributionError (Distribution ν) Outcome := do
  match (← get).turns with
  | [] => throw .died
  | turn :: turns =>
    modify fun s => s.passed py turn turns
    return turn.outcome

/-- `save` replaces the file in one step. -/
def save : EStateM DistributionError (Distribution ν) Unit := do
  match ← next py with
  | .done => modify Distribution.written
  | .dies true =>
    modify Distribution.written
    throw .died
  | _ => throw .died

section Requests

variable [DecidableEq ν]

/-- Connect to a backend and send it a request. -/
def transmit (request : Request ν) : EStateM DistributionError (Distribution ν) Unit := do
  match ← next py with
  | .done => modify fun s => s.onCluster (·.send request)
  | .dies _ => throw .died
  | _ => throw (.stopped "RPC outcome unknown; rerun to reconcile status")

/-- Receive the answer to a request, if it is not `NOT_LEADER`. The cluster refuses only what it
has not applied: another refusal does not arrive. -/
def receive (request : Request ν) :
    EStateM DistributionError (Distribution ν) (Option Response) := do
  match ← next py with
  | .notLeader => return none
  | .mismatched => throw (.stopped "RPC returned a mismatched request ID; inspect the ledger")
  | .response (.invalidRequest message) =>
    if request ∈ (← get).cluster.pending then
      modify fun s => s.onCluster (·.refuse request)
      return some (.invalidRequest message)
    else throw (.stopped "RPC outcome unknown; rerun to reconcile status")
  | .response r => return some r
  | .dies _ => throw .died
  | _ => throw (.stopped "RPC outcome unknown; rerun to reconcile status")

/-- The attempts of `call`, one backend after the other. A disconnected request may have been
applied, so it is not tried on another node. -/
def attempt (request : Request ν) :
    List String → EStateM DistributionError (Distribution ν) Response
  | [] => throw (.stopped "no certified leader available; rerun after node recovery")
  | _ :: backends => do
    transmit py request
    match ← receive py request with
    | some r => return r
    | none => attempt request backends

/-- Send a request to the leader. -/
def call (request : Request ν) : EStateM DistributionError (Distribution ν) Response :=
  attempt py request backends

end Requests

/-- The attempts of `snapshot`, one backend after the other. -/
def attemptSnapshot : List String → EStateM DistributionError (Distribution ν) (Snapshot ν)
  | [] => throw (.stopped "no testnet node returned a valid ledger status")
  | _ :: backends => do
    match ← next py with
    | .status age =>
      match (← get).cluster.ledgers[age]? with
      | some l =>
        -- A ledger of another genesis is refused by an exception that the loop catches itself.
        if l.genesis.any (·.eqv d.genesis) then return l.snapshot else attemptSnapshot backends
      | none => attemptSnapshot backends
    | .dies _ => throw .died
    | _ => attemptSnapshot backends

/-- The status of the ledger, as some node knows it. -/
def snapshot : EStateM DistributionError (Distribution ν) (Snapshot ν) :=
  attemptSnapshot py d backends

/-- The branch of a recipient in a status: at most one, of the planned amount, and the one that
the journal knows, if it knows one. -/
def branch (state : DistributorState) (ledger : Snapshot ν) (recipient : String) :
    Except DistributionError (Option (Branch ν)) := do
  let branches := ledger.branches.filter fun b => b.sender == sender && b.receiver == recipient
  require (!decide (branches.length > 1)) (.stopped
    ("multiple faucet branches found for " ++ recipient ++ "; inspect before retrying"))
  require (branches.head?.all fun b => decide (val b.value = d.plan.amount)) (.stopped
    ("preexisting different payment to " ++ recipient ++ "; inspect before retrying"))
  let known := state.knownBranches.getD recipient ""
  require (known == "" || branches.head?.any fun b => b.branchId == known) (.stopped
    ("known offer for " ++ recipient ++ " missing from node status; refusing duplicate payment"))
  return branches.head?

/-- Whether the branch of its recipient shows that a request has been applied. -/
def isDone (method : Method) : Option (Branch ν) → Bool
  | none => false
  | some b =>
    match method with
    | .offer => true
    | .accept => b.state ∈ [.accepted, .committed, .final]
    | .commit => b.state ∈ [.committed, .final]
    | _ => false

/-- Settle the request in flight by a status of the ledger. -/
def reconcile (recipient : String) (ledger : Snapshot ν) :
    EStateM DistributionError (Distribution ν) Unit := do
  match (← get).state.inFlight with
  | none => return
  | some pending =>
    if pending.recipient ≠ recipient then
      throw (.stopped ("unresolved " ++ pending.method.name ++ " for " ++ pending.recipient ++
        "; rerun with the same plan"))
    let found ← lift (d.branch (← get).state ledger recipient)
    if !isDone pending.method found then
      throw (.stopped ("uncertain " ++ pending.method.name ++ " for " ++ recipient ++
        "; inspect all nodes before any retry. No second payment sent"))
    match found with
    | some b => modify fun s => s.onState (·.learn recipient b.branchId)
    | none => pure ()
    modify fun s => s.onState (·.settle)
    save py

/-- The last part of `mutate`: note in the journal what the answer tells. -/
def conclude (method : Method) (recipient : String) :
    Response → EStateM DistributionError (Distribution ν) Unit
  | .invalidRequest message => do
    modify fun s => s.onState (·.settle)
    save py
    throw (.stopped (recipient ++ " " ++ method.name ++ " rejected: " ++ message))
  | .error message =>
    throw (.stopped (recipient ++ " " ++ method.name ++ " rejected: " ++ message))
  | .result branchId => do
    if method = .offer then
      if branchId.getD "" = "" then
        throw (.stopped "offer response has no branch ID; reconcile before retrying")
      modify fun s => s.onState (·.learn recipient (branchId.getD ""))
    modify fun s => s.onState (·.settle)
    save py

variable [DecidableEq ν]

/-- Sign a request, reserve it in the journal, and send it. -/
def mutate (method : Method) (recipient : String) (params : Json ν) (actor : String) :
    EStateM DistributionError (Distribution ν) Unit := do
  match ← next py with
  | .now ms uuid =>
    let nonce := max ms ((← get).state.lastNonces.getD actor (-1) + 1)
    modify fun s => s.onState (·.useNonce actor nonce)
    let secret ← lift (orRaise (d.registry.get? actor) (.stopped actor))
    let unsigned : Request ν := ⟨.str uuid, .str method.name, params, .null⟩
    let request := { unsigned with auth := unsigned.sign py actor nonce secret }
    modify fun s => s.onState (·.reserve ⟨recipient, method, nonce⟩)
    save py
    conclude py method recipient (← call py request)
  | _ => throw .died

/-- One look at the ledger and what it calls for: the state of a branch that is paid, or nothing
if there is more to do. -/
def advanceOne (recipient : String) :
    EStateM DistributionError (Distribution ν) (Option BranchState) := do
  let ledger ← snapshot py d
  reconcile py d recipient ledger
  match ← lift (d.branch (← get).state ledger recipient) with
  | none =>
    if val (ledger.balances.getD recipient (ofInt 0)) ≠ 0 then
      throw (.stopped (recipient ++
        " has a balance but no matching branch; refusing a second payment"))
    if val (ledger.balances.getD sender (ofInt 0) - ledger.locked.getD sender (ofInt 0)) <
        2 * d.plan.amount then
      throw (.stopped "faucet needs amount plus equal temporary stake")
    mutate py d .offer recipient (.obj [("sender", .str sender), ("receiver", .str recipient),
      ("value", .num (ofInt d.plan.amount)), ("ttl", .num (ofInt 3600))]) sender
    return none
  | some b =>
    match b.state with
    | .offered =>
      mutate py d .accept recipient
        (.obj [("branch_id", .str b.branchId), ("receiver", .str recipient)]) recipient
      return none
    | .accepted =>
      mutate py d .commit recipient (.obj [("branch_id", .str b.branchId),
        ("sender", .str sender), ("payload", .obj [])]) sender
      return none
    | .committed | .final => return some b.state
    | s => throw (.stopped ("branch for " ++ recipient ++ " is " ++ s.value ++
        "; inspect before retrying"))

/-- The iterations of `fund_one`. -/
def iterate (recipient : String) : ℕ → EStateM DistributionError (Distribution ν) BranchState
  | 0 => throw (.stopped (recipient ++ " did not reach committed state; inspect nodes"))
  | n + 1 => do
    match ← advanceOne py d recipient with
    | some s => return s
    | none => iterate recipient n

/-- Pay one recipient. -/
def fundOne (recipient : String) : EStateM DistributionError (Distribution ν) BranchState :=
  iterate py d recipient 4

/-- `run`: pay the recipients, one after the other. -/
def run : List String → EStateM DistributionError (Distribution ν) Unit
  | [] => return
  | recipient :: recipients => do
    let _ ← fundOne py d recipient
    run recipients

/-- The command `fund`, with its option `--faucet-next-nonce`. -/
def fund (faucetNextNonce : Option ℤ) : EStateM DistributionError (Distribution ν) Unit := do
  match faucetNextNonce with
  | none => pure ()
  | some nonce =>
    if nonce < 0 then throw (.stopped "nonce cannot be negative")
    modify fun s => s.onState fun state =>
      state.useNonce sender (max (state.lastNonces.getD sender (-1)) (nonce - 1))
    save py
  run py d d.plan.recipients

end Distributor

/-! ## Schedules -/

/-- What happens to the world: the cluster moves, or the operator runs the distributor. -/
inductive DistributorEvent (ν : Type) where
  | move (m : Move ν)
  | fund (faucetNextNonce : Option ℤ) (turns : List (Turn ν))

/-- The world after an event. A run starts from the journal on disk. -/
def Distributor.step [DecidableEq ν] (py : PyLib ν) (d : Distributor) (w : World ν) :
    DistributorEvent ν → Option (World ν)
  | .move m => some { w with cluster := w.cluster.move py m }
  | .fund faucetNextNonce turns =>
    some (after (d.fund py faucetNextNonce) ⟨w, w.disk.getD .fresh, turns⟩).toWorld

end SplitChain
