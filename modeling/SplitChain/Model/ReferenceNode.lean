import SplitChain.Model.Auth
import SplitChain.Model.Replica

set_option relaxedAutoImplicit false
set_option autoImplicit false

/-!
# The reference node

The node of the program: its application is the ledger behind the authenticator, and `dispatch`
answers one request. A node without a role in a cluster executes mutations itself; a node with a
role replicates them when it leads, and refers the client to the leader otherwise.

## Main definitions

* `SplitChain.ledgerApp` — the application of the reference node.
* `SplitChain.PeerIdentity` — the identity of a TLS peer, with its permissions.
* `SplitChain.ReferenceNode.dispatch` — the answer to a request, and the node after it.
-/

namespace SplitChain

open Raise Proc

open PyNumber (val ofInt)

variable {ν : Type} [PyNumber ν]

/-! ## The application -/

/-- The JSON document of a snapshot. -/
def Snapshot.document (s : Snapshot ν) : Json ν :=
  .obj ([("schema", .str s.schema), ("round", .num s.round),
    ("canonical_head", .obj [("height", .num s.headHeight), ("digest", .str s.headDigest)]),
    ("balances", .obj (s.balances.mapVal Json.num).entries),
    ("locked", .obj (s.locked.mapVal Json.num).entries),
    ("branches", .arr (s.branches.map Branch.publicForm)),
    ("finalized", .arr (s.finalized.map fun f =>
      .obj [("branch_id", .str f.branchId), ("tx_digest", optionalText f.txDigest)])),
    ("canonical_history", .obj (s.canonicalHistory.mapVal Json.str).entries)] ++
    (s.genesis.map fun g => ("genesis", g)).toList)

/-- `restore`: refuse negative nonces. -/
def Authenticator.restore (a : Authenticator) : Except PyError Authenticator := do
  require (a.nonces.values.all fun nonce => decide (0 ≤ nonce)) (.protocol "invalid replay state")
  return a

/-- The ledger behind the authenticator, as an application that can be replicated. -/
def ledgerApp (py : PyLib ν) : App (Application ν) (Request ν) (Result ν) where
  apply mutation := Application.applyMutation py mutation true
  trial mutation := Application.tryMutation py mutation
  wellFormed mutation := (Method.ofJson? mutation.method).isSome
  digest app := py.sha256 (canonicalJson py app.ledger.snapshot.document)
  load app := do
    let ledger ← Ledger.fromSnapshot py app.ledger.snapshot app.ledger.genesis
    let authenticator ← app.authenticator.mapM Authenticator.restore
    return { app with ledger := ledger, authenticator := authenticator }

/-! ## Peers -/

/-- The identity of a peer, taken from its certificate. -/
structure PeerIdentity where
  nodeId : String
  roles : List String

namespace PeerIdentity

/-- The roles of the nodes of a cluster. -/
def nodeRoles : List String := ["primary", "secondary", "tertiary"]

/-- `METHOD_ROLES` -/
def methodRoles : String → List String
  | "status" | "ecosystem.demo" | "cluster.status" | "cluster.leadership" =>
    nodeRoles ++ ["overlord", "client"]
  | "cluster.heartbeat" | "cluster.timeout_vote" | "cluster.certificate" | "replica.prepare"
  | "replica.commit" | "replica.abort" | "replica.position" | "replica.history" => nodeRoles
  | "cluster.sync" => ["primary", "overlord"]
  | "offer" | "accept" | "commit" | "cancel" => ["client"]
  | "advance" => nodeRoles ++ ["overlord"]
  | "account.register" => ["overlord"]
  | _ => []

/-- Refuse a peer that has none of the roles a method asks for. -/
def authorize (peer : PeerIdentity) (method : String) : Except PyError Unit :=
  require ((methodRoles method).any fun role => role ∈ peer.roles) (.protocol
    ("peer " ++ peer.nodeId ++ " is not authorized for method " ++
      if method = "" then "<missing>" else method))

end PeerIdentity

/-! ## Dispatch -/

/-- The reference node. -/
abbrev ReferenceNode (ν : Type) := Node (Application ν) (Request ν)

/-- What a request that has been served returns. -/
inductive Reply (ν : Type) where
  | result (r : Result ν)
  | status (snapshot : Snapshot ν)
  | demo
deriving DecidableEq

/-- The answer to a request. -/
inductive Answer (ν : Type) where
  | result (reply : Reply ν)
  /-- `INVALID_REQUEST`, for every exception that `dispatch` catches but one -/
  | invalidRequest (cause : PyError)
  /-- `COMMIT_UNCERTAIN` -/
  | commitUncertain (message : String)
  /-- `NOT_LEADER` -/
  | notLeader (leader : Role)
  /-- A request of another node, which an operation of the cluster answers. -/
  | handedOver
  /-- An exception that `dispatch` does not catch. -/
  | raised (e : PyError)
deriving DecidableEq

/-- The exception handlers of `dispatch`. -/
def Answer.ofError : PyError → Answer ν
  | .commitUncertain message => .commitUncertain message
  | .protocol message => .invalidRequest (.protocol message)
  | .type => .invalidRequest .type
  | e => .raised e

namespace ReferenceNode

/-- The part of `dispatch` that runs on this node alone. -/
def serve (py : PyLib ν) (saves : Bool) (request : Request ν) :
    EStateM PyError (ReferenceNode ν) (Reply ν) := do
  Node.onApp (Application.verifyRequestActor py request true)
  match Method.ofJson? request.method with
  | some method =>
    let result ← Node.onApp (Application.runMethod py method request.params)
    Node.save saves
    return .result result
  | none =>
    match request.method.str? with
    | some "status" => return .status (← get).app.ledger.snapshot
    | some "ecosystem.demo" => return .demo
    | _ => throw (.protocol "unknown method")

/-- The mutation that a leader replicates for a request. -/
def mutation (n : ReferenceNode ν) (request : Request ν) : Request ν :=
  if n.app.authenticator.isSome then request else { request with id := .null, auth := .null }

/-- The checks of `dispatch` that come before anything else. -/
def checkRequest (peer : Option PeerIdentity) (request : Request ν) : Except PyError Unit := do
  require request.params.dict?.isSome (.protocol "params must be an object")
  -- the method is looked up in tables of names
  require request.method.hashable .type
  match peer with
  | some peer => peer.authorize (request.method.str?.getD "")
  | none => return

/-- The methods that `dispatch` hands to the operations of the cluster. -/
def clusterMethods : List String :=
  ["replica.prepare", "replica.commit", "replica.abort", "replica.position", "replica.history",
    "cluster.heartbeat", "cluster.timeout_vote", "cluster.certificate", "cluster.status",
    "cluster.leadership", "cluster.sync"]

/-- The computation behind `dispatch`, for a node with the given role in a cluster, if any. -/
def handle (py : PyLib ν) (keys : Keyring (Request ν)) (self : Option Role)
    (peer : Option PeerIdentity) (o : Node.Outcome) (request : Request ν) :
    EStateM PyError (ReferenceNode ν) (Answer ν) := do
  lift (checkRequest peer request)
  if request.method.str?.any fun name => name ∈ clusterMethods then return .handedOver
  else match self, Method.ofJson? request.method with
    | some role, some _ =>
      let n ← get
      if n.leadership.leader = role then
        let result ← Node.replicateMutation (ledgerApp py) keys role o (n.mutation request)
        return .result (.result result)
      else return .notLeader n.leadership.leader
    | _, _ =>
      let reply ← serve py o.finalSaves request
      return .result reply

/-- `dispatch`: the node after a request, and the answer. -/
def dispatch (py : PyLib ν) (keys : Keyring (Request ν)) (self : Option Role)
    (peer : Option PeerIdentity) (o : Node.Outcome) (request : Request ν) (n : ReferenceNode ν) :
    ReferenceNode ν × Answer ν :=
  match handle py keys self peer o request n with
  | .ok answer n' => (n', answer)
  | .error e n' => (n', .ofError e)

end ReferenceNode

end SplitChain
