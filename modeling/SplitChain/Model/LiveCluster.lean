import SplitChain.Model.CatchUp
import SplitChain.Model.NodeRecords

set_option relaxedAutoImplicit false
set_option autoImplicit false

/-!
# The cluster as it runs

Three honest nodes that replicate a log and elect their leaders, and the calls between them.
Whatever waits for the result of a call is cut there: a mutation or a synchronization of the leader,
which holds the lock of its node all the time, and the candidate's part of `failover_step`, which
takes the lock only where it changes its node. A call that has been sent can arrive at any later
time, in any order, more than once or never, and so can its result; whoever waits may give it up. A
node that crashes comes back from its file without the work that it had begun.

A call that is refused has no result: nobody tells a refusal from a call that is lost.

## Main definitions

* `SplitChain.PeerCall`, `SplitChain.PeerResult`, `SplitChain.Packet` — the calls between nodes.
* `SplitChain.Transfer` — `_sync_history`, with the call that offers a new envelope.
* `SplitChain.Task` — the work that holds the lock of a node.
* `SplitChain.Candidacy` — `failover_step` of a candidate.
* `SplitChain.LiveCluster`, `SplitChain.ClusterEvent`, `SplitChain.LiveCluster.step`.
-/

namespace SplitChain

open Raise Proc

variable {A μ ρ : Type}

/-! ## Calls -/

/-- The calls of a node to another one. -/
inductive PeerCall (μ : Type) where
  | prepare (envelope : Envelope μ)
  | commit (envelope : Envelope μ)
  | abort (envelope : Envelope μ)
  | position
  | history (start : ℤ)
  | leadership
  | timeoutVote (vote : FailureVote) (ledgerDigest : String)
  | certificate (certificate : LeadershipCertificate)
deriving DecidableEq

deriving instance DecidableEq for Node.History

/-- The results of these calls. -/
inductive PeerResult (μ : Type) where
  | prepared
  | committed (nonce : ℤ)
  | aborted
  | position (nonce : ℤ)
  | history (history : Node.History μ)
  | leadership (snapshot : LeadershipState)
  | vote (signed : FailureVote)
  | recorded
deriving DecidableEq

/-- A call that has been sent. -/
structure Packet (μ : Type) where
  sender : Role
  receiver : Role
  call : PeerCall μ
deriving DecidableEq

/-- The other nodes, in the order of their names. -/
def Role.peers : Role → Role × Role
  | primary => (secondary, tertiary)
  | secondary => (primary, tertiary)
  | tertiary => (primary, secondary)

/-! ## The work of a node -/

/-- `_sync_history` for one peer, and the call that offers it the new envelope afterwards, cut where
they wait for the result of a call. -/
inductive Transfer (μ : Type) where
  | locating (call : ℕ)
  | preparing (envelope : Envelope μ) (rest : List (Envelope μ)) (call : ℕ)
  | committing (envelope : Envelope μ) (rest : List (Envelope μ)) (prepared : Bool) (call : ℕ)
  | offering (call : ℕ)
  | ended (success : Bool)

namespace Transfer

/-- The call that a transfer waits for. -/
def call? : Transfer μ → Option ℕ
  | locating call | preparing _ _ call | committing _ _ _ call | offering call => some call
  | ended _ => none

/-- Go on with the envelopes that are left, then with the new one, if there is one. The next call
gets the number `fresh`. -/
def next (offer : Option (Envelope μ)) (fresh : ℕ) :
    List (Envelope μ) → Transfer μ × Option (PeerCall μ)
  | envelope :: rest => (preparing envelope rest fresh, some (.prepare envelope))
  | [] =>
    match offer with
    | some envelope => (offering fresh, some (.prepare envelope))
    | none => (ended true, none)

/-- What a node with the log and the position does with the result of a call, or without it. -/
def answer (offer : Option (Envelope μ)) (fresh : ℕ) (log : List (Envelope μ)) (position : ℤ)
    (result : Option (PeerResult μ)) : Transfer μ → Transfer μ × Option (PeerCall μ)
  | locating _ =>
    match result with
    | some (.position nonce) =>
      if 0 ≤ nonce ∧ nonce ≤ position ∧ (log.length : ℤ) = position then
        next offer fresh (log.drop nonce.toNat)
      else (ended false, none)
    | _ => (ended false, none)
  | preparing envelope rest _ =>
    (committing envelope rest result.isSome fresh, some (.commit envelope))
  | committing _ rest prepared _ =>
    if prepared && result.isSome then next offer fresh rest else (ended false, none)
  | offering _ => (ended result.isSome, none)
  | ended success => (ended success, none)

end Transfer

/-- The work that holds the lock of a node, cut where it waits: a mutation that is replicated, or
`sync_replicas`, which replicates none. -/
inductive Task (μ : Type) where
  /-- `_abort_uncommitted_primary` -/
  | clearing (work : Option μ)
  /-- The log is transferred to the peers, and the new envelope offered. -/
  | transferring (offer : Option (Envelope μ)) (transfers : Role → Transfer μ)
  /-- No peer has prepared the envelope. -/
  | abandoning (envelope : Envelope μ)
  /-- The envelope has been committed; the calls that tell the two peers. -/
  | confirming (envelope : Envelope μ) (first second : ℕ)

/-- Where the candidate's part of `failover_step` waits: in `_sync_from_peer` with the turns that
are left, in `_sync_history`, or for one of its own calls. -/
inductive Stage (μ : Type) where
  | locating (call : ℕ)
  | pulling (remote : ℤ) (turns : ℕ) (position : ℤ) (call : ℕ)
  | taking (remote : ℤ) (turns : ℕ) (entries : List (Envelope μ))
  | settling (remote : ℤ) (turns : ℕ) (entry : Envelope μ) (entries : List (Envelope μ))
  | pushing (transfer : Transfer μ)
  | confirming (call : ℕ)
  | inquiring (call : ℕ)
  | voting (vote : FailureVote) (call : ℕ)
  | certifying (certificate : LeadershipCertificate) (call : ℕ)

/-- The call that a candidate waits for. -/
def Stage.call? : Stage μ → Option ℕ
  | locating call | pulling _ _ _ call | confirming call | inquiring call | voting _ call
  | certifying _ call => some call
  | pushing transfer => transfer.call?
  | taking _ _ _ | settling _ _ _ _ => none

/-- The candidate's part of `failover_step`, with its tick and its witness. -/
structure Candidacy (μ : Type) where
  tick : ℤ
  witness : Role
  stage : Stage μ

/-- What a candidate does next: it stops, calls its witness and waits, goes on, prepares or commits
an envelope of its witness, or adopts a certificate. -/
inductive Intent (μ : Type) where
  | stop
  | ask (call : PeerCall μ) (stage : ℕ → Stage μ)
  | reach (stage : Stage μ)
  | prepare (remote : ℤ) (turns : ℕ) (entry : Envelope μ) (entries : List (Envelope μ))
  | commit (remote : ℤ) (turns : ℕ) (entry : Envelope μ) (entries : List (Envelope μ))
  | adopt (certificate : LeadershipCertificate)

namespace Node

/-- The vote of a candidate against its leader. -/
def candidateVote (keys : Keyring μ) (self : Role) (tick : ℤ) (n : Node A μ) : FailureVote :=
  keys.failover.vote {
    voter := self
    term := n.leadership.term + 1
    accused := n.leadership.leader
    candidate := self
    observedTick := tick
    committedNonce := n.committedPosition }

/-- `_reconcile_with_witness` after `_sync_from_peer`, or without it. -/
def push (n : Node A μ) (remote : ℤ) : Intent μ :=
  if n.replicationPending.isSome ∨ (n.replicationLog.length : ℤ) ≠ n.committedPosition then .stop
  else if remote < n.committedPosition then .ask .position fun k => .pushing (.locating k)
  else .ask (.history n.committedPosition) .confirming

/-- A turn of `_sync_from_peer`. -/
def pull (n : Node A μ) (remote : ℤ) : ℕ → Intent μ
  | 0 => .stop
  | turns + 1 =>
    .ask (.history n.committedPosition) (.pulling remote turns n.committedPosition)

/-- A candidate that agrees with its witness votes. -/
def poll (app : App A μ ρ) (keys : Keyring μ) (self : Role) (tick : ℤ) (n : Node A μ) : Intent μ :=
  let vote := n.candidateVote keys self tick
  .ask (.timeoutVote vote (app.digest n.app)) (.voting vote)

/-- The candidate's part of `failover_step`, from the result of a call, or without it, to the next
point where it waits. The next call gets the number `fresh`. -/
def proceed [DecidableEq μ] (app : App A μ ρ) (keys : Keyring μ) (self : Role) (tick : ℤ)
    (n : Node A μ) (fresh : ℕ) (result : Option (PeerResult μ)) : Stage μ → Intent μ
  | .locating _ =>
    match result with
    | some (.position remote) =>
      if n.committedPosition < remote then n.pull remote 10
      else if n.replicationPending.isSome then .stop
      else n.push remote
    | _ => .stop
  | .pulling remote turns position _ =>
    match result with
    | some (.history h) =>
      if h.nonce < position then .stop
      else if h.nonce = position then
        if h.ledgerDigest = app.digest n.app ∧ n.replicationPending.isNone then n.push remote
        else .stop
      else if h.entries.isEmpty then .stop
      else .reach (.taking remote turns h.entries)
    | _ => .stop
  | .taking remote turns [] => n.pull remote turns
  | .taking remote turns (entry :: entries) =>
    match n.replicationPending with
    | some pending =>
      if pending = entry then .reach (.settling remote turns entry entries) else .stop
    | none => .prepare remote turns entry entries
  | .settling remote turns entry entries => .commit remote turns entry entries
  | .pushing transfer =>
    let (after, next) := transfer.answer none fresh n.replicationLog n.committedPosition result
    match next, after with
    | some call, _ => .ask call fun _ => .pushing after
    | none, .ended true => .ask (.history n.committedPosition) .confirming
    | none, _ => .stop
  | .confirming _ =>
    match result with
    | some (.history h) =>
      if h.nonce = n.committedPosition ∧ h.ledgerDigest = app.digest n.app then
        .ask .leadership .inquiring
      else .stop
    | _ => .stop
  | .inquiring _ =>
    match result with
    | some (.leadership remote) =>
      if remote.term = n.leadership.term + 1 then
        match n.leadership.recover keys.failover remote with
        | .ok (some certificate) => .adopt certificate
        | _ => .stop
      else n.poll app keys self tick
    | _ => n.poll app keys self tick
  | .voting vote _ =>
    match result with
    | some (.vote signed) =>
      match n.leadership.certify keys.failover vote signed with
      | .ok (some certificate) => .ask (.certificate certificate) (.certifying certificate)
      | _ => .stop
    | _ => .stop
  | .certifying certificate _ =>
    match result with
    | some .recorded => .adopt certificate
    | _ => .stop

end Node

/-! ## The cluster -/

/-- The nodes, the calls between them with the results that have been sent, the work that waits for
the lock of each node and the work that holds it, and the candidates. -/
structure LiveCluster (A μ : Type) where
  nodes : Role → Node A μ
  packets : List (Packet μ)
  results : List (ℕ × PeerResult μ)
  waiting : Role → List (Option μ)
  tasks : Role → Option (Task μ)
  candidacies : Role → Option (Candidacy μ)

/-- What can happen. -/
inductive ClusterEvent (A μ : Type) where
  /-- The receiver of a call serves it, when its clock shows `now`. -/
  | handle (call : ℕ) (now : ℤ)
  | perform (self : Role) (background : Node.Background A)
  /-- The leader tells its last certificate. -/
  | tell (self : Role)
  /-- A mutation, or a request to synchronize, comes to the leader. -/
  | submit (self : Role) (work : Option μ)
  /-- Work that waits gets the lock. -/
  | start (self : Role) (k : ℕ)
  | cleared (self : Role)
  /-- A transfer gets the result of its call, or gives it up. -/
  | resume (self peer : Role) (result : Option (PeerResult μ))
  | decide (self : Role)
  | abandoned (self : Role)
  /-- The leader knows which peers have confirmed its commit, and answers its client. -/
  | finish (self : Role) (first second : Bool)
  /-- A node becomes a candidate. -/
  | stand (self : Role) (tick : ℤ)
  /-- A candidate gets the result of its call, or gives it up, or gets the lock. -/
  | proceed (self : Role) (result : Option (PeerResult μ))
  | crash (self : Role)

namespace LiveCluster

/-- The cluster at the start. -/
def initial (boot : Role → A) (hasStore : Role → Bool) : LiveCluster A μ where
  nodes r := .fresh (boot r) (hasStore r)
  packets := []
  results := []
  waiting _ := []
  tasks _ := none
  candidacies _ := none

section Updates

variable (s : LiveCluster A μ) (self : Role)

/-- A node changes. -/
def become (n : Node A μ) : LiveCluster A μ := { s with nodes := Function.update s.nodes self n }

/-- A call is sent. It gets the next number. -/
def send (receiver : Role) (call : PeerCall μ) : LiveCluster A μ :=
  { s with packets := s.packets ++ [⟨self, receiver, call⟩] }

/-- A call is sent to both peers. -/
def broadcast (call : PeerCall μ) : LiveCluster A μ :=
  (s.send self self.peers.1 call).send self self.peers.2 call

/-- A result is sent. -/
def reply (call : ℕ) (result : PeerResult μ) : LiveCluster A μ :=
  { s with results := s.results ++ [(call, result)] }

/-- Work waits for the lock. -/
def setWaiting (work : List (Option μ)) : LiveCluster A μ :=
  { s with waiting := Function.update s.waiting self work }

/-- The lock of a node is held by some work, or free. -/
def setTask (task : Option (Task μ)) : LiveCluster A μ :=
  { s with tasks := Function.update s.tasks self task }

/-- A candidate goes on, or stops. -/
def setCandidacy (c : Option (Candidacy μ)) : LiveCluster A μ :=
  { s with candidacies := Function.update s.candidacies self c }

/-- A candidate reaches a stage. -/
def reach (c : Candidacy μ) (stage : Stage μ) : LiveCluster A μ :=
  s.setCandidacy self (some { c with stage := stage })

/-- A candidate calls its witness and waits. -/
def ask (c : Candidacy μ) (call : PeerCall μ) (stage : ℕ → Stage μ) : LiveCluster A μ :=
  (s.send self c.witness call).reach self c (stage s.packets.length)

/-- A candidate stops. -/
def stop : LiveCluster A μ := s.setCandidacy self none

/-- Whether the lock of a node is free. -/
def free : Bool := (s.tasks self).isNone

end Updates

variable [DecidableEq μ]

/-- The result of the call that is waited for has been sent, or none is waited for any longer. -/
def received (s : LiveCluster A μ) (call : Option ℕ) : Option (PeerResult μ) → Bool
  | some result => call.any fun k => decide ((k, result) ∈ s.results)
  | none => true

variable (app : App A μ ρ) (keys : Keyring μ) (boot : Role → A)

/-! ## Serving calls -/

/-- An operation of a node serves a call: if it returns, the result is sent. -/
def serveBy {α : Type} (s : LiveCluster A μ) (k : ℕ) (self : Role)
    (x : EStateM PyError (Node A μ) α) (result : PeerResult μ) : Option (LiveCluster A μ) :=
  if s.free self then
    let t := s.become self (after x (s.nodes self))
    some (if returns x (s.nodes self) then t.reply k result else t)
  else none

/-- The result of a call that changes nothing. -/
def query (n : Node A μ) (self : Role) (now : ℤ) : PeerCall μ → Option (PeerResult μ)
  | .position => if n.leadership.leader = self then none else some (.position n.committedPosition)
  | .history start => (n.history app start).toOption.map .history
  | .leadership => some (.leadership n.leadership)
  | .timeoutVote vote ledgerDigest =>
    (n.receiveTimeoutVote app keys self now vote ledgerDigest).toOption.map .vote
  | _ => none

/-- Whether a call is served without the lock of the node. -/
def isLockless : PeerCall μ → Bool
  | .position | .leadership => true
  | _ => false

/-- The receiver of a call serves it. -/
def serve (s : LiveCluster A μ) (k : ℕ) (self : Role) (now : ℤ) :
    PeerCall μ → Option (LiveCluster A μ)
  | .prepare envelope =>
    s.serveBy k self (Node.prepareReplica app keys self true envelope) .prepared
  | .commit envelope =>
    s.serveBy k self (Node.commitReplica app keys self true envelope) (.committed envelope.nonce)
  | .abort envelope => s.serveBy k self (Node.abortReplica app keys self true envelope) .aborted
  | .certificate c => s.serveBy k self (Node.recordCertificate keys true c) .recorded
  | call =>
    if s.free self || isLockless call then
      (query app keys (s.nodes self) self now call).map (s.reply k)
    else none

/-! ## The work of the leader -/

/-- The part of `replicate_mutation` and of `sync_replicas` that follows when no record is left. -/
def begin (s : LiveCluster A μ) (self : Role) (work : Option μ) : LiveCluster A μ :=
  let k := s.packets.length
  let transfers (r : Role) : Transfer μ :=
    if r = self.peers.1 then .locating k else if r = self.peers.2 then .locating (k + 1)
    else .ended false
  match work with
  | none => (s.broadcast self .position).setTask self (some (.transferring none transfers))
  | some mutation =>
    match Node.propose app keys self true mutation (s.nodes self) with
    | .ok envelope n => ((s.become self n).broadcast self .position).setTask self
        (some (.transferring (some envelope) transfers))
    | .error _ n => (s.become self n).setTask self none

/-- Work gets the lock: a record that is left is aborted first. -/
def start (s : LiveCluster A μ) (self : Role) (work : Option μ) : LiveCluster A μ :=
  match (s.nodes self).replicationPending with
  | some record => (s.broadcast self (.abort record)).setTask self (some (.clearing work))
  | none => s.begin app keys self work

/-- The transfers have ended: the envelope is committed if one of the peers has prepared it. -/
def conclude (s : LiveCluster A μ) (self : Role) (offer : Option (Envelope μ))
    (acknowledged : Bool) : LiveCluster A μ :=
  match offer with
  | none => s.setTask self none
  | some envelope =>
    if acknowledged then
      match Node.commitLocal app true envelope (s.nodes self) with
      | .ok _ n => (((s.setTask self none).become self n).broadcast self (.commit envelope)).setTask
          self (some (.confirming envelope s.packets.length (s.packets.length + 1)))
      | .error _ n => (s.setTask self none).become self n
    else (s.broadcast self (.abort envelope)).setTask self (some (.abandoning envelope))

/-! ## The candidate -/

/-- The successor of a leader that has been silent for too long becomes a candidate, and asks its
witness for its position. A node whose clock has not been started starts it instead. -/
def stand (s : LiveCluster A μ) (self : Role) (tick : ℤ) : Option (LiveCluster A μ) := do
  let state := (s.nodes self).leadership
  guard ((s.candidacies self).isNone ∧ state.lastHeartbeatTick ≠ 0)
  guard (state.leader ≠ .tertiary ∧ state.leader.successor? = some self)
  guard (state.timeoutTicks ≤ tick - state.lastHeartbeatTick)
  let witness ← Role.witness? state.leader self
  return s.ask self ⟨tick, witness, .locating 0⟩ .position .locating

/-- A candidate takes a step that needs the lock of its node, and goes on if it returns. -/
def changeBy {α : Type} (s : LiveCluster A μ) (self : Role) (c : Candidacy μ)
    (x : EStateM PyError (Node A μ) α) (stage : Stage μ) : Option (LiveCluster A μ) :=
  if s.free self then
    let t := s.become self (after x (s.nodes self))
    some (if returns x (s.nodes self) then t.reach self c stage else t.stop self)
  else none

/-- A candidate adopts a certificate, and stops. -/
def adopt (s : LiveCluster A μ) (self : Role) (certificate : LeadershipCertificate) :
    Option (LiveCluster A μ) :=
  if s.free self then
    some ((s.become self (after (Node.recordCertificate keys true certificate)
      (s.nodes self))).stop self)
  else none

/-- A candidate does what it does next. -/
def move (s : LiveCluster A μ) (self : Role) (c : Candidacy μ) : Intent μ → Option (LiveCluster A μ)
  | .stop => some (s.stop self)
  | .ask call stage => some (s.ask self c call stage)
  | .reach stage => some (s.reach self c stage)
  | .prepare remote turns entry entries =>
    s.changeBy self c (Node.prepareReplica app keys self true entry)
      (.settling remote turns entry entries)
  | .commit remote turns entry entries =>
    s.changeBy self c (Node.commitReplica app keys self true entry) (.taking remote turns entries)
  | .adopt certificate => s.adopt keys self certificate

/-! ## Steps -/

/-- **The cluster.** -/
def step (s : LiveCluster A μ) : ClusterEvent A μ → Option (LiveCluster A μ)
  | .handle k now => do
    let packet ← s.packets[k]?
    s.serve app keys k packet.receiver now packet.call
  | .perform self background =>
    if s.free self || background.lockless then
      some (s.become self (background.operation.run app keys self (s.nodes self)))
    else none
  | .tell self => do
    guard (s.free self ∧ (s.nodes self).leadership.leader = self)
    let certificate ← (s.nodes self).leadership.certificates.getLast?
    return s.broadcast self (.certificate certificate)
  | .submit self work =>
    if (s.nodes self).leadership.leader = self then
      some (s.setWaiting self (s.waiting self ++ [work]))
    else none
  | .start self k => do
    guard (s.free self)
    let work ← (s.waiting self)[k]?
    return (s.setWaiting self ((s.waiting self).eraseIdx k)).start app keys self work
  | .cleared self =>
    match s.tasks self with
    | some (.clearing work) =>
      some ((s.become self ((Operation.abortUncommitted true).run app keys self
        (s.nodes self))).begin app keys self work)
    | _ => none
  | .resume self peer result =>
    match s.tasks self with
    | some (.transferring offer transfers) =>
      if (transfers peer).call?.isSome ∧ s.received (transfers peer).call? result then
        let n := s.nodes self
        let (after, next) := (transfers peer).answer offer s.packets.length n.replicationLog
          n.committedPosition result
        let task := Task.transferring offer (Function.update transfers peer after)
        match next with
        | some call => some ((s.send self peer call).setTask self (some task))
        | none => some (s.setTask self (some task))
      else none
    | _ => none
  | .decide self =>
    match s.tasks self with
    | some (.transferring offer transfers) =>
      match transfers self.peers.1, transfers self.peers.2 with
      | .ended first, .ended second => some (s.conclude app self offer (first || second))
      | _, _ => none
    | _ => none
  | .abandoned self =>
    match s.tasks self with
    | some (.abandoning _) =>
      some ((s.become self ((Operation.abandon true).run app keys self (s.nodes self))).setTask
        self none)
    | _ => none
  | .finish self first second =>
    match s.tasks self with
    | some (.confirming envelope firstCall secondCall) =>
      let confirmed (k : ℕ) (told : Bool) : Bool :=
        !told || decide ((k, .committed envelope.nonce) ∈ s.results)
      if confirmed firstCall first && confirmed secondCall second then some (s.setTask self none)
      else none
    | _ => none
  | .stand self tick => s.stand self tick
  | .proceed self result => do
    let c ← s.candidacies self
    guard (s.received c.stage.call? result)
    s.move app keys self c
      ((s.nodes self).proceed app keys self c.tick s.packets.length result c.stage)
  | .crash self => do
    let n ← (s.nodes self).reboot app keys (boot self)
    return (((s.become self n).setWaiting self []).setTask self none).setCandidacy self none

end LiveCluster

end SplitChain
