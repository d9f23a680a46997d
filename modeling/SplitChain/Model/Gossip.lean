import SplitChain.Library.Dict
import SplitChain.Library.Proc
import SplitChain.Model.Identity
import SplitChain.Model.Runs

set_option relaxedAutoImplicit false
set_option autoImplicit false

/-!
# Signed gossip

The nodes of the local gossip model `splitchain.network` sign messages of a branch with increasing
sequence numbers and hand them to their peers, each of which checks the certificate of the sender,
the signature and the sequence. A broadcast goes through the peers in the order in which they were
connected and ends at the first one that refuses.

## Main definitions

* `SplitChain.GossipMessage`, `SplitChain.Mailbox.receive` — one message at one node.
* `SplitChain.GossipNetwork`, `SplitChain.GossipNetwork.connect`,
  `SplitChain.GossipNetwork.create`, `SplitChain.GossipNetwork.broadcast`.

## Main results

* `SplitChain.GossipNetwork.after_broadcast` — what a broadcast changes.
* `SplitChain.GossipNetwork.broadcast_reaches_iff` — when it reaches every peer that would accept.
* `SplitChain.GossipNetwork.broadcast_again` — a broadcast that is repeated changes nothing.
-/

namespace SplitChain

open Raise Proc

open PyNumber (ofInt)

variable {ν : Type} [PyNumber ν]

/-! ## Messages -/

/-- A message of a branch. -/
structure GossipMessage (ν : Type) where
  sender : String
  branchId : String
  sequence : ℤ
  kind : String
  payload : Json ν
  signature : String

namespace GossipMessage

/-- The part of a message that is signed. -/
def unsigned (m : GossipMessage ν) : Json ν :=
  .obj [("branch_id", .str m.branchId), ("kind", .str m.kind), ("payload", m.payload),
    ("sender", .str m.sender), ("sequence", .num (ofInt m.sequence))]

/-- The sequence that a message belongs to. -/
def scope (m : GossipMessage ν) : String × String := (m.sender, m.branchId)

/-- Whether two messages have the same place in the same sequence. -/
def samePlace (m k : GossipMessage ν) : Bool := k.scope == m.scope && k.sequence == m.sequence

end GossipMessage

/-- What a node has received, with the last sequence number of every scope. -/
structure Mailbox (ν : Type) where
  received : List (GossipMessage ν)
  incomingSequences : Dict (String × String) ℤ
  received_le : ∀ m ∈ received, m.sequence ≤ incomingSequences.getD m.scope 0

namespace Mailbox

/-- Nothing is received. -/
def empty : Mailbox ν := ⟨[], ∅, nofun⟩

omit [PyNumber ν] in
/-- A new sequence number is the last one of its scope. -/
lemma received_le_set (box : Mailbox ν) (m : GossipMessage ν)
    (hnew : box.incomingSequences.getD m.scope 0 < m.sequence) :
    ∀ k ∈ box.received ++ [m],
      k.sequence ≤ (box.incomingSequences.set m.scope m.sequence).getD k.scope 0 := by
  intro k hk
  rw [Dict.getD_set]
  rcases List.mem_append.mp hk with hk | hk
  · have hle := box.received_le k hk
    split_ifs with hscope
    · rw [← hscope] at hle
      omega
    · exact hle
  · rw [List.mem_singleton.mp hk, if_pos rfl]

/-- File a message whose sequence number is new. -/
def file (box : Mailbox ν) (m : GossipMessage ν)
    (hnew : box.incomingSequences.getD m.scope 0 < m.sequence) : Mailbox ν where
  received := box.received ++ [m]
  incomingSequences := box.incomingSequences.set m.scope m.sequence
  received_le := box.received_le_set m hnew

/-- Receive a message. -/
def receive (py : PyLib ν) (authority : CertificateAuthority) (box : Mailbox ν)
    (m : GossipMessage ν) (certificate : NodeCertificate) (key : List UInt8) (currentRound : ℤ) :
    Except PyError (Mailbox ν) := do
  require (m.sender == certificate.nodeId) (.protocol "message sender does not match certificate")
  require (← authority.verify py certificate currentRound "writer")
    (.protocol "sender certificate is not valid for writer role")
  require (← compareDigest (hmacDigest py key m.unsigned) m.signature)
    (.protocol "invalid gossip signature")
  if hnew : box.incomingSequences.getD m.scope 0 < m.sequence then return box.file m hnew
  else .error (.protocol "stale or duplicate gossip sequence")

/-- The message has been received exactly once, and no other one in its place. -/
def Holds (box : Mailbox ν) (m : GossipMessage ν) : Prop :=
  box.received.filter (GossipMessage.samePlace m) = [m]

section Receive

variable {py : PyLib ν} {authority : CertificateAuthority} {box box' : Mailbox ν}
  {m : GossipMessage ν} {certificate : NodeCertificate} {key : List UInt8} {currentRound : ℤ}

omit [PyNumber ν] in
/-- No message has been received in the place of one with a new sequence number. -/
lemma filter_samePlace (hnew : box.incomingSequences.getD m.scope 0 < m.sequence) :
    box.received.filter (GossipMessage.samePlace m) = [] := by
  refine List.filter_eq_nil_iff.mpr fun k hk hsame => ?_
  simp only [GossipMessage.samePlace, Bool.and_eq_true, beq_iff_eq] at hsame
  have hle := box.received_le k hk
  rw [hsame.1, hsame.2] at hle
  omega

/-- A message that is accepted has a new sequence number and is filed. -/
lemma of_receive (h : box.receive py authority m certificate key currentRound = .ok box') :
    ∃ hnew : box.incomingSequences.getD m.scope 0 < m.sequence, box' = box.file m hnew := by
  simp only [receive, bind_eq_ok] at h
  obtain ⟨_, _, _, _, _, _, _, _, _, _, h⟩ := h
  split_ifs at h with hnew
  exact ⟨hnew, (Except.ok.inj h).symm⟩

/-- A message that is accepted has been received exactly once then, and not before. -/
lemma holds_of_receive (h : box.receive py authority m certificate key currentRound = .ok box') :
    box'.Holds m ∧ ¬box.Holds m := by
  obtain ⟨hnew, rfl⟩ := of_receive h
  have hnone := filter_samePlace hnew
  constructor
  · have hself : GossipMessage.samePlace m m = true := by simp [GossipMessage.samePlace]
    rw [Holds, file, List.filter_append, hnone, List.nil_append, List.filter_singleton, hself]
    rfl
  · rw [Holds, hnone]
    exact nofun

/-- A message that passes every check is filed. -/
lemma receive_of_checks (hsender : m.sender = certificate.nodeId)
    (hverify : authority.verify py certificate currentRound "writer" = .ok true)
    (hsignature : compareDigest (hmacDigest py key m.unsigned) m.signature = .ok true)
    (hnew : box.incomingSequences.getD m.scope 0 < m.sequence) :
    box.receive py authority m certificate key currentRound = .ok (box.file m hnew) := by
  rw [receive, hverify, hsignature, hsender, beq_self_eq_true]
  simp only [require, if_true, ok_bind, dif_pos hnew]
  rfl

/-- A signed message with a new sequence number is accepted with a valid certificate of its
sender. -/
lemma receive_signed (hsender : m.sender = certificate.nodeId)
    (hissuer : certificate.issuer = authority.issuer) (hfrom : certificate.validFrom ≤ currentRound)
    (huntil : currentRound < certificate.validUntil) (hrole : "writer" ∈ certificate.roles)
    (hissued : certificate.signature = authority.sign py certificate)
    (hsigned : m.signature = hmacDigest py key m.unsigned)
    (hnew : box.incomingSequences.getD m.scope 0 < m.sequence) :
    box.receive py authority m certificate key currentRound = .ok (box.file m hnew) := by
  have hverify : authority.verify py certificate currentRound "writer" = .ok true := by
    rw [CertificateAuthority.verify, if_pos ⟨hissuer, hfrom, huntil, hrole⟩, hissued]
    exact compareDigest_self py _ certificate.payload
  have hsignature : compareDigest (hmacDigest py key m.unsigned) m.signature = .ok true := by
    rw [hsigned]
    exact compareDigest_self py key m.unsigned
  exact receive_of_checks hsender hverify hsignature hnew

/-- A message is accepted once only. -/
lemma receive_again (h : box.receive py authority m certificate key currentRound = .ok box') :
    ∃ e, box'.receive py authority m certificate key currentRound = .error e := by
  obtain ⟨hnew, rfl⟩ := of_receive h
  cases hagain : (box.file m hnew).receive py authority m certificate key currentRound with
  | error e => exact ⟨e, rfl⟩
  | ok box'' =>
    obtain ⟨hlt, -⟩ := of_receive hagain
    rw [file, Dict.getD_set, if_pos rfl] at hlt
    exact (lt_irrefl _ hlt).elim

end Receive

end Mailbox

/-! ## The network -/

/-- A node: what it is, its peers with their places in the network, and its sequences. -/
structure GossipNode (ν : Type) where
  certificate : NodeCertificate
  key : List UInt8
  authority : CertificateAuthority
  peers : Dict String ℕ
  outgoingSequences : Dict String ℤ
  mailbox : Mailbox ν

/-- The nodes of a network, each with peers under the ids of other nodes. -/
structure GossipNetwork (ν : Type) where
  nodes : List (GossipNode ν)
  peers_wf : ∀ n ∈ nodes, ∀ id place, n.peers.get? id = some place →
    id ≠ n.certificate.nodeId ∧ ∃ p, nodes[place]? = some p ∧ p.certificate.nodeId = id

namespace GossipNetwork

omit [PyNumber ν] in
/-- A network stays well-formed when a node gets other sequences or peers that are nodes of it. -/
lemma peers_wf_modify (net : GossipNetwork ν) {place : ℕ} {f : GossipNode ν → GossipNode ν}
    (hcertificate : ∀ n, (f n).certificate = n.certificate)
    (hpeers : ∀ n, net.nodes[place]? = some n → ∀ id other, (f n).peers.get? id = some other →
      id ≠ n.certificate.nodeId ∧ ∃ p, net.nodes[other]? = some p ∧ p.certificate.nodeId = id) :
    ∀ n ∈ net.nodes.modify place f, ∀ id other, n.peers.get? id = some other →
      id ≠ n.certificate.nodeId ∧
        ∃ p, (net.nodes.modify place f)[other]? = some p ∧ p.certificate.nodeId = id := by
  have hmodified : ∀ (other : ℕ) (p : GossipNode ν), net.nodes[other]? = some p →
      ∃ q : GossipNode ν, (net.nodes.modify place f)[other]? = some q ∧
        q.certificate = p.certificate := by
    intro other p hp
    rw [List.getElem?_modify, hp]
    refine ⟨_, rfl, ?_⟩
    split_ifs
    · exact hcertificate p
    · rfl
  have hkeep : ∀ n : GossipNode ν, (∀ id other, n.peers.get? id = some other →
      id ≠ n.certificate.nodeId ∧ ∃ p, net.nodes[other]? = some p ∧ p.certificate.nodeId = id) →
      ∀ id other, n.peers.get? id = some other → id ≠ n.certificate.nodeId ∧
        ∃ p, (net.nodes.modify place f)[other]? = some p ∧ p.certificate.nodeId = id := by
    intro n hn id other hother
    obtain ⟨hne, p, hp, hid⟩ := hn id other hother
    obtain ⟨q, hq, hsame⟩ := hmodified other p hp
    exact ⟨hne, q, hq, (congrArg NodeCertificate.nodeId hsame).trans hid⟩
  intro n hn
  obtain ⟨j, hj⟩ := List.mem_iff_getElem?.mp hn
  rw [List.getElem?_modify, Option.map_eq_map, Option.map_eq_some_iff] at hj
  obtain ⟨old, hold, rfl⟩ := hj
  split_ifs with hplace
  · subst hplace
    refine hkeep (f old) fun id other hother => ?_
    rw [hcertificate]
    exact hpeers old hold id other hother
  · exact hkeep old (net.peers_wf old (List.mem_of_getElem? hold))

/-- Give a node another mailbox. -/
def setMailbox (net : GossipNetwork ν) (place : ℕ) (box : Mailbox ν) : GossipNetwork ν where
  nodes := net.nodes.modify place fun n => { n with mailbox := box }
  peers_wf := net.peers_wf_modify (fun _ => rfl)
    fun n hn => net.peers_wf n (List.mem_of_getElem? hn)

/-- Set the last sequence number that a node has used for a branch. -/
def setOutgoing (net : GossipNetwork ν) (place : ℕ) (branchId : String) (sequence : ℤ) :
    GossipNetwork ν where
  nodes := net.nodes.modify place fun n =>
    { n with outgoingSequences := n.outgoingSequences.set branchId sequence }
  peers_wf := net.peers_wf_modify (fun _ => rfl)
    fun n hn => net.peers_wf n (List.mem_of_getElem? hn)

/-- The node at a place. -/
def node (net : GossipNetwork ν) (place : ℕ) : Except PyError (GossipNode ν) :=
  orRaise net.nodes[place]? .index

/-- Connect a node with a peer. -/
def connect (net : GossipNetwork ν) (place other : ℕ) : Except PyError (GossipNetwork ν) :=
  match hn : net.nodes[place]?, hp : net.nodes[other]? with
  | some n, some p =>
    if hsame : p.certificate.nodeId = n.certificate.nodeId then
      .error (.protocol "node cannot peer with itself")
    else .ok {
      nodes := net.nodes.modify place fun n =>
        { n with peers := n.peers.set p.certificate.nodeId other }
      peers_wf := net.peers_wf_modify (fun _ => rfl) fun n' hn' id other' hother => by
        obtain rfl : n = n' := Option.some.inj (hn.symm.trans hn')
        rw [Dict.get?_set] at hother
        split_ifs at hother with hid
        · obtain rfl := Option.some.inj hother
          exact hid ▸ ⟨hsame, p, hp, rfl⟩
        · exact net.peers_wf n (List.mem_of_getElem? hn) id other' hother }
  | _, _ => .error .index

variable (py : PyLib ν)

/-- Create a message of a node. -/
def create (place : ℕ) (branchId kind : String) (payload : Json ν) :
    EStateM PyError (GossipNetwork ν) (GossipMessage ν) := do
  lift (require (branchId != "") (.protocol "branch-scoped message requires branch id"))
  let n ← lift ((← get).node place)
  let sequence := n.outgoingSequences.getD branchId 0 + 1
  let m : GossipMessage ν := ⟨n.certificate.nodeId, branchId, sequence, kind, payload, ""⟩
  modify fun net => net.setOutgoing place branchId sequence
  return { m with signature := hmacDigest py n.key m.unsigned }

/-- What a node makes of a message: its mailbox after it has received it. -/
def received (net : GossipNetwork ν) (place : ℕ) (m : GossipMessage ν)
    (certificate : NodeCertificate) (key : List UInt8) (currentRound : ℤ) :
    Except PyError (Mailbox ν) := do
  let p ← net.node place
  p.mailbox.receive py p.authority m certificate key currentRound

/-- Hand a message to the nodes at some places, one after the other. -/
def deliver (m : GossipMessage ν) (certificate : NodeCertificate) (key : List UInt8)
    (currentRound : ℤ) : List ℕ → EStateM PyError (GossipNetwork ν) ℕ
  | [] => return 0
  | place :: places => do
    let box ← lift ((← get).received py place m certificate key currentRound)
    modify fun net => net.setMailbox place box
    return (← deliver m certificate key currentRound places) + 1

/-- Broadcast a message of a node to its peers: the number of peers it was delivered to. -/
def broadcast (place : ℕ) (m : GossipMessage ν) (currentRound : ℤ) :
    EStateM PyError (GossipNetwork ν) ℕ := do
  let n ← lift ((← get).node place)
  deliver py m n.certificate n.key currentRound n.peers.values

/-! ## What a broadcast changes -/

/-- The mailbox of the node at a place. -/
def mailbox? (net : GossipNetwork ν) (place : ℕ) : Option (Mailbox ν) :=
  net.nodes[place]?.map (·.mailbox)

/-- Whether the node at a place would accept a message. -/
def accepts (net : GossipNetwork ν) (m : GossipMessage ν) (certificate : NodeCertificate)
    (key : List UInt8) (currentRound : ℤ) (place : ℕ) : Bool :=
  match net.received py place m certificate key currentRound with
  | .ok _ => true
  | .error _ => false

omit [PyNumber ν] in
/-- Conditions that agree on a list hold of the same part of it. -/
lemma takeWhile_congr {α : Type} {p q : α → Bool} {xs : List α} (h : ∀ x ∈ xs, p x = q x) :
    xs.takeWhile p = xs.takeWhile q := by
  induction xs with
  | nil => rfl
  | cons x xs ih =>
    have hrest := ih fun y hy => h y (List.mem_cons_of_mem x hy)
    rw [List.takeWhile_cons, List.takeWhile_cons, h x List.mem_cons_self, hrest]

omit [PyNumber ν] in
/-- Whatever meets a condition stands before the first that does not, exactly if nothing that does
not meet it stands before something that does. -/
lemma forall_mem_takeWhile_iff {α : Type} {p : α → Bool} {xs : List α} (hxs : xs.Nodup) :
    (∀ x ∈ xs, p x = true → x ∈ xs.takeWhile p) ↔
      xs.Pairwise fun x y => p y = true → p x = true := by
  induction xs with
  | nil => simp
  | cons x xs ih =>
    obtain ⟨hx, hrest⟩ := List.nodup_cons.mp hxs
    rw [List.pairwise_cons]
    cases hp : p x with
    | true =>
      rw [List.takeWhile_cons_of_pos hp, ← ih hrest]
      constructor
      · refine fun h => ⟨fun _ _ _ => rfl, fun y hy hpy => ?_⟩
        rcases List.mem_cons.mp (h y (List.mem_cons_of_mem x hy) hpy) with rfl | hmem
        · exact (hx hy).elim
        · exact hmem
      · rintro ⟨-, h⟩ y hy hpy
        rcases List.mem_cons.mp hy with rfl | hy
        · exact List.mem_cons_self
        · exact List.mem_cons_of_mem x (h y hy hpy)
    | false =>
      rw [List.takeWhile_cons_of_neg (by simp [hp])]
      constructor
      · intro h
        have hnone : ∀ y ∈ xs, p y ≠ true := fun y hy hpy =>
          nomatch h y (List.mem_cons_of_mem x hy) hpy
        exact ⟨fun y hy hpy => (hnone y hy hpy).elim,
          List.pairwise_of_forall_mem_list fun y _ z hz hpz => (hnone z hz hpz).elim⟩
      · rintro ⟨hnone, -⟩ y hy hpy
        rcases List.mem_cons.mp hy with rfl | hy
        · rw [hp] at hpy
          cases hpy
        · exact (Bool.false_ne_true (hnone y hy hpy)).elim

section Broadcast

variable {py} {net : GossipNetwork ν} {m : GossipMessage ν} {certificate : NodeCertificate}
  {key : List UInt8} {currentRound : ℤ} {place other : ℕ} {box : Mailbox ν}

/-- A node that accepts a message has a mailbox for it. -/
lemma accepts_iff : net.accepts py m certificate key currentRound place = true ↔
    ∃ box, net.received py place m certificate key currentRound = .ok box := by
  unfold accepts
  cases net.received py place m certificate key currentRound <;> simp

/-- What is received at a place is received by the node there. -/
lemma received_eq_ok : net.received py place m certificate key currentRound = .ok box ↔
    ∃ p, net.nodes[place]? = some p ∧
      p.mailbox.receive py p.authority m certificate key currentRound = .ok box := by
  simp only [received, node, bind_eq_ok, orRaise_eq_ok]

/-- What is received depends on the node at the place only. -/
lemma received_congr {net' : GossipNetwork ν} (h : net'.nodes[place]? = net.nodes[place]?) :
    net'.received py place m certificate key currentRound =
      net.received py place m certificate key currentRound := by
  rw [received, received, node, node, h]

omit [PyNumber ν] in
/-- Another mailbox at one place changes no other node. -/
lemma nodes_setMailbox_of_ne (h : place ≠ other) :
    (net.setMailbox place box).nodes[other]? = net.nodes[other]? := by
  simp [setMailbox, h]

omit [PyNumber ν] in
/-- The node at the place has the new mailbox. -/
lemma nodes_setMailbox : (net.setMailbox place box).nodes[place]? =
    net.nodes[place]?.map fun n => { n with mailbox := box } := by
  simp [setMailbox]

/-- A message that has been received exactly once was not received before. -/
lemma of_received (h : net.received py place m certificate key currentRound = .ok box) :
    box.Holds m ∧ ∀ old, net.mailbox? place = some old → ¬old.Holds m := by
  obtain ⟨n, hn, hreceive⟩ := received_eq_ok.mp h
  obtain ⟨hholds, hnot⟩ := Mailbox.holds_of_receive hreceive
  refine ⟨hholds, fun old hold => ?_⟩
  rw [mailbox?, hn, Option.map_some, Option.some.injEq] at hold
  exact hold ▸ hnot

/-- A delivery that the first node refuses changes nothing. -/
lemma after_deliver_of_error {first : ℕ} (rest : List ℕ) {e : PyError}
    (h : net.received py first m certificate key currentRound = .error e) :
    after (deliver py m certificate key currentRound (first :: rest)) net = net := by
  rw [after_eq_iff, deliver]
  simp [h]

/-- **What a delivery changes.** The nodes up to the first one that refuses have received the
message, and nothing else has changed. -/
lemma after_deliver (py : PyLib ν) (net : GossipNetwork ν) (m : GossipMessage ν)
    (certificate : NodeCertificate) (key : List UInt8) (currentRound : ℤ) {places : List ℕ}
    (hplaces : places.Nodup) (place : ℕ) :
    (place ∈ places.takeWhile (net.accepts py m certificate key currentRound) → ∃ box,
      net.received py place m certificate key currentRound = .ok box ∧
        (after (deliver py m certificate key currentRound places) net).nodes[place]? =
          net.nodes[place]?.map fun n => { n with mailbox := box }) ∧
      (place ∉ places.takeWhile (net.accepts py m certificate key currentRound) →
        (after (deliver py m certificate key currentRound places) net).nodes[place]? =
          net.nodes[place]?) := by
  induction places generalizing net with
  | nil => exact ⟨nofun, fun _ => rfl⟩
  | cons first rest ih =>
    obtain ⟨hfirst, hrest⟩ := List.nodup_cons.mp hplaces
    cases hreceived : net.received py first m certificate key currentRound with
    | error e =>
      have hrefuses : net.accepts py m certificate key currentRound first = false := by
        rw [accepts, hreceived]
      rw [after_deliver_of_error rest hreceived, List.takeWhile_cons_of_neg (by simp [hrefuses])]
      exact ⟨nofun, fun _ => rfl⟩
    | ok box =>
      have haccepts : net.accepts py m certificate key currentRound first = true :=
        accepts_iff.mpr ⟨box, hreceived⟩
      set net' := net.setMailbox first box with hnet'
      have hafter : after (deliver py m certificate key currentRound (first :: rest)) net =
          after (deliver py m certificate key currentRound rest) net' := by
        have hrest := (after_eq_iff (x := deliver py m certificate key currentRound rest)
          (s := net')).mp rfl
        rw [after_eq_iff, deliver]
        simp only [ends_bind, ends_get, ends_lift, ends_modify, ends_pure, hreceived,
          Except.ok.injEq, forall_eq', reduceCtorEq, false_imp_iff, implies_true, and_true]
        exact hrest
      have hothers : ∀ other, other ≠ first → net'.nodes[other]? = net.nodes[other]? :=
        fun other hne => nodes_setMailbox_of_ne hne.symm
      have hsame : rest.takeWhile (net'.accepts py m certificate key currentRound) =
          rest.takeWhile (net.accepts py m certificate key currentRound) :=
        takeWhile_congr fun other hother => by
          rw [accepts, accepts,
            received_congr (hothers other fun heq => hfirst (heq ▸ hother))]
      obtain ⟨hreached, hunreached⟩ := ih net' hrest
      rw [hsame] at hreached hunreached
      rw [hafter, List.takeWhile_cons_of_pos haccepts, List.mem_cons]
      by_cases hplace : place = first
      · subst hplace
        have hnot : place ∉ rest.takeWhile (net.accepts py m certificate key currentRound) :=
          fun hmem => hfirst (List.takeWhile_subset _ hmem)
        exact ⟨fun _ => ⟨box, hreceived, (hunreached hnot).trans nodes_setMailbox⟩,
          fun h => (h (.inl rfl)).elim⟩
      · refine ⟨fun h => ?_, fun h => ?_⟩
        · obtain ⟨box', hbox', hnode⟩ := hreached (h.resolve_left hplace)
          exact ⟨box', (received_congr (hothers place hplace)).symm.trans hbox',
            hnode.trans (by rw [hothers place hplace])⟩
        · exact (hunreached fun hmem => h (.inr hmem)).trans (hothers place hplace)

omit [PyNumber ν] in
/-- The peers of a node are different nodes. -/
lemma nodup_peers {n : GossipNode ν} (hn : n ∈ net.nodes) : n.peers.values.Nodup := by
  have hkeys : n.peers.values.map (fun place =>
      (net.nodes[place]?.map fun p => p.certificate.nodeId).getD "") = n.peers.keys := by
    rw [Dict.values, Dict.keys, List.map_map]
    refine List.map_congr_left fun entry hmem => ?_
    obtain ⟨id, place⟩ := entry
    obtain ⟨-, p, hp, hid⟩ := net.peers_wf n hn id place (Dict.get?_eq_some_iff.mpr hmem)
    simp [hp, hid]
  have hnodup : n.peers.keys.Nodup := n.peers.nodup_keys
  exact List.Nodup.of_map _ (hkeys ▸ hnodup)

/-- A broadcast of a node is a delivery to its peers. -/
lemma after_broadcast {n : GossipNode ν} (hn : net.nodes[place]? = some n) :
    after (broadcast py place m currentRound) net =
      after (deliver py m n.certificate n.key currentRound n.peers.values) net := by
  have hrest := (after_eq_iff (x := deliver py m n.certificate n.key currentRound n.peers.values)
    (s := net)).mp rfl
  have hnode : net.node place = .ok n := by rw [node, hn, orRaise]
  rw [after_eq_iff, broadcast]
  simp only [ends_bind, ends_get, ends_lift, hnode, Except.ok.injEq, forall_eq', reduceCtorEq,
    false_imp_iff, implies_true, and_true]
  exact hrest

/-- **When a broadcast reaches every peer that would accept.** Every peer that would accept the
message in its state before the call has received it exactly once after the call, precisely when no
peer that refuses it was connected before one that would accept it.

**Proof sketch.** The broadcast ends at the first peer that refuses. The peers before it have
received the message; the others are as they were, and one that would accept the message has not
received it. -/
theorem broadcast_reaches_iff (py : PyLib ν) (net : GossipNetwork ν) (place : ℕ) (n : GossipNode ν)
    (m : GossipMessage ν) (currentRound : ℤ) (hn : net.nodes[place]? = some n) :
    (∀ other ∈ n.peers.values, net.accepts py m n.certificate n.key currentRound other = true →
        ∃ box, (after (broadcast py place m currentRound) net).mailbox? other = some box ∧
          box.Holds m) ↔
      n.peers.values.Pairwise fun first other =>
        net.accepts py m n.certificate n.key currentRound other = true →
          net.accepts py m n.certificate n.key currentRound first = true := by
  have hplaces : n.peers.values.Nodup := nodup_peers (List.mem_of_getElem? hn)
  rw [after_broadcast hn, ← forall_mem_takeWhile_iff hplaces]
  refine forall₃_congr fun other _ haccepts => ?_
  obtain ⟨hreached, hunreached⟩ := after_deliver py net m n.certificate n.key currentRound hplaces
    other
  constructor
  · rintro ⟨box, hbox, hholds⟩
    by_contra hnot
    obtain ⟨box', hbox'⟩ := accepts_iff.mp haccepts
    refine (of_received hbox').2 box ?_ hholds
    rwa [mailbox?, hunreached hnot] at hbox
  · intro hmem
    obtain ⟨box, hbox, hafter⟩ := hreached hmem
    obtain ⟨p, hp, -⟩ := received_eq_ok.mp hbox
    exact ⟨box, by rw [mailbox?, hafter, hp]; rfl, (of_received hbox).1⟩

/-- **Repeating a broadcast changes nothing**: the first peer refuses the message, since it has it
or refused it before.

**Proof sketch.** The sender is no peer of itself, so it has the same peers as before. -/
theorem broadcast_again (py : PyLib ν) (net : GossipNetwork ν) (place : ℕ) (m : GossipMessage ν)
    (currentRound : ℤ) :
    after (broadcast py place m currentRound) (after (broadcast py place m currentRound) net) =
      after (broadcast py place m currentRound) net := by
  cases hn : net.nodes[place]? with
  | none =>
    have hnode : net.node place = .error .index := by rw [node, hn, orRaise]
    have hafter : after (broadcast py place m currentRound) net = net := by
      rw [after_eq_iff, broadcast]
      simp [hnode]
    rw [hafter, hafter]
  | some n =>
    have hmem : n ∈ net.nodes := List.mem_of_getElem? hn
    have hself : place ∉ n.peers.values := fun h => by
      obtain ⟨id, hid⟩ := Dict.mem_values_iff.mp h
      obtain ⟨hne, p, hp, hpid⟩ := net.peers_wf n hmem id place hid
      obtain rfl : n = p := Option.some.inj (hn.symm.trans hp)
      exact hne hpid.symm
    have hplaces := nodup_peers hmem
    rw [after_broadcast hn]
    set net' := after (deliver py m n.certificate n.key currentRound n.peers.values) net with hnet'
    have hn' : net'.nodes[place]? = some n :=
      ((after_deliver _ _ _ _ _ _ hplaces place).2 fun h => hself (List.takeWhile_subset _ h)).trans hn
    rw [after_broadcast hn']
    cases hvalues : n.peers.values with
    | nil => rfl
    | cons first rest =>
      suffices hrefuses : ∃ e, net'.received py first m n.certificate n.key currentRound = .error e by
        obtain ⟨e, he⟩ := hrefuses
        exact after_deliver_of_error rest he
      rw [hvalues] at hplaces hnet'
      obtain ⟨hreached, hunreached⟩ := after_deliver py net m n.certificate n.key currentRound
        hplaces first
      rw [← hnet'] at hreached hunreached
      cases hreceived : net.received py first m n.certificate n.key currentRound with
      | error e =>
        have hnot : first ∉ (first :: rest).takeWhile
            (net.accepts py m n.certificate n.key currentRound) := by
          rw [List.takeWhile_cons_of_neg (by simp [accepts, hreceived])]
          exact List.not_mem_nil
        exact ⟨e, (received_congr (hunreached hnot)).trans hreceived⟩
      | ok box =>
        have haccepts : net.accepts py m n.certificate n.key currentRound first = true :=
          accepts_iff.mpr ⟨box, hreceived⟩
        obtain ⟨box', hbox', hfirst⟩ := hreached (by
          rw [List.takeWhile_cons_of_pos haccepts]
          exact List.mem_cons_self)
        obtain ⟨p, hp, hreceive⟩ := received_eq_ok.mp hbox'
        obtain ⟨e, he⟩ := Mailbox.receive_again hreceive
        refine ⟨e, ?_⟩
        rw [received, node, hfirst, hp]
        exact he

end Broadcast

section Example

variable (py : PyLib ν)

/-- The authority of the example. -/
def exampleAuthority (issuer : String) : CertificateAuthority := ⟨issuer, "ca-secret"⟩

/-- The signature of the authority does not depend on the one in the certificate. -/
lemma sign_signature (a : CertificateAuthority) (c : NodeCertificate) (signature : String) :
    a.sign py { c with signature := signature } = a.sign py c := rfl

/-- What is signed of a message does not depend on its signature. -/
lemma unsigned_signature (m : GossipMessage ν) (signature : String) :
    ({ m with signature := signature } : GossipMessage ν).unsigned = m.unsigned := rfl

/-- A certificate of the example before it is signed: the role of a writer for a hundred rounds. -/
def exampleUnissued (nodeId : String) : NodeCertificate :=
  ⟨nodeId, nodeId ++ "-public", ["writer"], 0, 100, "local-ca", ""⟩

/-- A certificate of the example. -/
def exampleCertificate (nodeId : String) : NodeCertificate :=
  { exampleUnissued nodeId with
    signature := (exampleAuthority "local-ca").sign py (exampleUnissued nodeId) }

/-- A node of the example that trusts an authority. -/
def exampleNode (nodeId issuer : String) (peers : Dict String ℕ) : GossipNode ν where
  certificate := exampleCertificate py nodeId
  key := encodeUtf8 (nodeId ++ "-secret").toList
  authority := exampleAuthority issuer
  peers := peers
  outgoingSequences := ∅
  mailbox := Mailbox.empty

/-- A node with two peers, the first of which trusts another authority. -/
def exampleNetwork : GossipNetwork ν where
  nodes := [exampleNode py "primary" "local-ca" (Dict.ofList [("secondary", 1), ("tertiary", 2)]),
    exampleNode py "secondary" "other-ca" ∅, exampleNode py "tertiary" "local-ca" ∅]
  peers_wf := fun n hn id place hid => by
    rw [Dict.get?_eq_some_iff] at hid
    simp only [List.mem_cons, List.not_mem_nil, or_false] at hn
    rcases hn with rfl | rfl | rfl
    · have hpeers : (id, place) ∈ [("secondary", 1), ("tertiary", 2)] := hid
      simp only [List.mem_cons, Prod.mk.injEq, List.not_mem_nil, or_false] at hpeers
      rcases hpeers with ⟨rfl, rfl⟩ | ⟨rfl, rfl⟩
      · exact ⟨(by decide : "secondary" ≠ "primary"), _, rfl, rfl⟩
      · exact ⟨(by decide : "tertiary" ≠ "primary"), _, rfl, rfl⟩
    · cases hid
    · cases hid

/-- The message of the tests before it is signed. -/
def exampleUnsigned : GossipMessage ν :=
  ⟨"primary", "branch-1", 1, "commit", .obj [("digest", .str "abc")], ""⟩

/-- The message of the tests, as the first node creates it. -/
def exampleMessage : GossipMessage ν :=
  { exampleUnsigned with
    signature := hmacDigest py (encodeUtf8 ("primary" ++ "-secret").toList) exampleUnsigned.unsigned }

/-- The message of the tests is signed. -/
lemma signature_exampleMessage : (exampleMessage py).signature =
    hmacDigest py (encodeUtf8 ("primary" ++ "-secret").toList) (exampleMessage py).unsigned :=
  congrArg (hmacDigest py _) (unsigned_signature exampleUnsigned _).symm

/-- The first peer does not trust the authority of the sender. -/
lemma received_secondary : (exampleNetwork py).received py 1 (exampleMessage py)
    (exampleCertificate py "primary") (encodeUtf8 ("primary" ++ "-secret").toList) 1 =
      .error (.protocol "sender certificate is not valid for writer role") := by
  have hverify : (exampleAuthority "other-ca").verify py (exampleCertificate py "primary") 1 "writer" =
      .ok false := if_neg fun h => absurd h.1 (by decide : ("local-ca" : String) ≠ "other-ca")
  have hnode : (exampleNetwork py).node 1 = .ok (exampleNode py "secondary" "other-ca" ∅) := rfl
  rw [received, hnode, ok_bind, exampleNode, Mailbox.receive, hverify]
  rfl

/-- The second peer would accept the message. -/
lemma accepts_tertiary : (exampleNetwork py).accepts py (exampleMessage py)
    (exampleCertificate py "primary") (encodeUtf8 ("primary" ++ "-secret").toList) 1 2 = true := by
  have hnode : (exampleNetwork py).node 2 = .ok (exampleNode py "tertiary" "local-ca" ∅) := rfl
  rw [accepts_iff, received, hnode, ok_bind]
  have hnew : (Mailbox.empty : Mailbox ν).incomingSequences.getD (exampleMessage py).scope 0 <
      (exampleMessage py).sequence := (by decide : (0 : ℤ) < 1)
  exact ⟨_, Mailbox.receive_signed (m := exampleMessage py) rfl rfl
    (by decide : (0 : ℤ) ≤ 1) (by decide : (1 : ℤ) < 100) List.mem_cons_self
    (sign_signature py _ (exampleUnissued "primary") _).symm (signature_exampleMessage py)
    hnew⟩

/-- **A peer that is cut off.** The first peer refuses the message, and the second one, which would
accept it, does not get it. -/
theorem exists_cut_off : ∃ (py : PyLib ℤ) (net : GossipNetwork ℤ) (place : ℕ) (n : GossipNode ℤ)
    (m : GossipMessage ℤ) (currentRound : ℤ), net.nodes[place]? = some n ∧
    ∃ other ∈ n.peers.values, net.accepts py m n.certificate n.key currentRound other = true ∧
      ∀ box, (after (broadcast py place m currentRound) net).mailbox? other = some box →
        ¬box.Holds m := by
  refine ⟨Ledger.integerLib, exampleNetwork Ledger.integerLib, 0, _,
    exampleMessage Ledger.integerLib,
    1, rfl, 2, List.mem_cons_of_mem _ List.mem_cons_self, accepts_tertiary _, ?_⟩
  have hafter : after (broadcast Ledger.integerLib 0 (exampleMessage Ledger.integerLib) 1)
      (exampleNetwork Ledger.integerLib) = exampleNetwork Ledger.integerLib :=
    (after_broadcast rfl).trans
      (after_deliver_of_error [2] (received_secondary Ledger.integerLib))
  intro box hbox hholds
  rw [hafter] at hbox
  obtain rfl : Mailbox.empty = box := Option.some.inj hbox
  cases hholds

/-- In the network of the example a peer that refuses comes before one that would accept. -/
theorem broadcast_reaches_iff_example : ¬∀ other ∈ ((Dict.ofList [("secondary", 1),
    ("tertiary", 2)] : Dict String ℕ)).values,
    (exampleNetwork Ledger.integerLib).accepts Ledger.integerLib (exampleMessage Ledger.integerLib)
        (exampleCertificate Ledger.integerLib "primary")
        (encodeUtf8 ("primary" ++ "-secret").toList) 1 other = true →
      ∃ box, (after (broadcast Ledger.integerLib 0 (exampleMessage Ledger.integerLib) 1)
        (exampleNetwork Ledger.integerLib)).mailbox? other = some box ∧
          box.Holds (exampleMessage Ledger.integerLib) := by
  intro h
  have hpairwise := (broadcast_reaches_iff Ledger.integerLib (exampleNetwork Ledger.integerLib) 0
    (exampleNode Ledger.integerLib "primary" "local-ca"
      (Dict.ofList [("secondary", 1), ("tertiary", 2)])) (exampleMessage Ledger.integerLib) 1 rfl).mp h
  have hsecondary := (List.pairwise_cons.mp hpairwise).1 2 List.mem_cons_self
    (accepts_tertiary Ledger.integerLib)
  obtain ⟨box, hbox⟩ := accepts_iff.mp hsecondary
  cases (received_secondary Ledger.integerLib).symm.trans hbox

end Example

end GossipNetwork

end SplitChain
