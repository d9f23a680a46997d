import Mathlib.Data.List.Infix
import SplitChain.Model.LiveCluster

set_option relaxedAutoImplicit false
set_option autoImplicit false

/-!
# The invariant of the cluster

What holds of the nodes, the calls, the results and the work of the cluster as it runs, and what a
step may take for granted of what the steps before have left.

## Main definitions

* `SplitChain.signer` — the role that signs a place of the log, by the certificates.
* `SplitChain.LiveCluster.Justified`, `Answered` — what a call and a result show.
* `SplitChain.LiveCluster.Recorded`, `Sound` — the invariant of the nodes, and of the cluster.
* `SplitChain.LiveCluster.Grows` — what every step adds to, and never takes back.

## Main results

* `SplitChain.LiveCluster.Recorded.extend`, `Recorded.adopt` — a node that commits, or that adopts
  a certificate.
* `SplitChain.LiveCluster.Sound.become` — a node changes.
-/

namespace SplitChain

open Raise Proc

variable {A μ ρ : Type}

/-! ## Elections -/

/-- The place of a role in the order. -/
def Role.index : Role → ℕ
  | primary => 0
  | secondary => 1
  | tertiary => 2

/-- The winner of the election for the term after the first `i` ones. -/
def electionWinner : ℕ → Role
  | 0 => .secondary
  | _ + 1 => .tertiary

/-- The order of the roles is the one of their places. -/
lemma Role.index_of_order {i : ℕ} {r : Role} (h : Role.order[i]? = some r) : r.index = i := by
  match i with
  | 0 | 1 | 2 => cases h; rfl
  | i + 3 => simp [Role.order] at h

/-- A node that does not lead a term is the witness of the election that ends it, or its winner. -/
lemma Role.eq_of_ne {r leader : Role} (h : r ≠ leader) (hlast : leader ≠ .tertiary) :
    r = electionWitness leader.index ∨ r = electionWinner leader.index := by
  cases leader <;> cases r <;> simp_all [electionWitness, electionWinner, Role.index]

/-- The witness of an election does not win it, so it leads no term before the one after that. -/
lemma Role.lt_of_electionWitness {i n : ℕ} {r : Role} (hr : r = electionWitness i)
    (hi : i < r.index) (hn : r.index ≤ n) : i + 1 < n := by
  have hne : (electionWitness i).index ≠ i + 1 := by
    cases i with
    | zero => decide
    | succ i => exact (Nat.succ_ne_zero _).symm
  rw [← hr] at hne
  omega

/-- **Who signs.** The Primary signs up to the position of the first certificate, the Secondary up
to the one of the second, the Tertiary from there on. -/
def signer (certificates : List LeadershipCertificate) (nonce : ℤ) : Role :=
  if certificates[0]?.all fun c => decide (nonce ≤ c.committedNonce) then .primary
  else if certificates[1]?.all fun c => decide (nonce ≤ c.committedNonce) then .secondary
  else .tertiary

section Signer

variable {certificates later : List LeadershipCertificate} {c : LeadershipCertificate} {nonce : ℤ}
  {i : ℕ}

/-- What lies up to the position of a new certificate keeps its signer. -/
lemma signer_concat (h : nonce ≤ c.committedNonce) :
    signer (certificates ++ [c]) nonce = signer certificates nonce := by
  match certificates with
  | [] => simp [signer, h]
  | [first] => simp [signer, h]
  | first :: second :: rest => rfl

/-- What lies after all certificates is signed by the leader. -/
lemma signer_of_lt (h : ∀ c ∈ certificates, c.committedNonce < nonce) {leader : Role}
    (hleader : Role.order[certificates.length]? = some leader) :
    signer certificates nonce = leader := by
  match certificates with
  | [] => cases hleader; rfl
  | [first] =>
    cases hleader
    have hfirst := not_le.mpr (h first List.mem_cons_self)
    simp [signer, hfirst]
  | [first, second] =>
    cases hleader
    have hfirst := not_le.mpr (h first List.mem_cons_self)
    have hsecond := not_le.mpr (h second (List.mem_cons_of_mem _ List.mem_cons_self))
    simp [signer, hfirst, hsecond]
  | _ :: _ :: _ :: rest => simp [Role.order] at hleader

/-- What a role has signed lies up to the position of the certificate that ends its term. -/
lemma le_of_signer (hc : certificates[i]? = some c) (hi : i < 2)
    (h : (signer certificates nonce).index = i) : nonce ≤ c.committedNonce := by
  unfold signer at h
  split_ifs at h with hfirst hsecond
  · obtain rfl : i = 0 := h.symm
    simpa only [hc, Option.all_some, decide_eq_true_eq] using hfirst
  · obtain rfl : i = 1 := h.symm
    simpa only [hc, Option.all_some, decide_eq_true_eq] using hsecond
  · exact absurd h.symm hi.ne

/-- What a later role has signed lies after the position of the certificate that ends an earlier
term. -/
lemma exists_of_lt_signer (h : i < (signer certificates nonce).index) :
    ∃ c, certificates[i]? = some c ∧ c.committedNonce < nonce := by
  have hexists : ∀ {found : Option LeadershipCertificate},
      ¬ (found.all fun c => decide (nonce ≤ c.committedNonce)) = true →
      ∃ c, found = some c ∧ c.committedNonce < nonce := by
    intro found hfound
    cases found with
    | none => exact absurd rfl hfound
    | some c =>
      rw [Option.all_some, decide_eq_true_eq, not_le] at hfound
      exact ⟨c, rfl, hfound⟩
  unfold signer at h
  split_ifs at h with hfirst hsecond
  · cases h
  · obtain rfl : i = 0 := Nat.lt_one_iff.mp h
    exact hexists hfirst
  · have hi : i < 2 := h
    obtain rfl | rfl : i = 0 ∨ i = 1 := by omega
    · exact hexists hfirst
    · exact hexists hsecond

/-- Nodes that agree on the certificates up to the end of the signer's term agree on the signer. -/
lemma signer_congr (h : ∀ k ≤ i, certificates[k]? = later[k]?)
    (hi : (signer certificates nonce).index ≤ i) :
    signer later nonce = signer certificates nonce := by
  unfold signer at hi ⊢
  rw [← h 0 (Nat.zero_le i)]
  split_ifs at hi with hfirst hsecond
  · rw [if_pos hfirst, if_pos hfirst]
  · rw [← h 1 hi]
  · rw [← h 1 (Nat.le_trans (by decide) hi)]

end Signer


namespace LiveCluster

/-! ## What a cluster shows -/

/-- The log of a node. -/
def log (s : LiveCluster A μ) (r : Role) : List (Envelope μ) := (s.nodes r).replicationLog

/-- The certificates that a node has adopted. -/
def certificates (s : LiveCluster A μ) (r : Role) : List LeadershipCertificate :=
  (s.nodes r).leadership.certificates

/-- The nodes, for their elections alone. -/
def elections (s : LiveCluster A μ) : Network A μ := ⟨s.nodes, []⟩

/-- A node has an envelope in its log, at the place of its nonce. -/
def Has (s : LiveCluster A μ) (r : Role) (e : Envelope μ) : Prop :=
  ∃ i : ℕ, e.nonce = i + 1 ∧ (s.log r)[i]? = some e

/-- The next envelopes for a peer are those of the log from a position on that the peer has
reached; all of them, where a new envelope is offered afterwards. -/
def Behind (s : LiveCluster A μ) (self peer : Role) (offer : Option (Envelope μ))
    (entries : List (Envelope μ)) : Prop :=
  ∃ i ≤ (s.log peer).length, entries <+: (s.log self).drop i ∧
    (offer.isSome → i + entries.length = (s.log self).length)

/-- **What a call shows**: a prepared envelope leaves no gap, a committed one has been committed by
its signer, a certificate goes to the witness of its election unless the winner has adopted it. -/
def Justified (s : LiveCluster A μ) (p : Packet μ) : Prop :=
  match p.call with
  | .prepare e => e.nonce ≤ (s.log p.receiver).length + 1
  | .commit e => s.Has e.leader e
  | .certificate c => ∃ j : ℕ, c.term = j + 1 ∧
      (p.receiver = electionWitness j ∨ c ∈ s.certificates (electionWinner j))
  | _ => True

/-- **What a result shows** about the node that has sent it. -/
def Answered (s : LiveCluster A μ) (p : Packet μ) (result : PeerResult μ) : Prop :=
  match p.call, result with
  | .prepare _, .prepared => True
  | .commit e, .committed nonce => nonce = e.nonce ∧ s.Has p.receiver e
  | .abort _, .aborted => True
  | .position, .position nonce => nonce ≤ (s.log p.receiver).length
  | .history start, .history h => 0 ≤ start ∧ h.entries <+: (s.log p.receiver).drop start.toNat
  | .leadership, .leadership snapshot => snapshot.certificates <+: s.certificates p.receiver
  | .timeoutVote _ _, .vote _ => True
  | .certificate c, .recorded => c ∈ s.certificates p.receiver
  | _, _ => False

/-- What a transfer waits for, and what it has left to send. -/
def Carries (s : LiveCluster A μ) (self peer : Role) (offer : Option (Envelope μ)) :
    Transfer μ → Prop
  | .locating k => s.packets[k]? = some ⟨self, peer, .position⟩
  | .preparing e rest k =>
    s.packets[k]? = some ⟨self, peer, .prepare e⟩ ∧ s.Behind self peer offer (e :: rest)
  | .committing e rest _ k =>
    s.packets[k]? = some ⟨self, peer, .commit e⟩ ∧ s.Behind self peer offer (e :: rest)
  | .offering k => ∃ e, offer = some e ∧ s.packets[k]? = some ⟨self, peer, .prepare e⟩
  | .ended _ => True

/-- No peer has taken the envelope that is offered. -/
def Unanswered (s : LiveCluster A μ) : Transfer μ → Prop
  | .offering k => ∀ result, (k, result) ∉ s.results
  | .ended success => success = false
  | _ => True

/-- What the work that holds the lock of a node has reached. An envelope that is signed by a leader
of a former term finds nobody who takes it. -/
def Working (s : LiveCluster A μ) (self : Role) : Task μ → Prop
  | .clearing _ => True
  | .transferring offer transfers =>
    (∀ e, offer = some e → e.leader = self ∧ e.nonce = (s.log self).length + 1) ∧
    (∀ peer, s.Carries self peer offer (transfers peer)) ∧
    (offer.isSome → self.index < (s.certificates self).length →
      ∀ peer, s.Unanswered (transfers peer))
  | .abandoning e => e.leader = self ∧ e.nonce = (s.log self).length + 1
  | .confirming e first second => e.leader = self ∧ s.Has self e ∧
    s.packets[first]? = some ⟨self, self.peers.1, .commit e⟩ ∧
    s.packets[second]? = some ⟨self, self.peers.2, .commit e⟩

/-- What a candidate has reached. -/
def Staged (s : LiveCluster A μ) (self witness : Role) (term : ℕ) : Stage μ → Prop
  | .pulling _ _ position k => s.packets[k]? = some ⟨self, witness, .history position⟩ ∧
    position ≤ (s.log self).length
  | .taking _ _ entries => s.Behind witness self none entries
  | .settling _ _ e entries => s.Behind witness self none (e :: entries)
  | .pushing transfer => s.Carries self witness none transfer
  | .inquiring k => s.packets[k]? = some ⟨self, witness, .leadership⟩
  | .voting vote _ => vote.candidate = self
  | .certifying c k => s.packets[k]? = some ⟨self, witness, .certificate c⟩ ∧ c.term = term + 1
  | _ => True

/-- What a candidate stands for. -/
def Standing (s : LiveCluster A μ) (self : Role) (c : Candidacy μ) : Prop :=
  ∃ term : ℕ, self = electionWinner term ∧ c.witness = electionWitness term ∧ term < 2 ∧
    term ≤ (s.certificates self).length ∧ s.Staged self c.witness term c.stage

/-- **The logs of the nodes.** A log has no gaps; each of its envelopes is signed by the leader of
its term, which has it at the same place; a prepared envelope is the next one, and the leader's. A
node adopts no certificate before the winner of the election but the witness. -/
structure Recorded (s : LiveCluster A μ) : Prop where
  kept : ∀ r, (s.nodes r).Kept
  elected : s.elections.Elected
  followed : ∀ r j, j < (s.certificates r).length → r ≠ electionWitness j →
    j < (s.certificates (electionWinner j)).length
  length : ∀ r, ((s.log r).length : ℤ) = (s.nodes r).committedPosition
  numbered : ∀ r (i : ℕ) e, (s.log r)[i]? = some e → e.nonce = i + 1
  signed : ∀ r (i : ℕ) e, (s.log r)[i]? = some e → e.leader = signer (s.certificates r) (i + 1)
  owned : ∀ r (i : ℕ) e, (s.log r)[i]? = some e → (s.log e.leader)[i]? = some e
  certified : ∀ r, ∀ c ∈ s.certificates r, c.committedNonce ≤ (s.log r).length
  pending : ∀ r e, (s.nodes r).replicationPending = some e →
    e.nonce = (s.log r).length + 1 ∧ (e.leader = r ∨ e.leader = (s.nodes r).leadership.leader)

/-- **The invariant.** -/
structure Sound (s : LiveCluster A μ) : Prop extends Recorded s where
  justified : ∀ p ∈ s.packets, s.Justified p
  answered : ∀ k result, (k, result) ∈ s.results →
    ∃ p, s.packets[k]? = some p ∧ s.Answered p result
  led : ∀ r, s.waiting r ≠ [] ∨ s.tasks r ≠ none → r.index ≤ (s.certificates r).length
  working : ∀ r task, s.tasks r = some task → s.Working r task
  standing : ∀ r c, s.candidacies r = some c → s.Standing r c

/-! ## Growth -/

/-- Nothing is taken back. -/
structure Grows (s t : LiveCluster A μ) : Prop where
  log : ∀ r, s.log r <+: t.log r
  certificates : ∀ r, s.certificates r <+: t.certificates r
  packets : s.packets <+: t.packets
  results : s.results ⊆ t.results

section Growth

variable {s t u : LiveCluster A μ} {self peer r : Role} {e : Envelope μ} {p : Packet μ}
  {offer : Option (Envelope μ)} {entries : List (Envelope μ)}

lemma Grows.refl (s : LiveCluster A μ) : s.Grows s :=
  ⟨fun _ => List.prefix_rfl, fun _ => List.prefix_rfl, List.prefix_rfl, List.Subset.refl _⟩

lemma Grows.trans (h : s.Grows t) (h' : t.Grows u) : s.Grows u :=
  ⟨fun r => (h.log r).trans (h'.log r), fun r => (h.certificates r).trans (h'.certificates r),
    h.packets.trans h'.packets, fun _ hmem => h'.results (h.results hmem)⟩

/-- What stands at a place of a list stands there in every longer one. -/
lemma getElem?_of_prefix {α : Type} {l l' : List α} {i : ℕ} {a : α} (h : l <+: l')
    (hi : l[i]? = some a) : l'[i]? = some a := by
  obtain ⟨rest, rfl⟩ := h
  rw [List.getElem?_append_left (List.getElem?_eq_some_iff.mp hi).1, hi]

lemma Has.mono (h : s.Has r e) (hlog : s.log r <+: t.log r) : t.Has r e := by
  obtain ⟨i, hi, he⟩ := h
  exact ⟨i, hi, getElem?_of_prefix hlog he⟩

lemma Grows.log_length (h : s.Grows t) (r : Role) :
    ((s.log r).length : ℤ) ≤ (t.log r).length :=
  Nat.cast_le.mpr (h.log r).length_le

lemma Grows.certificates_length (h : s.Grows t) (r : Role) :
    (s.certificates r).length ≤ (t.certificates r).length :=
  (h.certificates r).length_le

lemma Grows.packet {k : ℕ} (h : s.Grows t) (hk : s.packets[k]? = some p) :
    t.packets[k]? = some p :=
  getElem?_of_prefix h.packets hk

lemma Behind.mono (h : s.Behind self peer offer entries) (hgrows : s.Grows t)
    (hsame : offer.isSome → t.log self = s.log self) : t.Behind self peer offer entries := by
  obtain ⟨i, hi, hentries, hall⟩ := h
  refine ⟨i, hi.trans (hgrows.log peer).length_le,
    hentries.trans (List.IsPrefix.drop (hgrows.log self) i),
    fun hoffer => ?_⟩
  rw [hsame hoffer]
  exact hall hoffer

lemma Justified.mono (h : s.Justified p) (hgrows : s.Grows t) : t.Justified p := by
  unfold Justified at h ⊢
  cases hcall : p.call with
  | prepare e =>
    rw [hcall] at h
    exact h.trans (add_le_add_left (hgrows.log_length _) 1)
  | commit e =>
    rw [hcall] at h
    exact h.mono (hgrows.log _)
  | certificate c =>
    rw [hcall] at h
    obtain ⟨j, hj, hreason⟩ := h
    exact ⟨j, hj, hreason.imp_right fun hmem => (hgrows.certificates _).subset hmem⟩
  | _ => trivial

lemma Answered.mono {result : PeerResult μ} (h : s.Answered p result) (hgrows : s.Grows t) :
    t.Answered p result := by
  unfold Answered at h ⊢
  cases hcall : p.call <;> cases result <;> simp only [hcall] at h ⊢
  case commit.committed => exact ⟨h.1, h.2.mono (hgrows.log _)⟩
  case position.position => exact h.trans (hgrows.log_length _)
  case history.history => exact ⟨h.1, h.2.trans (List.IsPrefix.drop (hgrows.log _) _)⟩
  case leadership.leadership => exact h.trans (hgrows.certificates _)
  case certificate.recorded => exact (hgrows.certificates _).subset h

lemma Carries.mono {transfer : Transfer μ} (h : s.Carries self peer offer transfer)
    (hgrows : s.Grows t) (hsame : offer.isSome → t.log self = s.log self) :
    t.Carries self peer offer transfer := by
  cases transfer with
  | locating k => exact hgrows.packet h
  | preparing e rest k => exact ⟨hgrows.packet h.1, h.2.mono hgrows hsame⟩
  | committing e rest prepared k => exact ⟨hgrows.packet h.1, h.2.mono hgrows hsame⟩
  | offering k =>
    obtain ⟨e, he, hk⟩ := h
    exact ⟨e, he, hgrows.packet hk⟩
  | ended success => trivial

/-- The work of a node stays where it is while the node keeps its log and its terms. -/
lemma Working.mono {task : Task μ} (h : s.Working self task) (hgrows : s.Grows t)
    (hlog : t.log self = s.log self) (hcertificates : t.certificates self = s.certificates self)
    (hresults : ∀ offer transfers, task = .transferring offer transfers → offer.isSome →
      self.index < (s.certificates self).length → ∀ peer, s.Unanswered (transfers peer) →
        t.Unanswered (transfers peer)) : t.Working self task := by
  cases task with
  | clearing work => trivial
  | transferring offer transfers =>
    obtain ⟨hoffer, hcarries, hlate⟩ := h
    refine ⟨fun e he => ?_, fun peer => (hcarries peer).mono hgrows fun _ => hlog,
      fun hsome hindex peer => ?_⟩
    · rw [hlog]
      exact hoffer e he
    · rw [hcertificates] at hindex
      exact hresults offer transfers rfl hsome hindex peer (hlate hsome hindex peer)
  | abandoning e =>
    unfold Working at h ⊢
    rwa [hlog]
  | confirming e first second =>
    exact ⟨h.1, h.2.1.mono (hgrows.log _), hgrows.packet h.2.2.1, hgrows.packet h.2.2.2⟩

lemma Staged.mono {witness : Role} {term : ℕ} {stage : Stage μ}
    (h : s.Staged self witness term stage) (hgrows : s.Grows t) :
    t.Staged self witness term stage := by
  cases stage with
  | pulling remote turns position k => exact ⟨hgrows.packet h.1, h.2.trans (hgrows.log_length _)⟩
  | taking remote turns entries => exact Behind.mono h hgrows fun hnone => by cases hnone
  | settling remote turns e entries => exact Behind.mono h hgrows fun hnone => by cases hnone
  | pushing transfer => exact Carries.mono h hgrows fun hnone => by cases hnone
  | inquiring k => exact hgrows.packet h
  | certifying c k => exact ⟨hgrows.packet h.1, h.2⟩
  | voting vote k => exact h
  | locating | confirming => trivial

lemma Standing.mono {c : Candidacy μ} (h : s.Standing self c) (hgrows : s.Grows t) :
    t.Standing self c := by
  obtain ⟨term, hself, hwitness, hlast, hterm, hstage⟩ := h
  exact ⟨term, hself, hwitness, hlast, hterm.trans (hgrows.certificates_length _),
    hstage.mono hgrows⟩

end Growth

/-! ## Messages and work -/

section Updates

variable {s t : LiveCluster A μ} {self peer receiver r : Role} {n : Node A μ} {e : Envelope μ}
  {p : Packet μ} {call : PeerCall μ} {result : PeerResult μ} {k : ℕ}

/-- The logs are those of the nodes. -/
lemma Recorded.congr (h : s.Recorded) (hnodes : t.nodes = s.nodes) : t.Recorded := by
  cases s
  cases t
  cases hnodes
  exact ⟨h.kept, h.elected, h.followed, h.length, h.numbered, h.signed, h.owned, h.certified,
    h.pending⟩

lemma Recorded.ranked (h : s.Recorded) (r : Role) : (s.nodes r).leadership.Ranked :=
  h.elected.ranked r

/-- A node is in the term of its leader. -/
lemma Recorded.index_leader (h : s.Recorded) (r : Role) :
    (s.nodes r).leadership.leader.index = (s.certificates r).length :=
  Role.index_of_order (h.ranked r).leader

/-- There are three terms. -/
lemma Recorded.length_certificates_le (h : s.Recorded) (r : Role) :
    (s.certificates r).length ≤ 2 := by
  have hleader := (List.getElem?_eq_some_iff.mp (h.ranked r).leader).1
  exact Nat.le_of_lt_succ hleader

/-- **A deposed leader is deposed everywhere**: once it has left its term, every node has.

**Proof sketch.** The witness of the election holds every certificate that is held, and the winner
has adopted one that another node holds. -/
lemma Recorded.passed (h : s.Recorded) {leader : Role}
    (hlate : leader.index < (s.certificates leader).length) (r : Role) :
    leader.index < (s.certificates r).length := by
  have hlast : leader ≠ .tertiary := by
    rintro rfl
    exact absurd (h.length_certificates_le .tertiary) (not_le.mpr hlate)
  by_cases hr : r = leader
  · rwa [hr]
  · rcases Role.eq_of_ne hr hlast with rfl | rfl
    · have hheld := h.elected.held leader _ _ (List.getElem?_eq_getElem hlate)
      exact (List.getElem?_eq_some_iff.mp hheld).1
    · refine h.followed leader _ hlate ?_
      cases leader <;> simp [Role.index, electionWitness] at hlast ⊢

lemma grows_send (s : LiveCluster A μ) (self receiver : Role) (call : PeerCall μ) :
    s.Grows (s.send self receiver call) :=
  ⟨fun _ => List.prefix_rfl, fun _ => List.prefix_rfl, List.prefix_append _ _, List.Subset.refl _⟩

lemma grows_reply (s : LiveCluster A μ) (k : ℕ) (result : PeerResult μ) :
    s.Grows (s.reply k result) :=
  ⟨fun _ => List.prefix_rfl, fun _ => List.prefix_rfl, List.prefix_rfl,
    List.subset_append_left _ _⟩

/-- What is neither a node nor a message has changed. -/
lemma grows_of_eq (hnodes : t.nodes = s.nodes) (hpackets : t.packets = s.packets)
    (hresults : t.results = s.results) : s.Grows t := by
  cases s
  cases t
  cases hnodes
  cases hpackets
  cases hresults
  exact ⟨fun _ => List.prefix_rfl, fun _ => List.prefix_rfl, List.prefix_rfl, List.Subset.refl _⟩

/-- The messages that have been sent show what they showed before. -/
lemma Sound.messages (h : s.Sound) (hgrows : s.Grows t) (hpackets : t.packets = s.packets)
    (hresults : t.results = s.results) : (∀ p ∈ t.packets, t.Justified p) ∧
      ∀ k result, (k, result) ∈ t.results →
        ∃ p, t.packets[k]? = some p ∧ t.Answered p result := by
  rw [hpackets, hresults]
  refine ⟨fun p hmem => (h.justified p hmem).mono hgrows, fun k result hmem => ?_⟩
  obtain ⟨p, hk, hanswered⟩ := h.answered k result hmem
  exact ⟨p, hk, hanswered.mono hgrows⟩

/-- **A call** that shows what is true is sent. -/
theorem Sound.send (h : s.Sound) (hp : s.Justified ⟨self, receiver, call⟩) :
    (s.send self receiver call).Sound where
  toRecorded := h.toRecorded.congr rfl
  justified p hmem := by
    rcases List.mem_append.mp hmem with hold | hnew
    · exact (h.justified p hold).mono (grows_send ..)
    · rw [List.mem_singleton.mp hnew]
      exact hp.mono (grows_send ..)
  answered k result hmem := by
    obtain ⟨p, hk, hanswered⟩ := h.answered k result hmem
    exact ⟨p, (grows_send ..).packet hk, hanswered.mono (grows_send ..)⟩
  led := h.led
  working r task htask := (h.working r task htask).mono (grows_send ..) rfl rfl
    fun _ _ _ _ _ _ hunanswered => hunanswered
  standing r c hc := (h.standing r c hc).mono (grows_send ..)

/-- A call to both peers is sent. -/
lemma Sound.broadcast (h : s.Sound) (hp : ∀ receiver, s.Justified ⟨self, receiver, call⟩) :
    (s.broadcast self call).Sound :=
  (h.send (hp _)).send ((hp _).mono (grows_send ..))

/-- **A result** that shows what is true is sent. A prepared envelope is one of the leader of the
node that has prepared it.

**Proof sketch.** A leader that offers an envelope after its term has ended gets no result for it,
since the node that prepares the envelope has left that term too. -/
theorem Sound.reply (h : s.Sound) (hk : s.packets[k]? = some p) (hresult : s.Answered p result)
    (hlead : ∀ e, p.call = .prepare e → e.leader = (s.nodes p.receiver).leadership.leader) :
    (s.reply k result).Sound where
  toRecorded := h.toRecorded.congr rfl
  justified p hmem := (h.justified p hmem).mono (grows_reply ..)
  answered k' result' hmem := by
    rcases List.mem_append.mp hmem with hold | hnew
    · obtain ⟨p', hk', hanswered⟩ := h.answered k' result' hold
      exact ⟨p', hk', hanswered.mono (grows_reply ..)⟩
    · cases List.mem_singleton.mp hnew
      exact ⟨p, hk, hresult.mono (grows_reply ..)⟩
  led := h.led
  working r task htask := by
    have hworking := h.working r task htask
    refine hworking.mono (grows_reply ..) rfl rfl fun offer transfers heq _ hlate peer hnone => ?_
    subst heq
    have hcarries := hworking.2.1 peer
    have hoffer := hworking.1
    cases htransfer : transfers peer with
    | offering k' =>
      rw [htransfer] at hnone hcarries
      obtain ⟨e, he, hk'⟩ := hcarries
      intro result' hmem
      rcases List.mem_append.mp hmem with hold | hnew
      · exact hnone result' hold
      · cases List.mem_singleton.mp hnew
        rw [hk, Option.some.injEq] at hk'
        have hleader := hlead e (hk' ▸ rfl)
        have hpassed := h.passed hlate p.receiver
        rw [(hoffer e he).1] at hleader
        rw [hleader, h.index_leader] at hpassed
        exact absurd hpassed (lt_irrefl _)
    | ended success =>
      rw [htransfer] at hnone
      exact hnone
    | _ => trivial
  standing r c hc := (h.standing r c hc).mono (grows_reply ..)

/-- The lock of a node is taken by some work, or set free. -/
theorem Sound.setTask (h : s.Sound) {task : Option (Task μ)}
    (hled : task ≠ none → self.index ≤ (s.certificates self).length)
    (hworking : ∀ w, task = some w → s.Working self w) : (s.setTask self task).Sound where
  toRecorded := h.toRecorded.congr rfl
  justified := (h.messages (grows_of_eq rfl rfl rfl) rfl rfl).1
  answered := (h.messages (grows_of_eq rfl rfl rfl) rfl rfl).2
  led r hr := by
    by_cases hself : r = self
    · subst hself
      rcases hr with hwaiting | htask
      · exact h.led r (.inl hwaiting)
      · exact hled (by simpa [LiveCluster.setTask] using htask)
    · exact h.led r (by simpa [LiveCluster.setTask, hself] using hr)
  working r w hw := by
    have hsame : s.Working r w := by
      by_cases hself : r = self
      · subst hself
        exact hworking w (by simpa [LiveCluster.setTask] using hw)
      · exact h.working r w (by simpa [LiveCluster.setTask, hself] using hw)
    exact hsame.mono (grows_of_eq rfl rfl rfl) rfl rfl fun _ _ _ _ _ _ hunanswered => hunanswered
  standing r c hc := (h.standing r c hc).mono (grows_of_eq rfl rfl rfl)

/-- Work waits for the lock of a leader. -/
theorem Sound.setWaiting (h : s.Sound) {work : List (Option μ)}
    (hled : work ≠ [] → self.index ≤ (s.certificates self).length) :
    (s.setWaiting self work).Sound where
  toRecorded := h.toRecorded.congr rfl
  justified := (h.messages (grows_of_eq rfl rfl rfl) rfl rfl).1
  answered := (h.messages (grows_of_eq rfl rfl rfl) rfl rfl).2
  led r hr := by
    by_cases hself : r = self
    · subst hself
      rcases hr with hwaiting | htask
      · exact hled (by simpa [LiveCluster.setWaiting] using hwaiting)
      · exact h.led r (.inr htask)
    · exact h.led r (by simpa [LiveCluster.setWaiting, hself] using hr)
  working r w hw := (h.working r w hw).mono (grows_of_eq rfl rfl rfl) rfl rfl
    fun _ _ _ _ _ _ hunanswered => hunanswered
  standing r c hc := (h.standing r c hc).mono (grows_of_eq rfl rfl rfl)

/-- A candidate goes on, or stops. -/
theorem Sound.setCandidacy (h : s.Sound) {candidacy : Option (Candidacy μ)}
    (hstanding : ∀ c, candidacy = some c → s.Standing self c) :
    (s.setCandidacy self candidacy).Sound where
  toRecorded := h.toRecorded.congr rfl
  justified := (h.messages (grows_of_eq rfl rfl rfl) rfl rfl).1
  answered := (h.messages (grows_of_eq rfl rfl rfl) rfl rfl).2
  led := h.led
  working r w hw := (h.working r w hw).mono (grows_of_eq rfl rfl rfl) rfl rfl
    fun _ _ _ _ _ _ hunanswered => hunanswered
  standing r c hc := by
    have hsame : s.Standing r c := by
      by_cases hself : r = self
      · subst hself
        exact hstanding c (by simpa [LiveCluster.setCandidacy] using hc)
      · exact h.standing r c (by simpa [LiveCluster.setCandidacy, hself] using hc)
    exact hsame.mono (grows_of_eq rfl rfl rfl)

/-- A candidate stops. -/
lemma Sound.stop (h : s.Sound) : (s.stop self).Sound :=
  h.setCandidacy fun _ hc => by cases hc

end Updates

/-! ## Nodes -/

section Nodes

variable {s t : LiveCluster A μ} {self r : Role} {n : Node A μ} {e : Envelope μ}

lemma nodes_become (s : LiveCluster A μ) (self r : Role) (n : Node A μ) :
    (s.become self n).nodes r = if r = self then n else s.nodes r :=
  Function.update_apply _ _ _ _

lemma log_become_self (s : LiveCluster A μ) (self : Role) (n : Node A μ) :
    (s.become self n).log self = n.replicationLog := by
  rw [log, nodes_become, if_pos rfl]

lemma log_become_of_ne (h : r ≠ self) : (s.become self n).log r = s.log r := by
  rw [log, nodes_become, if_neg h, log]

lemma certificates_become_self (s : LiveCluster A μ) (self : Role) (n : Node A μ) :
    (s.become self n).certificates self = n.leadership.certificates := by
  rw [certificates, nodes_become, if_pos rfl]

lemma certificates_become_of_ne (h : r ≠ self) :
    (s.become self n).certificates r = s.certificates r := by
  rw [certificates, nodes_become, if_neg h, certificates]

/-- A node whose log and certificates grow. -/
lemma grows_become (hlog : s.log self <+: n.replicationLog)
    (hcertificates : s.certificates self <+: n.leadership.certificates) :
    s.Grows (s.become self n) := by
  refine ⟨fun r => ?_, fun r => ?_, List.prefix_rfl, List.Subset.refl _⟩
  · by_cases hr : r = self
    · rw [hr, log_become_self]
      exact hlog
    · rw [log_become_of_ne hr]
  · by_cases hr : r = self
    · rw [hr, certificates_become_self]
      exact hcertificates
    · rw [certificates_become_of_ne hr]

/-- **A node changes** as it may. While its lock is held, it keeps its log and its terms. -/
theorem Sound.become (h : s.Sound) (hrecorded : (s.become self n).Recorded)
    (hgrows : s.Grows (s.become self n)) (hfree : s.tasks self = none ∨
      (n.replicationLog = s.log self ∧ n.leadership.certificates = s.certificates self)) :
    (s.become self n).Sound where
  toRecorded := hrecorded
  justified := (h.messages hgrows rfl rfl).1
  answered := (h.messages hgrows rfl rfl).2
  led r hr := (h.led r hr).trans (hgrows.certificates_length r)
  working r w hw := by
    have hsame : (s.become self n).log r = s.log r ∧
        (s.become self n).certificates r = s.certificates r := by
      by_cases hr : r = self
      · subst hr
        rcases hfree with hnone | hsame
        · rw [LiveCluster.become, hnone] at hw
          cases hw
        · rw [log_become_self, certificates_become_self]
          exact hsame
      · exact ⟨log_become_of_ne hr, certificates_become_of_ne hr⟩
    exact (h.working r w hw).mono hgrows hsame.1 hsame.2 fun _ _ _ _ _ _ hunanswered => hunanswered
  standing r c hc := (h.standing r c hc).mono hgrows

/-- What holds of the nodes where one of them changes and no other one. -/
lemma forall_become {P : Role → Node A μ → Prop} (hself : P self n)
    (hother : ∀ r, r ≠ self → P r (s.nodes r)) (r : Role) : P r ((s.become self n).nodes r) := by
  rw [nodes_become]
  split_ifs with hr
  · exact hr ▸ hself
  · exact hother r hr

/-- **A node keeps its log** and its terms, and the prepared record becomes `pending`. -/
theorem Recorded.keep (h : s.Recorded) {pending : Option (Envelope μ)}
    (hholds : n.Holds (s.nodes self).hasStore (s.nodes self).leadership.history)
    (hturns : (s.nodes self).Turns ((s.nodes self).replicationNonces, s.log self, pending) n)
    (hpending : ∀ e, pending = some e → e.nonce = (s.log self).length + 1 ∧
      (e.leader = self ∨ e.leader = (s.nodes self).leadership.leader)) :
    (s.become self n).Recorded := by
  obtain ⟨-, hleader, hcertificates⟩ := LeadershipState.history_eq_iff.mp hholds.memory
  have hlog : ∀ r, (s.become self n).log r = s.log r := by
    intro r
    by_cases hr : r = self
    · rw [hr, log_become_self]
      exact hturns.log
    · exact log_become_of_ne hr
  have hsame : ∀ r, (s.become self n).certificates r = s.certificates r := by
    intro r
    by_cases hr : r = self
    · rw [hr, certificates_become_self]
      exact hcertificates
    · exact certificates_become_of_ne hr
  refine ⟨forall_become (P := fun _ m => m.Kept) (hturns.kept (h.kept self)) fun r _ => h.kept r,
    h.elected.become hholds, ?_, ?_, ?_, ?_, ?_, ?_, ?_⟩
  · simpa only [hsame] using h.followed
  · intro r
    rw [hlog, h.length]
    exact forall_become (P := fun r m => (s.nodes r).committedPosition = m.committedPosition)
      hturns.position.symm (fun _ _ => rfl) r
  · simpa only [hlog] using h.numbered
  · simpa only [hlog, hsame] using h.signed
  · simpa only [hlog] using h.owned
  · simpa only [hlog, hsame] using h.certified
  · intro r
    rw [hlog]
    refine forall_become (P := fun r m => ∀ e, m.replicationPending = some e →
      e.nonce = (s.log r).length + 1 ∧ (e.leader = r ∨ e.leader = m.leadership.leader))
      (fun e he => ?_) (fun r _ => h.pending r) r
    rw [hturns.pending] at he
    rw [hleader]
    exact hpending e he

/-- **A node commits** the next envelope, which is one of its leader, and which the leader has in
its log already where it is another node. -/
theorem Recorded.extend (h : s.Recorded)
    (hholds : n.Holds (s.nodes self).hasStore (s.nodes self).leadership.history)
    (hturns : (s.nodes self).Turns ((s.nodes self).replicationNonces.set e.leader e.nonce,
      s.log self ++ [e], none) n)
    (hnonce : e.nonce = (s.log self).length + 1)
    (hleader : e.leader = (s.nodes self).leadership.leader)
    (howner : e.leader = self ∨ s.Has e.leader e) : (s.become self n).Recorded := by
  obtain ⟨-, hsameLeader, hcertificates⟩ := LeadershipState.history_eq_iff.mp hholds.memory
  have hself : (s.become self n).log self = s.log self ++ [e] :=
    (log_become_self ..).trans hturns.log
  have hsame : ∀ r, (s.become self n).certificates r = s.certificates r := by
    intro r
    by_cases hr : r = self
    · rw [hr, certificates_become_self]
      exact hcertificates
    · exact certificates_become_of_ne hr
  have hgrows : s.Grows (s.become self n) := grows_become
    (hturns.log ▸ List.prefix_append _ _) (hcertificates ▸ List.prefix_rfl)
  -- an envelope of the new log is an old one, or the new one at its end
  have hcases : ∀ r (i : ℕ) e', ((s.become self n).log r)[i]? = some e' →
      (s.log r)[i]? = some e' ∨ (r = self ∧ i = (s.log self).length ∧ e' = e) := by
    intro r i e' he'
    by_cases hr : r = self
    · subst hr
      rw [hself, List.getElem?_append] at he'
      split_ifs at he' with hi
      · exact .inl he'
      · obtain ⟨hlt, he'⟩ := List.getElem?_eq_some_iff.mp he'
        rw [List.length_singleton] at hlt
        refine .inr ⟨rfl, by omega, ?_⟩
        rw [← he', List.getElem_singleton]
    · exact .inl (log_become_of_ne hr ▸ he')
  refine ⟨forall_become (P := fun _ m => m.Kept) (hturns.kept (h.kept self)) fun r _ => h.kept r,
    h.elected.become hholds, ?_, ?_, ?_, ?_, ?_, ?_, ?_⟩
  · simpa only [hsame] using h.followed
  · refine forall_become (P := fun r m => (m.replicationLog.length : ℤ) = m.committedPosition) ?_
      fun r _ => h.length r
    rw [hturns.log, hturns.position, max?_values_set _ _ (show
      (s.nodes self).replicationNonces.values.max?.getD 0 < e.nonce from ?_), hnonce]
    · simp
    · have hposition := h.length self
      unfold Saved.committedPosition at hposition
      omega
  · intro r i e' he'
    rcases hcases r i e' he' with hold | ⟨-, rfl, rfl⟩
    · exact h.numbered r i e' hold
    · exact hnonce
  · intro r i e' he'
    rw [hsame]
    rcases hcases r i e' he' with hold | ⟨rfl, rfl, rfl⟩
    · exact h.signed r i e' hold
    · refine (signer_of_lt (fun c hc => ?_) (hleader ▸ (h.ranked r).leader)).symm
      exact Int.lt_add_one_iff.mpr (h.certified r c hc)
  · intro r i e' he'
    rcases hcases r i e' he' with hold | ⟨rfl, rfl, rfl⟩
    · exact getElem?_of_prefix (hgrows.log _) (h.owned r i e' hold)
    · rcases howner with howner | ⟨j, hj, hhas⟩
      · rw [howner]
        exact he'
      · obtain rfl : j = (s.log r).length := by omega
        exact getElem?_of_prefix (hgrows.log _) hhas
  · intro r c hc
    rw [hsame] at hc
    exact (h.certified r c hc).trans (hgrows.log_length r)
  · intro r
    by_cases hr : r = self
    · intro e' he'
      rw [hr, nodes_become, if_pos rfl, hturns.pending] at he'
      cases he'
    · rw [log_become_of_ne hr, nodes_become, if_neg hr]
      exact h.pending r

/-- What a node that is to record a certificate becomes. -/
lemma after_recordCertificate [DecidableEq μ] (keys : Keyring μ) {m : Node A μ}
    (hranked : m.leadership.Ranked) (c : LeadershipCertificate) :
    after (Node.recordCertificate keys true c) m = m ∨
      (c.committedNonce = m.committedPosition ∧ c.term = m.leadership.certificates.length + 1 ∧
        (after (Node.recordCertificate keys true c) m).leadership.certificates =
          m.leadership.certificates ++ [c] ∧
        m.Turns (m.replicationNonces, m.replicationLog, none)
          (after (Node.recordCertificate keys true c) m)) := by
  refine after_iff (P := fun t => t = m ∨ (c.committedNonce = m.committedPosition ∧
    c.term = m.leadership.certificates.length + 1 ∧
    t.leadership.certificates = m.leadership.certificates ++ [c] ∧
    m.Turns (m.replicationNonces, m.replicationLog, none) t)).mpr
      (Node.turns_recordCertificate.mono ?_ fun _ t ht => .inl ht)
  rintro - t (⟨rfl, -⟩ | ⟨hposition, hnew, ⟨leadership, haccept, rfl⟩, hturns⟩)
  · exact .inl rfl
  · obtain ⟨-, hcertificates, hterm⟩ := hranked.accept hnew haccept
    exact .inr ⟨hposition, hterm, hcertificates, hturns⟩

/-- **A node adopts a certificate** as the witness of the election, as its winner, or after the
winner. -/
theorem Recorded.adopt [DecidableEq μ] (keys : Keyring μ) {c : LeadershipCertificate}
    (h : s.Recorded) {j : ℕ} (hj : c.term = j + 1) (hsource : self = electionWitness j ∨
      (self = electionWinner j ∧ ∃ r, c ∈ s.certificates r) ∨
      c ∈ s.certificates (electionWinner j)) :
    (s.become self (after (Node.recordCertificate keys true c) (s.nodes self))).Recorded ∧
      s.Grows (s.become self (after (Node.recordCertificate keys true c) (s.nodes self))) ∧
      (returns (Node.recordCertificate keys true c) (s.nodes self) = true → c ∈ (s.become self
        (after (Node.recordCertificate keys true c) (s.nodes self))).certificates self) := by
  have hwarrant : (∃ i : ℕ, c.term = i + 1 ∧ self = electionWitness i) ∨
      ∃ r, c ∈ s.elections.certificates r := by
    rcases hsource with hwitness | ⟨-, hheld⟩ | hheld
    · exact .inl ⟨j, hj, hwitness⟩
    · exact .inr hheld
    · exact .inr ⟨_, hheld⟩
  obtain ⟨helected, hadopted⟩ := h.elected.record keys hwarrant
  refine (and_assoc.mp ⟨?_, hadopted⟩)
  change (s.become self
    (after (Node.recordCertificate keys true c) (s.nodes self))).elections.Elected at helected
  clear hadopted
  have hafter := after_recordCertificate keys (h.ranked self) c
  generalize after (Node.recordCertificate keys true c) (s.nodes self) = n at hafter helected ⊢
  rcases hafter with rfl | ⟨hposition, hterm, hcertificates, hturns⟩
  · have hsame : (s.become self (s.nodes self)).nodes = s.nodes := Function.update_eq_self _ _
    exact ⟨h.congr hsame, grows_of_eq hsame rfl rfl⟩
  obtain rfl : j = (s.certificates self).length := by
    unfold certificates
    omega
  have hlog : ∀ r, (s.become self n).log r = s.log r := by
    intro r
    by_cases hr : r = self
    · rw [hr, log_become_self]
      exact hturns.log
    · exact log_become_of_ne hr
  have hself : (s.become self n).certificates self = s.certificates self ++ [c] :=
    (certificates_become_self ..).trans hcertificates
  have hgrows : s.Grows (s.become self n) := grows_become
    (hturns.log ▸ List.prefix_rfl) (hcertificates ▸ List.prefix_append _ _)
  have hlength := h.length self
  refine ⟨⟨forall_become (P := fun _ m => m.Kept) (hturns.kept (h.kept self))
    fun r _ => h.kept r, helected, ?_, ?_, ?_, ?_, ?_, ?_, ?_⟩, hgrows⟩
  · intro r j hj' hr
    by_cases hrs : r = self
    · subst hrs
      rw [hself, List.length_append, List.length_singleton] at hj'
      rcases Nat.lt_succ_iff_lt_or_eq.mp hj' with hold | rfl
      · exact (h.followed r j hold hr).trans_le (hgrows.certificates_length _)
      · rcases hsource with hwitness | ⟨hwinner, -⟩ | hheld
        · exact absurd hwitness hr
        · rw [← hwinner, hself, List.length_append, List.length_singleton]
          exact Nat.lt_succ_self _
        · have hget := (h.ranked (electionWinner _)).get?_of_mem hheld hj
          exact (List.getElem?_eq_some_iff.mp hget).1.trans_le (hgrows.certificates_length _)
    · rw [certificates_become_of_ne hrs] at hj'
      exact (h.followed r j hj' hr).trans_le (hgrows.certificates_length _)
  · intro r
    rw [hlog, h.length]
    exact forall_become (P := fun r m => (s.nodes r).committedPosition = m.committedPosition)
      hturns.position.symm (fun _ _ => rfl) r
  · simpa only [hlog] using h.numbered
  · intro r i e he
    rw [hlog] at he
    rw [h.signed r i e he]
    by_cases hr : r = self
    · subst hr
      rw [hself, signer_concat]
      rw [hposition, ← hlength]
      exact_mod_cast (List.getElem?_eq_some_iff.mp he).1
    · rw [certificates_become_of_ne hr]
  · simpa only [hlog] using h.owned
  · intro r d hd
    rw [hlog]
    by_cases hr : r = self
    · subst hr
      rw [hself] at hd
      rcases List.mem_append.mp hd with hold | hnew
      · exact h.certified r d hold
      · rw [List.mem_singleton.mp hnew, hposition, hlength]
    · rw [certificates_become_of_ne hr] at hd
      exact h.certified r d hd
  · intro r
    rw [hlog]
    by_cases hr : r = self
    · intro e he
      rw [hr, nodes_become, if_pos rfl, hturns.pending] at he
      cases he
    · rw [nodes_become, if_neg hr]
      exact h.pending r

end Nodes

end LiveCluster

end SplitChain
