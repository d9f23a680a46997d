import SplitChain.Model.ClusterInvariant

set_option relaxedAutoImplicit false
set_option autoImplicit false

/-!
# Steps of the cluster

A node that serves a call, and the work of the leader, keep the invariant and take nothing back.

## Main definitions

* `SplitChain.LiveCluster.LeadsTo` — the invariant has been kept, and nothing taken back.

## Main results

* `SplitChain.LiveCluster.Sound.serve` — a call is served.
* `SplitChain.LiveCluster.Sound.continues` — a transfer goes on.
* `SplitChain.LiveCluster.Sound.resume`, `Sound.conclude` — the work of the leader.
-/

namespace SplitChain

open Raise Proc

variable {A μ ρ : Type}

namespace LiveCluster

variable {app : App A μ ρ} {keys : Keyring μ} {boot : Role → A} {s t u : LiveCluster A μ}
  {self peer sender receiver : Role} {n : Node A μ} {e : Envelope μ} {k : ℕ}

/-- The invariant has been kept, and nothing taken back. -/
def LeadsTo (s t : LiveCluster A μ) : Prop := t.Sound ∧ s.Grows t

lemma LeadsTo.trans (h : s.LeadsTo t) (h' : t.LeadsTo u) : s.LeadsTo u := ⟨h'.1, h.2.trans h'.2⟩

/-! ## Nodes -/

/-- An operation keeps the terms of a node. -/
lemma Recorded.holds [DecidableEq μ] (h : s.Recorded) (operation : Operation A μ) (self : Role) :
    (operation.run app keys self (s.nodes self)).Holds (s.nodes self).hasStore
      (s.nodes self).leadership.history :=
  (h.elected.filed self).run operation

/-- **A node keeps its log** and its terms. -/
lemma Sound.keep (h : s.Sound) {pending : Option (Envelope μ)}
    (hholds : n.Holds (s.nodes self).hasStore (s.nodes self).leadership.history)
    (hturns : (s.nodes self).Turns ((s.nodes self).replicationNonces, s.log self, pending) n)
    (hpending : ∀ e, pending = some e → e.nonce = (s.log self).length + 1 ∧
      (e.leader = self ∨ e.leader = (s.nodes self).leadership.leader)) :
    s.LeadsTo (s.become self n) := by
  obtain ⟨-, -, hcertificates⟩ := LeadershipState.history_eq_iff.mp hholds.memory
  have hgrows : s.Grows (s.become self n) :=
    grows_become (hturns.log ▸ List.prefix_rfl) (hcertificates ▸ List.prefix_rfl)
  exact ⟨h.become (h.toRecorded.keep hholds hturns hpending) hgrows
    (.inr ⟨hturns.log, hcertificates⟩), hgrows⟩

/-- A node keeps its record. -/
lemma Sound.keep_record (h : s.Sound)
    (hholds : n.Holds (s.nodes self).hasStore (s.nodes self).leadership.history)
    (hturns : (s.nodes self).Turns (s.nodes self).record n) : s.LeadsTo (s.become self n) :=
  h.keep hholds hturns (h.pending self)

/-- A node drops its prepared record. -/
lemma Sound.drop_pending (h : s.Sound)
    (hholds : n.Holds (s.nodes self).hasStore (s.nodes self).leadership.history)
    (hturns : (s.nodes self).Turns ((s.nodes self).replicationNonces, s.log self, none) n) :
    s.LeadsTo (s.become self n) :=
  h.keep hholds hturns fun _ he => by cases he

/-- **A node commits** the next envelope of its leader while its lock is free. -/
lemma Sound.extend (h : s.Sound) (hfree : s.tasks self = none)
    (hholds : n.Holds (s.nodes self).hasStore (s.nodes self).leadership.history)
    (hturns : (s.nodes self).Turns ((s.nodes self).replicationNonces.set e.leader e.nonce,
      s.log self ++ [e], none) n)
    (hnonce : e.nonce = (s.log self).length + 1)
    (hleader : e.leader = (s.nodes self).leadership.leader)
    (howner : e.leader = self ∨ s.Has e.leader e) :
    s.LeadsTo (s.become self n) ∧ (s.become self n).Has self e := by
  obtain ⟨-, -, hcertificates⟩ := LeadershipState.history_eq_iff.mp hholds.memory
  have hgrows : s.Grows (s.become self n) :=
    grows_become (hturns.log ▸ List.prefix_append _ _) (hcertificates ▸ List.prefix_rfl)
  refine ⟨⟨h.become (h.toRecorded.extend hholds hturns hnonce hleader howner) hgrows (.inl hfree),
    hgrows⟩, (s.log self).length, hnonce, ?_⟩
  rw [log_become_self, hturns.log]
  exact List.getElem?_concat_length

/-- **A node adopts a certificate** while its lock is free. -/
lemma Sound.adopt [DecidableEq μ] (keys : Keyring μ) {c : LeadershipCertificate} (h : s.Sound)
    (hfree : s.tasks self = none) {j : ℕ} (hj : c.term = j + 1)
    (hsource : self = electionWitness j ∨
      (self = electionWinner j ∧ ∃ r, c ∈ s.certificates r) ∨
      c ∈ s.certificates (electionWinner j)) :
    s.LeadsTo (s.become self (after (Node.recordCertificate keys true c) (s.nodes self))) ∧
      (returns (Node.recordCertificate keys true c) (s.nodes self) = true → c ∈ (s.become self
        (after (Node.recordCertificate keys true c) (s.nodes self))).certificates self) := by
  obtain ⟨hrecorded, hgrows, hadopted⟩ := h.toRecorded.adopt keys hj hsource
  exact ⟨⟨h.become hrecorded hgrows (.inl hfree), hgrows⟩, hadopted⟩

/-- What an envelope that a replica takes has passed. -/
lemma verifyEnvelope_eq_ok (hverify : Node.verifyEnvelope app keys self n e = .ok ()) :
    e.leader ≠ self ∧ e.leader = n.leadership.leader ∧ n.committedPosition < e.nonce := by
  unfold Node.verifyEnvelope ReplicationAuthenticator.verify at hverify
  simp only [bind_eq_ok, require_eq_ok, exists_const, Bool.and_eq_true, beq_iff_eq, bne_iff_ne,
    decide_eq_true_eq] at hverify
  obtain ⟨-, hself, ⟨⟨hleader, hnonce⟩, -⟩, -⟩ := hverify
  exact ⟨fun heq => hself (heq ▸ hleader), hleader, hnonce⟩

/-! ## Serving calls -/

section Serving

variable [DecidableEq μ]

/-- **A node prepares** the next envelope, if it is one of its leader. -/
lemma Sound.prepare (h : s.Sound) (app : App A μ ρ) (keys : Keyring μ)
    (hnonce : e.nonce ≤ (s.log self).length + 1) :
    s.LeadsTo (s.become self (after (Node.prepareReplica app keys self true e) (s.nodes self))) ∧
      (returns (Node.prepareReplica app keys self true e) (s.nodes self) = true →
        e.leader = (s.nodes self).leadership.leader) := by
  have hholds : (after (Node.prepareReplica app keys self true e) (s.nodes self)).Holds _ _ :=
    h.toRecorded.holds (.prepare true e) self
  obtain ⟨hreturned, hraised⟩ := 
    (Node.turns_prepareReplica app keys self (s.nodes self) e).returns
  cases hreturns : returns (Node.prepareReplica app keys self true e) (s.nodes self) with
  | false =>
    obtain ⟨-, hturns⟩ := hraised hreturns
    exact ⟨h.keep_record hholds hturns, fun hb => by cases hb⟩
  | true =>
    obtain ⟨-, hverify, hturns⟩ := hreturned hreturns
    obtain ⟨-, hleader, hposition⟩ := verifyEnvelope_eq_ok hverify
    refine ⟨h.keep hholds hturns fun e' he' => ?_, fun _ => hleader⟩
    obtain rfl := Option.some.inj he'
    rw [← h.length] at hposition
    exact ⟨by omega, .inr hleader⟩

/-- **A node commits** the prepared envelope, which its leader has committed. -/
lemma Sound.commit (h : s.Sound) (app : App A μ ρ) (keys : Keyring μ)
    (hfree : s.tasks self = none) (hhas : s.Has e.leader e) :
    s.LeadsTo (s.become self (after (Node.commitReplica app keys self true e) (s.nodes self))) ∧
      (returns (Node.commitReplica app keys self true e) (s.nodes self) = true →
        (s.become self
          (after (Node.commitReplica app keys self true e) (s.nodes self))).Has self e) := by
  have hholds : (after (Node.commitReplica app keys self true e) (s.nodes self)).Holds _ _ :=
    h.toRecorded.holds (.commit true e) self
  obtain ⟨hreturned, hraised⟩ := 
    (Node.turns_commitReplica app keys self (s.nodes self) e).returns
  cases hreturns : returns (Node.commitReplica app keys self true e) (s.nodes self) with
  | false =>
    obtain ⟨-, hturns⟩ := hraised hreturns
    exact ⟨h.keep_record hholds hturns, fun hb => by cases hb⟩
  | true =>
    obtain ⟨-, hverify, hpending, hturns⟩ := hreturned hreturns
    obtain ⟨-, hleader, -⟩ := verifyEnvelope_eq_ok hverify
    have hextend := h.extend hfree hholds hturns (h.pending self e hpending).1 hleader (.inr hhas)
    exact ⟨hextend.1, fun _ => hextend.2⟩

/-- A node aborts an envelope. -/
lemma Sound.abort (h : s.Sound) : s.LeadsTo
    (s.become self (after (Node.abortReplica app keys self true e) (s.nodes self))) := by
  have hholds : (after (Node.abortReplica app keys self true e) (s.nodes self)).Holds _ _ :=
    h.toRecorded.holds (.abort true e) self
  obtain ⟨hreturned, hraised⟩ := 
    (Node.turns_abortReplica app keys self (s.nodes self) e).returns
  cases hreturns : returns (Node.abortReplica app keys self true e) (s.nodes self) with
  | false =>
    obtain ⟨-, hturns⟩ := hraised hreturns
    exact h.keep_record hholds hturns
  | true =>
    obtain ⟨-, -, -, hturns⟩ := hreturned hreturns
    exact h.drop_pending hholds hturns

omit [DecidableEq μ] in
/-- The lock of a node is free. -/
lemma tasks_eq_none_of_free (h : s.free self = true) : s.tasks self = none :=
  Option.isNone_iff_eq_none.mp h

omit [DecidableEq μ] in
/-- An operation of a node serves a call. -/
lemma LeadsTo.serveBy {α : Type} {call : PeerCall μ} {x : EStateM PyError (Node A μ) α}
    {result : PeerResult μ} (hk : s.packets[k]? = some ⟨sender, self, call⟩)
    (hserve : s.serveBy k self x result = some t)
    (hleads : s.LeadsTo (s.become self (after x (s.nodes self))))
    (hresult : returns x (s.nodes self) = true →
      (s.become self (after x (s.nodes self))).Answered ⟨sender, self, call⟩ result ∧
      ∀ e, call = .prepare e →
        e.leader = ((s.become self (after x (s.nodes self))).nodes self).leadership.leader) :
    s.LeadsTo t := by
  unfold LiveCluster.serveBy at hserve
  split_ifs at hserve with hfree hreturns
  · obtain ⟨hanswered, hlead⟩ := hresult hreturns
    exact Option.some.inj hserve ▸ hleads.trans
      ⟨hleads.1.reply (hleads.2.packet hk) hanswered hlead, grows_reply ..⟩
  · exact Option.some.inj hserve ▸ hleads

/-- An operation keeps the leader that a node follows. -/
lemma Recorded.leader_become (h : s.Recorded) (operation : Operation A μ) :
    ((s.become self (operation.run app keys self (s.nodes self))).nodes self).leadership.leader =
      (s.nodes self).leadership.leader := by
  rw [nodes_become, if_pos rfl]
  exact (LeadershipState.history_eq_iff.mp (h.holds operation self).memory).2.1

omit [DecidableEq μ] in
/-- The history that a node tells is a part of its log. -/
lemma history_eq_ok {start : ℤ} {history : Node.History μ}
    (h : n.history app start = .ok history) :
    0 ≤ start ∧ history.entries <+: n.replicationLog.drop start.toNat := by
  unfold Node.history at h
  simp only [bind_eq_ok, require_eq_ok, exists_const, pure_eq_ok, Bool.and_eq_true,
    decide_eq_true_eq] at h
  obtain ⟨⟨⟨hstart, -⟩, -⟩, rfl⟩ := h
  exact ⟨hstart, List.take_prefix _ _⟩

omit [DecidableEq μ] in
/-- A node tells what it has. -/
lemma Sound.answers (h : s.Sound) (sender : Role) {now : ℤ} {call : PeerCall μ}
    {result : PeerResult μ} (hquery : query app keys (s.nodes self) self now call = some result) :
    s.Answered ⟨sender, self, call⟩ result ∧ ∀ e, call ≠ .prepare e := by
  cases call with
  | position =>
    unfold LiveCluster.query at hquery
    split_ifs at hquery
    obtain rfl := Option.some.inj hquery
    exact ⟨(h.length self).ge, fun e he => by cases he⟩
  | history start =>
    obtain ⟨history, hhistory, rfl⟩ := Option.map_eq_some_iff.mp hquery
    exact ⟨history_eq_ok (toOption_eq_some.mp hhistory), fun e he => by cases he⟩
  | leadership =>
    obtain rfl := Option.some.inj hquery
    exact ⟨List.prefix_rfl, fun e he => by cases he⟩
  | timeoutVote vote ledgerDigest =>
    obtain ⟨signed, -, rfl⟩ := Option.map_eq_some_iff.mp hquery
    exact ⟨trivial, fun e he => by cases he⟩
  | prepare | commit | abort | certificate => cases hquery

/-- **A call is served.** -/
theorem Sound.serve (h : s.Sound) {now : ℤ} {p : Packet μ} (hk : s.packets[k]? = some p)
    (hserve : s.serve app keys k p.receiver now p.call = some t) : s.LeadsTo t := by
  have hjustified := h.justified p (List.mem_of_getElem? hk)
  obtain ⟨sender, self, call⟩ := p
  have hquery : ∀ call, s.packets[k]? = some ⟨sender, self, call⟩ →
      (if s.free self || isLockless call then
        (query app keys (s.nodes self) self now call).map (s.reply k) else none) = some t →
      s.LeadsTo t := by
    intro call hk hserve
    split_ifs at hserve
    obtain ⟨result, hresult, rfl⟩ := Option.map_eq_some_iff.mp hserve
    obtain ⟨hanswered, hcall⟩ := h.answers sender hresult
    exact ⟨h.reply hk hanswered fun e he => absurd he (hcall e), grows_reply ..⟩
  cases call with
  | prepare e =>
    obtain ⟨hleads, hlead⟩ := h.prepare app keys hjustified
    refine hleads.serveBy hk hserve fun hreturns => ⟨trivial, fun e' he' => ?_⟩
    cases he'
    exact (hlead hreturns).trans (h.leader_become (.prepare true e)).symm
  | commit e =>
    have hfree : s.tasks self = none := by
      unfold LiveCluster.serve LiveCluster.serveBy at hserve
      split_ifs at hserve with hfree
      exact tasks_eq_none_of_free hfree
    obtain ⟨hleads, hhas⟩ := h.commit app keys hfree hjustified
    exact hleads.serveBy hk hserve fun hreturns =>
      ⟨⟨rfl, hhas hreturns⟩, fun e' he' => by cases he'⟩
  | abort e =>
    exact h.abort.serveBy hk hserve fun _ => ⟨trivial, fun e' he' => by cases he'⟩
  | certificate c =>
    have hfree : s.tasks self = none := by
      unfold LiveCluster.serve LiveCluster.serveBy at hserve
      split_ifs at hserve with hfree
      exact tasks_eq_none_of_free hfree
    obtain ⟨j, hj, hreason⟩ := hjustified
    obtain ⟨hleads, hadopted⟩ := h.adopt keys hfree hj
      (hreason.imp_right fun hheld => .inr hheld)
    exact hleads.serveBy hk hserve fun hreturns =>
      ⟨hadopted hreturns, fun e' he' => by cases he'⟩
  | position => exact hquery _ hk hserve
  | history start => exact hquery _ hk hserve
  | leadership => exact hquery _ hk hserve
  | timeoutVote vote ledgerDigest => exact hquery _ hk hserve

end Serving

/-! ## Transfers -/

section Transfers

variable {offer : Option (Envelope μ)} {entries rest : List (Envelope μ)} {transfer : Transfer μ}
  {result : Option (PeerResult μ)}

/-- **How a transfer goes on**: the call that it sends shows what is true, and the transfer waits
for it. -/
structure Continues (s : LiveCluster A μ) (role peer : Role) (offer : Option (Envelope μ))
    (after : Transfer μ × Option (PeerCall μ)) : Prop where
  justified : ∀ call, after.2 = some call → s.Justified ⟨role, peer, call⟩
  waits : ∀ call, after.2 = some call →
    (s.send role peer call).Carries role peer offer after.1
  ends : after.2 = none → s.Carries role peer offer after.1

/-- A call that has just been sent has the number that it got. -/
lemma packets_send (s : LiveCluster A μ) (self receiver : Role) (call : PeerCall μ) :
    (s.send self receiver call).packets[s.packets.length]? = some ⟨self, receiver, call⟩ :=
  List.getElem?_concat_length

/-- A transfer that has ended. -/
lemma continues_ended (success : Bool) : s.Continues self peer offer (.ended success, none) :=
  ⟨fun _ hcall => (by cases hcall), fun _ hcall => (by cases hcall), fun _ => trivial⟩

/-- The first envelope that is left is the next one for the peer. -/
lemma Behind.head (h : s.Behind self peer offer (e :: rest)) (hs : s.Recorded) :
    ∃ i : ℕ, i ≤ (s.log peer).length ∧ (s.log self)[i]? = some e ∧ e.nonce = i + 1 := by
  obtain ⟨i, hi, hentries, -⟩ := h
  have he : (s.log self)[i]? = some e := by
    have hzero := getElem?_of_prefix hentries (i := 0) rfl
    simpa only [List.getElem?_drop, Nat.add_zero] using hzero
  exact ⟨i, hi, he, hs.numbered self i e he⟩

/-- An envelope of a log is one that its signer has committed. -/
lemma Recorded.has_leader (hs : s.Recorded) {r : Role} {i : ℕ} (he : (s.log r)[i]? = some e) :
    s.Has e.leader e :=
  ⟨i, hs.numbered r i e he, hs.owned r i e he⟩

/-- A peer that has committed the first envelope lacks the rest. -/
lemma Behind.tail (h : s.Behind self peer offer (e :: rest)) (hs : s.Recorded)
    (hhas : s.Has peer e) : s.Behind self peer offer rest := by
  obtain ⟨i, hi, hentries, hall⟩ := h
  have he : (s.log self)[i]? = some e := by
    have hzero := getElem?_of_prefix hentries (i := 0) rfl
    simpa only [List.getElem?_drop, Nat.add_zero] using hzero
  have hnonce := hs.numbered self i e he
  obtain ⟨j, hj, hpeer⟩ := hhas
  obtain rfl : j = i := by omega
  refine ⟨j + 1, (List.getElem?_eq_some_iff.mp hpeer).1, ?_, fun hsome => ?_⟩
  · rw [← List.drop_drop]
    exact List.IsPrefix.drop hentries 1
  · have hlength := hall hsome
    rw [List.length_cons] at hlength
    omega

/-- **The next envelope** is sent. -/
lemma Behind.next (h : s.Behind self peer offer entries) (hs : s.Recorded)
    (hoffer : ∀ e, offer = some e → e.nonce = (s.log self).length + 1) :
    s.Continues self peer offer (Transfer.next offer s.packets.length entries) := by
  cases entries with
  | cons e rest =>
    obtain ⟨i, hi, -, hnonce⟩ := h.head hs
    refine ⟨fun call hcall => ?_, fun call hcall => ?_, fun hcall => by cases hcall⟩
    · cases hcall
      exact hnonce.le.trans (add_le_add_left (Nat.cast_le.mpr hi) 1)
    · cases hcall
      exact ⟨packets_send .., h.mono (grows_send ..) fun _ => rfl⟩
  | nil =>
    cases hsome : offer with
    | none => exact continues_ended true
    | some e =>
      rw [hsome] at h hoffer
      obtain ⟨i, hi, -, hall⟩ := h
      have hlength := hall rfl
      rw [List.length_nil, Nat.add_zero] at hlength
      refine ⟨fun call hcall => ?_, fun call hcall => ?_, fun hcall => by cases hcall⟩
      · cases hcall
        exact (hoffer e rfl).le.trans (add_le_add_left (Nat.cast_le.mpr (hlength ▸ hi)) 1)
      · cases hcall
        exact ⟨e, rfl, packets_send ..⟩

/-- **A transfer gets a result**, or gives it up.

**Proof sketch.** The position of the peer is one that the peer has reached. A peer that has
committed an envelope has it in its log. -/
theorem Sound.continues [DecidableEq μ] (h : s.Sound)
    (hoffer : ∀ e, offer = some e → e.nonce = (s.log self).length + 1)
    (hcarries : s.Carries self peer offer transfer)
    (hreceived : s.received transfer.call? result = true) :
    s.Continues self peer offer (transfer.answer offer s.packets.length (s.log self)
      (s.nodes self).committedPosition result) := by
  have hanswered : ∀ k r call, transfer.call? = some k → result = some r →
      s.packets[k]? = some ⟨self, peer, call⟩ → s.Answered ⟨self, peer, call⟩ r := by
    rintro k r call hk rfl hcall
    rw [hk] at hreceived
    obtain ⟨p, hp, hanswered⟩ := h.answered k r (of_decide_eq_true hreceived)
    rw [hcall] at hp
    exact Option.some.inj hp ▸ hanswered
  cases transfer with
  | locating k =>
    unfold Transfer.answer
    cases result with
    | none => exact continues_ended false
    | some r =>
      have hr := hanswered k r _ rfl rfl hcarries
      cases r with
      | position nonce =>
        dsimp only
        split_ifs with hnonce
        · refine Behind.next ⟨nonce.toNat, Int.toNat_le.mpr hr, List.prefix_rfl, fun _ => ?_⟩
            h.toRecorded hoffer
          rw [List.length_drop]
          omega
        · exact continues_ended false
      | _ => exact continues_ended false
  | preparing e rest k =>
    refine ⟨fun call hcall => ?_, fun call hcall => ?_, fun hcall => by cases hcall⟩
    · cases hcall
      obtain ⟨i, -, he, -⟩ := hcarries.2.head h.toRecorded
      exact h.toRecorded.has_leader he
    · cases hcall
      exact ⟨packets_send .., hcarries.2.mono (grows_send ..) fun _ => rfl⟩
  | committing e rest prepared k =>
    unfold Transfer.answer
    dsimp only
    split_ifs with hsuccess
    · rw [Bool.and_eq_true, Option.isSome_iff_exists] at hsuccess
      obtain ⟨-, r, rfl⟩ := hsuccess
      have hr := hanswered k r _ rfl rfl hcarries.1
      cases r with
      | committed nonce => exact (hcarries.2.tail h.toRecorded hr.2).next h.toRecorded hoffer
      | _ => exact hr.elim
    · exact continues_ended false
  | offering k => exact continues_ended _
  | ended success => exact continues_ended success

/-- No peer takes the envelope of a leader of a former term. -/
lemma unanswered_answer [DecidableEq μ] (h : s.Sound) (hsome : offer.isSome = true)
    (log : List (Envelope μ)) (position : ℤ)
    (hunanswered : s.Unanswered transfer) (hreceived : s.received transfer.call? result = true) :
    s.Unanswered (transfer.answer offer s.packets.length log position result).1 := by
  have hfresh : ∀ result, (s.packets.length, result) ∉ s.results := fun result hmem => by
    obtain ⟨p, hp, -⟩ := h.answered _ _ hmem
    rw [List.getElem?_eq_none le_rfl] at hp
    cases hp
  have hnext : ∀ entries, s.Unanswered (Transfer.next offer s.packets.length entries).1 := by
    intro entries
    cases entries with
    | cons e rest => trivial
    | nil =>
      obtain ⟨e, rfl⟩ := Option.isSome_iff_exists.mp hsome
      exact hfresh
  cases transfer with
  | locating k =>
    unfold Transfer.answer
    cases result with
    | none => rfl
    | some r =>
      cases r with
      | position nonce =>
        dsimp only
        split_ifs
        · exact hnext _
        · rfl
      | _ => rfl
  | preparing e rest k => trivial
  | committing e rest prepared k =>
    unfold Transfer.answer
    dsimp only
    split_ifs
    · exact hnext _
    · rfl
  | offering k =>
    cases result with
    | none => rfl
    | some r => exact absurd (of_decide_eq_true hreceived) (hunanswered r)
  | ended success => exact hunanswered

end Transfers

/-! ## The work of the leader -/

section Work

/-- The lock of a node is taken, or set free. -/
lemma LeadsTo.setTask (h : s.LeadsTo t) {task : Option (Task μ)}
    (hled : task ≠ none → self.index ≤ (t.certificates self).length)
    (hworking : ∀ w, task = some w → t.Working self w) : s.LeadsTo (t.setTask self task) :=
  h.trans ⟨h.1.setTask hled hworking, grows_of_eq rfl rfl rfl⟩

/-- The lock of a node is set free. -/
lemma LeadsTo.release (h : s.LeadsTo t) : s.LeadsTo (t.setTask self none) :=
  h.setTask (fun hnone => absurd rfl hnone) fun _ hw => by cases hw

/-- A call is sent to both peers. -/
lemma LeadsTo.broadcast (h : s.LeadsTo t) (call : PeerCall μ)
    (hp : ∀ receiver, t.Justified ⟨self, receiver, call⟩) : s.LeadsTo (t.broadcast self call) :=
  h.trans ⟨h.1.broadcast hp, (grows_send ..).trans (grows_send ..)⟩

lemma LeadsTo.refl (h : s.Sound) : s.LeadsTo s := ⟨h, .refl s⟩

/-- The calls to both peers have the numbers that they got. -/
lemma packets_broadcast (s : LiveCluster A μ) (self : Role) (call : PeerCall μ) :
    (s.broadcast self call).packets[s.packets.length]? = some ⟨self, self.peers.1, call⟩ ∧
      (s.broadcast self call).packets[s.packets.length + 1]? =
        some ⟨self, self.peers.2, call⟩ := by
  refine ⟨(grows_send ..).packet (packets_send ..), ?_⟩
  have hsecond := packets_send (s.send self self.peers.1 call) self self.peers.2 call
  rwa [show (s.send self self.peers.1 call).packets.length = s.packets.length + 1 from
    List.length_append] at hsecond

variable [DecidableEq μ]

/-- **Work begins**: both peers are asked for their positions. -/
lemma LeadsTo.begin (h : s.LeadsTo t) (hled : self.index ≤ (t.certificates self).length)
    (work : Option μ) : s.LeadsTo (t.begin app keys self work) := by
  have htransfer : ∀ {u : LiveCluster A μ} {offer : Option (Envelope μ)} (transfers),
      transfers = (fun r => if r = self.peers.1 then Transfer.locating u.packets.length
        else if r = self.peers.2 then .locating (u.packets.length + 1) else .ended false) →
      u.Sound → self.index ≤ (u.certificates self).length →
      (∀ e, offer = some e → e.leader = self ∧ e.nonce = (u.log self).length + 1) →
      u.LeadsTo ((u.broadcast self .position).setTask self
        (some (.transferring offer transfers))) := by
    rintro u offer transfers rfl hu hled hoffer
    refine ((LeadsTo.refl hu).broadcast .position fun _ => trivial).setTask
      (fun _ => hled) fun w hw => ?_
    obtain rfl := Option.some.inj hw
    refine ⟨hoffer, fun peer => ?_, fun _ _ peer => ?_⟩
    · dsimp only
      split_ifs with hfirst hsecond
      · exact hfirst ▸ (packets_broadcast u self .position).1
      · exact hsecond ▸ (packets_broadcast u self .position).2
      · trivial
    · dsimp only
      split_ifs
      · trivial
      · trivial
      · rfl
  unfold LiveCluster.begin
  cases work with
  | none => exact h.trans (htransfer _ rfl h.1 hled fun e he => by cases he)
  | some mutation =>
    have hends := Node.turns_propose app keys self (t.nodes self) mutation
    have hholds : (after (Node.propose app keys self true mutation) (t.nodes self)).Holds _ _ :=
      h.1.toRecorded.holds (.propose true mutation) self
    dsimp only
    cases hpropose : Node.propose app keys self true mutation (t.nodes self) with
    | ok e n =>
      obtain ⟨rfl, hturns⟩ := (ends_of_eq_ok hpropose).mp hends
      rw [after_of_eq_ok hpropose] at hholds
      have hnonce := congrArg (· + 1) (h.1.length self)
      obtain ⟨hsound, hgrows⟩ := h.1.keep hholds hturns fun e' he' => by
        obtain rfl := Option.some.inj he'
        exact ⟨hnonce.symm, .inl rfl⟩
      refine h.trans (LeadsTo.trans ⟨hsound, hgrows⟩ (htransfer _ rfl hsound
        (hled.trans (hgrows.certificates_length self)) fun e' he' => ?_))
      obtain rfl := Option.some.inj he'
      refine ⟨rfl, ?_⟩
      rw [log_become_self, hturns.log]
      exact hnonce.symm
    | error e n =>
      have hturns := (ends_of_eq_error hpropose).mp hends
      rw [after_of_eq_error hpropose] at hholds
      exact h.trans (h.1.keep_record hholds hturns).release

/-- **Work gets the lock.** -/
lemma LeadsTo.start (h : s.LeadsTo t) (hled : self.index ≤ (t.certificates self).length)
    (work : Option μ) : s.LeadsTo (t.start app keys self work) := by
  unfold LiveCluster.start
  cases (t.nodes self).replicationPending with
  | none => exact h.begin hled work
  | some record =>
    refine (h.broadcast (.abort record) fun _ => trivial).setTask (fun _ => hled)
      fun w hw => ?_
    obtain rfl := Option.some.inj hw
    trivial

/-- Dropping a record that is left. -/
lemma turns_abortUncommitted (app : App A μ ρ) (keys : Keyring μ) (self : Role) (n : Node A μ) :
    n.Turns (n.replicationNonces, n.replicationLog, none)
      ((Operation.abortUncommitted true).run app keys self n) := by
  refine after_iff.mpr ?_
  unfold Node.abortUncommitted
  rw [ends_bind, ends_get]
  split_ifs with hpending
  · exact Node.ends_modify_save.mpr ⟨fun _ => Node.turns_clear,
      fun hnot => absurd (Node.canSave_true _) hnot⟩
  · rw [Option.not_isSome_iff_eq_none] at hpending
    rw [← hpending]
    exact Node.turns_self

/-- Giving a mutation up. -/
lemma turns_abandon (app : App A μ ρ) (keys : Keyring μ) (self : Role) (n : Node A μ) :
    n.Turns (n.replicationNonces, n.replicationLog, none)
      ((Operation.abandon true).run app keys self n) := by
  refine after_iff.mpr ?_
  unfold Node.abandon
  rw [ends_bind, ends_modify, ends_bind, Node.ends_save]
  exact ⟨fun _ => ends_throw.mpr Node.turns_clear,
    fun hnot => absurd (Node.canSave_true _) hnot⟩

/-- **A transfer of the leader goes on.** -/
lemma Sound.resume (h : s.Sound) {result : Option (PeerResult μ)}
    (hstep : s.step app keys boot (.resume self peer result) = some t) : s.LeadsTo t := by
  unfold LiveCluster.step at hstep
  dsimp only at hstep
  cases htask : s.tasks self with
  | none => rw [htask] at hstep; cases hstep
  | some task =>
    rw [htask] at hstep
    have hled := h.led self (.inr (htask ▸ Option.some_ne_none task))
    have hworking := h.working self task htask
    cases task with
    | transferring offer transfers =>
      dsimp only at hstep
      split_ifs at hstep with hreceived
      obtain ⟨hoffer, hcarries, hlate⟩ := hworking
      have hcontinues := h.continues (fun e he => (hoffer e he).2) (hcarries peer) hreceived.2
      have hunanswered := fun (hsome : offer.isSome) hindex => unanswered_answer h hsome
        (s.log self) (s.nodes self).committedPosition (hlate hsome hindex peer) hreceived.2
      unfold log at hcontinues hunanswered
      generalize (transfers peer).answer offer s.packets.length (s.nodes self).replicationLog
        (s.nodes self).committedPosition result = answer at hstep hcontinues hunanswered
      obtain ⟨after, next⟩ := answer
      have hsame : ∀ r, (Function.update transfers peer after) r =
          if r = peer then after else transfers r := fun r => Function.update_apply _ _ _ _
      have hlater : offer.isSome → self.index < (s.certificates self).length →
          ∀ r, s.Unanswered (Function.update transfers peer after r) := by
        intro hsome hindex r
        rw [hsame]
        split_ifs
        · exact hunanswered hsome hindex
        · exact hlate hsome hindex r
      cases next with
      | some call =>
        obtain rfl := Option.some.inj hstep
        refine LeadsTo.setTask ⟨h.send (hcontinues.justified call rfl), grows_send ..⟩
          (fun _ => hled) fun w hw => ?_
        obtain rfl := Option.some.inj hw
        refine ⟨hoffer, fun r => ?_, hlater⟩
        rw [hsame]
        split_ifs with hr
        · exact hr ▸ hcontinues.waits call rfl
        · exact (hcarries r).mono (grows_send ..) fun _ => rfl
      | none =>
        obtain rfl := Option.some.inj hstep
        refine (LeadsTo.refl h).setTask (fun _ => hled) fun w hw => ?_
        obtain rfl := Option.some.inj hw
        refine ⟨hoffer, fun r => ?_, hlater⟩
        rw [hsame]
        split_ifs with hr
        · exact hr ▸ hcontinues.ends rfl
        · exact hcarries r
    | _ => cases hstep

/-- Roles with one place are one role. -/
lemma Role.eq_of_index {r r' : Role} (h : r.index = r'.index) : r = r' := by
  cases r <;> cases r' <;> first | rfl | cases h

omit [DecidableEq μ] in
/-- **The transfers have ended.**

**Proof sketch.** An envelope that a peer has taken is one of a leader that has not left its term,
so the leader signs what follows. -/
lemma Sound.conclude (h : s.Sound) {offer : Option (Envelope μ)} {transfers : Role → Transfer μ}
    (htask : s.tasks self = some (.transferring offer transfers)) {first second : Bool}
    (hfirst : transfers self.peers.1 = .ended first)
    (hsecond : transfers self.peers.2 = .ended second) :
    s.LeadsTo (s.conclude app self offer (first || second)) := by
  have hled := h.led self (.inr (htask ▸ Option.some_ne_none _))
  obtain ⟨hoffer, -, hlate⟩ := h.working self _ htask
  unfold LiveCluster.conclude
  cases offer with
  | none => exact (LeadsTo.refl h).release
  | some e =>
    obtain ⟨hleader, hnonce⟩ := hoffer e rfl
    dsimp only
    split_ifs with hacknowledged
    · have hterm : (s.certificates self).length = self.index := by
        refine le_antisymm (not_lt.mp fun hindex => ?_) hled
        have hnone := hlate rfl hindex
        have hnofirst := hnone self.peers.1
        have hnosecond := hnone self.peers.2
        rw [hfirst] at hnofirst
        rw [hsecond] at hnosecond
        rw [show first = false from hnofirst, show second = false from hnosecond] at hacknowledged
        cases hacknowledged
      have hself : (s.nodes self).leadership.leader = self :=
        Role.eq_of_index ((h.index_leader self).trans hterm)
      have hrelease : s.LeadsTo (s.setTask self none) := (LeadsTo.refl h).release
      have hfree : (s.setTask self none).tasks self = none := Function.update_self ..
      have hends := Node.turns_commitLocal app (s.nodes self) e
      have hholds : (after (Node.commitLocal app true e) (s.nodes self)).Holds _ _ :=
        after_iff.mpr (Node.preserves_commitLocal (s.nodes self) (h.elected.filed self))
      cases hcommit : Node.commitLocal app true e (s.nodes self) with
      | ok r n =>
        have hturns := (ends_of_eq_ok hcommit).mp hends
        rw [after_of_eq_ok hcommit] at hholds
        obtain ⟨hleads, hhas⟩ := hrelease.1.extend hfree hholds hturns hnonce
          (hleader.trans hself.symm) (.inl hleader)
        have hjustified : ∀ receiver, ((s.setTask self none).become self n).Justified
            ⟨self, receiver, .commit e⟩ := fun _ => by
          show ((s.setTask self none).become self n).Has e.leader e
          rw [hleader]
          exact hhas
        have hsent := (hrelease.trans hleads).broadcast _ hjustified
        refine hsent.setTask (fun _ => hled.trans (hsent.2.certificates_length self)) fun w hw => ?_
        obtain rfl := Option.some.inj hw
        exact ⟨hleader, hhas.mono List.prefix_rfl, packets_broadcast ..⟩
      | error er n =>
        have hturns := (ends_of_eq_error hcommit).mp hends
        rw [after_of_eq_error hcommit] at hholds
        exact hrelease.trans (hrelease.1.keep_record hholds hturns)
    · refine ((LeadsTo.refl h).broadcast (.abort e) fun _ => trivial).setTask
        (fun _ => hled) fun w hw => ?_
      obtain rfl := Option.some.inj hw
      exact ⟨hleader, hnonce⟩

end Work

end LiveCluster

end SplitChain
