import SplitChain.Model.ClusterLogs

set_option relaxedAutoImplicit false
set_option autoImplicit false

/-!
# The votes behind a certificate

A candidate forms a certificate from its own vote and from the one that its witness has sent it.
Both votes have been cast in earlier states of the run, and what held there of the two voters is
what the certificate says. Nothing keeps the candidate, though, from preparing an envelope between
its comparison with the witness and its vote.

## Main definitions

* `SplitChain.LiveCluster.Polls`, `SplitChain.LiveCluster.Votes` — a candidate asks for a vote, and
  a witness gives one.
* `SplitChain.LiveCluster.Forms` — a candidate forms a certificate.
* `SplitChain.LiveCluster.Plain` — nothing about votes and new certificates has happened.

## Main results

* `SplitChain.LiveCluster.Sound.step_votes` — the kinds of steps that have to do with votes.
* `SplitChain.LiveCluster.certificate_voted` — the voters of a certificate.
-/

namespace SplitChain

open Raise Proc

variable {A μ ρ : Type}

namespace LiveCluster

variable {app : App A μ ρ} {keys : Keyring μ} {boot : Role → A} {s t u : LiveCluster A μ}
  {self r : Role} {vote signed : FailureVote} {ledgerDigest : String}
  {certificate : LeadershipCertificate}

/-! ## Steps that have to do with votes -/

/-- A candidate asks for a vote: it has cast its own, and sends the digest of its ledger along. -/
structure Polls (app : App A μ ρ) (keys : Keyring μ) (vote : FailureVote) (ledgerDigest : String)
    (role : Role) (s : LiveCluster A μ) : Prop where
  vote : ∃ tick, vote = (s.nodes role).candidateVote keys role tick
  ledgerDigest : app.digest (s.nodes role).app = ledgerDigest

/-- A witness gives its vote. -/
def Votes (app : App A μ ρ) (keys : Keyring μ) (vote : FailureVote) (ledgerDigest : String)
    (signed : FailureVote) (r : Role) (s : LiveCluster A μ) : Prop :=
  ∃ now, (s.nodes r).receiveTimeoutVote app keys r now vote ledgerDigest = .ok signed

/-- A candidate forms a certificate from the vote that it has waited for. -/
def Forms (keys : Keyring μ) (vote signed : FailureVote) (certificate : LeadershipCertificate)
    (self : Role) (s : LiveCluster A μ) : Prop :=
  (∃ c k, s.candidacies self = some c ∧ c.stage = .voting vote k ∧ (k, .vote signed) ∈ s.results) ∧
    (s.nodes self).leadership.certify keys.failover vote signed = .ok (some certificate)

/-- A certificate that has been adopted, or sent. -/
def Known (s : LiveCluster A μ) (certificate : LeadershipCertificate) : Prop :=
  (∃ r, certificate ∈ s.certificates r) ∨ ∃ p ∈ s.packets, p.call = .certificate certificate

/-- A call that asks for no vote, and shows no new certificate. -/
def Usual (s : LiveCluster A μ) (call : PeerCall μ) : Prop :=
  (∀ vote digest, call ≠ .timeoutVote vote digest) ∧
    ∀ certificate, call = .certificate certificate → s.Known certificate

/-- Nothing about votes and new certificates has happened. -/
structure Plain (s t : LiveCluster A μ) : Prop where
  packets : ∀ p ∈ t.packets, p ∈ s.packets ∨ s.Usual p.call
  results : ∀ x ∈ t.results, x ∈ s.results ∨ ∀ signed, x.2 ≠ .vote signed
  candidacies : ∀ r c, t.candidacies r = some c →
    s.candidacies r = some c ∨ ∀ vote k, c.stage ≠ .voting vote k
  certificates : ∀ r, ∀ certificate ∈ t.certificates r, s.Known certificate

lemma Plain.known (h : s.Plain t) (hknown : t.Known certificate) : s.Known certificate := by
  rcases hknown with ⟨r, hr⟩ | ⟨p, hp, hcall⟩
  · exact h.certificates r _ hr
  · rcases h.packets p hp with hold | husual
    · exact .inr ⟨p, hold, hcall⟩
    · exact husual.2 _ hcall

lemma Plain.trans (h : s.Plain t) (h' : t.Plain u) : s.Plain u where
  packets p hp := (h'.packets p hp).elim (h.packets p) fun husual =>
    .inr ⟨husual.1, fun c hc => h.known (husual.2 c hc)⟩
  results x hx := (h'.results x hx).elim (h.results x) .inr
  candidacies r c hc := (h'.candidacies r c hc).elim (h.candidacies r c) .inr
  certificates r c hc := h.known (h'.certificates r c hc)

/-- Neither a message nor a candidate has changed. -/
lemma plain_of_eq (hnodes : t.nodes = s.nodes) (hpackets : t.packets = s.packets)
    (hresults : t.results = s.results) (hcandidacies : t.candidacies = s.candidacies) :
    s.Plain t where
  packets _ hp := .inl (hpackets ▸ hp)
  results _ hx := .inl (hresults ▸ hx)
  candidacies _ _ hc := .inl (hcandidacies ▸ hc)
  certificates r c hc := .inl ⟨r, by unfold LiveCluster.certificates at hc ⊢; rwa [← hnodes]⟩

/-- A node changes, and adopts no certificate but a known one. -/
lemma plain_become {n : Node A μ} (h : ∀ c ∈ n.leadership.certificates, s.Known c) :
    s.Plain (s.become self n) where
  packets _ hp := .inl hp
  results _ hx := .inl hx
  candidacies _ _ hc := .inl hc
  certificates r c hc := by
    by_cases hr : r = self
    · subst hr
      rw [certificates_become_self] at hc
      exact h c hc
    · rw [certificates_become_of_ne hr] at hc
      exact .inl ⟨r, hc⟩

/-- A node keeps its terms. -/
lemma plain_of_holds {n : Node A μ}
    (h : n.Holds (s.nodes self).hasStore (s.nodes self).leadership.history) :
    s.Plain (s.become self n) := by
  obtain ⟨-, -, hcertificates⟩ := LeadershipState.history_eq_iff.mp h.memory
  refine plain_become fun c hc => .inl ⟨self, ?_⟩
  rw [hcertificates] at hc
  exact hc

lemma plain_setTask (s : LiveCluster A μ) (self : Role) (task : Option (Task μ)) :
    s.Plain (s.setTask self task) :=
  plain_of_eq rfl rfl rfl rfl

lemma plain_setWaiting (s : LiveCluster A μ) (self : Role) (work : List (Option μ)) :
    s.Plain (s.setWaiting self work) :=
  plain_of_eq rfl rfl rfl rfl

/-- A usual call is sent. -/
lemma plain_send {call : PeerCall μ} (hcall : s.Usual call) (self receiver : Role) :
    s.Plain (s.send self receiver call) where
  packets p hp := (List.mem_append.mp hp).imp_right fun hnew => by
    rw [List.mem_singleton.mp hnew]
    exact hcall
  results _ hx := .inl hx
  candidacies _ _ hc := .inl hc
  certificates r _ hc := .inl ⟨r, hc⟩

lemma plain_broadcast {call : PeerCall μ} (hcall : s.Usual call) (self : Role) :
    s.Plain (s.broadcast self call) := by
  refine (plain_send hcall self _).trans (plain_send ⟨hcall.1, fun c hc => ?_⟩ self _)
  rcases hcall.2 c hc with ⟨r, hr⟩ | ⟨p, hp, hshows⟩
  · exact .inl ⟨r, hr⟩
  · exact .inr ⟨p, List.mem_append_left _ hp, hshows⟩

/-- A result that is no vote is sent. -/
lemma plain_reply {result : PeerResult μ} (hresult : ∀ signed, result ≠ .vote signed)
    (s : LiveCluster A μ) (k : ℕ) : s.Plain (s.reply k result) where
  packets _ hp := .inl hp
  results x hx := (List.mem_append.mp hx).imp_right fun hnew => by
    rw [List.mem_singleton.mp hnew]
    exact hresult
  candidacies _ _ hc := .inl hc
  certificates r _ hc := .inl ⟨r, hc⟩

/-- A candidate that does not wait for a vote. -/
lemma plain_setCandidacy {candidacy : Option (Candidacy μ)}
    (hstage : ∀ c, candidacy = some c → ∀ vote k, c.stage ≠ .voting vote k)
    (s : LiveCluster A μ) (self : Role) : s.Plain (s.setCandidacy self candidacy) where
  packets _ hp := .inl hp
  results _ hx := .inl hx
  candidacies r c hc := by
    have hupdate : Function.update s.candidacies self candidacy r = some c := hc
    rw [Function.update_apply] at hupdate
    split_ifs at hupdate
    · exact .inr (hstage c hupdate)
    · exact .inl hupdate
  certificates r _ hc := .inl ⟨r, hc⟩

lemma plain_stop (s : LiveCluster A μ) (self : Role) : s.Plain (s.stop self) :=
  plain_setCandidacy (fun _ hc => by cases hc) s self

lemma plain_reach {c : Candidacy μ} {stage : Stage μ} (hstage : ∀ vote k, stage ≠ .voting vote k)
    (s : LiveCluster A μ) (self : Role) : s.Plain (s.reach self c stage) := by
  refine plain_setCandidacy (fun c' hc' => ?_) s self
  obtain rfl := Option.some.inj hc'
  exact hstage

lemma plain_ask {c : Candidacy μ} {call : PeerCall μ} {stage : ℕ → Stage μ} (hcall : s.Usual call)
    (hstage : ∀ vote k k', stage k ≠ .voting vote k') (self : Role) :
    s.Plain (s.ask self c call stage) :=
  (plain_send hcall ..).trans (plain_reach (fun vote k => hstage vote _ k) ..)

/-! ## Calls -/

/-- Most calls have nothing to do with votes and certificates. -/
def isUsual : PeerCall μ → Bool
  | .timeoutVote _ _ | .certificate _ => false
  | _ => true

lemma usual_of_isUsual {call : PeerCall μ} (h : isUsual call = true) : s.Usual call := by
  refine ⟨fun vote digest hcall => ?_, fun certificate hcall => ?_⟩
  · subst hcall
    cases h
  · subst hcall
    cases h

lemma usual_certificate (h : s.Known certificate) : s.Usual (.certificate certificate) := by
  refine ⟨(fun _ _ heq => by cases heq), fun c hc => ?_⟩
  obtain rfl := PeerCall.certificate.inj hc
  exact h

/-- A transfer makes usual calls. -/
lemma usual_answer {offer : Option (Envelope μ)} {fresh : ℕ} {log : List (Envelope μ)}
    {position : ℤ} {result : Option (PeerResult μ)} {transfer : Transfer μ} {call : PeerCall μ}
    (h : (transfer.answer offer fresh log position result).2 = some call) : s.Usual call := by
  have hnext : ∀ entries, (Transfer.next offer fresh entries).2 = some call → s.Usual call := by
    rintro (_ | ⟨e, rest⟩) hcall
    · unfold Transfer.next at hcall
      cases offer with
      | none => cases hcall
      | some e => exact Option.some.inj hcall ▸ usual_of_isUsual rfl
    · exact Option.some.inj hcall ▸ usual_of_isUsual rfl
  unfold Transfer.answer at h
  split at h
  · split at h
    · split_ifs at h
      exact hnext _ h
    · cases h
  · exact Option.some.inj h ▸ usual_of_isUsual rfl
  · split_ifs at h
    exact hnext _ h
  · cases h
  · cases h

/-! ## The work of a leader -/

section Work

variable [DecidableEq μ]

/-- Work begins. -/
lemma plain_begin (h : s.Recorded) (self : Role) (work : Option μ) :
    s.Plain (s.begin app keys self work) := by
  unfold LiveCluster.begin
  cases work with
  | none => exact (plain_broadcast (usual_of_isUsual rfl) _).trans (plain_setTask ..)
  | some mutation =>
    have hholds : (after (Node.propose app keys self true mutation) (s.nodes self)).Holds _ _ :=
      h.holds (.propose true mutation) self
    dsimp only
    cases hpropose : Node.propose app keys self true mutation (s.nodes self) with
    | ok e n =>
      rw [after_of_eq_ok hpropose] at hholds
      exact ((plain_of_holds hholds).trans (plain_broadcast (usual_of_isUsual rfl) _)).trans
        (plain_setTask ..)
    | error e n =>
      rw [after_of_eq_error hpropose] at hholds
      exact (plain_of_holds hholds).trans (plain_setTask ..)

/-- Work gets the lock. -/
lemma plain_start (h : s.Recorded) (self : Role) (work : Option μ) :
    s.Plain (s.start app keys self work) := by
  unfold LiveCluster.start
  cases (s.nodes self).replicationPending with
  | none => exact plain_begin h ..
  | some record => exact (plain_broadcast (usual_of_isUsual rfl) _).trans (plain_setTask ..)

omit [DecidableEq μ] in
/-- The transfers have ended. -/
lemma plain_conclude (h : s.Recorded) (self : Role) (offer : Option (Envelope μ))
    (acknowledged : Bool) : s.Plain (s.conclude app self offer acknowledged) := by
  unfold LiveCluster.conclude
  cases offer with
  | none => exact plain_setTask ..
  | some e =>
    have hholds : (after (Node.commitLocal app true e) (s.nodes self)).Holds _ _ :=
      after_iff.mpr (Node.preserves_commitLocal (s.nodes self) (h.elected.filed self))
    have hset := plain_setTask s self none
    dsimp only
    split_ifs
    · cases hcommit : Node.commitLocal app true e (s.nodes self) with
      | ok r n =>
        rw [after_of_eq_ok hcommit] at hholds
        exact ((hset.trans (plain_of_holds hholds)).trans
          (plain_broadcast (usual_of_isUsual rfl) _)).trans (plain_setTask ..)
      | error er n =>
        rw [after_of_eq_error hcommit] at hholds
        exact hset.trans (plain_of_holds hholds)
    · exact (plain_broadcast (usual_of_isUsual rfl) _).trans (plain_setTask ..)

end Work

/-! ## Candidates -/

variable [DecidableEq μ]

/-- A candidate does something that has nothing to do with votes and new certificates. -/
def Aside (s : LiveCluster A μ) : Intent μ → Prop
  | .ask call next => s.Usual call ∧ ∀ vote k k', next k ≠ .voting vote k'
  | .reach stage => ∀ vote k, stage ≠ .voting vote k
  | .adopt certificate => s.Known certificate
  | _ => True

omit [DecidableEq μ] in
lemma aside_pull (n : Node A μ) (remote : ℤ) (turns : ℕ) : s.Aside (n.pull remote turns) := by
  cases turns with
  | zero => trivial
  | succ turns => exact ⟨usual_of_isUsual rfl, fun _ _ _ h => by cases h⟩

omit [DecidableEq μ] in
lemma aside_push (n : Node A μ) (remote : ℤ) : s.Aside (n.push remote) := by
  unfold Node.push
  split_ifs
  · trivial
  · exact ⟨usual_of_isUsual rfl, fun _ _ _ h => by cases h⟩
  · exact ⟨usual_of_isUsual rfl, fun _ _ _ h => by cases h⟩

/-- A node that is to record a known certificate. -/
lemma plain_recordCertificate (h : s.Recorded) (self : Role) (hknown : s.Known certificate) :
    s.Plain (s.become self (after (Node.recordCertificate keys true certificate)
      (s.nodes self))) := by
  refine plain_become fun c hc => ?_
  rcases after_recordCertificate keys (h.ranked self) certificate with hsame | ⟨-, -, hadopted, -⟩
  · rw [hsame] at hc
    exact .inl ⟨self, hc⟩
  · rw [hadopted] at hc
    rcases List.mem_append.mp hc with hold | hnew
    · exact .inl ⟨self, hold⟩
    · exact List.mem_singleton.mp hnew ▸ hknown

/-- The result of the call that a candidate has waited for. -/
lemma Sound.answered_of_received (h : s.Sound) {k : ℕ} {p : Packet μ} {result : PeerResult μ}
    (hk : s.packets[k]? = some p) (hreceived : s.received (some k) (some result) = true) :
    s.Answered p result := by
  have hmem : (k, result) ∈ s.results := of_decide_eq_true hreceived
  obtain ⟨q, hq, hanswered⟩ := h.answered k result hmem
  rw [hk] at hq
  exact Option.some.inj hq ▸ hanswered

/-- **What a candidate does about votes**: it asks for one with its own vote and the digest of its
ledger, forms a certificate, or does something else. -/
lemma Sound.proceed_votes (h : s.Sound) {c : Candidacy μ} (hc : s.candidacies self = some c)
    {result : Option (PeerResult μ)} (hreceived : s.received c.stage.call? result = true)
    (app : App A μ ρ) (keys : Keyring μ) {intent : Intent μ}
    (hintent : (s.nodes self).proceed app keys self c.tick s.packets.length result c.stage =
      intent) :
    intent = (s.nodes self).poll app keys self c.tick ∨
      (∃ vote signed certificate, Forms keys vote signed certificate self s ∧
        intent = .ask (.certificate certificate) (.certifying certificate)) ∨
      s.Aside intent := by
  obtain ⟨tick, witness, stage⟩ := c
  obtain ⟨term, -, -, -, -, hstaged⟩ := h.standing self _ hc
  dsimp only at hreceived hintent hstaged
  subst hintent
  cases stage with
  | locating call =>
    refine .inr (.inr ?_)
    unfold Node.proceed
    dsimp only
    split
    · split_ifs
      · exact aside_pull _ _ _
      · trivial
      · exact aside_push _ _
    · trivial
  | pulling remote turns position call =>
    refine .inr (.inr ?_)
    unfold Node.proceed
    dsimp only
    split
    · split_ifs
      · trivial
      · exact aside_push _ _
      · trivial
      · trivial
      · exact fun _ _ h => by cases h
    · trivial
  | taking remote turns entries =>
    refine .inr (.inr ?_)
    cases entries with
    | nil => exact aside_pull (s.nodes self) _ _
    | cons entry entries =>
      unfold Node.proceed
      dsimp only
      split
      · split_ifs
        · exact fun _ _ h => by cases h
        · trivial
      · trivial
  | settling remote turns entry entries => exact .inr (.inr trivial)
  | pushing transfer =>
    refine .inr (.inr ?_)
    unfold Node.proceed
    dsimp only
    split
    · rename_i hcall
      exact ⟨usual_answer hcall, fun _ _ _ h => by cases h⟩
    · exact ⟨usual_of_isUsual rfl, fun _ _ _ h => by cases h⟩
    · trivial
  | confirming call =>
    refine .inr (.inr ?_)
    unfold Node.proceed
    dsimp only
    split
    · split_ifs
      · exact ⟨usual_of_isUsual rfl, fun _ _ _ h => by cases h⟩
      · trivial
    · trivial
  | inquiring call =>
    unfold Node.proceed
    dsimp only
    split
    · rename_i remote
      split_ifs
      · refine .inr (.inr ?_)
        split
        · -- the certificate is one that the witness has adopted
          rename_i certificate hrecover
          have hanswered : remote.certificates <+: s.certificates witness :=
            h.answered_of_received hstaged hreceived
          obtain ⟨-, -, hlast⟩ := LeadershipState.recover_getLast hrecover
          exact .inl ⟨witness, hanswered.subset (List.mem_of_getLast? hlast)⟩
        · trivial
      · exact .inl rfl
    · exact .inl rfl
  | voting vote call =>
    unfold Node.proceed
    dsimp only
    split
    · rename_i signed
      split
      · rename_i certificate hcertify
        exact .inr (.inl ⟨vote, signed, certificate, ⟨⟨_, call, hc, rfl,
          of_decide_eq_true hreceived⟩, hcertify⟩, rfl⟩)
      · exact .inr (.inr trivial)
    · exact .inr (.inr trivial)
  | certifying certificate call =>
    refine .inr (.inr ?_)
    unfold Node.proceed
    dsimp only
    split
    · exact .inr ⟨_, List.mem_of_getElem? hstaged.1, rfl⟩
    · trivial

/-- A candidate that does something else. -/
lemma Sound.plain_move (h : s.Sound) {c : Candidacy μ} {intent : Intent μ}
    (haside : s.Aside intent) (hmove : s.move app keys self c intent = some t) : s.Plain t := by
  have hchange : ∀ {α : Type} {x : EStateM PyError (Node A μ) α} {stage : Stage μ},
      (after x (s.nodes self)).Holds (s.nodes self).hasStore (s.nodes self).leadership.history →
      (∀ vote k, stage ≠ .voting vote k) → s.changeBy self c x stage = some t → s.Plain t := by
    intro α x stage hholds hstage hx
    unfold LiveCluster.changeBy at hx
    split_ifs at hx
    · exact Option.some.inj hx ▸ (plain_of_holds hholds).trans (plain_reach hstage ..)
    · exact Option.some.inj hx ▸ (plain_of_holds hholds).trans (plain_stop ..)
  cases intent with
  | stop => exact Option.some.inj hmove ▸ plain_stop s self
  | ask call next => exact Option.some.inj hmove ▸ plain_ask haside.1 haside.2 self
  | reach stage => exact Option.some.inj hmove ▸ plain_reach haside s self
  | prepare remote turns entry entries =>
    exact hchange (h.toRecorded.holds (.prepare true entry) self)
      (fun _ _ heq => by cases heq) hmove
  | commit remote turns entry entries =>
    exact hchange (h.toRecorded.holds (.commit true entry) self) (fun _ _ heq => by cases heq) hmove
  | adopt certificate =>
    unfold LiveCluster.move LiveCluster.adopt at hmove
    dsimp only at hmove
    split_ifs at hmove
    exact Option.some.inj hmove ▸
      (plain_recordCertificate h.toRecorded self haside).trans (plain_stop ..)

/-! ## Steps -/

/-- A call is served: a witness gives its vote, or nothing about votes happens. -/
lemma Sound.serve_votes (h : s.Sound) {k : ℕ} {now : ℤ} {p : Packet μ}
    (hk : s.packets[k]? = some p) (hserve : s.serve app keys k p.receiver now p.call = some t) :
    s.Plain t ∨ ∃ vote ledgerDigest signed, p.call = .timeoutVote vote ledgerDigest ∧
      Votes app keys vote ledgerDigest signed p.receiver s ∧ t = s.reply k (.vote signed) := by
  obtain ⟨sender, self, call⟩ := p
  dsimp only at hserve ⊢
  have hchange : ∀ {α : Type} {x : EStateM PyError (Node A μ) α} {result : PeerResult μ},
      s.Plain (s.become self (after x (s.nodes self))) → (∀ signed, result ≠ .vote signed) →
      s.serveBy k self x result = some t → s.Plain t := by
    intro α x result hplain hresult hx
    unfold LiveCluster.serveBy at hx
    split_ifs at hx
    · exact Option.some.inj hx ▸ hplain.trans (plain_reply hresult ..)
    · exact Option.some.inj hx ▸ hplain
  cases call with
  | prepare e =>
    exact .inl (hchange (plain_of_holds (h.toRecorded.holds (.prepare true e) self))
      (fun _ heq => by cases heq) hserve)
  | commit e =>
    exact .inl (hchange (plain_of_holds (h.toRecorded.holds (.commit true e) self))
      (fun _ heq => by cases heq) hserve)
  | abort e =>
    exact .inl (hchange (plain_of_holds (h.toRecorded.holds (.abort true e) self))
      (fun _ heq => by cases heq) hserve)
  | certificate c =>
    exact .inl (hchange (plain_recordCertificate h.toRecorded self
      (.inr ⟨_, List.mem_of_getElem? hk, rfl⟩)) (fun _ heq => by cases heq) hserve)
  | position =>
    unfold LiveCluster.serve LiveCluster.query at hserve
    dsimp only at hserve
    split_ifs at hserve
    · cases hserve
    · exact .inl (Option.some.inj hserve ▸ plain_reply (fun _ heq => by cases heq) ..)
  | history start =>
    unfold LiveCluster.serve LiveCluster.query at hserve
    dsimp only at hserve
    split_ifs at hserve
    obtain ⟨result, hresult, rfl⟩ := Option.map_eq_some_iff.mp hserve
    obtain ⟨history, -, rfl⟩ := Option.map_eq_some_iff.mp hresult
    exact .inl (plain_reply (fun _ heq => by cases heq) ..)
  | leadership =>
    unfold LiveCluster.serve LiveCluster.query at hserve
    dsimp only at hserve
    split_ifs at hserve
    exact .inl (Option.some.inj hserve ▸ plain_reply (fun _ heq => by cases heq) ..)
  | timeoutVote vote ledgerDigest =>
    unfold LiveCluster.serve LiveCluster.query at hserve
    dsimp only at hserve
    split_ifs at hserve
    obtain ⟨result, hresult, rfl⟩ := Option.map_eq_some_iff.mp hserve
    obtain ⟨signed, hsigned, rfl⟩ := Option.map_eq_some_iff.mp hresult
    exact .inr ⟨vote, ledgerDigest, signed, rfl, ⟨now, toOption_eq_some.mp hsigned⟩, rfl⟩

/-- **Votes.** A step has nothing to do with votes and new certificates, or a witness gives its vote
for a call, or a candidate asks for one, or it forms a certificate. -/
theorem Sound.step_votes (h : s.Sound) {event : ClusterEvent A μ}
    (hstep : s.step app keys boot event = some t) :
    s.Plain t ∨
    (∃ k p vote ledgerDigest signed, s.packets[k]? = some p ∧
      p.call = .timeoutVote vote ledgerDigest ∧
      Votes app keys vote ledgerDigest signed p.receiver s ∧ t = s.reply k (.vote signed)) ∨
    (∃ self c vote ledgerDigest, s.candidacies self = some c ∧
      Polls app keys vote ledgerDigest self s ∧
      t = s.ask self c (.timeoutVote vote ledgerDigest) (.voting vote)) ∨
    ∃ self c vote signed certificate, s.candidacies self = some c ∧
      Forms keys vote signed certificate self s ∧
      t = s.ask self c (.certificate certificate) (.certifying certificate) := by
  cases event with
  | handle k now =>
    simp only [LiveCluster.step, Option.bind_eq_bind, Option.bind_eq_some_iff] at hstep
    obtain ⟨p, hp, hserve⟩ := hstep
    refine (h.serve_votes hp hserve).imp_right ?_
    rintro ⟨vote, ledgerDigest, signed, hcall, hvotes, rfl⟩
    exact .inl ⟨k, p, vote, ledgerDigest, signed, hp, hcall, hvotes, rfl⟩
  | perform self background =>
    unfold LiveCluster.step at hstep
    dsimp only at hstep
    split_ifs at hstep
    exact .inl (Option.some.inj hstep ▸
      plain_of_holds (h.toRecorded.holds background.operation self))
  | tell self =>
    simp only [LiveCluster.step, Option.bind_eq_bind, Option.bind_eq_some_iff,
      Option.guard_eq_some', exists_const, Option.pure_def, Option.some.injEq] at hstep
    obtain ⟨-, certificate, hlast, rfl⟩ := hstep
    exact .inl (plain_broadcast (usual_certificate (.inl ⟨self, List.mem_of_getLast? hlast⟩)) _)
  | submit self work =>
    unfold LiveCluster.step at hstep
    dsimp only at hstep
    split_ifs at hstep
    exact .inl (Option.some.inj hstep ▸ plain_setWaiting ..)
  | start self k =>
    simp only [LiveCluster.step, Option.bind_eq_bind, Option.bind_eq_some_iff,
      Option.guard_eq_some', exists_const, Option.pure_def, Option.some.injEq] at hstep
    obtain ⟨-, work, -, rfl⟩ := hstep
    have hsame : (s.setWaiting self ((s.waiting self).eraseIdx k)).Recorded :=
      h.toRecorded.congr rfl
    exact .inl ((plain_setWaiting ..).trans (plain_start hsame ..))
  | cleared self =>
    unfold LiveCluster.step at hstep
    dsimp only at hstep
    split at hstep
    · have hcleared := h.drop_pending (h.toRecorded.holds (.abortUncommitted true) self)
        (turns_abortUncommitted app keys self _)
      exact .inl (Option.some.inj hstep ▸
        (plain_of_holds (h.toRecorded.holds (.abortUncommitted true) self)).trans
          (plain_begin hcleared.1.toRecorded ..))
    · cases hstep
  | resume self peer result =>
    unfold LiveCluster.step at hstep
    dsimp only at hstep
    split at hstep
    · split_ifs at hstep
      split at hstep
      · rename_i hcall
        exact .inl (Option.some.inj hstep ▸
          (plain_send (usual_answer hcall) ..).trans (plain_setTask ..))
      · exact .inl (Option.some.inj hstep ▸ plain_setTask ..)
    · cases hstep
  | decide self =>
    unfold LiveCluster.step at hstep
    dsimp only at hstep
    split at hstep
    · split at hstep
      · exact .inl (Option.some.inj hstep ▸ plain_conclude h.toRecorded ..)
      · cases hstep
    · cases hstep
  | abandoned self =>
    unfold LiveCluster.step at hstep
    dsimp only at hstep
    split at hstep
    · exact .inl (Option.some.inj hstep ▸
        (plain_of_holds (h.toRecorded.holds (.abandon true) self)).trans (plain_setTask ..))
    · cases hstep
  | finish self first second =>
    unfold LiveCluster.step at hstep
    dsimp only at hstep
    split at hstep
    · split_ifs at hstep
      exact .inl (Option.some.inj hstep ▸ plain_setTask ..)
    · cases hstep
  | stand self tick =>
    simp only [LiveCluster.step, LiveCluster.stand, Option.bind_eq_bind, Option.bind_eq_some_iff,
      Option.guard_eq_some', exists_const, Option.pure_def, Option.some.injEq] at hstep
    obtain ⟨-, -, -, witness, -, rfl⟩ := hstep
    exact .inl (plain_ask (usual_of_isUsual rfl) (fun _ _ _ heq => by cases heq) _)
  | proceed self result =>
    simp only [LiveCluster.step, Option.bind_eq_bind, Option.bind_eq_some_iff,
      Option.guard_eq_some', exists_const] at hstep
    obtain ⟨c, hc, hreceived, hmove⟩ := hstep
    rcases h.proceed_votes hc hreceived app keys rfl with hpoll |
      ⟨vote, signed, certificate, hforms, hcertificate⟩ | haside
    · rw [hpoll] at hmove
      obtain rfl := Option.some.inj hmove
      exact .inr (.inr (.inl ⟨self, c, _, _, hc, ⟨⟨c.tick, rfl⟩, rfl⟩, rfl⟩))
    · rw [hcertificate] at hmove
      obtain rfl := Option.some.inj hmove
      exact .inr (.inr (.inr ⟨self, c, vote, signed, certificate, hc, hforms, rfl⟩))
    · exact .inl (h.plain_move haside hmove)
  | crash self =>
    simp only [LiveCluster.step, Option.bind_eq_bind, Option.bind_eq_some_iff, Option.pure_def,
      Option.some.injEq] at hstep
    obtain ⟨n, hn, rfl⟩ := hstep
    have hholds := Node.Holds.reboot (h.elected.filed self) hn
    exact .inl ((((plain_of_holds hholds).trans (plain_setWaiting ..)).trans
      (plain_setTask ..)).trans (plain_setCandidacy (fun _ hc => by cases hc) ..))

/-! ## Histories -/

section Histories

variable {hasStore : Role → Bool} {es : List (ClusterEvent A μ)}

/-- **Where votes and certificates come from**: every vote has been cast, and every certificate
formed, in a state that the run has passed. -/
structure Traced (app : App A μ ρ) (keys : Keyring μ) (boot : Role → A) (hasStore : Role → Bool)
    (es : List (ClusterEvent A μ)) (s : LiveCluster A μ) : Prop where
  polled : ∀ p ∈ s.packets, ∀ vote ledgerDigest, p.call = .timeoutVote vote ledgerDigest →
    Transition.Passes (step app keys boot) (Polls app keys vote ledgerDigest p.sender)
      (initial boot hasStore) es
  voted : ∀ k signed, (k, .vote signed) ∈ s.results → ∃ p vote ledgerDigest,
    s.packets[k]? = some p ∧ p.call = .timeoutVote vote ledgerDigest ∧
    Transition.Passes (step app keys boot) (Votes app keys vote ledgerDigest signed p.receiver)
      (initial boot hasStore) es
  voting : ∀ r c vote k, s.candidacies r = some c → c.stage = .voting vote k →
    ∃ ledgerDigest, s.packets[k]? = some ⟨r, c.witness, .timeoutVote vote ledgerDigest⟩
  formed : ∀ certificate, s.Known certificate → ∃ self vote signed,
    Transition.Passes (step app keys boot) (Forms keys vote signed certificate self)
      (initial boot hasStore) es

/-- A step that has nothing to do with votes keeps their history. -/
lemma Traced.plain (h : Traced app keys boot hasStore es s) (hplain : s.Plain t)
    (hgrows : s.Grows t) (event : ClusterEvent A μ) :
    Traced app keys boot hasStore (es ++ [event]) t where
  polled p hp vote ledgerDigest hcall := by
    rcases hplain.packets p hp with hold | husual
    · exact (h.polled p hold vote ledgerDigest hcall).append _
    · exact absurd hcall (husual.1 vote ledgerDigest)
  voted k signed hmem := by
    rcases hplain.results _ hmem with hold | hnone
    · obtain ⟨p, vote, ledgerDigest, hp, hcall, hpasses⟩ := h.voted k signed hold
      exact ⟨p, vote, ledgerDigest, getElem?_of_prefix hgrows.packets hp, hcall, hpasses.append _⟩
    · exact absurd rfl (hnone signed)
  voting r c vote k hc hstage := by
    rcases hplain.candidacies r c hc with hold | hnone
    · obtain ⟨ledgerDigest, hp⟩ := h.voting r c vote k hold hstage
      exact ⟨ledgerDigest, getElem?_of_prefix hgrows.packets hp⟩
    · exact absurd hstage (hnone vote k)
  formed certificate hknown := by
    obtain ⟨self, vote, signed, hpasses⟩ := h.formed certificate (hplain.known hknown)
    exact ⟨self, vote, signed, hpasses.append _⟩

/-- A candidate calls its witness. -/
lemma Traced.ask (h : Traced app keys boot hasStore es s) {c : Candidacy μ} {call : PeerCall μ}
    {stage : ℕ → Stage μ}
    (hpolled : ∀ vote ledgerDigest, call = .timeoutVote vote ledgerDigest →
      Transition.Passes (step app keys boot) (Polls app keys vote ledgerDigest self)
        (initial boot hasStore) es)
    (hvoting : ∀ vote k, stage s.packets.length = .voting vote k →
      k = s.packets.length ∧ ∃ ledgerDigest, call = .timeoutVote vote ledgerDigest)
    (hformed : ∀ certificate, call = .certificate certificate → ∃ self vote signed,
      Transition.Passes (step app keys boot) (Forms keys vote signed certificate self)
        (initial boot hasStore) es) :
    Traced app keys boot hasStore es (s.ask self c call stage) where
  polled p hp vote ledgerDigest hcall := by
    rcases List.mem_append.mp hp with hold | hnew
    · exact h.polled p hold vote ledgerDigest hcall
    · obtain rfl := List.mem_singleton.mp hnew
      exact hpolled vote ledgerDigest hcall
  voted k signed hmem := by
    obtain ⟨p, vote, ledgerDigest, hp, hrest⟩ := h.voted k signed hmem
    exact ⟨p, vote, ledgerDigest, (grows_send ..).packet hp, hrest⟩
  voting r d vote k hd hstage := by
    have hupdate : Function.update s.candidacies self
        (some { c with stage := stage s.packets.length }) r = some d := hd
    rw [Function.update_apply] at hupdate
    split_ifs at hupdate with hr
    · obtain rfl := Option.some.inj hupdate
      obtain ⟨rfl, ledgerDigest, rfl⟩ := hvoting vote k hstage
      exact ⟨ledgerDigest, hr ▸ packets_send ..⟩
    · obtain ⟨ledgerDigest, hp⟩ := h.voting r d vote k hupdate hstage
      exact ⟨ledgerDigest, (grows_send ..).packet hp⟩
  formed certificate hknown := by
    rcases hknown with ⟨r, hr⟩ | ⟨p, hp, hcall⟩
    · exact h.formed certificate (.inl ⟨r, hr⟩)
    · rcases List.mem_append.mp hp with hold | hnew
      · exact h.formed certificate (.inr ⟨p, hold, hcall⟩)
      · obtain rfl := List.mem_singleton.mp hnew
        exact hformed certificate hcall

/-- **Every step** keeps the history of votes and certificates. -/
lemma Traced.step (h : Traced app keys boot hasStore es s) (hs : s.Sound)
    (hrun : Transition.run (LiveCluster.step app keys boot) (initial boot hasStore) es = some s)
    {event : ClusterEvent A μ} (hstep : s.step app keys boot event = some t) :
    Traced app keys boot hasStore (es ++ [event]) t := by
  have hkept := h.plain (plain_of_eq rfl rfl rfl rfl) (Grows.refl s) event
  have hnow : ∀ {P : LiveCluster A μ → Prop}, P s → Transition.Passes
      (LiveCluster.step app keys boot) P (initial boot hasStore) (es ++ [event]) :=
    fun hP => (Transition.passes_of_run hrun hP).append _
  rcases hs.step_votes hstep with hplain |
    ⟨k, p, vote, ledgerDigest, signed, hp, hcall, hvotes, rfl⟩ |
    ⟨self, c, vote, ledgerDigest, hc, hpolls, rfl⟩ |
    ⟨self, c, vote, signed, certificate, hc, hforms, rfl⟩
  · exact h.plain hplain (hs.step hstep).2 event
  · -- a witness has given its vote
    refine ⟨hkept.polled, fun k' signed' hmem => ?_, hkept.voting, hkept.formed⟩
    rcases List.mem_append.mp hmem with hold | hnew
    · exact hkept.voted k' signed' hold
    · obtain ⟨rfl, hsigned⟩ := Prod.mk.inj (List.mem_singleton.mp hnew)
      obtain rfl := PeerResult.vote.inj hsigned
      exact ⟨p, vote, ledgerDigest, hp, hcall, hnow hvotes⟩
  · -- a candidate has asked for a vote
    refine hkept.ask (fun vote' digest' heq => ?_) (fun vote' k heq => ?_) fun _ heq => by cases heq
    · obtain ⟨rfl, rfl⟩ := PeerCall.timeoutVote.inj heq
      exact hnow hpolls
    · obtain ⟨rfl, rfl⟩ := Stage.voting.inj heq
      exact ⟨rfl, ledgerDigest, rfl⟩
  · -- a candidate has formed a certificate
    refine hkept.ask (fun _ _ heq => by cases heq) (fun _ _ heq => by cases heq) fun d heq => ?_
    obtain rfl := PeerCall.certificate.inj heq
    exact ⟨self, vote, signed, hnow hforms⟩

/-- Every run has traced its votes and certificates. -/
lemma traced_of_run
    (h : Transition.run (LiveCluster.step app keys boot) (initial boot hasStore) es = some s) :
    Traced app keys boot hasStore es s := by
  refine Transition.run_induction_of_history (J := fun es (s : LiveCluster A μ) =>
    Traced app keys boot hasStore es s) ?_ (fun es t e u hrun htraced hstep => ?_) h
  · refine ⟨fun p hp => ?_, fun k signed hmem => ?_, fun r c vote k hc => ?_,
      fun certificate hknown => ?_⟩
    · cases hp
    · cases hmem
    · cases hc
    · rcases hknown with ⟨r, hr⟩ | ⟨p, hp, -⟩
      · cases hr
      · cases hp
  · exact htraced.step (sound_of_run hrun) hrun hstep

/-! ## The voters -/

/-- **What a certificate says of a voter**: it was in the term before, under the leader that the new
one succeeds, and held the whole log up to the certified position, with the given digest of its
ledger. -/
structure Supports (app : App A μ ρ) (certificate : LeadershipCertificate) (ledgerDigest : String)
    (r : Role) (s : LiveCluster A μ) : Prop where
  term : certificate.term = (s.nodes r).leadership.term + 1
  successor : (s.nodes r).leadership.leader.successor? = some certificate.leader
  complete : ((s.log r).length : ℤ) = certificate.committedNonce
  ledgerDigest : app.digest (s.nodes r).app = ledgerDigest

omit [DecidableEq μ] in
/-- What a candidate writes into its vote. -/
lemma Polls.fields (h : s.Polls app keys vote ledgerDigest self) :
    vote.voter = self ∧ vote.candidate = self ∧
      vote.term = (s.nodes self).leadership.term + 1 ∧
      vote.accused = (s.nodes self).leadership.leader ∧
      vote.committedNonce = (s.nodes self).committedPosition := by
  obtain ⟨⟨tick, rfl⟩, -⟩ := h
  exact ⟨rfl, rfl, rfl, rfl, rfl⟩

omit [DecidableEq μ] in
/-- **What a witness has checked** before it gives its vote. -/
lemma receiveTimeoutVote_eq_ok {n : Node A μ} {now : ℤ}
    (h : n.receiveTimeoutVote app keys self now vote ledgerDigest = .ok signed) :
    vote.term = n.leadership.term + 1 ∧ n.leadership.leader.successor? = some vote.voter ∧
      n.leadership.timeoutTicks ≤ vote.observedTick - n.leadership.lastHeartbeatTick ∧
      vote.committedNonce = n.committedPosition ∧ n.replicationPending = none ∧
      (n.replicationLog.length : ℤ) = n.committedPosition ∧
      ledgerDigest = app.digest n.app ∧ signed.voter = self := by
  unfold Node.receiveTimeoutVote LeadershipState.successor at h
  simp only [bind_eq_ok, require_eq_ok, exists_const, orRaise_eq_ok, Bool.and_eq_true,
    beq_iff_eq, decide_eq_true_eq, Option.isNone_iff_eq_none, pure_eq_ok] at h
  obtain ⟨-, successor, hsuccessor, witness, -,
    ⟨⟨⟨⟨⟨⟨⟨⟨⟨⟨⟨-, rfl⟩, -⟩, hterm⟩, -⟩, -⟩, htimeout⟩, -⟩, hposition⟩, hpending⟩, hlength⟩,
      hdigest⟩, rfl⟩ := h
  exact ⟨hterm, hsuccessor, htimeout, hposition, hpending, hlength, hdigest, rfl⟩

/-- The votes of a certificate that is formed from the votes of two voters. -/
lemma mem_votes_iff {v w ballot : FailureVote} (hne : v.voter ≠ w.voter) :
    ballot ∈ Role.order.filterMap (((∅ : Dict Role FailureVote).set v.voter v).set w.voter w).get? ↔
      ballot = v ∨ ballot = w := by
  have hall : ∀ role : Role, role ∈ Role.order := fun role => by cases role <;> decide
  rw [List.mem_filterMap]
  constructor
  · rintro ⟨role, -, hget⟩
    rw [Dict.get?_set, Dict.get?_set] at hget
    split_ifs at hget
    · exact .inr (Option.some.inj hget).symm
    · exact .inl (Option.some.inj hget).symm
    · cases hget
  · rintro (rfl | rfl)
    · refine ⟨ballot.voter, hall _, ?_⟩
      rw [Dict.get?_set_of_ne _ _ hne.symm, Dict.get?_set_self]
    · exact ⟨ballot.voter, hall _, Dict.get?_set_self _ _ _⟩

/-- A node has not heard of its leader for too long at a tick. -/
def Silent (tick : ℤ) (r : Role) (s : LiveCluster A μ) : Prop :=
  (s.nodes r).leadership.timeoutTicks ≤ tick - (s.nodes r).leadership.lastHeartbeatTick

/-- **The voters of a certificate.** In every run of the cluster, every certificate that a node has
adopted consists of two votes for one tick, one of its leader and one of another node. When the
leader cast its vote, and when the other node did, it supported the certificate; the ledgers of both
had one digest. The other node had no prepared record and had not heard of the old leader for too
long; nor had the leader when it formed the certificate.

**Proof sketch.** The certificate has been formed in a state that the run has passed, by a candidate
that waited for the vote of its witness. The result that it got answers the call that it had sent
with its own vote, so both votes have been cast in earlier states. -/
theorem certificate_voted (app : App A μ ρ) (keys : Keyring μ) (boot : Role → A)
    (hasStore : Role → Bool)
    (h : Transition.run (step app keys boot) (initial boot hasStore) es = some s)
    (hadopted : certificate ∈ s.certificates r) :
    ∃ witness vote signed ledgerDigest tick, witness ≠ certificate.leader ∧
      vote.voter = certificate.leader ∧ signed.voter = witness ∧
      vote.observedTick = tick ∧ signed.observedTick = tick ∧
      (∀ ballot, ballot ∈ certificate.votes ↔ ballot = vote ∨ ballot = signed) ∧
      Transition.Passes (step app keys boot) (fun v =>
        v.Polls app keys vote ledgerDigest certificate.leader ∧
        v.Supports app certificate ledgerDigest certificate.leader) (initial boot hasStore) es ∧
      Transition.Passes (step app keys boot) (fun v =>
        v.Votes app keys vote ledgerDigest signed witness ∧
        v.Supports app certificate ledgerDigest witness ∧
        (v.nodes witness).replicationPending = none ∧ v.Silent tick witness)
        (initial boot hasStore) es ∧
      Transition.Passes (step app keys boot) (fun v =>
        v.Forms keys vote signed certificate certificate.leader ∧ v.Silent tick certificate.leader)
        (initial boot hasStore) es := by
  obtain ⟨self, vote, signed, fs, v, hfs, hv, hforms⟩ :=
    (traced_of_run h).formed certificate (.inl ⟨r, hadopted⟩)
  obtain ⟨⟨c, k, hc, hstage, hresult⟩, hcertify⟩ := hforms
  have hsound := sound_of_run hv
  have htraced := traced_of_run hv
  obtain ⟨candidate, hsuccessor, hfits, -, hvoters, htick, hterm, hleader, hnonce, hvotes⟩ :=
    LeadershipState.certify_fits hcertify
  simp only [LeadershipState.fits, Bool.and_eq_true, beq_iff_eq, decide_eq_true_eq] at hfits
  obtain ⟨⟨⟨⟨⟨⟨-, hvoteTerm⟩, haccused⟩, hcandidate⟩, hsilent⟩, hvoteNonce⟩, -⟩ := hfits
  -- the result answers the call that the candidate has sent
  obtain ⟨ledgerDigest, hcall⟩ := htraced.voting self c vote k hc hstage
  obtain ⟨p, vote', digest', hp, hanswers, hgiven⟩ := htraced.voted k signed hresult
  rw [hcall] at hp
  obtain rfl := Option.some.inj hp
  obtain ⟨rfl, rfl⟩ := PeerCall.timeoutVote.inj hanswers
  have hasked : Transition.Passes (step app keys boot) (Polls app keys vote ledgerDigest self)
      (initial boot hasStore) fs :=
    htraced.polled _ (List.mem_of_getElem? hcall) vote ledgerDigest rfl
  have hgiven : Transition.Passes (step app keys boot)
      (Votes app keys vote ledgerDigest signed c.witness) (initial boot hasStore) fs := hgiven
  obtain ⟨hvoter, hself⟩ : vote.voter = self ∧ self = certificate.leader := by
    obtain ⟨_, _, _, _, hpolls⟩ := hasked
    obtain ⟨hvoter, hown, -⟩ := hpolls.fields
    exact ⟨hvoter, hown.symm.trans (hcandidate.trans hleader.symm)⟩
  have hne : c.witness ≠ self := by
    obtain ⟨term, hwinner, hwitness, hlast, -⟩ := hsound.standing self c hc
    rw [hwinner, hwitness]
    obtain rfl | rfl : term = 0 ∨ term = 1 := by omega
    · decide
    · decide
  rw [← hself]
  have hsigner : signed.voter = c.witness := by
    obtain ⟨_, _, _, _, now, hgives⟩ := hgiven
    exact (receiveTimeoutVote_eq_ok hgives).2.2.2.2.2.2.2
  obtain ⟨gs, rfl⟩ := hfs
  refine ⟨c.witness, vote, signed, ledgerDigest, vote.observedTick, hne, hvoter, hsigner, rfl,
    htick.symm, fun ballot => hvotes ▸ mem_votes_iff hvoters,
    (hasked.mono fun fs v₁ hv₁ hpolls => ⟨hpolls, ?_⟩).append gs,
    (hgiven.mono fun fs v₂ hv₂ hgives => ⟨hgives, ?_⟩).append gs,
    (Transition.passes_of_run hv ⟨⟨⟨c, k, hc, hstage, hresult⟩, hcertify⟩, hsilent⟩).append gs⟩
  · obtain ⟨-, -, hpollTerm, hpollAccused, hpollNonce⟩ := hpolls.fields
    refine ⟨?_, ?_, ?_, hpolls.ledgerDigest⟩
    · rw [hterm, ← hvoteTerm, hpollTerm]
    · rw [hleader, ← hsuccessor, ← haccused, hpollAccused]
    · rw [(sound_of_run hv₁).length, ← hpollNonce, hvoteNonce, hnonce]
  · obtain ⟨now, hgives⟩ := hgives
    obtain ⟨hgiveTerm, hgiveSuccessor, hgiveSilent, hgiveNonce, hpending, hlength, hdigest, -⟩ :=
      receiveTimeoutVote_eq_ok hgives
    refine ⟨⟨?_, ?_, ?_, hdigest.symm⟩, hpending, hgiveSilent⟩
    · rw [hterm, ← hvoteTerm, hgiveTerm]
    · rw [hgiveSuccessor, hvoter, hself]
    · rw [hnonce, ← hvoteNonce, hgiveNonce]
      exact hlength

/-- The Tertiary had one envelope, and no prepared record, when it voted for the Secondary. -/
theorem certificate_voted_election :
    ∃ s certificate, smallRun smallCluster
        (clocks ++ replication ++ confirmation ++ catchUp ++ election) = some s ∧
      certificate ∈ s.certificates .secondary ∧ certificate.committedNonce = 1 ∧
      ∃ witness vote signed ledgerDigest, witness ≠ certificate.leader ∧
        Transition.Passes (step countingApp plainKeys fun _ => 0) (fun v =>
          v.Votes countingApp plainKeys vote ledgerDigest signed witness ∧
          v.Supports countingApp certificate ledgerDigest witness ∧
          (v.nodes witness).replicationPending = none) smallCluster
          (clocks ++ replication ++ confirmation ++ catchUp ++ election) := by
  have hrun : (smallRun smallCluster (clocks ++ replication ++ confirmation ++ catchUp ++
      election)).any (fun s => (s.certificates .secondary).head?.any fun certificate =>
        decide (certificate.committedNonce = 1)) = true := by
    decide +kernel
  obtain ⟨s, hs, hcertificates⟩ := (Option.any_eq_true _ _).mp hrun
  obtain ⟨certificate, hhead, hnonce⟩ := (Option.any_eq_true _ _).mp hcertificates
  have hmem := List.mem_of_head? hhead
  obtain ⟨witness, vote, signed, ledgerDigest, tick, hne, -, -, -, -, -, -, hgives, -⟩ :=
    certificate_voted countingApp plainKeys (fun _ => 0) (fun _ => true) hs hmem
  exact ⟨s, certificate, hs, hmem, of_decide_eq_true hnonce, witness, vote, signed, ledgerDigest,
    hne, hgives.mono fun _ _ _ h => ⟨h.1, h.2.1, h.2.2.1⟩⟩

end Histories

end LiveCluster

end SplitChain
