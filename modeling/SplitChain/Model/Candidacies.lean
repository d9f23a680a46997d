import SplitChain.Model.Exchanges
import SplitChain.Model.Takeover

set_option relaxedAutoImplicit false
set_option autoImplicit false

/-!
# A takeover is a run of the cluster

`Node.takeOver` computes what the successor of a silent leader and its witness come to when the
witness answers every call. From every state of the cluster in which the locks of both are free some
run leads to these two nodes: the successor becomes a candidate, asks, fetches or transfers the log,
and collects the vote, each in an event of its own.

## Main definitions

* `SplitChain.LiveCluster.Moves` — a candidate that does what it does next, and a run from there.
* `SplitChain.LiveCluster.Follows` — what it does next, and what later.
* `SplitChain.LiveCluster.Settles` — what it and its witness come to.

## Main results

* `SplitChain.LiveCluster.fetches_turns`, `settles_push`, `settles_inquiry` — the parts of the step.
* `SplitChain.LiveCluster.reaches_takeOver` — the step of a candidate.
* `SplitChain.LiveCluster.reaches_leader` — the successor becomes the leader.
-/

namespace SplitChain

open Raise Proc Transition

namespace LiveCluster

variable {A μ ρ : Type} [DecidableEq μ] {app : App A μ ρ} {keys : Keyring μ} {boot : Role → A}
  {s t u : LiveCluster A μ} {self : Role}

/-! ## What a candidate comes to -/

section Candidate

variable {c : Candidacy μ} {stage : Stage μ} {i j : Intent μ}

variable (app keys boot) in
/-- A candidate that does what it does next, and a run from there. -/
def Moves (s : LiveCluster A μ) (self : Role) (c : Candidacy μ) (i : Intent μ)
    (t : LiveCluster A μ) : Prop :=
  ∃ u, s.move app keys self c i = some u ∧ Reaches (step app keys boot) u t

omit [DecidableEq μ] in
/-- The last stage counts. -/
lemma setCandidacy_setCandidacy (s : LiveCluster A μ) (self : Role)
    (c c' : Option (Candidacy μ)) :
    (s.setCandidacy self c).setCandidacy self c' = s.setCandidacy self c' := by
  unfold setCandidacy
  rw [Function.update_idem]

omit [DecidableEq μ] in
/-- A step that changes the node does not depend on the stage that it leaves. -/
lemma changeBy_reach {α : Type} (s : LiveCluster A μ) (self : Role) (c : Candidacy μ)
    (stage stage' : Stage μ) (x : EStateM PyError (Node A μ) α) :
    (s.reach self c stage).changeBy self { c with stage := stage } x stage' =
      s.changeBy self c x stage' := by
  have hfree : (s.reach self c stage).free self = s.free self := rfl
  have hnode : (s.reach self c stage).nodes self = s.nodes self := rfl
  unfold changeBy
  dsimp only
  rw [hfree, hnode]
  split_ifs
  · exact congrArg some (setCandidacy_setCandidacy (s.become self _) self _ _)
  · exact congrArg some (setCandidacy_setCandidacy (s.become self _) self _ _)
  · rfl

/-- What a candidate does next does not depend on the stage that it leaves. -/
lemma move_reach (s : LiveCluster A μ) (self : Role) (c : Candidacy μ) (stage : Stage μ)
    (i : Intent μ) : (s.reach self c stage).move app keys self { c with stage := stage } i =
      s.move app keys self c i := by
  cases i with
  | stop | reach => exact congrArg some (setCandidacy_setCandidacy ..)
  | ask call next =>
    exact congrArg some (setCandidacy_setCandidacy (s.send self c.witness call) self _ _)
  | prepare | commit => exact changeBy_reach ..
  | adopt certificate =>
    have hfree : (s.reach self c stage).free self = s.free self := rfl
    have hnode : (s.reach self c stage).nodes self = s.nodes self := rfl
    simp only [move, adopt]
    rw [hfree, hnode]
    split_ifs
    · exact congrArg some (setCandidacy_setCandidacy (s.become self _) self _ _)
    · rfl

/-- **A candidate goes on.** -/
lemma reaches_proceed (result : Option (PeerResult μ))
    (hreceived : s.received stage.call? result = true)
    (h : Moves app keys boot s self c ((s.nodes self).proceed app keys self c.tick s.packets.length
      result stage) t) : Reaches (step app keys boot) (s.reach self c stage) t := by
  obtain ⟨u, hu, hreach⟩ := h
  have hcandidacy : (s.reach self c stage).candidacies self = some { c with stage := stage } :=
    Function.update_self ..
  refine .head (e := .proceed self result) ?_ hreach
  have hguard : (s.reach self c stage).received stage.call? result = true := hreceived
  simp only [step, hcandidacy, Option.bind_eq_bind, Option.bind_some, hguard, guard_true]
  exact (move_reach ..).trans hu

/-- A stage at which a candidate waits for nothing. -/
lemma Moves.reach (h : Moves app keys boot s self c
    ((s.nodes self).proceed app keys self c.tick s.packets.length none stage) t) :
    Moves app keys boot s self c (.reach stage) t :=
  ⟨_, rfl, reaches_proceed none rfl h⟩

omit [DecidableEq μ] in
/-- A result does not change the candidates. -/
lemma told_reach (s : LiveCluster A μ) (self : Role) (c : Candidacy μ) (stage : Stage μ) (k : ℕ)
    (result : Option (PeerResult μ)) :
    (s.reach self c stage).told k result = (s.told k result).reach self c stage := by
  cases result <;> rfl

variable (app keys boot) in
/-- **A candidate calls its witness**, which serves the call at once. -/
lemma Moves.ask (call : PeerCall μ) {next : ℕ → Stage μ} (hfree : s.free c.witness = true)
    (hcall : ∀ k, (next k).call? = some k) (now : ℤ) (hne : self ≠ c.witness) :
    ∃ s', s.Idle s' ∧ s'.nodes = Function.update s.nodes c.witness
        (respond app keys c.witness now (s.nodes c.witness) call).2 ∧
      ∀ t, Moves app keys boot s' self c ((s.nodes self).proceed app keys self c.tick
          s'.packets.length (respond app keys c.witness now (s.nodes c.witness) call).1
          (next s.packets.length)) t →
        Moves app keys boot s self c (.ask call next) t := by
  obtain ⟨hidle, hnodes, -⟩ := responded_spec app keys
    (s.send self c.witness call) s.packets.length c.witness now call
  refine ⟨_, ⟨hidle.tasks, hidle.waiting, hidle.candidacies⟩, hnodes, fun t h => ?_⟩
  have hk : ((s.send self c.witness call).reach self c (next s.packets.length)).packets[
      s.packets.length]? = some ⟨self, c.witness, call⟩ := List.getElem?_concat_length
  have hserved := reaches_responded app keys boot hk hfree now
  have hput : ((s.send self c.witness call).reach self c (next s.packets.length)).responded app keys
      s.packets.length c.witness now call = ((s.send self c.witness call).responded app keys
        s.packets.length c.witness now call).reach self c (next s.packets.length) :=
    told_reach ((s.send self c.witness call).become c.witness _) self c _ _ _
  have hself : ((s.send self c.witness call).responded app keys s.packets.length c.witness now
      call).nodes self = s.nodes self := by
    rw [hnodes, Function.update_of_ne hne]
    rfl
  have hreceived : ((s.send self c.witness call).responded app keys s.packets.length c.witness now
      call).received (next s.packets.length).call?
      (respond app keys c.witness now (s.nodes c.witness) call).1 = true := by
    rw [hcall]
    exact received_told _ _ _
  exact ⟨_, rfl, (hput ▸ hserved).trans (reaches_proceed _ hreceived (hself.symm ▸ h))⟩

/-- **A candidate changes its node**, and goes on. -/
lemma moves_of_eq_ok {α : Type} {x : EStateM PyError (Node A μ) α} {a : α} {n : Node A μ}
    (hself : s.free self = true) (hx : x (s.nodes self) = .ok a n)
    (hmove : s.move app keys self c i = s.changeBy self c x stage)
    (h : Moves app keys boot (s.become self n) self c (n.proceed app keys self c.tick
      s.packets.length none stage) t) : Moves app keys boot s self c i t := by
  refine ⟨(s.become self n).reach self c stage, ?_, reaches_proceed none rfl ?_⟩
  · rw [hmove, changeBy, if_pos hself, after, returns, hx]
    rfl
  · rw [show (s.become self n).nodes self = n from Function.update_self ..]
    exact h

/-- A change that is refused stops the candidate. -/
lemma moves_of_eq_error {α : Type} {x : EStateM PyError (Node A μ) α} {e : PyError} {n : Node A μ}
    (hself : s.free self = true) (hx : x (s.nodes self) = .error e n)
    (hmove : s.move app keys self c i = s.changeBy self c x stage)
    (h : Moves app keys boot (s.become self n) self c .stop t) :
    Moves app keys boot s self c i t := by
  obtain ⟨u, hu, hreach⟩ := h
  refine ⟨u, ?_, hreach⟩
  rw [← hu, hmove, changeBy, if_pos hself, after, returns, hx]
  rfl

variable (app keys boot) in
/-- **What a candidate does next, and what it does later**, when the nodes have become others. -/
def Follows (s : LiveCluster A μ) (self : Role) (c : Candidacy μ) (i : Intent μ)
    (nodes : Role → Node A μ) (j : Intent μ) : Prop :=
  ∃ s', s.Idle s' ∧ s'.nodes = nodes ∧
    ∀ t, Moves app keys boot s' self c j t → Moves app keys boot s self c i t

lemma Follows.refl (s : LiveCluster A μ) (self : Role) (c : Candidacy μ) (i : Intent μ) :
    Follows app keys boot s self c i s.nodes i := ⟨s, .refl s, rfl, fun _ h => h⟩

/-- One thing after the other. -/
lemma Follows.trans {nodes nodes' : Role → Node A μ} {k : Intent μ}
    (h : Follows app keys boot s self c i nodes j)
    (h' : ∀ s', s.Idle s' → s'.nodes = nodes → Follows app keys boot s' self c j nodes' k) :
    Follows app keys boot s self c i nodes' k := by
  obtain ⟨s', hidle, hnodes, hmoves⟩ := h
  obtain ⟨u, hidle', hnodes', hmoves'⟩ := h' s' hidle hnodes
  exact ⟨u, hidle.trans hidle', hnodes', fun t ht => hmoves t (hmoves' t ht)⟩

variable (app keys boot) in
/-- **A call of a candidate**, and what it does with the result. -/
lemma Follows.ask (call : PeerCall μ) {next : ℕ → Stage μ} (hfree : s.free c.witness = true)
    (hcall : ∀ k, (next k).call? = some k) (now : ℤ) (hne : self ≠ c.witness)
    (hj : ∀ fresh k, (s.nodes self).proceed app keys self c.tick fresh
      (respond app keys c.witness now (s.nodes c.witness) call).1 (next k) = j) :
    Follows app keys boot s self c (.ask call next) (Function.update s.nodes c.witness
      (respond app keys c.witness now (s.nodes c.witness) call).2) j := by
  obtain ⟨s', hidle, hnodes, hmoves⟩ := Moves.ask app keys boot call hfree
    hcall now hne
  exact ⟨s', hidle, hnodes, fun t ht => hmoves t (by rw [hj]; exact ht)⟩

/-- **A question of a candidate**, which leaves the witness as it is. -/
lemma Follows.query (hfree : s.free c.witness = true) {call : PeerCall μ} {next : ℕ → Stage μ}
    (hcall : ∀ k, (next k).call? = some k) (now : ℤ) (hne : self ≠ c.witness)
    {result : Option (PeerResult μ)}
    (hquery : respond app keys c.witness now (s.nodes c.witness) call =
      (result, s.nodes c.witness))
    (hj : ∀ fresh k, (s.nodes self).proceed app keys self c.tick fresh result (next k) = j) :
    Follows app keys boot s self c (.ask call next) s.nodes j := by
  have hask := Follows.ask app keys boot (j := j) call hfree
    hcall now hne (by rw [hquery]; exact hj)
  rw [hquery, Function.update_eq_self] at hask
  exact hask

/-! ### Fetching -/

/-- **A candidate changes its node**, and goes on, or stops if that is refused. -/
lemma follows_changed {α : Type} {x : EStateM PyError (Node A μ) α} (stage : Stage μ)
    (hself : s.free self = true) (hmove : s.move app keys self c i = s.changeBy self c x stage)
    (hj : ∀ n : Node A μ, n.proceed app keys self c.tick s.packets.length none stage =
      n.proceed app keys self c.tick 0 none stage) :
    Ends x (s.nodes self)
      (fun _ n => Follows app keys boot s self c i (Function.update s.nodes self n)
        (n.proceed app keys self c.tick 0 none stage))
      fun _ n => Follows app keys boot s self c i (Function.update s.nodes self n) .stop := by
  refine ends_iff.mpr ⟨fun a n hx => ?_, fun e n hx => ?_⟩
  · refine ⟨s.become self n, ⟨rfl, rfl, rfl⟩, rfl, fun t ht => ?_⟩
    exact moves_of_eq_ok hself hx hmove (by rw [hj]; exact ht)
  · exact ⟨s.become self n, ⟨rfl, rfl, rfl⟩, rfl, fun t ht => moves_of_eq_error hself hx hmove ht⟩

/-- What follows a change of the node changes it further. -/
lemma Follows.after {n : Node A μ}
    (h : Follows app keys boot s self c i (Function.update s.nodes self n) j) :
    ∃ s', s.Idle s' ∧ s'.nodes = Function.update s.nodes self n ∧ ∀ m k,
      Follows app keys boot s' self c j (Function.update s'.nodes self m) k →
      Follows app keys boot s self c i (Function.update s.nodes self m) k := by
  obtain ⟨s', hidle, hnodes, hmoves⟩ := h
  refine ⟨s', hidle, hnodes, fun m k hlater => ?_⟩
  obtain ⟨u, hidle', hnodes', hmoves'⟩ := hlater
  refine ⟨u, hidle.trans hidle', ?_, fun t ht => hmoves t (hmoves' t ht)⟩
  rw [hnodes', hnodes, Function.update_idem]

variable (app keys boot) in
/-- **A part of `_sync_from_peer`**, while a candidate goes on: it does `next` if the part returns
true, and stops otherwise. -/
def Fetches (s : LiveCluster A μ) (self : Role) (c : Candidacy μ) (i : Intent μ)
    (x : EStateM PyError (Node.Catching A μ) Bool) (u : Node.Catching A μ)
    (next : Node A μ → Intent μ) : Prop :=
  Ends x u
    (fun taken v => Follows app keys boot s self c i (Function.update s.nodes self v.node)
      (if taken then next v.node else .stop))
    fun _ v => Follows app keys boot s self c i (Function.update s.nodes self v.node) .stop

/-- What is fetched later follows what was done before. -/
lemma Fetches.mono {x : EStateM PyError (Node.Catching A μ) Bool} {u : Node.Catching A μ}
    {next : Node A μ → Intent μ} (h : Fetches app keys boot s self c i x u next)
    (hlater : ∀ m k, Follows app keys boot s self c i (Function.update s.nodes self m) k →
      Follows app keys boot t self c j (Function.update t.nodes self m) k) :
    Fetches app keys boot t self c j x u next :=
  Ends.mono h (fun _ _ => hlater _ _) fun _ _ => hlater _ _

/-- What is fetched once the node has changed. -/
lemma Fetches.of_follows {x : EStateM PyError (Node.Catching A μ) Bool} {u : Node.Catching A μ}
    {next : Node A μ → Intent μ} {n : Node A μ}
    (h : Follows app keys boot s self c i (Function.update s.nodes self n) j)
    (hlater : ∀ s', s.Idle s' → s'.nodes = Function.update s.nodes self n →
      Fetches app keys boot s' self c j x u next) : Fetches app keys boot s self c i x u next := by
  obtain ⟨s', hidle, hnodes, hmoves⟩ := h.after
  exact (hlater s' hidle hnodes).mono hmoves

section Page

variable {remote : ℤ} {turns : ℕ} {entry : Envelope μ} {entries : List (Envelope μ)}
  {u : Node.Catching A μ}

/-- **An entry of a page** is committed, and the others are taken. -/
lemma fetches_commit
    (hlater : ∀ {s : LiveCluster A μ} {u : Node.Catching A μ}, s.free self = true →
      u.node = s.nodes self → Fetches app keys boot s self c
        (u.node.proceed app keys self c.tick 0 none (.taking remote turns entries))
        (Node.takePage app keys self Node.saving entries) u fun n => n.pull remote turns)
    (hself : s.free self = true) (hu : u.node = s.nodes self) :
    Ends (Node.stepOf (Node.commitReplica app keys self true entry)) u
      (fun _ v => Fetches app keys boot s self c (.commit remote turns entry entries)
        (Node.takePage app keys self Node.saving entries) v fun n => n.pull remote turns)
      fun _ v => Follows app keys boot s self c (.commit remote turns entry entries)
        (Function.update s.nodes self v.node) .stop := by
  rw [Node.ends_stepOf, hu]
  refine (follows_changed (.taking remote turns entries) hself rfl fun n => by
    cases entries <;> rfl).mono (fun _ n hn => ?_) fun _ n hn => hn
  refine .of_follows hn fun s' hidle hnodes => hlater (hidle.free hself) ?_
  rw [hnodes, Function.update_self]

/-- **An entry of a page** is prepared, unless it is the prepared record already, and committed. -/
lemma fetches_entry
    (hlater : ∀ {s : LiveCluster A μ} {u : Node.Catching A μ}, s.free self = true →
      u.node = s.nodes self → Fetches app keys boot s self c
        (u.node.proceed app keys self c.tick 0 none (.taking remote turns entries))
        (Node.takePage app keys self Node.saving entries) u fun n => n.pull remote turns)
    (hself : s.free self = true) (hu : u.node = s.nodes self)
    (hsame : u.node.replicationPending.any (· != entry) = false) :
    Ends (Node.takeEntry app keys self Node.saving entry) u
      (fun _ v => Fetches app keys boot s self c
        (u.node.proceed app keys self c.tick 0 none (.taking remote turns (entry :: entries)))
        (Node.takePage app keys self Node.saving entries) v fun n => n.pull remote turns)
      fun _ v => Follows app keys boot s self c
        (u.node.proceed app keys self c.tick 0 none (.taking remote turns (entry :: entries)))
        (Function.update s.nodes self v.node) .stop := by
  unfold Node.takeEntry
  rw [ends_bind, ends_get]
  cases hpending : u.node.replicationPending with
  | none =>
    have hnext : u.node.proceed app keys self c.tick 0 none
        (.taking remote turns (entry :: entries)) = .prepare remote turns entry entries := by
      simp only [Node.proceed, hpending]
    simp only [hpending, Option.isNone_none, if_true, ends_bind, ends_pure]
    rw [hnext, Node.ends_stepOf, hu]
    refine (follows_changed (.settling remote turns entry entries) hself rfl
      fun n => rfl).mono (fun _ n hn => ?_) fun _ n hn => hn
    obtain ⟨s', hidle, hnodes, hmoves⟩ := hn.after
    have hnode : n = s'.nodes self := by rw [hnodes, Function.update_self]
    exact (fetches_commit (u := ⟨n, u.steps ++ [n]⟩) hlater (hidle.free hself) hnode).mono
      (fun _ _ h => h.mono hmoves) fun _ _ => hmoves _ _
  | some record =>
    rw [hpending, Option.any_some, bne_eq_false_iff_eq] at hsame
    have hnext : u.node.proceed app keys self c.tick 0 none
        (.taking remote turns (entry :: entries)) =
        .reach (.settling remote turns entry entries) := by
      simp only [Node.proceed, hpending, hsame, if_true]
    have hreach : ∀ m k, Follows app keys boot s self c (.commit remote turns entry entries)
        (Function.update s.nodes self m) k → Follows app keys boot s self c
          (.reach (.settling remote turns entry entries))
          (Function.update s.nodes self m) k := by
      rintro m k ⟨s', hidle, hnodes, hmoves⟩
      exact ⟨s', hidle, hnodes, fun t ht => Moves.reach (hmoves t ht)⟩
    simp only [hpending, Option.isNone_some, Bool.false_eq_true, if_false, ends_bind, ends_pure]
    rw [hnext]
    exact (fetches_commit hlater hself hu).mono (fun _ _ h => h.mono hreach)
      fun _ _ => hreach _ _

end Page

variable (app keys boot) in
/-- **The entries of a page** are taken.

**Proof sketch.** Induction on the entries. An entry that is refused stops the candidate as it ends
the page, and so does another prepared record. -/
lemma fetches_page (remote : ℤ) (turns : ℕ) (entries : List (Envelope μ))
    (hself : s.free self = true) {u : Node.Catching A μ} (hu : u.node = s.nodes self) :
    Fetches app keys boot s self c
      (u.node.proceed app keys self c.tick 0 none (.taking remote turns entries))
      (Node.takePage app keys self Node.saving entries) u fun n => n.pull remote turns := by
  induction entries generalizing s u with
  | nil =>
    show Follows app keys boot s self c (u.node.pull remote turns)
      (Function.update s.nodes self u.node) (u.node.pull remote turns)
    rw [hu, Function.update_eq_self]
    exact .refl ..
  | cons entry entries ih =>
    unfold Node.takePage Fetches
    rw [ends_bind, ends_get]
    split_ifs with hother
    · obtain ⟨record, hpending, hne⟩ := (Option.any_eq_true _ _).mp hother
      have hnext : u.node.proceed app keys self c.tick 0 none
          (.taking remote turns (entry :: entries)) = .stop := by
        simp only [Node.proceed, hpending]
        exact if_neg (bne_iff_ne.mp hne)
      rw [ends_pure, hnext, hu, Function.update_eq_self]
      exact .refl ..
    · rw [ends_bind, Node.ends_caught]
      refine (fetches_entry (fun hself hu => ih hself hu) hself hu
        (Bool.eq_false_iff.mpr hother)).mono (fun _ _ hv => hv) fun e v hv => ?_
      by_cases hrefused : Node.isRefusal e = true
      · rw [if_pos hrefused]
        exact hv
      · rw [if_neg hrefused]
        exact hv

/-- **A page that the witness has sent is taken**, and the other turns follow. -/
lemma fetches_taking {remote : ℤ} {turns : ℕ} {entries : List (Envelope μ)}
    {u : Node.Catching A μ}
    (hlater : ∀ {s : LiveCluster A μ} {u : Node.Catching A μ}, s.free self = true →
      s.free c.witness = true → u.node = s.nodes self → Fetches app keys boot s self c
        (u.node.pull remote turns)
        (Node.syncFromPeer app keys self Node.saving (s.nodes c.witness) turns) u
        fun n => n.push remote)
    (hself : s.free self = true) (hfree : s.free c.witness = true) (hne : self ≠ c.witness)
    (hu : u.node = s.nodes self)
    (hask : Follows app keys boot s self c i s.nodes (.reach (.taking remote turns entries))) :
    Fetches app keys boot s self c i
      (Node.takePage app keys self Node.saving entries >>= fun taken =>
        if taken then Node.syncFromPeer app keys self Node.saving (s.nodes c.witness) turns
        else pure false) u fun n => n.push remote := by
  obtain ⟨s', hidle, hnodes, hmoves⟩ := hask
  have hnode : u.node = s'.nodes self := hu.trans (congrFun hnodes self).symm
  have hpage : Fetches app keys boot s self c i (Node.takePage app keys self Node.saving entries) u
      fun n => n.pull remote turns := by
    refine (fetches_page app keys boot remote turns entries (hidle.free hself) hnode).mono
      fun m k hpaged => ?_
    obtain ⟨s'', hidle', hnodes', hmoves'⟩ := hpaged
    refine ⟨s'', hidle.trans hidle', by rw [hnodes', hnodes], fun t ht => hmoves t
      (Moves.reach ?_)⟩
    have hfirst := hmoves' t ht
    rw [hnode] at hfirst
    have hsame : (s'.nodes self).proceed app keys self c.tick s'.packets.length none
        (.taking remote turns entries) = (s'.nodes self).proceed app keys self c.tick 0 none
          (.taking remote turns entries) := by
      cases entries <;> rfl
    exact hsame ▸ hfirst
  unfold Fetches
  rw [ends_bind]
  refine Ends.mono hpage (fun taken v hv => ?_) fun _ _ hv => hv
  cases taken with
  | false => exact hv
  | true =>
    show Fetches app keys boot s self c i
      (Node.syncFromPeer app keys self Node.saving (s.nodes c.witness) turns) v
      fun n => n.push remote
    refine .of_follows hv fun s'' hidle' hnodes' => ?_
    have hwitness : s''.nodes c.witness = s.nodes c.witness := by
      rw [hnodes', Function.update_of_ne hne.symm]
    have hrest := hlater (hidle'.free hself) (hidle'.free hfree) (u := v)
      (by rw [hnodes', Function.update_self])
    rwa [hwitness] at hrest

/-- **The turns of `_sync_from_peer`.** -/
lemma fetches_turns (remote : ℤ) (turns : ℕ) (hself : s.free self = true)
    (hfree : s.free c.witness = true) (hne : self ≠ c.witness) {u : Node.Catching A μ}
    (hu : u.node = s.nodes self) :
    Fetches app keys boot s self c (u.node.pull remote turns)
      (Node.syncFromPeer app keys self Node.saving (s.nodes c.witness) turns) u
      fun n => n.push remote := by
  induction turns generalizing s u with
  | zero =>
    show Follows app keys boot s self c .stop (Function.update s.nodes self u.node) .stop
    rw [hu, Function.update_eq_self]
    exact .refl ..
  | succ turns ih =>
    have hask : ∀ j, (∀ k, (s.nodes self).proceed app keys self c.tick 0
        (((s.nodes c.witness).history app u.node.committedPosition).toOption.map .history)
        (.pulling remote turns u.node.committedPosition k) = j) →
        Follows app keys boot s self c (u.node.pull remote (turns + 1)) s.nodes j :=
      fun j hj => .query hfree (fun _ => rfl) 0 hne rfl fun fresh k => hj k
    unfold Node.syncFromPeer Fetches
    rw [ends_bind, ends_get]
    dsimp only
    cases hhistory : (s.nodes c.witness).history app u.node.committedPosition with
    | error e =>
      rw [hhistory] at hask
      rw [ends_pure, hu, Function.update_eq_self]
      exact hu ▸ hask .stop fun _ => rfl
    | ok h =>
      rw [hhistory] at hask
      have hstop : (∀ k, (s.nodes self).proceed app keys self c.tick 0 (some (.history h))
          (.pulling remote turns u.node.committedPosition k) = .stop) →
          Follows app keys boot s self c (u.node.pull remote (turns + 1))
            (Function.update s.nodes self u.node) .stop := by
        intro hj
        rw [hu, Function.update_eq_self]
        exact hu ▸ hask .stop hj
      dsimp only
      split_ifs with hbehind hequal hempty
      · exact hstop fun k => if_pos hbehind
      · rw [ends_pure]
        by_cases hsame : h.ledgerDigest = app.digest u.node.app ∧
            u.node.replicationPending.isNone = true
        · rw [if_pos (by rw [hsame.1, hsame.2, beq_self_eq_true, Bool.and_self]), hu,
            Function.update_eq_self]
          rw [hu] at hsame
          have hpush := hask _ fun k =>
            (if_neg hbehind).trans ((if_pos hequal).trans (if_pos hsame))
          rw [hu] at hpush
          exact hpush
        · rw [if_neg (by simpa using hsame)]
          rw [hu] at hsame
          exact hstop fun k => (if_neg hbehind).trans ((if_pos hequal).trans (if_neg hsame))
      · exact hstop fun k => (if_neg hbehind).trans ((if_neg hequal).trans (if_pos hempty))
      · exact fetches_taking (fun hself hfree hu => ih hself hfree hu) hself hfree hne hu
          (hask _ fun k => (if_neg hbehind).trans ((if_neg hequal).trans (if_neg hempty)))

/-! ### Electing -/

variable (app keys boot) in
/-- **A candidate stops** when it and its witness have become two nodes. -/
def Settles (s : LiveCluster A μ) (self : Role) (c : Candidacy μ) (i : Intent μ)
    (p : Node A μ × Node A μ) : Prop :=
  Follows app keys boot s self c i (Function.update (Function.update s.nodes self p.1) c.witness p.2)
    .stop

/-- A candidate that stops at once. -/
lemma settles_of_stop (h : Follows app keys boot s self c i s.nodes .stop) :
    Settles app keys boot s self c i (s.nodes self, s.nodes c.witness) := by
  unfold Settles
  rw [Function.update_eq_self, Function.update_eq_self]
  exact h

/-- A candidate that stops when it has asked. -/
lemma Settles.of_query {p : Node A μ × Node A μ} (h : Follows app keys boot s self c i s.nodes j)
    (hlater : ∀ s', s.Idle s' → s'.nodes = s.nodes → Settles app keys boot s' self c j p) :
    Settles app keys boot s self c i p := by
  refine h.trans fun s' hidle hnodes => ?_
  have hlast := hlater s' hidle hnodes
  unfold Settles at hlast
  rwa [hnodes] at hlast

/-- A candidate that stops when it has gone on. -/
lemma Settles.of_follows (hne : self ≠ c.witness) {n w : Node A μ} {p : Node A μ × Node A μ}
    (h : Follows app keys boot s self c i
      (Function.update (Function.update s.nodes self n) c.witness w) j)
    (hlater : ∀ s', s.Idle s' → s'.nodes self = n → s'.nodes c.witness = w →
      Settles app keys boot s' self c j p) : Settles app keys boot s self c i p := by
  refine h.trans fun s' hidle hnodes => ?_
  have hlast := hlater s' hidle (by rw [hnodes, Function.update_of_ne hne, Function.update_self])
    (by rw [hnodes, Function.update_self])
  unfold Settles at hlast
  rwa [hnodes, update_pair hne] at hlast

variable (app keys boot) in
/-- **A candidate adopts a certificate.** -/
lemma follows_adopt (hself : s.free self = true) (certificate : LeadershipCertificate) :
    Follows app keys boot s self c (.adopt certificate) (Function.update s.nodes self
      (after (Node.recordCertificate keys true certificate) (s.nodes self))) .stop := by
  refine ⟨s.become self (after (Node.recordCertificate keys true certificate) (s.nodes self)),
    ⟨rfl, rfl, rfl⟩, rfl, fun t ht => ?_⟩
  obtain ⟨u, hu, hreach⟩ := ht
  refine ⟨u, ?_, hreach⟩
  rw [move, adopt, if_pos hself]
  exact hu

/-- **A candidate sends its certificate**, and adopts it if the witness has recorded it. -/
lemma settles_certificate (hself : s.free self = true) (hfree : s.free c.witness = true)
    (hne : self ≠ c.witness) (certificate : LeadershipCertificate) :
    Settles app keys boot s self c (.ask (.certificate certificate) (.certifying certificate))
      (if returns (Node.recordCertificate keys true certificate) (s.nodes c.witness) then
        (after (Node.recordCertificate keys true certificate) (s.nodes self),
          after (Node.recordCertificate keys true certificate) (s.nodes c.witness))
      else (s.nodes self,
        after (Node.recordCertificate keys true certificate) (s.nodes c.witness))) := by
  have hask := Follows.ask app keys boot (.certificate certificate) (c := c) hfree
    (fun k => (rfl : (Stage.certifying certificate k : Stage μ).call? = some k)) 0 hne
    (j := if returns (Node.recordCertificate keys true certificate) (s.nodes c.witness) then
      .adopt certificate else .stop) fun fresh k => by
    rw [respond, servedBy]
    cases returns (Node.recordCertificate keys true certificate) (s.nodes c.witness) <;> rfl
  unfold Settles
  split_ifs at hask ⊢ with hrecorded
  · refine hask.trans fun s' hidle hnodes => ?_
    have hnode : s'.nodes self = s.nodes self := by
      rw [hnodes, Function.update_of_ne hne]
    have hadopt := follows_adopt app keys boot (c := c)
      (hidle.free hself) certificate
    rw [hnode, hnodes, Function.update_comm hne.symm] at hadopt
    exact hadopt
  · rw [Function.update_eq_self]
    exact hask

/-- **A candidate collects the vote of its witness.** -/
lemma settles_poll (now : ℤ) (hself : s.free self = true) (hfree : s.free c.witness = true)
    (hne : self ≠ c.witness)
    (hterm : (s.nodes c.witness).leadership.term ≠ (s.nodes self).leadership.term + 1) :
    Settles app keys boot s self c ((s.nodes self).poll app keys self c.tick)
      (Node.elect app keys self c.witness c.tick now (s.nodes self) (s.nodes c.witness)) := by
  rw [Node.elect, if_neg hterm]
  dsimp only
  have hask : ∀ j, (∀ k, (s.nodes self).proceed app keys self c.tick 0
      (((s.nodes c.witness).receiveTimeoutVote app keys c.witness now
        ((s.nodes self).candidateVote keys self c.tick)
        (app.digest (s.nodes self).app)).toOption.map .vote)
      (.voting ((s.nodes self).candidateVote keys self c.tick) k) = j) →
      Follows app keys boot s self c ((s.nodes self).poll app keys self c.tick) s.nodes j :=
    fun j hj => .query hfree (fun _ => rfl) now hne rfl fun fresh k => hj k
  cases hvote : (s.nodes c.witness).receiveTimeoutVote app keys c.witness now
      ((s.nodes self).candidateVote keys self c.tick) (app.digest (s.nodes self).app) with
  | error e =>
    rw [hvote] at hask
    exact settles_of_stop (hask .stop fun _ => rfl)
  | ok signed =>
    rw [hvote] at hask
    dsimp only
    cases hcertify : (s.nodes self).leadership.certify keys.failover
        ((s.nodes self).candidateVote keys self c.tick) signed with
    | error e =>
      exact settles_of_stop (hask .stop fun k => by simp [Node.proceed, Except.toOption, hcertify])
    | ok certificate =>
      cases certificate with
      | none =>
        exact settles_of_stop (hask .stop fun k => by
          simp [Node.proceed, Except.toOption, hcertify])
      | some certificate =>
        have hvoted := hask (.ask (.certificate certificate) (.certifying certificate))
          fun k => by simp [Node.proceed, Except.toOption, hcertify]
        refine .of_query hvoted fun s' hidle hnodes => ?_
        rw [← hnodes]
        exact settles_certificate (hidle.free hself) (hidle.free hfree) hne certificate

/-- **The end of a candidacy.** -/
lemma settles_inquiry (now : ℤ) (hself : s.free self = true) (hfree : s.free c.witness = true)
    (hne : self ≠ c.witness) :
    Settles app keys boot s self c (.ask .leadership .inquiring)
      (Node.elect app keys self c.witness c.tick now (s.nodes self) (s.nodes c.witness)) := by
  have hask : ∀ j, (∀ k, (s.nodes self).proceed app keys self c.tick 0
      (some (.leadership (s.nodes c.witness).leadership)) (.inquiring k) = j) →
      Follows app keys boot s self c (.ask .leadership .inquiring) s.nodes j :=
    fun j hj => .query hfree (fun _ => rfl) 0 hne rfl fun fresh k => hj k
  by_cases hterm : (s.nodes c.witness).leadership.term = (s.nodes self).leadership.term + 1
  · rw [Node.elect, if_pos hterm]
    cases hrecover : (s.nodes self).leadership.recover keys.failover
        (s.nodes c.witness).leadership with
    | error e =>
      exact settles_of_stop (hask .stop fun k => by simp [Node.proceed, hterm, hrecover])
    | ok certificate =>
      cases certificate with
      | none => exact settles_of_stop (hask .stop fun k => by simp [Node.proceed, hterm, hrecover])
      | some certificate =>
        have hinquired := hask (.adopt certificate)
          fun k => by simp [Node.proceed, hterm, hrecover]
        refine .of_query hinquired fun s' hidle hnodes => ?_
        have hadopt := follows_adopt app keys boot (c := c)
          (hidle.free hself) certificate
        unfold Settles
        rw [hnodes] at hadopt ⊢
        have hwitness : Function.update (Function.update s.nodes self (after (Node.recordCertificate
            keys true certificate) (s.nodes self))) c.witness (s.nodes c.witness) =
            Function.update s.nodes self (after (Node.recordCertificate keys true certificate)
              (s.nodes self)) :=
          Function.update_eq_self_iff.mpr (Function.update_of_ne hne.symm _ _).symm
        rw [hwitness]
        exact hadopt
  · have hinquired := hask ((s.nodes self).poll app keys self c.tick)
      fun k => by simp [Node.proceed, hterm]
    refine .of_query hinquired fun s' hidle hnodes => ?_
    rw [← hnodes] at hterm ⊢
    exact settles_poll now (hidle.free hself) (hidle.free hfree) hne hterm

/-! ### Reconciling -/

/-- **The last question** before the election: whether both ledgers are the same. -/
lemma settles_confirm (now : ℤ) (hself : s.free self = true) (hfree : s.free c.witness = true)
    (hne : self ≠ c.witness) :
    Settles app keys boot s self c (.ask (.history (s.nodes self).committedPosition) .confirming)
      (if Node.confirms app (s.nodes c.witness) (s.nodes self) then
        Node.elect app keys self c.witness c.tick now (s.nodes self) (s.nodes c.witness)
      else (s.nodes self, s.nodes c.witness)) := by
  have hask : ∀ j, (∀ k, (s.nodes self).proceed app keys self c.tick 0
      (((s.nodes c.witness).history app (s.nodes self).committedPosition).toOption.map .history)
      (.confirming k) = j) → Follows app keys boot s self c
        (.ask (.history (s.nodes self).committedPosition) .confirming) s.nodes j :=
    fun j hj => .query hfree (fun _ => rfl) 0 hne rfl fun fresh k => hj k
  unfold Node.confirms
  cases hhistory : (s.nodes c.witness).history app (s.nodes self).committedPosition with
  | error e =>
    rw [hhistory] at hask
    exact settles_of_stop (hask _ fun _ => rfl)
  | ok h =>
    rw [hhistory] at hask
    by_cases hsame : h.nonce = (s.nodes self).committedPosition ∧
        h.ledgerDigest = app.digest (s.nodes self).app
    · rw [if_pos (by simpa using hsame)]
      refine .of_query (hask _ fun _ => if_pos hsame) fun s' hidle hnodes => ?_
      rw [← hnodes]
      exact settles_inquiry now (hidle.free hself) (hidle.free hfree) hne
    · rw [if_neg (by simpa using hsame)]
      exact settles_of_stop (hask _ fun _ => if_neg hsame)

omit [DecidableEq μ] in
/-- A transfer that sends no call has ended. -/
lemma answer_ended {offer : Option (Envelope μ)} {fresh : ℕ} {log : List (Envelope μ)}
    {position : ℤ} {result : Option (PeerResult μ)} {x y : Transfer μ}
    (h : x.answer offer fresh log position result = (y, none)) : ∃ success, y = .ended success := by
  have hnext : ∀ rest, Transfer.next offer fresh rest = (y, none) →
      ∃ success, y = .ended success := by
    intro rest hrest
    unfold Transfer.next at hrest
    split at hrest
    · cases hrest
    · split at hrest
      · cases hrest
      · exact ⟨true, (congrArg Prod.fst hrest).symm⟩
  have hended : ∀ success, ((.ended success, none) : Transfer μ × Option (PeerCall μ)) = (y, none) →
      ∃ success, y = .ended success := fun success hy => ⟨success, (congrArg Prod.fst hy).symm⟩
  cases x with
  | locating call =>
    unfold Transfer.answer at h
    dsimp only at h
    split at h
    · split_ifs at h
      · exact hnext _ h
      · exact hended _ h
    · exact hended _ h
  | preparing envelope rest call => cases h
  | committing envelope rest prepared call =>
    rw [Transfer.answer] at h
    split_ifs at h
    · exact hnext _ h
    · exact hended _ h
  | offering call => exact hended _ h
  | ended success => exact hended _ h

variable (app keys boot) in
/-- **A candidate waits in a transfer** to its witness. -/
lemma hosts_pushing (hne : self ≠ c.witness) :
    Hosts app keys boot self c.witness none (fun s x => s.reach self c (.pushing x))
      (fun s success => if success then
        s.ask self c (.history (s.nodes self).committedPosition) .confirming else s.stop self) where
  distinct := hne
  packets _ _ := rfl
  nodes _ _ := rfl
  free _ _ := rfl
  become _ _ _ := rfl
  told s x k result := told_reach ..
  answer s x k result hcall hreceived := by
    refine reaches_proceed result (by rw [Stage.call?, hcall]; exact hreceived) ?_
    rw [Node.proceed]
    cases hanswer : x.answer none s.packets.length (s.nodes self).replicationLog
        (s.nodes self).committedPosition result with
    | mk y call =>
      cases call with
      | some call => exact ⟨_, rfl, .refl _⟩
      | none =>
        obtain ⟨success, rfl⟩ := answer_ended hanswer
        cases success <;> exact ⟨_, rfl, .refl _⟩

variable (app keys boot) in
/-- **A candidate transfers its log** to its witness. -/
lemma follows_sync (hfree : s.free c.witness = true) (hne : self ≠ c.witness) {pushed : Bool}
    {w : Node A μ} (hpush : Node.syncHistory app keys c.witness (s.nodes self) (s.nodes c.witness) =
      (pushed, w)) :
    Follows app keys boot s self c (.ask .position fun k => .pushing (.locating k))
      (Function.update s.nodes c.witness w)
      (if pushed then .ask (.history (s.nodes self).committedPosition) .confirming else .stop) := by
  have hk : (s.send self c.witness .position).packets[s.packets.length]? =
      some ⟨self, c.witness, .position⟩ := List.getElem?_concat_length
  obtain ⟨t, hidle, hnodes, hreach⟩ := (hosts_pushing app keys boot
    hne).syncHistory hk hfree hpush
  have hnode : t.nodes self = s.nodes self := by
    rw [hnodes, Function.update_of_ne hne]
    rfl
  refine ⟨t, ⟨hidle.tasks, hidle.waiting, hidle.candidacies⟩, hnodes, fun v hv =>
    ⟨_, rfl, hreach.trans ?_⟩⟩
  obtain ⟨u, hu, hlast⟩ := hv
  rw [← hnode] at hu
  cases pushed <;>
  · obtain rfl := Option.some.inj hu
    exact hlast

variable (app keys boot) in
/-- **A candidate brings its witness to its own position**, if the witness is behind. -/
lemma settles_push (now : ℤ) (hself : s.free self = true) (hfree : s.free c.witness = true)
    (hne : self ≠ c.witness) {pushed : Bool} {w : Node A μ}
    (hpush : (if (s.nodes c.witness).committedPosition < (s.nodes self).committedPosition then
        Node.syncHistory app keys c.witness (s.nodes self) (s.nodes c.witness)
      else (true, s.nodes c.witness)) = (pushed, w)) :
    Settles app keys boot s self c ((s.nodes self).push (s.nodes c.witness).committedPosition)
      (if (s.nodes self).replicationPending = none ∧
          ((s.nodes self).replicationLog.length : ℤ) = (s.nodes self).committedPosition then
        if pushed && Node.confirms app w (s.nodes self) then
          Node.elect app keys self c.witness c.tick now (s.nodes self) w
        else (s.nodes self, w)
      else (s.nodes self, s.nodes c.witness)) := by
  unfold Node.push
  by_cases hready : (s.nodes self).replicationPending = none ∧
      ((s.nodes self).replicationLog.length : ℤ) = (s.nodes self).committedPosition
  · have hgoes : ¬ ((s.nodes self).replicationPending.isSome = true ∨
        ((s.nodes self).replicationLog.length : ℤ) ≠ (s.nodes self).committedPosition) := by
      rw [hready.1]
      simpa using hready.2
    rw [if_neg hgoes, if_pos hready]
    by_cases hbehind : (s.nodes c.witness).committedPosition < (s.nodes self).committedPosition
    · rw [if_pos hbehind] at hpush ⊢
      have hsynced := follows_sync app keys boot hfree hne hpush
      cases pushed with
      | false =>
        unfold Settles
        rw [Bool.false_and, if_neg Bool.false_ne_true, Function.update_eq_self]
        exact hsynced
      | true =>
        have hboth : Function.update (Function.update s.nodes self (s.nodes self)) c.witness w =
            Function.update s.nodes c.witness w := by rw [Function.update_eq_self]
        refine .of_follows hne (hboth.symm ▸ hsynced) fun s' hidle hnode hwitness => ?_
        rw [← hnode, ← hwitness, Bool.true_and]
        exact settles_confirm now (hidle.free hself) (hidle.free hfree) hne
    · rw [if_neg hbehind] at hpush ⊢
      obtain ⟨rfl, rfl⟩ := Prod.mk.inj hpush
      rw [Bool.true_and]
      exact settles_confirm now hself hfree hne
  · have hstays : (s.nodes self).replicationPending.isSome = true ∨
        ((s.nodes self).replicationLog.length : ℤ) ≠ (s.nodes self).committedPosition := by
      rw [← Option.ne_none_iff_isSome]
      tauto
    rw [if_pos hstays, if_neg hready]
    exact settles_of_stop (.refl ..)

variable (app keys boot) in
/-- The candidate after `_sync_from_peer`. -/
lemma follows_fetch (remote : ℤ) (hself : s.free self = true) (hfree : s.free c.witness = true)
    (hne : self ≠ c.witness) {fetched : Bool} {n : Node A μ}
    (hfetch : Node.fetch app keys self (s.nodes c.witness) (s.nodes self) = (fetched, n)) :
    Follows app keys boot s self c ((s.nodes self).pull remote 10) (Function.update s.nodes self n)
      (if fetched then n.push remote else .stop) := by
  have hturns : Fetches app keys boot s self c ((s.nodes self).pull remote 10)
      (Node.sync app keys self Node.saving (s.nodes c.witness)) ⟨s.nodes self, []⟩
      fun n => n.push remote :=
    fetches_turns (u := ⟨s.nodes self, []⟩) remote 10 hself hfree hne rfl
  unfold Node.fetch at hfetch
  unfold Fetches Ends at hturns
  split at hfetch
  · next hsync =>
    obtain ⟨rfl, rfl⟩ := Prod.mk.inj hfetch
    rw [hsync] at hturns
    exact hturns
  · next hsync =>
    obtain ⟨rfl, rfl⟩ := Prod.mk.inj hfetch
    rw [hsync] at hturns
    exact hturns

/-- **What follows if nothing is left to fetch.** -/
lemma settles_fetched (now : ℤ) (hself : s.free self = true) (hfree : s.free c.witness = true)
    (hne : self ≠ c.witness) {fetched reconciled : Bool} {n w : Node A μ}
    (hreconcile : (if fetched = true ∧ (s.nodes self).replicationPending = none ∧
        ((s.nodes self).replicationLog.length : ℤ) = (s.nodes self).committedPosition then
      let (pushed, w₁) :=
        if (s.nodes c.witness).committedPosition < (s.nodes self).committedPosition then
          Node.syncHistory app keys c.witness (s.nodes self) (s.nodes c.witness)
        else (true, s.nodes c.witness)
      (pushed && Node.confirms app w₁ (s.nodes self), s.nodes self, w₁)
    else (false, s.nodes self, s.nodes c.witness)) = (reconciled, n, w)) :
    Settles app keys boot s self c
      (if fetched then (s.nodes self).push (s.nodes c.witness).committedPosition else .stop)
      (if reconciled then Node.elect app keys self c.witness c.tick now n w else (n, w)) := by
  cases fetched with
  | false =>
    obtain ⟨rfl, rfl, rfl⟩ : false = reconciled ∧ s.nodes self = n ∧ s.nodes c.witness = w := by
      simpa using hreconcile
    exact settles_of_stop (.refl ..)
  | true =>
    obtain ⟨pushed, w₁, hpush⟩ : ∃ pushed w₁,
        (if (s.nodes c.witness).committedPosition < (s.nodes self).committedPosition then
          Node.syncHistory app keys c.witness (s.nodes self) (s.nodes c.witness)
        else (true, s.nodes c.witness)) = (pushed, w₁) := ⟨_, _, rfl⟩
    have hpushed := settles_push app keys boot now hself hfree hne hpush
    rw [hpush] at hreconcile
    by_cases hready : (s.nodes self).replicationPending = none ∧
        ((s.nodes self).replicationLog.length : ℤ) = (s.nodes self).committedPosition
    · rw [if_pos hready] at hpushed
      rw [if_pos ⟨rfl, hready⟩] at hreconcile
      obtain ⟨rfl, rfl, rfl⟩ : (pushed && Node.confirms app w₁ (s.nodes self)) = reconciled ∧
          s.nodes self = n ∧ w₁ = w := by simpa using hreconcile
      exact hpushed
    · rw [if_neg hready] at hpushed
      rw [if_neg fun h => hready h.2] at hreconcile
      obtain ⟨rfl, rfl, rfl⟩ : false = reconciled ∧ s.nodes self = n ∧ s.nodes c.witness = w := by
        simpa using hreconcile
      exact hpushed

variable (app keys boot) in
/-- **A candidate reconciles itself with its witness**, and collects its vote. -/
lemma settles_reconcile (now : ℤ) (hself : s.free self = true) (hfree : s.free c.witness = true)
    (hne : self ≠ c.witness) {reconciled : Bool} {n w : Node A μ}
    (hreconcile : Node.reconcile app keys self c.witness (s.nodes self) (s.nodes c.witness) =
      (reconciled, n, w)) :
    Settles app keys boot s self c (.ask .position .locating)
      (if reconciled then Node.elect app keys self c.witness c.tick now n w else (n, w)) := by
  have hask : ∀ j, (∀ k, (s.nodes self).proceed app keys self c.tick 0
      (if (s.nodes c.witness).leadership.leader = c.witness then none
        else some (.position (s.nodes c.witness).committedPosition)) (.locating k) = j) →
      Follows app keys boot s self c (.ask .position .locating) s.nodes j :=
    fun j hj => .query hfree (fun _ => rfl) 0 hne rfl fun fresh k => hj k
  rw [Node.reconcile] at hreconcile
  by_cases hleads : (s.nodes c.witness).leadership.leader = c.witness
  · rw [if_pos hleads] at hask hreconcile
    obtain ⟨rfl, rfl, rfl⟩ : false = reconciled ∧ s.nodes self = n ∧ s.nodes c.witness = w := by
      simpa using hreconcile
    exact settles_of_stop (hask _ fun _ => rfl)
  · rw [if_neg hleads] at hask hreconcile
    by_cases hbehind : (s.nodes self).committedPosition < (s.nodes c.witness).committedPosition
    · rw [if_pos hbehind] at hreconcile
      refine .of_query (hask _ fun _ => if_pos hbehind) fun s' hidle hnodes => ?_
      obtain ⟨fetched, n₁, hfetch⟩ : ∃ fetched n₁,
          Node.fetch app keys self (s.nodes c.witness) (s.nodes self) = (fetched, n₁) := ⟨_, _, rfl⟩
      rw [hfetch] at hreconcile
      have hsame : s'.nodes self = s.nodes self := congrFun hnodes self
      rw [← hnodes] at hfetch
      have hfetched := follows_fetch app keys boot
        (s.nodes c.witness).committedPosition (hidle.free hself) (hidle.free hfree) hne hfetch
      have hboth : Function.update (Function.update s'.nodes self n₁) c.witness (s.nodes c.witness) =
          Function.update s'.nodes self n₁ :=
        Function.update_eq_self_iff.mpr (by rw [Function.update_of_ne hne.symm, hnodes])
      rw [← hboth, hsame] at hfetched
      refine .of_follows hne hfetched fun u hidle' hnode hwitness => ?_
      rw [← hnode, ← hwitness] at hreconcile ⊢
      exact settles_fetched now ((hidle.trans hidle').free hself) ((hidle.trans hidle').free hfree)
        hne hreconcile
    · rw [if_neg hbehind] at hreconcile
      have hnext : ∀ k, (s.nodes self).proceed app keys self c.tick 0
          (some (.position (s.nodes c.witness).committedPosition)) (.locating k) =
          if (s.nodes self).replicationPending.isNone then
            (s.nodes self).push (s.nodes c.witness).committedPosition else .stop := by
        intro k
        refine (if_neg hbehind).trans ?_
        cases (s.nodes self).replicationPending <;> rfl
      refine .of_query (hask _ hnext) fun s' hidle hnodes => ?_
      rw [← hnodes] at hreconcile ⊢
      exact settles_fetched now (hidle.free hself) (hidle.free hfree) hne hreconcile

omit [DecidableEq μ] in
/-- The clock is started, if it has not been. -/
lemma leadership_startClock (n : Node A μ) (tick : ℤ) :
    (after (Node.startClock true tick) n).leadership = { n.leadership with
      lastHeartbeatTick := if n.leadership.lastHeartbeatTick = 0 then tick
        else n.leadership.lastHeartbeatTick } := by
  refine after_iff (P := fun m : Node A μ => m.leadership = _).mpr ?_
  unfold Node.startClock
  rw [ends_bind, ends_get]
  split_ifs with hzero
  · refine Node.ends_modify_save.mpr ⟨fun _ => ?_, fun hnot => absurd (Node.canSave_true _) hnot⟩
    exact congrArg (fun m : Saved A μ => m.leadership) (Node.toSaved_saved _)
  · rfl

variable (app keys boot) in
/-- **A node becomes a candidate**, when its leader has been silent and its witness is the third
node: it asks for the position of its witness. -/
lemma step_stand {witness : Role} {tick : ℤ} (hidle : s.candidacies self = none)
    (hnext : (s.nodes self).leadership.leader.successor? = some self)
    (hstarted : (s.nodes self).leadership.lastHeartbeatTick ≠ 0)
    (hsilent : (s.nodes self).leadership.timeoutTicks ≤
      tick - (s.nodes self).leadership.lastHeartbeatTick)
    (hlast : (s.nodes self).leadership.leader ≠ .tertiary)
    (hwitness : Role.witness? (s.nodes self).leadership.leader self = some witness) :
    step app keys boot s (.stand self tick) =
      some (s.ask self ⟨tick, witness, .locating 0⟩ .position .locating) := by
  have hcandidate : (s.candidacies self).isNone = true := by
    rw [hidle]
    rfl
  simp only [step, stand, hcandidate, hnext, hsilent, hwitness, ne_eq, hstarted, hlast,
    not_false_eq_true, and_self, guard_true]
  rfl

omit [DecidableEq μ] in
/-- A clock that shows that the leader has been silent has been started. -/
lemma ne_zero_of_silent {n n₀ : Node A μ} {tick : ℤ}
    (hleadership : n₀.leadership = { n.leadership with
      lastHeartbeatTick := if n.leadership.lastHeartbeatTick = 0 then tick
        else n.leadership.lastHeartbeatTick })
    (hclock : n.leadership.lastHeartbeatTick ≠ 0 ∨ 0 < n.leadership.timeoutTicks)
    (hsilent : n₀.leadership.timeoutTicks ≤ tick - n₀.leadership.lastHeartbeatTick) :
    n₀.leadership.lastHeartbeatTick ≠ 0 := by
  rw [hleadership] at hsilent ⊢
  dsimp only at hsilent ⊢
  split_ifs at hsilent ⊢ with hzero
  · have hpositive := hclock.resolve_left (not_not_intro hzero)
    omega
  · exact hzero

/-- **A step of a candidate.** From every state of the cluster in which the locks of a node and of
its witness are free, and the node is no candidate yet, a run leads to what `Node.takeOver` makes of
the two nodes.

**Proof sketch.** The node starts its clock, if it has to, and becomes a candidate. The witness
serves every call at once, and each result is received before the next call. -/
theorem reaches_takeOver {witness : Role} {tick now : ℤ} {n w : Node A μ}
    (hself : s.free self = true) (hfree : s.free witness = true) (hidle : s.candidacies self = none)
    (hclock : (s.nodes self).leadership.lastHeartbeatTick ≠ 0 ∨
      0 < (s.nodes self).leadership.timeoutTicks)
    (hwitness : Role.witness? (s.nodes self).leadership.leader self = some witness)
    (htake : Node.takeOver app keys self tick now (s.nodes self) (s.nodes witness) = (n, w)) :
    ∃ t, s.Idle t ∧ t.nodes = Function.update (Function.update s.nodes self n) witness w ∧
      Reaches (step app keys boot) s t := by
  have hne : self ≠ witness := by
    revert hwitness
    cases (s.nodes self).leadership.leader <;> cases self <;> cases witness <;> decide
  have hleadership := leadership_startClock (s.nodes self) tick
  rw [Node.takeOver] at htake
  dsimp only at htake
  have hperform : step app keys boot s (.perform self (.startClock tick)) =
      some (s.become self (after (Node.startClock true tick) (s.nodes self))) :=
    if_pos (by rw [hself, Bool.true_or])
  generalize after (Node.startClock true tick) (s.nodes self) = n₀ at hleadership htake hperform
  have hstarted : (s.become self n₀).nodes self = n₀ := Function.update_self ..
  have hpeer : (s.become self n₀).nodes witness = s.nodes witness :=
    Function.update_of_ne hne.symm _ _
  have hleader : n₀.leadership.leader = (s.nodes self).leadership.leader := by rw [hleadership]
  split_ifs at htake with hstays
  · obtain ⟨rfl, rfl⟩ := Prod.mk.inj htake
    refine ⟨s.become self n₀, ⟨rfl, rfl, rfl⟩, ?_, .head hperform (.refl _)⟩
    exact (Function.update_eq_self_iff.mpr hpeer.symm).symm
  · rw [hleader, hwitness] at htake
    dsimp only at htake
    obtain ⟨reconciled, n₁, w₁, hreconcile⟩ : ∃ reconciled n₁ w₁,
        Node.reconcile app keys self witness n₀ (s.nodes witness) = (reconciled, n₁, w₁) :=
      ⟨_, _, _, rfl⟩
    rw [hreconcile] at htake
    obtain ⟨hlast, hnext, hsilent⟩ : n₀.leadership.leader ≠ .tertiary ∧
        n₀.leadership.leader.successor? = some self ∧
        n₀.leadership.timeoutTicks ≤ tick - n₀.leadership.lastHeartbeatTick := by
      simpa [not_or] using hstays
    have hstand : step app keys boot (s.become self n₀) (.stand self tick) =
        some ((s.become self n₀).ask self ⟨tick, witness, .locating 0⟩ .position .locating) := by
      refine step_stand app keys boot hidle ?_ ?_ ?_ ?_ ?_
      all_goals rw [hstarted]
      · exact hnext
      · exact ne_zero_of_silent hleadership hclock hsilent
      · exact hsilent
      · exact hlast
      · exact hleader ▸ hwitness
    rw [← hstarted, ← hpeer] at hreconcile
    have hsettled := settles_reconcile app keys boot
      (c := ⟨tick, witness, .locating 0⟩) now (s := s.become self n₀) hself hfree hne hreconcile
    obtain ⟨s', hlast, hnodes, hmoves⟩ := hsettled
    obtain ⟨u, hu, hreach⟩ := hmoves (s'.stop self) ⟨_, rfl, .refl _⟩
    obtain rfl := Option.some.inj hu
    refine ⟨s'.stop self, ⟨hlast.tasks, hlast.waiting, ?_⟩, ?_,
      .head hperform (.head hstand hreach)⟩
    · show Function.update s'.candidacies self none = s.candidacies
      rw [hlast.candidacies]
      exact Function.update_eq_self_iff.mpr hidle.symm
    · show s'.nodes = _
      rw [hnodes]
      have hpair : (if reconciled = true then
          Node.elect app keys self witness tick now n₁ w₁ else (n₁, w₁)) = (n, w) := htake
      dsimp only
      rw [hpair]
      show Function.update (Function.update (Function.update s.nodes self n₀) self n) witness w = _
      rw [Function.update_idem]

end Candidate

/-! ## What the survivors reach -/

section Runs

variable {py : PyLib ℤ} {keys : Keyring (Request ℤ)} {boot : Role → Application ℤ}
  {hasStore : Role → Bool} {s : LiveCluster (Application ℤ) (Request ℤ)}
  {es : List (ClusterEvent (Application ℤ) (Request ℤ))} {self witness leader : Role} {tick now : ℤ}
  {start : Ledger ℤ}

/-- **The successor becomes the leader.** When it and the other survivor are free, and no prepared
record is in the way, the cluster can go on to a state in which both follow it, with one log. -/
theorem reaches_leader (h : PlainRun py keys boot hasStore start es s)
    (habandoned : s.Abandoned leader self witness tick now)
    (hactive : ∀ r, r = self ∨ r = witness → Transition.Meets (Ledger.replay py)
      (Ledger.SparesActive py) start (s.nodes r).mutations)
    (hclear : (s.nodes self).Clear (s.nodes witness)) (hself : s.free self = true)
    (hfree : s.free witness = true) (hidle : s.candidacies self = none) :
    ∃ t, Reaches (step (ledgerApp py) keys boot) s t ∧
      (∀ r, r = self ∨ r = witness → (t.nodes r).leadership.leader = self) ∧
      t.log witness = t.log self ∧ s.log self <+: t.log self ∧ s.log witness <+: t.log self := by
  have hthird : Role.witness? (s.nodes self).leadership.leader self = some witness := by
    rw [habandoned.term self (.inl rfl)]
    exact habandoned.witness
  have hne : self ≠ witness := habandoned.roles.2.1.symm
  obtain ⟨n, w, htake⟩ : ∃ n w, Node.takeOver (ledgerApp py) keys self tick now (s.nodes self)
      (s.nodes witness) = (n, w) := ⟨_, _, rfl⟩
  obtain ⟨t, -, hnodes, hreach⟩ := reaches_takeOver hself hfree hidle
    (.inl habandoned.started) hthird htake
  have hresumed : Resumed py keys start s self witness n w :=
    (habandoned.settles h hactive htake).elim And.right fun hstays => absurd hclear hstays.1
  have hcandidate : t.nodes self = n := by
    rw [hnodes, Function.update_of_ne hne, Function.update_self]
  have hwitness : t.nodes witness = w := by
    rw [hnodes, Function.update_self]
  have hlog : t.log self = n.replicationLog := by rw [log, hcandidate]
  refine ⟨t, hreach, ?_, ?_, hlog ▸ hresumed.kept⟩
  · rintro r (rfl | rfl)
    · rw [hcandidate, hresumed.leaders.1]
    · rw [hwitness, hresumed.leaders.2]
  · rw [hlog, log, hwitness, hresumed.logs]

end Runs

end LiveCluster

end SplitChain
