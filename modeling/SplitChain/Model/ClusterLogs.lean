import SplitChain.Model.ClusterOrigins

set_option relaxedAutoImplicit false
set_option autoImplicit false

/-!
# The logs of the cluster

What every run of the cluster keeps: no log has a gap or an envelope that its signer has not
committed, and what a client has been told to be committed is in the log of every later leader. The
logs agree as long as every committed envelope is held by a second node.

## Main definitions

* `SplitChain.LiveCluster.Holds` — a node has an envelope in its log, or as its prepared record.
* `SplitChain.LiveCluster.Keeps` — a step takes no committed envelope away from its last holder.
* `SplitChain.LiveCluster.Agree` — of two logs, one continues the other.

## Main results

* `SplitChain.LiveCluster.logs_complete` — the logs of every run.
* `SplitChain.LiveCluster.acknowledged_kept` — what a client has been told.
* `SplitChain.LiveCluster.logs_agree` — agreement.
-/

namespace SplitChain

open Raise Proc

variable {A μ ρ : Type}

namespace LiveCluster

variable {app : App A μ ρ} {keys : Keyring μ} {boot : Role → A} {s t u : LiveCluster A μ}
  {self r : Role} {e : Envelope μ}

/-! ## Elections -/

/-- **Who has reached a term.** Where a node has reached it that does not decide its election, or
that has gone on to the next one, the witness and the winner of the election have reached it. -/
lemma Recorded.reached (h : s.Recorded) {i : ℕ} (hr : i < (s.certificates r).length)
    (hbeyond : r ≠ electionWitness i ∨ i + 1 < (s.certificates r).length) :
    i < (s.certificates (electionWitness i)).length ∧
      i < (s.certificates (electionWinner i)).length := by
  have hheld : ∀ {j r}, j < (s.certificates r).length →
      j < (s.certificates (electionWitness j)).length := fun hj =>
    (List.getElem?_eq_some_iff.mp (h.elected.held _ _ _ (List.getElem?_eq_getElem hj))).1
  refine ⟨hheld hr, ?_⟩
  by_cases hwitness : r = electionWitness i
  · -- the witness of the next election has adopted both certificates
    have hnext := hbeyond.resolve_left (not_not.mpr hwitness)
    have hbound := hnext.trans_le (h.length_certificates_le r)
    obtain rfl : i = 0 := by omega
    exact h.followed .primary 0 ((Nat.zero_lt_one).trans (hheld hnext)) (by decide)
  · exact h.followed r i hr hwitness

/-- A node is the signer of what it has signed, by its place. -/
lemma Recorded.index_signer (h : s.Recorded) {i : ℕ} (he : (s.log r)[i]? = some e) :
    (signer (s.certificates r) (i + 1)).index = e.leader.index :=
  congrArg Role.index (h.signed r i e he).symm

/-! ## A small cluster -/

section Example

/-- Keys that sign with what they sign. -/
def plainKeys : Keyring Unit where
  replication := {
    signature := fun leader nonce _ => leader.value ++ toString nonce
    verifies := fun leader nonce _ signature => signature == leader.value ++ toString nonce
    verifies_signature := fun _ _ _ => beq_self_eq_true _ }
  failover := {
    sign := fun role ballot => role.value ++ toString ballot.term
    verify := fun role ballot signature => signature == role.value ++ toString ballot.term
    signPulse := fun role pulse => role.value ++ toString pulse.nonce
    verifyPulse := fun role pulse signature => signature == role.value ++ toString pulse.nonce
    digest := fun nonce leader term _ => leader.value ++ toString term ++ toString nonce
    verify_sign := fun _ _ => beq_self_eq_true _
    verify_signPulse := fun _ _ => beq_self_eq_true _ }

/-- An application that counts its mutations. -/
def countingApp : App ℕ Unit Unit where
  apply _ := modify (· + 1)
  trial _ := pure ()
  wellFormed _ := true
  digest count := toString count
  load := pure

/-- The first envelope of a leader. -/
def firstEnvelope (leader : Role) : Envelope Unit :=
  ⟨leader, 1, (), plainKeys.replication.signature leader 1 ()⟩

/-- The vote of a role for the Secondary, at a position. -/
def secondaryBallot (position : ℤ) (voter : Role) : FailureVote := plainKeys.failover.vote {
  voter := voter
  term := 1
  accused := .primary
  candidate := .secondary
  observedTick := 13
  committedNonce := position }

/-- The Primary offers an envelope, and the Tertiary prepares it. -/
def preparation : List (ClusterEvent ℕ Unit) :=
  [.submit .primary (some ()),
    .start .primary 0,
    .handle 1 0,
    .resume .primary .tertiary (some (.position 0)),
    .handle 2 0,
    .resume .primary .tertiary (some .prepared),
    .resume .primary .secondary none]

/-- The Primary commits it. -/
def replication : List (ClusterEvent ℕ Unit) := preparation ++ [.decide .primary]

/-- The Tertiary confirms it, and the Primary answers its client. -/
def confirmation : List (ClusterEvent ℕ Unit) :=
  [.handle 4 0, .finish .primary false true]

/-- The clocks of the followers start. -/
def clocks : List (ClusterEvent ℕ Unit) :=
  [.perform .secondary (.startClock 10), .perform .tertiary (.startClock 10)]

/-- The Secondary stands for election, and takes the envelope from the Tertiary. -/
def catchUp : List (ClusterEvent ℕ Unit) :=
  [.stand .secondary 13,
    .handle 5 13,
    .proceed .secondary (some (.position 1)),
    .handle 6 13,
    .proceed .secondary (some (.history ⟨1, [firstEnvelope .primary], "1"⟩)),
    .proceed .secondary none,
    .proceed .secondary none,
    .proceed .secondary none,
    .handle 7 13,
    .proceed .secondary (some (.history ⟨1, [], "1"⟩)),
    .handle 8 13,
    .proceed .secondary (some (.history ⟨1, [], "1"⟩))]

/-- The start of the small cluster. -/
def smallCluster : LiveCluster ℕ Unit := initial (fun _ => 0) fun _ => true

/-- A run of the small cluster. -/
def smallRun : LiveCluster ℕ Unit → List (ClusterEvent ℕ Unit) → Option (LiveCluster ℕ Unit) :=
  Transition.run (step countingApp plainKeys fun _ => 0)

/-- The Tertiary votes for it, and records its certificate. -/
def election : List (ClusterEvent ℕ Unit) :=
  [.proceed .secondary none,
    .handle 10 13,
    .proceed .secondary (some (.vote (secondaryBallot 1 .tertiary))),
    .handle 11 13,
    .proceed .secondary (some .recorded)]

end Example

/-! ## Complete logs -/

variable [DecidableEq μ]

/-- What a leader has committed, and what it offers, is signed with its key. -/
structure Signed (keys : Keyring μ) (s : LiveCluster A μ) : Prop where
  log : ∀ r, ∀ e ∈ s.log r, e.leader = r →
    e.signature = keys.replication.signature e.leader e.nonce e.mutation
  tasks : ∀ r e transfers, s.tasks r = some (.transferring (some e) transfers) →
    e.signature = keys.replication.signature e.leader e.nonce e.mutation

/-- Every step keeps the signatures. -/
lemma Signed.step {event : ClusterEvent A μ} (h : Signed keys s) (hs : s.Sound)
    (hstep : s.step app keys boot event = some t) : Signed keys t := by
  have horigins := (step_origins hs hstep).2
  refine ⟨fun r e he hleader => ?_, fun r e transfers htask => ?_⟩
  · rcases horigins.own r e he hleader with hold | ⟨-, transfers, htask, -⟩
    · exact h.log r e hold hleader
    · exact h.tasks r e transfers htask
  · rcases horigins.tasks r _ htask with hold | hsources
    · exact h.tasks r e transfers hold
    · rcases hsources e rfl with ⟨transfers', hold⟩ | ⟨-, rfl, hsignature⟩
      · exact h.tasks r e transfers' hold
      · exact hsignature

/-- An envelope is not in the log of its signer, and the signer is not about to commit it. -/
structure Absent (e : Envelope μ) (s : LiveCluster A μ) : Prop where
  log : e ∉ s.log e.leader
  offered : ∀ transfers, s.tasks e.leader ≠ some (.transferring (some e) transfers)
  cleared : s.tasks e.leader ≠ some (.clearing (some e.mutation))
  waiting : some e.mutation ∉ s.waiting e.leader

/-- **An envelope stays absent** until its request is submitted. -/
lemma Absent.step {event : ClusterEvent A μ} (h : Absent e s) (hs : s.Sound)
    (hevent : event ≠ .submit e.leader (some e.mutation))
    (hstep : s.step app keys boot event = some t) : Absent e t := by
  have horigins := (step_origins hs hstep).2
  refine ⟨fun he => ?_, fun transfers htask => ?_, fun htask => ?_, fun hwork => ?_⟩
  · rcases horigins.own _ e he rfl with hold | ⟨-, transfers, htask, -⟩
    · exact h.log hold
    · exact h.offered transfers htask
  · rcases horigins.tasks _ _ htask with hold | hsources
    · exact h.offered transfers hold
    · rcases hsources e rfl with ⟨transfers', hold⟩ | ⟨hclearing | hwaiting, -⟩
      · exact h.offered transfers' hold
      · exact h.cleared hclearing
      · exact h.waiting hwaiting
  · rcases horigins.tasks _ _ htask with hold | hclearing | hwaiting
    · exact h.cleared hold
    · exact h.cleared hclearing
    · exact h.waiting hwaiting
  · rcases horigins.waiting _ _ hwork with hold | hsubmit
    · exact h.waiting hold
    · exact hevent hsubmit

/-- A run starts with the invariant and keeps it. -/
lemma sound_of_run {hasStore : Role → Bool} {es : List (ClusterEvent A μ)}
    (h : Transition.run (step app keys boot) (initial boot hasStore) es = some s) : s.Sound :=
  ((sound_initial boot hasStore).run h).1

/-- So does a run with the signatures. -/
lemma signed_of_run {hasStore : Role → Bool} {es : List (ClusterEvent A μ)}
    (h : Transition.run (step app keys boot) (initial boot hasStore) es = some s) :
    Signed keys s :=
  (Transition.run_induction (I := fun v : LiveCluster A μ => v.Sound ∧ Signed keys v)
    (fun _ _ _ hv hstep => ⟨(hv.1.step hstep).1, hv.2.step hv.1 hstep⟩)
    ⟨sound_initial boot hasStore, ⟨fun r e he => by simp [log, initial, Node.fresh] at he,
      fun r e transfers htask => by cases htask⟩⟩ h).2

/-- **No ghost commits.** In every run of the cluster, every log is as long as the position of its
node; the envelope at each place has the number of the place, is signed by the leader of its term,
and stands at the same place of the log of its signer. An envelope that its signer gives up is in no
log, unless its request is submitted once more.

**Proof sketch.** The first part is the invariant, with the signatures that a leader makes. A log
has an envelope only if the log of its signer has it, and the signer offers it only for a request.
-/
theorem logs_complete (app : App A μ ρ) (keys : Keyring μ) (boot : Role → A)
    (hasStore : Role → Bool) {es : List (ClusterEvent A μ)}
    (h : Transition.run (step app keys boot) (initial boot hasStore) es = some s) :
    (∀ r, ((s.log r).length : ℤ) = (s.nodes r).committedPosition ∧
      ∀ (i : ℕ) (e : Envelope μ), (s.log r)[i]? = some e →
        e.nonce = i + 1 ∧ e.leader = signer (s.certificates r) (i + 1) ∧
        e.signature = keys.replication.signature e.leader e.nonce e.mutation ∧
        (s.log e.leader)[i]? = some e) ∧
      ∀ (r : Role) (e : Envelope μ), s.tasks r = some (.abandoning e) →
        some e.mutation ∉ s.waiting r → ∀ (fs : List (ClusterEvent A μ)) (t : LiveCluster A μ),
          .submit r (some e.mutation) ∉ fs →
          Transition.run (step app keys boot) s fs = some t → ∀ x, e ∉ t.log x := by
  have hs := sound_of_run h
  have hsigned := signed_of_run h
  refine ⟨fun r => ⟨hs.length r, fun i e he => ⟨hs.numbered r i e he, hs.signed r i e he, ?_,
    hs.owned r i e he⟩⟩, fun r e htask hwaiting fs t hsubmit hrun x hx => ?_⟩
  · exact hsigned.log _ e (List.mem_of_getElem? (hs.owned r i e he)) rfl
  · obtain ⟨rfl, hnonce⟩ := hs.working r _ htask
    have habsent : Absent e s := by
      refine ⟨fun he => ?_, fun transfers hoffer => ?_, fun hclearing => ?_, hwaiting⟩
      · obtain ⟨i, hi⟩ := List.mem_iff_getElem?.mp he
        have hplace := hs.numbered _ i e hi
        have hlt := (List.getElem?_eq_some_iff.mp hi).1
        omega
      · rw [htask] at hoffer
        cases hoffer
      · rw [htask] at hclearing
        cases hclearing
    obtain ⟨ht, hlater⟩ := Transition.run_induction_of_meets
      (I := fun v : LiveCluster A μ => v.Sound ∧ Absent e v)
      (G := fun _ event => event ≠ .submit e.leader (some e.mutation))
      (fun _ _ _ hv hevent hstep => ⟨(hv.1.step hstep).1, hv.2.step hv.1 hevent hstep⟩)
      ⟨hs, habsent⟩ (Transition.meets_of_forall
        (G := fun event : ClusterEvent A μ => event ≠ .submit e.leader (some e.mutation))
        fun event hevent heq => hsubmit (heq ▸ hevent)) hrun
    obtain ⟨i, hi⟩ := List.mem_iff_getElem?.mp hx
    exact hlater.log (List.mem_of_getElem? (ht.owned x i e hi))

/-- A leader gives an envelope up. -/
def abandons (s : LiveCluster A μ) (self : Role) (e : Envelope μ) : Bool :=
  match s.tasks self with
  | some (.abandoning e') => decide (e' = e)
  | _ => false

lemma tasks_of_abandons (h : s.abandons self e = true) : s.tasks self = some (.abandoning e) := by
  unfold abandons at h
  split at h
  · rename_i htask
    rw [htask, of_decide_eq_true h]
  · cases h

/-- The second envelope of the Primary. -/
def secondEnvelope : Envelope Unit :=
  ⟨.primary, 2, (), plainKeys.replication.signature .primary 2 ()⟩

/-- The Tertiary prepares it, but the Primary gets no answer, and gives it up. -/
def surrender : List (ClusterEvent ℕ Unit) :=
  [.submit .primary (some ()),
    .start .primary 0,
    .handle 6 0,
    .resume .primary .tertiary (some (.position 1)),
    .handle 7 0,
    .resume .primary .tertiary none,
    .resume .primary .secondary none,
    .decide .primary]

/-- The first envelope is in two logs, and the second one, which the Tertiary has prepared, gets
into none when the Primary has given it up and the Tertiary hears of it. -/
theorem logs_complete_surrender :
    ∃ s t, smallRun smallCluster (replication ++ confirmation ++ surrender) = some s ∧
      (s.log .tertiary)[0]? = some (firstEnvelope .primary) ∧
      (s.log .primary)[0]? = some (firstEnvelope .primary) ∧
      (s.nodes .tertiary).replicationPending = some secondEnvelope ∧
      smallRun s [.abandoned .primary, .handle 9 0] = some t ∧ ∀ x, secondEnvelope ∉ t.log x := by
  have hrun : (smallRun smallCluster (replication ++ confirmation ++ surrender)).any (fun s =>
      decide ((s.log .tertiary)[0]? = some (firstEnvelope .primary) ∧
        (s.nodes .tertiary).replicationPending = some secondEnvelope ∧ s.waiting .primary = []) &&
      s.abandons .primary secondEnvelope &&
      (smallRun s [.abandoned .primary, .handle 9 0]).isSome) = true := by
    decide +kernel
  obtain ⟨s, hs, hstate⟩ := (Option.any_eq_true _ _).mp hrun
  rw [Bool.and_eq_true, Bool.and_eq_true] at hstate
  obtain ⟨⟨hholds, habandons⟩, hsome⟩ := hstate
  obtain ⟨hlog, hpending, hwaiting⟩ := of_decide_eq_true hholds
  obtain ⟨t, ht⟩ := Option.isSome_iff_exists.mp hsome
  obtain ⟨hplaced, hnever⟩ := logs_complete countingApp plainKeys (fun _ => 0) (fun _ => true) hs
  exact ⟨s, t, hs, hlog, ((hplaced .tertiary).2 0 _ hlog).2.2.2, hpending, ht,
    hnever .primary secondEnvelope (tasks_of_abandons habandons) (by simp [hwaiting]) _ t (by simp) ht⟩

/-! ## What a client has been told -/

omit [DecidableEq μ] in
/-- **An envelope that a second node has committed** is in the log of every later leader.

**Proof sketch.** The node that has committed it and the later leader have reached the term after
the signer's, and hold the same certificates up to it. So the position of the certificate that ends
the signer's term is not below the number of the envelope. The later leader has reached that
position, and what it has there is signed by the same node, which has one envelope there. -/
theorem Recorded.has_of_later (h : s.Recorded) {x y : Role} (hx : s.Has x e)
    (hother : x ≠ e.leader) (hy : (s.nodes y).leadership.leader = y)
    (hlater : e.leader.index < (s.certificates y).length) : s.Has y e := by
  obtain ⟨i, hi, hplace⟩ := hx
  have hown := h.index_of_leader hy
  have hbound := h.length_certificates_le y
  have hlast : e.leader ≠ .tertiary := by
    intro heq
    rw [heq] at hlater
    exact absurd hbound (not_le.mpr hlater)
  have htwo : e.leader.index < 2 := hlater.trans_le hbound
  -- both others have reached the next term
  obtain ⟨hwitness, hwinner⟩ := h.reached hlater (or_iff_not_imp_left.mpr fun heq =>
    Role.lt_of_electionWitness (not_not.mp heq) (hown ▸ hlater) hown.le)
  have hreached : e.leader.index < (s.certificates x).length := by
    rcases Role.eq_of_ne hother hlast with hx | hx
    · exact hx ▸ hwitness
    · exact hx ▸ hwinner
  have hagree : ∀ k ≤ e.leader.index, (s.certificates x)[k]? = (s.certificates y)[k]? :=
    fun k hk => h.elected.agree x y (hk.trans_lt hreached) (hk.trans_lt hlater)
  have hsigner := h.index_signer hplace
  have hsame := signer_congr hagree hsigner.le
  have hcertificate := List.getElem?_eq_getElem hlater
  have hposition := le_of_signer ((hagree _ le_rfl).trans hcertificate) htwo hsigner
  have hreach := hposition.trans (h.certified y _ (List.getElem_mem hlater))
  have hlt : i < (s.log y).length := by omega
  have he' := List.getElem?_eq_getElem hlt
  have hleader : (s.log y)[i].leader = e.leader := by
    rw [h.signed y i _ he', hsame, ← h.signed x i e hplace]
  have hsigned := h.owned y i _ he'
  rw [hleader, h.owned x i e hplace, Option.some.injEq] at hsigned
  exact ⟨i, hi, by rw [he', ← hsigned]⟩

/-- A leader waits for the confirmations of an envelope. -/
def confirms (s : LiveCluster A μ) (self : Role) (e : Envelope μ) (first second : ℕ) : Bool :=
  match s.tasks self with
  | some (.confirming e' first' second') =>
    decide (e' = e) && decide (first' = first) && decide (second' = second)
  | _ => false

lemma tasks_of_confirms {first second : ℕ} (h : s.confirms self e first second = true) :
    s.tasks self = some (.confirming e first second) := by
  unfold confirms at h
  split at h
  · rename_i htask
    rw [Bool.and_eq_true, Bool.and_eq_true] at h
    obtain ⟨⟨he, hfirst⟩, hsecond⟩ := h
    rw [htask, of_decide_eq_true he, of_decide_eq_true hfirst, of_decide_eq_true hsecond]
  · cases h

/-- **Durability of acknowledged writes.** In every run of the cluster, an envelope for which the
leader has answered its client stands at its place in the log of every node that leads a later term,
ever after.

**Proof sketch.** The answer needs the result of a commit, so a second node has the envelope in its
log, and keeps it. -/
theorem acknowledged_kept (app : App A μ ρ) (keys : Keyring μ) (boot : Role → A)
    (hasStore : Role → Bool) {es fs : List (ClusterEvent A μ)}
    (h : Transition.run (step app keys boot) (initial boot hasStore) es = some s)
    {first second : ℕ} (htask : s.tasks self = some (.confirming e first second))
    {toldFirst toldSecond : Bool} (htold : toldFirst = true ∨ toldSecond = true)
    (hfinish : s.step app keys boot (.finish self toldFirst toldSecond) = some t)
    (hlater : Transition.run (step app keys boot) t fs = some u) {y : Role}
    (hy : (u.nodes y).leadership.leader = y)
    (hterm : (s.nodes self).leadership.term < (u.nodes y).leadership.term) :
    ∃ n : ℕ, e.nonce = n + 1 ∧ (u.log y)[n]? = some e := by
  have hs := sound_of_run h
  obtain ⟨hleader, -, hfirst, hsecond⟩ := hs.working self _ htask
  have hconfirmed : ∀ (k : ℕ) (x : Role), s.packets[k]? = some ⟨self, x, .commit e⟩ →
      (k, .committed e.nonce) ∈ s.results → s.Has x e := by
    intro k x hk hmem
    obtain ⟨p, hp, hanswered⟩ := hs.answered k _ hmem
    rw [hk] at hp
    obtain rfl := Option.some.inj hp
    exact hanswered.2
  have hpeers : self.peers.1 ≠ self ∧ self.peers.2 ≠ self := by cases self <;> decide
  obtain ⟨x, hx, hhas⟩ : ∃ x, x ≠ self ∧ s.Has x e := by
    unfold LiveCluster.step at hfinish
    dsimp only at hfinish
    rw [htask] at hfinish
    dsimp only at hfinish
    split_ifs at hfinish with hall
    simp only [Bool.and_eq_true, Bool.or_eq_true, Bool.not_eq_true', decide_eq_true_eq] at hall
    rcases htold with rfl | rfl
    · exact ⟨_, hpeers.1, hconfirmed _ _ hfirst (hall.1.resolve_left Bool.true_eq_false_eq_False)⟩
    · exact ⟨_, hpeers.2, hconfirmed _ _ hsecond (hall.2.resolve_left Bool.true_eq_false_eq_False)⟩
  obtain ⟨ht, hgrows⟩ := hs.step hfinish
  obtain ⟨hu, hgrows'⟩ := ht.run hlater
  have hled := hs.led self (.inr (htask ▸ Option.some_ne_none _))
  refine hu.has_of_later (hhas.mono ((hgrows.trans hgrows').log x)) (hleader ▸ hx) hy ?_
  rw [(hs.ranked self).term, (hu.ranked y).term, Nat.cast_lt] at hterm
  rw [hleader]
  exact hled.trans_lt hterm

/-- The Secondary leads with the envelope for which the Primary has answered. -/
theorem acknowledged_kept_election :
    ∃ u, smallRun smallCluster (clocks ++ replication ++ confirmation ++ catchUp ++ election) =
        some u ∧ (u.nodes .secondary).leadership.leader = .secondary ∧
      ∃ n : ℕ, (firstEnvelope .primary).nonce = n + 1 ∧
        (u.log .secondary)[n]? = some (firstEnvelope .primary) := by
  have hrun : (smallRun smallCluster (clocks ++ replication ++ [.handle 4 0])).any (fun s =>
      s.confirms .primary (firstEnvelope .primary) 3 4 &&
        decide ((s.nodes .primary).leadership.term = 0) &&
        (s.step countingApp plainKeys (fun _ => 0) (.finish .primary false true)).any fun t =>
          (smallRun t (catchUp ++ election)).any fun u =>
            decide ((u.nodes .secondary).leadership.leader = .secondary ∧
              (u.nodes .secondary).leadership.term = 1)) = true := by
    decide +kernel
  obtain ⟨s, hs, hrest⟩ := (Option.any_eq_true _ _).mp hrun
  rw [Bool.and_eq_true, Bool.and_eq_true] at hrest
  obtain ⟨⟨htask, hterm⟩, hrest⟩ := hrest
  obtain ⟨t, ht, hrest⟩ := (Option.any_eq_true _ _).mp hrest
  obtain ⟨u, hu, hrest⟩ := (Option.any_eq_true _ _).mp hrest
  obtain ⟨hleader, hlater⟩ := of_decide_eq_true hrest
  refine ⟨u, ?_, hleader, ?_⟩
  · have hsplit : clocks ++ replication ++ confirmation ++ catchUp ++ election =
        (clocks ++ replication ++ [.handle 4 0]) ++ .finish .primary false true ::
          (catchUp ++ election) := rfl
    rw [hsplit]
    exact Transition.run_append_eq_some_iff.mpr ⟨s, hs, Transition.run_cons_eq_some_iff.mpr
      ⟨t, ht, hu⟩⟩
  · refine acknowledged_kept countingApp plainKeys (fun _ => 0) (fun _ => true) hs
      (tasks_of_confirms htask) (.inr rfl) ht hu hleader ?_
    rw [of_decide_eq_true hterm, hlater]
    exact Int.zero_lt_one

/-! ## Agreement -/

/-- A node holds an envelope: it has it in its log, or as its prepared record. -/
def Holds (s : LiveCluster A μ) (r : Role) (e : Envelope μ) : Prop :=
  (s.nodes r).replicationPending = some e ∨ e ∈ s.log r

/-- **Of two logs, one continues the other.** -/
def Agree (s : LiveCluster A μ) : Prop :=
  ∀ x y, s.log x <+: s.log y ∨ s.log y <+: s.log x

/-- Every envelope that its signer has committed is held by another node. -/
def Held (s : LiveCluster A μ) : Prop :=
  ∀ e, e ∈ s.log e.leader → ∃ r, r ≠ e.leader ∧ s.Holds r e

/-- A node adopts a certificate that it is shown: it is a new one, for the position of the node. -/
def Adopts (keys : Keyring μ) (s : LiveCluster A μ) (r : Role) (c : LeadershipCertificate) : Prop :=
  c.committedNonce = (s.nodes r).committedPosition ∧
    (s.nodes r).leadership.certificates.getLast? ≠ some c ∧
    ∃ leadership, (s.nodes r).leadership.acceptCertificate keys.failover c = .ok leadership

/-- **What takes its prepared record away from a node**: an abort of it is served, a certificate is
adopted, or the node clears it for work of its own. -/
def Takes (app : App A μ ρ) (keys : Keyring μ) (s : LiveCluster A μ) (r : Role) (e : Envelope μ) :
    ClusterEvent A μ → Prop
  | .handle k _ => ∃ p, s.packets[k]? = some p ∧ p.receiver = r ∧
    (p.call = .abort e ∨ ∃ c, p.call = .certificate c ∧ s.Adopts keys r c)
  | .proceed self result => self = r ∧ ∃ candidacy c, s.candidacies r = some candidacy ∧
    (s.nodes r).proceed app keys r candidacy.tick s.packets.length result candidacy.stage =
      .adopt c ∧ s.Adopts keys r c
  | .cleared self | .decide self | .abandoned self => self = r
  | _ => False

/-- **A step keeps what has been acknowledged**: the leader commits an envelope on the word of its
peers only while one of them holds it, and no step takes the prepared record away from the last
holder, the signer apart, of an envelope that its signer has committed. -/
structure Keeps (app : App A μ ρ) (keys : Keyring μ) (s : LiveCluster A μ)
    (event : ClusterEvent A μ) : Prop where
  committed : ∀ self e transfers, event = .decide self →
    s.tasks self = some (.transferring (some e) transfers) →
    (transfers self.peers.1 = .ended true ∨ transfers self.peers.2 = .ended true) →
    ∃ r, r ≠ self ∧ s.Holds r e
  dropped : ∀ r e, (s.nodes r).replicationPending = some e → e ∈ s.log e.leader →
    s.Takes app keys r e event → ∃ r', r' ≠ r ∧ r' ≠ e.leader ∧ s.Holds r' e

omit [DecidableEq μ] in
/-- A node that is as it was holds what it held. -/
lemma Holds.of_eq (h : s.Holds r e) (hnode : t.nodes r = s.nodes r) : t.Holds r e := by
  unfold Holds log
  rwa [hnode]

omit [DecidableEq μ] in
/-- A node that has kept its record has its prepared envelope. -/
lemma holds_of_turns {n : Node A μ} (hpending : (s.nodes r).replicationPending = some e)
    (hturns : (s.nodes r).Turns (s.nodes r).record n) (hnode : t.nodes r = n) : t.Holds r e :=
  .inl (hnode ▸ hturns.pending.trans hpending)

/-- Preparing keeps a prepared envelope. -/
lemma pending_prepareReplica {n : Node A μ} {e' : Envelope μ}
    (hpending : n.replicationPending = some e) :
    (after (Node.prepareReplica app keys self true e') n).replicationPending = some e := by
  refine after_iff (P := fun t : Node A μ => t.replicationPending = some e).mpr ?_
  rw [Node.ends_prepareReplica]
  refine ⟨fun _ _ => hpending, fun _ => ⟨fun _ => hpending, fun _ _ _ => hpending, fun hnone => ?_⟩⟩
  rw [hpending] at hnone
  cases hnone

/-- Committing keeps a prepared envelope, or moves it to the log. -/
lemma held_commitReplica {n : Node A μ} {e' : Envelope μ}
    (hpending : n.replicationPending = some e) :
    (after (Node.commitReplica app keys self true e') n).replicationPending = some e ∨
      e ∈ (after (Node.commitReplica app keys self true e') n).replicationLog := by
  refine after_iff (P := fun t : Node A μ => t.replicationPending = some e ∨
    e ∈ t.replicationLog).mpr ((Node.turns_commitReplica ..).mono ?_ fun _ _ hturns =>
      .inl (hturns.pending.trans hpending))
  rintro - t ⟨-, hsame, hturns⟩
  rw [hpending] at hsame
  obtain rfl := Option.some.inj hsame
  refine .inr ?_
  rw [hturns.log]
  exact List.mem_concat_self

/-- Aborting another envelope keeps the prepared one. -/
lemma pending_abortReplica {n : Node A μ} {e' : Envelope μ}
    (hpending : n.replicationPending = some e) (hne : e ≠ e') :
    (after (Node.abortReplica app keys self true e') n).replicationPending = some e :=
  after_iff (P := fun t : Node A μ => t.replicationPending = some e).mpr
    ((Node.turns_abortReplica ..).mono (fun _ _ h => absurd (h.2.1 e hpending) hne) fun _ _ h =>
      h.pending.trans hpending)

omit [DecidableEq μ] in
/-- A certificate that is not adopted leaves the prepared envelope. -/
lemma pending_recordCertificate {c : LeadershipCertificate}
    (hpending : (s.nodes r).replicationPending = some e) (hrefused : ¬ s.Adopts keys r c) :
    (after (Node.recordCertificate keys true c) (s.nodes r)).replicationPending = some e := by
  refine after_iff (P := fun t : Node A μ => t.replicationPending = some e).mpr
    (Node.turns_recordCertificate.mono ?_ fun _ _ h => by rw [h]; exact hpending)
  rintro - t (⟨rfl, -⟩ | ⟨hposition, hnew, ⟨leadership, haccept, -⟩, -⟩)
  · exact hpending
  · exact absurd ⟨hposition, hnew, leadership, haccept⟩ hrefused

/-- A node that serves a call holds its prepared envelope, unless the call takes it away. -/
lemma holds_serve {k : ℕ} {now : ℤ} {call : PeerCall μ}
    (hpending : (s.nodes r).replicationPending = some e)
    (h : s.serve app keys k r now call = some t) :
    t.Holds r e ∨ call = .abort e ∨ ∃ c, call = .certificate c ∧ s.Adopts keys r c := by
  have hserve : ∀ {α : Type} {x : EStateM PyError (Node A μ) α} {result : PeerResult μ},
      s.serveBy k r x result = some t → t.nodes r = after x (s.nodes r) := by
    intro α x result hx
    unfold LiveCluster.serveBy at hx
    split_ifs at hx
    · exact Option.some.inj hx ▸ Function.update_self ..
    · exact Option.some.inj hx ▸ Function.update_self ..
  unfold Holds log
  cases call with
  | prepare e' =>
    rw [hserve h]
    exact .inl (.inl (pending_prepareReplica hpending))
  | commit e' =>
    rw [hserve h]
    exact .inl (held_commitReplica hpending)
  | abort e' =>
    by_cases hsame : e = e'
    · exact .inr (.inl (hsame ▸ rfl))
    · rw [hserve h]
      exact .inl (.inl (pending_abortReplica hpending hsame))
  | certificate c =>
    by_cases hadopts : s.Adopts keys r c
    · exact .inr (.inr ⟨c, rfl, hadopts⟩)
    · rw [hserve h]
      exact .inl (.inl (pending_recordCertificate hpending hadopts))
  | position | history | leadership | timeoutVote =>
    unfold LiveCluster.serve at h
    dsimp only at h
    split_ifs at h
    obtain ⟨result, -, rfl⟩ := Option.map_eq_some_iff.mp h
    exact .inl (.inl hpending)

/-- A candidate holds its prepared envelope, unless it adopts a certificate. -/
lemma holds_move {candidacy : Candidacy μ} {intent : Intent μ}
    (hpending : (s.nodes r).replicationPending = some e)
    (h : s.move app keys r candidacy intent = some t) :
    t.Holds r e ∨ ∃ c, intent = .adopt c ∧ s.Adopts keys r c := by
  have hchange : ∀ {α : Type} {x : EStateM PyError (Node A μ) α} {stage : Stage μ},
      s.changeBy r candidacy x stage = some t → t.nodes r = after x (s.nodes r) := by
    intro α x stage hx
    unfold LiveCluster.changeBy at hx
    split_ifs at hx
    · exact Option.some.inj hx ▸ Function.update_self ..
    · exact Option.some.inj hx ▸ Function.update_self ..
  unfold Holds log
  cases intent with
  | stop => exact Option.some.inj h ▸ .inl (.inl hpending)
  | ask call stage => exact Option.some.inj h ▸ .inl (.inl hpending)
  | reach stage => exact Option.some.inj h ▸ .inl (.inl hpending)
  | prepare remote turns entry entries =>
    rw [hchange h]
    exact .inl (.inl (pending_prepareReplica hpending))
  | commit remote turns entry entries =>
    rw [hchange h]
    exact .inl (held_commitReplica hpending)
  | adopt c =>
    by_cases hadopts : s.Adopts keys r c
    · exact .inr ⟨c, rfl, hadopts⟩
    · unfold LiveCluster.move LiveCluster.adopt at h
      dsimp only at h
      split_ifs at h
      have hnode : t.nodes r = after (Node.recordCertificate keys true c) (s.nodes r) :=
        Option.some.inj h ▸ Function.update_self ..
      rw [hnode]
      exact .inl (.inl (pending_recordCertificate hpending hadopts))

/-- **A prepared envelope stays with its node**, or goes to its log, unless the step takes it away.

**Proof sketch.** One case for each event; a step that concerns another node leaves this one as it
is. -/
theorem holds_or_takes {event : ClusterEvent A μ} (h : s.Sound)
    (hstep : s.step app keys boot event = some t)
    (hpending : (s.nodes r).replicationPending = some e) :
    t.Holds r e ∨ s.Takes app keys r e event := by
  have hholds : s.Holds r e := .inl hpending
  have hlocal : ∀ role, s.Local t role → role ≠ r → t.Holds r e := fun role hlocal hne =>
    hholds.of_eq (hlocal.nodes r hne.symm)
  have hidle : t.nodes = s.nodes → t.Holds r e := fun hnodes => hholds.of_eq (congrFun hnodes r)
  cases event with
  | handle k now =>
    simp only [LiveCluster.step, Option.bind_eq_bind, Option.bind_eq_some_iff] at hstep
    obtain ⟨p, hp, hserve⟩ := hstep
    by_cases hr : p.receiver = r
    · exact (holds_serve hpending (hr ▸ hserve)).imp_right fun hcall => ⟨p, hp, hr, hcall⟩
    · exact .inl (hlocal _ (quiet_serve hserve).toLocal hr)
  | perform self background =>
    unfold LiveCluster.step at hstep
    dsimp only at hstep
    split_ifs at hstep
    obtain rfl := Option.some.inj hstep
    by_cases hr : self = r
    · subst hr
      exact .inl (holds_of_turns hpending (Node.turns_background background)
        (Function.update_self ..))
    · exact .inl (hholds.of_eq (Function.update_of_ne (Ne.symm hr) _ _))
  | tell self =>
    simp only [LiveCluster.step, Option.bind_eq_bind, Option.bind_eq_some_iff,
      Option.guard_eq_some', exists_const, Option.pure_def, Option.some.injEq] at hstep
    obtain ⟨-, certificate, -, rfl⟩ := hstep
    exact .inl (hidle rfl)
  | submit self work =>
    unfold LiveCluster.step at hstep
    dsimp only at hstep
    split_ifs at hstep
    exact .inl (hidle (Option.some.inj hstep ▸ rfl))
  | start self k =>
    simp only [LiveCluster.step, Option.bind_eq_bind, Option.bind_eq_some_iff,
      Option.guard_eq_some', exists_const, Option.pure_def, Option.some.injEq] at hstep
    obtain ⟨-, work, -, rfl⟩ := hstep
    by_cases hr : self = r
    · -- a record that is left is aborted first, in a later step
      subst hr
      unfold LiveCluster.start
      have hsame : ((s.setWaiting self ((s.waiting self).eraseIdx k)).nodes
          self).replicationPending = some e := hpending
      rw [hsame]
      exact .inl (.inl hpending)
    · have hnode := (start_spec app keys
        (s.setWaiting self ((s.waiting self).eraseIdx k)) self work).1.nodes r
          (Ne.symm hr)
      exact .inl (hholds.of_eq hnode)
  | cleared self =>
    by_cases hr : self = r
    · exact .inr hr
    · unfold LiveCluster.step at hstep
      dsimp only at hstep
      split at hstep
      · obtain rfl := Option.some.inj hstep
        refine .inl (hholds.of_eq ?_)
        exact ((begin_spec ..).1.nodes r (Ne.symm hr)).trans
          (Function.update_of_ne (Ne.symm hr) _ _)
      · cases hstep
  | resume self peer result =>
    unfold LiveCluster.step at hstep
    dsimp only at hstep
    split at hstep
    · split_ifs at hstep
      split at hstep
      · exact .inl (hidle (Option.some.inj hstep ▸ rfl))
      · exact .inl (hidle (Option.some.inj hstep ▸ rfl))
    · cases hstep
  | decide self =>
    by_cases hr : self = r
    · exact .inr hr
    · unfold LiveCluster.step at hstep
      dsimp only at hstep
      split at hstep
      · split at hstep
        · obtain rfl := Option.some.inj hstep
          exact .inl (hholds.of_eq ((conclude_spec ..).1.nodes r (Ne.symm hr)))
        · cases hstep
      · cases hstep
  | abandoned self =>
    by_cases hr : self = r
    · exact .inr hr
    · unfold LiveCluster.step at hstep
      dsimp only at hstep
      split at hstep
      · obtain rfl := Option.some.inj hstep
        exact .inl (hholds.of_eq (Function.update_of_ne (Ne.symm hr) _ _))
      · cases hstep
  | finish self first second =>
    unfold LiveCluster.step at hstep
    dsimp only at hstep
    split at hstep
    · split_ifs at hstep
      exact .inl (hidle (Option.some.inj hstep ▸ rfl))
    · cases hstep
  | stand self tick =>
    simp only [LiveCluster.step, LiveCluster.stand, Option.bind_eq_bind, Option.bind_eq_some_iff,
      Option.guard_eq_some', exists_const, Option.pure_def, Option.some.injEq] at hstep
    obtain ⟨-, -, -, witness, -, rfl⟩ := hstep
    exact .inl (hidle rfl)
  | proceed self result =>
    simp only [LiveCluster.step, Option.bind_eq_bind, Option.bind_eq_some_iff,
      Option.guard_eq_some', exists_const] at hstep
    obtain ⟨candidacy, hcandidacy, -, hmove⟩ := hstep
    by_cases hr : self = r
    · subst hr
      refine (holds_move hpending hmove).imp_right ?_
      rintro ⟨c, hintent, hadopts⟩
      exact ⟨rfl, candidacy, c, hcandidacy, hintent, hadopts⟩
    · exact .inl (hlocal _ (quiet_move hmove).toLocal hr)
  | crash self =>
    simp only [LiveCluster.step, Option.bind_eq_bind, Option.bind_eq_some_iff, Option.pure_def,
      Option.some.injEq] at hstep
    obtain ⟨n, hn, rfl⟩ := hstep
    by_cases hr : self = r
    · subst hr
      have hrecord := congrArg (fun record => record.2.2) ((h.kept self).reboot hn).1
      refine .inl (.inl ?_)
      show (Function.update s.nodes self n self).replicationPending = some e
      rw [Function.update_self]
      exact hrecord.trans hpending
    · exact .inl (hholds.of_eq (Function.update_of_ne (Ne.symm hr) _ _))

/-- **Committed envelopes stay held.** -/
lemma Held.step {event : ClusterEvent A μ} (h : s.Held) (hs : s.Sound)
    (hkeeps : Keeps app keys s event) (hstep : s.step app keys boot event = some t) :
    t.Held := by
  obtain ⟨⟨role, hlocal⟩, horigins⟩ := step_origins hs hstep
  have hgrows := (hs.step hstep).2
  have hsame : ∀ r e, r ≠ role → s.Holds r e → t.Holds r e := fun r e hr hholds =>
    hholds.of_eq (hlocal.nodes r hr)
  intro e he
  by_cases hold : e ∈ s.log e.leader
  · obtain ⟨r, hr, hholds⟩ := h e hold
    by_cases hkept : t.Holds r e
    · exact ⟨r, hr, hkept⟩
    · -- the step has taken the prepared record away from this node, and from no other one
      have hrole : r = role := by_contra fun hne => hkept (hsame r e hne hholds)
      have hpending : (s.nodes r).replicationPending = some e := hholds.resolve_right
        fun hmem => hkept (.inr ((hgrows.log r).subset hmem))
      obtain ⟨r', hne, hleader, hother⟩ := hkeeps.dropped r e hpending hold
        ((holds_or_takes hs hstep hpending).resolve_left hkept)
      exact ⟨r', hleader, hsame r' e (hrole ▸ hne) hother⟩
  · -- the signer has committed it in this step
    obtain ⟨hevent, transfers, htask, hended⟩ := (horigins.own _ e he rfl).resolve_left hold
    have hrole : e.leader = role := by
      by_contra hne
      have hlog : t.log e.leader = s.log e.leader :=
        congrArg (fun m => m.replicationLog) (hlocal.nodes _ hne)
      exact hold (hlog ▸ he)
    obtain ⟨r, hr, hholds⟩ := hkeeps.committed _ e transfers hevent htask hended
    exact ⟨r, hr, hsame r e (hrole ▸ hr) hholds⟩

omit [DecidableEq μ] in
/-- **What an earlier leader has signed, no later one signs again.** An envelope that is held by a
second node does not stand after the position at which its signer's term has ended.

**Proof sketch.** The second holder has reached the next term, so it has no prepared record of the
signer, and what it has in its log lies up to the position of the certificate, which is the one that
the signer of the other envelope has gone beyond. -/
lemma Recorded.not_later (h : s.Recorded) (hheld : s.Held) {x y : Role} {i : ℕ}
    {e' : Envelope μ} (hx : (s.log x)[i]? = some e) (hy : (s.log y)[i]? = some e') :
    ¬ e.leader.index < e'.leader.index := by
  intro hlater
  have hown := h.owned y i e' hy
  have hsigner := h.index_signer hown
  -- the signer of the other envelope has reached the next term, and so has the second holder
  obtain ⟨c, hc, hlt⟩ := exists_of_lt_signer (hsigner ▸ hlater)
  have hreachedLater : e.leader.index < (s.certificates e'.leader).length :=
    (List.getElem?_eq_some_iff.mp hc).1
  have hterm : e'.leader.index ≤ (s.certificates e'.leader).length := by
    obtain ⟨d, hd, -⟩ := exists_of_lt_signer (i := e'.leader.index - 1)
      (show _ < (signer (s.certificates e'.leader) ((i : ℤ) + 1)).index by omega)
    have hlast := (List.getElem?_eq_some_iff.mp hd).1
    omega
  have hbound := h.length_certificates_le e'.leader
  have hlast : e.leader ≠ .tertiary := by
    intro heq
    rw [heq] at hreachedLater
    exact absurd hbound (not_le.mpr hreachedLater)
  obtain ⟨hwitness, hwinner⟩ := h.reached hreachedLater (or_iff_not_imp_left.mpr fun heq =>
    Role.lt_of_electionWitness (not_not.mp heq) hlater hterm)
  obtain ⟨r, hr, hholds⟩ := hheld e (List.mem_of_getElem? (h.owned x i e hx))
  have hreached : e.leader.index < (s.certificates r).length := by
    rcases Role.eq_of_ne hr hlast with heq | heq
    · exact heq ▸ hwitness
    · exact heq ▸ hwinner
  rcases hholds with hpending | hmem
  · rcases (h.pending r e hpending).2 with hself | hleader
    · exact hr hself.symm
    · rw [hleader, h.index_leader] at hreached
      exact lt_irrefl _ hreached
  · obtain ⟨k, hk⟩ := List.mem_iff_getElem?.mp hmem
    have hplace : k = i := by
      have hnumber := h.numbered r k e hk
      rw [h.numbered x i e hx] at hnumber
      omega
    subst hplace
    have hagree := h.elected.agree r e'.leader hreached hreachedLater
    have hle := le_of_signer (hagree.trans hc) (hreachedLater.trans_le hbound) (h.index_signer hk)
    omega

omit [DecidableEq μ] in
/-- **Agreement**, where every committed envelope is held by a second node.

**Proof sketch.** Two envelopes at one place have one signer, by the lemma before, and the log of
the signer has one envelope there. -/
theorem Recorded.agree (h : s.Recorded) (hheld : s.Held) : s.Agree := by
  have hsame : ∀ x y (i : ℕ) e e', (s.log x)[i]? = some e → (s.log y)[i]? = some e' → e = e' := by
    intro x y i e e' hx hy
    have hleader : e.leader = e'.leader := Role.eq_of_index (le_antisymm
      (not_lt.mp (h.not_later hheld hy hx)) (not_lt.mp (h.not_later hheld hx hy)))
    have hown := h.owned x i e hx
    rw [hleader, h.owned y i e' hy] at hown
    exact (Option.some.inj hown).symm
  have hcontinues : ∀ x y, (s.log x).length ≤ (s.log y).length → s.log x <+: s.log y := by
    intro x y hlength
    rw [List.prefix_iff_getElem?]
    intro i hi
    have hx := List.getElem?_eq_getElem hi
    have hy := List.getElem?_eq_getElem (hi.trans_le hlength)
    rw [hy, hsame x y i _ _ hx hy]
  intro x y
  exact (le_total (s.log x).length (s.log y).length).imp (hcontinues x y) (hcontinues y x)

/-- **Agreement across failover.** In every run of the cluster whose steps keep what has been
acknowledged, of any two logs one continues the other.

**Proof sketch.** Such steps keep every committed envelope held by a second node. -/
theorem logs_agree (app : App A μ ρ) (keys : Keyring μ) (boot : Role → A)
    (hasStore : Role → Bool) {es : List (ClusterEvent A μ)}
    (hkeeps : Transition.Meets (step app keys boot) (Keeps app keys)
      (initial boot hasStore) es)
    (h : Transition.run (step app keys boot) (initial boot hasStore) es = some s) (x y : Role) :
    s.log x <+: s.log y ∨ s.log y <+: s.log x := by
  have hs := Transition.run_induction_of_meets
    (I := fun v : LiveCluster A μ => v.Sound ∧ v.Held)
    (fun _ _ _ hv hkeeps hstep => ⟨(hv.1.step hstep).1, hv.2.step hv.1 hkeeps hstep⟩)
    ⟨sound_initial boot hasStore, fun e he => by simp [log, initial, Node.fresh] at he⟩ hkeeps h
  exact hs.1.toRecorded.agree hs.2 x y

/-- As long as no envelope has been committed, every step but a decision keeps what has been
acknowledged, and commits none. -/
lemma meets_of_undecided {es : List (ClusterEvent A μ)} (hs : s.Sound)
    (h : ∀ e : Envelope μ, e ∉ s.log e.leader)
    (hevents : ∀ event ∈ es, ∀ self, event ≠ .decide self) :
    Transition.Meets (step app keys boot) (Keeps app keys) s es := by
  refine Transition.Meets.of_invariant (I := fun v : LiveCluster A μ => v.Sound ∧
    ∀ e : Envelope μ, e ∉ v.log e.leader) (fun v event hv hevent => ?_)
    (fun v event v' hv hevent hstep => ⟨(hv.1.step hstep).1, fun e he => ?_⟩) ⟨hs, h⟩
    (Transition.meets_of_forall (G := fun event : ClusterEvent A μ => ∀ self, event ≠ .decide self)
      hevents)
  · exact ⟨fun self _ _ hdecide => absurd hdecide (hevent self),
      fun _ e _ hlog => absurd hlog (hv.2 e)⟩
  · rcases (step_origins hv.1 hstep).2.own _ e he rfl with hold | ⟨hdecide, -⟩
    · exact hv.2 e hold
    · exact hevent _ hdecide

/-- A leader offers an envelope that one of its peers has prepared. -/
def prepared (s : LiveCluster A μ) (self peer : Role) : Bool :=
  match s.tasks self with
  | some (.transferring (some e) _) => decide ((s.nodes peer).replicationPending = some e)
  | _ => false

lemma pending_of_prepared {peer : Role} (h : s.prepared self peer = true)
    {transfers : Role → Transfer μ}
    (htask : s.tasks self = some (.transferring (some e) transfers)) :
    (s.nodes peer).replicationPending = some e := by
  unfold prepared at h
  rw [htask] at h
  exact of_decide_eq_true h

/-- The Primary commits what the Tertiary has prepared. -/
theorem logs_agree_replication :
    ∃ t, smallRun smallCluster replication = some t ∧
      t.log .primary = [firstEnvelope .primary] ∧
      (t.log .primary <+: t.log .tertiary ∨ t.log .tertiary <+: t.log .primary) := by
  have hrun : (smallRun smallCluster preparation).any (fun s =>
      s.prepared .primary .tertiary && Role.order.all (fun r => (s.log r).isEmpty) &&
        (s.step countingApp plainKeys (fun _ => 0) (.decide .primary)).any fun t =>
          decide (t.log .primary = [firstEnvelope .primary])) = true := by
    decide +kernel
  obtain ⟨s, hs, hrest⟩ := (Option.any_eq_true _ _).mp hrun
  rw [Bool.and_eq_true, Bool.and_eq_true] at hrest
  obtain ⟨⟨hprepared, hempty⟩, hdecide⟩ := hrest
  obtain ⟨t, ht, hlog⟩ := (Option.any_eq_true _ _).mp hdecide
  have hunsigned : ∀ e : Envelope Unit, e ∉ s.log e.leader := by
    intro e he
    have hmem : e.leader ∈ Role.order := by cases e.leader <;> decide
    rw [List.isEmpty_iff.mp (List.all_eq_true.mp hempty _ hmem)] at he
    cases he
  have hfirst : ∀ event ∈ preparation, ∀ self, event ≠ .decide self := by
    intro event hevent self heq
    subst heq
    simp [preparation] at hevent
  have hall : smallRun smallCluster replication = some t := Transition.run_append_eq_some_iff.mpr
    ⟨s, hs, Transition.run_cons_eq_some_iff.mpr ⟨t, ht, rfl⟩⟩
  have hdecision : Keeps countingApp plainKeys s (.decide .primary) := by
    refine ⟨?_, fun r e _ hmem => absurd hmem (hunsigned e)⟩
    rintro self e transfers hevent htask -
    obtain rfl : Role.primary = self := ClusterEvent.decide.inj hevent
    exact ⟨.tertiary, by decide, .inl (pending_of_prepared hprepared htask)⟩
  have hmeets : Transition.Meets (step countingApp plainKeys fun _ => 0)
      (Keeps countingApp plainKeys) smallCluster (preparation ++ [.decide .primary]) :=
    (Transition.meets_append hs).mpr ⟨meets_of_undecided (sound_initial _ _)
      (fun e he => by cases he) hfirst, hdecision, fun _ _ => trivial⟩
  exact ⟨t, hall, of_decide_eq_true hlog, logs_agree countingApp plainKeys (fun _ => 0)
    (fun _ => true) hmeets hall _ _⟩

/-- The Secondary is elected while the Tertiary prepares an envelope of the Primary, whose record it
drops with the certificate; then both leaders commit. -/
def overlap : List (ClusterEvent ℕ Unit) :=
  [.stand .secondary 13,
    .handle 0 13,
    .proceed .secondary (some (.position 0)),
    .handle 1 13,
    .proceed .secondary (some (.history ⟨0, [], "0"⟩)),
    .proceed .secondary none,
    .handle 3 13,
    .submit .primary (some ()),
    .start .primary 0,
    .handle 5 13,
    .resume .primary .tertiary (some (.position 0)),
    .handle 6 13,
    .proceed .secondary (some (.vote (secondaryBallot 0 .tertiary))),
    .handle 7 13,
    .proceed .secondary (some .recorded),
    .resume .primary .tertiary (some .prepared),
    .resume .primary .secondary none,
    .decide .primary,
    .submit .secondary (some ()),
    .start .secondary 0,
    .handle 11 13,
    .resume .secondary .tertiary (some (.position 0)),
    .handle 12 13,
    .resume .secondary .tertiary (some .prepared),
    .resume .secondary .primary none,
    .decide .secondary]

/-- **Agreement fails** where a record is taken away between its acknowledgement and the decision of
the leader: two leaders commit different envelopes at one place. -/
theorem not_agree_overlap :
    ∃ s, smallRun smallCluster (clocks ++ overlap) = some s ∧
      s.log .primary = [firstEnvelope .primary] ∧ s.log .secondary = [firstEnvelope .secondary] ∧
      ¬ s.Agree := by
  have hrun : (smallRun smallCluster (clocks ++ overlap)).any (fun s =>
      decide (s.log .primary = [firstEnvelope .primary] ∧
        s.log .secondary = [firstEnvelope .secondary])) = true := by
    decide +kernel
  obtain ⟨s, hs, hlogs⟩ := (Option.any_eq_true _ _).mp hrun
  obtain ⟨hprimary, hsecondary⟩ := of_decide_eq_true hlogs
  refine ⟨s, hs, hprimary, hsecondary, fun hagree => ?_⟩
  have hagree := hagree .primary .secondary
  rw [hprimary, hsecondary] at hagree
  exact absurd hagree (by decide +kernel)

end LiveCluster

end SplitChain
