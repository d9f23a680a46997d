import SplitChain.Model.Replica

set_option relaxedAutoImplicit false
set_option autoImplicit false

/-!
# What the operations of a node do

For each operation of a node, what has to be shown of the ways it can end. Every branch of the
operation is one conjunct: the checks that refuse it, the application step it makes, the change of
the node, and the save that comes last.

## Main results

* `SplitChain.Node.ends_prepareReplica`, `ends_commitReplica`, `ends_abortReplica`.
* `SplitChain.Node.ends_receiveHeartbeat`, `ends_recordCertificate`.
-/

namespace SplitChain

/-- A larger number becomes the position. -/
lemma max?_values_set {κ : Type} [DecidableEq κ] (d : Dict κ ℤ) (leader : κ) {nonce : ℤ}
    (h : d.values.max?.getD 0 < nonce) : (d.set leader nonce).values.max?.getD 0 = nonce := by
  have hle : ∀ k v, d.get? k = some v → v ≤ nonce := by
    intro k v hk
    have hmem := Dict.mem_values_iff.mpr ⟨k, hk⟩
    cases hmax : d.values.max? with
    | none =>
      rw [List.max?_eq_none_iff] at hmax
      rw [hmax] at hmem
      cases hmem
    | some top =>
      rw [hmax, Option.getD_some] at h
      exact ((List.max?_eq_some_iff.mp hmax).2 v hmem).trans h.le
  have hmax : (d.set leader nonce).values.max? = some nonce := by
    refine List.max?_eq_some_iff.mpr
      ⟨Dict.mem_values_iff.mpr ⟨leader, Dict.get?_set_self _ _ _⟩, fun v hv => ?_⟩
    obtain ⟨k, hk⟩ := Dict.mem_values_iff.mp hv
    rw [Dict.get?_set] at hk
    split_ifs at hk
    · exact (Option.some.inj hk).ge
    · exact hle k v hk
  rw [hmax, Option.getD_some]

namespace Node

open Raise Proc

variable {A μ ρ : Type} {app : App A μ ρ} {keys : Keyring μ} {self : Role} {saves : Bool}
  {n : Node A μ} {envelope : Envelope μ} {E : PyError → Node A μ → Prop}

/-- The position after a commit. -/
lemma committedPosition_appendLog (n : Node A μ) (envelope : Envelope μ)
    (h : n.committedPosition < envelope.nonce) :
    (n.appendLog envelope).committedPosition = envelope.nonce :=
  max?_values_set n.replicationNonces envelope.leader h

/-- A change of the node that is saved at once. -/
lemma ends_modify_save {f : Node A μ → Node A μ} {P : Unit → Node A μ → Prop} :
    Ends (do modify f; save saves) n P E ↔ ((f n).CanSave saves → P () (f n).saved) ∧
      (¬ (f n).CanSave saves → E (.protocol "unable to persist ledger state") (f n)) := by
  rw [ends_bind, ends_modify, ends_save]

section Replica

variable [DecidableEq μ]

/-- **Preparing a mutation.** -/
theorem ends_prepareReplica {P : Unit → Node A μ → Prop} :
    Ends (prepareReplica app keys self saves envelope) n P E ↔
      (∀ e, verifyEnvelope app keys self n envelope = .error e → E e n) ∧
      (verifyEnvelope app keys self n envelope = .ok () →
        (n.replicationPending = some envelope → P () n) ∧
        (∀ pending, n.replicationPending = some pending → pending ≠ envelope →
          E (.protocol "replica already has a different prepared mutation") n) ∧
        (n.replicationPending = none → Ends (app.trial envelope.mutation) n.app
          (fun _ a => (n.CanSave saves → P () ((n.setApp a).setPending (some envelope)).saved) ∧
            (¬ n.CanSave saves → E (.protocol "unable to persist ledger state")
              ((n.setApp a).setPending (some envelope))))
          (fun e a => E e (n.setApp a)))) := by
  unfold prepareReplica
  rw [ends_bind, ends_get, ends_bind, ends_guard]
  refine and_congr_right fun _ => ⟨fun h hok => ?_, fun h hok => ?_⟩
  · have h := h hok
    rw [ends_bind, ends_get] at h
    cases hpending : n.replicationPending with
    | none =>
      rw [hpending] at h
      refine ⟨fun h => (by cases h), fun _ h => (by cases h), fun _ => ?_⟩
      rw [ends_bind, ends_onApp] at h
      exact h.mono (fun _ a ha => ends_modify_save.mp ha) fun _ _ h => h
    | some pending =>
      rw [hpending] at h
      refine ⟨fun heq => ?_, fun p heq hne => ?_, fun h => (by cases h)⟩
      · cases heq
        simpa using h
      · cases heq
        simpa [hne] using h
  · rw [ends_bind, ends_get]
    obtain ⟨hsame, hother, hnone⟩ := h hok
    cases hpending : n.replicationPending with
    | none =>
      show Ends (onApp (app.trial envelope.mutation) >>= _) n P E
      rw [ends_bind, ends_onApp]
      exact (hnone hpending).mono (fun _ a ha => ends_modify_save.mpr ha) fun _ _ h => h
    | some pending =>
      show Ends (if pending = envelope then _ else _) n P E
      split_ifs with heq
      · exact hsame (heq ▸ hpending)
      · exact hother pending hpending heq

/-- **Committing a prepared mutation.** -/
theorem ends_commitReplica {P : ρ → Node A μ → Prop} :
    Ends (commitReplica app keys self saves envelope) n P E ↔
      (∀ e, verifyEnvelope app keys self n envelope = .error e → E e n) ∧
      (verifyEnvelope app keys self n envelope = .ok () →
        (n.replicationPending ≠ some envelope →
          E (.protocol "replica commit does not match its prepared mutation") n) ∧
        (n.replicationPending = some envelope → Ends (app.apply envelope.mutation) n.app
          (fun r b => (n.CanSave saves → P r ((n.setApp b).appendLog envelope).saved) ∧
            (¬ n.CanSave saves → E (.protocol "unable to persist ledger state")
              ((n.setApp b).appendLog envelope)))
          (fun e b => E e (n.setApp b)))) := by
  unfold commitReplica
  rw [ends_bind, ends_get, ends_bind, ends_guard]
  refine and_congr_right fun _ => imp_congr_right fun _ => ?_
  rw [ends_bind, ends_get]
  split_ifs with hpending
  · simp [hpending]
  · rw [ne_eq, not_not] at hpending
    rw [ends_bind, ends_onApp]
    simp only [hpending, ne_eq, not_true_eq_false, false_implies, true_and, forall_const]
    refine iff_of_eq (congrArg (Ends _ _ · _) (funext₂ fun r b => propext ?_))
    rw [ends_bind, ends_modify, ends_bind, ends_save]
    exact Iff.rfl

/-- **Aborting a mutation.** -/
theorem ends_abortReplica {P : Unit → Node A μ → Prop} :
    Ends (abortReplica app keys self saves envelope) n P E ↔
      (∀ e, verifyEnvelope app keys self n envelope = .error e → E e n) ∧
      (verifyEnvelope app keys self n envelope = .ok () →
        ((∃ pending, n.replicationPending = some pending ∧ pending ≠ envelope) →
          E (.protocol "replica abort does not match its prepared mutation") n) ∧
        ((∀ pending, n.replicationPending = some pending → pending = envelope) →
          (n.CanSave saves → P () (n.setPending none).saved) ∧
          (¬ n.CanSave saves → E (.protocol "unable to persist ledger state")
            (n.setPending none)))) := by
  unfold abortReplica
  rw [ends_bind, ends_get, ends_bind, ends_guard]
  refine and_congr_right fun _ => imp_congr_right fun _ => ?_
  rw [ends_bind, ends_get]
  have hany : (n.replicationPending.any (· != envelope)) = true ↔
      ∃ pending, n.replicationPending = some pending ∧ pending ≠ envelope := by
    cases n.replicationPending <;> simp
  have hall : (∀ pending, n.replicationPending = some pending → pending = envelope) ↔
      ¬ ∃ pending, n.replicationPending = some pending ∧ pending ≠ envelope := by
    simp only [not_exists, not_and, ne_eq, not_not]
  rw [hall]
  split_ifs with h
  · rw [hany] at h
    exact ⟨fun hE => ⟨fun _ => hE, fun hnot => absurd h hnot⟩, fun hE => hE.1 h⟩
  · rw [hany] at h
    refine (ends_modify_save (f := fun n => n.setPending none)).trans ?_
    exact ⟨fun hP => ⟨fun hex => absurd hex h, fun _ => hP⟩, fun hP => hP.2 h⟩

end Replica

/-- **A heartbeat** is recorded in the leadership state, if it is a new one. -/
theorem ends_receiveHeartbeat {heartbeat : Heartbeat} {P : Unit → Node A μ → Prop}
    (hsame : P () n) (hraise : ∀ e, E e n)
    (hrecord : ∀ leadership, n.leadership.heartbeat heartbeat.leader heartbeat.term heartbeat.tick
      heartbeat.nonce = .ok leadership → heartbeat.nonce = n.committedPosition →
      (n.CanSave saves → P () { n with leadership := leadership }.saved) ∧
      (¬ n.CanSave saves → E (.protocol "unable to persist ledger state")
        { n with leadership := leadership })) :
    Ends (receiveHeartbeat keys saves heartbeat) n P E := by
  unfold receiveHeartbeat
  rw [ends_bind, ends_lift]
  refine ⟨fun _ _ => ?_, fun e _ => hraise e⟩
  rw [ends_bind, ends_get, ends_bind, ends_lift]
  refine ⟨fun _ hnonce => ?_, fun e _ => hraise e⟩
  rw [require_eq_ok, beq_iff_eq] at hnonce
  split_ifs
  · rw [ends_bind, ends_lift]
    exact ⟨fun leadership hlead => ends_modify_save.mpr (hrecord leadership hlead hnonce),
      fun e _ => hraise e⟩
  · exact hsame

/-- **A certificate** is adopted once, and a prepared record does not outlive its term. -/
theorem ends_recordCertificate {certificate : LeadershipCertificate} {P : Unit → Node A μ → Prop}
    (hsame : n.leadership.certificates.getLast? = some certificate → P () n) (hraise : ∀ e, E e n)
    (hrecord : ∀ leadership, n.leadership.certificates.getLast? ≠ some certificate →
      n.leadership.committedNonce = n.committedPosition →
      n.leadership.acceptCertificate keys.failover certificate = .ok leadership →
      (n.CanSave saves →
        P () { n with leadership := leadership, replicationPending := none }.saved) ∧
      (¬ n.CanSave saves → E (.protocol "unable to persist ledger state")
        { n with leadership := leadership, replicationPending := none })) :
    Ends (recordCertificate keys saves certificate) n P E := by
  unfold recordCertificate
  rw [ends_bind, ends_get]
  split_ifs with hlast
  · rw [ends_bind, ends_lift]
    refine ⟨fun _ hposition => ?_, fun e _ => hraise e⟩
    rw [require_eq_ok, beq_iff_eq] at hposition
    rw [ends_bind, ends_lift]
    exact ⟨fun leadership hlead =>
      ends_modify_save.mpr (hrecord leadership hlast hposition hlead), fun e _ => hraise e⟩
  · exact hsame (not_not.mp hlast)

end Node

end SplitChain
