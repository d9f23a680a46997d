import SplitChain.Model.ReferenceNode
import SplitChain.Model.Reloading
import SplitChain.Model.ReplicaSteps
import SplitChain.Model.Signing

set_option relaxedAutoImplicit false
set_option autoImplicit false

/-!
# Catching up with a peer

`_sync_from_peer`: a node asks a peer for the part of its log that it lacks, page by page,
prepares and commits every entry itself, and reports whether it has reached the peer. The loop
makes ten turns at most; a turn takes a page of ten entries, or finds that nothing is missing.

A call is modelled with every state that it passes: the nodes that each `prepare_replica` and each
`commit_replica` have left. Whether a call of `_save` returns is given by the length of the log at
the time.

## Main definitions

* `SplitChain.Node.history` — the peer's answer to `replica.history`.
* `SplitChain.Node.takePage` — the entries of a page, one after the other.
* `SplitChain.Node.syncFromPeer` — the loop.

## Main results

* `SplitChain.Node.takePage_append` — pages are taken as their entries are.
* `SplitChain.Node.ends_syncFromPeer` — what the loop does, in terms of the missing entries.
* `SplitChain.Node.sync_reports_iff` — when a call keeps to the peer's log and reports its success.
* `SplitChain.Node.Replays.reports_iff` — the same for an honest peer.
-/

namespace SplitChain

namespace Node

open Raise Proc

variable {A μ ρ : Type}

/-! ## A call with the states it passes -/

/-- A node that catches up, and the nodes that its steps have left. -/
structure Catching (A μ : Type) where
  node : Node A μ
  steps : List (Node A μ)

/-- One step of the node. -/
def stepOf {α : Type} (x : EStateM PyError (Node A μ) α) : EStateM PyError (Catching A μ) α :=
  fun s =>
    match x s.node with
    | .ok a n => .ok a ⟨n, s.steps ++ [n]⟩
    | .error e n => .error e ⟨n, s.steps ++ [n]⟩

/-- What has to be shown of a step. -/
@[simp] lemma ends_stepOf {α : Type} {x : EStateM PyError (Node A μ) α} {s : Catching A μ}
    {P : α → Catching A μ → Prop} {E : PyError → Catching A μ → Prop} :
    Ends (stepOf x) s P E ↔ Ends x s.node (fun a n => P a ⟨n, s.steps ++ [n]⟩)
      fun e n => E e ⟨n, s.steps ++ [n]⟩ := by
  unfold Ends stepOf
  cases x s.node <;> exact Iff.rfl

/-- `except (ProtocolError, TypeError)` -/
def isRefusal : PyError → Bool
  | .type => true
  | e => e.isProtocol

/-- Whether a computation returns, if it is not interrupted by another exception. -/
def caught {σ : Type} (x : EStateM PyError σ Unit) : EStateM PyError σ Bool := fun s =>
  match x s with
  | .ok _ t => .ok true t
  | .error e t => if isRefusal e then .ok false t else .error e t

/-- What has to be shown of a computation that is caught. -/
lemma ends_caught {σ : Type} {x : EStateM PyError σ Unit} {s : σ} {P : Bool → σ → Prop}
    {E : PyError → σ → Prop} :
    Ends (caught x) s P E ↔ Ends x s (fun _ t => P true t)
      fun e t => if isRefusal e = true then P false t else E e t := by
  unfold Ends caught
  cases x s with
  | ok a t => exact Iff.rfl
  | error e t =>
    dsimp only
    split_ifs <;> exact Iff.rfl

/-! ## The loop -/

section Loop

variable [DecidableEq μ] (app : App A μ ρ) (keys : Keyring μ) (self : Role)

/-- The answer to `replica.history`. -/
structure History (μ : Type) where
  nonce : ℤ
  entries : List (Envelope μ)
  ledgerDigest : String

omit [DecidableEq μ] in
/-- `replica.history` of the peer, from a position on. -/
def history (peer : Node A μ) (start : ℤ) : Except PyError (History μ) := do
  let position := peer.committedPosition
  require (decide (0 ≤ start) && decide (start ≤ position) &&
      (peer.replicationLog.length : ℤ) == position)
    (.protocol "invalid or incomplete replication history")
  return ⟨position, (peer.replicationLog.drop start.toNat).take 10, app.digest peer.app⟩

variable (saves : ℕ → Bool × Bool)

/-- One entry: it is prepared, unless it is the prepared record already, and committed. -/
def takeEntry (envelope : Envelope μ) : EStateM PyError (Catching A μ) Unit := do
  let n := (← get).node
  let returns := saves n.replicationLog.length
  if n.replicationPending.isNone then
    stepOf (prepareReplica app keys self returns.1 envelope)
  let _ ← stepOf (commitReplica app keys self returns.2 envelope)

/-- The entries of a page: whether all of them have been taken. -/
def takePage : List (Envelope μ) → EStateM PyError (Catching A μ) Bool
  | [] => return true
  | envelope :: entries => do
    if (← get).node.replicationPending.any (· != envelope) then return false
    else if ← caught (takeEntry app keys self saves envelope) then takePage entries
    else return false

/-- The turns of `_sync_from_peer`. -/
def syncFromPeer (peer : Node A μ) : ℕ → EStateM PyError (Catching A μ) Bool
  | 0 => return false
  | turns + 1 => do
    let n := (← get).node
    match history app peer n.committedPosition with
    | .error _ => return false
    | .ok remote =>
      if remote.nonce < n.committedPosition then return false
      else if remote.nonce = n.committedPosition then
        return remote.ledgerDigest == app.digest n.app && n.replicationPending.isNone
      else if remote.entries.isEmpty then return false
      else if ← takePage app keys self saves remote.entries then syncFromPeer peer turns
      else return false

/-- `_sync_from_peer` -/
def sync (peer : Node A μ) : EStateM PyError (Catching A μ) Bool :=
  syncFromPeer app keys self saves peer 10

end Loop

/-! ## One entry -/

section Entry

variable [DecidableEq μ] {app : App A μ ρ} {keys : Keyring μ} {self : Role}
  {saves : ℕ → Bool × Bool}

/-- **What happens along a list of entries**: the log has grown by some of them, and it has grown in
every step, of which there are two for each entry at most. -/
structure Advances (entries : List (Envelope μ)) (s t : Catching A μ) : Prop where
  log : ∃ k ≤ entries.length,
    t.node.replicationLog = s.node.replicationLog ++ entries.take k
  steps : ∃ passed, t.steps = s.steps ++ passed ∧ passed.length ≤ 2 * entries.length ∧
    (∀ m ∈ passed, m.replicationLog <+: t.node.replicationLog) ∧
    (t.node = s.node ∨ t.node ∈ passed)

/-- A node that has taken all of some entries. -/
structure Taken (entries : List (Envelope μ)) (s t : Catching A μ) : Prop extends
    Advances entries s t where
  all : t.node.replicationLog = s.node.replicationLog ++ entries
  position : t.node.committedPosition =
    (entries.getLast?.map Envelope.nonce).getD s.node.committedPosition

omit [DecidableEq μ] in
/-- The log has grown. -/
lemma Advances.continues {entries : List (Envelope μ)} {s t : Catching A μ}
    (h : Advances entries s t) : s.node.replicationLog <+: t.node.replicationLog := by
  obtain ⟨k, -, hlog⟩ := h.log
  exact ⟨_, hlog.symm⟩

omit [DecidableEq μ] in
/-- Nothing happens along no entries. -/
lemma Taken.refl (s : Catching A μ) : Taken [] s s where
  log := ⟨0, Nat.zero_le _, (List.append_nil _).symm⟩
  steps := ⟨[], (List.append_nil _).symm, Nat.zero_le _, fun _ hm => absurd hm List.not_mem_nil,
    .inl rfl⟩
  all := (List.append_nil _).symm
  position := by rw [List.getLast?_nil, Option.map_none, Option.getD_none]

omit [DecidableEq μ] in
/-- What happens along some entries happens along more. -/
lemma Advances.append {entries : List (Envelope μ)} {s t : Catching A μ}
    (h : Advances entries s t) (later : List (Envelope μ)) : Advances (entries ++ later) s t := by
  obtain ⟨k, hk, hlog⟩ := h.log
  obtain ⟨passed, hpassed, hlength, hbelow, hlast⟩ := h.steps
  refine ⟨⟨k, ?_, ?_⟩, passed, hpassed, ?_, hbelow, hlast⟩
  · rw [List.length_append]
    omega
  · rw [hlog, List.take_append_of_le_length hk]
  · rw [List.length_append]
    omega

omit [DecidableEq μ] in
/-- **One list of entries after the other.** -/
lemma Taken.advances {entries later : List (Envelope μ)} {s t u : Catching A μ}
    (h : Taken entries s t) (h' : Advances later t u) : Advances (entries ++ later) s u := by
  obtain ⟨k, hk, hlog⟩ := h'.log
  obtain ⟨passed, hpassed, hlength, hbelow, hlast⟩ := h.steps
  obtain ⟨passed', hpassed', hlength', hbelow', hlast'⟩ := h'.steps
  refine ⟨⟨entries.length + k, ?_, ?_⟩, passed ++ passed', ?_, ?_, ?_, ?_⟩
  · rw [List.length_append]
    omega
  · rw [hlog, h.all, List.append_assoc, List.take_length_add_append]
  · rw [hpassed', hpassed, List.append_assoc]
  · rw [List.length_append, List.length_append]
    omega
  · intro m hm
    rcases List.mem_append.mp hm with hm | hm
    · exact (hbelow m hm).trans h'.continues
    · exact hbelow' m hm
  · rcases hlast' with hsame | hmem
    · rcases hlast with hstart | hmem
      · exact .inl (hsame.trans hstart)
      · exact .inr (List.mem_append_left _ (hsame ▸ hmem))
    · exact .inr (List.mem_append_right _ hmem)

omit [DecidableEq μ] in
/-- All of one list of entries after all of another. -/
lemma Taken.trans {entries later : List (Envelope μ)} {s t u : Catching A μ}
    (h : Taken entries s t) (h' : Taken later t u) : Taken (entries ++ later) s u where
  toAdvances := h.advances h'.toAdvances
  all := by rw [h'.all, h.all, List.append_assoc]
  position := by
    rw [h'.position, h.position, List.getLast?_append]
    cases later.getLast? <;> rfl

/-- Preparing leaves the log and the position as they are. -/
lemma ends_prepareReplica_log {returns : Bool} {envelope : Envelope μ} {n : Node A μ} :
    Ends (prepareReplica app keys self returns envelope) n
      (fun _ m => m.replicationLog = n.replicationLog ∧ m.committedPosition = n.committedPosition)
      fun _ m => m.replicationLog = n.replicationLog := by
  rw [ends_prepareReplica]
  refine ⟨fun _ _ => rfl, fun _ => ⟨fun _ => ⟨rfl, rfl⟩, fun _ _ _ => rfl, fun _ => ?_⟩⟩
  refine ends_iff.mpr ⟨fun r a _ => ⟨fun _ => ?_, fun _ => rfl⟩, fun e a _ => rfl⟩
  have hsaved : (((n.setApp a).setPending (some envelope)).saved).toSaved =
      ((n.setApp a).setPending (some envelope)).toSaved := toSaved_saved _
  have hlog := congrArg Saved.replicationLog hsaved
  have hposition := congrArg Saved.committedPosition hsaved
  exact ⟨hlog, hposition⟩

/-- **Committing appends the entry**, unless it is refused; a failure of the save at the end leaves
it in the log. -/
lemma ends_commitReplica_log {returns : Bool} {envelope : Envelope μ} {n : Node A μ} :
    Ends (commitReplica app keys self returns envelope) n
      (fun _ m => m.replicationLog = n.replicationLog ++ [envelope] ∧
        m.committedPosition = envelope.nonce)
      fun _ m => m.replicationLog = n.replicationLog ∨
        m.replicationLog = n.replicationLog ++ [envelope] := by
  rw [ends_commitReplica]
  refine ⟨fun _ _ => .inl rfl, fun hverify => ⟨fun _ => .inl rfl, fun _ => ?_⟩⟩
  refine ends_iff.mpr ⟨fun r b _ => ⟨fun _ => ?_, fun _ => .inr rfl⟩, fun e b _ => .inl rfl⟩
  have hsaved : (((n.setApp b).appendLog envelope).saved).toSaved =
      ((n.setApp b).appendLog envelope).toSaved := toSaved_saved _
  have hlt : (n.setApp b).committedPosition < envelope.nonce := by
    simp only [verifyEnvelope, ReplicationAuthenticator.verify, bind_eq_ok, require_eq_ok,
      exists_const, Bool.and_eq_true, decide_eq_true_eq] at hverify
    exact hverify.2.2.1.1.2
  refine ⟨congrArg Saved.replicationLog hsaved, ?_⟩
  exact (congrArg Saved.committedPosition hsaved).trans (committedPosition_appendLog _ _ hlt)

/-- **What one entry does.** -/
lemma ends_takeEntry (envelope : Envelope μ) (s : Catching A μ) :
    Ends (takeEntry app keys self saves envelope) s (fun _ t => Taken [envelope] s t)
      fun _ t => Advances [envelope] s t := by
  have hcommit : ∀ (u : Catching A μ) (passed : List (Node A μ)),
      u.node.replicationLog = s.node.replicationLog → u.steps = s.steps ++ passed →
      passed.length ≤ 1 → (∀ m ∈ passed, m.replicationLog = s.node.replicationLog) →
      Ends (stepOf (commitReplica app keys self (saves s.node.replicationLog.length).2 envelope)) u
        (fun _ t => Taken [envelope] s t) fun _ t => Advances [envelope] s t := by
    intro u passed hlog hsteps hlength hpassed
    have hadvances : ∀ m : Node A μ, (m.replicationLog = u.node.replicationLog ∨
        m.replicationLog = u.node.replicationLog ++ [envelope]) →
        Advances [envelope] s ⟨m, u.steps ++ [m]⟩ := by
      intro m hm
      rw [hlog] at hm
      refine ⟨?_, passed ++ [m], by rw [hsteps, List.append_assoc], ?_, ?_,
        .inr (List.mem_append_right _ List.mem_cons_self)⟩
      · rcases hm with hm | hm
        · exact ⟨0, Nat.zero_le _, by rw [hm, List.take_zero, List.append_nil]⟩
        · exact ⟨1, le_rfl, hm⟩
      · rw [List.length_append, List.length_singleton, List.length_singleton]
        omega
      · intro k hk
        have hcontinues : s.node.replicationLog <+: m.replicationLog := by
          rcases hm with hm | hm
          · exact hm ▸ List.prefix_rfl
          · exact ⟨[envelope], hm.symm⟩
        rcases List.mem_append.mp hk with hk | hk
        · rw [hpassed k hk]
          exact hcontinues
        · exact List.mem_singleton.mp hk ▸ List.prefix_rfl
    rw [ends_stepOf]
    refine ends_commitReplica_log.mono (fun _ m hm => ?_) fun _ m hm => hadvances m hm
    exact ⟨hadvances m (.inr hm.1), by rw [← hlog]; exact hm.1, hm.2⟩
  unfold takeEntry
  rw [ends_bind, ends_get]
  cases hpending : s.node.replicationPending with
  | none =>
    simp only [hpending, Option.isNone_none, if_true, ends_bind, ends_stepOf, ends_pure]
    refine ends_prepareReplica_log.mono (fun _ m hm => ?_) fun _ m hm => ?_
    · have hu := hcommit ⟨m, s.steps ++ [m]⟩ [m] hm.1 rfl le_rfl fun k hk => by
        rw [List.mem_singleton.mp hk]
        exact hm.1
      exact ends_stepOf.mp hu
    · refine ⟨⟨0, Nat.zero_le _, by rw [List.take_zero, List.append_nil]; exact hm⟩, [m], rfl,
        Nat.le_succ 1, fun k hk => ?_, .inr List.mem_cons_self⟩
      exact List.mem_singleton.mp hk ▸ List.prefix_rfl
  | some pending =>
    have hs := hcommit s [] rfl (List.append_nil _).symm (Nat.zero_le _)
      fun _ hm => absurd hm List.not_mem_nil
    simp only [hpending, Option.isNone_some, Bool.false_eq_true, if_false, ends_bind, ends_pure]
    exact hs

/-! ## A page -/

/-- **What a page does.** -/
lemma ends_takePage (entries : List (Envelope μ)) (s : Catching A μ) :
    Ends (takePage app keys self saves entries) s
      (fun taken t => Advances entries s t ∧ (taken = true → Taken entries s t))
      fun _ t => Advances entries s t := by
  induction entries generalizing s with
  | nil => exact ⟨(Taken.refl s).toAdvances, fun _ => Taken.refl s⟩
  | cons envelope entries ih =>
    have hrefl : Advances (envelope :: entries) s s := (Taken.refl s).toAdvances.append _
    unfold takePage
    rw [ends_bind, ends_get]
    split_ifs with hconflict
    · exact ⟨hrefl, fun h => absurd h Bool.false_ne_true⟩
    · rw [ends_bind, ends_caught]
      refine (ends_takeEntry envelope s).mono (fun _ t ht => ?_) fun e t ht => ?_
      · refine (ih t).mono (fun taken u hu => ?_) fun _ u hu => ht.advances hu
        exact ⟨ht.advances hu.1, fun h => ht.trans (hu.2 h)⟩
      · by_cases hrefusal : isRefusal e = true
        · rw [if_pos hrefusal]
          exact ⟨ht.append entries, fun h => absurd h Bool.false_ne_true⟩
        · rw [if_neg hrefusal]
          exact ht.append entries

/-- **Pages are taken as their entries are.** -/
lemma takePage_append (entries later : List (Envelope μ)) :
    takePage app keys self saves (entries ++ later) = do
      if ← takePage app keys self saves entries then takePage app keys self saves later
      else return false := by
  induction entries with
  | nil => rfl
  | cons envelope entries ih =>
    rw [List.cons_append]
    simp only [takePage, bind_assoc]
    refine bind_congr fun s => ?_
    split_ifs with hconflict
    · rw [pure_bind]
      rfl
    · rw [bind_assoc]
      refine bind_congr fun taken => ?_
      cases taken with
      | true => exact ih
      | false =>
        simp only [Bool.false_eq_true, if_false, pure_bind]

/-! ## The missing entries -/

/-- A peer with a complete log: as long as its position, and numbered from one. -/
structure Complete (peer : Node A μ) : Prop where
  length : (peer.replicationLog.length : ℤ) = peer.committedPosition
  numbered : ∀ (i : ℕ) e, peer.replicationLog[i]? = some e → e.nonce = (i : ℤ) + 1

/-- The entries of the peer's log after the position of a node. -/
def missing (peer n : Node A μ) : List (Envelope μ) :=
  peer.replicationLog.drop n.committedPosition.toNat

section Missing

variable {peer n : Node A μ}

omit [DecidableEq μ] in
/-- As many entries are missing as there are positions. -/
lemma Complete.length_missing (hpeer : peer.Complete) (hpos : 0 ≤ n.committedPosition)
    (hle : n.committedPosition ≤ peer.committedPosition) :
    ((missing peer n).length : ℤ) = peer.committedPosition - n.committedPosition := by
  have hlength := hpeer.length
  rw [missing, List.length_drop]
  omega

omit [DecidableEq μ] in
/-- The position after some of the missing entries. -/
lemma Complete.position (hpeer : peer.Complete) (hpos : 0 ≤ n.committedPosition) {k : ℕ}
    (hk : k ≤ (missing peer n).length) :
    ((((missing peer n).take k).getLast?).map Envelope.nonce).getD n.committedPosition =
      n.committedPosition + k := by
  cases k with
  | zero => simp
  | succ k =>
    obtain ⟨e, he⟩ : ∃ e, (missing peer n)[k]? = some e := ⟨_, List.getElem?_eq_getElem hk⟩
    have hlast : ((missing peer n).take (k + 1)).getLast? = some e := by
      rw [List.take_add_one, he]
      exact List.getLast?_concat
    have hnonce : e.nonce = _ := hpeer.numbered (n.committedPosition.toNat + k) e (by
      rw [missing, List.getElem?_drop] at he
      exact he)
    rw [hlast, Option.map_some, Option.getD_some, hnonce]
    push_cast
    omega

omit [DecidableEq μ] in
/-- The peer answers with a page of the missing entries. -/
lemma history_eq (app : App A μ ρ) (hpeer : peer.Complete) (hpos : 0 ≤ n.committedPosition)
    (hle : n.committedPosition ≤ peer.committedPosition) :
    history app peer n.committedPosition =
      .ok ⟨peer.committedPosition, (missing peer n).take 10, app.digest peer.app⟩ := by
  simp only [history, hpos, hle, hpeer.length, decide_true, beq_self_eq_true, Bool.and_self,
    require, if_true]
  rfl

end Missing

/-! ## All turns -/

/-- **What the turns do**: the entries that ten for each turn reach are taken, one after the
other. The call reports success if all missing entries have been taken, a turn is left after them,
the digests agree and no record is prepared.

**Proof sketch.** Induction on the turns. A turn takes ten of the missing entries, or all of them,
and the position it ends at is that of the last one, since the log of the peer is numbered. -/
theorem ends_syncFromPeer {peer : Node A μ} (hpeer : peer.Complete) (turns : ℕ) (s : Catching A μ)
    (hpos : 0 ≤ s.node.committedPosition)
    (hle : s.node.committedPosition ≤ peer.committedPosition) {P : Bool → Catching A μ → Prop}
    {E : PyError → Catching A μ → Prop} :
    Ends (syncFromPeer app keys self saves peer turns) s P E ↔
      Ends (takePage app keys self saves ((missing peer s.node).take (10 * turns))) s
        (fun taken t => P (taken && decide ((missing peer s.node).length + 10 ≤ 10 * turns) &&
          (app.digest peer.app == app.digest t.node.app && t.node.replicationPending.isNone)) t)
        E := by
  induction turns generalizing s with
  | zero =>
    rw [Nat.mul_zero, List.take_zero]
    show P false s ↔ P (true && decide (_ + 10 ≤ 0) && _) s
    rw [decide_eq_false (by omega), Bool.true_and, Bool.false_and]
  | succ turns ih =>
    have hlength := hpeer.length_missing hpos hle
    unfold syncFromPeer
    rw [ends_bind, ends_get]
    dsimp only
    rw [history_eq app hpeer hpos hle]
    dsimp only
    rw [if_neg (not_lt.mpr hle)]
    by_cases hreached : peer.committedPosition = s.node.committedPosition
    · have hnil : missing peer s.node = [] := List.length_eq_zero_iff.mp (by omega)
      rw [if_pos hreached, hnil, List.take_nil]
      show P (_ && _) s ↔ P (true && decide (0 + 10 ≤ 10 * (turns + 1)) && _) s
      rw [decide_eq_true (by omega), Bool.true_and, Bool.true_and]
    · have hne : (missing peer s.node).take 10 ≠ [] := by
        intro hnil
        have hzero := congrArg List.length hnil
        rw [List.length_take, List.length_nil] at hzero
        omega
      have hpages : (missing peer s.node).take (10 * (turns + 1)) =
          (missing peer s.node).take 10 ++ ((missing peer s.node).drop 10).take (10 * turns) := by
        rw [← List.take_add, Nat.mul_succ, Nat.add_comm]
      rw [if_neg hreached, List.isEmpty_eq_false_iff.mpr hne, if_neg Bool.false_ne_true, hpages,
        takePage_append, ends_bind, ends_bind, ends_iff, ends_iff]
      refine and_congr (forall₂_congr fun taken t => imp_congr_right fun hok => ?_) Iff.rfl
      have htaken := ((ends_of_eq_ok hok).mp (ends_takePage _ s)).2
      cases taken with
      | false => exact Iff.rfl
      | true =>
        have hposition := (htaken rfl).position
        set k := ((missing peer s.node).take 10).length with hk
        have htake : (missing peer s.node).take 10 = (missing peer s.node).take k := by
          rw [hk, List.length_take, List.take_eq_take_iff]
          omega
        have hkle : k ≤ (missing peer s.node).length := by
          rw [hk, List.length_take]
          omega
        rw [htake, hpeer.position hpos hkle] at hposition
        have hmissing : missing peer t.node = (missing peer s.node).drop 10 := by
          have htoNat : (s.node.committedPosition + k).toNat =
              s.node.committedPosition.toNat + k := by omega
          have hdrop : (missing peer s.node).drop k = (missing peer s.node).drop 10 := by
            rw [List.length_take] at hk
            rcases Nat.le_total 10 (missing peer s.node).length with hlong | hshort
            · rw [hk, Nat.min_eq_left hlong]
            · rw [List.drop_eq_nil_of_le hshort, List.drop_eq_nil_of_le (by omega)]
          rw [missing, hposition, htoNat, ← List.drop_drop]
          exact hdrop
        have hturns : decide ((missing peer t.node).length + 10 ≤ 10 * turns) =
            decide ((missing peer s.node).length + 10 ≤ 10 * (turns + 1)) := by
          rw [hmissing, List.length_drop]
          exact decide_eq_decide.mpr (by omega)
        show Ends (syncFromPeer app keys self saves peer turns) t P E ↔ _
        rw [ih t (by omega) (by omega), hturns, hmissing]
        exact Iff.rfl

end Entry

/-! ## When a call reports its success -/

section Report

variable [DecidableEq μ] (app : App A μ ρ) (keys : Keyring μ) (role : Role)
  (saves : ℕ → Bool × Bool) (peer n : Node A μ)

omit [DecidableEq μ] in
/-- A node has reached the peer. -/
structure CaughtUp : Prop where
  position : n.committedPosition = peer.committedPosition
  log : n.replicationLog = peer.replicationLog
  digest : app.digest n.app = app.digest peer.app
  clean : n.replicationPending = none

/-- What a call has left. -/
def afterSync : Catching A μ := after (sync app keys role saves peer) ⟨n, []⟩

/-- **A call keeps to the peer's log and reports its success**: it ends after two hundred steps at
most, every step leaves a prefix of the peer's log, and if the node has reached the peer it returns
`True`. -/
structure Reports : Prop where
  ends : (afterSync app keys role saves peer n).steps.length ≤ 200
  keeps : ∀ m ∈ (afterSync app keys role saves peer n).steps,
    m.replicationLog <+: peer.replicationLog
  reports : CaughtUp app peer (afterSync app keys role saves peer n).node →
    sync app keys role saves peer ⟨n, []⟩ = .ok true (afterSync app keys role saves peer n)

/-- What is left when the node prepares and commits all missing entries in one go. -/
def replayed : Catching A μ := after (takePage app keys role saves (missing peer n)) ⟨n, []⟩

/-- All missing entries are prepared, committed and saved. -/
def Replays : Prop :=
  takePage app keys role saves (missing peer n) ⟨n, []⟩ =
    .ok true (replayed app keys role saves peer n)

end Report

section Reports

variable [DecidableEq μ] {app : App A μ ρ} {keys : Keyring μ} {role : Role}
  {saves : ℕ → Bool × Bool} {peer n : Node A μ}

/-- A computation that returns true, and a test of the state it leaves. -/
lemma ends_and_iff {ε σ : Type} {x : EStateM ε σ Bool} {s t : σ} {test : σ → Bool} :
    Ends x s (fun b u => (b && test u) = true ∧ u = t) (fun _ _ => False) ↔
      x s = .ok true t ∧ test t = true := by
  unfold Ends
  cases x s with
  | ok b u =>
    simp only [Bool.and_eq_true, EStateM.Result.ok.injEq]
    constructor
    · rintro ⟨⟨hb, htest⟩, rfl⟩
      exact ⟨⟨hb, rfl⟩, htest⟩
    · rintro ⟨⟨hb, rfl⟩, htest⟩
      exact ⟨⟨hb, htest⟩, rfl⟩
  | error e u => simp

/-- A call takes the first hundred of the missing entries. -/
lemma Complete.afterSync_eq (hpeer : peer.Complete) (hpos : 0 ≤ n.committedPosition)
    (hle : n.committedPosition ≤ peer.committedPosition) :
    afterSync app keys role saves peer n =
      after (takePage app keys role saves ((missing peer n).take 100)) ⟨n, []⟩ :=
  after_eq_iff.mpr ((ends_syncFromPeer hpeer 10 ⟨n, []⟩ hpos hle).mpr (after_eq_iff.mp rfl))

/-- **When a call returns `True`.** -/
lemma Complete.sync_eq_ok_true (hpeer : peer.Complete) (hpos : 0 ≤ n.committedPosition)
    (hle : n.committedPosition ≤ peer.committedPosition) {t : Catching A μ} :
    sync app keys role saves peer ⟨n, []⟩ = .ok true t ↔
      takePage app keys role saves ((missing peer n).take 100) ⟨n, []⟩ = .ok true t ∧
        (missing peer n).length ≤ 90 ∧ app.digest peer.app = app.digest t.node.app ∧
        t.node.replicationPending = none := by
  rw [sync, eq_ok_iff, ends_syncFromPeer hpeer 10 ⟨n, []⟩ hpos hle]
  simp only [Bool.and_assoc]
  rw [ends_and_iff]
  simp only [Bool.and_eq_true, decide_eq_true_eq, beq_iff_eq, Option.isNone_iff_eq_none]
  refine and_congr_right fun _ => and_congr_left fun _ => ?_
  show (missing peer n).length + 10 ≤ 100 ↔ _
  omega

/-- What happens along a page, however it ends. -/
lemma advances_after (entries : List (Envelope μ)) (s : Catching A μ) :
    Advances entries s (after (takePage app keys role saves entries) s) :=
  after_iff.mpr ((ends_takePage entries s).mono (fun _ _ h => h.1) fun _ _ h => h)

omit [DecidableEq μ] in
/-- Every step leaves a prefix of a log exactly when the last one does. -/
lemma Advances.keeps_iff {entries : List (Envelope μ)} {t : Catching A μ}
    (h : Advances entries ⟨n, []⟩ t) {log : List (Envelope μ)}
    (hcontinues : n.replicationLog <+: log) :
    (∀ m ∈ t.steps, m.replicationLog <+: log) ↔ t.node.replicationLog <+: log := by
  obtain ⟨passed, hpassed, -, hbelow, hlast⟩ := h.steps
  rw [List.nil_append] at hpassed
  rw [hpassed]
  constructor
  · intro hkeeps
    rcases hlast with hsame | hmem
    · rw [hsame]
      exact hcontinues
    · exact hkeeps _ hmem
  · exact fun hlog m hm => (hbelow m hm).trans hlog

/-- A page either ends a longer list of entries, or has been taken before the rest of it. -/
lemma after_takePage_append (entries later : List (Envelope μ)) (s : Catching A μ) :
    after (takePage app keys role saves (entries ++ later)) s =
        after (takePage app keys role saves entries) s ∨
      Taken entries s (after (takePage app keys role saves entries) s) ∧
        (after (takePage app keys role saves entries) s).node.replicationLog <+:
          (after (takePage app keys role saves (entries ++ later)) s).node.replicationLog := by
  rw [takePage_append]
  cases hpage : takePage app keys role saves entries s with
  | error e t =>
    have hafter : after (takePage app keys role saves entries) s = t :=
      after_of_eq_error hpage
    rw [hafter]
    exact .inl (after_eq_iff.mpr (ends_bind.mpr ((ends_of_eq_error hpage).mpr rfl)))
  | ok taken t =>
    have hafter : after (takePage app keys role saves entries) s = t :=
      after_of_eq_ok hpage
    have htaken := ((ends_of_eq_ok hpage).mp (ends_takePage entries s)).2
    rw [hafter]
    cases taken with
    | false => exact .inl (after_eq_iff.mpr (ends_bind.mpr ((ends_of_eq_ok hpage).mpr rfl)))
    | true =>
      refine .inr ⟨htaken rfl, after_iff (P := fun u : Catching A μ =>
        t.node.replicationLog <+: u.node.replicationLog).mpr
          (ends_bind.mpr ((ends_of_eq_ok hpage).mpr ?_))⟩
      exact (ends_takePage later t).mono (fun _ _ h => h.1.continues) fun _ _ h => h.continues

/-- A call takes an entry exactly when the replay does. -/
lemma log_afterSync_eq_iff (hpeer : peer.Complete) (hpos : 0 ≤ n.committedPosition)
    (hle : n.committedPosition ≤ peer.committedPosition) :
    (afterSync app keys role saves peer n).node.replicationLog = n.replicationLog ↔
      (replayed app keys role saves peer n).node.replicationLog = n.replicationLog := by
  rw [hpeer.afterSync_eq hpos hle]
  have hsplit : after (takePage app keys role saves
      ((missing peer n).take 100 ++ (missing peer n).drop 100)) ⟨n, []⟩ = _ ∨ _ :=
    after_takePage_append _ _ _
  rw [List.take_append_drop] at hsplit
  rcases hsplit with hsame | ⟨htaken, hcontinues⟩
  · rw [replayed, hsame]
  · constructor
    · intro hlog
      have hnil : (missing peer n).take 100 = [] := by
        have hall := htaken.all
        rw [hlog] at hall
        exact List.append_right_eq_self.mp hall.symm
      have hmissing : missing peer n = [] := by
        rcases List.take_eq_nil_iff.mp hnil with hzero | hmissing
        · cases hzero
        · exact hmissing
      rw [replayed, hmissing]
      rfl
    · intro hlog
      exact ((hcontinues.trans (hlog ▸ List.prefix_rfl)).eq_of_length_le htaken.continues.length_le)

/-- **Every step leaves a prefix of the peer's log** exactly when the local log is complete, or no
entry is taken at all.

**Proof sketch.** The first entry that is taken is the one after the local position. It continues
the local log as the peer's log does only if the log is as long as the position, since the entries
of the peer are numbered. -/
lemma keeps_iff (hpeer : peer.Complete) (hcontinues : n.replicationLog <+: peer.replicationLog)
    (hpos : 0 ≤ n.committedPosition) (hle : n.committedPosition ≤ peer.committedPosition) :
    (∀ m ∈ (afterSync app keys role saves peer n).steps,
        m.replicationLog <+: peer.replicationLog) ↔
      ((replayed app keys role saves peer n).node.replicationLog ≠ n.replicationLog →
        (n.replicationLog.length : ℤ) = n.committedPosition) := by
  have hadvances : Advances ((missing peer n).take 100) ⟨n, []⟩
      (afterSync app keys role saves peer n) := by
    rw [hpeer.afterSync_eq hpos hle]
    exact advances_after _ _
  rw [hadvances.keeps_iff hcontinues, Ne, ← log_afterSync_eq_iff hpeer hpos hle]
  obtain ⟨k, -, hlog⟩ := hadvances.log
  rw [List.take_take] at hlog
  change _ = n.replicationLog ++ _ at hlog
  constructor
  · intro hkeeps hne
    obtain ⟨e, rest, htaken⟩ : ∃ e rest, (missing peer n).take (min k 100) = e :: rest :=
      List.exists_cons_of_ne_nil fun hnil => hne (by rw [hlog, hnil, List.append_nil])
    have hfirst : (missing peer n)[0]? = some e := by
      have hhead := congrArg (fun entries => entries[0]?) htaken
      rw [List.getElem?_take] at hhead
      split_ifs at hhead
      · exact hhead
      · cases hhead
    have hlocal : peer.replicationLog[n.replicationLog.length]? = some e := by
      obtain ⟨later, hlater⟩ := hkeeps
      rw [← hlater, hlog, htaken, List.append_assoc, List.getElem?_append_right le_rfl,
        Nat.sub_self]
      rfl
    have hnonce := hpeer.numbered _ e hlocal
    have hnonce' := hpeer.numbered n.committedPosition.toNat e (by
      rw [missing, List.getElem?_drop, Nat.add_zero] at hfirst
      exact hfirst)
    omega
  · intro hcomplete
    by_cases hsame : (afterSync app keys role saves peer n).node.replicationLog = n.replicationLog
    · rw [hsame]
      exact hcontinues
    · have hlength := hcomplete hsame
      obtain ⟨rest, hrest⟩ := hcontinues
      have hmissing : missing peer n = rest := by
        rw [missing, ← hrest, show n.committedPosition.toNat = n.replicationLog.length by omega,
          List.drop_left]
      rw [hlog, ← hrest, hmissing, List.prefix_append_right_inj]
      exact List.take_prefix _ _

/-- **When a call reports its success**: it does so unless the missing entries are a hundred at most
and bring the node to the peer, but are more than ninety, or are not all saved. -/
lemma reports_iff (hpeer : peer.Complete)
    (hlength : (n.replicationLog.length : ℤ) ≤ n.committedPosition)
    (hle : n.committedPosition ≤ peer.committedPosition) :
    (CaughtUp app peer (afterSync app keys role saves peer n).node →
        sync app keys role saves peer ⟨n, []⟩ = .ok true (afterSync app keys role saves peer n)) ↔
      ((missing peer n).length ≤ 100 →
        CaughtUp app peer (replayed app keys role saves peer n).node →
        (missing peer n).length ≤ 90 ∧ Replays app keys role saves peer n) := by
  have hpos : 0 ≤ n.committedPosition := by omega
  have hmissing := hpeer.length_missing hpos hle
  rw [hpeer.sync_eq_ok_true hpos hle, hpeer.afterSync_eq hpos hle]
  rcases Nat.lt_or_ge 100 (missing peer n).length with hlong | hshort
  · refine iff_of_true (fun hcaught => ?_) fun h => absurd h (by omega)
    -- a hundred entries do not reach the peer
    have hadvances : Advances _ _ (after (takePage app keys role saves
      ((missing peer n).take 100)) ⟨n, []⟩) := advances_after _ _
    obtain ⟨k, -, hlog⟩ := hadvances.log
    have hcount := congrArg List.length (hcaught.log.symm.trans hlog)
    have hcomplete := hpeer.length
    rw [List.length_append, List.length_take, List.length_take] at hcount
    change _ = n.replicationLog.length + _ at hcount
    omega
  · rw [List.take_of_length_le hshort]
    constructor
    · intro h _ hcaught
      obtain ⟨hreplays, hturns, -⟩ := h hcaught
      exact ⟨hturns, hreplays⟩
    · intro h hcaught
      obtain ⟨hturns, hreplays⟩ := h hshort hcaught
      exact ⟨hreplays, hturns, hcaught.digest.symm, hcaught.clean⟩

/-- A call ends after two hundred steps at most. -/
lemma length_afterSync_le (hpeer : peer.Complete) (hpos : 0 ≤ n.committedPosition)
    (hle : n.committedPosition ≤ peer.committedPosition) :
    (afterSync app keys role saves peer n).steps.length ≤ 200 := by
  rw [hpeer.afterSync_eq hpos hle]
  have hadvances : Advances _ _ (after (takePage app keys role saves
    ((missing peer n).take 100)) ⟨n, []⟩) := advances_after _ _
  obtain ⟨passed, hpassed, hcount, -⟩ := hadvances.steps
  rw [hpassed, List.nil_append]
  rw [List.length_take] at hcount
  omega

/-- **An honest peer.** If the local log is complete, and the missing entries can all be prepared,
committed and saved and bring the node to the peer, then a call reports its success exactly if
ninety entries are missing at most, or more than a hundred, which it does not reach. -/
theorem Replays.reports_iff (hreplays : Replays app keys role saves peer n)
    (hpeer : peer.Complete) (hcontinues : n.replicationLog <+: peer.replicationLog)
    (hcomplete : (n.replicationLog.length : ℤ) = n.committedPosition)
    (hcaught : CaughtUp app peer (replayed app keys role saves peer n).node) :
    Reports app keys role saves peer n ↔
      (missing peer n).length ≤ 90 ∨ 100 < (missing peer n).length := by
  have hpos : 0 ≤ n.committedPosition := by omega
  have hle : n.committedPosition ≤ peer.committedPosition := by
    have hlength := hcontinues.length_le
    have hpeerLength := hpeer.length
    omega
  have hreports := @Node.reports_iff _ _ _ _ app keys role saves peer n hpeer hcomplete.le hle
  constructor
  · intro h
    rcases Nat.lt_or_ge 100 (missing peer n).length with hlong | hshort
    · exact .inr hlong
    · exact .inl (hreports.mp h.reports hshort hcaught).1
  · intro h
    refine ⟨length_afterSync_le hpeer hpos hle,
      (keeps_iff hpeer hcontinues hpos hle).mpr fun _ => hcomplete, hreports.mpr fun hshort _ => ?_⟩
    exact ⟨h.resolve_right (by omega), hreplays⟩

/-- **When a call keeps to the peer's log and reports its success.** For every local node and every
peer with a complete log that continues the local one: this is so exactly if the local log is
complete or no entry is taken, and unless the missing entries bring the node to the peer and are
between 91 and 100, or fewer of which not all could be saved.

**Proof sketch.** A call takes the missing entries in order, a hundred at most, and every step
leaves a part of them after the local log. The turn that compares the positions comes after those
that take the entries, so that ten turns are enough for ninety entries only. -/
theorem sync_reports_iff (app : App A μ ρ) (keys : Keyring μ) (role : Role)
    (saves : ℕ → Bool × Bool) {peer n : Node A μ} (hpeer : peer.Complete)
    (hcontinues : n.replicationLog <+: peer.replicationLog)
    (hlength : (n.replicationLog.length : ℤ) ≤ n.committedPosition) :
    Reports app keys role saves peer n ↔
      ((replayed app keys role saves peer n).node.replicationLog ≠ n.replicationLog →
        (n.replicationLog.length : ℤ) = n.committedPosition) ∧
      ((missing peer n).length ≤ 100 →
        CaughtUp app peer (replayed app keys role saves peer n).node →
        (missing peer n).length ≤ 90 ∧ Replays app keys role saves peer n) := by
  have hpos : 0 ≤ n.committedPosition := by omega
  rcases le_or_gt n.committedPosition peer.committedPosition with hle | hgt
  · rw [← keeps_iff hpeer hcontinues hpos hle, ← reports_iff hpeer hlength hle]
    exact ⟨fun h => ⟨h.keeps, h.reports⟩,
      fun h => ⟨length_afterSync_le hpeer hpos hle, h.1, h.2⟩⟩
  · -- the peer refuses a position that it has not reached
    have hmissing : missing peer n = [] := by
      have hcomplete := hpeer.length
      exact List.drop_eq_nil_of_le (by omega)
    have hreplayed : (replayed app keys role saves peer n).node = n := by
      rw [replayed, hmissing]
      rfl
    have hsync : sync app keys role saves peer ⟨n, []⟩ = .ok false ⟨n, []⟩ := by
      have hrefused : history app peer n.committedPosition =
          .error (.protocol "invalid or incomplete replication history") := by
        simp only [history, decide_eq_false (not_le.mpr hgt), Bool.and_false, Bool.false_and,
          require, Bool.false_eq_true, if_false]
        rfl
      rw [eq_ok_iff]
      show Ends (syncFromPeer app keys role saves peer (9 + 1)) _ _ _
      unfold syncFromPeer
      rw [ends_bind, ends_get]
      dsimp only
      rw [hrefused]
      exact ⟨rfl, rfl⟩
    have hafter : afterSync app keys role saves peer n = ⟨n, []⟩ :=
      after_of_eq_ok hsync
    have hapart : ¬CaughtUp app peer n := fun h => hgt.ne h.position.symm
    refine iff_of_true ⟨?_, ?_, ?_⟩ ⟨?_, ?_⟩
    · rw [hafter]
      exact Nat.zero_le _
    · rw [hafter]
      exact fun m hm => absurd hm List.not_mem_nil
    · rw [hafter]
      exact fun h => absurd h hapart
    · rw [hreplayed]
      exact fun hne => absurd rfl hne
    · rw [hreplayed]
      exact fun _ h => absurd h hapart

end Reports

/-! ## Ninety-one rounds -/

/-- **An entry that is taken**, by a node without a file: its trial returns and leaves the
application as it was, and it is applied. -/
lemma takeEntry_eq_ok [DecidableEq μ] {app : App A μ ρ} {keys : Keyring μ} {role : Role}
    (saves : ℕ → Bool × Bool) {n : Node A μ} {envelope : Envelope μ} {a b : A} {r : ρ}
    (happ : n.app = a) (hstore : n.hasStore = false) (hpending : n.replicationPending = none)
    (hverify : verifyEnvelope app keys role n envelope = .ok ())
    (htrial : app.trial envelope.mutation a = .ok () a)
    (happly : app.apply envelope.mutation a = .ok r b) (steps : List (Node A μ)) :
    ∃ passed, takeEntry app keys role saves envelope ⟨n, steps⟩ =
      .ok () ⟨(n.setApp b).appendLog envelope, passed⟩ := by
  subst happ
  have hcan : ∀ returns, n.CanSave returns := fun _ h =>
    absurd (hstore.symm.trans h) Bool.false_ne_true
  have hsaved : ∀ m : Node A μ, m.hasStore = false → m.saved = m := fun m hm => by
    rw [saved, hm, if_neg Bool.false_ne_true]
  have hprepare : ∀ returns, prepareReplica app keys role returns envelope n =
      .ok () (n.setPending (some envelope)) := by
    intro returns
    rw [eq_ok_iff, ends_prepareReplica]
    refine ⟨fun e he => ?_, fun _ => ⟨fun h => ?_, fun _ h => ?_, fun _ => ?_⟩⟩
    · rw [hverify] at he
      cases he
    · rw [hpending] at h
      cases h
    · rw [hpending] at h
      cases h
    · refine (ends_of_eq_ok htrial).mpr ⟨fun _ => ⟨rfl, hsaved _ hstore⟩, fun h => ?_⟩
      exact h (hcan _)
  have hcommit : ∀ returns, commitReplica app keys role returns envelope
      (n.setPending (some envelope)) = .ok r ((n.setApp b).appendLog envelope) := by
    intro returns
    rw [eq_ok_iff, ends_commitReplica]
    refine ⟨fun e he => ?_, fun _ => ⟨fun h => absurd rfl h, fun _ => ?_⟩⟩
    · cases hverify.symm.trans he
    · refine (ends_of_eq_ok happly).mpr ⟨fun _ => ⟨rfl, hsaved _ hstore⟩, fun h => ?_⟩
      exact h (hcan _)
  refine ⟨steps ++ [n.setPending (some envelope)] ++ [(n.setApp b).appendLog envelope],
    eq_ok_iff.mpr ?_⟩
  unfold takeEntry
  rw [ends_bind, ends_get]
  simp only [hpending, Option.isNone_none, if_true, ends_bind, ends_stepOf, ends_pure]
  exact (ends_of_eq_ok (hprepare _)).mpr ((ends_of_eq_ok (hcommit _)).mpr ⟨trivial, rfl⟩)

section Rounds

open Ledger (integerLib)

/-- A ledger that has only let rounds pass. -/
def ledgerAt (round : ℤ) : Ledger ℤ :=
  { Ledger.ofBalances integerLib (Dict.ofList [("alice", 10), ("bob", 0)]) with round := round }

/-- A request that lets a round pass. -/
def advanceOnce : Request ℤ := ⟨.null, .str "advance", .obj [], .null⟩

/-- The leader's envelope for the round after `k` rounds. -/
def roundEnvelope (k : ℕ) : Envelope (Request ℤ) :=
  ⟨.primary, k + 1, advanceOnce,
    (sharedKeys integerLib "cluster").replication.signature .primary (k + 1) advanceOnce⟩

/-- A replica that has committed `k` rounds. -/
def roundsTaken : ℕ → ReferenceNode ℤ
  | 0 => fresh ⟨ledgerAt 0, none, none⟩ false
  | k + 1 => ((roundsTaken k).setApp ⟨ledgerAt (k + 1), none, none⟩).appendLog (roundEnvelope k)

/-- The ledger is restored from its snapshot. -/
lemma fromSnapshot_ledgerAt (k : ℕ) :
    Ledger.fromSnapshot integerLib (ledgerAt k).snapshot none = .ok (ledgerAt k).reloaded := by
  have hinitial := Ledger.initial_payment
  have hlock : Ledger.LockInv (ledgerAt k) :=
    ⟨(fun _ _ hb => by cases hb), hinitial.lockInv.excess_nonneg, hinitial.lockInv.locked_le⟩
  obtain ⟨genesis, base, hrecord, -⟩ := hinitial.sane.record
  have hrecord : Ledger.RecordInv genesis base (ledgerAt k) :=
    { hrecord with round_nonneg := Int.natCast_nonneg k }
  have hgenesis : genesis = none := hrecord.genesis_eq.symm
  subst hgenesis
  refine (Ledger.fromSnapshot_snapshot integerLib _ hlock nofun none nofun).mpr
    ⟨⟨nofun, ?_⟩, rfl⟩
  exact (Ledger.restorable_reloaded_iff integerLib hlock hrecord nofun nofun).mpr
    ⟨fun a => sub_eq_zero.mp (hinitial.excess_eq a), nofun⟩

/-- A trial of the request returns. -/
lemma trial_advanceOnce (k : ℕ) :
    (ledgerApp integerLib).trial advanceOnce ⟨ledgerAt k, none, none⟩ =
      .ok () ⟨ledgerAt k, none, none⟩ := by
  show Application.tryMutation _ _ _ = _
  unfold Application.tryMutation
  rw [eq_ok_iff, ends_bind, ends_get, ends_bind]
  dsimp only
  rw [fromSnapshot_ledgerAt]
  exact ⟨rfl, rfl⟩

/-- The request lets a round pass. -/
lemma apply_advanceOnce (k : ℕ) :
    (ledgerApp integerLib).apply advanceOnce ⟨ledgerAt k, none, none⟩ =
      .ok (.changed []) ⟨ledgerAt (k + 1), none, none⟩ :=
  rfl

/-- **What the replica is after `k` rounds.** -/
lemma roundsTaken_spec (k : ℕ) :
    (roundsTaken k).app = ⟨ledgerAt k, none, none⟩ ∧ (roundsTaken k).committedPosition = k ∧
      (roundsTaken k).replicationPending = none ∧ (roundsTaken k).leadership.leader = .primary ∧
      (roundsTaken k).hasStore = false ∧
      (roundsTaken k).replicationLog = (List.range k).map roundEnvelope := by
  induction k with
  | zero => exact ⟨rfl, rfl, rfl, rfl, rfl, rfl⟩
  | succ k ih =>
    obtain ⟨-, hposition, -, hleader, hstore, hlog⟩ := ih
    refine ⟨rfl, ?_, rfl, hleader, hstore, ?_⟩
    · refine (committedPosition_appendLog _ _ ?_).trans (by push_cast; rfl)
      show (roundsTaken k).committedPosition < (k : ℤ) + 1
      omega
    · rw [List.range_succ, List.map_append, ← hlog]
      rfl

/-- The replica takes the envelope of the next round. -/
lemma takeEntry_roundEnvelope (saves : ℕ → Bool × Bool) (k : ℕ) (steps : List (ReferenceNode ℤ)) :
    ∃ passed, takeEntry (ledgerApp integerLib) (sharedKeys integerLib "cluster") .secondary saves
      (roundEnvelope k) ⟨roundsTaken k, steps⟩ = .ok () ⟨roundsTaken (k + 1), passed⟩ := by
  obtain ⟨happ, hposition, hpending, hleader, hstore, -⟩ := roundsTaken_spec k
  refine takeEntry_eq_ok saves happ hstore hpending ?_ (trial_advanceOnce k)
    (apply_advanceOnce k) steps
  have hsigned : (sharedKeys integerLib "cluster").replication.verifies .primary (k + 1)
      advanceOnce (roundEnvelope k).signature = true :=
    ReplicationAuthenticator.verifies_signature _ _ _ _
  have hafter : (roundsTaken k).committedPosition < (k : ℤ) + 1 := by omega
  simp only [verifyEnvelope, ReplicationAuthenticator.verify, bind_eq_ok, require_eq_ok,
    exists_const, Bool.and_eq_true, Bool.or_eq_true, decide_eq_true_eq, beq_iff_eq, bne_iff_ne,
    hleader]
  exact ⟨.inl trivial, by decide, ⟨⟨rfl, hafter⟩, hsigned⟩, rfl⟩

/-- **A new replica takes all rounds of the log.** -/
lemma takePage_rounds (saves : ℕ → Bool × Bool) (k : ℕ) :
    ∃ passed, takePage (ledgerApp integerLib) (sharedKeys integerLib "cluster") .secondary saves
      (roundsTaken k).replicationLog ⟨roundsTaken 0, []⟩ = .ok true ⟨roundsTaken k, passed⟩ := by
  induction k with
  | zero => exact ⟨[], rfl⟩
  | succ k ih =>
    obtain ⟨steps, hsteps⟩ := ih
    obtain ⟨passed, hpassed⟩ := takeEntry_roundEnvelope saves k steps
    obtain ⟨-, -, hpending, -⟩ := roundsTaken_spec k
    refine ⟨passed, ?_⟩
    show takePage _ _ _ _ ((roundsTaken k).replicationLog ++ [roundEnvelope k]) _ = _
    rw [takePage_append, eq_ok_iff, ends_bind]
    refine (ends_of_eq_ok hsteps).mpr ?_
    unfold takePage
    simp only [if_true, ends_bind, ends_get, hpending, Option.any_none, Bool.false_eq_true,
      if_false, ends_caught]
    exact (ends_of_eq_ok hpassed).mpr ⟨rfl, rfl⟩

/-- The log of a replica that has committed some rounds is complete. -/
lemma complete_roundsTaken (k : ℕ) : (roundsTaken k).Complete := by
  obtain ⟨-, hposition, -, -, -, hlog⟩ := roundsTaken_spec k
  refine ⟨?_, fun i e he => ?_⟩
  · rw [hlog, hposition, List.length_map, List.length_range]
  · rw [hlog, List.getElem?_map, Option.map_eq_some_iff] at he
    obtain ⟨j, hj, rfl⟩ := he
    obtain ⟨hi, hj⟩ := List.getElem?_eq_some_iff.mp hj
    rw [List.getElem_range] at hj
    rw [hj]
    rfl

/-- The log of a replica continues that of a new one. -/
lemma prefix_roundsTaken (k : ℕ) :
    (roundsTaken 0).replicationLog <+: (roundsTaken k).replicationLog :=
  List.nil_prefix

/-- All rounds are missing on a new replica. -/
lemma missing_roundsTaken (k : ℕ) :
    missing (roundsTaken k) (roundsTaken 0) = (roundsTaken k).replicationLog :=
  List.drop_zero

/-- A call of a new replica takes a hundred rounds, and counts ninety of them as a success. -/
lemma sync_rounds {k : ℕ} (hk : k ≤ 100) :
    ∃ passed, sync (ledgerApp integerLib) (sharedKeys integerLib "cluster") .secondary
      (fun _ => (true, true)) (roundsTaken k) ⟨roundsTaken 0, []⟩ =
        .ok (decide (k ≤ 90)) ⟨roundsTaken k, passed⟩ := by
  obtain ⟨passed, hpage⟩ := takePage_rounds (fun _ => (true, true)) k
  obtain ⟨-, hposition, hpending, -, -, hlog⟩ := roundsTaken_spec k
  have hlength : (roundsTaken k).replicationLog.length = k := by
    rw [hlog, List.length_map, List.length_range]
  have hle : (roundsTaken 0).committedPosition ≤ (roundsTaken k).committedPosition := by
    rw [hposition]
    exact Int.natCast_nonneg k
  refine ⟨passed, ?_⟩
  rw [sync, eq_ok_iff, ends_syncFromPeer (complete_roundsTaken k) 10 ⟨roundsTaken 0, []⟩ le_rfl hle]
  dsimp only
  rw [missing_roundsTaken, List.take_of_length_le (by omega)]
  refine (ends_of_eq_ok hpage).mpr ⟨?_, rfl⟩
  rw [hlength, hpending, beq_self_eq_true, Bool.true_and, Option.isNone_none, Bool.and_true,
    Bool.and_true]
  exact decide_eq_decide.mpr (by omega)

/-- **Ninety-one missing rounds.** The peer's log is complete and continues that of the replica, no
record is prepared, and every save returns. After the call the replica has reached the peer, but
the call has returned `False`. -/
theorem sync_ninety_one_rounds :
    (roundsTaken 91).Complete ∧
      (roundsTaken 0).replicationLog <+: (roundsTaken 91).replicationLog ∧
      (roundsTaken 0).replicationPending = none ∧
      (roundsTaken 0).leadership.leader = (roundsTaken 91).leadership.leader ∧
      CaughtUp (ledgerApp integerLib) (roundsTaken 91) (afterSync (ledgerApp integerLib)
        (sharedKeys integerLib "cluster") .secondary (fun _ => (true, true)) (roundsTaken 91)
        (roundsTaken 0)).node ∧
      sync (ledgerApp integerLib) (sharedKeys integerLib "cluster") .secondary
          (fun _ => (true, true)) (roundsTaken 91) ⟨roundsTaken 0, []⟩ =
        .ok false (afterSync (ledgerApp integerLib) (sharedKeys integerLib "cluster") .secondary
          (fun _ => (true, true)) (roundsTaken 91) (roundsTaken 0)) := by
  obtain ⟨passed, hsync⟩ := sync_rounds (k := 91) (by omega)
  obtain ⟨-, -, hpending, hleader, -, -⟩ := roundsTaken_spec 91
  have hafter : afterSync (ledgerApp integerLib) (sharedKeys integerLib "cluster") .secondary
      (fun _ => (true, true)) (roundsTaken 91) (roundsTaken 0) = ⟨roundsTaken 91, passed⟩ :=
    after_of_eq_ok hsync
  rw [hafter, hleader]
  exact ⟨complete_roundsTaken 91, prefix_roundsTaken 91, rfl, rfl, ⟨rfl, rfl, rfl, hpending⟩, hsync⟩

/-- Ninety missing rounds: the call keeps to the peer's log and reports its success. -/
theorem sync_ninety_rounds :
    Reports (ledgerApp integerLib) (sharedKeys integerLib "cluster") .secondary
      (fun _ => (true, true)) (roundsTaken 90) (roundsTaken 0) := by
  obtain ⟨passed, hpage⟩ := takePage_rounds (fun _ => (true, true)) 90
  obtain ⟨-, -, -, -, -, hlog⟩ := roundsTaken_spec 90
  refine (sync_reports_iff _ _ _ _ (complete_roundsTaken 90) (prefix_roundsTaken 90) le_rfl).mpr
    ⟨fun _ => rfl, fun _ _ => ⟨?_, ?_⟩⟩
  · rw [missing_roundsTaken, hlog, List.length_map, List.length_range]
  · unfold Replays replayed
    rw [missing_roundsTaken, hpage, after_of_eq_ok hpage]

end Rounds

end Node

end SplitChain
