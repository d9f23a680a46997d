import Mathlib.Tactic.Common

set_option relaxedAutoImplicit false
set_option autoImplicit false

/-!
# Computations whose state survives exceptions

`EStateM ε σ` computes with a state `σ` that is not rolled back when an exception `ε` is raised.
This file has its rules of pre- and postconditions: `Ends x s P E` says that, however `x` ends
when it is started in `s`, `P` holds of a result and the state it leaves, and `E` of an exception
and the state it leaves.

## Main definitions

* `Proc.Ends` — the postconditions of a computation.
* `Proc.lift` — a computation without state.
* `Proc.onPart` — a computation on a part of the state.
* `Proc.Preserves` — an invariant of a computation, exceptions included.

## Main results

* `Proc.ends_bind` — the rule of sequential composition.
* `Proc.Preserves.bind`, `Proc.Preserves.onPart`.
-/

namespace Proc

universe u

variable {ε σ τ α β : Type u}

/-! ## Postconditions -/

/-- However `x` ends from `s`: with a result it leaves `P`, with an exception `E`. -/
def Ends (x : EStateM ε σ α) (s : σ) (P : α → σ → Prop) (E : ε → σ → Prop) : Prop :=
  match x s with
  | .ok a t => P a t
  | .error e t => E e t

section Rules

variable {x : EStateM ε σ α} {s : σ} {P Q : α → σ → Prop} {E F : ε → σ → Prop}

/-- A computation that returns. -/
lemma ends_of_eq_ok {a : α} {t : σ} (h : x s = .ok a t) : Ends x s P E ↔ P a t := by
  rw [Ends, h]

/-- A computation that raises. -/
lemma ends_of_eq_error {e : ε} {t : σ} (h : x s = .error e t) : Ends x s P E ↔ E e t := by
  rw [Ends, h]

/-- The postconditions as statements about the two ways to end. -/
lemma ends_iff : Ends x s P E ↔
    (∀ a t, x s = .ok a t → P a t) ∧ ∀ e t, x s = .error e t → E e t := by
  unfold Ends
  cases x s <;> simp

/-- The only way to end is to return `a` in the state `t`. -/
lemma eq_ok_iff {a : α} {t : σ} :
    x s = .ok a t ↔ Ends x s (fun b u => b = a ∧ u = t) fun _ _ => False := by
  unfold Ends
  cases x s <;> simp

/-- The only way to end is to raise `e` in the state `t`. -/
lemma eq_error_iff {e : ε} {t : σ} :
    x s = .error e t ↔ Ends x s (fun _ _ => False) fun f u => f = e ∧ u = t := by
  unfold Ends
  cases x s <;> simp

/-- **Consequence.** Weaker postconditions hold too. -/
lemma Ends.mono (h : Ends x s P E) (hP : ∀ a t, P a t → Q a t) (hE : ∀ e t, E e t → F e t) :
    Ends x s Q F := by
  rw [ends_iff] at h ⊢
  exact ⟨fun a t ht => hP a t (h.1 a t ht), fun e t ht => hE e t (h.2 e t ht)⟩

@[simp] lemma ends_pure {a : α} : Ends (pure a : EStateM ε σ α) s P E ↔ P a s := Iff.rfl

@[simp] lemma ends_throw {e : ε} : Ends (throw e : EStateM ε σ α) s P E ↔ E e s := Iff.rfl

@[simp] lemma ends_get {P : σ → σ → Prop} : Ends (get : EStateM ε σ σ) s P E ↔ P s s := Iff.rfl

@[simp] lemma ends_set {t : σ} {P : PUnit → σ → Prop} :
    Ends (set t : EStateM ε σ PUnit) s P E ↔ P ⟨⟩ t := Iff.rfl

@[simp] lemma ends_modify {f : σ → σ} {P : PUnit → σ → Prop} :
    Ends (modify f : EStateM ε σ PUnit) s P E ↔ P ⟨⟩ (f s) := Iff.rfl

/-- **Sequential composition.** -/
@[simp] lemma ends_bind {f : α → EStateM ε σ β} {P : β → σ → Prop} :
    Ends (x >>= f) s P E ↔ Ends x s (fun a t => Ends (f a) t P E) E := by
  unfold Ends
  simp only [bind, EStateM.bind]
  cases x s <;> rfl

/-- Both of two postconditions. -/
lemma Ends.and (h : Ends x s P E) (h' : Ends x s Q F) :
    Ends x s (fun a t => P a t ∧ Q a t) fun e t => E e t ∧ F e t := by
  rw [ends_iff] at h h' ⊢
  exact ⟨fun a t ht => ⟨h.1 a t ht, h'.1 a t ht⟩, fun e t ht => ⟨h.2 e t ht, h'.2 e t ht⟩⟩

/-- A computation that cannot raise returns. -/
lemma Ends.exists_ok (h : Ends x s P fun _ _ => False) : ∃ a t, x s = .ok a t ∧ P a t := by
  unfold Ends at h
  cases hx : x s with
  | ok a t =>
    rw [hx] at h
    exact ⟨a, t, rfl, h⟩
  | error e t =>
    rw [hx] at h
    exact h.elim

/-- A computation goes on from where its first part ends. -/
lemma Ends.bind {f : α → EStateM ε σ β} {R : β → σ → Prop} (hx : Ends x s P E)
    (hf : ∀ a t, P a t → Ends (f a) t R E) : Ends (x >>= f) s R E :=
  ends_bind.mpr (hx.mono hf fun _ _ h => h)

@[simp] lemma ends_map {f : α → β} {P : β → σ → Prop} :
    Ends (f <$> x) s P E ↔ Ends x s (fun a t => P (f a) t) E := by
  unfold Ends
  simp only [Functor.map, EStateM.map]
  cases x s <;> rfl

end Rules

/-- The state in which a computation ends, whether it returns or raises. -/
def after (x : EStateM ε σ α) (s : σ) : σ :=
  match x s with
  | .ok _ t => t
  | .error _ t => t

/-- A property of the state in which a computation ends. -/
lemma after_iff {x : EStateM ε σ α} {s : σ} {P : σ → Prop} :
    P (after x s) ↔ Ends x s (fun _ t => P t) fun _ t => P t := by
  unfold Ends after
  cases x s <;> rfl

/-- The only state in which a computation ends. -/
lemma after_eq_iff {x : EStateM ε σ α} {s t : σ} :
    after x s = t ↔ Ends x s (fun _ u => u = t) fun _ u => u = t :=
  after_iff (P := fun u => u = t)

/-- A computation that returns ends where it returns. -/
lemma after_of_eq_ok {x : EStateM ε σ α} {s t : σ} {a : α} (h : x s = .ok a t) :
    after x s = t := by
  rw [after, h]

/-- A computation that raises ends where it raises. -/
lemma after_of_eq_error {x : EStateM ε σ α} {s t : σ} {e : ε} (h : x s = .error e t) :
    after x s = t := by
  rw [after, h]

/-- Whether a computation returns. -/
def returns (x : EStateM ε σ α) (s : σ) : Bool :=
  match x s with
  | .ok _ _ => true
  | .error _ _ => false

/-- A computation that returns does so in the state in which it ends. -/
lemma returns_iff {x : EStateM ε σ α} {s : σ} :
    returns x s = true ↔ ∃ a, x s = .ok a (after x s) := by
  unfold returns after
  cases x s <;> simp

/-- How a computation ends: whether it returns, and in which state. -/
lemma returns_after_iff {x : EStateM ε σ α} {s : σ} {P : Bool → σ → Prop} :
    P (returns x s) (after x s) ↔ Ends x s (fun _ t => P true t) fun _ t => P false t := by
  unfold Ends after returns
  cases x s <;> rfl

/-- The postcondition of the way in which a computation ends. -/
lemma Ends.returns {x : EStateM ε σ α} {s : σ} {P : α → σ → Prop} {E : ε → σ → Prop}
    (h : Ends x s P E) : (returns x s = true → ∃ a, P a (after x s)) ∧
      (returns x s = false → ∃ e, E e (after x s)) := by
  unfold Ends at h
  unfold Proc.returns after
  cases hx : x s with
  | ok a t =>
    rw [hx] at h
    exact ⟨fun _ => ⟨a, h⟩, fun hnot => by cases hnot⟩
  | error e t =>
    rw [hx] at h
    exact ⟨fun hnot => (by cases hnot), fun _ => ⟨e, h⟩⟩

/-! ## Computations without state -/

/-- A computation that neither reads nor changes the state. -/
def lift (x : Except ε α) : EStateM ε σ α := fun s =>
  match x with
  | .ok a => .ok a s
  | .error e => .error e s

@[simp] lemma lift_ok {a : α} {s : σ} : lift (.ok a : Except ε α) s = .ok a s := rfl

@[simp] lemma lift_error {e : ε} {s : σ} : lift (.error e : Except ε α) s = .error e s := rfl

@[simp] lemma ends_lift {x : Except ε α} {s : σ} {P : α → σ → Prop} {E : ε → σ → Prop} :
    Ends (lift x) s P E ↔ (∀ a, x = .ok a → P a s) ∧ ∀ e, x = .error e → E e s := by
  unfold Ends
  cases x <;> simp

/-- A check: it raises, or there is nothing but its success to go on with. -/
lemma ends_guard {x : Except ε PUnit} {s : σ} {P : PUnit → σ → Prop} {E : ε → σ → Prop} :
    Ends (lift x) s P E ↔ (∀ e, x = .error e → E e s) ∧ (x = .ok ⟨⟩ → P ⟨⟩ s) := by
  unfold Ends
  cases x <;> simp

/-! ## Parts of the state -/

/-- Run a computation on the part of the state that `part` reads and `update` writes. -/
def onPart (part : σ → τ) (update : σ → τ → σ) (x : EStateM ε τ α) : EStateM ε σ α := fun s =>
  match x (part s) with
  | .ok a t => .ok a (update s t)
  | .error e t => .error e (update s t)

@[simp] lemma ends_onPart {part : σ → τ} {update : σ → τ → σ} {x : EStateM ε τ α} {s : σ}
    {P : α → σ → Prop} {E : ε → σ → Prop} :
    Ends (onPart part update x) s P E ↔
      Ends x (part s) (fun a t => P a (update s t)) fun e t => E e (update s t) := by
  unfold Ends onPart
  cases x (part s) <;> rfl

/-! ## Invariants -/

/-- `x` keeps `I`, whether it returns or raises. -/
def Preserves (I : σ → Prop) (x : EStateM ε σ α) : Prop :=
  ∀ s, I s → Ends x s (fun _ t => I t) fun _ t => I t

section Invariants

variable {I : σ → Prop} {x : EStateM ε σ α}

lemma preserves_pure (a : α) : Preserves I (pure a : EStateM ε σ α) := fun _ h => h

lemma preserves_throw (e : ε) : Preserves I (throw e : EStateM ε σ α) := fun _ h => h

lemma preserves_lift (x : Except ε α) : Preserves I (lift x : EStateM ε σ α) := fun _ h =>
  ends_lift.mpr ⟨fun _ _ => h, fun _ _ => h⟩

/-- A change of the state that keeps the invariant. -/
lemma preserves_modify {f : σ → σ} (hf : ∀ s, I s → I (f s)) :
    Preserves I (modify f : EStateM ε σ PUnit) := hf

/-- **Invariants compose.** -/
lemma Preserves.bind {f : α → EStateM ε σ β} (hx : Preserves I x) (hf : ∀ a, Preserves I (f a)) :
    Preserves I (x >>= f) := fun s h =>
  ends_bind.mpr ((hx s h).mono (fun a t ht => hf a t ht) fun _ _ ht => ht)

/-- An invariant of the whole that the change of a part keeps. -/
lemma Preserves.onPart {J : τ → Prop} {part : σ → τ} {update : σ → τ → σ} {x : EStateM ε τ α}
    (hx : Preserves J x) (hread : ∀ s, I s → J (part s))
    (hwrite : ∀ s t, I s → J t → I (update s t)) : Preserves I (onPart part update x) := by
  intro s h
  rw [ends_onPart]
  exact (hx _ (hread s h)).mono (fun _ t ht => hwrite s t h ht) fun _ t ht => hwrite s t h ht

end Invariants

end Proc
