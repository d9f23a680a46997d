import Mathlib.Data.List.Forall2
import Mathlib.Data.Option.Basic

set_option relaxedAutoImplicit false
set_option autoImplicit false

/-!
# Computations that raise

Guards for computations in `Except`, with the inversion rule of each: what is known when a
computation that contains the guard has returned.

## Main definitions

* `Raise.require` — raise unless a condition holds.
* `Raise.orRaise` — the value of an option, or raise.
* `Raise.RaisesOnly` — every exception of a computation satisfies a condition.

## Main results

* `Raise.bind_eq_ok`, `Raise.require_eq_ok`, `Raise.orRaise_eq_ok`, `Raise.mapM_eq_ok`.
* `Raise.Rel.bind` — related computations, one after the other.
* `Raise.RaisesOnly.bind` — a sequence raises what its parts raise.
-/

namespace Raise

universe u v

variable {ε : Type u} {α β : Type v}

/-- Raise `e` unless `b` holds. -/
def require (b : Bool) (e : ε) : Except ε Unit := if b then .ok () else .error e

/-- The value of an option; raise `e` if there is none. -/
def orRaise (o : Option α) (e : ε) : Except ε α :=
  match o with
  | some a => .ok a
  | none => .error e

/-- A sequence returns when its first part returns and the rest returns from its value. -/
lemma bind_eq_ok {x : Except ε α} {f : α → Except ε β} {b : β} :
    (x >>= f) = .ok b ↔ ∃ a, x = .ok a ∧ f a = .ok b := by
  cases x <;> simp [bind, Except.bind]

/-- Mapping the result. -/
lemma map_eq_ok {x : Except ε α} {f : α → β} {b : β} :
    f <$> x = .ok b ↔ ∃ a, x = .ok a ∧ f a = b := by
  cases x <;> simp [Functor.map, Except.map]

/-- A guard returns exactly when its condition holds. -/
@[simp] lemma require_eq_ok {b : Bool} {e : ε} {u : Unit} : require b e = .ok u ↔ b = true := by
  cases b <;> simp [require]

/-- An option is unwrapped exactly to its value. -/
@[simp] lemma orRaise_eq_ok {o : Option α} {e : ε} {a : α} : orRaise o e = .ok a ↔ o = some a := by
  cases o <;> simp [orRaise]

@[simp] lemma pure_eq_ok {a b : α} : (pure a : Except ε α) = .ok b ↔ a = b := by
  simp [pure, Except.pure]

/-- An optional result is there when the computation returns it. -/
@[simp] lemma toOption_eq_some {x : Except ε α} {a : α} : x.toOption = some a ↔ x = .ok a := by
  cases x <;> simp [Except.toOption]

@[simp] lemma ok_bind {a : α} {f : α → Except ε β} : ((.ok a : Except ε α) >>= f) = f a := rfl

@[simp] lemma error_bind {e : ε} {f : α → Except ε β} :
    ((.error e : Except ε α) >>= f) = .error e := rfl

/-- A loop over a list returns exactly the results of its turns. -/
lemma mapM_eq_ok {α β : Type v} {f : α → Except ε β} {xs : List α} {bs : List β} :
    xs.mapM f = .ok bs ↔ List.Forall₂ (fun x b => f x = .ok b) xs bs := by
  induction xs generalizing bs with
  | nil => rw [List.mapM_nil, pure_eq_ok, List.forall₂_nil_left_iff, eq_comm]
  | cons x xs ih =>
    simp only [List.mapM_cons, bind_eq_ok, pure_eq_ok, ih, List.forall₂_cons_left_iff]
    exact ⟨fun ⟨b, hb, cs, hcs, h⟩ => ⟨b, cs, hb, hcs, h.symm⟩,
      fun ⟨b, cs, hb, hcs, h⟩ => ⟨b, hb, cs, hcs, h.symm⟩⟩

/-- Every turn of a loop that returns has returned. -/
lemma exists_of_mapM_eq_ok {α β : Type v} {f : α → Except ε β} {xs : List α} {bs : List β}
    (h : xs.mapM f = .ok bs) {x : α} (hx : x ∈ xs) : ∃ b, f x = .ok b := by
  have hforall := mapM_eq_ok.mp h
  induction hforall with
  | nil => cases hx
  | cons hhead _ ih =>
    rcases List.mem_cons.mp hx with rfl | hx
    · exact ⟨_, hhead⟩
    · exact ih (mapM_eq_ok.mpr ‹_›) hx

/-! ## Exceptions -/

/-- Every exception of `x` satisfies `P`. -/
def RaisesOnly (P : ε → Prop) (x : Except ε α) : Prop := ∀ e, x = .error e → P e

variable {P : ε → Prop}

/-- A sequence raises what its parts raise. -/
lemma RaisesOnly.bind {x : Except ε α} {f : α → Except ε β} (hx : RaisesOnly P x)
    (hf : ∀ a, x = .ok a → RaisesOnly P (f a)) : RaisesOnly P (x >>= f) := by
  cases x with
  | error e => intro e' h; rw [error_bind, Except.error.injEq] at h; exact h ▸ hx e rfl
  | ok a => exact hf a rfl

/-- Mapping the result does not change the exceptions. -/
lemma RaisesOnly.map {x : Except ε α} (hx : RaisesOnly P x) (f : α → β) :
    RaisesOnly P (f <$> x) := by
  cases x with
  | error e => intro e' h; cases h; exact hx e rfl
  | ok a => intro e' h; cases h

/-- A computation that returns raises nothing. -/
lemma raisesOnly_of_eq_ok {x : Except ε α} {a : α} (h : x = .ok a) : RaisesOnly P x := by
  rintro e rfl; cases h

lemma raisesOnly_pure (a : α) : RaisesOnly P (pure a : Except ε α) := raisesOnly_of_eq_ok rfl

/-- A guard raises its exception. -/
lemma raisesOnly_require {b : Bool} {e : ε} (he : P e) : RaisesOnly P (require b e) := by
  intro e' h
  cases b
  · simp only [require, Bool.false_eq_true, if_false, Except.error.injEq] at h; exact h ▸ he
  · simp [require] at h

/-- Unwrapping raises its exception. -/
lemma raisesOnly_orRaise {o : Option α} {e : ε} (he : P e) : RaisesOnly P (orRaise o e) := by
  intro e' h
  cases o
  · simp only [orRaise, Except.error.injEq] at h; exact h ▸ he
  · simp [orRaise] at h

/-! ## Two computations -/

/-- Two computations raise the same exception, or return related values. -/
def Rel {γ : Type*} (R : α → γ → Prop) : Except ε α → Except ε γ → Prop
  | .ok a, .ok c => R a c
  | .error e, .error f => e = f
  | _, _ => False

section Relations

variable {γ δ : Type v} {R : α → γ → Prop} {S : β → δ → Prop}

/-- Related computations, one after the other. -/
lemma Rel.bind {x : Except ε α} {y : Except ε γ} {f : α → Except ε β} {g : γ → Except ε δ}
    (hx : Rel R x y) (hf : ∀ a c, R a c → Rel S (f a) (g c)) : Rel S (x >>= f) (y >>= g) := by
  cases x with
  | error e =>
    cases y with
    | error e' => exact hx
    | ok c => exact hx.elim
  | ok a =>
    cases y with
    | error e' => exact hx.elim
    | ok c => exact hf a c hx

/-- A computation is related to itself by equality. -/
lemma rel_eq (x : Except ε α) : Rel Eq x x := by
  cases x <;> rfl

/-- The same guard on both sides. -/
lemma rel_require (b : Bool) (e : ε) : Rel (fun _ _ => True) (require b e) (require b e) := by
  cases b <;> trivial

/-- Related options are unwrapped to related values. -/
lemma rel_orRaise {o : Option α} {q : Option γ} {e : ε} (h : Option.Rel R o q) :
    Rel R (orRaise o e) (orRaise q e) := by
  cases h with
  | some h => exact h
  | none => rfl

/-- Mapping related values. -/
lemma Rel.map {x : Except ε α} {y : Except ε γ} {f : α → β} {g : γ → δ} (hx : Rel R x y)
    (hf : ∀ a c, R a c → S (f a) (g c)) : Rel S (f <$> x) (g <$> y) := by
  cases x with
  | error e =>
    cases y with
    | error e' => exact hx
    | ok c => exact hx.elim
  | ok a =>
    cases y with
    | error e' => exact hx.elim
    | ok c => exact hf a c hx

/-- A computation that returns is related to one that returns. -/
lemma Rel.exists_ok {x : Except ε α} {y : Except ε γ} {a : α} (h : Rel R x y) (hx : x = .ok a) :
    ∃ c, y = .ok c ∧ R a c := by
  subst hx
  cases y with
  | error e => exact h.elim
  | ok c => exact ⟨c, rfl, h⟩

end Relations

end Raise
