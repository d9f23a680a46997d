import Mathlib.Tactic.Common

set_option relaxedAutoImplicit false
set_option autoImplicit false

/-!
# Computations in single calls

A routine reaches what it shares with others, such as files, in single calls and may be stopped,
or others may go on, between any two of them. This file has routines over arbitrary calls and the
rules of a relation between what a routine relies on and what it guarantees:
`Routine.Ensures exec R C G x s P E` says that, while others change the shared state by `R` only and
every call meets the condition `C`, every call of `x` changes it by `G`, and that `P` holds when `x`
returns and `E` when it raises.

## Main definitions

* `Routine` — a result, an exception, or a call and what follows each of its answers.
* `Routine.handle`, `Routine.ensuring` — `try … except` and `try … finally`.
* `Routine.Ensures` — what a routine guarantees.

## Main results

* `Routine.ensures_bind`, `Routine.ensures_handle`, `Routine.ensures_ensuring`.
* `Routine.Ensures.run` — how a run without a stop ends.
-/

universe u

/-- A computation that makes calls `op` with answers in `Answer op`. -/
inductive Routine (Op : Type u) (Answer : Op → Type u) (ε α : Type u) where
  | ret (a : α)
  | raise (e : ε)
  | call (op : Op) (next : Answer op → Routine Op Answer ε α)

namespace Routine

variable {Op : Type u} {Answer : Op → Type u} {ε α β ι σ : Type u}

/-! ## Composition -/

/-- One routine after the other. -/
def bind (x : Routine Op Answer ε α) (f : α → Routine Op Answer ε β) : Routine Op Answer ε β :=
  match x with
  | ret a => f a
  | raise e => raise e
  | call op next => call op fun answer => (next answer).bind f

instance : Monad (Routine Op Answer ε) where
  pure := ret
  bind := bind

/-- A single call. -/
def perform (op : Op) : Routine Op Answer ε (Answer op) := call op ret

/-- A computation without calls. -/
def lift : Except ε α → Routine Op Answer ε α
  | .ok a => ret a
  | .error e => raise e

/-- `try: … except`: what follows an exception. -/
def handle (x : Routine Op Answer ε α) (h : ε → Routine Op Answer ε α) : Routine Op Answer ε α :=
  match x with
  | ret a => ret a
  | raise e => h e
  | call op next => call op fun answer => (next answer).handle h

/-- `try: … finally`: clean up, whether there is a result or an exception. -/
def ensuring (x : Routine Op Answer ε α) (cleanup : Routine Op Answer ε PUnit) :
    Routine Op Answer ε α :=
  match x with
  | ret a => cleanup.bind fun _ => ret a
  | raise e => cleanup.bind fun _ => raise e
  | call op next => call op fun answer => (next answer).ensuring cleanup

/-- Whether a routine has come to its end. -/
def ended : Routine Op Answer ε α → Bool
  | call _ _ => false
  | _ => true

/-- Run a routine without a stop, the environment giving the same input to every call. -/
def run (exec : (op : Op) → ι → σ → Answer op × σ) (i : ι) :
    Routine Op Answer ε α → σ → Except ε α × σ
  | ret a, s => (.ok a, s)
  | raise e, s => (.error e, s)
  | call op next, s => (next (exec op i s).1).run exec i (exec op i s).2

section Runs

variable {exec : (op : Op) → ι → σ → Answer op × σ} {i : ι} {s t : σ} {x : Routine Op Answer ε α}

/-- A run goes on from the result of its first part. -/
lemma run_bind_of_ok {f : α → Routine Op Answer ε β} {a : α} (h : x.run exec i s = (.ok a, t)) :
    (x >>= f).run exec i s = (f a).run exec i t := by
  induction x generalizing s with
  | ret b =>
    obtain ⟨hb, rfl⟩ := Prod.mk.inj h
    exact Except.ok.inj hb ▸ rfl
  | raise e => cases (Prod.mk.inj h).1
  | call op next ih => exact ih _ h

/-- What handles exceptions is not run after a result. -/
lemma run_handle_of_ok {handler : ε → Routine Op Answer ε α} {a : α}
    (h : x.run exec i s = (.ok a, t)) : (x.handle handler).run exec i s = (.ok a, t) := by
  induction x generalizing s with
  | ret b => exact h
  | raise e => cases (Prod.mk.inj h).1
  | call op next ih => exact ih _ h

/-- What cleans up runs after a result. -/
lemma run_ensuring_of_ok {cleanup : Routine Op Answer ε PUnit} {a : α}
    (h : x.run exec i s = (.ok a, t)) :
    (x.ensuring cleanup).run exec i s = (cleanup >>= fun _ => ret a).run exec i t := by
  induction x generalizing s with
  | ret b =>
    obtain ⟨hb, rfl⟩ := Prod.mk.inj h
    exact Except.ok.inj hb ▸ rfl
  | raise e => cases (Prod.mk.inj h).1
  | call op next ih => exact ih _ h

end Runs

/-! ## Guarantees -/

section Guarantees

variable (exec : (op : Op) → ι → σ → Answer op × σ) (R : σ → σ → Prop) (C : Op → σ → Prop)
  (G : σ → σ → Prop)

/-- From `s`, while others change the state by `R` and the calls meet `C`: every call changes the
state by `G`, a result leaves `P` and an exception `E`. -/
def Ensures : Routine Op Answer ε α → σ → (α → σ → Prop) → (ε → σ → Prop) → Prop
  | ret a, s, P, _ => P a s
  | raise e, s, _, E => E e s
  | call op next, s, P, E => ∀ t, R s t → C op t → ∀ i,
      G t (exec op i t).2 ∧ (next (exec op i t).1).Ensures (exec op i t).2 P E

variable {exec R C G} {s t : σ} {x : Routine Op Answer ε α} {P Q : α → σ → Prop}
  {E F : ε → σ → Prop}

@[simp] lemma ensures_ret {a : α} : (ret a).Ensures exec R C G s P E ↔ P a s := Iff.rfl

@[simp] lemma ensures_pure {a : α} :
    (pure a : Routine Op Answer ε α).Ensures exec R C G s P E ↔ P a s := Iff.rfl

@[simp] lemma ensures_raise {e : ε} : (raise e).Ensures exec R C G s P E ↔ E e s := Iff.rfl

/-- **Sequential composition.** -/
@[simp] lemma ensures_bind {f : α → Routine Op Answer ε β} {P : β → σ → Prop} :
    (x >>= f).Ensures exec R C G s P E ↔
      x.Ensures exec R C G s (fun a t => (f a).Ensures exec R C G t P E) E := by
  induction x generalizing s with
  | ret a => exact Iff.rfl
  | raise e => exact Iff.rfl
  | call op next ih =>
    exact forall₄_congr fun t _ _ i => and_congr_right fun _ => ih (exec op i t).1

/-- **Consequence.** Weaker postconditions hold too. -/
lemma Ensures.mono (h : x.Ensures exec R C G s P E) (hP : ∀ a t, P a t → Q a t)
    (hE : ∀ e t, E e t → F e t) : x.Ensures exec R C G s Q F := by
  induction x generalizing s with
  | ret a => exact hP a s h
  | raise e => exact hE e s h
  | call op next ih => exact fun t hR hC i => ⟨(h t hR hC i).1, ih _ (h t hR hC i).2⟩

/-- A routine goes on from where its first part ends. -/
lemma Ensures.bind {f : α → Routine Op Answer ε β} {Q : β → σ → Prop}
    (hx : x.Ensures exec R C G s P E) (hf : ∀ a t, P a t → (f a).Ensures exec R C G t Q E) :
    (x >>= f).Ensures exec R C G s Q E :=
  ensures_bind.mpr (hx.mono hf fun _ _ h => h)

/-- A computation without calls leaves the state as it is. -/
@[simp] lemma ensures_lift {y : Except ε α} : (lift y).Ensures exec R C G s P E ↔
    (∀ a, y = .ok a → P a s) ∧ ∀ e, y = .error e → E e s := by
  cases y <;> simp [lift]

/-- **Handling.** What handles an exception goes on from where it was raised. -/
@[simp] lemma ensures_handle {h : ε → Routine Op Answer ε α} :
    (x.handle h).Ensures exec R C G s P E ↔
      x.Ensures exec R C G s P fun e t => (h e).Ensures exec R C G t P E := by
  induction x generalizing s with
  | ret a => exact Iff.rfl
  | raise e => exact Iff.rfl
  | call op next ih =>
    exact forall₄_congr fun t _ _ i => and_congr_right fun _ => ih (exec op i t).1

/-- **Cleaning up.** It goes on from where the result or the exception was. -/
@[simp] lemma ensures_ensuring {cleanup : Routine Op Answer ε PUnit} :
    (x.ensuring cleanup).Ensures exec R C G s P E ↔
      x.Ensures exec R C G s (fun a t => cleanup.Ensures exec R C G t (fun _ u => P a u) E)
        fun e t => cleanup.Ensures exec R C G t (fun _ u => E e u) E := by
  induction x generalizing s with
  | ret a => exact ensures_bind (f := fun _ => ret a)
  | raise e => exact ensures_bind (f := fun _ => raise e)
  | call op next ih =>
    exact forall₄_congr fun t _ _ i => and_congr_right fun _ => ih (exec op i t).1

/-- **A run without a stop** ends as is guaranteed where nobody else changes the state. -/
lemma Ensures.run (h : x.Ensures exec Eq (fun _ _ => True) G s P E) (i : ι) :
    (∀ a, (x.run exec i s).1 = .ok a → P a (x.run exec i s).2) ∧
      ∀ e, (x.run exec i s).1 = .error e → E e (x.run exec i s).2 := by
  induction x generalizing s with
  | ret a => exact ⟨fun b hb => Except.ok.inj hb ▸ h, nofun⟩
  | raise e => exact ⟨nofun, fun f hf => Except.error.inj hf ▸ h⟩
  | call op next ih => exact ih _ (h s rfl trivial i).2

/-- What holds however a run without a stop ends. -/
lemma Ensures.run_snd {Q : σ → Prop}
    (h : x.Ensures exec Eq (fun _ _ => True) G s (fun _ => Q) fun _ => Q) (i : ι) :
    Q (x.run exec i s).2 := by
  obtain ⟨hok, herror⟩ := h.run i
  cases hx : (x.run exec i s).1 with
  | ok a => exact hok a hx
  | error e => exact herror e hx

end Guarantees

end Routine
