import Mathlib.Order.Defs.Unbundled
import Mathlib.Data.List.Induction
import Mathlib.Tactic.ByContra
import Mathlib.Tactic.Tauto

set_option relaxedAutoImplicit false
set_option autoImplicit false

/-!
# Runs of labelled transition functions

A component is a partial function `step : σ → ε → Option σ`: the state after an event, or
`none` where the event is not enabled. This file has the runs of such a function over event
lists, and the two induction rules its users need: an invariant kept by every step holds after
every run, and an invariant kept by every step that meets a guard holds after every run whose
steps meet it.

## Main definitions

* `Transition.run` — the state after a list of events.
* `Transition.Meets` — every step of a run satisfies a condition on its event and the state
  before it.
* `Transition.Always` — every state of a run satisfies a condition.
* `Transition.Passes` — some state of a run satisfies a condition.
* `Transition.Reaches` — some run leads from one state to another.
* `Transition.Since` — a step of a run satisfies one condition, and all later ones another.

## Main results

* `Transition.run_induction`, `Transition.run_induction_of_meets` — invariants of runs.
* `Transition.run_induction_of_history` — invariants of a state with the events that led to it.
* `Transition.meets_of_not_broken` — a run that ends well has met a guard whose violations last.
* `Transition.always_of_meets`, `Transition.meets_of_always` — a property of all states as a
  condition on the steps.
* `Transition.run_simulated` — a component that follows another one, step by step.
* `Transition.run_rel` — a preorder that contains every step contains every run.
-/

namespace Transition

variable {σ ε : Type*}

/-- The state after the events `es`, each of them enabled where it occurs. -/
def run (step : σ → ε → Option σ) : σ → List ε → Option σ
  | s, [] => some s
  | s, e :: es => (step s e).bind fun s' => run step s' es

/-- Every event of the run satisfies `G` in the state it occurs in. -/
def Meets (step : σ → ε → Option σ) (G : σ → ε → Prop) : σ → List ε → Prop
  | _, [] => True
  | s, e :: es => G s e ∧ ∀ s', step s e = some s' → Meets step G s' es

/-- Every state that the run reaches, the first one included, satisfies `P`. -/
def Always (step : σ → ε → Option σ) (P : σ → Prop) : σ → List ε → Prop
  | s, [] => P s
  | s, e :: es => P s ∧ ∀ s', step s e = some s' → Always step P s' es

/-- The run passes a state that satisfies `P`. -/
def Passes (step : σ → ε → Option σ) (P : σ → Prop) (s : σ) (es : List ε) : Prop :=
  ∃ fs t, fs <+: es ∧ run step s fs = some t ∧ P t

/-- Some run leads from one state to another. -/
def Reaches (step : σ → ε → Option σ) (s t : σ) : Prop := ∃ es, run step s es = some t

variable {step : σ → ε → Option σ} {P I : σ → Prop} {G H : σ → ε → Prop} {s t u : σ} {e : ε}
  {es fs : List ε}

@[simp] lemma run_nil : run step s [] = some s := rfl

@[simp] lemma meets_nil : Meets step G s [] := trivial

/-- A run is a step followed by a run. -/
lemma run_cons_eq_some_iff :
    run step s (e :: es) = some u ↔ ∃ t, step s e = some t ∧ run step t es = some u := by
  simp [run, Option.bind_eq_some_iff]

/-- Runs compose. -/
lemma run_append_eq_some_iff :
    run step s (es ++ fs) = some u ↔ ∃ t, run step s es = some t ∧ run step t fs = some u := by
  induction es generalizing s with
  | nil => simp
  | cons e es ih =>
    simp only [List.cons_append, run_cons_eq_some_iff, ih]
    exact ⟨fun ⟨t, h, v, hv, hu⟩ => ⟨v, ⟨t, h, hv⟩, hu⟩,
      fun ⟨v, ⟨t, h, hv⟩, hu⟩ => ⟨t, h, v, hv, hu⟩⟩

/-- No event leads to the state itself. -/
lemma Reaches.refl (s : σ) : Reaches step s s := ⟨[], rfl⟩

/-- One run after another. -/
lemma Reaches.trans (h : Reaches step s t) (h' : Reaches step t u) : Reaches step s u := by
  obtain ⟨es, hes⟩ := h
  obtain ⟨fs, hfs⟩ := h'
  exact ⟨es ++ fs, run_append_eq_some_iff.mpr ⟨t, hes, hfs⟩⟩

/-- A step, and what is reached from there. -/
lemma Reaches.head (hstep : step s e = some t) (h : Reaches step t u) : Reaches step s u := by
  obtain ⟨es, hes⟩ := h
  exact ⟨e :: es, run_cons_eq_some_iff.mpr ⟨t, hstep, hes⟩⟩

/-- Where every event is enabled, every run goes to its end. -/
lemma exists_run (htotal : ∀ s e, ∃ t, step s e = some t) (s : σ) (es : List ε) :
    ∃ t, run step s es = some t := by
  induction es generalizing s with
  | nil => exact ⟨s, rfl⟩
  | cons e es ih =>
    obtain ⟨t, ht⟩ := htotal s e
    obtain ⟨u, hu⟩ := ih t
    exact ⟨u, run_cons_eq_some_iff.mpr ⟨t, ht, hu⟩⟩

/-- A run passes its last state. -/
lemma passes_of_run (h : run step s es = some t) (hP : P t) : Passes step P s es :=
  ⟨es, t, List.prefix_rfl, h, hP⟩

/-- A longer run passes what a shorter one has passed. -/
lemma Passes.append (h : Passes step P s es) (fs : List ε) : Passes step P s (es ++ fs) := by
  obtain ⟨gs, t, hgs, ht, hP⟩ := h
  exact ⟨gs, t, hgs.trans (List.prefix_append es fs), ht, hP⟩

/-- What a run passes, with what follows from it in the states of runs. -/
lemma Passes.mono {Q : σ → Prop} (hPQ : ∀ fs t, run step s fs = some t → P t → Q t)
    (h : Passes step P s es) : Passes step Q s es := by
  obtain ⟨fs, t, hfs, ht, hP⟩ := h
  exact ⟨fs, t, hfs, ht, hPQ fs t ht hP⟩

/-- A condition on the steps of a composed run splits at the middle state. -/
lemma meets_append (h : run step s es = some t) :
    Meets step G s (es ++ fs) ↔ Meets step G s es ∧ Meets step G t fs := by
  induction es generalizing s with
  | nil => simp only [run_nil, Option.some.injEq] at h; subst h; simp
  | cons e es ih =>
    obtain ⟨v, hv, ht⟩ := run_cons_eq_some_iff.mp h
    simp only [List.cons_append, Meets, hv, Option.some.injEq, forall_eq', ih ht, and_assoc]

/-- A shorter run meets what a longer one has met. -/
lemma Meets.of_append (h : Meets step G s (es ++ fs)) : Meets step G s es := by
  induction es generalizing s with
  | nil => trivial
  | cons e es ih => exact ⟨h.1, fun s' hs' => ih (h.2 s' hs')⟩

/-- Weakening the condition on the steps. -/
lemma Meets.mono (hGH : ∀ s e, G s e → H s e) (h : Meets step G s es) : Meets step H s es := by
  induction es generalizing s with
  | nil => trivial
  | cons e es ih => exact ⟨hGH s e h.1, fun s' hs' => ih (h.2 s' hs')⟩

/-- A condition on the steps that follows from another one and an invariant it keeps. -/
lemma Meets.of_invariant (hGH : ∀ s e, I s → G s e → H s e)
    (hstep : ∀ s e s', I s → G s e → step s e = some s' → I s') (hs : I s)
    (h : Meets step G s es) : Meets step H s es := by
  induction es generalizing s with
  | nil => trivial
  | cons e es ih =>
    exact ⟨hGH s e hs h.1, fun s' hs' => ih (hstep s e s' hs h.1 hs') (h.2 s' hs')⟩

/-- Two conditions on the steps. -/
lemma Meets.and (hG : Meets step G s es) (hH : Meets step H s es) :
    Meets step (fun s e => G s e ∧ H s e) s es := by
  induction es generalizing s with
  | nil => trivial
  | cons e es ih => exact ⟨⟨hG.1, hH.1⟩, fun s' hs' => ih (hG.2 s' hs') (hH.2 s' hs')⟩

/-- A condition on the events alone. -/
lemma meets_of_forall {G : ε → Prop} (h : ∀ e ∈ es, G e) : Meets step (fun _ e => G e) s es := by
  induction es generalizing s with
  | nil => trivial
  | cons e es ih =>
    exact ⟨h e List.mem_cons_self, fun _ _ => ih fun f hf => h f (List.mem_cons_of_mem _ hf)⟩

/-- **Guarded invariants.** A property kept by every step that satisfies the guard holds after
every run whose steps satisfy it.

**Proof sketch.** Induction on the event list: the first step keeps the property, and the rest
of the run starts from a state that has it. -/
theorem run_induction_of_meets
    (hstep : ∀ s e s', I s → G s e → step s e = some s' → I s')
    (hs : I s) (hG : Meets step G s es) (h : run step s es = some t) : I t := by
  induction es generalizing s with
  | nil => simp only [run_nil, Option.some.injEq] at h; exact h ▸ hs
  | cons e es ih =>
    obtain ⟨v, hv, ht⟩ := run_cons_eq_some_iff.mp h
    exact ih (hstep s e v hs hG.1 hv) (hG.2 v hv) ht

/-- **Invariants.** A property kept by every step holds after every run. -/
theorem run_induction (hstep : ∀ s e s', I s → step s e = some s' → I s')
    (hs : I s) (h : run step s es = some t) : I t := by
  induction es generalizing s with
  | nil => simp only [run_nil, Option.some.injEq] at h; exact h ▸ hs
  | cons e es ih =>
    obtain ⟨v, hv, ht⟩ := run_cons_eq_some_iff.mp h
    exact ih (hstep s e v hs hv) ht

/-- **Guards from the end.** If a step that violates the guard breaks the state for good, then
every step of a run that ends in an unbroken state satisfies the guard.

**Proof sketch.** Induction on the event list: were the first step a violation, the state after
it would be broken, and so would all later ones. -/
theorem meets_of_not_broken {B : σ → Prop} (hstep : ∀ s e s', I s → step s e = some s' → I s')
    (hkeep : ∀ s e s', I s → B s → step s e = some s' → B s')
    (hbreak : ∀ s e s', I s → ¬ G s e → step s e = some s' → B s')
    (hs : I s) (h : run step s es = some t) (ht : ¬ B t) : Meets step G s es := by
  induction es generalizing s with
  | nil => trivial
  | cons e es ih =>
    obtain ⟨v, hv, hrun⟩ := run_cons_eq_some_iff.mp h
    have hIv := hstep s e v hs hv
    constructor
    · by_contra hG
      have hB := hbreak s e v hs hG hv
      exact ht (run_induction (I := fun u => I u ∧ B u)
        (fun a b c ha hc => ⟨hstep a b c ha.1 hc, hkeep a b c ha.1 ha.2 hc⟩) ⟨hIv, hB⟩ hrun).2
    · intro v' hv'
      rw [hv, Option.some.injEq] at hv'
      exact hv' ▸ ih hIv hrun

/-- **Properties of all states, from the steps.** A property of the states in an invariant holds in
every state of a run whose steps keep the invariant under a guard that they meet. -/
theorem always_of_meets (hP : ∀ s, I s → P s)
    (hstep : ∀ s e s', I s → G s e → step s e = some s' → I s') (hs : I s)
    (hG : Meets step G s es) : Always step P s es := by
  induction es generalizing s with
  | nil => exact hP s hs
  | cons e es ih => exact ⟨hP s hs, fun s' hs' => ih (hstep s e s' hs hG.1 hs') (hG.2 s' hs')⟩

/-- **Guards from all states.** If a step that violates the guard leads to a state without `P`, then
the steps of a run whose states all have `P` meet the guard. The condition `H` is what is known of
the steps beforehand.

**Proof sketch.** Induction on the event list; the invariant holds of the states before the first
violation, and `P` fails right after it. -/
theorem meets_of_always (hstep : ∀ s e s', I s → H s e → G s e → step s e = some s' → I s')
    (hbreak : ∀ s e, I s → H s e → ¬ G s e → ∃ s', step s e = some s' ∧ ¬ P s') (hs : I s)
    (hH : Meets step H s es) (hP : Always step P s es) : Meets step G s es := by
  induction es generalizing s with
  | nil => trivial
  | cons e es ih =>
    obtain ⟨-, hrest⟩ := hP
    have hG : G s e := by
      by_contra hG
      obtain ⟨s', hs', hbroken⟩ := hbreak s e hs hH.1 hG
      refine hbroken ?_
      have hfirst := hrest s' hs'
      cases es with
      | nil => exact hfirst
      | cons => exact hfirst.1
    exact ⟨hG, fun s' hs' => ih (hstep s e s' hs hH.1 hG hs') (hH.2 s' hs') (hrest s' hs')⟩

/-- Both directions: `P` holds in every state of a run exactly when every step satisfies the
guard. -/
theorem always_iff_meets (hP : ∀ s, I s → P s)
    (hstep : ∀ s e s', I s → G s e → step s e = some s' → I s')
    (hbreak : ∀ s e, I s → ¬ G s e → ∃ s', step s e = some s' ∧ ¬ P s') (hs : I s) :
    Always step P s es ↔ Meets step G s es :=
  ⟨meets_of_always (H := fun _ _ => True) (fun s e s' hI _ => hstep s e s' hI)
    (fun s e hI _ => hbreak s e hI) hs (meets_of_forall (G := fun _ => True) fun _ _ => trivial),
    always_of_meets hP hstep hs⟩

/-- The steps of a run, each in the state that its prefix leads to. -/
lemma meets_iff_forall_prefix : Meets step G s es ↔
    ∀ fs e gs t, fs ++ e :: gs = es → run step s fs = some t → G t e := by
  induction es generalizing s with
  | nil => exact ⟨fun _ fs e gs _ hsplit => by simp at hsplit, fun _ => trivial⟩
  | cons f es ih =>
    constructor
    · rintro ⟨hs, hrest⟩ fs e gs t hsplit ht
      cases fs with
      | nil =>
        obtain rfl := Option.some.inj ht
        obtain ⟨rfl, -⟩ := List.cons.inj hsplit
        exact hs
      | cons f fs =>
        obtain ⟨rfl, rfl⟩ := List.cons.inj hsplit
        obtain ⟨v, hv, ht⟩ := run_cons_eq_some_iff.mp ht
        exact ih.mp (hrest v hv) fs e gs t rfl ht
    · intro h
      refine ⟨h [] f es s rfl rfl, fun v hv => ih.mpr fun fs e gs t hsplit ht => ?_⟩
      exact h (f :: fs) e gs t (congrArg (f :: ·) hsplit) (run_cons_eq_some_iff.mpr ⟨v, hv, ht⟩)

/-- A preorder that relates the two ends of every step from an invariant state relates the two
ends of every run. -/
theorem run_rel {R : σ → σ → Prop} (hrefl : ∀ s, R s s)
    (htrans : ∀ s t u, R s t → R t u → R s u)
    (hstep : ∀ s e s', I s → step s e = some s' → I s' ∧ R s s')
    (hs : I s) (h : run step s es = some t) : R s t := by
  induction es generalizing s with
  | nil => simp only [run_nil, Option.some.injEq] at h; exact h ▸ hrefl s
  | cons e es ih =>
    obtain ⟨v, hv, ht⟩ := run_cons_eq_some_iff.mp h
    obtain ⟨hI, hR⟩ := hstep s e v hs hv
    exact htrans _ _ _ hR (ih hI ht)

/-- **Simulation.** Where every step of one component is followed by a step of another one, every
run is followed by a run. -/
theorem run_simulated {τ : Type*} {step' : τ → ε → Option τ} {R : σ → τ → Prop} {s' : τ}
    (hstep : ∀ s s' e t, R s s' → step s e = some t → ∃ t', step' s' e = some t' ∧ R t t')
    (hs : R s s') (h : run step s es = some t) : ∃ t', run step' s' es = some t' ∧ R t t' := by
  induction es generalizing s s' with
  | nil =>
    obtain rfl := Option.some.inj h
    exact ⟨s', rfl, hs⟩
  | cons e es ih =>
    obtain ⟨v, hv, ht⟩ := run_cons_eq_some_iff.mp h
    obtain ⟨v', hv', hR⟩ := hstep s s' e v hs hv
    obtain ⟨t', ht', hR'⟩ := ih hR ht
    exact ⟨t', run_cons_eq_some_iff.mpr ⟨v', hv', ht'⟩, hR'⟩

/-! ## What has happened -/

/-- Some step of the run satisfies `P`, and every later one satisfies `Q`. -/
def Since (step : σ → ε → Option σ) (P Q : σ → ε → Prop) : σ → List ε → Prop
  | _, [] => False
  | s, e :: es => (P s e ∧ ∀ s', step s e = some s' → Meets step Q s' es) ∨
      ∃ s', step s e = some s' ∧ Since step P Q s' es

variable {P' Q' : σ → ε → Prop}

/-- The last step of a run. -/
lemma since_concat (h : run step s es = some t) : Since step P' Q' s (es ++ [e]) ↔
    P' t e ∨ (Since step P' Q' s es ∧ Q' t e) := by
  induction es generalizing s with
  | nil =>
    rw [run_nil, Option.some.injEq] at h
    subst h
    simp [Since, Meets]
  | cons f es ih =>
    obtain ⟨v, hv, hrest⟩ := run_cons_eq_some_iff.mp h
    simp only [List.cons_append, Since, hv, Option.some.injEq, forall_eq', exists_eq_left',
      ih hrest, meets_append hrest, Meets, implies_true, and_true]
    tauto

/-- **Guarded histories.** A property of the events so far and the state they lead to, kept by every
step that satisfies the guard, holds after every run whose steps satisfy it. -/
theorem run_induction_of_history_of_meets {J : List ε → σ → Prop} (hs : J [] s)
    (hstep : ∀ es t e u, run step s es = some t → J es t → G t e → step t e = some u →
      J (es ++ [e]) u)
    (hG : Meets step G s es) (h : run step s es = some t) : J es t := by
  induction es using List.reverseRecOn generalizing t with
  | nil =>
    rw [run_nil, Option.some.injEq] at h
    exact h ▸ hs
  | append_singleton es e ih =>
    obtain ⟨v, hv, hlast⟩ := run_append_eq_some_iff.mp h
    obtain ⟨u, hu, hend⟩ := run_cons_eq_some_iff.mp hlast
    rw [run_nil, Option.some.injEq] at hend
    rw [meets_append hv] at hG
    exact hstep es v e t hv (ih hG.1 hv) hG.2.1 (hend ▸ hu)

/-- **Histories.** A property of the events so far and the state they lead to, kept by every step,
holds after every run. -/
theorem run_induction_of_history {J : List ε → σ → Prop} (hs : J [] s)
    (hstep : ∀ es t e u, run step s es = some t → J es t → step t e = some u → J (es ++ [e]) u)
    (h : run step s es = some t) : J es t :=
  run_induction_of_history_of_meets hs (fun es t e u hrun hJ _ => hstep es t e u hrun hJ)
    (meets_of_forall (G := fun _ => True) fun _ _ => trivial) h

end Transition
