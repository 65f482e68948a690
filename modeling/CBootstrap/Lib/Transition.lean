import Mathlib.Data.List.Basic

/-!
# Transition systems

A system is a set of initial states and a guarded step function: `step s a` is the state after
the action `a`, or `none` if `a` cannot happen in `s`.  The statements about a system are about
all its reachable states, and some are about the runs whose every step meets a condition; so
reachability carries a guard.  `Reaches.invariant` is the induction rule, and `Reaches.of_run`
turns a list of actions that can be executed into a reachable state.
-/

namespace Transition

/-- A transition system with states `σ` and actions `α`. -/
structure System (σ α : Type) where
  /-- The initial states. -/
  init : σ → Prop
  /-- The state after an action, `none` if it is not enabled. -/
  step : σ → α → Option σ

variable {σ α : Type}

/-- The states reached by runs each of whose steps meets `guard`. -/
inductive Reaches (sys : System σ α) (guard : σ → α → Prop) : σ → Prop
  | init {s : σ} (h : sys.init s) : Reaches sys guard s
  | step {s t : σ} {a : α} (hs : Reaches sys guard s) (hg : guard s a)
      (h : sys.step s a = some t) : Reaches sys guard t

/-- The condition every step meets. -/
def always : σ → α → Prop := fun _ _ => True

instance (s : σ) (a : α) : Decidable (always s a) := isTrue trivial

/-- The states reached by any run. -/
def Reachable (sys : System σ α) (s : σ) : Prop := Reaches sys always s

/-- **The invariant rule.**  What holds initially and is kept by every step that meets the guard
holds in every state reached by such steps. -/
theorem Reaches.invariant {sys : System σ α} {guard : σ → α → Prop} {P : σ → Prop}
    (hinit : ∀ s, sys.init s → P s)
    (hstep : ∀ s a t, P s → guard s a → sys.step s a = some t → P t) {s : σ}
    (h : Reaches sys guard s) : P s := by
  induction h with
  | init h => exact hinit _ h
  | step _ hg h ih => exact hstep _ _ _ ih hg h

/-- Execute a list of actions, as long as each meets the guard and is enabled. -/
def run (sys : System σ α) (guard : σ → α → Prop) [∀ s a, Decidable (guard s a)] :
    σ → List α → Option σ
  | s, [] => some s
  | s, a :: as =>
      if guard s a then
        match sys.step s a with
        | none => none
        | some t => run sys guard t as
      else none

/-- The first step of a run that can be executed. -/
lemma run_cons_eq_some {sys : System σ α} {guard : σ → α → Prop} [∀ s a, Decidable (guard s a)]
    {s t : σ} {a : α} {as : List α} :
    run sys guard s (a :: as) = some t ↔
      guard s a ∧ ∃ u, sys.step s a = some u ∧ run sys guard u as = some t := by
  rw [run]
  split_ifs with hg
  · cases hstep : sys.step s a with
    | none => simp
    | some u => simp [hg]
  · simp [hg]

/-- A run is executed action by action. -/
lemma run_append {sys : System σ α} {guard : σ → α → Prop} [∀ s a, Decidable (guard s a)]
    {s t : σ} {actions : List α} (h : run sys guard s actions = some t) (more : List α) :
    run sys guard s (actions ++ more) = run sys guard t more := by
  induction actions generalizing s with
  | nil =>
      cases h
      rfl
  | cons a as ih =>
      obtain ⟨hg, u, hstep, hrest⟩ := run_cons_eq_some.mp h
      rw [List.cons_append, run, if_pos hg, hstep]
      exact ih hrest

/-- Where every step uses up some of a measure, a run has no more steps than there was of it. -/
lemma run_length_le {sys : System σ α} {guard : σ → α → Prop} [∀ s a, Decidable (guard s a)]
    {m : σ → ℕ} (hstep : ∀ s a t, sys.step s a = some t → m t < m s) {s t : σ}
    {actions : List α} (h : run sys guard s actions = some t) : actions.length + m t ≤ m s := by
  induction actions generalizing s with
  | nil =>
      cases h
      simp
  | cons a as ih =>
      obtain ⟨-, u, hu, hrest⟩ := run_cons_eq_some.mp h
      have hlt := hstep s a u hu
      have hle := ih hrest
      rw [List.length_cons]
      omega

/-- **Runs that wear something down.**  Where every step keeps `P` and uses up some of a measure for
each action that `counts`, so does a run: it keeps `P`, and has no more such actions than there was
of the measure. -/
lemma run_wears {sys : System σ α} {P : σ → Prop} {m : σ → ℕ} (counts : α → Bool)
    (hstep : ∀ s a t, P s → sys.step s a = some t → P t ∧ m t + (counts a).toNat ≤ m s) {s t : σ}
    {actions : List α} (hs : P s) (h : run sys always s actions = some t) :
    P t ∧ actions.countP counts + m t ≤ m s := by
  induction actions generalizing s with
  | nil =>
      cases h
      exact ⟨hs, by simp⟩
  | cons a as ih =>
      obtain ⟨-, u, hu, hrest⟩ := run_cons_eq_some.mp h
      obtain ⟨hkeep, hlt⟩ := hstep s a u hs hu
      obtain ⟨ht, hle⟩ := ih hkeep hrest
      refine ⟨ht, ?_⟩
      rw [List.countP_cons]
      cases hcounts : counts a with
      | true =>
          simp only [hcounts, Bool.toNat_true, if_true] at hlt ⊢
          omega
      | false =>
          simp only [hcounts, Bool.toNat_false, Bool.false_eq_true, if_false] at hlt ⊢
          omega

/-- Where a state with `P` has a step to a state with `P` that uses up some of a measure, unless it
is as wanted, some run gets to where it is. -/
lemma exists_run {sys : System σ α} {P Q : σ → Prop} (m : σ → ℕ)
    (hstep : ∀ s, P s → ¬Q s → ∃ a t, sys.step s a = some t ∧ P t ∧ m t < m s) {s : σ} (hs : P s) :
    ∃ actions t, run sys always s actions = some t ∧ P t ∧ Q t := by
  induction hn : m s using Nat.strongRecOn generalizing s with
  | ind n ih =>
      by_cases hq : Q s
      · exact ⟨[], s, rfl, hs, hq⟩
      · obtain ⟨a, u, hu, hkeep, hlt⟩ := hstep s hs hq
        obtain ⟨actions, t, hrun, ht⟩ := ih (m u) (hn ▸ hlt) hkeep rfl
        exact ⟨a :: actions, t, run_cons_eq_some.mpr ⟨trivial, u, hu, hrun⟩, ht⟩

/-- A run that can be executed ends in a reachable state. -/
theorem Reaches.of_run {sys : System σ α} {guard : σ → α → Prop}
    [∀ s a, Decidable (guard s a)] {s t : σ} (actions : List α) (hs : Reaches sys guard s)
    (h : run sys guard s actions = some t) : Reaches sys guard t := by
  induction actions generalizing s with
  | nil =>
      cases h
      exact hs
  | cons a as ih =>
      obtain ⟨hg, u, hstep, hrest⟩ := run_cons_eq_some.mp h
      exact ih (hs.step hg hstep) hrest

end Transition
