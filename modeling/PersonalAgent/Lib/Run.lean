/-
# Runs of a step function

A component is a state type `σ`, an action type `α` and a total step function:
an action that is not possible in a state leaves it where it is.  A run is the
list of its actions, and the state it reaches is the left fold of the step.

Two rules carry every invariant of the development.  `Along.invariant` is the
induction over a run all of whose steps meet a side condition `ok`, read in the
state *before* the step; `run_invariant` is the case without one.  Facts that
compare an earlier state of a run with a later one (a record that is never
rewritten, a counter that never falls) go through `run_relates`.
-/

import Mathlib

namespace PersonalAgent.Lib

variable {σ α : Type*} {step : σ → α → σ}

/-- The state reached from `s` by the actions `as`, in order. -/
def run (step : σ → α → σ) (s : σ) (as : List α) : σ := as.foldl step s

@[simp] theorem run_nil (s : σ) : run step s [] = s := rfl

@[simp] theorem run_cons (s : σ) (a : α) (as : List α) :
    run step s (a :: as) = run step (step s a) as := rfl

theorem run_append (s : σ) (as bs : List α) :
    run step s (as ++ bs) = run step (run step s as) bs := List.foldl_append

/-- Every step of the run meets `ok` in the state it is taken from. -/
def Along (step : σ → α → σ) (ok : σ → α → Prop) : σ → List α → Prop
  | _, [] => True
  | s, a :: as => ok s a ∧ Along step ok (step s a) as

instance Along.decidable (ok : σ → α → Prop) [∀ s a, Decidable (ok s a)] :
    ∀ s as, Decidable (Along step ok s as)
  | _, [] => inferInstanceAs (Decidable True)
  | s, a :: as =>
    have := Along.decidable ok (step s a) as
    inferInstanceAs (Decidable (ok s a ∧ Along step ok (step s a) as))

theorem along_append {ok : σ → α → Prop} (s : σ) (as bs : List α) :
    Along step ok s (as ++ bs) ↔ Along step ok s as ∧ Along step ok (run step s as) bs := by
  induction as generalizing s with
  | nil => simp [Along]
  | cons a as ih => simp only [List.cons_append, Along, run_cons, ih, and_assoc]

/-- **The invariant rule.**  What holds at the start and is kept by every step
that meets the condition holds in the state the run reaches. -/
theorem Along.invariant {ok : σ → α → Prop} (inv : σ → Prop)
    (hstep : ∀ s a, ok s a → inv s → inv (step s a)) {s : σ} {as : List α}
    (h : Along step ok s as) (hs : inv s) : inv (run step s as) := by
  induction as generalizing s with
  | nil => exact hs
  | cons a as ih => exact ih h.2 (hstep s a h.1 hs)

/-- The invariant rule for runs without a side condition. -/
theorem run_invariant (inv : σ → Prop) (hstep : ∀ s a, inv s → inv (step s a)) {s : σ}
    (as : List α) (hs : inv s) : inv (run step s as) := by
  induction as generalizing s with
  | nil => exact hs
  | cons a as ih => exact ih (hstep s a hs)

/-- **What two states of one run have to do with each other.**  A reflexive and
transitive relation that holds across every single step from a state of `inv`
holds across the whole run. -/
theorem run_relates (inv : σ → Prop) (R : σ → σ → Prop) (hrefl : ∀ s, R s s)
    (htrans : ∀ s t u, R s t → R t u → R s u) (hinv : ∀ s a, inv s → inv (step s a))
    (hstep : ∀ s a, inv s → R s (step s a)) {s : σ} (as : List α) (hs : inv s) :
    R s (run step s as) := by
  induction as generalizing s with
  | nil => exact hrefl s
  | cons a as ih => exact htrans _ _ _ (hstep s a hs) (ih (hinv s a hs))

end PersonalAgent.Lib
