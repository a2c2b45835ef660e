/-
# The first free name

A loop tries the candidates in order and takes the first that is not taken.  Among one
more candidate than there are taken names one is free, if no candidate repeats, so that
many turns are enough.
-/

import Mathlib

namespace PersonalAgent.Lib

variable {α : Type*} [DecidableEq α]

/-- The search from candidate `i` on, for at most `turns` turns. -/
def firstFreeFrom (taken : List α) (candidate : ℕ → α) : ℕ → ℕ → α
  | 0, i => candidate i
  | turns + 1, i =>
    if candidate i ∈ taken then firstFreeFrom taken candidate turns (i + 1) else candidate i

def firstFree (taken : List α) (candidate : ℕ → α) : α :=
  firstFreeFrom taken candidate (taken.length + 1) 0

variable {taken : List α} {candidate : ℕ → α}

theorem firstFree_of_not_mem (h : candidate 0 ∉ taken) : firstFree taken candidate = candidate 0 :=
  if_neg h

theorem firstFreeFrom_spec (turns i : ℕ) :
    (∃ j, firstFreeFrom taken candidate turns i = candidate j) ∧
      (firstFreeFrom taken candidate turns i ∈ taken →
        ∀ j, i ≤ j → j ≤ i + turns → candidate j ∈ taken) := by
  induction turns generalizing i with
  | zero =>
    refine ⟨⟨i, rfl⟩, fun hmem j hle hge => ?_⟩
    obtain rfl : j = i := by omega
    exact hmem
  | succ turns ih =>
    rw [firstFreeFrom]
    split_ifs with htaken
    · refine ⟨(ih (i + 1)).1, fun hmem j hle hge => ?_⟩
      rcases hle.eq_or_lt with rfl | hlt
      · exact htaken
      · exact (ih (i + 1)).2 hmem j hlt (by omega)
    · exact ⟨⟨i, rfl⟩, fun hmem => absurd hmem htaken⟩

/-- **What is found is free**, if no candidate repeats. -/
theorem firstFree_not_mem (hinj : candidate.Injective) : firstFree taken candidate ∉ taken := by
  intro hmem
  have hall := (firstFreeFrom_spec (taken.length + 1) 0).2 hmem
  have hsub : (Finset.range (taken.length + 1)).image candidate ⊆ taken.toFinset := by
    intro a ha
    obtain ⟨j, hj, rfl⟩ := Finset.mem_image.mp ha
    exact List.mem_toFinset.mpr (hall j (Nat.zero_le j) (by have := Finset.mem_range.mp hj; omega))
  have hcard := (Finset.card_le_card hsub).trans (List.toFinset_card_le taken)
  rw [Finset.card_image_of_injective _ hinj, Finset.card_range] at hcard
  omega

end PersonalAgent.Lib
