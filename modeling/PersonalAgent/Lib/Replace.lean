/-
# Replacing every occurrence

`replaceAll` replaces the occurrences of a needle in a text from left to right, as
`str::replace` does.  If the replacement shares no letter with the needle, none is left
(`not_infix_replaceAll`): letters copied side by side stood side by side, so an occurrence in
the result would have been one in the text, at a place where the scan found none.

`infix_gap_iff` is for texts put together around a letter that the needle does not have.
-/

import Mathlib.Data.List.Infix

namespace PersonalAgent.Lib

open List

variable {α : Type} {needle : List α}

/-- An occurrence does not reach over a letter it does not have. -/
theorem infix_gap_iff {x : α} (hx : x ∉ needle) (before after : List α) :
    needle <:+: before ++ x :: after ↔ needle <:+: before ∨ needle <:+: after := by
  constructor
  · rintro ⟨lead, rest, h⟩
    rw [append_assoc, append_eq_append_iff] at h
    rcases h with ⟨middle, rfl, h⟩ | ⟨middle, rfl, h⟩
    · rw [append_eq_append_iff] at h
      rcases h with ⟨tail, rfl, -⟩ | ⟨tail, rfl, h⟩
      · exact .inl ⟨lead, tail, by rw [append_assoc]⟩
      · cases tail with
        | nil => exact .inl ⟨lead, [], by simp⟩
        | cons y tail =>
          obtain ⟨rfl, -⟩ := List.cons.inj h
          exact absurd (mem_append_right _ mem_cons_self) hx
    · cases middle with
      | nil =>
        cases needle with
        | nil => exact .inl nil_infix
        | cons y needle =>
          obtain ⟨rfl, -⟩ := List.cons.inj h
          exact absurd mem_cons_self hx
      | cons y middle =>
        obtain ⟨-, rfl⟩ := List.cons.inj h
        exact .inr ⟨middle, rest, append_assoc _ _ _⟩
  · rintro (h | h)
    · exact h.trans (prefix_append _ _).isInfix
    · exact h.trans ((suffix_cons x after).trans (suffix_append _ _)).isInfix

/-- An occurrence in a text behind letters that it does not begin with is one in the text. -/
theorem infix_of_infix_append {x : α} {before after : List α} (hx : x ∉ before)
    (h : x :: needle <:+: before ++ after) : x :: needle <:+: after := by
  induction before with
  | nil => exact h
  | cons y before ih =>
    rw [cons_append, infix_cons_iff] at h
    rcases h with ⟨rest, h⟩ | h
    · obtain ⟨rfl, -⟩ := List.cons.inj h
      exact absurd mem_cons_self hx
    · exact ih (fun hmem => hx (mem_cons_of_mem y hmem)) h

variable [DecidableEq α] {replacement : List α}

/-- Replace the occurrences of a needle that is not empty, from left to right. -/
def replaceAll (needle replacement text : List α) : List α :=
  match text with
  | [] => []
  | x :: rest =>
    if _h : needle ≠ [] ∧ needle <+: x :: rest then
      replacement ++ replaceAll needle replacement ((x :: rest).drop needle.length)
    else x :: replaceAll needle replacement rest
termination_by text.length
decreasing_by
  · have := length_pos_of_ne_nil _h.1
    simp only [length_drop, length_cons]
    omega
  · simp

theorem prefix_of_prefix_replaceAll (hr : replacement ≠ []) {text copied : List α}
    (hx : ∀ x ∈ copied, x ∉ replacement) (h : copied <+: replaceAll needle replacement text) :
    copied <+: text := by
  induction text generalizing copied with
  | nil =>
    unfold replaceAll at h
    exact h
  | cons y text ih =>
    cases copied with
    | nil => exact nil_prefix
    | cons x copied =>
      unfold replaceAll at h
      split_ifs at h with hhere
      · obtain ⟨z, replacement, rfl⟩ := exists_cons_of_ne_nil hr
        obtain ⟨rfl, -⟩ := cons_prefix_cons.mp h
        exact absurd mem_cons_self (hx x mem_cons_self)
      · obtain ⟨rfl, hrest⟩ := cons_prefix_cons.mp h
        exact cons_prefix_cons.mpr
          ⟨rfl, ih (fun z hz => hx z (mem_cons_of_mem x hz)) hrest⟩

/-- **Nothing is left.**  A needle that shares no letter with the replacement does not occur in
the result. -/
theorem not_infix_replaceAll (hne : needle ≠ []) (hr : replacement ≠ [])
    (hx : ∀ x ∈ needle, x ∉ replacement) (text : List α) :
    ¬ needle <:+: replaceAll needle replacement text := by
  fun_induction replaceAll needle replacement text with
  | case1 => exact fun h => hne (infix_nil.mp h)
  | case2 y rest hhere ih =>
    intro h
    obtain ⟨x, needle, rfl⟩ := exists_cons_of_ne_nil hne
    exact ih (infix_of_infix_append (hx x mem_cons_self) h)
  | case3 y rest hhere ih =>
    intro h
    rcases infix_cons_iff.mp h with hstart | hlater
    · -- The occurrence starts here, so it was copied from here.
      obtain ⟨x, needle, rfl⟩ := exists_cons_of_ne_nil hne
      obtain ⟨rfl, hrest⟩ := cons_prefix_cons.mp hstart
      have hcopied := prefix_of_prefix_replaceAll hr
        (fun z hz => hx z (mem_cons_of_mem x hz)) hrest
      exact hhere ⟨hne, cons_prefix_cons.mpr ⟨rfl, hcopied⟩⟩
    · exact ih hlater

end PersonalAgent.Lib
