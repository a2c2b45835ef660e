/-
# Reading a log page by page

A log is read from a cursor in pages: the records with a key above the cursor, in
order, at most `limit` of them.  The reader folds each page into its state, moves the
cursor to the last key it has seen, and stops at an empty page.  On a log whose keys
increase this is one fold over all records above the first cursor
(`pagedFold_eq_foldlM`), whatever the page size.
-/

import Mathlib

namespace PersonalAgent.Lib

open List

universe u

variable {ε σ : Type u} {err : Type*} (key : ε → ℕ)

/-- The records above the cursor, at most `limit` of them. -/
def page (records : List ε) (cursor limit : ℕ) : List ε :=
  (records.filter (cursor < key ·)).take limit

/-- Fold page after page into the state; `fuel` bounds the number of pages. -/
def pagedFold (f : σ → ε → Except err σ) (records : List ε) (limit : ℕ) :
    ℕ → σ → ℕ → Except err σ
  | 0, s, _ => .ok s
  | fuel + 1, s, cursor =>
    match page key records cursor limit with
    | [] => .ok s
    | r :: rs => do
      let s ← (r :: rs).foldlM f s
      pagedFold f records limit fuel s (key ((r :: rs).getLast (cons_ne_nil r rs)))

variable {key}

/-- Above the last key of a stretch of an increasing log comes what follows it. -/
theorem filter_key_getLast {as bs : List ε} (h : (as ++ bs).Pairwise (key · < key ·))
    (hne : as ≠ []) : (as ++ bs).filter (key (as.getLast hne) < key ·) = bs := by
  obtain ⟨has, hbs, hab⟩ := pairwise_append.mp h
  rw [filter_append]
  have h₁ : as.filter (key (as.getLast hne) < key ·) = [] := by
    rw [filter_eq_nil_iff]
    intro a ha
    -- a record of the stretch is its last one or comes before it
    rw [← dropLast_append_getLast hne] at has ha
    have hlast := (pairwise_append.mp has).2.2
    rcases mem_append.mp ha with ha | ha
    · have := hlast a ha _ (mem_singleton_self _)
      simp only [decide_eq_true_eq, not_lt]
      omega
    · simp [mem_singleton.mp ha]
  have h₂ : bs.filter (key (as.getLast hne) < key ·) = bs := by
    rw [filter_eq_self]
    exact fun b hb => decide_eq_true (hab _ (getLast_mem hne) b hb)
  rw [h₁, h₂, nil_append]

/-- An increasing log is cut in two by any cursor. -/
theorem filter_le_append_filter_lt {records : List ε} (h : records.Pairwise (key · < key ·))
    (cursor : ℕ) :
    records.filter (key · ≤ cursor) ++ records.filter (cursor < key ·) = records := by
  induction records with
  | nil => rfl
  | cons r rs ih =>
    obtain ⟨hr, hrs⟩ := pairwise_cons.mp h
    by_cases hle : key r ≤ cursor
    · rw [filter_cons_of_pos (by simpa using hle),
        filter_cons_of_neg (by simpa using hle), cons_append, ih hrs]
    · have hnil : rs.filter (key · ≤ cursor) = [] := by
        refine filter_eq_nil_iff.mpr fun a ha => ?_
        have := hr a ha
        simp only [decide_eq_true_eq]
        omega
      have hall : rs.filter (cursor < key ·) = rs := by
        refine filter_eq_self.mpr fun a ha => ?_
        have := hr a ha
        simp only [decide_eq_true_eq]
        omega
      rw [filter_cons_of_neg (by simpa using hle), hnil,
        filter_cons_of_pos (by simpa using hle), hall, nil_append]

/-- **Paging is folding.**  With enough fuel and a page size that is not zero, reading
page by page folds all records above the cursor, in order. -/
theorem pagedFold_eq_foldlM {f : σ → ε → Except err σ} {records : List ε} {limit : ℕ}
    (hsorted : records.Pairwise (key · < key ·)) (hlimit : 0 < limit) {fuel : ℕ} {s : σ}
    {cursor : ℕ} (hfuel : (records.filter (cursor < key ·)).length < fuel) :
    pagedFold key f records limit fuel s cursor = (records.filter (cursor < key ·)).foldlM f s := by
  induction fuel generalizing s cursor with
  | zero => omega
  | succ fuel ih =>
    have hrest : (records.filter (cursor < key ·)).Pairwise (key · < key ·) := hsorted.filter _
    rw [pagedFold]
    split
    · rename_i hpage
      have hnil : records.filter (cursor < key ·) = [] := by
        simpa [page, hlimit.ne'] using hpage
      rw [hnil]
      rfl
    · rename_i r rs hpage
      have hsplit : records.filter (cursor < key ·) =
          (r :: rs) ++ (records.filter (cursor < key ·)).drop limit := by
        rw [← hpage, page, take_append_drop]
      -- the next cursor leaves exactly the records after this page
      have hnext : records.filter
          (key ((r :: rs).getLast (cons_ne_nil r rs)) < key ·) =
            (records.filter (cursor < key ·)).drop limit := by
        rw [hsplit] at hrest
        refine Eq.trans ?_ (filter_key_getLast hrest (cons_ne_nil r rs))
        rw [← hsplit, filter_filter]
        have hlow : cursor < key ((r :: rs).getLast (cons_ne_nil r rs)) := by
          have hmem : (r :: rs).getLast (cons_ne_nil r rs) ∈
              records.filter (cursor < key ·) := by
            rw [hsplit]
            exact mem_append_left _ (getLast_mem _)
          exact of_decide_eq_true (mem_filter.mp hmem).2
        refine filter_congr fun a _ => ?_
        by_cases ha : key ((r :: rs).getLast (cons_ne_nil r rs)) < key a
        · simp [ha, hlow.trans ha]
        · simp [ha]
      rw [hsplit, foldlM_append]
      refine bind_congr fun s' => ?_
      rw [ih, hnext]
      rw [hnext]
      have hlen := congrArg List.length hsplit
      simp only [length_append, length_cons] at hlen
      omega

end PersonalAgent.Lib
