/-
# Pages of a sorted list

The pages of one list, put together, are the list (`flatMap_pages`).  A caller that shows page
after page of two sources in one order may read only the first `offset + limit` rows of the first
source, in whatever order that has.  Its pages are those of all rows exactly if the rows that
belong before the end of a page are among the rows it reads (`Covers`, `pages_eq_iff`).

`stableSort` sorts by a comparison and keeps the order of what compares equal.
-/

import Mathlib

namespace PersonalAgent.Lib

open List

variable {α : Type*} {le : α → α → Bool}

def stableSort (le : α → α → Bool) (l : List α) : List α := l.insertionSort fun a b => le a b

@[simp] theorem stableSort_nil : stableSort le [] = [] := rfl

theorem stableSort_perm (l : List α) : (stableSort le l).Perm l := perm_insertionSort _ l

theorem sorted_stableSort (htrans : ∀ a b c, le a b → le b c → le a c)
    (htotal : ∀ a b, le a b || le b a) (l : List α) :
    (stableSort le l).Pairwise fun a b => le a b := by
  have := (⟨htrans⟩ : IsTrans α fun a b => le a b)
  have := (⟨fun a b => by simpa using htotal a b⟩ : Std.Total fun a b : α => le a b)
  exact pairwise_insertionSort _ l

theorem stableSort_congr {le' : α → α → Bool} {l : List α}
    (h : ∀ a ∈ l, ∀ b ∈ l, le a b = le' a b) : stableSort le l = stableSort le' l := by
  induction l with
  | nil => rfl
  | cons a l ih =>
    have hrest := ih fun b hb c hc => h b (mem_cons_of_mem _ hb) c (mem_cons_of_mem _ hc)
    have hinsert {r : List α} (hr : ∀ b ∈ r, b ∈ l) :
        r.orderedInsert (fun a b => le a b) a = r.orderedInsert (fun a b => le' a b) a := by
      induction r with
      | nil => rfl
      | cons b r ihr =>
        obtain ⟨hb, hr⟩ := forall_mem_cons.mp hr
        rw [orderedInsert_cons, orderedInsert_cons, ihr hr,
          h a mem_cons_self b (mem_cons_of_mem _ hb)]
    change (stableSort le l).orderedInsert _ a = (stableSort le' l).orderedInsert _ a
    rw [hrest]
    exact hinsert fun b hb => (stableSort_perm l).mem_iff.mp hb

theorem eq_of_strictSorted {κ : Type*} [Preorder κ] (key : α → κ) {l l' : List α}
    (h : l.Pairwise (key · < key ·)) (h' : l'.Pairwise (key · < key ·))
    (hmem : ∀ a, a ∈ l ↔ a ∈ l') : l = l' := by
  have hnodup {l : List α} (hl : l.Pairwise (key · < key ·)) : l.Nodup :=
    hl.imp fun hlt heq => hlt.ne (congrArg key heq)
  exact ((perm_ext_iff_of_nodup (hnodup h) (hnodup h')).mpr hmem).eq_of_pairwise
    (fun _ _ _ _ hab hba => absurd hab hba.asymm) h h'

theorem strictSorted_stableSort {κ : Type*} [LinearOrder κ] (key : α → κ) {l : List α}
    (hnodup : (l.map key).Nodup) :
    (stableSort (fun a b => key a ≤ key b) l).Pairwise (key · < key ·) := by
  have hsorted := @sorted_stableSort α (fun a b => decide (key a ≤ key b))
    (fun a b c hab hbc => by simpa using (of_decide_eq_true hab).trans (of_decide_eq_true hbc))
    (fun a b => by simpa using le_total (key a) (key b)) l
  have hne := pairwise_map.mp
    (((@stableSort_perm α (fun a b => decide (key a ≤ key b)) l).map key).nodup_iff.mpr hnodup)
  exact (hsorted.and hne).imp fun ⟨hle, hne⟩ => lt_of_le_of_ne (of_decide_eq_true hle) hne

/-- **The pages of a list**, put together, are the list. -/
theorem flatMap_pages (l : List α) (limit pages : ℕ) :
    (List.range pages).flatMap (fun i => (l.drop (i * limit)).take limit) =
      l.take (pages * limit) := by
  induction pages with
  | zero => simp
  | succ pages ih =>
    rw [range_succ, flatMap_append, ih, flatMap_singleton, Nat.succ_mul,
      take_add]

/-! ### Pages of two sources -/

section Sources

variable {κ : Type*} [LinearOrder κ] (key : α → κ)

/-- Of the first `m` rows of both sources, those of the first are among its first `m`. -/
def Covers (rows more : List α) (m : ℕ) : Prop :=
  ∀ a ∈ (stableSort (fun a b => key a ≤ key b) (rows ++ more)).take m, a ∈ rows → a ∈ rows.take m

variable {key} {rows more : List α} (hkeys : ((rows ++ more).map key).Nodup)

include hkeys

omit [LinearOrder κ] in
theorem nodup_take (m : ℕ) : ((rows.take m ++ more).map key).Nodup :=
  hkeys.sublist (((take_sublist m rows).append_right more).map key)

/-- Covered rows are the first rows of what is read. -/
theorem Covers.take_eq {m : ℕ} (h : Covers key rows more m) :
    (stableSort (fun a b => key a ≤ key b) (rows.take m ++ more)).take m =
      (stableSort (fun a b => key a ≤ key b) (rows ++ more)).take m := by
  unfold Covers at h
  have hpart := strictSorted_stableSort key (nodup_take hkeys m)
  have hall := strictSorted_stableSort key hkeys
  have hmem {l : List α} (a : α) : a ∈ stableSort (fun a b => key a ≤ key b) l ↔ a ∈ l :=
    (stableSort_perm l).mem_iff
  generalize hread : stableSort (fun a b => key a ≤ key b) (rows.take m ++ more) = read at hpart ⊢
  generalize hsorted : stableSort (fun a b => key a ≤ key b) (rows ++ more) = sorted at h hall ⊢
  classical
  -- what is read is a part of all rows, and has the first of them
  have hfilter : read = sorted.filter (· ∈ read) := by
    refine eq_of_strictSorted key hpart (hall.filter _) fun a => ?_
    rw [mem_filter, decide_eq_true_eq, ← hsorted, ← hread, hmem, hmem]
    refine ⟨fun ha => ⟨?_, ha⟩, And.right⟩
    exact ((take_sublist m rows).append_right more).subset ha
  have hfirst : (sorted.take m).filter (· ∈ read) = sorted.take m := by
    refine filter_eq_self.mpr fun a ha => decide_eq_true ?_
    rw [← hread, hmem, mem_append]
    have hrow : a ∈ rows ++ more := (hmem a).mp (hsorted ▸ mem_of_mem_take ha)
    exact (mem_append.mp hrow).imp_left (h a ha)
  rw [hfilter, ← take_append_drop m sorted, filter_append, hfirst, take_append_drop]
  by_cases hlength : m ≤ sorted.length
  · exact take_left' (by rw [length_take, min_eq_left hlength])
  · rw [drop_eq_nil_of_le (by omega), filter_nil, append_nil, take_take, min_self]

omit hkeys in
/-- Lists of pages of the same lengths with the same rows are the same. -/
theorem pages_inj {f g : ℕ → List α} {n : ℕ}
    (h : (List.range n).flatMap f = (List.range n).flatMap g)
    (hlength : ∀ i < n, (f i).length = (g i).length) : ∀ i < n, f i = g i := by
  induction n with
  | zero => exact fun i hi => absurd hi (Nat.not_lt_zero i)
  | succ n ih =>
    rw [range_succ, flatMap_append, flatMap_append, flatMap_singleton, flatMap_singleton] at h
    obtain ⟨hinit, hlast⟩ := append_inj' h (hlength n (Nat.lt_succ_self n))
    intro i hi
    rcases Nat.lt_succ_iff_lt_or_eq.mp hi with hi | rfl
    · exact ih hinit (fun j hj => hlength j (Nat.lt_succ_of_lt hj)) i hi
    · exact hlast

/-- **When pages of two sources are right.**  Pages that are cut out of the first rows of one
source and all of the other are together all rows in order exactly if the rows of every page are
covered. -/
theorem pages_eq_iff {limit n : ℕ} (hall : (rows ++ more).length ≤ n * limit) :
    ((List.range n).flatMap fun i => ((stableSort (fun a b => key a ≤ key b)
      (rows.take (i * limit + limit) ++ more)).drop (i * limit)).take limit) =
        stableSort (fun a b => key a ≤ key b) (rows ++ more) ↔
      ∀ i < n, Covers key rows more (i * limit + limit) := by
  let sorted := stableSort (fun a b => key a ≤ key b) (rows ++ more)
  let read (m : ℕ) := stableSort (fun a b => key a ≤ key b) (rows.take m ++ more)
  have hpages : (List.range n).flatMap (fun i => (sorted.drop (i * limit)).take limit) = sorted :=
    (flatMap_pages sorted limit n).trans
      (take_of_length_le ((stableSort_perm _).length_eq.trans_le hall))
  constructor
  · intro h i hi a ha hrow
    have hlength (j : ℕ) : (((read (j * limit + limit)).drop (j * limit)).take limit).length =
        ((sorted.drop (j * limit)).take limit).length := by
      have hread : (read (j * limit + limit)).length =
          min (j * limit + limit) rows.length + more.length := by
        rw [(stableSort_perm _).length_eq, length_append, length_take]
      have hsorted : sorted.length = rows.length + more.length := by
        rw [(stableSort_perm _).length_eq, length_append]
      rw [length_take, length_drop, length_take, length_drop, hread, hsorted]
      omega
    have hpage := pages_inj (h.trans hpages.symm) fun j _ => hlength j
    -- the row is on one of the pages up to this one
    have htake : a ∈ (List.range (i + 1)).flatMap
        fun j => (sorted.drop (j * limit)).take limit := by
      rw [flatMap_pages, Nat.succ_mul]
      exact ha
    obtain ⟨j, hj, ha⟩ := mem_flatMap.mp htake
    have hji : j ≤ i := Nat.lt_succ_iff.mp (mem_range.mp hj)
    rw [← hpage j (hji.trans_lt hi)] at ha
    have hmem := (stableSort_perm _).mem_iff.mp (mem_of_mem_drop (mem_of_mem_take ha))
    rcases mem_append.mp hmem with ha | ha
    · have hle := Nat.add_le_add_right (Nat.mul_le_mul_right limit hji) limit
      exact (take_sublist_take_left hle).subset ha
    · rw [map_append] at hkeys
      exact absurd (mem_map_of_mem ha) (disjoint_of_nodup_append hkeys (mem_map_of_mem hrow))
  · intro h
    refine Eq.trans (flatMap_congr fun i hi => ?_) hpages
    rw [take_drop, take_drop, Covers.take_eq hkeys (h i (mem_range.mp hi))]

end Sources

end PersonalAgent.Lib
