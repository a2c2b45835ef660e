/-
# Ordered maps

Facts about `Std.ExtTreeMap` that the standard library does not state: the key list of
a map depends on its key set alone, and reading after one write or one removal when the
order decides equality.
-/

import Mathlib

namespace PersonalAgent.Lib

open Std.ExtTreeMap

variable {κ β γ : Type*} {cmp : κ → κ → Ordering} [Std.TransCmp cmp] [Std.LawfulEqCmp cmp]
  {m : Std.ExtTreeMap κ β cmp} {m' : Std.ExtTreeMap κ γ cmp}

/-- Maps with the same keys list them in the same order. -/
theorem keys_eq_of_mem_iff (h : ∀ k, k ∈ m ↔ k ∈ m') : m.keys = m'.keys := by
  have hanti (a b : κ) (hab : cmp a b = .lt) (hba : cmp b a = .lt) : a = b :=
    (Std.OrientedCmp.not_lt_of_lt hab hba).elim
  refine List.Perm.eq_of_pairwise (fun a b _ _ => hanti a b) m.ordered_keys m'.ordered_keys ?_
  rw [List.perm_ext_iff_of_nodup m.nodup_keys m'.nodup_keys]
  intro k
  rw [mem_keys, mem_keys, h]

/-- Reading a map after one write. -/
theorem getElem?_insert_eq [DecidableEq κ] (m : Std.ExtTreeMap κ β cmp) (k a : κ) (v : β) :
    (m.insert k v)[a]? = if a = k then some v else m[a]? := by
  rw [getElem?_insert]
  refine if_congr ?_ rfl rfl
  rw [Std.LawfulEqCmp.compare_eq_iff_eq, eq_comm]

/-- Reading a map after one removal. -/
theorem getElem?_erase_eq [DecidableEq κ] (m : Std.ExtTreeMap κ β cmp) (k a : κ) :
    (m.erase k)[a]? = if a = k then none else m[a]? := by
  rw [getElem?_erase]
  refine if_congr ?_ rfl rfl
  rw [Std.LawfulEqCmp.compare_eq_iff_eq, eq_comm]

omit [Std.LawfulEqCmp cmp] in
/-- Reading the entries of a map that pass a test. -/
theorem getElem?_filter_eq (m : Std.ExtTreeMap κ β cmp) (p : β → Bool) (a : κ) :
    (m.filter fun _ v => p v)[a]? = (m[a]?).filter p := by
  rw [getElem?_filter]
  exact Option.pfilter_eq_filter

/-- A write of a value that passes a test is a write to the entries that pass it. -/
theorem filter_insert_of_pos [DecidableEq κ] (m : Std.ExtTreeMap κ β cmp) {p : β → Bool} (k : κ)
    {v : β} (h : p v = true) :
    ((m.insert k v).filter fun _ v => p v) = (m.filter fun _ v => p v).insert k v := by
  refine ext_getElem? fun a => ?_
  rw [getElem?_filter_eq, getElem?_insert_eq, getElem?_insert_eq, getElem?_filter_eq]
  split_ifs
  · rw [Option.filter_some, if_pos h]
  · rfl

/-- A write of a value that fails a test is a removal from the entries that pass it. -/
theorem filter_insert_of_neg [DecidableEq κ] (m : Std.ExtTreeMap κ β cmp) {p : β → Bool} (k : κ)
    {v : β} (h : p v = false) :
    ((m.insert k v).filter fun _ v => p v) = (m.filter fun _ v => p v).erase k := by
  refine ext_getElem? fun a => ?_
  rw [getElem?_filter_eq, getElem?_insert_eq, getElem?_erase_eq, getElem?_filter_eq]
  split_ifs
  · rw [Option.filter_some, if_neg (by rw [h]; exact nofun)]
  · rfl

theorem mem_insert_iff (t : Std.ExtTreeSet κ cmp) (k a : κ) : a ∈ t.insert k ↔ a = k ∨ a ∈ t := by
  rw [Std.ExtTreeSet.mem_insert, Std.LawfulEqCmp.compare_eq_iff_eq, eq_comm]

/-- A map has no more entries than a list that names all its keys. -/
theorem size_le_length {keys : List κ} (h : ∀ k ∈ m, k ∈ keys) : m.size ≤ keys.length := by
  rw [← length_keys]
  refine (List.subperm_of_subset m.nodup_keys fun k hk => ?_).length_le
  exact h k (mem_keys.mp hk)

/-- A map has no more entries than one with all its keys. -/
theorem size_le_size (h : ∀ k ∈ m, k ∈ m') : m.size ≤ m'.size := by
  rw [← length_keys (t := m')]
  exact size_le_length fun k hk => mem_keys.mpr (h k hk)

end PersonalAgent.Lib
