/-
# Totals over the entries of a map

`total f m` adds up `f` over the entries of `m`.  Keys that a map does not hold count as
zero (`cell`), so a total is a sum over any finite set that holds the keys
(`total_eq_sum`).
-/

import PersonalAgent.Lib.OrdMap

namespace PersonalAgent.Lib

open Std.ExtTreeMap

variable {κ β : Type*} {cmp : κ → κ → Ordering} [Std.TransCmp cmp]

/-- The sum of `f` over the entries. -/
def total (f : κ → β → ℕ) (m : Std.ExtTreeMap κ β cmp) : ℕ := (m.toList.map fun e => f e.1 e.2).sum

/-- The part of one key. -/
def cell (f : κ → β → ℕ) (m : Std.ExtTreeMap κ β cmp) (k : κ) : ℕ := (m[k]?).elim 0 (f k)

theorem cell_of_some {f : κ → β → ℕ} {m : Std.ExtTreeMap κ β cmp} {k : κ} {v : β}
    (h : m[k]? = some v) : cell f m k = f k v := by
  rw [cell, h]
  rfl

theorem cell_of_none {f : κ → β → ℕ} {m : Std.ExtTreeMap κ β cmp} {k : κ}
    (h : m[k]? = none) : cell f m k = 0 := by
  rw [cell, h]
  rfl

variable [Std.LawfulEqCmp cmp]

variable [DecidableEq κ]

/-- **A total is the sum of its cells** over any finite set that holds the keys. -/
theorem total_eq_sum (f : κ → β → ℕ) (m : Std.ExtTreeMap κ β cmp) (keys : Finset κ)
    (h : ∀ k ∈ m, k ∈ keys) : total f m = ∑ k ∈ keys, cell f m k := by
  have hkeys : m.keys.toFinset ⊆ keys := fun k hk =>
    h k (mem_keys.mp (List.mem_toFinset.mp hk))
  rw [← Finset.sum_subset hkeys fun k _ hk => ?_, List.sum_toFinset _ m.nodup_keys,
    ← map_fst_toList_eq_keys, List.map_map, total]
  · refine congrArg List.sum (List.map_congr_left fun e he => ?_)
    exact (cell_of_some (mem_toList_iff_getElem?_eq_some.mp he)).symm
  · refine cell_of_none (Option.not_isSome_iff_eq_none.mp fun hsome => hk ?_)
    rw [List.mem_toFinset, mem_keys, mem_iff_isSome_getElem?]
    exact hsome

end PersonalAgent.Lib
