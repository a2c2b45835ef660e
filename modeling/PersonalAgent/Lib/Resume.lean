/-
# Passes that can be taken up again

A pass over a list adds each element whose key is not there yet.  It may stop anywhere; the next
pass starts over.  What was added stays, and its keys keep the next pass from adding it again, so
a pass after a broken one ends where an unbroken one would have ended (`addAll_addAll_take`).
-/

import Mathlib

namespace PersonalAgent.Lib

open List

variable {β κ : Type*} [DecidableEq κ] (key : β → κ)

/-- Add an element, unless its key is there. -/
def addNew (m : Multiset β) (b : β) : Multiset β := if key b ∈ m.map key then m else b ::ₘ m

def addAll (m : Multiset β) (l : List β) : Multiset β := l.foldl (addNew key) m

theorem addAll_cons (m : Multiset β) (b : β) (l : List β) :
    addAll key m (b :: l) = addAll key (addNew key m b) l := rfl

theorem addAll_append (m : Multiset β) (l l' : List β) :
    addAll key m (l ++ l') = addAll key (addAll key m l) l' := foldl_append

variable {key}

theorem mem_map_addNew {m : Multiset β} {b : β} {k : κ} :
    k ∈ (addNew key m b).map key ↔ k = key b ∨ k ∈ m.map key := by
  unfold addNew
  split_ifs with h
  · exact (or_iff_right_of_imp fun heq => heq ▸ h).symm
  · rw [Multiset.map_cons, Multiset.mem_cons]

theorem mem_map_addAll {m : Multiset β} {l : List β} {k : κ} :
    k ∈ (addAll key m l).map key ↔ k ∈ m.map key ∨ k ∈ l.map key := by
  induction l generalizing m with
  | nil => simp [addAll]
  | cons b l ih =>
    rw [addAll_cons, ih, mem_map_addNew, map_cons, mem_cons]
    tauto

/-- What is there already is not added. -/
theorem addAll_eq_self {m : Multiset β} {l : List β} (h : ∀ b ∈ l, key b ∈ m.map key) :
    addAll key m l = m := by
  induction l with
  | nil => rfl
  | cons b l ih =>
    obtain ⟨hb, hl⟩ := forall_mem_cons.mp h
    rw [addAll_cons, addNew, if_pos hb, ih hl]

/-- **A pass after a broken one** ends where an unbroken one does. -/
theorem addAll_addAll_take (m : Multiset β) (l : List β) (n : ℕ) :
    addAll key (addAll key m (l.take n)) l = addAll key m l := by
  have hpresent : ∀ b ∈ l.take n, key b ∈ (addAll key m (l.take n)).map key := fun b hb =>
    mem_map_addAll.mpr (.inr (mem_map_of_mem hb))
  calc addAll key (addAll key m (l.take n)) l
      = addAll key (addAll key m (l.take n)) (l.take n ++ l.drop n) := by rw [take_append_drop]
    _ = addAll key (addAll key m (l.take n)) (l.drop n) := by
        rw [addAll_append, addAll_eq_self hpresent]
    _ = addAll key m l := by rw [← addAll_append, take_append_drop]

/-- What a pass adds: one element for each key of the list that was not there. -/
theorem addAll_eq_add (m : Multiset β) (l : List β) :
    ∃ added, addAll key m l = m + added ∧ (added.map key).Nodup ∧
      ∀ k, k ∈ added.map key ↔ k ∈ l.map key ∧ k ∉ m.map key := by
  induction l generalizing m with
  | nil => exact ⟨0, (add_zero m).symm, Multiset.nodup_zero, by simp⟩
  | cons b l ih =>
    obtain ⟨added, hadd, hnodup, hkeys⟩ := ih (addNew key m b)
    by_cases hb : key b ∈ m.map key
    · have hsame : addNew key m b = m := if_pos hb
      rw [hsame] at hadd hkeys
      refine ⟨added, by rw [addAll_cons, hsame, hadd], hnodup, fun k => ?_⟩
      rw [hkeys, map_cons, mem_cons]
      constructor
      · exact fun ⟨hl, hm⟩ => ⟨.inr hl, hm⟩
      · rintro ⟨rfl | hl, hm⟩
        · exact (hm hb).elim
        · exact ⟨hl, hm⟩
    · have hnew : addNew key m b = b ::ₘ m := if_neg hb
      rw [hnew] at hadd hkeys
      simp only [Multiset.map_cons, Multiset.mem_cons, not_or] at hkeys
      refine ⟨b ::ₘ added, ?_, ?_, fun k => ?_⟩
      · rw [addAll_cons, hnew, hadd, Multiset.cons_add, Multiset.add_cons]
      · rw [Multiset.map_cons, Multiset.nodup_cons]
        exact ⟨fun hmem => ((hkeys _).mp hmem).2.1 rfl, hnodup⟩
      · rw [Multiset.map_cons, Multiset.mem_cons, hkeys, map_cons, mem_cons]
        constructor
        · rintro (rfl | ⟨hl, -, hm⟩)
          · exact ⟨.inl rfl, hb⟩
          · exact ⟨.inr hl, hm⟩
        · rintro ⟨heq | hl, hm⟩
          · exact .inl heq
          · by_cases heq : k = key b
            · exact .inl heq
            · exact .inr ⟨hl, heq, hm⟩

end PersonalAgent.Lib
