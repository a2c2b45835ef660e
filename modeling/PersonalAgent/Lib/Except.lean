/-
# Fallible computations

When a computation in `Except` returns a value, what its parts returned.  Proofs
take a `do` block apart with these instead of unfolding the monad.
-/

import Mathlib

namespace PersonalAgent.Lib

open List

universe u

variable {ε : Type*} {α β : Type u}

variable {f : α → Except ε β} {l : List α}

/-- A sequence returns what its second part returns on the value of its first. -/
theorem bind_ok_iff {x : Except ε α} {r : β} :
    (x >>= f) = .ok r ↔ ∃ a, x = .ok a ∧ f a = .ok r := by
  cases x with
  | error e => simp [bind, Except.bind]
  | ok a => simp [bind, Except.bind]

theorem pure_ok_iff {a r : α} : (pure a : Except ε α) = .ok r ↔ a = r := by
  simp [pure, Except.pure]

theorem map_ok_iff {x : Except ε α} {f : α → β} {r : β} :
    x.map f = .ok r ↔ ∃ a, x = .ok a ∧ f a = r := by
  cases x <;> simp [Except.map]

/-- A loop of checks passes when every check does. -/
theorem forM_ok_iff {f : α → Except ε Unit} : l.forM f = .ok () ↔ ∀ a ∈ l, f a = .ok () := by
  induction l with
  | nil => simp [pure, Except.pure]
  | cons a l ih =>
    change (f a >>= fun _ => l.forM f) = .ok () ↔ _
    rw [bind_ok_iff, forall_mem_cons, ← ih]
    exact ⟨fun ⟨(), ha, hl⟩ => ⟨ha, hl⟩, fun ⟨ha, hl⟩ => ⟨(), ha, hl⟩⟩

/-- A map of a list on which every call succeeds. -/
theorem mapM_ok {g : α → β} (h : ∀ a ∈ l, f a = .ok (g a)) : l.mapM f = .ok (l.map g) := by
  induction l with
  | nil => rfl
  | cons a l ih =>
    rw [mapM_cons, h a mem_cons_self, ih fun b hb => h b (mem_cons_of_mem _ hb)]
    rfl

/-- What a map of a list returns is returned by its calls. -/
theorem mem_mapM_ok {r : List β} (h : l.mapM f = .ok r) {b : β} (hb : b ∈ r) :
    ∃ a ∈ l, f a = .ok b := by
  induction l generalizing r with
  | nil =>
    obtain rfl := pure_ok_iff.mp h
    exact (nomatch hb)
  | cons a l ih =>
    rw [mapM_cons] at h
    obtain ⟨c, hc, h⟩ := bind_ok_iff.mp h
    obtain ⟨r', hr', h⟩ := bind_ok_iff.mp h
    obtain rfl := pure_ok_iff.mp h
    rcases mem_cons.mp hb with rfl | hb
    · exact ⟨a, mem_cons_self, hc⟩
    · obtain ⟨a', ha', hcall⟩ := ih hr' hb
      exact ⟨a', mem_cons_of_mem _ ha', hcall⟩

/-- Maps whose calls agree. -/
theorem mapM_congr {g : α → Except ε β} (h : ∀ a ∈ l, f a = g a) : l.mapM f = l.mapM g := by
  induction l with
  | nil => rfl
  | cons a l ih =>
    obtain ⟨ha, hl⟩ := forall_mem_cons.mp h
    rw [mapM_cons, mapM_cons, ha, ih hl]

/-- What every turn of a loop keeps holds after a loop that returns. -/
theorem foldlM_ok_invariant {f : β → α → Except ε β} (inv : β → Prop)
    (hstep : ∀ b a b', inv b → f b a = .ok b' → inv b') {b b' : β} (h : l.foldlM f b = .ok b')
    (hb : inv b) : inv b' := by
  induction l generalizing b with
  | nil => exact pure_ok_iff.mp h ▸ hb
  | cons a l ih =>
    obtain ⟨b₁, hb₁, h⟩ := bind_ok_iff.mp h
    exact ih h (hstep b a b₁ hb hb₁)

end PersonalAgent.Lib
