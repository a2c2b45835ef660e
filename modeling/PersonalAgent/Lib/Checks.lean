/-
# Checks in front of an operation

`refuse c e` is the early return `if c { return Err(e) }`.  A sequence of checks passes
when each does, and a proof takes it apart one check at a time.
-/

import PersonalAgent.Lib.Except

namespace PersonalAgent.Lib

variable {ε : Type*}

/-- Fail with `e` if `c` holds. -/
def refuse (c : Prop) [Decidable c] (e : ε) : Except ε Unit :=
  if c then .error e else .ok ()

variable {c : Prop} [Decidable c] {e : ε}

@[simp] theorem refuse_pos (h : c) : refuse c e = .error e := if_pos h

@[simp] theorem refuse_neg (h : ¬c) : refuse c e = .ok () := if_neg h

theorem refuse_ok_iff {u : Unit} : refuse c e = .ok u ↔ ¬c := by
  by_cases h : c
  · simp [h]
  · simp [h]

/-- What follows a check that passes, after which nothing else is known to hold. -/
theorem refuse_bind_ok {α : Type} {f : Unit → Except ε α} {r : α}
    (h : (refuse c e >>= f) = .ok r) : ¬c ∧ f () = .ok r := by
  obtain ⟨_, hcheck, hrest⟩ := bind_ok_iff.mp h
  exact ⟨refuse_ok_iff.mp hcheck, hrest⟩

/-- A computation without a result of its own, and what follows it. -/
theorem unit_bind_ok {α : Type} {x : Except ε Unit} {f : Unit → Except ε α} {r : α}
    (h : (x >>= f) = .ok r) : x = .ok () ∧ f () = .ok r := by
  obtain ⟨_, hx, hrest⟩ := bind_ok_iff.mp h
  exact ⟨hx, hrest⟩

/-- Renaming an error keeps a success. -/
theorem mapError_ok_iff {ε' α : Type*} {x : Except ε α} {f : ε → ε'} {r : α} :
    x.mapError f = .ok r ↔ x = .ok r := by
  cases x <;> simp [Except.mapError]

theorem toOption_eq_some {α : Type*} {x : Except ε α} {r : α} : x.toOption = some r ↔
    x = .ok r := by
  cases x <;> simp [Except.toOption]

end PersonalAgent.Lib
