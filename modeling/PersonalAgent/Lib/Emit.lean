/-
# Steps that emit events

A component with state answers each call with a list of events and a changed state.  Such
steps are put together one after the other, the events of the second behind those of the
first.  What relates the state before a step, its events and the state after it, and can be
chained (`Chains`), is kept by a step that is put together from steps that keep it.
-/

import Mathlib.Data.List.Basic

namespace PersonalAgent.Lib

variable {σ τ ε α : Type}

/-- A step of a component with states `σ` that hands out events `ε`. -/
abbrev Emits (σ ε : Type) := σ → List ε × σ

namespace Emits

/-- Nothing happens. -/
def skip : Emits σ ε := fun s => ([], s)

/-- The state changes without an event. -/
def update (f : σ → σ) : Emits σ ε := fun s => ([], f s)

/-- One step, then another. -/
def andThen (f g : Emits σ ε) : Emits σ ε := fun s =>
  let (events, s) := f s
  let (more, s) := g s
  (events ++ more, s)

/-- A step for each element of a list. -/
def each (f : α → Emits σ ε) : List α → Emits σ ε
  | [] => skip
  | a :: l => (f a).andThen (each f l)

/-- A step for a value, if there is one. -/
def ifSome (o : Option α) (f : α → Emits σ ε) : Emits σ ε :=
  match o with
  | some a => f a
  | none => skip

/-- A step of a part of the state. -/
def within (get : τ → σ) (set : τ → σ → τ) (f : Emits σ ε) : Emits τ ε := fun t =>
  let (events, s) := f (get t)
  (events, set t s)

end Emits

/-- A relation of a state, the events handed out and the state then, that can be chained. -/
structure Chains (R : σ → List ε → σ → Prop) : Prop where
  refl : ∀ s, R s [] s
  trans : ∀ {a b c events more}, R a events b → R b more c → R a (events ++ more) c

/-- Every run of the step is in the relation. -/
def Keeps (R : σ → List ε → σ → Prop) (f : Emits σ ε) : Prop := ∀ s, R s (f s).1 (f s).2

namespace Keeps

variable {R : σ → List ε → σ → Prop} {f g : Emits σ ε}

theorem skip (hR : Chains R) : Keeps R Emits.skip := hR.refl

theorem andThen (hR : Chains R) (hf : Keeps R f) (hg : Keeps R g) : Keeps R (f.andThen g) :=
  fun s => hR.trans (hf s) (hg _)

theorem each (hR : Chains R) {f : α → Emits σ ε} (hf : ∀ a, Keeps R (f a)) (l : List α) :
    Keeps R (Emits.each f l) := by
  induction l with
  | nil => exact skip hR
  | cons a l ih => exact andThen hR (hf a) ih

theorem ifSome (hR : Chains R) {f : α → Emits σ ε} (hf : ∀ a, Keeps R (f a)) (o : Option α) :
    Keeps R (Emits.ifSome o f) := by
  cases o with
  | none => exact skip hR
  | some a => exact hf a

end Keeps

/-- What the events of every step satisfy, the events of a run satisfy. -/
theorem Emits.forall_each {f : α → Emits σ ε} {p : ε → Prop} (h : ∀ a s, ∀ e ∈ (f a s).1, p e)
    (l : List α) (s : σ) : ∀ e ∈ (Emits.each f l s).1, p e := by
  induction l generalizing s with
  | nil => exact fun _ he => (nomatch he)
  | cons a l ih => exact fun e he => (List.mem_append.mp he).elim (h a s e) (ih _ e)

end PersonalAgent.Lib
