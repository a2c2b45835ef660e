/-
# Frames cut out of a stream

A `Framing` takes the first frame off a buffer.  Its two laws are what makes reading a
stream in chunks possible: a frame that is complete stays the same when more arrives
behind it, and taking one makes the buffer shorter.

`consume` takes frames off a buffer one after the other and hands each to a machine that
may close; `feed` does so each time a chunk has arrived, gives up when the buffer grows
over a limit, and finishes when the chunks end.  If the buffer stays within the limit, the
chunks do not matter (`feed_of_fits`); if not, the output ends in that of an overflow
(`feed_of_not_fits`).
-/

import Mathlib.Data.List.Basic
import Mathlib.Order.Nat

namespace PersonalAgent.Lib

open List

variable {α φ σ ε : Type*}

/-- How the first frame is taken off a buffer. -/
structure Framing (α φ : Type*) where
  take : List α → Option (φ × List α)
  extend : ∀ {buffer frame rest}, take buffer = some (frame, rest) →
    ∀ more, take (buffer ++ more) = some (frame, rest ++ more)
  shrink : ∀ {buffer frame rest}, take buffer = some (frame, rest) → rest.length < buffer.length

namespace Framing

variable (F : Framing α φ)

/-- At most `fuel` frames off a buffer, and what is left. -/
def drainFor : ℕ → List α → List φ × List α
  | 0, buffer => ([], buffer)
  | fuel + 1, buffer =>
    match F.take buffer with
    | none => ([], buffer)
    | some (frame, rest) => (frame :: (drainFor fuel rest).1, (drainFor fuel rest).2)

def frames (stream : List α) : List φ := (F.drainFor stream.length stream).1

/-- The bytes after the last complete frame. -/
def pending (stream : List α) : List α := (F.drainFor stream.length stream).2

variable {F}

variable {buffer : List α} {s : σ} {chunks : List (List α)}

theorem drainFor_of_le {fuel : ℕ} (h : buffer.length ≤ fuel) :
    F.drainFor fuel buffer = (F.frames buffer, F.pending buffer) := by
  -- induction on the buffer's length, for two amounts of fuel that are both enough
  have henough (n : ℕ) : ∀ buffer : List α, buffer.length ≤ n → ∀ fuel, buffer.length ≤ fuel →
      F.drainFor fuel buffer = F.drainFor n buffer := by
    induction n with
    | zero =>
      intro buffer hn fuel _
      cases fuel with
      | zero => rfl
      | succ fuel =>
        rcases htake : F.take buffer with _ | ⟨frame, rest⟩
        · simp only [drainFor, htake]
        · exact absurd (F.shrink htake) (by omega)
    | succ n ih =>
      intro buffer hn fuel hfuel
      rcases htake : F.take buffer with _ | ⟨frame, rest⟩
      · cases fuel with
        | zero => simp only [drainFor, htake]
        | succ fuel => simp only [drainFor, htake]
      · have hshrink := F.shrink htake
        cases fuel with
        | zero => omega
        | succ fuel => simp only [drainFor, htake, ih rest (by omega) fuel (by omega)]
  exact henough buffer.length buffer le_rfl fuel h

theorem frames_of_none (h : F.take buffer = none) :
    F.frames buffer = [] ∧ F.pending buffer = buffer := by
  have hdrain := drainFor_of_le (F := F) (Nat.le_succ buffer.length)
  simp only [drainFor, h, Prod.mk.injEq] at hdrain
  exact ⟨hdrain.1.symm, hdrain.2.symm⟩

theorem frames_of_some {rest : List α} {frame : φ} (h : F.take buffer = some (frame, rest)) :
    F.frames buffer = frame :: F.frames rest ∧ F.pending buffer = F.pending rest := by
  have hdrain := drainFor_of_le (F := F) (Nat.le_succ buffer.length)
  simp only [drainFor, h, drainFor_of_le (F.shrink h).le, Prod.mk.injEq] at hdrain
  exact ⟨hdrain.1.symm, hdrain.2.symm⟩

/-- Induction along the frames of a stream. -/
theorem frame_induction {motive : List α → Prop}
    (partly : ∀ buffer, F.take buffer = none → motive buffer)
    (framed : ∀ buffer frame rest, F.take buffer = some (frame, rest) → motive rest →
      motive buffer)
    (buffer : List α) : motive buffer := by
  induction hn : buffer.length using Nat.strongRecOn generalizing buffer with
  | _ n ih =>
    rcases htake : F.take buffer with _ | ⟨frame, rest⟩
    · exact partly buffer htake
    · exact framed buffer frame rest htake (ih _ (hn ▸ F.shrink htake) rest rfl)

/-- **More bytes add frames at the end.**  The frames of a longer stream are those of the
shorter one and those of what was pending with the rest behind it. -/
theorem frames_append (buffer more : List α) :
    F.frames (buffer ++ more) = F.frames buffer ++ F.frames (F.pending buffer ++ more) ∧
      F.pending (buffer ++ more) = F.pending (F.pending buffer ++ more) := by
  induction buffer using frame_induction (F := F) with
  | partly buffer h =>
    rw [(frames_of_none h).1, (frames_of_none h).2]
    exact ⟨rfl, rfl⟩
  | framed buffer frame rest h ih =>
    have hmore := frames_of_some (F.extend h more)
    rw [hmore.1, hmore.2, (frames_of_some h).1, (frames_of_some h).2, ih.1, ih.2]
    exact ⟨rfl, rfl⟩

theorem take_pending (buffer : List α) : F.take (F.pending buffer) = none := by
  induction buffer using frame_induction (F := F) with
  | partly buffer h => rwa [(frames_of_none h).2]
  | framed buffer frame rest h ih => rwa [(frames_of_some h).2]

/-! ### A machine that reads frames -/

/-- One frame: what the machine puts out, and its next state unless it closes. -/
abbrev Machine (σ φ ε : Type*) := σ → φ → List ε × Option σ

/-- A machine on frame after frame, until it stops. -/
def Machine.run (step : Machine σ φ ε) : σ → List φ → List ε × Option σ
  | s, [] => ([], some s)
  | s, frame :: frames =>
    match step s frame with
    | (events, none) => (events, none)
    | (events, some s) => (events ++ (run step s frames).1, (run step s frames).2)

/-- Frames are taken off the buffer, for `fuel` rounds, until there is none or the machine
closes. -/
def consume (F : Framing α φ) (step : Machine σ φ ε) :
    ℕ → σ → List α → List ε × Option (σ × List α)
  | 0, s, buffer => ([], some (s, buffer))
  | fuel + 1, s, buffer =>
    match F.take buffer with
    | none => ([], some (s, buffer))
    | some (frame, rest) =>
      match step s frame with
      | (events, none) => (events, none)
      | (events, some s) =>
        (events ++ (F.consume step fuel s rest).1, (F.consume step fuel s rest).2)

/-- The rounds end with the frames: the machine has run on all of them. -/
theorem consume_eq {step : Machine σ φ ε} {fuel : ℕ} (h : buffer.length ≤ fuel) :
    F.consume step fuel s buffer =
      ((step.run s (F.frames buffer)).1,
        (step.run s (F.frames buffer)).2.map fun s => (s, F.pending buffer)) := by
  induction fuel generalizing s buffer with
  | zero =>
    have htake : F.take buffer = none := by
      rcases htake : F.take buffer with _ | ⟨frame, rest⟩
      · rfl
      · exact absurd (F.shrink htake) (by omega)
    rw [(frames_of_none htake).1, (frames_of_none htake).2]
    rfl
  | succ fuel ih =>
    rcases htake : F.take buffer with _ | ⟨frame, rest⟩
    · rw [(frames_of_none htake).1, (frames_of_none htake).2]
      simp [consume, htake, Machine.run]
    · have hshrink := F.shrink htake
      rw [(frames_of_some htake).1, (frames_of_some htake).2]
      rcases hstep : step s frame with ⟨events, _ | s'⟩
      · simp [consume, htake, Machine.run, hstep]
      · have hrest : rest.length ≤ fuel := by omega
        simp [consume, htake, Machine.run, hstep, ih hrest]

theorem Machine.run_append (step : Machine σ φ ε) (s : σ) (l m : List φ) :
    step.run s (l ++ m) =
      match step.run s l with
      | (events, none) => (events, none)
      | (events, some s) => (events ++ (step.run s m).1, (step.run s m).2) := by
  induction l generalizing s with
  | nil => rfl
  | cons frame l ih =>
    rcases hstep : step s frame with ⟨events, _ | s'⟩
    · simp [Machine.run, hstep]
    · rcases hrun : step.run s' l with ⟨events', _ | s''⟩
      · simp [Machine.run, hstep, ih, hrun]
      · simp [Machine.run, hstep, ih, hrun]

/-! ### Reading in chunks -/

/-- A reader: the machine, the limit on the buffer, and what is put out when the limit is
exceeded and when the chunks end. -/
structure Reader (σ φ ε : Type*) where
  step : Machine σ φ ε
  limit : ℕ
  overflow : σ → List ε
  finish : σ → List ε

variable (F) (R : Reader σ φ ε)

/-- Chunks are appended to the buffer one after the other, and the frames that are complete
are taken off it. -/
def feed : σ → List α → List (List α) → List ε
  | s, _, [] => R.finish s
  | s, buffer, chunk :: chunks =>
    if R.limit < (buffer ++ chunk).length then R.overflow s
    else
      match F.consume R.step (buffer ++ chunk).length s (buffer ++ chunk) with
      | (events, none) => events
      | (events, some (s, rest)) => events ++ feed s rest chunks

/-- The machine on the frames of a whole stream. -/
def decode (s : σ) (stream : List α) : List ε :=
  match R.step.run s (F.frames stream) with
  | (events, none) => events
  | (events, some s) => events ++ R.finish s

/-- Until the machine closes, each chunk and what was pending before it are within the limit
together. -/
def Fits : σ → List α → List (List α) → Prop
  | _, _, [] => True
  | s, buffer, chunk :: chunks =>
    (buffer ++ chunk).length ≤ R.limit ∧
      ∀ s' ∈ (R.step.run s (F.frames (buffer ++ chunk))).2,
        Fits s' (F.pending (buffer ++ chunk)) chunks

variable {F R}

theorem feed_cons {chunk : List α} (h : (buffer ++ chunk).length ≤ R.limit) :
    F.feed R s buffer (chunk :: chunks) =
      match R.step.run s (F.frames (buffer ++ chunk)) with
      | (events, none) => events
      | (events, some s) => events ++ F.feed R s (F.pending (buffer ++ chunk)) chunks := by
  rw [feed, if_neg (by omega), consume_eq le_rfl]
  rcases R.step.run s (F.frames (buffer ++ chunk)) with ⟨events, _ | s'⟩
  · rfl
  · rfl

theorem decode_append (s : σ) (buffer more : List α) : F.decode R s (buffer ++ more) =
    match R.step.run s (F.frames buffer) with
    | (events, none) => events
    | (events, some s) => events ++ F.decode R s (F.pending buffer ++ more) := by
  unfold decode
  rw [(frames_append buffer more).1, Machine.run_append]
  rcases R.step.run s (F.frames buffer) with ⟨events, _ | s'⟩
  · rfl
  · dsimp only
    rcases R.step.run s' (F.frames (F.pending buffer ++ more)) with ⟨events', _ | s''⟩
    · rfl
    · simp

/-- **Chunks do not matter.**  A reader whose buffer stays within the limit puts out what it
would put out for the whole stream at once. -/
theorem feed_of_fits (hbuffer : F.take buffer = none) (h : F.Fits R s buffer chunks) :
    F.feed R s buffer chunks = F.decode R s (buffer ++ chunks.flatten) := by
  induction chunks generalizing s buffer with
  | nil =>
    rw [flatten_nil, append_nil, decode, (frames_of_none hbuffer).1]
    rfl
  | cons chunk chunks ih =>
    obtain ⟨hlimit, hrest⟩ := h
    rw [feed_cons hlimit, flatten_cons, ← append_assoc, decode_append]
    rcases hrun : R.step.run s (F.frames (buffer ++ chunk)) with ⟨events, _ | s'⟩
    · rfl
    · dsimp only
      rw [ih (take_pending _) (hrest s' (by rw [hrun]; rfl))]

/-- A reader whose buffer exceeds the limit puts out an overflow. -/
theorem feed_of_not_fits (h : ¬F.Fits R s buffer chunks) : ∃ events s', F.feed R s buffer chunks =
      events ++ R.overflow s' := by
  induction chunks generalizing s buffer with
  | nil => exact absurd trivial h
  | cons chunk chunks ih =>
    by_cases hlimit : (buffer ++ chunk).length ≤ R.limit
    · obtain ⟨s', hs', hfits⟩ : ∃ s' ∈ (R.step.run s (F.frames (buffer ++ chunk))).2,
          ¬F.Fits R s' (F.pending (buffer ++ chunk)) chunks := by
        by_contra hnone
        exact h ⟨hlimit, fun s' hs' => not_not.mp fun hfits => hnone ⟨s', hs', hfits⟩⟩
      obtain ⟨events, last, hfeed⟩ := ih hfits
      rw [feed_cons hlimit]
      rcases hrun : R.step.run s (F.frames (buffer ++ chunk)) with ⟨before, _ | s''⟩
      · rw [hrun] at hs'
        cases hs'
      · rw [hrun] at hs'
        cases hs'
        exact ⟨before ++ events, last, by simp [hfeed]⟩
    · refine ⟨[], s, ?_⟩
      rw [feed, if_pos (by omega)]
      rfl

/-- **What a reader puts out.**  The output of the machine on some of the first frames of the
stream, until it closes, or until an overflow or the end. -/
theorem feed_cases (s : σ) (buffer : List α) (chunks : List (List α)) :
    ∃ fs, fs <+: F.frames (buffer ++ chunks.flatten) ∧
      match R.step.run s fs with
      | (events, none) => F.feed R s buffer chunks = events
      | (events, some s') => F.feed R s buffer chunks = events ++ R.overflow s' ∨
          F.feed R s buffer chunks = events ++ R.finish s' := by
  induction chunks generalizing s buffer with
  | nil => exact ⟨[], nil_prefix, .inr rfl⟩
  | cons chunk chunks ih =>
    by_cases hlimit : (buffer ++ chunk).length ≤ R.limit
    · rw [feed_cons hlimit, flatten_cons, ← append_assoc, (frames_append _ _).1]
      rcases hrun : R.step.run s (F.frames (buffer ++ chunk)) with ⟨before, _ | s'⟩
      · refine ⟨F.frames (buffer ++ chunk), prefix_append _ _, ?_⟩
        rw [hrun]
      · obtain ⟨fs, hfs, hfeed⟩ := ih s' (F.pending (buffer ++ chunk))
        refine ⟨F.frames (buffer ++ chunk) ++ fs, (prefix_append_right_inj _).mpr hfs, ?_⟩
        rw [Machine.run_append, hrun]
        rcases hmore : R.step.run s' fs with ⟨events, _ | s''⟩
        · simp only [hmore] at hfeed ⊢
          rw [hfeed]
        · simp only [hmore] at hfeed ⊢
          rcases hfeed with hfeed | hfeed
          · exact .inl (by rw [hfeed, append_assoc])
          · exact .inr (by rw [hfeed, append_assoc])
    · refine ⟨[], nil_prefix, .inl ?_⟩
      rw [feed, if_pos (by omega)]
      rfl

end Framing
end PersonalAgent.Lib
