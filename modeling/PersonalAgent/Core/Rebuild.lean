/-
# Rebuilding from a checkpoint

`rebuildProjectionFrom` starts at the stored checkpoint and reads pages of 512 events;
folding `apply` over the whole log is what it should return.  The two agree when the
checkpoint is the fold of the events up to its own sequence (`rebuild_eq_replay`).

`Replayable` is what keeps that true along a run, also where the live projection has
fallen behind the log (a failed import, see `PersonalAgent.Core.InStep`): every stored
event can be applied, and the projection and its checkpoint are folds of the events up to
their sequences.  Every event that reaches the profile is built by `EventEnvelope::new`, which
serialises its payload, so its payload decodes (`Decodes`) and the event is one that `apply` can
read.
-/

import PersonalAgent.Core.InStep

namespace PersonalAgent.Core

open Lib List

open Agent Storage Migration

/-- Every event applies, and the projection and its checkpoint are folds of the events up
to their sequences. -/
structure Replayable (store : EventStore AppProjection) (projection : AppProjection) : Prop where
  readable : ∀ row ∈ store.events.rows, AppProjection.Readable row
  positive : ∀ row ∈ store.events.rows, 0 < row.monotonicSequence
  replayed : Boundary store.events.rows ⟨projection, projection.lastSequence⟩
  boundary : ∀ c, store.projectionCheckpoint = some c → Boundary store.events.rows c ∧
    c.lastSequence ≤ projection.lastSequence

namespace Replayable

variable {store store' : EventStore AppProjection} {projection : AppProjection}

theorem empty : Replayable {} {} :=
  ⟨fun _ h => (nomatch h), fun _ h => (nomatch h), ⟨rfl, rfl⟩, fun _ h => (nomatch h)⟩

theorem rebuild_eq (h : Replayable store projection) :
    rebuildProjectionFrom store = replayLog store :=
  rebuild_eq_replay h.positive fun c hc => (h.boundary c hc).1

/-- The projection is not ahead of the log. -/
theorem le_lastSequence (h : Replayable store projection) :
    projection.lastSequence ≤ store.events.lastSequence := InStep.boundary_le h.replayed

/-- The whole log folds. -/
theorem exists_replayLog (h : Replayable store projection) :
    ∃ q, replayLog store = .ok q ∧ q.lastSequence = store.events.lastSequence := by
  obtain ⟨q, hq⟩ := InStep.exists_replay (p := {}) store.events.sorted h.positive h.readable
  exact ⟨q, hq, AppProjection.lastSequence_of_replay hq⟩

theorem caughtUp (h : Replayable store projection) {q : AppProjection}
    (hq : replayLog store = .ok q) : Replayable store q := by
  have hlast : q.lastSequence = store.events.lastSequence :=
    AppProjection.lastSequence_of_replay hq
  have hall : store.events.rows.filter (·.monotonicSequence ≤ q.lastSequence) =
      store.events.rows := by
    refine filter_eq_self.mpr fun row hrow => decide_eq_true ?_
    exact hlast ▸ EventTable.le_lastSequence hrow
  refine ⟨h.readable, h.positive, ⟨?_, rfl⟩, fun c hc => ⟨(h.boundary c hc).1, ?_⟩⟩
  · dsimp only
    rw [hall]
    exact hq
  · have := (h.boundary c hc).2
    have := h.le_lastSequence
    omega

theorem checkpointed (h : Replayable store projection) :
    Replayable { store with projectionCheckpoint := some ⟨projection, projection.lastSequence⟩ }
      projection := by
  refine ⟨h.readable, h.positive, h.replayed, fun c hc => ?_⟩
  cases hc
  exact ⟨h.replayed, le_rfl⟩

/-- An import adds history after all other events. -/
theorem imported (h : Replayable store projection) (himport : store.Imported store') :
    Replayable store' projection := by
  obtain ⟨added, hrows, hadded⟩ := himport.rows
  have hle := h.le_lastSequence
  have hmem {row : EventEnvelope} (hrow : row ∈ store'.events.rows) :
      row ∈ store.events.rows ∨ row ∈ added := by
    rw [hrows] at hrow
    exact mem_append.mp hrow
  refine ⟨fun row hrow => ?_, fun row hrow => ?_, ?_, fun c hc => ?_⟩
  · refine (hmem hrow).elim (h.readable row) fun hnew => .inr ?_
    rw [(hadded row hnew).1]
    decide
  · refine (hmem hrow).elim (h.positive row) fun hnew => ?_
    have := (hadded row hnew).2
    omega
  · rw [hrows]
    exact InStep.boundary_append h.replayed fun e he => hle.trans_lt (hadded e he).2
  · rw [himport.projectionCheckpoint] at hc
    obtain ⟨hboundary, hlow⟩ := h.boundary c hc
    refine ⟨?_, hlow⟩
    rw [hrows]
    exact InStep.boundary_append hboundary fun e he =>
      (hlow.trans hle).trans_lt (hadded e he).2

/-- An event between the rows does not reach below itself. -/
theorem filter_placed {rows : List EventEnvelope} {event : EventEnvelope} {n : ℕ}
    (hn : n < event.monotonicSequence) :
    (EventTable.placed rows event).filter (·.monotonicSequence ≤ n) =
      rows.filter (·.monotonicSequence ≤ n) := by
  have hevent : ¬event.monotonicSequence ≤ n := by omega
  have hlow : (rows.filter (·.monotonicSequence < event.monotonicSequence)).filter
      (·.monotonicSequence ≤ n) = rows.filter (·.monotonicSequence ≤ n) := by
    rw [filter_filter]
    refine filter_congr fun row _ => ?_
    by_cases hle : row.monotonicSequence ≤ n
    · simp [hle, hle.trans_lt hn]
    · simp [hle]
  have hhigh : (rows.filter (event.monotonicSequence < ·.monotonicSequence)).filter
      (·.monotonicSequence ≤ n) = [] := by
    refine filter_eq_nil_iff.mpr fun row hrow => ?_
    have := of_decide_eq_true (mem_filter.mp hrow).2
    simp only [decide_eq_true_eq]
    omega
  rw [EventTable.placed, filter_append, filter_cons_of_neg (by simpa using hevent), hlow,
    hhigh, append_nil]

/-- Up to itself, the event comes after the rows below it. -/
theorem filter_placed_self (rows : List EventEnvelope) (event : EventEnvelope) :
    (EventTable.placed rows event).filter (·.monotonicSequence ≤ event.monotonicSequence) =
      rows.filter (·.monotonicSequence < event.monotonicSequence) ++ [event] := by
  have hlow : (rows.filter (·.monotonicSequence < event.monotonicSequence)).filter
      (·.monotonicSequence ≤ event.monotonicSequence) =
      rows.filter (·.monotonicSequence < event.monotonicSequence) := by
    refine filter_eq_self.mpr fun row hrow => decide_eq_true ?_
    exact (of_decide_eq_true (mem_filter.mp hrow).2).le
  have hhigh : (rows.filter (event.monotonicSequence < ·.monotonicSequence)).filter
      (·.monotonicSequence ≤ event.monotonicSequence) = [] := by
    refine filter_eq_nil_iff.mpr fun row hrow => ?_
    have := of_decide_eq_true (mem_filter.mp hrow).2
    simp only [decide_eq_true_eq]
    omega
  rw [EventTable.placed, filter_append, filter_cons_of_pos (by simp), hlow, hhigh]

/-- **The next readable event is stored and counted.** -/
theorem appended (h : Replayable store projection) {event : EventEnvelope}
    (hseq : event.monotonicSequence = projection.lastSequence + 1)
    (hread : AppProjection.Readable event) (happended : store.Appended event store')
    {q : AppProjection} (hq : projection.applied event = .ok q) : Replayable store' q := by
  obtain ⟨hinsert, hcheckpoint⟩ := happended
  have hlast := (AppProjection.lastSequence_of_applied hq).2
  have hrows : store'.events.rows = EventTable.placed store.events.rows event ∧
      store.events.Free event := by
    unfold EventTable.insert at hinsert
    split_ifs at hinsert with hfree
    rw [← Except.ok.inj hinsert]
    exact ⟨rfl, hfree⟩
  obtain ⟨hrows, hfree⟩ := hrows
  have hmem {row : EventEnvelope} (hrow : row ∈ store'.events.rows) :
      row = event ∨ row ∈ store.events.rows := by
    rw [hrows] at hrow
    exact mem_cons.mp ((EventTable.placed_perm fun r hr => (hfree r hr).1).mem_iff.mp hrow)
  refine ⟨fun row hrow => ?_, fun row hrow => ?_, ⟨?_, rfl⟩, fun c hc => ?_⟩
  · exact (hmem hrow).elim (fun he => he ▸ hread) (h.readable row)
  · rcases hmem hrow with rfl | hrow
    · omega
    · exact h.positive row hrow
  · -- the rows below the event are those the projection was folded from
    have hbelow : store.events.rows.filter (·.monotonicSequence < event.monotonicSequence) =
        store.events.rows.filter (·.monotonicSequence ≤ projection.lastSequence) := by
      simp only [hseq, Nat.lt_succ_iff]
    have hbase := h.replayed.replayed
    dsimp only at hbase ⊢
    rw [hrows, hlast, filter_placed_self, hbelow, foldlM_append, hbase]
    exact (bind_pure _).trans hq
  · rw [hcheckpoint] at hc
    obtain ⟨hboundary, hle⟩ := h.boundary c hc
    refine ⟨⟨?_, hboundary.sequence⟩, by omega⟩
    rw [hrows, filter_placed (by omega)]
    exact hboundary.replayed

end Replayable

/-! ### Runs -/

namespace ProfileState

/-- **Every move keeps the log replayable**, also an import that leaves the projection
behind. -/
theorem Moved.replayable {lag : Prop} {p q : ProfileState} (hmove : Moved lag p q)
    (h : Replayable p.store p.projection) : Replayable q.store q.projection := by
  cases hmove with
  | kept hevents hcheckpoint hprojection =>
    rw [hprojection]
    exact ⟨hevents ▸ h.readable, hevents ▸ h.positive, hevents ▸ h.replayed,
      hevents ▸ hcheckpoint ▸ h.boundary⟩
  | checkpointed hevents hcheckpoint hprojection =>
    have hc := h.checkpointed
    rw [hprojection]
    refine ⟨hevents ▸ hc.readable, hevents ▸ hc.positive, hevents ▸ hc.replayed,
      fun c hstored => ?_⟩
    rw [hevents]
    exact hc.boundary c (hcheckpoint.symm.trans hstored)
  | appended event hseq hread hstored happlied => exact h.appended hseq hread hstored happlied
  | imported himport hprojection _ =>
    rw [hprojection]
    exact h.imported himport
  | rebuilt himport hrebuilt =>
    have himported := h.imported himport
    exact himported.caughtUp (himported.rebuild_eq.symm.trans hrebuilt)

section Steps

variable [Chrono]

theorem step_replayable {p : ProfileState} {op : ProfileOp} (hop : p.Admissible op)
    (h : Replayable p.store p.projection) :
    Replayable (p.step op).store (p.step op).projection := by
  have hmoves : Moves True p (p.step op) :=
    step_moves hop fun _ _ _ _ _ _ => .inr (.inr trivial)
  exact hmoves.invariant (fun p => Replayable p.store p.projection)
    (fun _ _ => Moved.replayable) h

/-- The payload of a runtime event decodes. -/
def Decodes : ProfileOp → Prop
  | .recordRuntimeEvent event _ _ => event.payloadJson.isSome
  | _ => True

omit [Chrono] in
theorem Decodes.admissible {p : ProfileState} {op : ProfileOp} (hop : Decodes op) :
    p.Admissible op := by
  cases op with
  | recordRuntimeEvent event egressId faults => exact .inl (.inl hop)
  | _ => trivial

/-- **A rebuild is the fold of the log, in every run.**  Where the payload of every recorded
event decodes, rebuilding from the stored checkpoint in pages returns what folding `apply` over
all stored events returns; whichever operations, checkpoints and imports fail, and wherever the
profile is closed or crashes. -/
theorem rebuild_folds_log (profileId : String) (usage legacyUsage : UsageLedger)
    (ops : List ProfileOp) (hdecodes : ∀ op ∈ ops, Decodes op) :
    let p := run step (created profileId usage legacyUsage) ops
    ∃ q, rebuildProjectionFrom p.store = .ok q ∧ replayLog p.store = .ok q := by
  have hrun : Replayable (run step (created profileId usage legacyUsage) ops).store
      (run step (created profileId usage legacyUsage) ops).projection :=
    List.foldlRecOn (motive := fun p : ProfileState => Replayable p.store p.projection) ops step
      Replayable.empty fun p hp op hop => step_replayable (hdecodes op hop).admissible hp
  obtain ⟨q, hq, -⟩ := hrun.exists_replayLog
  exact ⟨q, hrun.rebuild_eq.trans hq, hq⟩

end Steps

section Examples

attribute [local instance] anyChrono

/-- A message, history from an import that then fails, a message that is refused, a restart,
and a turn of the runtime. -/
theorem rebuild_folds_log_import :
    let ops : List ProfileOp := [
      .submitUserMessage ⟨"one", "now"⟩ "hello" {},
      .checkpointProjection false,
      interruptedImport,
      .submitUserMessage ⟨"two", "now"⟩ "again" {},
      .reopen true,
      .recordRuntimeEvent (runtimeEvent "event" "response.admitted" (some (.object []))) 0 {}]
    let p := run step (created "default" {} {}) ops
    p.store.events.lastSequence = 3 ∧
      ∃ q, rebuildProjectionFrom p.store = .ok q ∧ replayLog p.store = .ok q :=
  ⟨by decide +kernel, rebuild_folds_log "default" {} {} _ (by simp [Decodes, interruptedImport,
    runtimeEvent])⟩

end Examples

end ProfileState
end PersonalAgent.Core
