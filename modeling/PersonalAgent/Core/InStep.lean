/-
# The live projection and its rebuild

Each operation of a profile commits to the store and then updates memory.  `InStep` says
that the two agree: the projection is the fold of all stored events, and so is a stored
checkpoint of it, up to its own sequence.  It makes `rebuildProjectionFrom` return the
live projection (`InStep.rebuild`), and the next sequence free (`InStep.free`).

An operation that appends one event keeps `InStep` whether or not it succeeds.  An import
does not: it appends history with its own numbering and rebuilds the projection at its
very end, so a failure after the first line of history leaves the projection behind the
store, and the next event takes a sequence that is taken
(`import_leaves_projection_behind`).  An import of a plan without history, or one that
nothing stops (`Unhindered`), keeps it.
-/

import PersonalAgent.Core.Moves

namespace PersonalAgent.Core

open Lib List AppProjection

open Agent Storage Migration

/-! ### Rebuilding from a checkpoint -/

/-- The log folded from the empty projection. -/
def replayLog (store : EventStore AppProjection) : Except CoreError AppProjection :=
  store.events.rows.foldlM applied {}

/-- A stored checkpoint is the fold of the events up to its sequence. -/
structure Boundary (rows : List EventEnvelope) (c : ProjectionCheckpoint AppProjection) :
    Prop where
  replayed : (rows.filter (·.monotonicSequence ≤ c.lastSequence)).foldlM applied {} =
    .ok c.projectionSnapshotBlob
  sequence : c.projectionSnapshotBlob.lastSequence = c.lastSequence

/-- **A rebuild from a checkpoint is the fold of the whole log**, if the checkpoint is the
fold of its part of it. -/
theorem rebuild_eq_replay {store : EventStore AppProjection}
    (hpositive : ∀ row ∈ store.events.rows, 0 < row.monotonicSequence)
    (hboundary : ∀ c, store.projectionCheckpoint = some c → Boundary store.events.rows c) :
    rebuildProjectionFrom store = replayLog store := by
  have hpages (p : AppProjection) (after : ℕ) :
      pagedFold (·.monotonicSequence) applied store.events.rows 512
        (store.events.rows.length + 1) p after =
      (store.events.rows.filter (after < ·.monotonicSequence)).foldlM applied p :=
    pagedFold_eq_foldlM store.events.sorted (by norm_num)
      (Nat.lt_succ_of_le (length_filter_le _ _))
  have hwhole : store.events.rows.filter (0 < ·.monotonicSequence) = store.events.rows :=
    filter_eq_self.mpr fun row hrow => decide_eq_true (hpositive row hrow)
  unfold rebuildProjectionFrom replayBase
  cases hc : store.projectionCheckpoint with
  | none =>
    dsimp only
    rw [hpages, hwhole, replayLog]
  | some c =>
    dsimp only
    split_ifs with hfits
    · -- the part below the checkpoint folds to it, the rest is what the pages read
      have hbase := (hboundary c hc).replayed
      have hsplit := filter_le_append_filter_lt store.events.sorted c.lastSequence
      dsimp only
      rw [hpages, replayLog]
      nth_rewrite 2 [← hsplit]
      rw [foldlM_append, hbase]
      rfl
    · dsimp only
      rw [hpages, hwhole, replayLog]

/-! ### Store and projection in step -/

/-- The projection and its checkpoint are folds of the stored events. -/
structure InStep (store : EventStore AppProjection) (projection : AppProjection) : Prop where
  replayed : store.events.rows.foldlM applied {} = .ok projection
  boundary : ∀ c, store.projectionCheckpoint = some c → Boundary store.events.rows c

namespace InStep

variable {store : EventStore AppProjection} {projection : AppProjection}

theorem empty : InStep {} {} := ⟨rfl, fun _ h => nomatch h⟩

theorem lastSequence (h : InStep store projection) :
    projection.lastSequence = store.events.lastSequence :=
  lastSequence_of_replay h.replayed

/-- The next sequence of the profile is not taken. -/
theorem free (h : InStep store projection) {row : EventEnvelope} (hrow : row ∈ store.events.rows) :
    row.monotonicSequence ≠ projection.lastSequence + 1 := by
  have := EventTable.le_lastSequence hrow
  rw [h.lastSequence]
  omega

variable {c : ProjectionCheckpoint AppProjection} {rows added : List EventEnvelope}
  {store' : EventStore AppProjection}

/-- A checkpoint is not ahead of the log. -/
theorem boundary_le (h : Boundary store.events.rows c) :
    c.lastSequence ≤ store.events.lastSequence := by
  have hlast := lastSequence_of_replay h.replayed
  rw [h.sequence] at hlast
  rw [hlast]
  cases hc : (store.events.rows.filter (·.monotonicSequence ≤ c.lastSequence)).getLast? with
  | none => exact Nat.zero_le _
  | some row =>
    exact EventTable.le_lastSequence (mem_of_mem_filter (mem_of_getLast? hc))

/-- No event has sequence zero: it would not apply to the empty projection. -/
theorem positive (h : InStep store projection) {row : EventEnvelope}
    (hrow : row ∈ store.events.rows) : 0 < row.monotonicSequence := by
  have hreplay := h.replayed
  have hsorted := store.events.sorted
  cases hrows : store.events.rows with
  | nil => exact absurd (hrows ▸ hrow) not_mem_nil
  | cons first rows =>
    rw [hrows] at hreplay hsorted hrow
    obtain ⟨q, hq, -⟩ := bind_ok_iff.mp hreplay
    have hfirst : 0 < first.monotonicSequence := (lastSequence_of_applied hq).1
    rcases mem_cons.mp hrow with rfl | hrow
    · exact hfirst
    · exact hfirst.trans ((pairwise_cons.mp hsorted).1 row hrow)

/-- **Rebuilding returns the live projection**, from the checkpoint or without it. -/
theorem rebuild (h : InStep store projection) : rebuildProjectionFrom store = .ok projection :=
  (rebuild_eq_replay (fun _ => h.positive) h.boundary).trans h.replayed

/-- Rows added at the end leave the checkpoint what it was. -/
theorem boundary_append (h : Boundary rows c)
    (hadded : ∀ event ∈ added, c.lastSequence < event.monotonicSequence) :
    Boundary (rows ++ added) c := by
  refine ⟨?_, h.sequence⟩
  have hnil : added.filter (·.monotonicSequence ≤ c.lastSequence) = [] := by
    refine filter_eq_nil_iff.mpr fun event hevent => ?_
    have := hadded event hevent
    simp only [decide_eq_true_eq]
    omega
  rw [filter_append, hnil, append_nil]
  exact h.replayed

theorem exists_replay {p : AppProjection}
    (hsorted : rows.Pairwise (·.monotonicSequence < ·.monotonicSequence))
    (hlow : ∀ event ∈ rows, p.lastSequence < event.monotonicSequence)
    (hread : ∀ event ∈ rows, AppProjection.Readable event) :
    ∃ q, rows.foldlM applied p = .ok q := by
  induction rows generalizing p with
  | nil => exact ⟨p, rfl⟩
  | cons event rows ih =>
    obtain ⟨hevent, hrows⟩ := pairwise_cons.mp hsorted
    obtain ⟨p', -, hp'⟩ := applied_of_readable (hlow event mem_cons_self)
      (hread event mem_cons_self)
    have hlast := (lastSequence_of_applied hp').2
    obtain ⟨q, hq⟩ := ih hrows (fun e he => hlast ▸ hevent e he)
      fun e he => hread e (mem_cons_of_mem _ he)
    exact ⟨q, bind_ok_iff.mpr ⟨p', hp', hq⟩⟩

/-- **Adding readable rows above the log.**  The store stays replayable, and what the
replay gives is in step with it. -/
theorem extend (h : InStep store projection)
    (hrows : store'.events.rows = store.events.rows ++ added)
    (hlow : ∀ event ∈ added, store.events.lastSequence < event.monotonicSequence)
    (hread : ∀ event ∈ added, AppProjection.Readable event)
    (hcheckpoint : store'.projectionCheckpoint = store.projectionCheckpoint) :
    ∃ q, added.foldlM applied projection = .ok q ∧ InStep store' q := by
  have hsorted := store'.events.sorted
  rw [hrows] at hsorted
  have hadded := (pairwise_append.mp hsorted).2.1
  obtain ⟨q, hq⟩ := exists_replay hadded (fun e he => h.lastSequence ▸ hlow e he) hread
  refine ⟨q, hq, ?_, fun c hc => ?_⟩
  · rw [hrows, foldlM_append, h.replayed]
    exact hq
  · rw [hcheckpoint] at hc
    rw [hrows]
    have hle := boundary_le (h.boundary c hc)
    exact boundary_append (h.boundary c hc) fun e he => hle.trans_lt (hlow e he)

/-- **After an import the store is replayable**, and the live projection is still its
replay if no event was added. -/
theorem imported (h : InStep store projection) (himport : store.Imported store') :
    (∃ q, InStep store' q) ∧
      (store'.events.rows.length = store.events.rows.length → InStep store' projection) := by
  obtain ⟨added, hrows, hadded⟩ := himport.rows
  have hread (event : EventEnvelope) (hevent : event ∈ added) : AppProjection.Readable event := by
    refine .inr ?_
    rw [(hadded event hevent).1]
    decide
  obtain ⟨q, hq, hstep⟩ := h.extend hrows (fun e he => (hadded e he).2) hread
    himport.projectionCheckpoint
  refine ⟨⟨q, hstep⟩, fun hlen => ?_⟩
  rw [hrows, length_append] at hlen
  obtain rfl : added = [] := length_eq_zero_iff.mp (by omega)
  obtain rfl : projection = q := pure_ok_iff.mp hq
  exact hstep

theorem checkpointed (h : InStep store projection) :
    InStep { store with projectionCheckpoint := some ⟨projection, projection.lastSequence⟩ }
      projection := by
  refine ⟨h.replayed, fun c hc => ?_⟩
  cases hc
  refine ⟨?_, rfl⟩
  have hall : store.events.rows.filter (·.monotonicSequence ≤ projection.lastSequence) =
      store.events.rows := by
    refine filter_eq_self.mpr fun row hrow => decide_eq_true ?_
    exact h.lastSequence ▸ EventTable.le_lastSequence hrow
  dsimp only
  rw [hall]
  exact h.replayed

end InStep

/-! ### Runs -/

namespace ProfileState

/-- **Every move keeps projection and store in step**, if no import leaves the projection
behind. -/
theorem Moved.inStep {p q : ProfileState} (hmove : Moved False p q)
    (h : InStep p.store p.projection) : InStep q.store q.projection := by
  cases hmove with
  | kept hevents hcheckpoint hprojection =>
    exact ⟨hevents ▸ hprojection ▸ h.replayed, hevents ▸ hcheckpoint ▸ h.boundary⟩
  | checkpointed hevents hcheckpoint hprojection =>
    have hc := h.checkpointed
    refine ⟨hevents ▸ hprojection ▸ h.replayed, fun c hstored => ?_⟩
    rw [hevents]
    exact hc.boundary c (hcheckpoint.symm.trans hstored)
  | appended event hseq hread hstored happlied =>
    have hlow : p.store.events.lastSequence < event.monotonicSequence := by
      rw [hseq, h.lastSequence]
      omega
    obtain ⟨q', hq', hstep⟩ := h.extend (EventTable.rows_of_insert hlow hstored.inserted)
      (fun e he => mem_singleton.mp he ▸ hlow) (fun e he => mem_singleton.mp he ▸ hread)
      hstored.projectionCheckpoint
    have hone : [event].foldlM applied p.projection = .ok q.projection :=
      (bind_pure _).trans happlied
    rw [Except.ok.inj (hone.symm.trans hq')]
    exact hstep
  | imported himport hprojection hlag =>
    rw [hprojection]
    exact (h.imported himport).2 (hlag.resolve_right not_false)
  | rebuilt himport hrebuilt =>
    obtain ⟨⟨q', hq'⟩, -⟩ := h.imported himport
    rw [Except.ok.inj (hrebuilt.symm.trans hq'.rebuild)]
    exact hq'

theorem Moves.inStep {p q : ProfileState} (hmoves : Moves False p q)
    (h : InStep p.store p.projection) : InStep q.store q.projection :=
  hmoves.invariant (fun p => InStep p.store p.projection) (fun _ _ => Moved.inStep) h

section Steps

variable [Chrono]

/-- An import that fails has added no event, and a runtime event that cannot be read is
stopped by the ledger or by the store. -/
def Careful (p : ProfileState) : ProfileOp → Prop
  | .recordRuntimeEvent event _ _ =>
    AppProjection.Readable event ∨ event.eventId ∉ p.usage.seenEventIds ∨
      ∃ row ∈ p.store.events.rows, row.eventId = event.eventId
  | .importLegacy inputs consent runId sourceFingerprint faults =>
    (p.importLegacy inputs consent runId sourceFingerprint faults).2.isOk ∨
      (p.importLegacy inputs consent runId sourceFingerprint faults).1.store.events.rows.length =
        p.store.events.rows.length
  | _ => True

omit [Chrono] in
theorem Careful.admissible {p : ProfileState} {op : ProfileOp} (hop : p.Careful op) :
    p.Admissible op := by
  cases op with
  | recordRuntimeEvent event egressId faults => exact hop
  | _ => trivial

/-- **One careful operation keeps projection and store in step.** -/
theorem step_inStep {p : ProfileState} {op : ProfileOp} (hop : p.Careful op)
    (h : InStep p.store p.projection) : InStep (p.step op).store (p.step op).projection := by
  refine Moves.inStep (step_moves hop.admissible ?_) h
  rintro inputs consent runId sourceFingerprint faults rfl
  exact hop.imp_right .inl

/-- Nothing stops the import: every input can be prepared, no access of the database fails, and
the log has room for the lines of history, under ids that no stored event has. -/
structure Unhindered (p : ProfileState) (inputs : Prepared) (faults : ImportFaults) : Prop where
  prepared : ∀ input ∈ inputs, input.isOk = true
  fits : ImportRun.Fits ⟨p.store, faults.sink⟩ (recordsOf inputs)
  report : faults.report = false
  recovery : faults.recovery = false

/-- Read off the operation and the profile before it: an import has no consent, or no history,
or nothing that stops it; and a runtime event that cannot be read is stopped by the ledger or by
the store. -/
def Provided (p : ProfileState) : ProfileOp → Prop
  | .recordRuntimeEvent event _ _ =>
    AppProjection.Readable event ∨ event.eventId ∉ p.usage.seenEventIds ∨
      ∃ row ∈ p.store.events.rows, row.eventId = event.eventId
  | .importLegacy inputs consent _ _ faults =>
    consent.copyPersonalData = false ∨
      (∀ record ∈ recordsOf inputs, record.kind ≠ "history-event") ∨ p.Unhindered inputs faults
  | _ => True

omit [Chrono] in
/-- An import that is provided for succeeds or adds no event. -/
theorem Provided.careful {p : ProfileState} {op : ProfileOp} (hop : p.Provided op)
    (h : InStep p.store p.projection) : p.Careful op := by
  cases op with
  | recordRuntimeEvent event egressId faults => exact hop
  | importLegacy inputs consent runId sourceFingerprint faults =>
    have himport := ImportRun.migrate_imported ⟨p.store, faults.sink⟩ inputs consent runId
      sourceFingerprint
    unfold Careful importLegacy
    rcases hop with hconsent | hhistory | hfree
    · simp [migrate, hconsent]
    · have hevents := @ImportRun.migrate_events _ ⟨p.store, faults.sink⟩ inputs consent runId
        sourceFingerprint hhistory
      right
      generalize migrate ImportRun.sink ⟨p.store, faults.sink⟩ inputs consent runId
        sourceFingerprint = r at hevents ⊢
      obtain ⟨run, result⟩ := r
      have hlength : run.store.events.rows.length = p.store.events.rows.length :=
        congrArg (·.rows.length) hevents
      cases result with
      | error e => cases e <;> exact hlength
      | ok report =>
        dsimp only
        split_ifs
        · exact hlength
        · exact hlength
        · cases rebuildProjectionFrom run.store <;> exact hlength
    · cases hconsent : consent.copyPersonalData with
      | false => simp [migrate, hconsent]
      | true =>
        obtain ⟨run, report, hrun⟩ := hfree.fits.migrate runId sourceFingerprint hfree.prepared
          hconsent
        rw [hrun] at himport
        obtain ⟨⟨q, hq⟩, -⟩ := h.imported himport
        left
        simp [hrun, hfree.report, hfree.recovery, hq.rebuild, Except.isOk, Except.toBool]
  | _ => trivial

/-- **The live projection is the rebuilt one.**  In every run on a new profile whose operations
are provided for, whichever of them fail, the projection equals what `rebuildProjectionFrom`
returns, its sequence is the highest stored one, and the next one is free. -/
theorem projection_in_step (profileId : String) (usage legacyUsage : UsageLedger)
    (ops : List ProfileOp)
    (h : Along step Provided (created profileId usage legacyUsage) ops) :
    let p := run step (created profileId usage legacyUsage) ops
    rebuildProjectionFrom p.store = .ok p.projection ∧
      p.projection.lastSequence = p.store.events.lastSequence ∧
      ∀ row ∈ p.store.events.rows, row.monotonicSequence ≠ p.projection.lastSequence + 1 := by
  have hrun := h.invariant (fun p : ProfileState => InStep p.store p.projection)
    (fun p op hop hp => step_inStep (hop.careful hp) hp) InStep.empty
  exact ⟨hrun.rebuild, hrun.lastSequence, fun row => hrun.free⟩

end Steps

section Examples

/-- A clock reader for closed runs, in which no time is read. -/
@[reducible] def noChrono : Chrono := ⟨fun _ => none⟩

attribute [local instance] noChrono

/-- One line of legacy history, and then an input that cannot be read. -/
def interruptedImport : ProfileOp :=
  .importLegacy [.ok { records :=
    [{ id := "line", kind := "history-event", payload := some .null }] },
    .error .io] { copyPersonalData := true } "run" "source" {}

/-- **A failed import leaves the projection behind.**  The line of history is stored
under sequence 1 while the projection stays at 0, so rebuilding does not return it, and
the next message is refused because its sequence is taken. -/
theorem import_leaves_projection_behind :
    let p := step (created "default" {} {}) interruptedImport
    rebuildProjectionFrom p.store ≠ .ok p.projection ∧
      p.projection.lastSequence = 0 ∧ p.store.events.lastSequence = 1 ∧
      (p.submitUserMessage ⟨"id", "now"⟩ "hello" {}).2 = .error (.storage .database) := by
  decide

/-- A message, an import that finishes, and a message that is lost to a full disk. -/
theorem projection_in_step_import :
    let ops : List ProfileOp := [
      .submitUserMessage ⟨"one", "now"⟩ "hello" {},
      .importLegacy
        [.ok { records := [{ id := "line", kind := "history-event", payload := some .null }] }]
        { copyPersonalData := true } "run" "source" {},
      .submitUserMessage ⟨"two", "now"⟩ "again" { write := true }]
    let p := run step (created "default" {} {}) ops
    p.projection.lastSequence = 2 ∧
      rebuildProjectionFrom p.store = .ok p.projection ∧
      p.projection.lastSequence = p.store.events.lastSequence ∧
      ∀ row ∈ p.store.events.rows, row.monotonicSequence ≠ p.projection.lastSequence + 1 :=
  ⟨by decide, projection_in_step "default" {} {} _ ⟨trivial, .inr (.inr ⟨by decide,
    ⟨by decide, by decide, by decide⟩, rfl, rfl⟩), trivial, trivial⟩⟩

end Examples

end ProfileState
end PersonalAgent.Core
