/-
# What the operations do to log and projection

The operations of a profile as one step function, and what a step can do to the two
things a recovery compares: the stored events and the live projection.  `Moved` lists it:
nothing, a checkpoint of the projection, one event that is stored and counted, or history
that an import adds, with the projection rebuilt after it or not.

Every step is a sequence of such moves (`step_moves`), whatever fails in the database, as
long as no runtime event gets into the log that the projection cannot read
(`Admissible`).  The invariants of the projection are each proved move by move
(`Moves.invariant`).
-/

import PersonalAgent.Core.ProfileState
import PersonalAgent.Lib.Run

namespace PersonalAgent.Core

open Lib

open Agent Storage Migration

/-- An operation on a profile, with the ids, the times and the failures it meets. -/
inductive ProfileOp where
  | submitUserMessage (stamp : Stamp) (text : String) (faults : Faults)
  | recordRuntimeHealth (stamp : Stamp) (health : RuntimeHealth) (faults : Faults)
  | recordLifecycleStart (stamp : Stamp) (previousUncleanRun : Bool) (faults : Faults)
  | recordSupervisorEvent (stamp : Stamp) (snapshot : SupervisorSnapshot) (eventType : String)
      (payload : Value) (faults : Faults)
  | appendSupervisorEvent (stamp : Stamp) (snapshot : SupervisorSnapshot) (eventType : String)
      (payload : Value) (faults : Faults)
  | saveSupervisorSnapshot (snapshot : SupervisorSnapshot) (fault : Bool)
  | saveSupervisorCheckpointUpdates (updates : List SupervisorCheckpointUpdate) (fault : Bool)
  | recordArtifactWorkspaceEvent (stamp : Stamp) (eventType : String) (payload : Value)
      (faults : Faults)
  | recordRuntimeEvent (event : EventEnvelope) (egressId : Uuid) (faults : Faults)
  | recordEgress (stamp : Stamp) (record : EgressRecord) (faults : Faults)
  | importLegacy (inputs : Prepared) (consent : MigrationConsent) (runId sourceFingerprint : String)
      (faults : ImportFaults)
  | checkpointProjection (fault : Bool)
  | reopen (saved : Bool)

namespace ProfileState

/-- The profile after one operation, whatever the operation returned.  A profile that is
closed may store its projection as it is dropped; a crash does not.  An open that fails
leaves the database as it was. -/
def step [Chrono] (p : ProfileState) : ProfileOp → ProfileState
  | .submitUserMessage stamp text faults => (p.submitUserMessage stamp text faults).1
  | .recordRuntimeHealth stamp health faults => (p.recordRuntimeHealth stamp health faults).1
  | .recordLifecycleStart stamp unclean faults => (p.recordLifecycleStart stamp unclean faults).1
  | .recordSupervisorEvent stamp snapshot eventType payload faults =>
    (p.recordSupervisorEvent stamp snapshot eventType payload faults).1
  | .appendSupervisorEvent stamp snapshot eventType payload faults =>
    (p.appendSupervisorEvent stamp snapshot eventType payload faults).1
  | .saveSupervisorSnapshot snapshot fault => (p.saveSupervisorSnapshot snapshot fault).1
  | .saveSupervisorCheckpointUpdates updates fault =>
    (p.saveSupervisorCheckpointUpdates updates fault).1
  | .recordArtifactWorkspaceEvent stamp eventType payload faults =>
    (p.recordArtifactWorkspaceEvent stamp eventType payload faults).1
  | .recordRuntimeEvent event egressId faults => (p.recordRuntimeEvent event egressId faults).1
  | .recordEgress stamp record faults => (p.recordEgress stamp record faults).1
  | .importLegacy inputs consent runId sourceFingerprint faults =>
    (p.importLegacy inputs consent runId sourceFingerprint faults).1
  | .checkpointProjection fault => (p.checkpointProjection fault).1
  | .reopen saved =>
    let p := if saved then (p.checkpointProjection false).1 else p
    match opened p.store p.profileId p.legacyUsage with
    | .ok p => p
    | .error _ => p

/-- A profile on a new database; the accounting may start from anything. -/
def created (profileId : String) (usage legacyUsage : UsageLedger) : ProfileState :=
  { profileId, usage, legacyUsage }

/-- What one access of an operation does to the log and the projection.  History that is
imported without a rebuild leaves the projection behind; where `lag` does not hold there
is none. -/
inductive Moved (lag : Prop) (p q : ProfileState) : Prop where
  | kept (hevents : q.store.events = p.store.events)
      (hcheckpoint : q.store.projectionCheckpoint = p.store.projectionCheckpoint)
      (hprojection : q.projection = p.projection)
  | checkpointed (hevents : q.store.events = p.store.events)
      (hcheckpoint : q.store.projectionCheckpoint =
        some ⟨p.projection, p.projection.lastSequence⟩)
      (hprojection : q.projection = p.projection)
  | appended (event : EventEnvelope)
      (hseq : event.monotonicSequence = p.projection.lastSequence + 1)
      (hread : AppProjection.Readable event) (hstored : p.store.Appended event q.store)
      (happlied : p.projection.applied event = .ok q.projection)
  | imported (himport : p.store.Imported q.store) (hprojection : q.projection = p.projection)
      (hlag : q.store.events.rows.length = p.store.events.rows.length ∨ lag)
  | rebuilt (himport : p.store.Imported q.store)
      (hrebuilt : rebuildProjectionFrom q.store = .ok q.projection)

abbrev Moves (lag : Prop) : ProfileState → ProfileState → Prop := Relation.ReflTransGen (Moved lag)

variable {q : ProfileState} {event : EventEnvelope}

/-- **What every move keeps, every step keeps.** -/
theorem Moves.invariant {lag : Prop} (inv : ProfileState → Prop) {p : ProfileState}
    (hmove : ∀ p q, Moved lag p q → inv p → inv q) (h : Moves lag p q) (hp : inv p) : inv q := by
  induction h with
  | refl => exact hp
  | tail _ hlast ih => exact hmove _ _ hlast ih

variable {lag : Prop} {p : ProfileState}

theorem Moves.of_kept (hevents : q.store.events = p.store.events)
    (hcheckpoint : q.store.projectionCheckpoint = p.store.projectionCheckpoint)
    (hprojection : q.projection = p.projection) : Moves lag p q :=
  .single (.kept hevents hcheckpoint hprojection)

theorem checkpointProjection_moves (fault : Bool) :
    Moves lag p (p.checkpointProjection fault).1 := by
  cases fault with
  | true => exact .refl
  | false => exact .single (.checkpointed rfl rfl rfl)

/-- **A readable event is stored and counted, or neither**, whether the transaction fails,
the checkpoint after it fails, or nothing does. -/
theorem persist_moves (hseq : event.monotonicSequence = p.projection.lastSequence + 1)
    (hread : AppProjection.Readable event) {stored : Except StorageError (EventStore AppProjection)}
    (hstored : ∀ store, stored = .ok store → p.store.Appended event store) (fault : Bool) :
    Moves lag p (p.persist event stored fault).1 := by
  cases stored with
  | error e => exact .refl
  | ok store =>
    obtain ⟨q, happly, happlied⟩ := AppProjection.applied_of_readable
      (p := p.projection) (by rw [hseq]; exact Nat.lt_succ_self _) hread
    have hone : Moves lag p { p with store := store, projection := q } :=
      .single (.appended event hseq hread (hstored store rfl) happlied)
    have hchecked := hone.trans
      (checkpointProjection_moves (p := { p with store := store, projection := q }) fault)
    change Moves lag p ({ p with store }.applyPersistedEvent event fault).1
    unfold applyPersistedEvent
    dsimp only
    rw [happly]
    dsimp only
    split_ifs
    · split <;> rename_i hc <;> rw [hc] at hchecked <;> exact hchecked
    · exact hone

theorem persist_append_moves (stamp : Stamp) (origin eventType : String) (payload : Value)
    (faults : Faults) :
    let event := p.nextEvent stamp origin eventType payload
    Moves lag p (p.persist event (p.store.append event faults.write) faults.checkpoint).1 :=
  persist_moves rfl (.inl rfl) (fun _ hs => (EventStore.append_ok hs).1) _

theorem failedWrite_moves (error : StorageError) (fault : Bool) :
    Moves lag p (p.failedWrite error fault).1 := by
  unfold failedWrite
  split
  · exact .refl
  · exact .of_kept rfl rfl rfl

theorem appendSupervisorEvent_fst (stamp : Stamp) (snapshot : SupervisorSnapshot)
    (eventType : String) (payload : Value) (faults : Faults) :
    (p.appendSupervisorEvent stamp snapshot eventType payload faults).1 =
      let event := p.supervisorEvent stamp snapshot eventType payload
      (p.persist event (p.store.append event faults.write) faults.checkpoint).1 := by
  unfold appendSupervisorEvent
  dsimp only
  split <;> rename_i hp <;> rw [hp]

/-- An accounting event: stored with its rows, or the accounting is rebuilt. -/
theorem appendUsageEvent_moves (hseq : event.monotonicSequence = p.projection.lastSequence + 1)
    (facts : List UsageFact) (egress : List EgressRecord) (faults : Faults)
    (hread : ∀ store, p.store.appendUsageEvent event facts egress faults.write = .ok store →
      AppProjection.Readable event) :
    let q := match p.store.appendUsageEvent event facts egress faults.write with
      | .error e => p.failedWrite e faults.recovery
      | .ok store => { p with store }.applyPersistedEvent event faults.checkpoint
    Moves lag p q.1 := by
  cases hs : p.store.appendUsageEvent event facts egress faults.write with
  | error e => exact failedWrite_moves e faults.recovery
  | ok store =>
    have hstored (store' : EventStore AppProjection)
        (hstore' : (.ok store : Except StorageError (EventStore AppProjection)) = .ok store') :
        p.store.Appended event store' :=
      Except.ok.inj hstore' ▸ (EventStore.appendUsageEvent_ok hs).1
    exact persist_moves hseq (hread store hs) hstored faults.checkpoint

theorem Moves.of_usage {usage : UsageLedger} (h : Moves lag { p with usage } q) :
    Moves lag p q := by
  have husage : Moves lag p { p with usage } := .of_kept rfl rfl rfl
  exact husage.trans h

theorem recordEgress_moves (stamp : Stamp) (record : EgressRecord) (faults : Faults) :
    Moves lag p (p.recordEgress stamp record faults).1 := by
  unfold recordEgress
  dsimp only
  split
  · exact .refl
  · split
    · exact .refl
    · rename_i usage _
      exact .of_usage (appendUsageEvent_moves (p := { p with usage }) rfl _ _ faults
        fun _ _ => .inl rfl)

/-- A runtime event that cannot be read is stopped by the ledger or by the store: the
ledger passes an id it has seen without reading on, and the store refuses an id it has. -/
def Admissible (p : ProfileState) : ProfileOp → Prop
  | .recordRuntimeEvent event _ _ =>
    AppProjection.Readable event ∨ event.eventId ∉ p.usage.seenEventIds ∨
      ∃ row ∈ p.store.events.rows, row.eventId = event.eventId
  | _ => True

theorem recordRuntimeEvent_moves [Chrono] {egressId : Uuid} {faults : Faults}
    (h : p.Admissible (.recordRuntimeEvent event egressId faults)) :
    Moves lag p (p.recordRuntimeEvent event egressId faults).1 := by
  unfold recordRuntimeEvent
  dsimp only
  split
  · exact .of_kept rfl rfl rfl
  · rename_i usage mutation hingest
    refine .of_usage (appendUsageEvent_moves (p := { p with usage := usage.clearDetailRecords })
      rfl _ _ faults fun store hstore => ?_)
    rcases h with hread | hseen | ⟨row, hrow, hid⟩
    · exact hread
    · obtain ⟨v, hv⟩ := UsageLedger.payload_of_ingest hingest hseen
      exact .inl (Option.isSome_iff_exists.mpr ⟨v, hv⟩)
    · have hinsert := (EventStore.appendUsageEvent_ok hstore).1.inserted
      unfold EventTable.insert at hinsert
      split_ifs at hinsert with hfree
      exact absurd hid (hfree row hrow).2

theorem saveSupervisorCheckpointUpdates_frame (p : ProfileState)
    (updates : List SupervisorCheckpointUpdate) (fault : Bool) :
    (p.saveSupervisorCheckpointUpdates updates fault).1.store.events = p.store.events ∧
      (p.saveSupervisorCheckpointUpdates updates fault).1.store.projectionCheckpoint =
        p.store.projectionCheckpoint ∧
      (p.saveSupervisorCheckpointUpdates updates fault).1.projection = p.projection := by
  unfold saveSupervisorCheckpointUpdates
  split
  · exact ⟨rfl, rfl, rfl⟩
  · rename_i store hstore
    unfold EventStore.saveSupervisorCheckpoints at hstore
    split_ifs at hstore
    · cases hstore
      exact ⟨rfl, rfl, rfl⟩
    · obtain ⟨supervisors, -, hpure⟩ := bind_ok_iff.mp (commit_ok hstore)
      cases pure_ok_iff.mp hpure
      exact ⟨rfl, rfl, rfl⟩

theorem opened_ok {store : EventStore AppProjection} {profileId : String}
    {legacyUsage : UsageLedger} (h : opened store profileId legacyUsage = .ok q) :
    q.store = store ∧ rebuildProjectionFrom store = .ok q.projection := by
  obtain ⟨projection, hrebuild, h⟩ := bind_ok_iff.mp h
  obtain ⟨usage, -, h⟩ := bind_ok_iff.mp h
  cases pure_ok_iff.mp h
  exact ⟨rfl, hrebuild⟩

theorem reopened_moves :
    let q := match opened p.store p.profileId p.legacyUsage with
      | .ok q => q
      | .error _ => p
    Moves lag p q := by
  cases hopen : opened p.store p.profileId p.legacyUsage with
  | error e => exact .refl
  | ok q =>
    obtain ⟨hstore, hrebuild⟩ := opened_ok hopen
    refine .single (.rebuilt ?_ ?_)
    · rw [hstore]
      exact .refl _
    · rw [hstore]
      exact hrebuild

/-- An import adds history; the projection is rebuilt when it succeeds. -/
theorem importLegacy_moves (inputs : Prepared) (consent : MigrationConsent)
    (runId sourceFingerprint : String) (faults : ImportFaults)
    (hlag : (p.importLegacy inputs consent runId sourceFingerprint faults).2.isOk ∨
      (p.importLegacy inputs consent runId sourceFingerprint faults).1.store.events.rows.length =
        p.store.events.rows.length ∨ lag) :
    Moves lag p (p.importLegacy inputs consent runId sourceFingerprint faults).1 := by
  have himport := ImportRun.migrate_imported ⟨p.store, faults.sink⟩ inputs consent runId
    sourceFingerprint
  unfold importLegacy at hlag ⊢
  dsimp only at hlag ⊢
  generalize migrate ImportRun.sink ⟨p.store, faults.sink⟩ inputs consent runId
    sourceFingerprint = r at hlag himport ⊢
  obtain ⟨run, result⟩ := r
  have hfailed (e : CoreError)
      (hc : (Except.error e : Except CoreError MigrationReport).isOk = true ∨
        run.store.events.rows.length = p.store.events.rows.length ∨ lag) :
      Moves lag p { p with store := run.store } :=
    .single (.imported himport rfl (hc.resolve_left (by simp [Except.isOk, Except.toBool])))
  cases result with
  | error e => cases e <;> exact hfailed _ hlag
  | ok report =>
    dsimp only at hlag ⊢
    split_ifs at hlag ⊢ with hreport hrecovery
    · exact hfailed _ hlag
    · exact hfailed _ hlag
    · cases hrebuild : rebuildProjectionFrom run.store with
      | error e =>
        rw [hrebuild] at hlag
        exact hfailed _ hlag
      | ok projection => exact .single (.rebuilt himport hrebuild)

/-- **Every admissible operation is a sequence of moves**; those of an import that fails
are without `lag` only if it has added no event. -/
theorem step_moves [Chrono] {op : ProfileOp} (hop : p.Admissible op)
    (hlag : ∀ inputs consent runId sourceFingerprint faults,
      op = .importLegacy inputs consent runId sourceFingerprint faults →
      (p.importLegacy inputs consent runId sourceFingerprint faults).2.isOk ∨
      (p.importLegacy inputs consent runId sourceFingerprint faults).1.store.events.rows.length =
        p.store.events.rows.length ∨ lag) :
    Moves lag p (p.step op) := by
  cases op with
  | submitUserMessage stamp text faults =>
    change Moves lag p (p.submitUserMessage stamp text faults).1
    unfold submitUserMessage
    dsimp only
    split_ifs
    · exact .refl
    · exact persist_append_moves stamp _ _ _ faults
  | recordRuntimeHealth stamp health faults => exact persist_append_moves stamp _ _ _ faults
  | recordLifecycleStart stamp unclean faults => exact persist_append_moves stamp _ _ _ faults
  | recordSupervisorEvent stamp snapshot eventType payload faults =>
    exact persist_moves rfl (.inl rfl) (fun _ => EventStore.saveSupervisorSnapshotAndEvent_ok) _
  | appendSupervisorEvent stamp snapshot eventType payload faults =>
    rw [step, appendSupervisorEvent_fst]
    exact persist_moves rfl (.inl rfl) (fun _ hs => (EventStore.append_ok hs).1) _
  | saveSupervisorSnapshot snapshot fault => cases fault <;> exact .of_kept rfl rfl rfl
  | saveSupervisorCheckpointUpdates updates fault =>
    obtain ⟨hevents, hcheckpoint, hprojection⟩ :=
      p.saveSupervisorCheckpointUpdates_frame updates fault
    exact .of_kept hevents hcheckpoint hprojection
  | recordArtifactWorkspaceEvent stamp eventType payload faults =>
    exact persist_append_moves stamp _ _ _ faults
  | recordRuntimeEvent event egressId faults => exact recordRuntimeEvent_moves hop
  | recordEgress stamp record faults => exact recordEgress_moves stamp record faults
  | importLegacy inputs consent runId sourceFingerprint faults =>
    exact importLegacy_moves inputs consent runId sourceFingerprint faults (hlag _ _ _ _ _ rfl)
  | checkpointProjection fault => exact checkpointProjection_moves fault
  | reopen saved =>
    have hsaved : Moves lag p (if saved then (p.checkpointProjection false).1 else p) := by
      split_ifs
      · exact checkpointProjection_moves false
      · exact .refl
    exact hsaved.trans reopened_moves

end ProfileState
end PersonalAgent.Core
