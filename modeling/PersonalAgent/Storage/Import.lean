/-
# The store as a migration sink

`MigrationSink for EventStore` and `materialize_migration_record`
(`crates/storage/src/lib.rs`, lines 1880 to 2010).  A record is stored in one transaction
together with what it materializes to.  A history event becomes a row of `events`, with
the next free sequence; the other kinds write tables that no other part of the model
reads, so only their id is kept.

Each call may meet a failing database; `ImportRun.faults` says which ones do, in the
order of the calls.
-/

import PersonalAgent.Migration.Migrate
import PersonalAgent.Storage.EventStore

namespace PersonalAgent.Storage

open Lib

open Migration

variable {P : Type}

/-- The event an imported line of history becomes. -/
def historyEvent (record : PreparedRecord) (sequence : ℕ) : EventEnvelope where
  schemaVersion := eventSchemaVersion
  eventId := record.id
  wallClockTimestamp := record.sourceModifiedAt.getD "1970-01-01T00:00:00+00:00"
  monotonicSequence := sequence
  origin := "legacy-migration"
  profileId := "default"
  sessionId := none
  goalId := none
  taskId := none
  agentId := none
  type := "conversation.legacy-imported"
  payloadJson := record.payload

namespace EventStore

def materializeMigrationRecord (s : EventStore P) (record : PreparedRecord) :
    Except StorageError (EventStore P) :=
  if record.kind = "history-event" then
    let sequence := s.events.lastSequence + 1
    if inRange sequence then do
      let events ← s.events.insert (historyEvent record sequence)
      return { s with events }
    else .error (.sequenceOutOfRange (2 ^ 64 - 1))
  else .ok s

/-- The transaction of `store`: the id of the record is a primary key. -/
def storeRecord (s : EventStore P) (record : PreparedRecord) :
    Except StorageError (EventStore P) :=
  if record.id ∈ s.migrationItems then .error .database
  else
    let migrationItems := insert record.id s.migrationItems
    materializeMigrationRecord { s with migrationItems } record

/-- What an import may have added: lines of history, after all other events. -/
structure Imported (s s' : EventStore P) : Prop where
  rows : ∃ added : List EventEnvelope, s'.events.rows = s.events.rows ++ added ∧
    ∀ event ∈ added, event.type = "conversation.legacy-imported" ∧
      s.events.lastSequence < event.monotonicSequence
  projectionCheckpoint : s'.projectionCheckpoint = s.projectionCheckpoint

theorem Imported.refl (s : EventStore P) : Imported s s :=
  ⟨⟨[], (List.append_nil _).symm, fun _ h => nomatch h⟩, rfl⟩

theorem Imported.trans {s t u : EventStore P} (h₁ : Imported s t) (h₂ : Imported t u) :
    Imported s u := by
  obtain ⟨as, hst, has⟩ := h₁.rows
  obtain ⟨bs, htu, hbs⟩ := h₂.rows
  refine ⟨⟨as ++ bs, ?_, fun event h => ?_⟩, ?_⟩
  · rw [htu, hst, List.append_assoc]
  · rcases List.mem_append.mp h with h | h
    · exact has event h
    · have hle := EventTable.lastSequence_le_of_rows hst
      exact ⟨(hbs event h).1, hle.trans_lt (hbs event h).2⟩
  · rw [h₂.projectionCheckpoint, h₁.projectionCheckpoint]

theorem storeRecord_ok {s s' : EventStore P} {record : PreparedRecord}
    (h : s.storeRecord record = .ok s') : Imported s s' := by
  unfold storeRecord at h
  split_ifs at h
  unfold materializeMigrationRecord at h
  dsimp only at h
  split_ifs at h
  · obtain ⟨events, hinsert, h⟩ := bind_ok_iff.mp h
    cases pure_ok_iff.mp h
    refine ⟨⟨[historyEvent record (s.events.lastSequence + 1)], ?_, ?_⟩, rfl⟩
    · exact EventTable.rows_of_insert (Nat.lt_succ_self _) hinsert
    · intro event hevent
      rw [List.mem_singleton.mp hevent]
      exact ⟨rfl, Nat.lt_succ_self _⟩
  · cases h
    exact ⟨⟨[], (List.append_nil _).symm, fun _ h => nomatch h⟩, rfl⟩

theorem storeRecord_supervisors {s s' : EventStore P} {record : PreparedRecord}
    (h : s.storeRecord record = .ok s') : s'.supervisors = s.supervisors := by
  unfold storeRecord at h
  split_ifs at h
  unfold materializeMigrationRecord at h
  dsimp only at h
  split_ifs at h
  · obtain ⟨events, -, h⟩ := bind_ok_iff.mp h
    cases pure_ok_iff.mp h
    rfl
  · cases h
    rfl

end EventStore

/-- A store that an import writes to, with the failures still to come. -/
structure ImportRun (P : Type) where
  store : EventStore P
  faults : List Bool

namespace ImportRun

def contains (run : ImportRun P) (recordId : String) : ImportRun P × Except StorageError Bool :=
  ({ run with faults := run.faults.tail },
    commit (run.faults.headD false) (.ok (decide (recordId ∈ run.store.migrationItems))))

def storeOne (run : ImportRun P) (record : PreparedRecord) :
    ImportRun P × Except StorageError Unit :=
  match commit (run.faults.headD false) (run.store.storeRecord record) with
  | .ok store => (⟨store, run.faults.tail⟩, .ok ())
  | .error e => (⟨run.store, run.faults.tail⟩, .error e)

/-- The sink that `import_legacy` hands to `migrate`. -/
def sink : MigrationSink (ImportRun P) StorageError where
  contains := contains
  store := storeOne

/-- **An import only adds lines of history**, however it ends. -/
theorem migrate_imported (run : ImportRun P) (inputs : Prepared) (consent : MigrationConsent)
    (runId sourceFingerprint : String) :
    EventStore.Imported run.store
      (migrate sink run inputs consent runId sourceFingerprint).1.store := by
  refine migrate_relates (fun run run' => EventStore.Imported run.store run'.store)
    (fun _ => .refl _) (fun _ _ _ => .trans) (fun run _ => ?_) run consent runId
    sourceFingerprint fun record _ run => ?_
  · exact .refl run.store
  change EventStore.Imported run.store (storeOne run record).1.store
  unfold storeOne
  split
  · rename_i store hstore
    exact EventStore.storeRecord_ok (commit_ok hstore)
  · exact .refl _

/-- An import without history leaves the log as it is. -/
theorem migrate_events {run : ImportRun P} {inputs : Prepared} {consent : MigrationConsent}
    {runId sourceFingerprint : String}
    (h : ∀ record ∈ recordsOf inputs, record.kind ≠ "history-event") :
    (migrate sink run inputs consent runId sourceFingerprint).1.store.events =
      run.store.events := by
  refine migrate_relates (fun run run' : ImportRun P => run'.store.events = run.store.events)
    (fun _ => rfl) (fun _ _ _ h₁ h₂ => h₂.trans h₁) (fun run _ => ?_) run consent runId
    sourceFingerprint fun record hrecord run => ?_
  · rfl
  change (storeOne run record).1.store.events = run.store.events
  unfold storeOne
  split
  · rename_i store hstore
    have hstored := commit_ok hstore
    unfold EventStore.storeRecord EventStore.materializeMigrationRecord at hstored
    split_ifs at hstored with htaken hkind
    · exact absurd hkind (h record hrecord)
    · rw [← Except.ok.inj hstored]
  · rfl

/-! ### Imports that nothing stops -/

/-- Nothing stops the records: no access fails, no line of history that is still to be stored has
the id of a stored event, and there are sequences for all of them. -/
structure Fits (run : ImportRun P) (records : List PreparedRecord) : Prop where
  sound : ∀ fault ∈ run.faults, fault = false
  free : ∀ record ∈ records, record.kind = "history-event" →
    record.id ∉ run.store.migrationItems → ∀ row ∈ run.store.events.rows, row.eventId ≠ record.id
  room : run.store.events.lastSequence + records.countP (·.kind = "history-event") < 2 ^ 63

/-- A record that fits is stored, and those after it still fit. -/
theorem Fits.store {run : ImportRun P} {record : PreparedRecord} {records : List PreparedRecord}
    (h : run.Fits (record :: records)) (hnew : record.id ∉ run.store.migrationItems) :
    ∃ store, run.store.storeRecord record = .ok store ∧
      ∀ faults, (∀ fault ∈ faults, fault = false) → Fits ⟨store, faults⟩ records := by
  have hroom := h.room
  unfold EventStore.storeRecord EventStore.materializeMigrationRecord
  rw [if_neg hnew]
  dsimp only
  by_cases hkind : record.kind = "history-event"
  · rw [List.countP_cons_of_pos (by simpa using hkind)] at hroom
    have hfree : run.store.events.Free (historyEvent record (run.store.events.lastSequence + 1)) :=
      fun row hrow => ⟨by have := EventTable.le_lastSequence hrow; simp only [historyEvent]; omega,
        h.free record List.mem_cons_self hkind hnew row hrow⟩
    obtain ⟨events, hevents⟩ : ∃ events,
        run.store.events.insert (historyEvent record (run.store.events.lastSequence + 1)) =
          .ok events := ⟨_, dif_pos hfree⟩
    have hrows := EventTable.rows_of_insert (Nat.lt_succ_self _) hevents
    have hlast : events.lastSequence = run.store.events.lastSequence + 1 := by
      rw [EventTable.lastSequence, hrows]
      simp [historyEvent]
    rw [if_pos hkind, if_pos (by simp only [inRange, decide_eq_true_eq]; omega), hevents]
    refine ⟨_, rfl, fun faults hfaults =>
      ⟨hfaults, fun other hother hhistory hid row hrow => ?_, ?_⟩⟩
    · rw [Finset.mem_insert, not_or] at hid
      have hrow : row ∈ run.store.events.rows ++ _ := hrows ▸ hrow
      rcases List.mem_append.mp hrow with hrow | hrow
      · exact h.free other (List.mem_cons_of_mem _ hother) hhistory hid.2 row hrow
      · rw [List.mem_singleton.mp hrow]
        exact Ne.symm hid.1
    · change events.lastSequence + _ < _
      omega
  · rw [List.countP_cons_of_neg (by simpa using hkind)] at hroom
    rw [if_neg hkind]
    refine ⟨_, rfl, fun faults hfaults => ⟨hfaults, fun other hother hhistory hid => ?_, hroom⟩⟩
    rw [Finset.mem_insert, not_or] at hid
    exact h.free other (List.mem_cons_of_mem _ hother) hhistory hid.2

theorem Fits.migrateRecord {run : ImportRun P} {record : PreparedRecord}
    {records : List PreparedRecord} (h : run.Fits (record :: records)) :
    ∃ run' item, migrateRecord sink run record = (run', .ok item) ∧ run'.Fits records := by
  have hhead (faults : List Bool) (hsound : ∀ fault ∈ faults, fault = false) :
      faults.headD false = false ∧ ∀ fault ∈ faults.tail, fault = false := by
    cases faults with
    | nil => exact ⟨rfl, hsound⟩
    | cons fault faults => exact List.forall_mem_cons.mp hsound
  obtain ⟨hfirst, hrest⟩ := hhead run.faults h.sound
  obtain ⟨hsecond, hrest'⟩ := hhead run.faults.tail hrest
  have hcontains : sink.contains run record.id = ({ run with faults := run.faults.tail },
      .ok (decide (record.id ∈ run.store.migrationItems))) := by
    change run.contains record.id = _
    rw [contains, hfirst]
    rfl
  by_cases hid : record.id ∈ run.store.migrationItems
  · refine ⟨{ run with faults := run.faults.tail }, itemReport record true, ?_, hrest,
      fun other hother => h.free other (List.mem_cons_of_mem _ hother), ?_⟩
    · rw [Migration.migrateRecord, hcontains, decide_eq_true hid]
    · have hroom := h.room
      rw [List.countP_cons] at hroom
      exact (Nat.add_le_add_left (Nat.le_add_right _ _) _).trans_lt hroom
  · obtain ⟨store, hstore, hfits⟩ := h.store hid
    have hstored : sink.store { run with faults := run.faults.tail } record =
        (⟨store, run.faults.tail.tail⟩, .ok ()) := by
      change storeOne _ record = _
      rw [storeOne, hsecond, hstore]
      rfl
    refine ⟨⟨store, run.faults.tail.tail⟩, itemReport record false, ?_, hfits _ hrest'⟩
    rw [Migration.migrateRecord, hcontains, decide_eq_false hid]
    dsimp only
    rw [hstored]

theorem Fits.migrateRecords {run : ImportRun P} {records more : List PreparedRecord}
    (h : run.Fits (records ++ more)) :
    ∃ run' items, migrateRecords sink run records = (run', .ok items) ∧ run'.Fits more := by
  induction records generalizing run with
  | nil => exact ⟨run, [], rfl, h⟩
  | cons record records ih =>
    obtain ⟨run₁, item, hrecord, h₁⟩ := h.migrateRecord
    obtain ⟨run₂, items, hrecords, h₂⟩ := ih h₁
    exact ⟨run₂, item :: items, by simp [Migration.migrateRecords, hrecord, hrecords], h₂⟩

/-- **An import that nothing stops succeeds.** -/
theorem Fits.migrate {run : ImportRun P} {inputs : Prepared} {consent : MigrationConsent}
    (runId sourceFingerprint : String) (h : run.Fits (recordsOf inputs))
    (hprepared : ∀ input ∈ inputs, input.isOk = true) (hconsent : consent.copyPersonalData = true) :
    ∃ run' report, migrate sink run inputs consent runId sourceFingerprint =
      (run', .ok report) := by
  have hinputs : ∃ run' items, migrateInputs sink run inputs = (run', .ok items) := by
    induction inputs generalizing run with
    | nil => exact ⟨run, [], rfl⟩
    | cons input inputs ih =>
      obtain ⟨hinput, hinputs⟩ := List.forall_mem_cons.mp hprepared
      cases input with
      | error error => cases hinput
      | ok batch =>
        obtain ⟨run₁, stored, hrecords, h₁⟩ := h.migrateRecords
        obtain ⟨run₂, items, hmore⟩ := ih h₁ hinputs
        refine ⟨run₂, batch.notices ++ stored ++ items, ?_⟩
        simp only [migrateInputs, hrecords, hmore]
  obtain ⟨run', items, hitems⟩ := hinputs
  simp [Migration.migrate, hconsent, hitems]

end ImportRun
end PersonalAgent.Storage
