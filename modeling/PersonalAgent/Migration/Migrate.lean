/-
# Consented, idempotent migration

`migrate` of `crates/migration/src/lib.rs`, lines 483 to 546, over any sink: each input
of a reviewed plan is prepared when its turn comes, and each of its records is stored
unless the sink already has it.  The first failure ends the run, whether of a
preparation, of a lookup or of a write, and what was stored before it stays stored.

What preparing an input returns is data of the run (`Prepared`); `Migration.Prepare` computes
it from the files of a source.  The payload of a record is kept as its bytes, their number and
the document they decode to.  The report leaves out the two clock readings.
-/

import PersonalAgent.Contracts.Value

namespace PersonalAgent.Migration

/-- Discovery or preparation failure. -/
inductive MigrationError where
  | invalidSource
  | io
  | tooManyFiles
  | fileTooLarge
  | sourceChanged
  | serialize
  deriving DecidableEq, Repr

/-- Failure of a confirmed run, preserving the sink's native error. -/
inductive MigrationRunError (ε : Type) where
  | confirmationRequired
  | migration (error : MigrationError)
  | sink (error : ε)

/-- Explicit choices required before an import can read personal payloads. -/
structure MigrationConsent where
  copyPersonalData : Bool
  adoptOpencodeAuth : Bool := false
  deriving DecidableEq, Repr

/-- A validated record passed only to the encrypted persistence boundary. -/
structure PreparedRecord where
  id : String
  kind : String
  sourceLocator : String := ""
  sourceModifiedAt : Option String := none
  contentSha256 : String := ""
  destination : String := ""
  enabled : Bool := true
  containsPersonalData : Bool := true
  payload : Option Value
  payloadLength : ℕ := 0
  payloadBytes : List UInt8 := []

/-- Terminal status for one report row. -/
inductive ImportStatus where
  | imported
  | alreadyPresent
  | skipped
  | invalid
  deriving DecidableEq, Repr

/-- Content-free provenance for one imported, duplicate, skipped, or invalid item. -/
structure ImportItemReport where
  id : String
  kind : String
  sourceLocator : String
  sourceModifiedAt : Option String
  contentSha256 : Option String
  destination : Option String
  status : ImportStatus
  enabled : Bool
  bytes : ℕ
  detail : String
  secretMaterialSkipped : Bool
  deriving DecidableEq, Repr

/-- What preparing one input yields. -/
structure PreparedBatch where
  records : List PreparedRecord := []
  notices : List ImportItemReport := []

/-- The result of `prepare_input` on each input of the plan, in the order of the plan. -/
abbrev Prepared := List (Except MigrationError PreparedBatch)

/-- Aggregate counts for a completed run. -/
structure MigrationSummary where
  imported : ℕ
  alreadyPresent : ℕ
  skipped : ℕ
  invalid : ℕ
  secretsSkipped : ℕ
  deriving DecidableEq, Repr

/-- Machine- and human-readable result of a confirmed migration. -/
structure MigrationReport where
  schemaVersion : ℕ := 1
  runId : String
  sourceFingerprint : String
  sourceWasModified : Bool := false
  remoteDevicesRequireRepairing : Bool := true
  summary : MigrationSummary
  items : List ImportItemReport
  deriving DecidableEq, Repr

/-- Persistence boundary used by the importer; both calls take `&mut self`. -/
structure MigrationSink (σ ε : Type) where
  contains : σ → String → σ × Except ε Bool
  store : σ → PreparedRecord → σ × Except ε Unit

variable {σ ε : Type}

def itemReport (record : PreparedRecord) (alreadyPresent : Bool) : ImportItemReport where
  id := record.id
  kind := record.kind
  sourceLocator := record.sourceLocator
  sourceModifiedAt := record.sourceModifiedAt
  contentSha256 := some record.contentSha256
  destination := some record.destination
  status := if alreadyPresent then .alreadyPresent else .imported
  enabled := record.enabled
  bytes := record.payloadLength
  detail :=
    if alreadyPresent then "deterministic record already committed"
    else if record.enabled then "imported with legacy provenance"
    else "imported disabled pending user review"
  secretMaterialSkipped := false

/-- One record: looked up, then stored unless it is there. -/
def migrateRecord (sink : MigrationSink σ ε) (s : σ) (record : PreparedRecord) :
    σ × Except (MigrationRunError ε) ImportItemReport :=
  match sink.contains s record.id with
  | (s, .error e) => (s, .error (.sink e))
  | (s, .ok true) => (s, .ok (itemReport record true))
  | (s, .ok false) =>
    match sink.store s record with
    | (s, .error e) => (s, .error (.sink e))
    | (s, .ok ()) => (s, .ok (itemReport record false))

/-- The records of one batch, up to the first failure. -/
def migrateRecords (sink : MigrationSink σ ε) :
    σ → List PreparedRecord → σ × Except (MigrationRunError ε) (List ImportItemReport)
  | s, [] => (s, .ok [])
  | s, record :: records =>
    match migrateRecord sink s record with
    | (s, .error e) => (s, .error e)
    | (s, .ok item) =>
      match migrateRecords sink s records with
      | (s, .error e) => (s, .error e)
      | (s, .ok items) => (s, .ok (item :: items))

/-- The inputs of the plan, up to the first failure. -/
def migrateInputs (sink : MigrationSink σ ε) :
    σ → Prepared → σ × Except (MigrationRunError ε) (List ImportItemReport)
  | s, [] => (s, .ok [])
  | s, .error e :: _ => (s, .error (.migration e))
  | s, .ok batch :: inputs =>
    match migrateRecords sink s batch.records with
    | (s, .error e) => (s, .error e)
    | (s, .ok stored) =>
      match migrateInputs sink s inputs with
      | (s, .error e) => (s, .error e)
      | (s, .ok items) => (s, .ok (batch.notices ++ stored ++ items))

/-- `items.sort_by(source_locator, then id)`. -/
def sortedItems (items : List ImportItemReport) : List ImportItemReport :=
  items.insertionSort fun a b =>
    a.sourceLocator < b.sourceLocator ∨ (a.sourceLocator = b.sourceLocator ∧ a.id ≤ b.id)

def summarize (items : List ImportItemReport) : MigrationSummary where
  imported := items.countP (·.status = .imported)
  alreadyPresent := items.countP (·.status = .alreadyPresent)
  skipped := items.countP (·.status = .skipped)
  invalid := items.countP (·.status = .invalid)
  secretsSkipped := items.countP (·.secretMaterialSkipped)

/-- Execute a previously reviewed plan through an encrypted sink. -/
def migrate (sink : MigrationSink σ ε) (s : σ) (inputs : Prepared) (consent : MigrationConsent)
    (runId sourceFingerprint : String) : σ × Except (MigrationRunError ε) MigrationReport :=
  if !consent.copyPersonalData then (s, .error .confirmationRequired)
  else
    match migrateInputs sink s inputs with
    | (s, .error e) => (s, .error e)
    | (s, .ok items) =>
      (s, .ok {
        runId, sourceFingerprint
        summary := summarize (sortedItems items)
        items := sortedItems items })

/-- The records of the inputs that could be prepared. -/
def recordsOf (inputs : Prepared) : List PreparedRecord :=
  inputs.flatMap fun
    | .ok batch => batch.records
    | .error _ => []

/-! ### What a run does to its sink

A run only ever calls `contains`, and `store` with the records of its plan, so a relation
between states that these calls respect holds between the sink before a run and the sink
after it, however the run ends. -/

section Preserves

variable {sink : MigrationSink σ ε} (R : σ → σ → Prop) (hrefl : ∀ s, R s s)
  (htrans : ∀ s t u, R s t → R t u → R s u) (hcontains : ∀ s id, R s (sink.contains s id).1)

include htrans hcontains

theorem migrateRecord_relates (s : σ) {record : PreparedRecord}
    (hstore : ∀ s, R s (sink.store s record).1) : R s (migrateRecord sink s record).1 := by
  have h₁ := hcontains s record.id
  unfold migrateRecord
  split
  · rename_i hc; rw [hc] at h₁; exact h₁
  · rename_i hc; rw [hc] at h₁; exact h₁
  · rename_i t hc
    rw [hc] at h₁
    have h₂ := hstore t
    split
    · rename_i hs; rw [hs] at h₂; exact htrans _ _ _ h₁ h₂
    · rename_i hs; rw [hs] at h₂; exact htrans _ _ _ h₁ h₂

include hrefl

theorem migrateRecords_relates (s : σ) {records : List PreparedRecord}
    (hstore : ∀ record ∈ records, ∀ s, R s (sink.store s record).1) :
    R s (migrateRecords sink s records).1 := by
  induction records generalizing s with
  | nil => exact hrefl s
  | cons record records ih =>
    obtain ⟨hrecord, hrecords⟩ := List.forall_mem_cons.mp hstore
    have h₁ := migrateRecord_relates R htrans hcontains s hrecord
    rw [migrateRecords]
    split
    · rename_i hr; rw [hr] at h₁; exact h₁
    · rename_i t item hr
      rw [hr] at h₁
      have h₂ := ih t hrecords
      split
      · rename_i hrs; rw [hrs] at h₂; exact htrans _ _ _ h₁ h₂
      · rename_i hrs; rw [hrs] at h₂; exact htrans _ _ _ h₁ h₂

theorem migrateInputs_relates (s : σ) {inputs : Prepared}
    (hstore : ∀ record ∈ recordsOf inputs, ∀ s, R s (sink.store s record).1) :
    R s (migrateInputs sink s inputs).1 := by
  induction inputs generalizing s with
  | nil => exact hrefl s
  | cons input inputs ih =>
    cases input with
    | error e => exact hrefl s
    | ok batch =>
      obtain ⟨hbatch, hinputs⟩ := List.forall_mem_append.mp hstore
      have h₁ := migrateRecords_relates R hrefl htrans hcontains s hbatch
      rw [migrateInputs]
      split
      · rename_i hr; rw [hr] at h₁; exact h₁
      · rename_i t items hr
        rw [hr] at h₁
        have h₂ := ih t hinputs
        split
        · rename_i hrs; rw [hrs] at h₂; exact htrans _ _ _ h₁ h₂
        · rename_i hrs; rw [hrs] at h₂; exact htrans _ _ _ h₁ h₂

/-- **What both calls of a sink respect, a whole run respects.** -/
theorem migrate_relates (s : σ) {inputs : Prepared} (consent : MigrationConsent)
    (runId sourceFingerprint : String)
    (hstore : ∀ record ∈ recordsOf inputs, ∀ s, R s (sink.store s record).1) :
    R s (migrate sink s inputs consent runId sourceFingerprint).1 := by
  have h := migrateInputs_relates R hrefl htrans hcontains s hstore
  unfold migrate
  split_ifs
  · exact hrefl s
  · split <;> rename_i hi <;> rw [hi] at h <;> exact h

end Preserves

end PersonalAgent.Migration
