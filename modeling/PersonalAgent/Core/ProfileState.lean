/-
# The state of a profile

`ProfileState` of `crates/core/src/lib.rs`: a store, the projection folded from its
events, and the accounting kept beside them.  Every operation writes the store first and
then the memory, and can fail at either; the model returns the state together with the
result, so that a failed operation shows what it left behind.

Ids and times the program draws are arguments (`Stamp`), and so is
where the database fails (`Faults`, `ImportFaults`).  `rebuildProjectionFrom` is the
recovery of the projection: from its stored checkpoint when that fits the log, in pages
of 512 events.
-/

import PersonalAgent.Core.Projection
import PersonalAgent.Storage.Import

namespace PersonalAgent.Core

open Agent Storage Migration

/-! ### Accounting rebuilt from its rows -/

namespace UsageLedger

/-- An aggregate read back from the store. -/
def convertAggregate (value : StoredUsageAggregate) : UsageAggregate where
  providerSteps := value.providerSteps
  tokens := {
    input := value.inputTokens
    output := value.outputTokens
    reasoning := value.reasoningTokens
    cacheRead := value.cacheReadTokens
    cacheWrite := value.cacheWriteTokens
    total := value.totalTokens
    totalWasReported := value.totalWasReported }
  reportedCostMicrousd := value.reportedCostMicrousd
  unknownCostSteps := value.unknownCostSteps
  toolCalls := value.toolCalls
  egressEvents := value.egressEvents
  knownEgressBytes := value.knownEgressBytes
  unknownEgressSizes := value.unknownEgressSizes
  providers := value.providers.toFinset
  models := value.models.toFinset

def convertAggregateMap (values : BTreeMap String StoredUsageAggregate) :
    BTreeMap String UsageAggregate :=
  values.map fun _ value => convertAggregate value

/-- One turn that was still active becomes the context of its session. -/
def withContext (l : UsageLedger) (fact : UsageFact) : UsageLedger :=
  if fact.kind = .turnStarted then
    { l with
      activeTurns := l.activeTurns.insert fact.sessionId
        ⟨fact.turnId, fact.providerId, fact.modelId, fact.scopeKey⟩
      seenEventIds := insert fact.eventId l.seenEventIds }
  else l

def fromStored (aggregates : StoredUsageAggregates) (contexts : List UsageFact) : UsageLedger :=
  contexts.foldl withContext {
    turns := convertAggregateMap aggregates.turns
    sessions := convertAggregateMap aggregates.sessions
    days := convertAggregateMap aggregates.days
    scopes := convertAggregateMap aggregates.scopes }

end UsageLedger

def rebuildUsageFrom (store : EventStore AppProjection) (profileId : String)
    (legacy : UsageLedger) (fault : Bool) : Except CoreError UsageLedger := do
  let aggregates ← (commit fault (store.usageAggregates profileId none none)).mapError .storage
  let newer := UsageLedger.fromStored aggregates (store.usageTurnContexts profileId)
  (legacy.clearDetailRecords.mergeAppendOnly newer).mapError .usage

/-! ### The projection rebuilt from the events -/

/-- Where a replay of the log starts: at the checkpoint, unless the log does not reach
it. -/
def replayBase (store : EventStore AppProjection) : AppProjection × ℕ :=
  match store.projectionCheckpoint with
  | none => ({}, 0)
  | some checkpoint =>
    let snapshot := checkpoint.projectionSnapshotBlob
    if snapshot.lastSequence = checkpoint.lastSequence ∧
        checkpoint.lastSequence ≤ store.events.lastSequence then
      (snapshot, checkpoint.lastSequence)
    else ({}, 0)

/-- Rebuild application state solely from committed events.  Each page but the last one
holds an event, so there is at most one page more than there are events. -/
def rebuildProjectionFrom (store : EventStore AppProjection) : Except CoreError AppProjection :=
  let (projection, after) := replayBase store
  Lib.pagedFold (·.monotonicSequence) AppProjection.applied store.events.rows 512
    (store.events.rows.length + 1) projection after

/-! ### The profile -/

/-- Encrypted per-profile state owned by native code. -/
structure ProfileState where
  store : EventStore AppProjection := {}
  projection : AppProjection := {}
  profileId : String
  usage : UsageLedger := {}
  legacyUsage : UsageLedger := {}

/-- Which of the database accesses of one operation fail: the transaction that stores
the event, the projection checkpoint after it, the lookup of a transfer, and the
accounting queries after a failed write. -/
structure Faults where
  write : Bool := false
  checkpoint : Bool := false
  lookup : Bool := false
  recovery : Bool := false
  deriving DecidableEq, Repr

/-- Which of the accesses of an import fail: the calls of its sink, the report, and the
rebuild of the projection. -/
structure ImportFaults where
  sink : List Bool := []
  report : Bool := false
  recovery : Bool := false
  deriving DecidableEq, Repr

/-- Health as the runtime reports it. -/
structure RuntimeHealth where
  healthy : Bool
  version : String
  detail : String
  deriving DecidableEq, Repr

/-- `serde_json::to_value(&record)`. -/
def EgressRecord.toValue (record : EgressRecord) : Value := .object [
  ("id", .ofUuid record.id),
  ("at", .ofStr record.at_.rfc3339),
  ("source", .ofStr (match record.source with
    | .web => "web" | .mcp => "mcp" | .connector => "connector")),
  ("destination", .ofStr record.destination),
  ("operation", .ofStr record.operation),
  ("data_class", .ofStr record.dataClass),
  ("size_bytes", .ofOption .u64 record.sizeBytes),
  ("purpose", .ofStr record.purpose),
  ("session_id", .ofOption .ofStr record.sessionId),
  ("scope_key", .ofOption .ofStr record.scopeKey)]

def projectionCheckpointInterval : ℕ := 1000

namespace ProfileState

/-- Open the profile database: the projection and the accounting are rebuilt from the
store. -/
def opened (store : EventStore AppProjection) (profileId : String) (legacyUsage : UsageLedger) :
    Except CoreError ProfileState := do
  let projection ← rebuildProjectionFrom store
  let usage ← rebuildUsageFrom store profileId legacyUsage false
  return { store, projection, profileId, usage, legacyUsage }

variable (p : ProfileState)

/-- Persist the current application projection. -/
def checkpointProjection (fault : Bool) :
    ProfileState × Except CoreError Unit :=
  match p.store.saveProjectionCheckpoint p.projection p.projection.lastSequence fault with
  | .error e => (p, .error (.storage e))
  | .ok store => ({ p with store }, .ok ())

def applyPersistedEvent (event : EventEnvelope) (fault : Bool) :
    ProfileState × Except CoreError AppProjection :=
  match p.projection.apply event with
  | (projection, .error e) => ({ p with projection }, .error e)
  | (projection, .ok ()) =>
    let p := { p with projection }
    if projection.lastSequence % projectionCheckpointInterval = 0 then
      match p.checkpointProjection fault with
      | (p, .error e) => (p, .error e)
      | (p, .ok ()) => (p, .ok p.projection)
    else (p, .ok p.projection)

/-- `self.store.…(&event)?` followed by `self.apply_persisted_event(&event)`. -/
def persist (event : EventEnvelope)
    (stored : Except StorageError (EventStore AppProjection)) (fault : Bool) :
    ProfileState × Except CoreError AppProjection :=
  match stored with
  | .error e => (p, .error (.storage e))
  | .ok store => { p with store }.applyPersistedEvent event fault

/-- `EventEnvelope::new` with the next sequence of the profile. -/
def nextEvent (stamp : Stamp) (origin eventType : String) (payload : Value) :
    EventEnvelope :=
  .new stamp (p.projection.lastSequence + 1) origin p.profileId eventType payload

/-- The event of a supervisor transition names its goal and its task. -/
def supervisorEvent (stamp : Stamp) (snapshot : SupervisorSnapshot)
    (eventType : String) (payload : Value) : EventEnvelope :=
  { p.nextEvent stamp "goal-supervisor" eventType payload with
    goalId := some snapshot.graph.goalId.toText
    taskId := payload.strAt "task_id" }

/-- Atomically persist a supervisor transition and its projection event. -/
def recordSupervisorEvent (stamp : Stamp) (snapshot : SupervisorSnapshot)
    (eventType : String) (payload : Value) (faults : Faults) :
    ProfileState × Except CoreError AppProjection :=
  let event := p.supervisorEvent stamp snapshot eventType payload
  p.persist event (p.store.saveSupervisorSnapshotAndEvent snapshot event faults.write)
    faults.checkpoint

/-- Append and project a supervisor event without rewriting its recovery checkpoint. -/
def appendSupervisorEvent (stamp : Stamp) (snapshot : SupervisorSnapshot)
    (eventType : String) (payload : Value) (faults : Faults) :
    ProfileState × Except CoreError (AppProjection × EventEnvelope) :=
  let event := p.supervisorEvent stamp snapshot eventType payload
  match p.persist event (p.store.append event faults.write) faults.checkpoint with
  | (p, .error e) => (p, .error e)
  | (p, .ok projection) => (p, .ok (projection, event))

/-- Atomically advance debounced supervisor checkpoints over already-durable event
tails. -/
def saveSupervisorCheckpointUpdates (updates : List SupervisorCheckpointUpdate)
    (fault : Bool) : ProfileState × Except CoreError Unit :=
  match p.store.saveSupervisorCheckpoints updates fault with
  | .error e => (p, .error (.storage e))
  | .ok store => ({ p with store }, .ok ())

/-- Persist a recovered supervisor snapshot without inventing a domain transition. -/
def saveSupervisorSnapshot (p : ProfileState) (snapshot : SupervisorSnapshot) (fault : Bool) :
    ProfileState × Except CoreError Unit :=
  if fault then (p, .error (.storage .database))
  else ({ p with store := { p.store with
    supervisors := Storage.saveSupervisorSnapshot p.store.supervisors snapshot } }, .ok ())

/-- Atomically persist artifact metadata and the domain event that projects it. -/
def recordArtifactWorkspaceEvent (stamp : Stamp) (eventType : String)
    (payload : Value) (faults : Faults) : ProfileState × Except CoreError AppProjection :=
  let event := p.nextEvent stamp "desktop-ui" eventType payload
  p.persist event (p.store.saveRuntimeSnapshotAndEvent event faults.write) faults.checkpoint

/-- Persist a typed user message. -/
def submitUserMessage (stamp : Stamp) (text : String) (faults : Faults) :
    ProfileState × Except CoreError AppProjection :=
  let text := trim text
  if text.isEmpty || text.utf8ByteSize > 65536 then (p, .error .invalidUserMessage)
  else
    let event := p.nextEvent stamp "desktop-ui" "message.user" (.object [("text", .ofStr text)])
    p.persist event (p.store.append event faults.write) faults.checkpoint

/-- Persist the normalized runtime health state without exposing its endpoint. -/
def recordRuntimeHealth (stamp : Stamp) (health : RuntimeHealth)
    (faults : Faults) : ProfileState × Except CoreError AppProjection :=
  let event := p.nextEvent stamp "runtime-supervisor" "runtime.health" (.object [
    ("healthy", .bool health.healthy),
    ("version", .ofStr health.version),
    ("detail", .ofStr health.detail)])
  p.persist event (p.store.append event faults.write) faults.checkpoint

/-- Persist process-start recovery state in the encrypted event stream. -/
def recordLifecycleStart (stamp : Stamp) (previousUncleanRun : Bool)
    (faults : Faults) : ProfileState × Except CoreError AppProjection :=
  let event := p.nextEvent stamp "desktop-host" "lifecycle.started" (.object [
    ("previous_unclean_run", .bool previousUncleanRun)])
  p.persist event (p.store.append event faults.write) faults.checkpoint

/-- The accounting after a write that failed: rebuilt, if the store can be read. -/
def failedWrite (error : StorageError) (fault : Bool) :
    ProfileState × Except CoreError AppProjection :=
  match rebuildUsageFrom p.store p.profileId p.legacyUsage fault with
  | .error e => (p, .error e)
  | .ok usage => ({ p with usage }, .error (.storage error))

/-- The event with the sequence and the profile the store will know it under. -/
def numbered (event : EventEnvelope) : EventEnvelope :=
  { event with
    monotonicSequence := p.projection.lastSequence + 1
    profileId := p.profileId }

/-- Persist one normalized runtime event with a profile-global monotonic sequence. -/
def recordRuntimeEvent [Chrono] (p : ProfileState) (event : EventEnvelope) (egressId : Uuid)
    (faults : Faults) : ProfileState × Except CoreError AppProjection :=
  let event := p.numbered event
  match p.usage.ingestRuntimeEventDelta event egressId with
  | (usage, .error e) => ({ p with usage }, .error (.usage e))
  | (usage, .ok mutation) =>
    let p := { p with usage := usage.clearDetailRecords }
    match p.store.appendUsageEvent event mutation.fact.toList mutation.egress.toList
        faults.write with
    | .error e => p.failedWrite e faults.recovery
    | .ok store => { p with store }.applyPersistedEvent event faults.checkpoint

/-- Atomically append one content-free egress event and update aggregates. -/
def recordEgress (p : ProfileState) (stamp : Stamp) (record : EgressRecord) (faults : Faults) :
    ProfileState × Except CoreError AppProjection :=
  let event := p.nextEvent stamp "egress-gateway" "egress.recorded" record.toValue
  let known : Except StorageError Bool :=
    if p.usage.hasSeenEgress record.id then .ok true
    else commit faults.lookup (.ok (p.store.egressExists p.profileId record.id))
  match known with
  | .error e => (p, .error (.storage e))
  | .ok exists_ =>
    let recorded := if exists_ then .ok p.usage
      else (p.usage.recordEgress record).map (·.clearDetailRecords)
    match recorded with
    | .error e => (p, .error (.usage e))
    | .ok usage =>
      let p := { p with usage }
      let rows := if exists_ then [] else [record]
      match p.store.appendUsageEvent event [] rows faults.write with
      | .error e => p.failedWrite e faults.recovery
      | .ok store => { p with store }.applyPersistedEvent event faults.checkpoint

/-- Import one reviewed legacy plan and rebuild the projection, so that imported history
is visible to native state; every failure returns before the rebuild. -/
def importLegacy (inputs : Prepared) (consent : MigrationConsent)
    (runId sourceFingerprint : String) (faults : ImportFaults) :
    ProfileState × Except CoreError MigrationReport :=
  let (run, result) :=
    migrate ImportRun.sink ⟨p.store, faults.sink⟩ inputs consent runId sourceFingerprint
  let p := { p with store := run.store }
  match result with
  | .error .confirmationRequired => (p, .error .migrationConfirmationRequired)
  | .error (.migration e) => (p, .error (.migration e))
  | .error (.sink e) => (p, .error (.storage e))
  | .ok report =>
    if faults.report then (p, .error (.storage .database))
    else if faults.recovery then (p, .error (.storage .database))
    else
      match rebuildProjectionFrom p.store with
      | .error e => (p, .error e)
      | .ok projection => ({ p with projection }, .ok report)

/-- A clock reader for closed runs that takes every text for a time. -/
@[reducible] def anyChrono : Chrono := ⟨fun text => some ⟨text⟩⟩

/-- A runtime event of closed runs, as it reaches the profile. -/
def runtimeEvent (eventId type : String) (payloadJson : Option Value) : EventEnvelope where
  schemaVersion := eventSchemaVersion
  eventId := eventId
  wallClockTimestamp := "2026-01-01T00:00:00Z"
  monotonicSequence := 0
  origin := "runtime"
  profileId := ""
  sessionId := some "session"
  goalId := none
  taskId := none
  agentId := none
  type := type
  payloadJson := payloadJson

end ProfileState
end PersonalAgent.Core
