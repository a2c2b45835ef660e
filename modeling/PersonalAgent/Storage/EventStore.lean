/-
# The event store

`EventStore` of `crates/storage/src/lib.rs`: the tables a profile is recovered from and
the transactions that write them.  A transaction commits whole or not at all.  Where the
database can fail on its own the method takes a flag `fault`, and a failed transaction
leaves the store to the caller as it was.

The tables are the events, the supervisor checkpoints, the checkpoint of the
application projection, the append-only accounting rows (`provider_usage`, `egress`) and
the ids of the imported records.  Rows whose body is JSON hold the document the body
encodes.  The queries that rebuild the accounting from its rows are written as what the
`GROUP BY` of the source computes: one aggregate for each key, from the rows of that
key.  SQLite adds `i64`s and refuses a sum that does not fit.
-/

import PersonalAgent.Core.Usage
import PersonalAgent.Storage.Checkpoint

namespace PersonalAgent.Storage

open Lib

open Agent PersonalAgent.Core

/-- Application projection and the sequence it was taken at. -/
structure ProjectionCheckpoint (P : Type) where
  projectionSnapshotBlob : P
  lastSequence : ℕ

/-- A row of `provider_usage`; its id, day and session are those of the fact. -/
structure UsageFactRow where
  profileId : String
  fact : UsageFact

/-- A row of `egress`; its id, day, session and size are those of the record. -/
structure EgressRow where
  profileId : String
  record : EgressRecord

/-- The tables of one profile database, for a projection of type `P`. -/
structure EventStore (P : Type) where
  events : EventTable := .empty
  supervisors : Checkpoints := ∅
  projectionCheckpoint : Option (ProjectionCheckpoint P) := none
  providerUsage : List UsageFactRow := []
  egress : List EgressRow := []
  migrationItems : Finset String := ∅

/-- The outcome of a transaction that the database may fail. -/
def commit {α : Type} (fault : Bool) (tx : Except StorageError α) : Except StorageError α :=
  if fault then .error .database else tx

theorem commit_ok {α : Type} {fault : Bool} {tx : Except StorageError α} {a : α}
    (h : commit fault tx = .ok a) : tx = .ok a := by
  unfold commit at h
  split_ifs at h
  exact h

/-! ### Accounting rows -/

/-- `INSERT INTO provider_usage`: the id is the primary key. -/
def insertUsageFact (profileId : String) (rows : List UsageFactRow) (fact : UsageFact) :
    Except StorageError (List UsageFactRow) :=
  if rows.any (·.fact.eventId = fact.eventId) then .error .database
  else .ok (rows ++ [⟨profileId, fact⟩])

/-- `INSERT INTO egress ... ON CONFLICT(id) DO NOTHING`. -/
def insertEgress (profileId : String) (rows : List EgressRow) (record : EgressRecord) :
    List EgressRow :=
  if rows.any (·.record.id = record.id) then rows else rows ++ [⟨profileId, record⟩]

/-- Column `size_bytes`: unknown is `-1`, and a size that does not fit is cut off. -/
def EgressRow.sizeBytes (row : EgressRow) : ℤ :=
  match row.record.sizeBytes with
  | none => -1
  | some size => if size < 2 ^ 63 then size else 2 ^ 63 - 1

/-- One aggregate as the queries return it. -/
structure StoredUsageAggregate where
  providerSteps : ℕ := 0
  inputTokens : ℕ := 0
  outputTokens : ℕ := 0
  reasoningTokens : ℕ := 0
  cacheReadTokens : ℕ := 0
  cacheWriteTokens : ℕ := 0
  totalTokens : ℕ := 0
  totalWasReported : Bool := false
  reportedCostMicrousd : ℕ := 0
  unknownCostSteps : ℕ := 0
  toolCalls : ℕ := 0
  egressEvents : ℕ := 0
  knownEgressBytes : ℕ := 0
  unknownEgressSizes : ℕ := 0
  providers : List String := []
  models : List String := []

/-- Usage aggregates by turn, session, day and scope. -/
structure StoredUsageAggregates where
  turns : BTreeMap String StoredUsageAggregate
  sessions : BTreeMap String StoredUsageAggregate
  days : BTreeMap String StoredUsageAggregate
  scopes : BTreeMap String StoredUsageAggregate

/-- `SUM` read as an `i64`. -/
def sqlSum (values : List ℕ) : Except StorageError ℕ :=
  if values.sum < 2 ^ 63 then .ok values.sum else .error .database

/-- The rows under each key; rows without one are left out. -/
def groupBy {α : Type} (key : α → Option String) (rows : List α) : BTreeMap String (List α) :=
  rows.foldl (fun groups row =>
    match key row with
    | some k => groups.insert k ((groups[k]?).getD [] ++ [row])
    | none => groups) ∅

/-- A fallible value for every group. -/
def mapGroups {α β : Type} (f : α → Except StorageError β) (groups : BTreeMap String α) :
    Except StorageError (BTreeMap String β) :=
  groups.toList.foldlM (fun m entry => do
    let b ← f entry.2
    return m.insert entry.1 b) ∅

/-- `day >= from` and `day <= to`, where given. -/
def dayWithin (lower upper : Option String) (day : String) : Bool :=
  lower.all (· ≤ day) && upper.all (day ≤ ·)

/-- The columns of one group of accounting facts. -/
def usageAggregateOf (facts : List UsageFact) : Except StorageError StoredUsageAggregate := do
  let steps := facts.filter (·.kind = .provider)
  let tokens (f : TokenUsage → ℕ) := sqlSum (steps.map fun fact => (fact.tokens.map f).getD 0)
  return {
    providerSteps := ← sqlSum (steps.map fun _ => 1)
    inputTokens := ← tokens (·.input)
    outputTokens := ← tokens (·.output)
    reasoningTokens := ← tokens (·.reasoning)
    cacheReadTokens := ← tokens (·.cacheRead)
    cacheWriteTokens := ← tokens (·.cacheWrite)
    totalTokens := ← tokens (·.total)
    totalWasReported := !steps.isEmpty &&
      steps.all fun fact => (fact.tokens.map (·.totalWasReported)).getD false
    reportedCostMicrousd := ←
      sqlSum (steps.map fun fact => (fact.cost.bind (·.microusd)).getD 0)
    unknownCostSteps := ←
      sqlSum ((steps.filter fun fact => (fact.cost.bind (·.microusd)).isNone).map fun _ => 1)
    toolCalls := ← sqlSum ((facts.filter (·.kind = .toolCall)).map fun _ => 1)
    providers := (steps.filterMap (·.providerId)).dedup
    models := (steps.filterMap (·.modelId)).dedup }

/-- `grouped_usage_facts` for one key of the facts. -/
def groupedUsageFacts (rows : List UsageFactRow) (profileId : String) (key : UsageFact → String)
    (lower upper : Option String) : Except StorageError (BTreeMap String StoredUsageAggregate) :=
  let facts := (rows.filter (·.profileId = profileId)).map (·.fact)
  let counted := facts.filter fun fact =>
    (fact.kind = .provider || fact.kind = .toolCall) && dayWithin lower upper fact.dayUtc
  mapGroups usageAggregateOf (groupBy (fun fact => some (key fact)) counted)

/-- `merge_egress_aggregates` for one key of the records. -/
def mergeEgressAggregates (rows : List EgressRow) (profileId : String)
    (key : EgressRecord → Option String) (lower upper : Option String)
    (target : BTreeMap String StoredUsageAggregate) :
    Except StorageError (BTreeMap String StoredUsageAggregate) := do
  let counted := rows.filter fun row =>
    row.profileId = profileId && dayWithin lower upper (dayString row.record.at_)
  let groups := groupBy (fun row => key row.record) counted
  groups.toList.foldlM (fun target (k, rows) => do
    let knownBytes ← sqlSum ((rows.filter (0 ≤ ·.sizeBytes)).map (·.sizeBytes.toNat))
    let aggregate := (target[k]?).getD {}
    return target.insert k { aggregate with
      egressEvents := satAdd aggregate.egressEvents rows.length
      knownEgressBytes := satAdd aggregate.knownEgressBytes knownBytes
      unknownEgressSizes :=
        satAdd aggregate.unknownEgressSizes (rows.filter (·.sizeBytes < 0)).length }) target

namespace EventStore

variable {P : Type}

/-! ### Transactions -/

/-- Atomically append an event; sequence and event-id uniqueness make retries safe. -/
def append (s : EventStore P) (event : EventEnvelope) (fault : Bool) :
    Except StorageError (EventStore P) := do
  validateEvent event
  commit fault do
    let events ← s.events.insert event
    return { s with events }

/-- Atomically append a runtime event and the accounting rows it produced. -/
def appendUsageEvent (s : EventStore P) (event : EventEnvelope) (usageFacts : List UsageFact)
    (egress : List EgressRecord) (fault : Bool) : Except StorageError (EventStore P) := do
  validateEvent event
  commit fault do
    let providerUsage ← usageFacts.foldlM (insertUsageFact event.profileId) s.providerUsage
    let events ← s.events.insert event
    return { s with
      events
      providerUsage
      egress := egress.foldl (insertEgress event.profileId) s.egress }

/-- Atomically persist a supervisor transition and its append-only projection event. -/
def saveSupervisorSnapshotAndEvent (s : EventStore P) (snapshot : SupervisorSnapshot)
    (event : EventEnvelope) (fault : Bool) : Except StorageError (EventStore P) := do
  validateEvent event
  commit fault do
    let goalId := snapshot.graph.goalId
    let checkpoint ← evolveSupervisorCheckpoint s.supervisors[goalId]? snapshot event
    let events ← s.events.insert event
    return { s with events, supervisors := s.supervisors.insert goalId checkpoint }

/-- Atomically persist a runtime snapshot and its event; the snapshot row of the
artifact workspace is read by nothing here, so what is left is the event. -/
def saveRuntimeSnapshotAndEvent (s : EventStore P) (event : EventEnvelope) (fault : Bool) :
    Except StorageError (EventStore P) :=
  s.append event fault

/-- The rows of a batch of checkpoint updates, in one transaction. -/
def saveSupervisorCheckpoints (s : EventStore P) (updates : List SupervisorCheckpointUpdate)
    (fault : Bool) : Except StorageError (EventStore P) :=
  if updates.isEmpty then .ok s
  else commit fault do
    let supervisors ← saveSupervisorCheckpointUpdates s.supervisors updates
    return { s with supervisors }

/-- Persist a rebuildable application projection and its replay boundary. -/
def saveProjectionCheckpoint (s : EventStore P) (projection : P) (lastSequence : ℕ)
    (fault : Bool) : Except StorageError (EventStore P) :=
  commit fault (.ok { s with projectionCheckpoint := some ⟨projection, lastSequence⟩ })

/-! ### Queries -/

/-- Whether a content-free egress identifier was already recorded. -/
def egressExists (s : EventStore P) (profileId : String) (id : Uuid) : Bool :=
  s.egress.any fun row => row.profileId = profileId && row.record.id = id

/-- Rebuild additive usage state by grouping the rows. -/
def usageAggregates (s : EventStore P) (profileId : String) (lower upper : Option String) :
    Except StorageError StoredUsageAggregates := do
  let turns ← groupedUsageFacts s.providerUsage profileId (·.turnId) lower upper
  let sessions ← groupedUsageFacts s.providerUsage profileId (·.sessionId) lower upper
  let days ← groupedUsageFacts s.providerUsage profileId (·.dayUtc) lower upper
  let scopes ← groupedUsageFacts s.providerUsage profileId (·.scopeKey) lower upper
  let days ← mergeEgressAggregates s.egress profileId (fun r => some (dayString r.at_))
    lower upper days
  let sessions ← mergeEgressAggregates s.egress profileId (·.sessionId) lower upper sessions
  let scopes ← mergeEgressAggregates s.egress profileId (·.scopeKey) lower upper scopes
  return { turns, sessions, days, scopes }

/-- The latest persisted turn of every session. -/
def usageTurnContexts (s : EventStore P) (profileId : String) : List UsageFact :=
  let started := (s.providerUsage.filter (·.profileId = profileId)).map (·.fact) |>.filter
    (·.kind = .turnStarted)
  (groupBy (fun fact => some fact.sessionId) started).toList.filterMap (·.2.getLast?)

/-! ### What a transaction leaves behind -/

/-- The event is the only new row of `events`, and the projection checkpoint stays. -/
structure Appended (s : EventStore P) (event : EventEnvelope) (s' : EventStore P) : Prop where
  inserted : s.events.insert event = .ok s'.events
  projectionCheckpoint : s'.projectionCheckpoint = s.projectionCheckpoint

variable {s s' : EventStore P} {event : EventEnvelope} {fault : Bool}

theorem append_ok (h : s.append event fault = .ok s') :
    Appended s event s' ∧ s'.supervisors = s.supervisors := by
  obtain ⟨⟨⟩, -, h⟩ := bind_ok_iff.mp h
  obtain ⟨events, hinsert, h⟩ := bind_ok_iff.mp (commit_ok h)
  cases pure_ok_iff.mp h
  exact ⟨⟨hinsert, rfl⟩, rfl⟩

theorem appendUsageEvent_ok {usageFacts : List UsageFact} {egress : List EgressRecord}
    (h : s.appendUsageEvent event usageFacts egress fault = .ok s') :
    Appended s event s' ∧ s'.supervisors = s.supervisors := by
  obtain ⟨⟨⟩, -, h⟩ := bind_ok_iff.mp h
  obtain ⟨_, -, h⟩ := bind_ok_iff.mp (commit_ok h)
  obtain ⟨events, hinsert, h⟩ := bind_ok_iff.mp h
  cases pure_ok_iff.mp h
  exact ⟨⟨hinsert, rfl⟩, rfl⟩

theorem saveSupervisorSnapshotAndEvent_ok {snapshot : SupervisorSnapshot}
    (h : s.saveSupervisorSnapshotAndEvent snapshot event fault = .ok s') : Appended s event s' := by
  obtain ⟨⟨⟩, -, h⟩ := bind_ok_iff.mp h
  obtain ⟨_, -, h⟩ := bind_ok_iff.mp (commit_ok h)
  obtain ⟨events, hinsert, h⟩ := bind_ok_iff.mp h
  cases pure_ok_iff.mp h
  exact ⟨hinsert, rfl⟩

end EventStore
end PersonalAgent.Storage
