/-
# Supervisor recovery checkpoints

The rows of `runtime_snapshots` of kind supervisor (`crates/storage/src/lib.rs`, lines
165 to 207, 733 to 905 and 1457 to 1582).  A row holds the last snapshot of a goal's
supervisor together with the boundary up to which it accounts for the goal's events:
the latest of them, the approval requests not yet resolved and the last activities.

`evolveSupervisorCheckpoint` moves a row over one event, and
`saveSupervisorCheckpointUpdates` moves the rows of a whole batch in one transaction,
skipping the events a row already accounts for.  Goal ids are the keys of the rows;
`ORDER BY id` orders them as the UUIDs they spell.
-/

import PersonalAgent.Agent.Supervisor
import PersonalAgent.Storage.EventTable

namespace PersonalAgent.Storage

open Agent

/-- Content-free goal activity retained with a supervisor recovery base. -/
structure SupervisorActivityCheckpoint where
  sequence : ℕ
  eventType : String
  goalId : Option Text
  taskId : Option Text
  timestamp : String
  deriving DecidableEq, Repr

/-- Existing supervisor snapshot enriched with its event replay boundary. -/
structure SupervisorRecoveryCheckpoint where
  snapshot : SupervisorSnapshot
  lastSequence : ℕ
  latestGoalEvent : Option EventEnvelope
  pendingApprovalEvents : List EventEnvelope
  recentActivities : List SupervisorActivityCheckpoint
  replayBaseComplete : Bool

/-- One latest supervisor snapshot plus the already-appended events it incorporates. -/
structure SupervisorCheckpointUpdate where
  snapshot : SupervisorSnapshot
  events : List EventEnvelope

/-- The rows, by goal. -/
abbrev Checkpoints := BTreeMap Uuid SupervisorRecoveryCheckpoint

def supervisorRecentEventLimit : ℕ := 100

/-- A row that accounts for no event yet. -/
def SupervisorRecoveryCheckpoint.bare (snapshot : SupervisorSnapshot) (complete : Bool) :
    SupervisorRecoveryCheckpoint where
  snapshot := snapshot
  lastSequence := 0
  latestGoalEvent := none
  pendingApprovalEvents := []
  recentActivities := []
  replayBaseComplete := complete

def eventTaskId (event : EventEnvelope) : Option Text :=
  event.taskId.or (event.payloadJson.bind (·.strAt "task_id"))

/-- `payload.pointer("/goal/id")`. -/
def goalPointerId (payload : Value) : Option Value := (payload.get "goal").bind (·.get "id")

def supervisorActivity (event : EventEnvelope) (payload : Value) :
    SupervisorActivityCheckpoint where
  sequence := event.monotonicSequence
  eventType := event.type
  goalId := event.goalId.or
    (((payload.get "goal_id").or ((payload.get "id").or (goalPointerId payload))).bind Value.asStr)
  taskId := event.taskId.or (payload.strAt "task_id")
  timestamp := event.wallClockTimestamp

/-- `pending_approval_events.retain(|pending| event_task_id(pending) != Some(task_id))`. -/
def withoutTask (taskId : Text) (pending : List EventEnvelope) : List EventEnvelope :=
  pending.filter fun event => eventTaskId event ≠ some taskId

/-- What an event does to the unresolved approval requests of its goal: a request
replaces the one of its task, a resolution drops it, and a resolution of all clears
them. -/
def evolvePending (event : EventEnvelope) (payload : Value) (pending : List EventEnvelope) :
    List EventEnvelope :=
  let taskId := payload.strAt "task_id"
  let pending :=
    if event.type = "approval.requested" then
      match taskId with
      | some taskId => withoutTask taskId pending ++ [event]
      | none => pending
    else pending
  let pending :=
    if event.type = "approval.resolved" || (payload.boolAt "approval_resolved").getD false then
      match taskId with
      | some taskId => withoutTask taskId pending
      | none => pending
    else pending
  if (payload.u64At "approvals_resolved").getD 0 > 0 then [] else pending

/-- Whether the row stays a complete base: an approval event without a task spoils it. -/
def staysComplete (event : EventEnvelope) (payload : Value) : Bool :=
  !((event.type = "approval.requested" || event.type = "approval.resolved") &&
    (payload.strAt "task_id").isNone)

/-- Move a row over one event. -/
def evolveSupervisorCheckpoint (previous : Option SupervisorRecoveryCheckpoint)
    (snapshot : SupervisorSnapshot) (event : EventEnvelope) :
    Except StorageError SupervisorRecoveryCheckpoint :=
  let checkpoint := previous.getD (.bare snapshot (event.type = "goal.created"))
  match event.payloadJson with
  | none => .error .json
  | some payload =>
    let activities := checkpoint.recentActivities ++ [supervisorActivity event payload]
    .ok {
      snapshot := snapshot
      lastSequence := event.monotonicSequence
      latestGoalEvent := some event
      pendingApprovalEvents := evolvePending event payload checkpoint.pendingApprovalEvents
      recentActivities := activities.drop (activities.length - supervisorRecentEventLimit)
      replayBaseComplete := checkpoint.replayBaseComplete && staysComplete event payload }

/-- One event of an update: refused when it is of another goal, skipped when the row
accounts for it. -/
def advanceCheckpoint (snapshot : SupervisorSnapshot)
    (state : Option SupervisorRecoveryCheckpoint × Bool) (event : EventEnvelope) :
    Except StorageError (Option SupervisorRecoveryCheckpoint × Bool) := do
  validateEvent event
  if event.goalId ≠ some (.uuid snapshot.graph.goalId) then
    .error (.supervisorGoalMismatch event.goalId snapshot.graph.goalId)
  else if state.1.any (event.monotonicSequence ≤ ·.lastSequence) then return state
  else do
    let checkpoint ← evolveSupervisorCheckpoint state.1 snapshot event
    return (some checkpoint, true)

/-- `events.sort_by_key(|event| event.monotonic_sequence)`, which is stable. -/
def sortedBySequence (events : List EventEnvelope) : List EventEnvelope :=
  events.insertionSort (·.monotonicSequence ≤ ·.monotonicSequence)

/-- What an update makes of the row of its goal. -/
def updatedRow (row : Option SupervisorRecoveryCheckpoint) (update : SupervisorCheckpointUpdate) :
    Except StorageError SupervisorRecoveryCheckpoint := do
  let (checkpoint, advanced) ←
    (sortedBySequence update.events).foldlM (advanceCheckpoint update.snapshot) (row, false)
  let checkpoint := checkpoint.getD (.bare update.snapshot false)
  return if advanced || update.events.isEmpty then { checkpoint with snapshot := update.snapshot }
    else checkpoint

/-- One update of a batch. -/
def saveCheckpointUpdate (rows : Checkpoints) (update : SupervisorCheckpointUpdate) :
    Except StorageError Checkpoints := do
  let goalId := update.snapshot.graph.goalId
  let row ← updatedRow rows[goalId]? update
  return rows.insert goalId row

/-- Atomically advance supervisor recovery checkpoints over events that were already
appended to the event log. -/
def saveSupervisorCheckpointUpdates (rows : Checkpoints)
    (updates : List SupervisorCheckpointUpdate) : Except StorageError Checkpoints :=
  updates.foldlM saveCheckpointUpdate rows

/-- Atomically persist a durable task supervisor snapshot. -/
def saveSupervisorSnapshot (rows : Checkpoints) (snapshot : SupervisorSnapshot) : Checkpoints :=
  rows.insert snapshot.graph.goalId <|
    match rows[snapshot.graph.goalId]? with
    | none => .bare snapshot false
    | some checkpoint => { checkpoint with snapshot := snapshot }

end PersonalAgent.Storage
