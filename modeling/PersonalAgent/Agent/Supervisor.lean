/-
# The durable supervisor

`DurableSupervisor` of `crates/agent/src/lib.rs`, lines 240 to 827: the snapshot
it persists, how one is started over a graph or recovered from a snapshot, and its
operations, each under the source's name.

A method that takes `&mut self` and may fail returns the supervisor after it, or
the error; in the source every error return of such a method precedes its first
write, so an error leaves the supervisor as it was.  Seven of the methods look a
task up, refuse it unless its status is one of a few, rewrite it and may drop it
from the running lane: they are `transition` at their own values.

`dependenciesCompleted` indexes the task map in the source and would panic on an
edge from a task that is not there; `validate` has refused such graphs, so the
model reads a missing dependency as one that is not completed.
-/

import PersonalAgent.Agent.Task

namespace PersonalAgent.Agent

/-- Durable record for a consequential effect. -/
structure EffectReceipt where
  idempotencyKey : String
  taskId : Uuid
  effectFingerprint : String
  verified : Bool
  completedAt : DateTime
  deriving DecidableEq

/-- Persistable supervisor state. -/
structure SupervisorSnapshot where
  schemaVersion : ℕ
  graph : TaskGraph
  receipts : BTreeMap String EffectReceipt
  runningOrder : List Uuid
  elapsedVirtualSeconds : ℕ

/-- Scheduler decisions are explicit and can be persisted before execution. -/
inductive ScheduleDecision where
  | start (taskId : Uuid) (attempt : ℕ)
  | waitForDependencies (taskId : Uuid)
  | waitForApproval (taskId : Uuid) (reason : String)
  | alreadyCompleted (taskId : Uuid)
  deriving DecidableEq, Repr

/-- Crash-safe task supervisor with bounded parallelism and delegation depth. -/
structure DurableSupervisor where
  snapshot : SupervisorSnapshot
  maximumParallelism : ℕ
  maximumDelegationDepth : ℕ

def isConsequential (task : Task) : Bool :=
  task.risk = "consequential" || task.risk = "irreversible"

def retrySafe (task : Task) : Bool :=
  !isConsequential task || task.idempotencyKey.isSome

def zoneRank : ExecutionZone → ℕ
  | .isolated => 0
  | .workspace => 1
  | .desktop => 2

/-- `u16::saturating_add(1)`. -/
def nextAttempt (attempt : ℕ) : ℕ := min (attempt + 1) 65535

/-- The two scheduler bounds, as `new` and `validate_scheduler_bounds` check them. -/
def checkSchedulerBounds (maximumParallelism maximumDelegationDepth : ℕ) : Except PlanError Unit :=
  if ¬(1 ≤ maximumParallelism ∧ maximumParallelism ≤ 8) then
    .error (.invalidSnapshot "parallelism must be between one and eight")
  else if maximumDelegationDepth = 0 then
    .error (.invalidSnapshot "delegation depth must be at least one")
  else .ok ()

namespace DurableSupervisor

/-- `self.snapshot.graph.tasks`. -/
def tasks (s : DurableSupervisor) : BTreeMap Uuid Task := s.snapshot.graph.tasks

/-- `self.snapshot.running_order`. -/
def runningOrder (s : DurableSupervisor) : List Uuid := s.snapshot.runningOrder

variable (s : DurableSupervisor)

def withTasks (tasks : BTreeMap Uuid Task) : DurableSupervisor :=
  { s with snapshot := { s.snapshot with graph := { s.snapshot.graph with tasks := tasks } } }

def withTask (taskId : Uuid) (task : Task) : DurableSupervisor :=
  s.withTasks (s.tasks.insert taskId task)

/-- The supervisor with its running lane replaced. -/
def withLane (lane : List Uuid) : DurableSupervisor :=
  { s with snapshot := { s.snapshot with runningOrder := lane } }

def withReceipts (receipts : BTreeMap String EffectReceipt) :
    DurableSupervisor :=
  { s with snapshot := { s.snapshot with receipts := receipts } }

/-- `running_order.retain(|id| *id != task_id)`. -/
def retain (taskId : Uuid) (lane : List Uuid) : List Uuid := lane.filter (· ≠ taskId)

section Start

variable [Petgraph]

/-- Start supervising a validated graph. -/
def new (graph : TaskGraph) (maximumParallelism maximumDelegationDepth : ℕ) :
    Except PlanError DurableSupervisor := do
  graph.validate
  checkSchedulerBounds maximumParallelism maximumDelegationDepth
  return {
    snapshot := {
      schemaVersion := 1
      graph := graph
      receipts := ∅
      runningOrder := []
      elapsedVirtualSeconds := 0 }
    maximumParallelism := maximumParallelism
    maximumDelegationDepth := maximumDelegationDepth }

/-- What recovery makes of one in-flight task: a verified receipt under its key
completes it, retry-safe work with attempts left is queued again, and anything else
waits. -/
def recoveredTask (receipts : BTreeMap String EffectReceipt) (task : Task) : Task :=
  let receipt := task.idempotencyKey.bind fun key => receipts[key]?
  if receipt.any (·.verified) then { task with status := .completed, progress := 100 }
  else if retrySafe task && task.attempt < task.maxAttempts then { task with status := .queued }
  else { task with status := .waiting }

/-- One turn of the recovery loop over the persisted running order. -/
def recoverTask (receipts : BTreeMap String EffectReceipt) (tasks : BTreeMap Uuid Task)
    (taskId : Uuid) : Except PlanError (BTreeMap Uuid Task) :=
  match tasks[taskId]? with
  | none => .error (.missingTask taskId)
  | some task =>
    if task.status ≠ .running then
      .error (.invalidSnapshot s!"running order references non-running task {taskId}")
    else .ok (tasks.insert taskId (recoveredTask receipts task))

/-- Recover a persisted snapshot.  In-flight tasks are re-queued only when
retry-safe; a verified receipt marks their effect complete instead. -/
def recover (snapshot : SupervisorSnapshot) (maximumParallelism maximumDelegationDepth : ℕ) :
    Except PlanError DurableSupervisor :=
  if snapshot.schemaVersion ≠ 1 then
    let version := snapshot.schemaVersion
    .error (.invalidSnapshot s!"unsupported schema version {version}")
  else do
    snapshot.graph.validate
    let tasks ← snapshot.runningOrder.foldlM (recoverTask snapshot.receipts) snapshot.graph.tasks
    checkSchedulerBounds maximumParallelism maximumDelegationDepth
    return {
      snapshot := {
        snapshot with
        graph := { snapshot.graph with tasks := tasks }
        runningOrder := [] }
      maximumParallelism := maximumParallelism
      maximumDelegationDepth := maximumDelegationDepth }

end Start

def dependenciesCompleted (taskId : Uuid) : Bool :=
  (s.snapshot.graph.edges.filter (·.2 = taskId)).all fun edge =>
    (s.tasks[edge.1]?).any (·.status = .completed)

/-- Return ready tasks in stable ID order, limited by available worker slots. -/
def readyTasks : List Uuid :=
  let running := (s.tasks.toList.filter (·.2.status = .running)).length
  let available := s.maximumParallelism - running
  ((s.tasks.toList.filter fun entry =>
    entry.2.status = .queued && s.dependenciesCompleted entry.1).map (·.1)).take available

/-- Persistable transition into running state. -/
def start (s : DurableSupervisor) (taskId : Uuid) :
    Except PlanError (DurableSupervisor × ScheduleDecision) :=
  match s.tasks[taskId]? with
  | none => .error (.missingTask taskId)
  | some task =>
    if task.status = .completed then .ok (s, .alreadyCompleted taskId)
    else if !s.dependenciesCompleted taskId then .ok (s, .waitForDependencies taskId)
    else if task.status ≠ .queued then .error (.taskNotReady taskId)
    else if task.attempt ≥ task.maxAttempts then .error (.attemptsExhausted taskId)
    else if isConsequential task && task.idempotencyKey.isNone then
      .error (.missingIdempotencyKey taskId)
    else if s.runningOrder.length ≥ s.maximumParallelism then .error (.taskNotReady taskId)
    else
      let attempt := nextAttempt task.attempt
      .ok ((s.withTask taskId { task with attempt := attempt, status := .running }).withLane
        (s.runningOrder ++ [taskId]), .start taskId attempt)

/-- The receipts after a completion, or why they refuse it: a key that already
carries a receipt must carry this task's, for this effect. -/
def receipted (taskId : Uuid) (task : Task)
    (effectFingerprint : Option String) (now : DateTime) :
    Except PlanError (BTreeMap String EffectReceipt) :=
  if isConsequential task then
    match task.idempotencyKey, effectFingerprint with
    | none, _ => .error (.missingIdempotencyKey taskId)
    | some _, none => .error (.invalidSnapshot "consequential completion needs a fingerprint")
    | some key, some fingerprint =>
      match s.snapshot.receipts[key]? with
      | some existing =>
        if existing.effectFingerprint ≠ fingerprint || existing.taskId ≠ taskId then
          .error (.invalidSnapshot "idempotency key was reused for a different effect")
        else .ok s.snapshot.receipts
      | none => .ok (s.snapshot.receipts.insert key {
          idempotencyKey := key
          taskId := taskId
          effectFingerprint := fingerprint
          verified := true
          completedAt := now })
  else .ok s.snapshot.receipts

/-- Complete a task only after its result has been verified.  Consequential
effects atomically carry a deduplication receipt in the next snapshot. -/
def complete (taskId : Uuid) (output : Value) (verified : Bool)
    (effectFingerprint : Option String) (now : DateTime) : Except PlanError DurableSupervisor :=
  match s.tasks[taskId]? with
  | none => .error (.missingTask taskId)
  | some task =>
    if task.status ≠ .running || !verified then .error (.taskNotReady taskId)
    else do
      let receipts ← s.receipted taskId task effectFingerprint now
      return (((s.withReceipts receipts).withTask taskId
        { task with output := some output, progress := 100, status := .completed }).withLane
          (retain taskId s.runningOrder))

/-- The common shape of the one-task transitions: look the task up, refuse it
unless its status is allowed, rewrite it, and pass the running lane through `lane`. -/
def transition (taskId : Uuid) (allowed : WorkStatus → Bool)
    (rewrite : Task → Task) (lane : List Uuid → List Uuid) : Except PlanError DurableSupervisor :=
  match s.tasks[taskId]? with
  | none => .error (.missingTask taskId)
  | some task =>
    if allowed task.status then
      .ok ((s.withTask taskId (rewrite task)).withLane (lane s.runningOrder))
    else .error (.taskNotReady taskId)

/-- Handle provider/process failure.  Only retry-safe work returns to the queue. -/
def providerFailed (taskId : Uuid) : Except PlanError DurableSupervisor :=
  s.transition taskId (· = .running)
    (fun task => { task with
      status := if retrySafe task && task.attempt < task.maxAttempts then .queued else .waiting })
    (retain taskId)

/-- Persist a runtime checkpoint/session identifier for restart-safe supervision. -/
def bindCheckpoint (taskId : Uuid) (checkpointId : String) :
    Except PlanError DurableSupervisor :=
  s.transition taskId (fun status => status = .running || status = .waiting)
    (fun task => { task with checkpointId := some checkpointId }) id

/-- Suspend one running task while a native approval is outstanding. -/
def waitForApproval (s : DurableSupervisor) (taskId : Uuid) (reason : String) :
    Except PlanError (DurableSupervisor × ScheduleDecision) := do
  let s ← s.transition taskId (· = .running) (fun task => { task with status := .waiting })
    (retain taskId)
  return (s, .waitForApproval taskId reason)

/-- Return an approval-suspended task to the same live runtime turn. -/
def resumeAfterApproval (taskId : Uuid) :
    Except PlanError DurableSupervisor :=
  match s.tasks[taskId]? with
  | none => .error (.missingTask taskId)
  | some task =>
    if task.status ≠ .waiting || s.runningOrder.length ≥ s.maximumParallelism then
      .error (.taskNotReady taskId)
    else
      .ok ((s.withTask taskId { task with status := .running }).withLane
        (s.runningOrder ++ [taskId]))

/-- Pause one non-terminal task without losing attempts or checkpoints. -/
def pause (taskId : Uuid) : Except PlanError DurableSupervisor :=
  s.transition taskId
    (fun status => !(status = .completed || status = .failed || status = .cancelled))
    (fun task => { task with status := .paused }) (retain taskId)

/-- Resume one explicitly paused task into the durable queue. -/
def resume (taskId : Uuid) : Except PlanError DurableSupervisor :=
  s.transition taskId (· = .paused) (fun task => { task with status := .queued }) id

/-- Cancel one non-terminal task and remove it from the running lane. -/
def cancel (taskId : Uuid) : Except PlanError DurableSupervisor :=
  s.transition taskId (fun status => !(status = .completed || status = .cancelled))
    (fun task => { task with status := .cancelled }) (retain taskId)

/-- Retry failed or safely suspended work without resetting its attempt counter. -/
def retry (s : DurableSupervisor) (taskId : Uuid) : Except PlanError DurableSupervisor :=
  match s.tasks[taskId]? with
  | none => .error (.missingTask taskId)
  | some task =>
    if !(task.status = .failed || task.status = .waiting) || task.attempt ≥ task.maxAttempts then
      .error (if task.attempt ≥ task.maxAttempts then .attemptsExhausted taskId
        else .taskNotReady taskId)
    else .ok (s.withTask taskId { task with status := .queued, checkpointId := none })

/-- Mark an active task as terminally failed so retry remains an explicit UI action. -/
def fail (taskId : Uuid) (output : Value) :
    Except PlanError DurableSupervisor :=
  s.transition taskId (fun status => status = .running || status = .waiting)
    (fun task => { task with status := .failed, output := some output }) (retain taskId)

/-- Pause every non-terminal node in a goal graph. -/
def pauseAll : DurableSupervisor :=
  (s.withTasks (s.tasks.map fun _ task =>
    if task.status = .completed || task.status = .failed || task.status = .cancelled then task
    else { task with status := .paused })).withLane []

/-- Resume every task explicitly paused with its goal. -/
def resumeAll : DurableSupervisor :=
  s.withTasks (s.tasks.map fun _ task =>
    if task.status = .paused then { task with status := .queued } else task)

/-- Cancel every unfinished node in a goal graph. -/
def cancelAll : DurableSupervisor :=
  (s.withTasks (s.tasks.map fun _ task =>
    if task.status = .completed || task.status = .cancelled then task
    else { task with status := .cancelled })).withLane []

/-- Pause active background tasks for the priority user lane. -/
def preemptForUser : DurableSupervisor :=
  (s.withTasks (s.runningOrder.foldl
    (fun tasks taskId => tasks.modify taskId fun task => { task with status := .paused })
    s.tasks)).withLane []

/-- Advance only the testable/scheduler clock; the counter is a `u64` and saturates. -/
def advanceVirtualTime (seconds : ℕ) : DurableSupervisor :=
  { s with snapshot := { s.snapshot with
      elapsedVirtualSeconds := min (s.snapshot.elapsedVirtualSeconds + seconds) (2 ^ 64 - 1) } }

/-- The walk up the `parent_task_id` links that counts a delegation's depth.  The
loop of the source has no bound of its own; `none` says that `fuel` turns were not
enough. -/
def delegationDepth (s : DurableSupervisor) : ℕ → ℕ → Option Uuid →
    Option (Except PlanError ℕ)
  | _, depth, none => some (.ok depth)
  | 0, _, some _ => none
  | fuel + 1, depth, some id =>
    match s.tasks[id]? with
    | none => some (.error (.missingTask id))
    | some task => s.delegationDepth fuel (depth + 1) task.parentTaskId

/-- Validate that delegated work cannot widen authority or execution zone.  A walk
that has made more turns than there are tasks has met a task twice and never ends:
`none` is that divergence. -/
def validateDelegation (child : Task) : Option (Except PlanError Unit) :=
  match child.parentTaskId with
  | none => some (.ok ())
  | some parentId =>
    match s.tasks[parentId]? with
    | none => some (.error (.missingTask parentId))
    | some parent =>
      if ¬child.toolScopes ⊆ parent.toolScopes then
        some (.error (.authorityWidening child.id "tool scopes exceed parent"))
      else if zoneRank child.executionZone > zoneRank parent.executionZone then
        some (.error (.authorityWidening child.id "execution zone exceeds parent"))
      else (s.delegationDepth (s.tasks.size + 1) 1 parent.parentTaskId).map fun walk => do
        let depth ← walk
        if depth > s.maximumDelegationDepth then
          .error (.authorityWidening child.id "delegation depth exceeded")
        else .ok ()

end DurableSupervisor
end PersonalAgent.Agent
