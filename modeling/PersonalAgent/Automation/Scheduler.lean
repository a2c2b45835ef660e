/-
# The automation scheduler

`crates/automation/src/lib.rs`: stored automations, their runs, and the operations on both.
The scheduler is its snapshot.  An operation takes `&mut self` and may fail after it has
written, so each returns the snapshot with its result; what it draws (`Uuid::now_v7`) and the
time it reads (`Utc::now`) are arguments.

`evaluate` can end in a third way.  `Duration::seconds` panics for an interval that `upsert`
accepts (`durationSeconds`), in the middle of the loop over the automations; `Fault.panicked`
is that end, and the snapshot returned with it is the one the loop had reached.
-/

import PersonalAgent.Automation.Clock
import PersonalAgent.Core.Usage

namespace PersonalAgent
namespace Automation

/-! ### Definitions and runs -/

/-- Supported trigger families. -/
inductive Trigger where
  | once (time : Instant)
  | interval (seconds : ℕ)
  | cron (expression : String)
  | fileChange (path : String)
  | directoryChange (path : String)
  | calendarEvent (connectorId : String)
  | emailEvent (connectorId : String)
  | connectorEvent (connectorId event : String)
  | webhook (id : String)
  | systemHealth (metric : String) (threshold : F64)
  | heartbeat (seconds : ℕ)
  | networkChange
  | deviceChange (deviceKind : String)
  | semanticMonitor (sourceId query : String)
  deriving DecidableEq

/-- What to do after the application was unavailable for a scheduled run. -/
inductive MissedRunPolicy where
  | skip
  | runOnce
  | catchUpBounded
  deriving DecidableEq

/-- Stored automation. -/
structure Automation where
  id : Uuid
  name : String
  goalTemplate : String
  trigger : Trigger
  enabled : Bool
  maxConcurrency : ℕ
  missedRunPolicy : MissedRunPolicy
  consecutiveFailures : ℕ
  pauseAfterFailures : ℕ
  previousState : Option Value
  nextDueAt : Option Instant
  maximumCatchUpRuns : ℕ
  quietHoursUtc : Option (ℕ × ℕ)
  notificationRoute : String

namespace Automation

def recordFailure (automation : Automation) : Automation :=
  let failures := min (automation.consecutiveFailures + 1) 255
  { automation with
    consecutiveFailures := failures
    enabled := automation.enabled && !decide (automation.pauseAfterFailures ≤ failures) }

def recordSuccess (automation : Automation) (state : Option Value) : Automation :=
  { automation with consecutiveFailures := 0, previousState := state }

end Automation

/-- Automation run lifecycle; approval is a suspension, not a failure. -/
inductive AutomationRunStatus where
  | queued
  | running
  | waitingApproval
  | pausedForUser
  | completed
  | failed
  | skipped
  deriving DecidableEq

/-- One durable run. -/
structure AutomationRun where
  id : Uuid
  automationId : Uuid
  scheduleKey : String
  scheduledFor : Instant
  status : AutomationRunStatus
  attempt : ℕ
  approvalReason : Option String
  startedAt : Option Instant
  finishedAt : Option Instant
  resultSummary : Option String
  runtimeSessionId : Option String
  runtimeRequestId : Option String
  deriving DecidableEq

/-- External trigger event normalized before it enters the scheduler. -/
inductive TriggerEvent where
  | fileChange (path : String)
  | directoryChange (path : String)
  | calendar (connectorId : String)
  | email (connectorId : String)
  | connector (connectorId event : String)
  | webhook (id : String)
  | networkChange
  | deviceChange (deviceKind : String)
  | semanticChange (sourceId query : String)
  deriving DecidableEq

/-- Persistable scheduler state. -/
structure SchedulerSnapshot where
  automations : BTreeMap Uuid Automation := ∅
  runs : BTreeMap String AutomationRun := ∅
  lastEvaluatedAt : Option Instant := none

/-- Scheduler validation or transition error. -/
inductive SchedulerError where
  | missingAutomation (id : Uuid)
  | missingRun (key : String)
  | invalidTrigger (reason : String)
  | invalidLimits
  | invalidTransition
  deriving DecidableEq

/-- Why an operation did not return a value. -/
inductive Fault where
  | returned (error : SchedulerError)
  | panicked
  deriving DecidableEq

/-! ### Triggers -/

/-- `str::split_whitespace`. -/
def splitWhitespace (s : String) : List String :=
  ((s.toList.splitOnP Core.isWhitespace).filter (· ≠ [])).map String.ofList

/-- `str::parse::<u64>`. -/
def parseU64 (s : String) : Option ℕ :=
  let digits := match s.toList with
    | '+' :: rest => rest
    | chars => chars
  if digits.isEmpty || !digits.all Char.isDigit then none
  else
    let value := digits.foldl (fun n c => 10 * n + (c.toNat - '0'.toNat)) 0
    if value < 2 ^ 64 then some value else none

def parseCronInterval (expression : String) : Except SchedulerError ℕ :=
  match splitWhitespace expression with
  | [minutes, "*", "*", "*", "*"] =>
    match (Core.stripped "*/" minutes).bind parseU64 with
    | none => .error (.invalidTrigger "invalid cron minute interval")
    | some minutes =>
      if minutes = 0 then .error (.invalidTrigger "invalid cron minute interval")
      else if minutes * 60 < 2 ^ 64 then .ok (minutes * 60)
      else .error (.invalidTrigger "cron interval overflow")
  | _ =>
    .error (.invalidTrigger "cron currently requires a five-field */N * * * * expression")

def validateTrigger : Trigger → Except SchedulerError Unit
  | .interval 0 | .heartbeat 0 => .error (.invalidTrigger "interval must be greater than zero")
  | .cron expression => (parseCronInterval expression).map fun _ => ()
  | _ => .ok ()

def triggerIntervalSeconds : Trigger → Except SchedulerError (Option ℕ)
  | .interval seconds | .heartbeat seconds => .ok (some seconds)
  | .cron expression => (parseCronInterval expression).map some
  | _ => .ok none

def eventMatches : Trigger → TriggerEvent → Bool
  | .fileChange expected, .fileChange path
  | .directoryChange expected, .directoryChange path => expected == path
  | .calendarEvent expected, .calendar connectorId
  | .emailEvent expected, .email connectorId => expected == connectorId
  | .connectorEvent expectedId expectedEvent, .connector connectorId event =>
    expectedId == connectorId && expectedEvent == event
  | .webhook expected, .webhook id => expected == id
  | .networkChange, .networkChange => true
  | .deviceChange expected, .deviceChange deviceKind => expected == deviceKind
  | .semanticMonitor expectedSource expectedQuery, .semanticChange sourceId query =>
    expectedSource == sourceId && expectedQuery == query
  | _, _ => false

/-! ### Due times -/

variable [ChronoSeconds]

/-- The loop of `due_times`: the times after `cursor`, as long as there is `room`. -/
def catchUp (step : ℕ) (now : Instant) : ℕ → Instant → List Instant
  | 0, _ => []
  | room + 1, cursor =>
    match cursor.checkedAddSigned step with
    | none => []
    | some next => if now < next then [] else next :: catchUp step now room next

def MissedRunPolicy.apply (due : List Instant) :
    MissedRunPolicy → List (Instant × AutomationRunStatus)
  | .skip => due.map (·, .skipped)
  | .runOnce => due.getLast?.toList.map (·, .queued)
  | .catchUpBounded => due.map (·, .queued)

def dueTimes (automation : Automation) (first now : Instant) :
    Option ℕ → Except Fault (List (Instant × AutomationRunStatus))
  | none => .ok (automation.missedRunPolicy.apply [first])
  | some seconds =>
    match durationSeconds seconds with
    | none => .error .panicked
    | some step => .ok (automation.missedRunPolicy.apply
        (first :: catchUp step now (automation.maximumCatchUpRuns - 1) first))

def nextDueAfter (now : Instant) (interval : Option ℕ) :
    Trigger → Except Fault (Option Instant)
  | .once _ => .ok none
  | _ =>
    match interval with
    | none => .ok none
    | some seconds =>
      match durationSeconds seconds with
      | none => .error .panicked
      | some step => .ok (now.checkedAddSigned step)

/-! ### Keys and new runs -/

def scheduleKey (id : Uuid) (time : Instant) : String :=
  s!"{id.spelling}:{time.timestampMillis}"

/-- The key of a run for an external event. -/
def eventKey (id : Uuid) (now : Instant) : String :=
  s!"{id.spelling}:event:{now.timestampMillis}"

/-- The key of a run the user asked for, with the UUID drawn for it. -/
def manualKey (id : Uuid) (now : Instant) (nonce : Uuid) : String :=
  s!"{id.spelling}:manual:{now.timestampMillis}:{nonce.spelling}"

/-- A run as `evaluate`, `trigger_event` and `run_now` make it. -/
def AutomationRun.new (id automationId : Uuid) (key : String) (scheduledFor : Instant)
    (status : AutomationRunStatus) : AutomationRun where
  id := id
  automationId := automationId
  scheduleKey := key
  scheduledFor := scheduledFor
  status := status
  attempt := 0
  approvalReason := none
  startedAt := none
  finishedAt := none
  resultSummary := none
  runtimeSessionId := none
  runtimeRequestId := none

variable (s : SchedulerSnapshot)

namespace SchedulerSnapshot

/-! ### Definitions -/

def upsert (automation : Automation) :
    SchedulerSnapshot × Except SchedulerError Unit :=
  if automation.maxConcurrency = 0 ∨ automation.pauseAfterFailures = 0 ∨
      automation.maximumCatchUpRuns = 0 then
    (s, .error .invalidLimits)
  else
    match validateTrigger automation.trigger with
    | .error error => (s, .error error)
    | .ok () => ({ s with automations := s.automations.insert automation.id automation }, .ok ())

def setEnabled (automationId : Uuid) (enabled : Bool) :
    SchedulerSnapshot × Except SchedulerError Unit :=
  match s.automations[automationId]? with
  | none => (s, .error (.missingAutomation automationId))
  | some automation =>
    let automation := { automation with enabled := enabled }
    ({ s with automations := s.automations.insert automationId automation }, .ok ())

def remove (automationId : Uuid) :
    SchedulerSnapshot × Except SchedulerError Unit :=
  match s.automations[automationId]? with
  | none => (s, .error (.missingAutomation automationId))
  | some _ =>
    ({ s with
        automations := s.automations.erase automationId
        runs := s.runs.filter fun _ run => run.automationId != automationId }, .ok ())

/-! ### Enqueueing -/

variable (draw : String → Uuid)

/-- The body of the inner loop of `evaluate`, for one due time of automation `id`. -/
def enqueue (id : Uuid)
    (acc : BTreeMap String AutomationRun × List String) (due : Instant × AutomationRunStatus) :
    BTreeMap String AutomationRun × List String :=
  let key := scheduleKey id due.1
  if acc.1.contains key then acc
  else (acc.1.insert key (.new (draw key) id key due.1 due.2),
    if due.2 = .queued then acc.2 ++ [key] else acc.2)

/-- The body of the loop of `evaluate`, for one automation. -/
def evaluateAutomation (now : Instant) (s : SchedulerSnapshot)
    (queued : List String) (id : Uuid) : SchedulerSnapshot × Except Fault (List String) :=
  match s.automations[id]? with
  | none => (s, .error (.returned (.missingAutomation id)))
  | some automation =>
    if !automation.enabled then (s, .ok queued)
    else match automation.nextDueAt with
    | none => (s, .ok queued)
    | some nextDue =>
      if now < nextDue then (s, .ok queued)
      else match triggerIntervalSeconds automation.trigger with
      | .error error => (s, .error (.returned error))
      | .ok interval =>
        match dueTimes automation nextDue now interval with
        | .error fault => (s, .error fault)
        | .ok due =>
          let enqueued := due.foldl (enqueue draw id) (s.runs, queued)
          let s := { s with runs := enqueued.1 }
          match nextDueAfter now interval automation.trigger with
          | .error fault => (s, .error fault)
          | .ok next =>
            let stored := { automation with
              nextDueAt := next
              enabled := match automation.trigger with
                | .once _ => false
                | _ => automation.enabled }
            ({ s with automations := s.automations.insert id stored }, .ok enqueued.2)

/-- The loop of `evaluate`. -/
def evaluateAll (draw : String → Uuid) (now : Instant) :
    SchedulerSnapshot → List String → List Uuid → SchedulerSnapshot × Except Fault (List String)
  | s, queued, [] => (s, .ok queued)
  | s, queued, id :: ids =>
    match s.evaluateAutomation draw now queued id with
    | (s, .error fault) => (s, .error fault)
    | (s, .ok queued) => evaluateAll draw now s queued ids

def evaluate (now : Instant) :
    SchedulerSnapshot × Except Fault (List String) :=
  match evaluateAll draw now s [] s.automations.keys with
  | (s, .error fault) => (s, .error fault)
  | (s, .ok queued) => ({ s with lastEvaluatedAt := some now }, .ok queued)

/-- The body of the loop of `trigger_event`. -/
def triggerAutomation (event : TriggerEvent) (now : Instant)
    (acc : BTreeMap String AutomationRun × List String) (automation : Automation) :
    BTreeMap String AutomationRun × List String :=
  if !automation.enabled || !eventMatches automation.trigger event then acc
  else
    let key := eventKey automation.id now
    if acc.1.contains key then acc
    else (acc.1.insert key (.new (draw key) automation.id key now .queued), acc.2 ++ [key])

def triggerEvent (event : TriggerEvent)
    (now : Instant) : SchedulerSnapshot × List String :=
  let triggered := (s.automations.toList.map Prod.snd).foldl (triggerAutomation draw event now)
    (s.runs, [])
  ({ s with runs := triggered.1 }, triggered.2)

/-- `nonce` is the UUID drawn for the key. -/
def runNow (automationId : Uuid) (now : Instant)
    (nonce : Uuid) : SchedulerSnapshot × Except SchedulerError String :=
  if !s.automations.contains automationId then
    (s, .error (.missingAutomation automationId))
  else
    let key := manualKey automationId now nonce
    ({ s with runs := s.runs.insert key (.new (draw key) automationId key now .queued) }, .ok key)

/-! ### Runs -/

def runningRuns (automationId : Uuid) : BTreeMap String AutomationRun :=
  s.runs.filter fun _ run => run.automationId == automationId && run.status == .running

def start (key : String) (clock : Instant) :
    SchedulerSnapshot × Except SchedulerError Unit :=
  match s.runs[key]? with
  | none => (s, .error (.missingRun key))
  | some run =>
    match s.automations[run.automationId]? with
    | none => (s, .error (.missingAutomation run.automationId))
    | some automation =>
      if automation.maxConcurrency ≤ (s.runningRuns run.automationId).size then
        (s, .error .invalidLimits)
      else if run.status ≠ .queued then (s, .error .invalidTransition)
      else
        ({ s with runs := s.runs.insert key { run with
            status := .running
            attempt := min (run.attempt + 1) 65535
            startedAt := some clock
            finishedAt := none
            resultSummary := none } }, .ok ())

def onRun (key : String) (allowed : List AutomationRunStatus)
    (change : AutomationRun → AutomationRun) : SchedulerSnapshot × Except SchedulerError Unit :=
  match s.runs[key]? with
  | none => (s, .error (.missingRun key))
  | some run =>
    if run.status ∈ allowed then
      ({ s with runs := s.runs.insert key (change run) }, .ok ())
    else (s, .error .invalidTransition)

def waitForApproval (key reason : String) :
    SchedulerSnapshot × Except SchedulerError Unit :=
  s.onRun key [.running] fun run =>
    { run with status := .waitingApproval, approvalReason := some reason }

def bindApproval (key sessionId requestId reason : String) :
    SchedulerSnapshot × Except SchedulerError Unit :=
  if (Core.trim sessionId).isEmpty || (Core.trim requestId).isEmpty then
    (s, .error .invalidTransition)
  else
    match s.waitForApproval key reason with
    | (s, .error error) => (s, .error error)
    | (s, .ok ()) =>
      match s.runs[key]? with
      | none => (s, .error (.missingRun key))
      | some run =>
        ({ s with runs := s.runs.insert key { run with
            runtimeSessionId := some sessionId, runtimeRequestId := some requestId } }, .ok ())

def bindRuntimeSession (key sessionId : String) :
    SchedulerSnapshot × Except SchedulerError Unit :=
  if (Core.trim sessionId).isEmpty then (s, .error .invalidTransition)
  else s.onRun key [.running] fun run => { run with runtimeSessionId := some sessionId }

def approve (key : String) :
    SchedulerSnapshot × Except SchedulerError Unit :=
  s.onRun key [.waitingApproval] fun run =>
    { run with status := .queued, approvalReason := none }

def resumeAfterApproval (key : String) :
    SchedulerSnapshot × Except SchedulerError Unit :=
  s.onRun key [.waitingApproval] fun run =>
    { run with status := .running, approvalReason := none, runtimeRequestId := none }

/-- A change to a run, and then to its automation: the run has been written when the
automation turns out to be missing. -/
def onRunAndAutomation (key : String)
    (allowed : List AutomationRunStatus) (change : AutomationRun → AutomationRun)
    (record : Automation → Automation) : SchedulerSnapshot × Except SchedulerError Unit :=
  match s.runs[key]? with
  | none => (s, .error (.missingRun key))
  | some run =>
    if run.status ∈ allowed then
      let s := { s with runs := s.runs.insert key (change run) }
      match s.automations[run.automationId]? with
      | none => (s, .error (.missingAutomation run.automationId))
      | some automation =>
        ({ s with automations := s.automations.insert run.automationId (record automation) },
          .ok ())
    else (s, .error .invalidTransition)

def finish (key : String) (success : Bool)
    (previousState : Option Value) (clock : Instant) :
    SchedulerSnapshot × Except SchedulerError Unit :=
  s.onRunAndAutomation key [.running]
    (fun run => { run with
      status := if success then .completed else .failed
      finishedAt := some clock
      runtimeRequestId := none })
    fun automation =>
      if success then automation.recordSuccess previousState else automation.recordFailure

/-- `summary.chars().take(4_096)`. -/
def boundedSummary (summary : String) : String := String.ofList (summary.toList.take 4096)

def setResultSummary (key summary : String) :
    SchedulerSnapshot × Except SchedulerError Unit :=
  s.onRun key [.completed, .failed] fun run =>
    { run with resultSummary := some (boundedSummary summary) }

def failActive (key summary : String) (clock : Instant) :
    SchedulerSnapshot × Except SchedulerError Unit :=
  s.onRunAndAutomation key [.running, .waitingApproval]
    (fun run => { run with
      status := .failed
      finishedAt := some clock
      approvalReason := none
      runtimeRequestId := none
      resultSummary := some (boundedSummary summary) })
    (·.recordFailure)

/-- What a restart of the host makes of a run. -/
def recovered (run : AutomationRun) : AutomationRun :=
  if run.status ∈ [AutomationRunStatus.running, .waitingApproval] then
    { run with
      status := .pausedForUser
      approvalReason :=
        some "The desktop host restarted during this run. Review it and run again."
      runtimeSessionId := none
      runtimeRequestId := none }
  else run

def recoverAfterRestart : SchedulerSnapshot × ℕ :=
  ({ s with runs := s.runs.map fun _ => recovered },
    (s.runs.filter fun _ run =>
      run.status ∈ [AutomationRunStatus.running, .waitingApproval]).size)

/-- What a foreground conversation makes of a run. -/
def preempted (run : AutomationRun) : AutomationRun :=
  if run.status = .running then { run with status := .pausedForUser } else run

def preemptForUser (s : SchedulerSnapshot) : SchedulerSnapshot :=
  { s with runs := s.runs.map fun _ => preempted }

end SchedulerSnapshot

/-! ### Operations -/

/-- A call of the scheduler, with what it draws and the time it reads. -/
inductive SchedulerOp where
  | upsert (automation : Automation)
  | evaluate (draw : String → Uuid) (now : Instant)
  | triggerEvent (draw : String → Uuid) (event : TriggerEvent) (now : Instant)
  | runNow (draw : String → Uuid) (automationId : Uuid) (now : Instant) (nonce : Uuid)
  | setEnabled (automationId : Uuid) (enabled : Bool)
  | remove (automationId : Uuid)
  | start (key : String) (clock : Instant)
  | waitForApproval (key reason : String)
  | bindApproval (key sessionId requestId reason : String)
  | bindRuntimeSession (key sessionId : String)
  | approve (key : String)
  | resumeAfterApproval (key : String)
  | finish (key : String) (success : Bool) (previousState : Option Value) (clock : Instant)
  | setResultSummary (key summary : String)
  | failActive (key summary : String) (clock : Instant)
  | recoverAfterRestart
  | preemptForUser
  /-- `Scheduler::from_snapshot(scheduler.snapshot().clone())`. -/
  | fromSnapshot

/-- The end of a call that can only fail by an error it returns. -/
def outcome {α : Type} (r : Except SchedulerError α) : Except Fault Unit :=
  match r with
  | .ok _ => .ok ()
  | .error error => .error (.returned error)

namespace SchedulerSnapshot

/-- One call: the snapshot after it and how it ended. -/
def perform : SchedulerOp → SchedulerSnapshot × Except Fault Unit
  | .upsert automation => (s.upsert automation).map id outcome
  | .evaluate draw now => (s.evaluate draw now).map id (·.map fun _ => ())
  | .triggerEvent draw event now => ((s.triggerEvent draw event now).1, .ok ())
  | .runNow draw automationId now nonce =>
    (s.runNow draw automationId now nonce).map id outcome
  | .setEnabled automationId enabled => (s.setEnabled automationId enabled).map id outcome
  | .remove automationId => (s.remove automationId).map id outcome
  | .start key clock => (s.start key clock).map id outcome
  | .waitForApproval key reason => (s.waitForApproval key reason).map id outcome
  | .bindApproval key sessionId requestId reason =>
    (s.bindApproval key sessionId requestId reason).map id outcome
  | .bindRuntimeSession key sessionId => (s.bindRuntimeSession key sessionId).map id outcome
  | .approve key => (s.approve key).map id outcome
  | .resumeAfterApproval key => (s.resumeAfterApproval key).map id outcome
  | .finish key success previousState clock =>
    (s.finish key success previousState clock).map id outcome
  | .setResultSummary key summary => (s.setResultSummary key summary).map id outcome
  | .failActive key summary clock => (s.failActive key summary clock).map id outcome
  | .recoverAfterRestart => (s.recoverAfterRestart.1, .ok ())
  | .preemptForUser => (s.preemptForUser, .ok ())
  | .fromSnapshot => (s, .ok ())

/-- The snapshot after a call. -/
def apply (op : SchedulerOp) : SchedulerSnapshot := (s.perform op).1

end SchedulerSnapshot
end Automation
end PersonalAgent
