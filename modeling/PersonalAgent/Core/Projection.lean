/-
# The application projection

`AppProjection` of `crates/core/src/lib.rs`, lines 60 to 202: the state of the UI that
is derived from the events and nothing else.

`apply` takes `&mut self` and can fail after it has written: the sequence, the profile
and the recent events are updated before the payload is decoded, and an
`approval.resolved` has already taken its approval off.  The model returns the
projection together with the result, so that a failed `apply` shows what it left
behind.
-/

import PersonalAgent.Core.Usage
import PersonalAgent.Migration.Migrate
import PersonalAgent.Storage.EventTable

namespace PersonalAgent.Core

/-- Content-free event summary safe for exact activity rendering. -/
structure ProjectedEvent where
  sequence : ℕ
  eventType : String
  origin : String
  deriving DecidableEq, Repr

/-- Rebuildable UI projection derived exclusively from events. -/
structure AppProjection where
  lastSequence : ℕ := 0
  activeProfile : String := ""
  activeSession : Option String := none
  goalsTotal : ℕ := 0
  tasksRunning : ℕ := 0
  approvalsWaiting : ℕ := 0
  microphoneActive : Bool := false
  runtimeHealthy : Bool := false
  uncleanShutdowns : ℕ := 0
  recoveredUncleanRun : Bool := false
  recentEvents : List ProjectedEvent := []
  deriving DecidableEq, Repr

/-- Composition-root failure. -/
inductive CoreError where
  | storage (error : Storage.StorageError)
  | usage (error : UsageError)
  | event (error : EventError)
  | migration (error : Migration.MigrationError)
  | migrationConfirmationRequired
  | invalidUserMessage
  | sequenceRegression (previous next : ℕ)
  deriving DecidableEq, Repr

namespace AppProjection

/-- The part of `apply` before the event type is looked at. -/
def noted (p : AppProjection) (event : EventEnvelope) : AppProjection :=
  let recent := p.recentEvents ++ [⟨event.monotonicSequence, event.type, event.origin⟩]
  { p with
    lastSequence := event.monotonicSequence
    activeProfile := event.profileId
    recentEvents := if recent.length > 50 then recent.tail else recent }

/-- `event.payload()?` followed by an update: a payload that does not decode leaves
the projection where it was. -/
def onPayload (p : AppProjection) (event : EventEnvelope) (update : Value → AppProjection) :
    AppProjection × Except CoreError Unit :=
  match event.payload with
  | .ok payload => (update payload, .ok ())
  | .error e => (p, .error (.event e))

/-- The transition of the counters for each event type; unknown additive event types
are intentionally ignored. -/
def counted (p : AppProjection) (event : EventEnvelope) : AppProjection × Except CoreError Unit :=
  match event.type with
  | "goal.created" => ({ p with goalsTotal := p.goalsTotal + 1 }, .ok ())
  | "task.started" => ({ p with tasksRunning := p.tasksRunning + 1 }, .ok ())
  | "task.completed" | "task.failed" | "task.cancelled" | "task.paused" =>
    p.onPayload event fun payload => { p with
      tasksRunning :=
        if (payload.boolAt "was_running").getD true then p.tasksRunning - 1 else p.tasksRunning
      approvalsWaiting :=
        if (payload.boolAt "approval_resolved").getD false then p.approvalsWaiting - 1
        else p.approvalsWaiting }
  | "task.retry_requested" =>
    p.onPayload event fun payload => { p with
      approvalsWaiting :=
        if (payload.boolAt "approval_resolved").getD false then p.approvalsWaiting - 1
        else p.approvalsWaiting }
  | "goal.paused" | "goal.cancelled" | "goal.retry_requested" =>
    p.onPayload event fun payload => { p with
      tasksRunning := p.tasksRunning - (payload.u64At "running_tasks_stopped").getD 0
      approvalsWaiting := p.approvalsWaiting - (payload.u64At "approvals_resolved").getD 0 }
  | "approval.requested" =>
    p.onPayload event fun payload => { p with
      approvalsWaiting := p.approvalsWaiting + 1
      tasksRunning :=
        if (payload.get "task_id").isSome then p.tasksRunning - 1 else p.tasksRunning }
  | "approval.resolved" =>
    let p := { p with approvalsWaiting := p.approvalsWaiting - 1 }
    p.onPayload event fun payload => { p with
      tasksRunning :=
        if (payload.boolAt "resumed").getD false then p.tasksRunning + 1 else p.tasksRunning }
  | "audio.privacy_state" =>
    p.onPayload event fun payload =>
      { p with microphoneActive := (payload.boolAt "active").getD false }
  | "runtime.health" =>
    p.onPayload event fun payload =>
      { p with runtimeHealthy := (payload.boolAt "healthy").getD false }
  | "lifecycle.started" =>
    p.onPayload event fun payload =>
      let unclean := (payload.boolAt "previous_unclean_run").getD false
      { p with
        recoveredUncleanRun := unclean
        uncleanShutdowns := if unclean then p.uncleanShutdowns + 1 else p.uncleanShutdowns }
  | _ => (p, .ok ())

def apply (p : AppProjection) (event : EventEnvelope) : AppProjection × Except CoreError Unit :=
  if event.monotonicSequence ≤ p.lastSequence then
    (p, .error (.sequenceRegression p.lastSequence event.monotonicSequence))
  else
    match (p.noted event).counted event with
    | (p, .error e) => (p, .error e)
    | (p, .ok ()) => ({ p with activeSession := event.sessionId.or p.activeSession }, .ok ())

/-- `projection.apply(&event)?` where an error abandons the projection. -/
def applied (p : AppProjection) (event : EventEnvelope) : Except CoreError AppProjection :=
  match p.apply event with
  | (p, .ok ()) => .ok p
  | (_, .error e) => .error e

theorem counted_lastSequence (p : AppProjection) (event : EventEnvelope) :
    (p.counted event).1.lastSequence = p.lastSequence := by
  unfold counted onPayload
  split <;> first | rfl | (split <;> rfl)

/-- The event types whose payload `apply` decodes. -/
def payloadTypes : List String :=
  ["task.completed", "task.failed", "task.cancelled", "task.paused", "task.retry_requested",
    "goal.paused", "goal.cancelled", "goal.retry_requested", "approval.requested",
    "approval.resolved", "audio.privacy_state", "runtime.health", "lifecycle.started"]

/-- The payload decodes, or `apply` does not look at it. -/
def Readable (event : EventEnvelope) : Prop :=
  event.payloadJson.isSome ∨ event.type ∉ payloadTypes

instance (event : EventEnvelope) : Decidable (Readable event) :=
  inferInstanceAs (Decidable (_ ∨ _))

variable {event : EventEnvelope} {p : AppProjection}

theorem counted_ok (p : AppProjection) (h : Readable event) : (p.counted event).2 = .ok () := by
  rcases h with h | h
  · obtain ⟨v, hv⟩ := Option.isSome_iff_exists.mp h
    unfold counted onPayload EventEnvelope.payload
    rw [hv]
    split <;> rfl
  · unfold counted
    split
    all_goals first
      | rfl
      | (rename_i htype; exact absurd (by rw [htype]; decide) h)

/-- **A readable event that is next in sequence applies.** -/
theorem applied_of_readable (hseq : p.lastSequence < event.monotonicSequence) (h : Readable event) :
    ∃ p', p.apply event = (p', .ok ()) ∧ p.applied event = .ok p' := by
  have hok := counted_ok (p.noted event) h
  generalize hc : (p.noted event).counted event = c at hok
  obtain ⟨q, r⟩ := c
  obtain rfl : r = .ok () := hok
  have happly : p.apply event =
      ({ q with activeSession := event.sessionId.or q.activeSession }, .ok ()) := by
    rw [apply, if_neg (not_le.mpr hseq), hc]
  exact ⟨_, happly, by rw [applied, happly]⟩

theorem lastSequence_of_applied {p' : AppProjection} (h : p.applied event = .ok p') :
    p.lastSequence < event.monotonicSequence ∧ p'.lastSequence = event.monotonicSequence := by
  have hlast := counted_lastSequence (p.noted event) event
  unfold applied apply at h
  by_cases hseq : event.monotonicSequence ≤ p.lastSequence
  · rw [if_pos hseq] at h
    cases h
  · rw [if_neg hseq] at h
    refine ⟨not_le.mp hseq, ?_⟩
    generalize (p.noted event).counted event = c at h hlast
    obtain ⟨q, r⟩ := c
    cases r with
    | error e => cases h
    | ok u =>
      cases h
      exact hlast

theorem lastSequence_of_replay {rows : List EventEnvelope} {q : AppProjection}
    (h : rows.foldlM applied p = .ok q) :
    q.lastSequence = (rows.getLast?.map (·.monotonicSequence)).getD p.lastSequence := by
  induction rows generalizing p with
  | nil => cases h; rfl
  | cons event rows ih =>
    obtain ⟨p', hp', h⟩ := Lib.bind_ok_iff.mp h
    rw [ih h]
    cases rows with
    | nil => exact (lastSequence_of_applied hp').2
    | cons event' rows =>
      rw [List.getLast?_cons_cons,
        List.getLast?_eq_getLast_of_ne_nil (List.cons_ne_nil event' rows)]
      rfl

end AppProjection
end PersonalAgent.Core
