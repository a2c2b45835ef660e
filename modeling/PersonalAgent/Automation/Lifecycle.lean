/-
# What a call does to a run and to an automation

A run is followed by its key.  `Transition` is the life of one run as a labelled transition
system: which call makes which status of which, and what becomes of the runtime request the
run waits for.  `apply_stepsTo` says that a call of the scheduler does nothing else to the run
of a key than such a step, apart from enqueueing it and from removing it with its automation,
and what it does to the automation of an id.  Every invariant of the scheduler is read off it.
-/

import PersonalAgent.Automation.Scheduler
import PersonalAgent.Lib.OrdMap
import PersonalAgent.Lib.Run

namespace PersonalAgent.Automation

open Lib List Std.ExtTreeMap Option

/-! ### The life of a run -/

/-- Where a run stands: its status, and the runtime request it is bound to. -/
abbrev Standing := AutomationRunStatus × Option String

def AutomationRun.standing (run : AutomationRun) : Standing := (run.status, run.runtimeRequestId)

/-- What a call makes of the standing of the run of one key. -/
inductive Transition (key : String) : SchedulerOp → Standing → Standing → Prop
  | stay (op : SchedulerOp) (standing : Standing) : Transition key op standing standing
  | start (clock : Instant) (request : Option String) :
    Transition key (.start key clock) (.queued, request) (.running, request)
  | wait (reason : String) (request : Option String) :
    Transition key (.waitForApproval key reason) (.running, request) (.waitingApproval, request)
  | bind (sessionId requestId reason : String) (request : Option String) :
    Transition key (.bindApproval key sessionId requestId reason) (.running, request)
      (.waitingApproval, some requestId)
  | approve (request : Option String) :
    Transition key (.approve key) (.waitingApproval, request) (.queued, request)
  | resume (request : Option String) :
    Transition key (.resumeAfterApproval key) (.waitingApproval, request) (.running, none)
  | finish (success : Bool) (state : Option Value) (clock : Instant) (request : Option String) :
    Transition key (.finish key success state clock) (.running, request)
      (if success then .completed else .failed, none)
  | fail (summary : String) (clock : Instant) {status : AutomationRunStatus}
      (h : status ∈ [AutomationRunStatus.running, .waitingApproval]) (request : Option String) :
    Transition key (.failActive key summary clock) (status, request) (.failed, none)
  | recover {status : AutomationRunStatus}
      (h : status ∈ [AutomationRunStatus.running, .waitingApproval]) (request : Option String) :
    Transition key .recoverAfterRestart (status, request) (.pausedForUser, none)
  | preempt (request : Option String) :
    Transition key .preemptForUser (.running, request) (.pausedForUser, request)

theorem Transition.of_mem {key : String} {op : SchedulerOp} {status : AutomationRunStatus}
    {run : AutomationRun} {standing : Standing} (hrun : run.status ∈ [status])
    (h : Transition key op (status, run.runtimeRequestId) standing) :
    Transition key op run.standing standing := by
  rwa [AutomationRun.standing, mem_singleton.mp hrun]

/-- A call keeps what identifies a run and moves its standing. -/
structure Continues (key : String) (op : SchedulerOp) (run run' : AutomationRun) : Prop where
  id : run'.id = run.id
  automationId : run'.automationId = run.automationId
  scheduleKey : run'.scheduleKey = run.scheduleKey
  scheduledFor : run'.scheduledFor = run.scheduledFor
  standing : Transition key op run.standing run'.standing

theorem Continues.refl (key : String) (op : SchedulerOp) (run : AutomationRun) :
    Continues key op run run :=
  ⟨rfl, rfl, rfl, rfl, .stay op _⟩

/-- A run as it is enqueued, for an automation of the snapshot. -/
structure Enqueued (s : SchedulerSnapshot) (key : String) (run : AutomationRun) : Prop where
  status : run.status ∈ [AutomationRunStatus.queued, .skipped]
  request : run.runtimeRequestId = none
  scheduleKey : run.scheduleKey = key
  automation : run.automationId ∈ s.automations

/-- `run_now` inserts without looking: with a key drawn twice it would overwrite a run. -/
def SchedulerOp.Draws (op : SchedulerOp) (key : String) : Prop :=
  ∃ draw id now nonce, op = .runNow draw id now nonce ∧ key = manualKey id now nonce

/-- The calls that enqueue runs. -/
def SchedulerOp.Enqueues : SchedulerOp → Prop
  | .evaluate _ _ | .triggerEvent _ _ _ | .runNow _ _ _ _ => True
  | _ => False

/-- What a call does to the run of a key. -/
inductive RunAt (s : SchedulerSnapshot) (op : SchedulerOp) (key : String) :
    Option AutomationRun → Option AutomationRun → Prop
  | absent : RunAt s op key none none
  | continued {run run' : AutomationRun} (h : Continues key op run run') :
    RunAt s op key (some run) (some run')
  | enqueued {old : Option AutomationRun} {run : AutomationRun} (hop : op.Enqueues)
    (h : Enqueued s key run) (hold : old = none ∨ op.Draws key) : RunAt s op key old (some run)
  | removed {run : AutomationRun} (h : op = .remove run.automationId) :
    RunAt s op key (some run) none

theorem RunAt.refl (s : SchedulerSnapshot) (op : SchedulerOp) (key : String)
    (old : Option AutomationRun) : RunAt s op key old old := by
  cases old with
  | none => exact .absent
  | some run => exact .continued (.refl key op run)

/-! ### The settings of an automation -/

/-- What only `upsert` changes. -/
structure SameSettings (a a' : Automation) : Prop where
  id : a'.id = a.id
  trigger : a'.trigger = a.trigger
  maxConcurrency : a'.maxConcurrency = a.maxConcurrency
  pauseAfterFailures : a'.pauseAfterFailures = a.pauseAfterFailures
  maximumCatchUpRuns : a'.maximumCatchUpRuns = a.maximumCatchUpRuns

theorem SameSettings.refl (a : Automation) : SameSettings a a := ⟨rfl, rfl, rfl, rfl, rfl⟩

theorem SameSettings.trans {a b c : Automation} (h : SameSettings a b) (h' : SameSettings b c) :
    SameSettings a c :=
  ⟨h'.id.trans h.id, h'.trigger.trans h.trigger, h'.maxConcurrency.trans h.maxConcurrency,
    h'.pauseAfterFailures.trans h.pauseAfterFailures,
    h'.maximumCatchUpRuns.trans h.maximumCatchUpRuns⟩

/-- What `upsert` accepts. -/
structure Accepted (a : Automation) : Prop where
  limits : a.maxConcurrency ≠ 0 ∧ a.pauseAfterFailures ≠ 0 ∧ a.maximumCatchUpRuns ≠ 0
  trigger : validateTrigger a.trigger = .ok ()

theorem Accepted.congr {a a' : Automation} (h : Accepted a) (hsame : SameSettings a a') :
    Accepted a' := by
  refine ⟨?_, ?_⟩
  · rw [hsame.maxConcurrency, hsame.pauseAfterFailures, hsame.maximumCatchUpRuns]
    exact h.limits
  · rw [hsame.trigger]
    exact h.trigger

/-- What a call does to the automation of an id. -/
inductive AutomationAt (op : SchedulerOp) (id : Uuid) :
    Option Automation → Option Automation → Prop
  | absent : AutomationAt op id none none
  | kept {a a' : Automation} (h : SameSettings a a') : AutomationAt op id (some a) (some a')
  | upserted {old : Option Automation} {a : Automation} (hop : op = .upsert a) (hid : a.id = id)
    (h : Accepted a) : AutomationAt op id old (some a)
  | removed {a : Automation} (h : op = .remove id) : AutomationAt op id (some a) none

theorem AutomationAt.refl (op : SchedulerOp) (id : Uuid) (old : Option Automation) :
    AutomationAt op id old old := by
  cases old with
  | none => exact .absent
  | some a => exact .kept (.refl a)

namespace SchedulerSnapshot

variable {s s' s'' : SchedulerSnapshot} {op : SchedulerOp}

/-! ### Steps of a single run -/

variable {key : String} {allowed : List AutomationRunStatus}
  {change : AutomationRun → AutomationRun} {id : Uuid} {a : Automation} {interval : Option ℕ}

/-- What a call does to a snapshot, run by run and automation by automation. -/
structure StepsTo (op : SchedulerOp) (s s' : SchedulerSnapshot) : Prop where
  runs : ∀ key : String, RunAt s op key s.runs[key]? s'.runs[key]?
  automations : ∀ id : Uuid, AutomationAt op id s.automations[id]? s'.automations[id]?

theorem StepsTo.refl (op : SchedulerOp) (s : SchedulerSnapshot) : StepsTo op s s :=
  ⟨fun key => .refl s op key _, fun id => .refl op id _⟩

theorem runAt_insert {run run' : AutomationRun} (hrun : s.runs[key]? = some run)
    (h : Continues key op run run') (key' : String) :
    RunAt s op key' s.runs[key']? (s.runs.insert key run')[key']? := by
  rw [getElem?_insert_eq]
  split_ifs with hkey
  · subst hkey
    rw [hrun]
    exact .continued h
  · exact .refl s op key' _

theorem automationAt_insert {a' : Automation} (ha : s.automations[id]? = some a)
    (h : SameSettings a a') (id' : Uuid) :
    AutomationAt op id' s.automations[id']? (s.automations.insert id a')[id']? := by
  rw [getElem?_insert_eq]
  split_ifs with hid
  · subst hid
    rw [ha]
    exact .kept h
  · exact .refl op id' _

theorem stepsTo_map {f : AutomationRun → AutomationRun}
    (h : ∀ key run, Continues key op run (f run)) :
    StepsTo op s { s with runs := s.runs.map fun _ => f } := by
  refine ⟨fun key => ?_, fun id => .refl op id _⟩
  rw [Std.ExtTreeMap.getElem?_map]
  cases s.runs[key]? with
  | none => exact .absent
  | some run => exact .continued (h key run)

theorem stepsTo_onRun (h : ∀ run, run.status ∈ allowed → Continues key op run (change run)) :
    StepsTo op s (s.onRun key allowed change).1 := by
  unfold onRun
  split
  · exact .refl op s
  · rename_i run hrun
    split_ifs with hallowed
    · exact ⟨runAt_insert hrun (h run hallowed), fun id => .refl op id _⟩
    · exact .refl op s

theorem stepsTo_onRunAndAutomation {record : Automation → Automation}
    (h : ∀ run, run.status ∈ allowed → Continues key op run (change run))
    (hrecord : ∀ a, SameSettings a (record a)) :
    StepsTo op s (s.onRunAndAutomation key allowed change record).1 := by
  unfold onRunAndAutomation
  split
  · exact .refl op s
  · rename_i run hrun
    split_ifs with hallowed
    · dsimp only
      split
      · exact ⟨runAt_insert hrun (h run hallowed), fun id => .refl op id _⟩
      · rename_i a ha
        exact ⟨runAt_insert hrun (h run hallowed), automationAt_insert ha (hrecord a)⟩
    · exact .refl op s

/-! ### Calls that enqueue -/

/-- Runs were only added, each of them freshly enqueued, and no settings changed. -/
structure Grows (s s' : SchedulerSnapshot) : Prop where
  runs : ∀ key : String, s'.runs[key]? = s.runs[key]? ∨
    s.runs[key]? = none ∧ ∃ run, s'.runs[key]? = some run ∧ Enqueued s key run
  automations : ∀ id : Uuid, Option.Rel SameSettings s.automations[id]? s'.automations[id]?

theorem sameSettings_refl (m : BTreeMap Uuid Automation) (id : Uuid) :
    Option.Rel SameSettings m[id]? m[id]? := by
  cases m[id]? with
  | none => exact .none
  | some a => exact .some (.refl a)

theorem Grows.refl (s : SchedulerSnapshot) : Grows s s :=
  ⟨fun _ => .inl rfl, sameSettings_refl s.automations⟩

theorem Grows.mem_automations (h : Grows s s') (id : Uuid) :
    id ∈ s'.automations ↔ id ∈ s.automations := by
  have hrel := h.automations id
  rw [mem_iff_isSome_getElem?, mem_iff_isSome_getElem?]
  generalize s.automations[id]? = a, s'.automations[id]? = a' at hrel ⊢
  cases hrel <;> rfl

theorem Grows.trans (h : Grows s s') (h' : Grows s' s'') : Grows s s'' := by
  refine ⟨fun key => ?_, fun id => ?_⟩
  · rcases h'.runs key with heq | ⟨hnone, run, hrun, henqueued⟩
    · rw [heq]
      exact h.runs key
    · have henqueued' : Enqueued s key run :=
        ⟨henqueued.status, henqueued.request, henqueued.scheduleKey,
          (h.mem_automations _).mp henqueued.automation⟩
      rcases h.runs key with heq | ⟨hnone', run', hrun', -⟩
      · exact .inr ⟨heq ▸ hnone, run, hrun, henqueued'⟩
      · rw [hnone] at hrun'
        cases hrun'
  · have h₁ := h.automations id
    have h₂ := h'.automations id
    generalize s.automations[id]? = a₀, s'.automations[id]? = a₁, s''.automations[id]? = a₂ at *
    cases h₁ with
    | none =>
      cases h₂
      exact .none
    | some h₁ =>
      cases h₂ with
      | some h₂ => exact .some (h₁.trans h₂)

theorem Grows.stepsTo (h : Grows s s') (hop : op.Enqueues) : StepsTo op s s' := by
  refine ⟨fun key => ?_, fun id => ?_⟩
  · rcases h.runs key with heq | ⟨hnone, run, hrun, henqueued⟩
    · rw [heq]
      exact .refl s op key _
    · rw [hrun]
      exact .enqueued hop henqueued (.inl hnone)
  · have hrel := h.automations id
    generalize s.automations[id]? = a, s'.automations[id]? = a' at *
    cases hrel with
    | none => exact .absent
    | some h => exact .kept h

theorem grows_insert {run : AutomationRun} (hnew : s.runs[key]? = none) (h : Enqueued s key run) :
    Grows s { s with runs := s.runs.insert key run } := by
  refine ⟨fun key' => ?_, sameSettings_refl s.automations⟩
  dsimp only
  rw [getElem?_insert_eq]
  split_ifs with hkey
  · subst hkey
    exact .inr ⟨hnew, run, rfl, h⟩
  · exact .inl rfl

/-- New settings of nothing. -/
theorem grows_automation {a' : Automation} (ha : s.automations[id]? = some a)
    (h : SameSettings a a') : Grows s { s with automations := s.automations.insert id a' } := by
  refine ⟨fun _ => .inl rfl, fun id' => ?_⟩
  dsimp only
  rw [getElem?_insert_eq]
  split_ifs with hid
  · subst hid
    rw [ha]
    exact .some h
  · exact sameSettings_refl s.automations id'

section Evaluation

variable [ChronoSeconds]

/-- The due times before the policy is applied. -/
def dueList (a : Automation) (first now : Instant) : Option ℕ → List Instant
  | none => [first]
  | some seconds => first :: catchUp seconds now (a.maximumCatchUpRuns - 1) first

/-- An interval that `chrono::Duration` can hold. -/
def Fits (interval : Option ℕ) : Prop := ∀ seconds ∈ interval, seconds ≤ maxDuration

theorem dueTimes_of_fits {first now : Instant} (h : Fits interval) :
    dueTimes a first now interval = .ok
      (a.missedRunPolicy.apply (dueList a first now interval)) := by
  cases interval with
  | none => rfl
  | some seconds => simp only [dueTimes, durationSeconds_of_le (h seconds rfl), dueList]

theorem dueTimes_of_not_fits {first now : Instant} (h : ¬ Fits interval) :
    dueTimes a first now interval = .error .panicked := by
  simp only [Fits, not_forall, not_le] at h
  obtain ⟨seconds, rfl, hlt⟩ := h
  simp only [dueTimes, durationSeconds_of_lt hlt]

/-- Where the due times come out, so does the next one: both ask for the same duration. -/
theorem nextDueAfter_of_fits (h : Fits interval) (now : Instant) (trigger : Trigger) :
    ∃ next, nextDueAfter now interval trigger = .ok next := by
  cases interval with
  | none => cases trigger <;> exact ⟨_, rfl⟩
  | some seconds => cases trigger <;> simp [nextDueAfter, durationSeconds_of_le (h seconds rfl)]

/-- What `evaluateAutomation` can come to. -/
inductive EvaluatesTo (draw : String → Uuid) (now : Instant) (s : SchedulerSnapshot)
    (queued : List String) (id : Uuid) : SchedulerSnapshot × Except Fault (List String) → Prop
  | missing (h : s.automations[id]? = none) :
    EvaluatesTo draw now s queued id (s, .error (.returned (.missingAutomation id)))
  | idle {a : Automation} (ha : s.automations[id]? = some a)
    (h : a.enabled = true → ∀ time, a.nextDueAt = some time → now < time) :
    EvaluatesTo draw now s queued id (s, .ok queued)
  | invalid {a : Automation} {error : SchedulerError} (ha : s.automations[id]? = some a)
    (h : triggerIntervalSeconds a.trigger = .error error) :
    EvaluatesTo draw now s queued id (s, .error (.returned error))
  | overflow {a : Automation} {interval : Option ℕ} (ha : s.automations[id]? = some a)
    (hinterval : triggerIntervalSeconds a.trigger = .ok interval) (h : ¬ Fits interval) :
    EvaluatesTo draw now s queued id (s, .error .panicked)
  | due {a stored : Automation} {nextDue : Instant} {interval : Option ℕ}
    {due : List (Instant × AutomationRunStatus)} (ha : s.automations[id]? = some a)
    (henabled : a.enabled = true) (hnext : a.nextDueAt = some nextDue) (hnow : nextDue ≤ now)
    (hinterval : triggerIntervalSeconds a.trigger = .ok interval)
    (hdue : due = a.missedRunPolicy.apply (dueList a nextDue now interval))
    (hafter : nextDueAfter now interval a.trigger = .ok stored.nextDueAt)
    (hsame : SameSettings a stored) :
    EvaluatesTo draw now s queued id
      ({ s with
          runs := (due.foldl (enqueue draw id) (s.runs, queued)).1
          automations := s.automations.insert id stored },
        .ok (due.foldl (enqueue draw id) (s.runs, queued)).2)

theorem evaluateAutomation_spec (draw : String → Uuid) (now : Instant) (s : SchedulerSnapshot)
    (queued : List String) (id : Uuid) :
    EvaluatesTo draw now s queued id (s.evaluateAutomation draw now queued id) := by
  unfold evaluateAutomation
  split
  · rename_i h
    exact .missing h
  rename_i a ha
  split_ifs with henabled
  · refine .idle ha fun h => ?_
    rw [h] at henabled
    cases henabled
  split
  · rename_i hnone
    refine .idle ha fun _ time htime => ?_
    rw [hnone] at htime
    cases htime
  rename_i nextDue hnext
  split_ifs with hnow
  · refine .idle ha fun _ time htime => ?_
    obtain rfl := Option.some.inj (hnext.symm.trans htime)
    exact hnow
  split
  · rename_i error herror
    exact .invalid ha herror
  rename_i interval hinterval
  by_cases hfits : Fits interval
  · obtain ⟨next, hafter⟩ := nextDueAfter_of_fits hfits now a.trigger
    rw [dueTimes_of_fits hfits]
    dsimp only
    rw [hafter]
    exact .due ha (by simpa using henabled) hnext (not_lt.mp hnow) hinterval rfl hafter
      ⟨rfl, rfl, rfl, rfl, rfl⟩
  · rw [dueTimes_of_not_fits hfits]
    exact .overflow ha hinterval hfits

omit [ChronoSeconds] in
theorem grows_enqueue (draw : String → Uuid) (hid : id ∈ s.automations)
    (due : List (Instant × AutomationRunStatus))
    (hdue : ∀ d ∈ due, d.2 ∈ [AutomationRunStatus.queued, .skipped]) (queued : List String) :
    Grows s { s with runs := (due.foldl (enqueue draw id) (s.runs, queued)).1 } := by
  induction due generalizing s queued with
  | nil => exact .refl s
  | cons d due ih =>
    rw [foldl_cons, enqueue]
    dsimp only
    have hrest := fun d' hd' => hdue d' (mem_cons_of_mem d hd')
    split_ifs with hcontains
    · exact ih hid hrest queued
    all_goals
      rw [contains_eq_isSome_getElem?, Bool.not_eq_true, isSome_eq_false_iff,
        isNone_iff_eq_none] at hcontains
      have hnew : Enqueued s (scheduleKey id d.1)
          (.new (draw (scheduleKey id d.1)) id (scheduleKey id d.1) d.1 d.2) :=
        ⟨hdue d mem_cons_self, rfl, rfl, hid⟩
      refine (grows_insert hcontains hnew).trans ?_
      exact ih (s := { s with runs := s.runs.insert _ _ }) hid hrest _

omit [ChronoSeconds] in
theorem status_of_mem_apply {policy : MissedRunPolicy} {times : List Instant}
    {d : Instant × AutomationRunStatus} (h : d ∈ policy.apply times) :
    d.1 ∈ times ∧ d.2 ∈ [AutomationRunStatus.queued, .skipped] := by
  cases policy with
  | skip =>
    obtain ⟨time, htime, rfl⟩ := mem_map.mp h
    exact ⟨htime, by simp⟩
  | runOnce =>
    obtain ⟨time, htime, rfl⟩ := mem_map.mp h
    exact ⟨mem_of_getLast? (mem_toList.mp htime), by simp⟩
  | catchUpBounded =>
    obtain ⟨time, htime, rfl⟩ := mem_map.mp h
    exact ⟨htime, by simp⟩

theorem grows_evaluateAutomation (draw : String → Uuid) (now : Instant) (queued : List String)
    (id : Uuid) : Grows s (s.evaluateAutomation draw now queued id).1 := by
  have hspec := evaluateAutomation_spec draw now s queued id
  generalize s.evaluateAutomation draw now queued id = r at hspec
  cases hspec with
  | missing | idle | invalid | overflow => exact .refl s
  | @due a stored nextDue interval due ha henabled hnext hnow hinterval hdue hafter hsame =>
    have hid : id ∈ s.automations := by
      rw [mem_iff_isSome_getElem?, ha]
      rfl
    have hstatus := fun d (hd : d ∈ due) => (status_of_mem_apply (hdue ▸ hd)).2
    refine (grows_enqueue draw hid due hstatus queued).trans ?_
    exact grows_automation (s := { s with runs := _ }) ha hsame

/-- **The rule of the loop.**  What holds across the step of each automation, and is reflexive and
transitive, holds across the loop. -/
theorem evaluateAll_relates {draw : String → Uuid} {now : Instant} {ids : List Uuid}
    (R : SchedulerSnapshot → SchedulerSnapshot → Prop) (hrefl : ∀ s, R s s)
    (htrans : ∀ {s s' s''}, R s s' → R s' s'' → R s s'')
    (hstep : ∀ s queued, ∀ id ∈ ids, R s (s.evaluateAutomation draw now queued id).1)
    (s : SchedulerSnapshot) (queued : List String) :
    R s (evaluateAll draw now s queued ids).1 := by
  induction ids generalizing s queued with
  | nil => exact hrefl s
  | cons id ids ih =>
    have hhead := hstep s queued id mem_cons_self
    unfold evaluateAll
    generalize s.evaluateAutomation draw now queued id = r at hhead
    obtain ⟨s₁, fault | queued₁⟩ := r
    · exact hhead
    · exact htrans hhead (ih (fun s queued id' hid' =>
        hstep s queued id' (mem_cons_of_mem id hid')) s₁ queued₁)

theorem grows_evaluate (s : SchedulerSnapshot) (draw : String → Uuid) (now : Instant) :
    Grows s (s.evaluate draw now).1 := by
  have hall : Grows s (evaluateAll draw now s [] s.automations.keys).1 :=
    evaluateAll_relates Grows .refl .trans
      (fun s queued id _ => grows_evaluateAutomation draw now queued id) s []
  unfold evaluate
  generalize evaluateAll draw now s [] s.automations.keys = r at hall
  obtain ⟨s₁, fault | queued⟩ := r
  · exact hall
  · exact ⟨hall.runs, hall.automations⟩

end Evaluation

/-- The loop of `trigger_event`, over automations stored under their ids. -/
theorem grows_triggerAutomations (draw : String → Uuid) (event : TriggerEvent) (now : Instant)
    (queued : List String) (automations : List Automation)
    (hids : ∀ a ∈ automations, a.id ∈ s.automations) :
    Grows s { s with
      runs := (automations.foldl (triggerAutomation draw event now) (s.runs, queued)).1 } := by
  induction automations generalizing s queued with
  | nil => exact .refl s
  | cons a automations ih =>
    rw [foldl_cons, triggerAutomation]
    dsimp only
    have hrest := fun a' ha' => hids a' (mem_cons_of_mem a ha')
    split_ifs with hmatch hcontains
    · exact ih queued hrest
    · exact ih queued hrest
    · rw [contains_eq_isSome_getElem?, Bool.not_eq_true, isSome_eq_false_iff,
        isNone_iff_eq_none] at hcontains
      have hnew : Enqueued s (eventKey a.id now)
          (.new (draw (eventKey a.id now)) a.id (eventKey a.id now) now .queued) :=
        ⟨mem_cons_self, rfl, rfl, hids a mem_cons_self⟩
      refine (grows_insert hcontains hnew).trans ?_
      exact ih (s := { s with runs := s.runs.insert _ _ }) _ hrest

/-! ### All calls -/

/-- Every automation is stored under its own id. -/
def Keyed (s : SchedulerSnapshot) : Prop :=
  ∀ (id : Uuid) (a : Automation), s.automations[id]? = some a → a.id = id

theorem grows_triggerEvent (hkeyed : s.Keyed) (draw : String → Uuid) (event : TriggerEvent)
    (now : Instant) : Grows s (s.triggerEvent draw event now).1 := by
  refine grows_triggerAutomations draw event now [] _ fun a ha => ?_
  obtain ⟨⟨id, a'⟩, hmem, rfl⟩ := mem_map.mp ha
  have hstored := mem_toList_iff_getElem?_eq_some.mp hmem
  rw [hkeyed id a' hstored, mem_iff_isSome_getElem?, hstored]
  rfl

theorem start_cases (s : SchedulerSnapshot) (key : String) (clock : Instant) :
    (∃ error, s.start key clock = (s, .error error)) ∨
    ∃ run a, s.runs[key]? = some run ∧ s.automations[run.automationId]? = some a ∧
      (s.runningRuns run.automationId).size < a.maxConcurrency ∧ run.status = .queued ∧
      s.start key clock = ({ s with runs := s.runs.insert key { run with
        status := .running
        attempt := min (run.attempt + 1) 65535
        startedAt := some clock
        finishedAt := none
        resultSummary := none } }, .ok ()) := by
  unfold start
  split
  · exact .inl ⟨_, rfl⟩
  rename_i run hrun
  split
  · exact .inl ⟨_, rfl⟩
  rename_i a ha
  split_ifs with hlimit hstatus
  · exact .inl ⟨_, rfl⟩
  · exact .inl ⟨_, rfl⟩
  · exact .inr ⟨run, a, hrun, ha, not_le.mp hlimit, not_not.mp hstatus, rfl⟩

theorem stepsTo_start (key : String) (clock : Instant) :
    StepsTo (.start key clock) s (s.start key clock).1 := by
  rcases s.start_cases key clock with ⟨error, heq⟩ | ⟨run, a, hrun, -, -, hstatus, heq⟩
  · rw [heq]
    exact .refl _ s
  · rw [heq]
    refine ⟨runAt_insert hrun ⟨rfl, rfl, rfl, rfl, ?_⟩, fun id => .refl _ id _⟩
    rw [AutomationRun.standing, hstatus]
    exact .start clock run.runtimeRequestId

/-- The two writes of `bind_approval` are one. -/
theorem bindApproval_eq (key sessionId requestId reason : String) :
    s.bindApproval key sessionId requestId reason =
      if (Core.trim sessionId).isEmpty || (Core.trim requestId).isEmpty then
        (s, .error .invalidTransition)
      else s.onRun key [.running] fun run => { run with
        status := .waitingApproval
        approvalReason := some reason
        runtimeSessionId := some sessionId
        runtimeRequestId := some requestId } := by
  unfold bindApproval waitForApproval onRun
  split_ifs
  · rfl
  cases hrun : s.runs[key]? with
  | none => rfl
  | some run =>
    dsimp only
    split_ifs with hstatus
    · dsimp only
      rw [getElem?_insert_eq, if_pos rfl]
      simp only [Prod.mk.injEq, mk.injEq, and_true, true_and]
      refine ext_getElem? fun k => ?_
      simp only [getElem?_insert_eq]
      split_ifs <;> rfl
    · rfl

theorem stepsTo_upsert (automation : Automation) :
    StepsTo (.upsert automation) s (s.upsert automation).1 := by
  unfold upsert
  split_ifs with hlimits
  · exact .refl _ s
  split
  · exact .refl _ s
  rename_i htrigger
  refine ⟨fun key => .refl s _ key _, fun id => ?_⟩
  dsimp only
  rw [getElem?_insert_eq]
  split_ifs with hid
  · simp only [not_or] at hlimits
    exact .upserted rfl hid.symm ⟨hlimits, htrigger⟩
  · exact .refl _ id _

theorem stepsTo_runNow (draw : String → Uuid) (id : Uuid) (now : Instant) (nonce : Uuid) :
    StepsTo (.runNow draw id now nonce) s (s.runNow draw id now nonce).1 := by
  unfold runNow
  split_ifs with hcontains
  · exact .refl _ s
  · refine ⟨fun key => ?_, fun id => .refl _ id _⟩
    dsimp only
    rw [getElem?_insert_eq]
    split_ifs with hkey
    · refine .enqueued trivial ⟨by simp [AutomationRun.new], rfl, hkey.symm, ?_⟩
        (.inr ⟨draw, id, now, nonce, rfl, hkey⟩)
      simpa [AutomationRun.new] using hcontains
    · exact .refl s _ key _

theorem stepsTo_remove (id : Uuid) : StepsTo (.remove id) s (s.remove id).1 := by
  unfold remove
  split
  · exact .refl _ s
  rename_i a ha
  refine ⟨fun key => ?_, fun id' => ?_⟩
  · dsimp only
    rw [getElem?_filter_eq]
    cases hrun : s.runs[key]? with
    | none => exact .absent
    | some run =>
      by_cases hid : run.automationId = id
      · rw [filter_some_neg (by simpa using hid)]
        exact .removed (hid ▸ rfl)
      · rw [filter_some_pos (by simpa using hid)]
        exact .refl s _ key _
  · dsimp only
    rw [getElem?_erase_eq]
    split_ifs with hid
    · subst hid
      rw [ha]
      exact .removed rfl
    · exact .refl _ id' _

theorem continues_recovered (key : String) (run : AutomationRun) :
    Continues key .recoverAfterRestart run (recovered run) := by
  unfold recovered
  split_ifs with h
  · exact ⟨rfl, rfl, rfl, rfl, .recover h run.runtimeRequestId⟩
  · exact .refl key _ run

theorem continues_preempted (key : String) (run : AutomationRun) :
    Continues key .preemptForUser run (preempted run) := by
  unfold preempted
  split_ifs with h
  · refine ⟨rfl, rfl, rfl, rfl, ?_⟩
    rw [AutomationRun.standing, h]
    exact .preempt run.runtimeRequestId
  · exact .refl key _ run

variable [ChronoSeconds]

theorem apply_bindApproval (s : SchedulerSnapshot) (key sessionId requestId reason : String) :
    s.apply (.bindApproval key sessionId requestId reason) =
      (s.bindApproval key sessionId requestId reason).1 := by
  rw [apply, perform, Prod.map_fst, id]

theorem apply_bindRuntimeSession (s : SchedulerSnapshot) (key sessionId : String) :
    s.apply (.bindRuntimeSession key sessionId) = (s.bindRuntimeSession key sessionId).1 := by
  rw [apply, perform, Prod.map_fst, id]

/-- **What a call does:** to the run of a key a transition of its life, or the run is enqueued, or
removed together with its automation; and of the automations `upsert` replaces one by one that it
accepts, `remove` takes one away, and everything else keeps their settings. -/
theorem apply_stepsTo (hkeyed : s.Keyed) (op : SchedulerOp) : StepsTo op s (s.apply op) := by
  cases op with
  | upsert a => exact stepsTo_upsert a
  | evaluate draw now => exact (grows_evaluate s draw now).stepsTo trivial
  | triggerEvent draw event now =>
    exact (grows_triggerEvent hkeyed draw event now).stepsTo trivial
  | runNow draw id now nonce => exact stepsTo_runNow draw id now nonce
  | setEnabled id enabled =>
    change StepsTo _ s (s.setEnabled id enabled).1
    unfold setEnabled
    split
    · exact .refl _ s
    · rename_i a ha
      exact ⟨fun key => .refl s _ key _, automationAt_insert ha ⟨rfl, rfl, rfl, rfl, rfl⟩⟩
  | remove id => exact stepsTo_remove id
  | start key clock => exact stepsTo_start key clock
  | waitForApproval key reason =>
    change StepsTo _ s (s.waitForApproval key reason).1
    exact stepsTo_onRun fun run hrun => ⟨rfl, rfl, rfl, rfl, .of_mem hrun (.wait reason _)⟩
  | bindApproval key sessionId requestId reason =>
    rw [apply_bindApproval, bindApproval_eq]
    split_ifs
    · exact .refl _ s
    · exact stepsTo_onRun fun run hrun =>
        ⟨rfl, rfl, rfl, rfl, .of_mem hrun (.bind sessionId requestId reason _)⟩
  | bindRuntimeSession key sessionId =>
    rw [apply_bindRuntimeSession, bindRuntimeSession]
    split_ifs
    · exact .refl _ s
    · exact stepsTo_onRun fun run _ => ⟨rfl, rfl, rfl, rfl, .stay _ run.standing⟩
  | approve key =>
    change StepsTo _ s (s.approve key).1
    exact stepsTo_onRun fun run hrun => ⟨rfl, rfl, rfl, rfl, .of_mem hrun (.approve _)⟩
  | resumeAfterApproval key =>
    change StepsTo _ s (s.resumeAfterApproval key).1
    exact stepsTo_onRun fun run hrun => ⟨rfl, rfl, rfl, rfl, .of_mem hrun (.resume _)⟩
  | finish key success state clock =>
    change StepsTo _ s (s.finish key success state clock).1
    refine stepsTo_onRunAndAutomation (fun run hrun => ?_) fun a => ?_
    · exact ⟨rfl, rfl, rfl, rfl, .of_mem hrun (.finish success state clock _)⟩
    · cases success <;> exact ⟨rfl, rfl, rfl, rfl, rfl⟩
  | setResultSummary key summary =>
    change StepsTo _ s (s.setResultSummary key summary).1
    exact stepsTo_onRun fun run _ => ⟨rfl, rfl, rfl, rfl, .stay _ run.standing⟩
  | failActive key summary clock =>
    change StepsTo _ s (s.failActive key summary clock).1
    refine stepsTo_onRunAndAutomation (fun run hrun => ?_) fun a => ⟨rfl, rfl, rfl, rfl, rfl⟩
    exact ⟨rfl, rfl, rfl, rfl, .fail summary clock hrun run.runtimeRequestId⟩
  | recoverAfterRestart => exact stepsTo_map continues_recovered
  | preemptForUser => exact stepsTo_map continues_preempted
  | fromSnapshot => exact .refl _ s

end SchedulerSnapshot
end PersonalAgent.Automation
