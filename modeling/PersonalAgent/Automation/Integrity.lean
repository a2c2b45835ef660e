/-
# The integrity of the scheduler

Automations are stored under their ids and were accepted by `upsert`, runs are stored under
their schedule keys and belong to a stored automation (`Sound`).  From this follows that no
call leaves a half-made change behind when it returns an error: `finish` and `fail_active`
write the run before they look up its automation, and `evaluate` enqueues before it has read
all triggers, but neither lookup can fail (`perform_error`).

A finished run keeps its status (`Transition.terminal`).  The runtime request of a run is not
cleared by every exit from the approval: `approve` puts the run back into the queue with its
request (`approved_run_keeps_request`).
-/

import PersonalAgent.Automation.Lifecycle

namespace PersonalAgent.Automation

open Lib Std.ExtTreeMap

/-- A trigger that `upsert` accepts has an interval, or none, but not zero. -/
theorem interval_of_valid {trigger : Trigger} (h : validateTrigger trigger = .ok ()) :
    ∃ interval, triggerIntervalSeconds trigger = .ok interval ∧ ∀ seconds ∈ interval,
      0 < seconds := by
  have hcron (expression : String) (seconds : ℕ)
      (hparse : parseCronInterval expression = .ok seconds) : 0 < seconds := by
    unfold parseCronInterval at hparse
    split at hparse
    · split at hparse
      · cases hparse
      · split_ifs at hparse with hzero hsize
        cases hparse
        omega
    · cases hparse
  cases trigger with
  | interval seconds =>
    refine ⟨some seconds, rfl, ?_⟩
    rintro _ ⟨⟩
    refine Nat.pos_of_ne_zero ?_
    rintro rfl
    cases h
  | heartbeat seconds =>
    refine ⟨some seconds, rfl, ?_⟩
    rintro _ ⟨⟩
    refine Nat.pos_of_ne_zero ?_
    rintro rfl
    cases h
  | cron expression =>
    cases hparse : parseCronInterval expression with
    | error error =>
      rw [validateTrigger, hparse] at h
      cases h
    | ok seconds =>
      refine ⟨some seconds, by rw [triggerIntervalSeconds, hparse]; rfl, ?_⟩
      rintro _ ⟨⟩
      exact hcron expression seconds hparse
  | _ => exact ⟨none, rfl, nofun⟩

theorem Transition.terminal {key : String} {op : SchedulerOp} {standing standing' : Standing}
    (h : Transition key op standing standing')
    (hterminal : standing.1 ∈ [AutomationRunStatus.completed, .failed, .skipped]) :
    standing'.1 = standing.1 := by
  cases h with
  | stay => rfl
  | fail _ _ h _ => fin_cases h <;> simp at hterminal
  | recover h _ => fin_cases h <;> simp at hterminal
  | _ => simp at hterminal

/-- Nothing moves a run that is paused for the user. -/
theorem Transition.paused {key : String} {op : SchedulerOp} {standing standing' : Standing}
    (h : Transition key op standing standing') (hpaused : standing.1 = .pausedForUser) :
    standing'.1 = .pausedForUser := by
  cases h <;> simp_all

/-- A request is carried only while the run waits, unless such a run is approved. -/
theorem Transition.request {key : String} {op : SchedulerOp} {standing standing' : Standing}
    (h : Transition key op standing standing') (hop : op = .approve key → standing.2 = none)
    (hheld : standing.2 ≠ none → standing.1 = .waitingApproval) :
    standing'.2 ≠ none → standing'.1 = .waitingApproval := by
  cases h with
  | stay => exact hheld
  | start clock request => exact fun hrequest => absurd (hheld hrequest) (by simp)
  | wait | bind => exact fun _ => rfl
  | approve request => exact fun hrequest => absurd (hop rfl) hrequest
  | preempt request => exact fun hrequest => absurd (hheld hrequest) (by simp)
  | _ => exact fun hrequest => absurd rfl hrequest

namespace SchedulerSnapshot

section

variable {s : SchedulerSnapshot} {op : SchedulerOp}

/-- Automations under their ids, as `upsert` accepts them; runs under their keys, of stored
automations. -/
structure Sound (s : SchedulerSnapshot) : Prop where
  automation : ∀ (id : Uuid) (a : Automation), s.automations[id]? = some a → a.id = id ∧ Accepted a
  run : ∀ (key : String) (run : AutomationRun), s.runs[key]? = some run →
    run.scheduleKey = key ∧ run.automationId ∈ s.automations

theorem Sound.keyed (h : s.Sound) : s.Keyed := fun id a ha => (h.automation id a ha).1

theorem sound_empty : Sound {} :=
  ⟨fun id a ha => by simp at ha, fun key run hrun => by simp at hrun⟩

section Soundness

variable [ChronoSeconds]

theorem Sound.automation_apply (h : s.Sound) (op : SchedulerOp) (id : Uuid) (a : Automation)
    (ha : (s.apply op).automations[id]? = some a) : a.id = id ∧ Accepted a := by
  have hat := (apply_stepsTo h.keyed op).automations id
  rw [ha] at hat
  generalize hold : s.automations[id]? = old at hat
  cases hat with
  | kept hsame =>
    obtain ⟨hid, haccepted⟩ := h.automation id _ hold
    exact ⟨hsame.id.trans hid, haccepted.congr hsame⟩
  | upserted hop hid haccepted => exact ⟨hid, haccepted⟩

/-- Only `remove` takes an automation away. -/
theorem mem_automations_apply (hkeyed : s.Keyed) {id : Uuid} (hop : op ≠ .remove id)
    (hid : id ∈ s.automations) : id ∈ (s.apply op).automations := by
  rw [mem_iff_isSome_getElem?] at hid ⊢
  have hat := (apply_stepsTo hkeyed op).automations id
  generalize s.automations[id]? = old, (s.apply op).automations[id]? = new at *
  cases hat with
  | absent => cases hid
  | kept _ => rfl
  | upserted _ _ _ => rfl
  | removed h => exact absurd h hop

omit [ChronoSeconds] in
theorem Sound.run_remove (h : s.Sound) (id : Uuid) (key : String) (run : AutomationRun)
    (hrun : (s.remove id).1.runs[key]? = some run) :
    run.scheduleKey = key ∧ run.automationId ∈ (s.remove id).1.automations := by
  unfold remove at hrun ⊢
  cases ha : s.automations[id]? with
  | none =>
    rw [ha] at hrun
    exact h.run key run hrun
  | some a =>
    rw [ha] at hrun
    dsimp only at hrun ⊢
    rw [getElem?_filter_eq, Option.filter_eq_some_iff] at hrun
    obtain ⟨hkey, hmem⟩ := h.run key run hrun.1
    refine ⟨hkey, mem_iff_isSome_getElem?.mpr ?_⟩
    rw [getElem?_erase_eq, if_neg (by simpa using hrun.2)]
    exact mem_iff_isSome_getElem?.mp hmem

/-- A run after a call is one from before that has gone on, or a new one. -/
theorem Sound.run_cases (h : s.Sound) {key : String} {run : AutomationRun}
    (hrun : (s.apply op).runs[key]? = some run) :
    (∃ run₀, s.runs[key]? = some run₀ ∧ Continues key op run₀ run) ∨
      op.Enqueues ∧ Enqueued s key run := by
  have hat := (apply_stepsTo h.keyed op).runs key
  rw [hrun] at hat
  generalize s.runs[key]? = old at hat
  cases hat with
  | continued hcontinues => exact .inl ⟨_, rfl, hcontinues⟩
  | enqueued henqueues henqueued _ => exact .inr ⟨henqueues, henqueued⟩

theorem Sound.run_apply (h : s.Sound) (op : SchedulerOp) (key : String) (run : AutomationRun)
    (hrun : (s.apply op).runs[key]? = some run) :
    run.scheduleKey = key ∧ run.automationId ∈ (s.apply op).automations := by
  by_cases hremove : ∃ id, op = .remove id
  · obtain ⟨id, rfl⟩ := hremove
    exact h.run_remove id key run hrun
  · have hkept (id : Uuid) : op ≠ .remove id := fun hop => hremove ⟨id, hop⟩
    rcases h.run_cases hrun with ⟨run₀, hold, hcontinues⟩ | ⟨-, henqueued⟩
    · obtain ⟨hkey, hmem⟩ := h.run key run₀ hold
      rw [hcontinues.scheduleKey, hcontinues.automationId]
      exact ⟨hkey, mem_automations_apply h.keyed (hkept _) hmem⟩
    · exact ⟨henqueued.scheduleKey,
        mem_automations_apply h.keyed (hkept _) henqueued.automation⟩

theorem sound_apply (h : s.Sound) (op : SchedulerOp) : (s.apply op).Sound :=
  ⟨h.automation_apply op, h.run_apply op⟩

/-- The snapshot after a run of calls is sound. -/
theorem sound_run (ops : List SchedulerOp) : Sound (Lib.run apply {} ops) :=
  run_invariant Sound (fun _ op h => sound_apply h op) ops sound_empty

end Soundness

/-! ### Errors -/

/-- A result that leaves the snapshot alone if it is an error. -/
def Clean {α : Type} (s : SchedulerSnapshot) (r : SchedulerSnapshot × Except SchedulerError α) :
    Prop :=
  ∀ error, r.2 = .error error → r.1 = s

theorem clean_error {α : Type} (error : SchedulerError) :
    Clean s ((s, .error error) : SchedulerSnapshot × Except SchedulerError α) := fun _ _ => rfl

theorem clean_ok {α : Type} (s' : SchedulerSnapshot) (a : α) : Clean s (s', .ok a) := nofun

theorem clean_onRun (key : String) (allowed : List AutomationRunStatus)
    (change : AutomationRun → AutomationRun) : s.Clean (s.onRun key allowed change) := by
  unfold onRun
  split
  · exact clean_error _
  · split_ifs
    · exact clean_ok _ _
    · exact clean_error _

/-- The run has a stored automation, so the lookup after the write succeeds. -/
theorem clean_onRunAndAutomation (hs : s.Sound) (key : String)
    (allowed : List AutomationRunStatus) (change : AutomationRun → AutomationRun)
    (record : Automation → Automation) :
    s.Clean (s.onRunAndAutomation key allowed change record) := by
  unfold onRunAndAutomation
  split
  · exact clean_error _
  · rename_i run hrun
    obtain ⟨a, ha⟩ := Option.isSome_iff_exists.mp
      (mem_iff_isSome_getElem?.mp (hs.run key run hrun).2)
    split_ifs
    · dsimp only
      rw [ha]
      exact clean_ok _ _
    · exact clean_error _

theorem clean_upsert (a : Automation) : s.Clean (s.upsert a) := by
  unfold upsert
  split_ifs
  · exact clean_error _
  · split
    · exact clean_error _
    · exact clean_ok _ _

theorem clean_setEnabled (id : Uuid) (enabled : Bool) : s.Clean (s.setEnabled id enabled) := by
  unfold setEnabled
  split
  · exact clean_error _
  · exact clean_ok _ _

theorem clean_remove (id : Uuid) : s.Clean (s.remove id) := by
  unfold remove
  split
  · exact clean_error _
  · exact clean_ok _ _

theorem clean_runNow (draw : String → Uuid) (id : Uuid) (now : Instant) (nonce : Uuid) :
    s.Clean (s.runNow draw id now nonce) := by
  unfold runNow
  split_ifs
  · exact clean_error _
  · exact clean_ok _ _

theorem clean_start (key : String) (clock : Instant) : s.Clean (s.start key clock) := by
  rcases s.start_cases key clock with ⟨error, heq⟩ | ⟨run, a, -, -, -, -, heq⟩
  · rw [heq]
    exact clean_error _
  · rw [heq]
    exact clean_ok _ _

theorem clean_bindApproval (key sessionId requestId reason : String) :
    s.Clean (s.bindApproval key sessionId requestId reason) := by
  rw [bindApproval_eq]
  split_ifs
  · exact clean_error _
  · exact clean_onRun _ _ _

theorem clean_bindRuntimeSession (key sessionId : String) :
    s.Clean (s.bindRuntimeSession key sessionId) := by
  unfold bindRuntimeSession
  split_ifs
  · exact clean_error _
  · exact clean_onRun _ _ _

/-- An automation that is due and has an interval that no duration can hold. -/
def Overflowing (s : SchedulerSnapshot) (now : Instant) (id : Uuid) : Prop :=
  ∃ a first interval, s.automations[id]? = some a ∧ a.enabled = true ∧
    a.nextDueAt = some first ∧ first ≤ now ∧
    triggerIntervalSeconds a.trigger = .ok interval ∧ ¬Fits interval

variable [ChronoSeconds]

theorem evaluateAutomation_fault_iff (draw : String → Uuid) (now : Instant) (queued : List String)
    {id : Uuid} (hstored : ∃ a, s.automations[id]? = some a ∧ Accepted a) (fault : Fault) :
    (s.evaluateAutomation draw now queued id).2 = .error fault ↔
      fault = .panicked ∧ s.Overflowing now id := by
  obtain ⟨a, ha, haccepted⟩ := hstored
  obtain ⟨interval, hinterval, -⟩ := interval_of_valid haccepted.trigger
  cases henabled : a.enabled with
  | false => simp [evaluateAutomation, Overflowing, ha, henabled]
  | true =>
    cases hnext : a.nextDueAt with
    | none => simp [evaluateAutomation, Overflowing, ha, henabled, hnext]
    | some first =>
      by_cases hnow : now < first
      · simp [evaluateAutomation, Overflowing, ha, henabled, hnext, hnow]
      · by_cases hfits : Fits interval
        · obtain ⟨next, hafter⟩ := nextDueAfter_of_fits hfits now a.trigger
          simp [evaluateAutomation, Overflowing, ha, henabled, hnext, hnow, hinterval, hfits,
            dueTimes_of_fits hfits, hafter]
        · simp [evaluateAutomation, Overflowing, ha, henabled, hnext, hnow, hinterval, hfits,
            dueTimes_of_not_fits hfits, not_lt.mp hnow]
          exact eq_comm

theorem automations_evaluateAutomation_other (draw : String → Uuid) (now : Instant)
    (queued : List String) {id other : Uuid} (hne : other ≠ id) :
    (s.evaluateAutomation draw now queued id).1.automations[other]? = s.automations[other]? := by
  have hspec := evaluateAutomation_spec draw now s queued id
  generalize s.evaluateAutomation draw now queued id = r at hspec
  cases hspec with
  | due => exact (getElem?_insert_eq ..).trans (if_neg hne)
  | _ => rfl

/-- The loop fails at the first automation that overflows; the others do not change it. -/
theorem evaluateAll_fault_iff (draw : String → Uuid) (now : Instant) (queued : List String)
    {ids : List Uuid} (hids : ids.Nodup)
    (hstored : ∀ id ∈ ids, ∃ a, s.automations[id]? = some a ∧ Accepted a) (fault : Fault) :
    (evaluateAll draw now s queued ids).2 = .error fault ↔
      fault = .panicked ∧ ∃ id ∈ ids, s.Overflowing now id := by
  induction ids generalizing s queued with
  | nil => simp [evaluateAll]
  | cons id ids ih =>
    obtain ⟨hnotMem, hids⟩ := List.nodup_cons.mp hids
    have hhead := evaluateAutomation_fault_iff draw now queued (hstored id List.mem_cons_self)
    have hrest (other : Uuid) (hother : other ∈ ids) :=
      automations_evaluateAutomation_other (s := s) draw now queued
        (ne_of_mem_of_not_mem hother hnotMem)
    unfold evaluateAll
    generalize s.evaluateAutomation draw now queued id = r at hhead hrest
    obtain ⟨s₁, fault₁ | queued₁⟩ := r
    · obtain ⟨rfl, hover⟩ := (hhead fault₁).mp rfl
      simp only [Except.error.injEq, List.mem_cons, exists_eq_or_imp, hover, true_or, and_true]
      exact eq_comm
    · have hnot : ¬s.Overflowing now id := fun h => nomatch (hhead .panicked).mpr ⟨rfl, h⟩
      dsimp only at hrest ⊢
      rw [ih queued₁ hids fun other hother => by
        rw [hrest other hother]
        exact hstored other (List.mem_cons_of_mem id hother)]
      simp only [List.mem_cons, exists_eq_or_imp, hnot, false_or]
      refine and_congr_right fun _ => exists_congr fun other => and_congr_right fun hother => ?_
      unfold Overflowing
      rw [hrest other hother]

/-- `evaluate` fails exactly where an interval that is due does not fit into a duration. -/
theorem evaluate_fault_iff (hs : s.Sound) {draw : String → Uuid} {now : Instant} {fault : Fault} :
    (s.evaluate draw now).2 = .error fault ↔
      fault = .panicked ∧ ∃ id, s.Overflowing now id := by
  have hall := evaluateAll_fault_iff draw now [] s.automations.nodup_keys (fun id hid => by
    obtain ⟨a, ha⟩ := Option.isSome_iff_exists.mp
      (mem_iff_isSome_getElem?.mp (mem_keys.mp hid))
    exact ⟨a, ha, (hs.automation id a ha).2⟩) fault
  have hevaluate : (s.evaluate draw now).2 = .error fault ↔
      (evaluateAll draw now s [] s.automations.keys).2 = .error fault := by
    unfold evaluate
    generalize evaluateAll draw now s [] s.automations.keys = r
    obtain ⟨s₁, fault₁ | queued⟩ := r <;> simp
  rw [hevaluate, hall]
  refine and_congr_right fun _ => exists_congr fun id =>
    and_iff_right_of_imp fun ⟨a, _, _, ha, _⟩ => ?_
  rw [mem_keys, mem_iff_isSome_getElem?, ha]
  rfl

omit [ChronoSeconds] in
theorem Clean.outcome {α : Type} {r : SchedulerSnapshot × Except SchedulerError α}
    (h : s.Clean r) {error : SchedulerError}
    (herror : (r.map id outcome).2 = .error (.returned error)) : (r.map id outcome).1 = s := by
  obtain ⟨s', e | a⟩ := r
  · exact h e rfl
  · cases herror

/-- **A call that returns an error leaves the snapshot as it was.** -/
theorem perform_error (hs : s.Sound) (op : SchedulerOp) {error : SchedulerError}
    (h : (s.perform op).2 = .error (.returned error)) : (s.perform op).1 = s := by
  cases op with
  | upsert a => exact (clean_upsert a).outcome h
  | evaluate draw now =>
    change (s.evaluate draw now).2.map (fun _ => ()) = _ at h
    cases hr : (s.evaluate draw now).2 with
    | error fault =>
      obtain ⟨rfl, -⟩ := (evaluate_fault_iff hs).mp hr
      rw [hr] at h
      cases h
    | ok _ =>
      rw [hr] at h
      cases h
  | triggerEvent draw event now => cases h
  | runNow draw id now nonce => exact (clean_runNow draw id now nonce).outcome h
  | setEnabled id enabled => exact (clean_setEnabled id enabled).outcome h
  | remove id => exact (clean_remove id).outcome h
  | start key clock => exact (clean_start key clock).outcome h
  | waitForApproval key reason => exact (clean_onRun _ _ _).outcome h
  | bindApproval key sessionId requestId reason =>
    exact (clean_bindApproval key sessionId requestId reason).outcome h
  | bindRuntimeSession key sessionId => exact (clean_bindRuntimeSession key sessionId).outcome h
  | approve key => exact (clean_onRun _ _ _).outcome h
  | resumeAfterApproval key => exact (clean_onRun _ _ _).outcome h
  | finish key success state clock => exact (clean_onRunAndAutomation hs _ _ _ _).outcome h
  | setResultSummary key summary => exact (clean_onRun _ _ _).outcome h
  | failActive key summary clock => exact (clean_onRunAndAutomation hs _ _ _ _).outcome h
  | recoverAfterRestart => cases h
  | preemptForUser => cases h
  | fromSnapshot => cases h

/-! ### Whole runs -/

/-- The condition of the theorem below: no run that is bound to a request is put back by
`approve`, and the UUID that `run_now` draws is a new one. -/
def Orderly (s : SchedulerSnapshot) : SchedulerOp → Prop
  | .approve key => ∀ run ∈ s.runs[key]?, run.runtimeRequestId = none
  | .runNow _ id now nonce => s.runs[manualKey id now nonce]? = none
  | _ => True

omit [ChronoSeconds] in
theorem Orderly.not_draws (h : s.Orderly op) {key : String} {run : AutomationRun}
    (hrun : s.runs[key]? = some run) : ¬ op.Draws key := by
  rintro ⟨draw, id, now, nonce, rfl, rfl⟩
  rw [Orderly, hrun] at h
  cases h

/-- A run carries a runtime request only while it waits for approval. -/
def RequestsWait (s : SchedulerSnapshot) : Prop :=
  ∀ (key : String) (run : AutomationRun), s.runs[key]? = some run →
    run.runtimeRequestId ≠ none → run.status = .waitingApproval

theorem requestsWait_apply (hs : s.Sound) (hop : s.Orderly op) (h : s.RequestsWait) :
    (s.apply op).RequestsWait := by
  intro key run hrun
  rcases hs.run_cases hrun with ⟨run₀, hold, hcontinues⟩ | ⟨-, henqueued⟩
  · refine hcontinues.standing.request ?_ (h key run₀ hold)
    rintro rfl
    exact hop _ hold
  · exact fun hrequest => absurd henqueued.request hrequest

/-- A run goes on unless its key is drawn again or its automation removed. -/
theorem Sound.continues (h : s.Sound) {key : String} {run : AutomationRun}
    (hrun : s.runs[key]? = some run) (hdraws : ¬ op.Draws key)
    (hkept : op ≠ .remove run.automationId) :
    ∃ run', (s.apply op).runs[key]? = some run' ∧ Continues key op run run' := by
  have hat := (apply_stepsTo h.keyed op).runs key
  rw [hrun] at hat
  generalize (s.apply op).runs[key]? = new at hat
  cases hat with
  | continued hcontinues => exact ⟨_, rfl, hcontinues⟩
  | enqueued _ _ hdrawn =>
    rcases hdrawn with hnone | hdrawn
    · cases hnone
    · exact absurd hdrawn hdraws
  | removed hremove => exact absurd hremove hkept

theorem terminal_apply (hs : s.Sound) (hop : s.Orderly op) {key : String} {run : AutomationRun}
    (hrun : s.runs[key]? = some run) (hkept : op ≠ .remove run.automationId)
    (hterminal : run.status ∈ [AutomationRunStatus.completed, .failed, .skipped]) :
    ∃ run', (s.apply op).runs[key]? = some run' ∧ run'.id = run.id ∧
      run'.automationId = run.automationId ∧ run'.status = run.status := by
  obtain ⟨run', hrun', hcontinues⟩ := hs.continues hrun (hop.not_draws hrun) hkept
  exact ⟨run', hrun', hcontinues.id, hcontinues.automationId,
    hcontinues.standing.terminal hterminal⟩

theorem terminal_run (hs : s.Sound) {later : List SchedulerOp}
    (hlater : Along apply Orderly s later) {key : String} {run : AutomationRun}
    (hrun : s.runs[key]? = some run) (hkept : ∀ op ∈ later, op ≠ .remove run.automationId)
    (hterminal : run.status ∈ [AutomationRunStatus.completed, .failed, .skipped]) :
    ∃ run', (Lib.run apply s later).runs[key]? = some run' ∧ run'.id = run.id ∧
      run'.status = run.status := by
  induction later generalizing s run with
  | nil => exact ⟨run, hrun, rfl, rfl⟩
  | cons op later ih =>
    obtain ⟨run₁, hrun₁, hid₁, howner₁, hstatus₁⟩ :=
      terminal_apply hs hlater.1 hrun (hkept op List.mem_cons_self) hterminal
    obtain ⟨run₂, hrun₂, hid₂, hstatus₂⟩ := ih (sound_apply hs op) hlater.2 hrun₁
      (fun op' hop' => howner₁ ▸ hkept op' (List.mem_cons_of_mem op hop'))
      (hstatus₁ ▸ hterminal)
    exact ⟨run₂, hrun₂, hid₂.trans hid₁, hstatus₂.trans hstatus₁⟩

theorem paused_run (hs : s.Sound) {later : List SchedulerOp} {key : String} {run : AutomationRun}
    (hrun : s.runs[key]? = some run) (hpaused : run.status = .pausedForUser)
    (hlater : ∀ op ∈ later, ¬ op.Draws key ∧ op ≠ .remove run.automationId) :
    ∃ run', (Lib.run apply s later).runs[key]? = some run' ∧ run'.id = run.id ∧
      run'.status = .pausedForUser := by
  induction later generalizing s run with
  | nil => exact ⟨run, hrun, rfl, hpaused⟩
  | cons op later ih =>
    obtain ⟨⟨hdraws, hkept⟩, hlater⟩ := List.forall_mem_cons.mp hlater
    obtain ⟨run₁, hrun₁, hcontinues⟩ := hs.continues hrun hdraws hkept
    obtain ⟨run₂, hrun₂, hid, hstatus⟩ := ih (sound_apply hs op) hrun₁
      (hcontinues.standing.paused hpaused) (hcontinues.automationId ▸ hlater)
    exact ⟨run₂, hrun₂, hid.trans hcontinues.id, hstatus⟩

/-- **An interrupted run is never replayed.**  A run that is Running when the user takes over or
the host restarts is paused, and stays so through all later calls: none of them starts, resumes,
finishes or queues it again, as long as its automation is not removed and its key not drawn. -/
theorem interrupted_not_replayed {ops later : List SchedulerOp} {interrupt : SchedulerOp}
    (hinterrupt : interrupt = .preemptForUser ∨ interrupt = .recoverAfterRestart) {key : String}
    {run : AutomationRun} (hrun : (Lib.run apply {} ops).runs[key]? = some run)
    (hrunning : run.status = .running)
    (hlater : ∀ op ∈ later, ¬ op.Draws key ∧ op ≠ .remove run.automationId) :
    ∃ run', (Lib.run apply {} (ops ++ interrupt :: later)).runs[key]? = some run' ∧
      run'.id = run.id ∧ run'.status = .pausedForUser := by
  have hsound := sound_apply (sound_run ops) interrupt
  obtain ⟨paused, hget, hid, howner, hstatus⟩ :
      ∃ run', ((Lib.run apply {} ops).apply interrupt).runs[key]? = some run' ∧
        run'.id = run.id ∧ run'.automationId = run.automationId ∧
        run'.status = .pausedForUser := by
    rcases hinterrupt with rfl | rfl
    · refine ⟨preempted run, ?_, by simp [preempted, hrunning]⟩
      exact getElem?_map.trans (by rw [hrun]; rfl)
    · refine ⟨recovered run, ?_, by simp [recovered, hrunning]⟩
      exact getElem?_map.trans (by rw [hrun]; rfl)
  rw [Lib.run_append, Lib.run_cons, ← hid]
  exact paused_run hsound hget hstatus (howner ▸ hlater)

/-- **The integrity of the scheduler.**  After any calls from the empty snapshot, each run is
stored under its own key and its automation is there; a finished run keeps its status through
all further calls that do not remove its automation; a run carries a runtime request only
while it waits for approval; and a call that returns an error changes nothing.  Provided that
no run bound to a request is approved by `approve`, and that drawn UUIDs are new. -/
theorem scheduler_integrity {ops : List SchedulerOp} (hops : Along apply Orderly {} ops) :
    let s := Lib.run apply {} ops
    (∀ (key : String) (run : AutomationRun), s.runs[key]? = some run →
      run.scheduleKey = key ∧ run.automationId ∈ s.automations) ∧
    (∀ (key : String) (run : AutomationRun), s.runs[key]? = some run →
      run.status ∈ [AutomationRunStatus.completed, .failed, .skipped] →
      ∀ later, Along apply Orderly s later →
        (∀ op ∈ later, op ≠ .remove run.automationId) →
        ∃ run', (Lib.run apply s later).runs[key]? = some run' ∧ run'.id = run.id ∧
          run'.status = run.status) ∧
    (∀ (key : String) (run : AutomationRun), s.runs[key]? = some run →
      run.runtimeRequestId ≠ none → run.status = .waitingApproval) ∧
    ∀ op error, (s.perform op).2 = .error (.returned error) → (s.perform op).1 = s := by
  intro s
  have hsound : s.Sound := sound_run ops
  have hwait : s.Sound ∧ s.RequestsWait :=
    hops.invariant (fun s => s.Sound ∧ s.RequestsWait)
      (fun _ op hop h => ⟨sound_apply h.1 op, requestsWait_apply h.1 hop h.2⟩)
      ⟨sound_empty, fun key run hrun => by simp at hrun⟩
  refine ⟨hsound.run, ?_, hwait.2, fun op error => perform_error hsound op⟩
  intro key run hrun hterminal later hlater hkept
  exact terminal_run hsound hlater hrun hkept hterminal

end

/-! ### An approved run keeps its request -/

section Examples

attribute [local instance] plainSeconds

/-- The start of a second. -/
def second (n : ℕ) (h : true = Nat.ble n 8210266876799 := by rfl) : Instant where
  secs := n
  nanos := 0
  inRange := ⟨by omega, by exact_mod_cast Nat.le_of_ble_eq_true h.symm⟩
  subsecond := by decide

/-- An automation that runs one at a time. -/
def briefing (id : Uuid) (trigger : Trigger) (nextDueAt : Option Instant) : Automation where
  id := id
  name := "briefing"
  goalTemplate := "summarize changes"
  trigger := trigger
  enabled := true
  maxConcurrency := 1
  missedRunPolicy := .catchUpBounded
  consecutiveFailures := 0
  pauseAfterFailures := 2
  previousState := none
  nextDueAt := nextDueAt
  maximumCatchUpRuns := 3
  quietHoursUtc := none
  notificationRoute := "desktop"

/-- A run started by hand that waits for a bound approval. -/
def boundRun : List SchedulerOp :=
  [.upsert (briefing 1 (.interval 60) none), .runNow (fun _ => 9) 1 (second 5) 7,
    .start (manualKey 1 (second 5) 7) (second 6),
    .bindApproval (manualKey 1 (second 5) 7) "session" "request" "write files"]

/-- **`approve` forgets the request.**  The run is queued again and still bound to it. -/
theorem approved_run_keeps_request :
    ((Lib.run apply {} (boundRun ++ [.approve (manualKey 1 (second 5) 7)])).runs[
      manualKey 1 (second 5) 7]?).map AutomationRun.standing =
      some (.queued, some "request") := by
  decide +kernel

/-- The host restarts while the run is at work; the run cannot be started again. -/
theorem interrupted_not_replayed_restart :
    let key := manualKey 1 (second 5) 7
    ∃ run', (Lib.run apply {} (boundRun.take 3 ++
      .recoverAfterRestart :: [.start key (second 9)])).runs[key]? = some run' ∧
      run'.id = 9 ∧ run'.status = .pausedForUser := by
  intro key
  have hstarted : ((Lib.run apply {} (boundRun.take 3)).runs[key]?).map
      (fun run => (run.id, run.status)) = some (9, .running) := by decide +kernel
  obtain ⟨run, hrun, hstarted⟩ := Option.map_eq_some_iff.mp hstarted
  obtain ⟨hid, hrunning⟩ := Prod.mk.inj hstarted
  have hlater : ∀ op ∈ [SchedulerOp.start key (second 9)],
      ¬ op.Draws key ∧ op ≠ .remove run.automationId := by
    intro op hop
    obtain rfl := List.mem_singleton.mp hop
    exact ⟨fun ⟨_, _, _, _, h, _⟩ => (nomatch h), nofun⟩
  obtain ⟨run', hrun', hid', hstatus⟩ := interrupted_not_replayed (.inr rfl) hrun hrunning hlater
  exact ⟨run', hrun', hid'.trans hid, hstatus⟩

instance decidableOrderly (s : SchedulerSnapshot) : ∀ op, Decidable (s.Orderly op)
  | .approve key => inferInstanceAs (Decidable (∀ run ∈ s.runs[key]?, run.runtimeRequestId = none))
  | .runNow _ id now nonce => inferInstanceAs (Decidable (s.runs[manualKey id now nonce]? = none))
  | .upsert _ | .evaluate _ _ | .triggerEvent _ _ _ | .setEnabled _ _ | .remove _ | .start _ _
  | .waitForApproval _ _ | .bindApproval _ _ _ _ | .bindRuntimeSession _ _
  | .resumeAfterApproval _ | .finish _ _ _ _ | .setResultSummary _ _ | .failActive _ _ _
  | .recoverAfterRestart | .preemptForUser | .fromSnapshot => inferInstanceAs (Decidable True)

/-- The approved run is resumed and finished. -/
theorem scheduler_integrity_finished :
    let ops := boundRun ++ [.resumeAfterApproval (manualKey 1 (second 5) 7),
      .finish (manualKey 1 (second 5) 7) true none (second 8)]
    let s := Lib.run apply {} ops
    (s.runs[manualKey 1 (second 5) 7]?).map AutomationRun.standing = some (.completed, none) ∧
    ∀ op error, (s.perform op).2 = .error (.returned error) → (s.perform op).1 = s := by
  intro ops s
  have hops : Along apply Orderly {} (boundRun ++
      [.resumeAfterApproval (manualKey 1 (second 5) 7),
        .finish (manualKey 1 (second 5) 7) true none (second 8)]) := by decide +kernel
  exact ⟨by decide +kernel, (scheduler_integrity hops).2.2.2⟩

end Examples

end SchedulerSnapshot
end PersonalAgent.Automation
