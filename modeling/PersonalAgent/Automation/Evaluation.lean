/-
# What one evaluation enqueues

`evaluate` enqueues, for each enabled automation that is due, the missed times up to `now`,
at most `maximum_catch_up_runs` of them, and moves the next due time past `now`.  A second
evaluation at an earlier or the same time therefore finds nothing due, and a time that comes
up again (after an `upsert` with an old due time) finds its key in use.

`upsert` accepts intervals that `chrono::Duration` cannot hold, and `evaluate` panics at the
first due automation that has one, before it comes to those with a larger id: a later
evaluation then enqueues what the first one should have (`panicked_evaluation_is_resumed`).
With intervals that fit, an evaluation is never repeated (`evaluate_once`).
-/

import PersonalAgent.Automation.Integrity

namespace PersonalAgent.Automation

open Lib List Std.ExtTreeMap Option

/-! ### The due times -/

section

variable [ChronoSeconds]

theorem length_catchUp_le (step : ℕ) (now : Instant) (room : ℕ) (cursor : Instant) :
    (catchUp step now room cursor).length ≤ room := by
  induction room generalizing cursor with
  | zero => exact le_rfl
  | succ room ih =>
    unfold catchUp
    split
    · exact Nat.zero_le _
    · split_ifs
      · exact Nat.zero_le _
      · exact Nat.succ_le_succ (ih _)

/-- The times of the loop are whole intervals after its start, and not later than `now`. -/
theorem of_mem_catchUp {step : ℕ} {now : Instant} {room : ℕ} {cursor time : Instant}
    (h : time ∈ catchUp step now room cursor) :
    (∃ k : ℕ, cursor.checkedAddSigned (k * step) = some time) ∧ time ≤ now := by
  induction room generalizing cursor with
  | zero => cases h
  | succ room ih =>
    unfold catchUp at h
    split at h
    · cases h
    · rename_i next hnext
      split_ifs at h with hnow
      · cases h
      · rcases mem_cons.mp h with rfl | h
        · exact ⟨⟨1, by rwa [one_mul]⟩, not_lt.mp hnow⟩
        · obtain ⟨⟨k, hk⟩, hle⟩ := ih h
          refine ⟨⟨k + 1, ?_⟩, hle⟩
          rw [Nat.succ_mul, add_comm]
          exact Instant.checkedAddSigned_add hnext hk

end

/-! ### Kinds of calls -/

/-- The calls other than those that enqueue runs off the schedule. -/
def SchedulerOp.OnSchedule : SchedulerOp → Prop
  | .runNow _ _ _ _ | .triggerEvent _ _ _ => False
  | _ => True

/-- Clock ticks: evaluations at any times, and restarts from the snapshot. -/
def SchedulerOp.Ticks : SchedulerOp → Prop
  | .evaluate _ _ | .fromSnapshot | .recoverAfterRestart => True
  | _ => False

namespace SchedulerSnapshot

section

variable [ChronoSeconds] {a : Automation} {now time : Instant} {key : String} {ids : List Uuid}
  {draw : String → Uuid} {queued : List String}

theorem length_dueList_le (h : a.maximumCatchUpRuns ≠ 0) (first now : Instant)
    (interval : Option ℕ) : (dueList a first now interval).length ≤ a.maximumCatchUpRuns := by
  cases interval with
  | none => exact Nat.one_le_iff_ne_zero.mpr h
  | some seconds =>
    have hle := length_catchUp_le seconds now (a.maximumCatchUpRuns - 1) first
    rw [dueList, length_cons]
    omega

theorem of_mem_dueList {first : Instant} {interval : Option ℕ} (hfirst : first ≤ now)
    (h : time ∈ dueList a first now interval) :
    (∃ k : ℕ, first.checkedAddSigned (k * interval.getD 0) = some time) ∧ time ≤ now := by
  have hzero : ∃ k : ℕ, first.checkedAddSigned (k * interval.getD 0) = some first :=
    ⟨0, by rw [zero_mul, Instant.checkedAddSigned_zero]⟩
  cases interval with
  | none =>
    obtain rfl := mem_singleton.mp h
    exact ⟨hzero, hfirst⟩
  | some seconds =>
    rcases mem_cons.mp h with rfl | h
    · exact ⟨hzero, hfirst⟩
    · exact of_mem_catchUp h

/-- The next due time lies after the evaluation. -/
theorem lt_nextDueAfter {next : Instant} {interval : Option ℕ} (ha : Accepted a)
    (hinterval : triggerIntervalSeconds a.trigger = .ok interval)
    (h : nextDueAfter now interval a.trigger = .ok (some next)) : now < next := by
  obtain ⟨interval', hinterval', hpos⟩ := interval_of_valid ha.trigger
  obtain rfl := Except.ok.inj (hinterval.symm.trans hinterval')
  generalize a.trigger = trigger at h
  cases interval with
  | none => cases trigger <;> cases h
  | some seconds =>
    by_cases hfits : seconds ≤ maxDuration
    · cases trigger with
      | once => cases h
      | _ =>
        simp only [nextDueAfter, durationSeconds_of_le hfits, Except.ok.injEq] at h
        exact Instant.lt_checkedAddSigned (hpos seconds rfl) h
    · rw [not_le] at hfits
      cases trigger <;> simp [nextDueAfter, durationSeconds_of_lt hfits] at h

/-- A time that is due at `now`: whole intervals after the next due time. -/
def Missed (a : Automation) (now time : Instant) : Prop :=
  ∃ nextDue interval, a.nextDueAt = some nextDue ∧
    triggerIntervalSeconds a.trigger = .ok interval ∧
    (∃ k : ℕ, nextDue.checkedAddSigned (k * interval.getD 0) = some time) ∧ time ≤ now

/-! ### Runs that an evaluation adds -/

/-- The runs of `id` in `s'` that are not in `s` stand for some of the given times. -/
def Adds (s s' : SchedulerSnapshot) (id : Uuid) (times : List Instant) : Prop :=
  ∀ (key : String) (run : AutomationRun), s'.runs[key]? = some run → run.automationId = id →
    s.runs[key]? = some run ∨
      s.runs[key]? = none ∧ run.scheduledFor ∈ times ∧ key = scheduleKey id run.scheduledFor

variable {s s' s'' : SchedulerSnapshot} {id : Uuid}

omit [ChronoSeconds] in
theorem Adds.refl (s : SchedulerSnapshot) (id : Uuid) (times : List Instant) : Adds s s id times :=
  fun _ _ hrun _ => .inl hrun

omit [ChronoSeconds] in
theorem Adds.trans {times times' : List Instant} (hgrows : Grows s s') (h : Adds s s' id times)
    (h' : Adds s' s'' id times') : Adds s s'' id (times ++ times') := by
  intro key run hrun howner
  rcases h' key run hrun howner with hrun' | ⟨hnone, htime, hkey⟩
  · rcases h key run hrun' howner with hrun'' | ⟨hnone, htime, hkey⟩
    · exact .inl hrun''
    · exact .inr ⟨hnone, mem_append_left _ htime, hkey⟩
  · refine .inr ⟨?_, mem_append_right _ htime, hkey⟩
    rcases hgrows.runs key with heq | ⟨hnone', -⟩
    · exact heq ▸ hnone
    · exact hnone'

omit [ChronoSeconds] in
/-- The inner loop of `evaluate`. -/
theorem of_mem_enqueue (draw : String → Uuid) {owner : Uuid}
    {due : List (Instant × AutomationRunStatus)} {acc : BTreeMap String AutomationRun × List String}
    {run : AutomationRun} (h : (due.foldl (enqueue draw owner) acc).1[key]? = some run) :
    acc.1[key]? = some run ∨ acc.1[key]? = none ∧ run.automationId = owner ∧
      (∃ d ∈ due, run.scheduledFor = d.1) ∧ key = scheduleKey owner run.scheduledFor := by
  induction due generalizing acc with
  | nil => exact .inl h
  | cons d due ih =>
    rw [foldl_cons] at h
    by_cases hcontains : acc.1.contains (scheduleKey owner d.1)
    · rw [enqueue, if_pos hcontains] at h
      rcases ih h with hbefore | ⟨hnone, howner, ⟨d', hd', htime⟩, hkey⟩
      · exact .inl hbefore
      · exact .inr ⟨hnone, howner, ⟨d', mem_cons_of_mem d hd', htime⟩, hkey⟩
    · rw [enqueue, if_neg hcontains] at h
      rw [contains_eq_isSome_getElem?, Bool.not_eq_true, isSome_eq_false_iff,
        isNone_iff_eq_none] at hcontains
      rcases ih h with hbefore | ⟨hnone, howner, ⟨d', hd', htime⟩, hkey⟩
      · rw [getElem?_insert_eq] at hbefore
        split_ifs at hbefore with hnew
        · obtain rfl := Option.some.inj hbefore
          exact .inr ⟨hnew ▸ hcontains, rfl, ⟨d, mem_cons_self, rfl⟩, hnew⟩
        · exact .inl hbefore
      · rw [getElem?_insert_eq] at hnone
        split_ifs at hnone
        exact .inr ⟨hnone, howner, ⟨d', mem_cons_of_mem d hd', htime⟩, hkey⟩

theorem adds_evaluateAutomation (draw : String → Uuid) (now : Instant) (queued : List String)
    (ha : s.automations[id]? = some a) (haccepted : Accepted a) :
    ∃ times, times.length ≤ a.maximumCatchUpRuns ∧
      (∀ time ∈ times, Missed a now time) ∧
      Adds s (s.evaluateAutomation draw now queued id).1 id times := by
  have hspec := evaluateAutomation_spec draw now s queued id
  generalize s.evaluateAutomation draw now queued id = r at hspec
  have hnothing : ∃ times, times.length ≤ a.maximumCatchUpRuns ∧
      (∀ time ∈ times, Missed a now time) ∧ Adds s s id times :=
    ⟨[], Nat.zero_le _, fun _ h => absurd h not_mem_nil, .refl s id []⟩
  cases hspec with
  | missing | idle | invalid | overflow => exact hnothing
  | @due a' stored nextDue interval due ha' henabled hnext hnow hinterval hdue hafter hsame =>
    obtain rfl := Option.some.inj (ha.symm.trans ha')
    refine ⟨dueList a nextDue now interval, length_dueList_le haccepted.limits.2.2 _ _ _, ?_, ?_⟩
    · exact fun time htime => ⟨nextDue, interval, hnext, hinterval, of_mem_dueList hnow htime⟩
    · intro key run hrun howner
      rcases of_mem_enqueue draw hrun with hbefore | ⟨hnone, -, ⟨d, hd, htime⟩, hkey⟩
      · exact .inl hbefore
      · refine .inr ⟨hnone, ?_, hkey⟩
        rw [htime]
        exact (status_of_mem_apply (hdue ▸ hd)).1

/-- The step of another automation adds no runs of this one. -/
theorem adds_evaluateAutomation_other (draw : String → Uuid) (now : Instant)
    (queued : List String) {other : Uuid} (hne : id ≠ other) :
    Adds s (s.evaluateAutomation draw now queued other).1 id [] := by
  have hspec := evaluateAutomation_spec draw now s queued other
  generalize s.evaluateAutomation draw now queued other = r at hspec
  cases hspec with
  | missing | idle | invalid | overflow => exact .refl s id []
  | due =>
    intro key run hrun howner
    rcases of_mem_enqueue draw hrun with hbefore | ⟨-, howner', -⟩
    · exact .inl hbefore
    · exact absurd (howner.symm.trans howner') hne

/-- The loop of `evaluate`, for an automation it does not come to. -/
theorem adds_evaluateAll_of_notMem (draw : String → Uuid) (now : Instant) (s : SchedulerSnapshot)
    (queued : List String) (hid : id ∉ ids) :
    Adds s (evaluateAll draw now s queued ids).1 id [] := by
  refine (evaluateAll_relates (fun s s' => Grows s s' ∧ Adds s s' id [])
    (fun s => ⟨.refl s, .refl s id []⟩) (fun h h' => ⟨h.1.trans h'.1, h.2.trans h.1 h'.2⟩)
    (fun s queued other hother => ⟨grows_evaluateAutomation draw now queued other, ?_⟩) s queued).2
  exact adds_evaluateAutomation_other draw now queued (ne_of_mem_of_not_mem hother hid).symm

/-- **The bound on one evaluation,** for the loop over the automations. -/
theorem adds_evaluateAll (draw : String → Uuid) (now : Instant) (s : SchedulerSnapshot)
    (queued : List String) (hids : ids.Nodup) (ha : s.automations[id]? = some a)
    (haccepted : Accepted a) :
    ∃ times, times.length ≤ a.maximumCatchUpRuns ∧
      (∀ time ∈ times, Missed a now time) ∧
      Adds s (evaluateAll draw now s queued ids).1 id times := by
  induction ids generalizing s queued with
  | nil => exact ⟨[], Nat.zero_le _, fun _ h => absurd h not_mem_nil, .refl s id []⟩
  | cons other ids ih =>
    obtain ⟨hnotMem, hids⟩ := nodup_cons.mp hids
    have hgrows := grows_evaluateAutomation (s := s) draw now queued other
    unfold evaluateAll
    by_cases hother : id = other
    · -- its own turn: nothing is added for it afterwards
      subst hother
      obtain ⟨times, hlength, htimes, hadds⟩ :=
        adds_evaluateAutomation draw now queued ha haccepted
      refine ⟨times, hlength, htimes, ?_⟩
      generalize s.evaluateAutomation draw now queued id = r at hadds hgrows
      obtain ⟨s₁, fault | queued₁⟩ := r
      · exact hadds
      · have hrest := adds_evaluateAll_of_notMem draw now s₁ queued₁ hnotMem
        have hall := hadds.trans hgrows hrest
        rwa [append_nil] at hall
    · have hadds := adds_evaluateAutomation_other (s := s) draw now queued hother
      have hkept := automations_evaluateAutomation_other (s := s) draw now queued hother
      generalize s.evaluateAutomation draw now queued other = r at hadds hkept hgrows
      obtain ⟨s₁, fault | queued₁⟩ := r
      · exact ⟨[], Nat.zero_le _, fun _ h => absurd h not_mem_nil, hadds⟩
      · obtain ⟨times, hlength, htimes, hrest⟩ := ih s₁ queued₁ hids (hkept.trans ha)
        exact ⟨times, hlength, htimes, hadds.trans hgrows hrest⟩

/-- `evaluate` and its loop leave the same runs and automations. -/
theorem evaluate_fst (s : SchedulerSnapshot) (draw : String → Uuid) (now : Instant) :
    (s.evaluate draw now).1.runs = (evaluateAll draw now s [] s.automations.keys).1.runs ∧
    (s.evaluate draw now).1.automations =
      (evaluateAll draw now s [] s.automations.keys).1.automations ∧
    (s.evaluate draw now).2 = (evaluateAll draw now s [] s.automations.keys).2 := by
  unfold evaluate
  generalize evaluateAll draw now s [] s.automations.keys = r
  obtain ⟨s₁, fault | queued⟩ := r <;> exact ⟨rfl, rfl, rfl⟩

/-- The runs of an automation that an evaluation adds. -/
def addedRuns (s s' : SchedulerSnapshot) (id : Uuid) : BTreeMap String AutomationRun :=
  s'.runs.filter fun key run => run.automationId == id && !s.runs.contains key

omit [ChronoSeconds] in
theorem getElem?_addedRuns {run : AutomationRun} (h : (addedRuns s s' id)[key]? = some run) :
    s'.runs[key]? = some run ∧ run.automationId = id ∧ s.runs[key]? = none := by
  unfold addedRuns at h
  rw [Std.ExtTreeMap.getElem?_filter, pfilter_eq_some_iff] at h
  obtain ⟨hrun, htest⟩ := h
  simp only [Bool.and_eq_true, beq_iff_eq, Bool.not_eq_true',
    getKey_eq, contains_eq_isSome_getElem?,
    isSome_eq_false_iff, isNone_iff_eq_none] at htest
  exact ⟨hrun, htest⟩

theorem addedRuns_evaluate (hs : s.Sound) (draw : String → Uuid) (now : Instant)
    (ha : s.automations[id]? = some a) :
    (addedRuns s (s.evaluate draw now).1 id).size ≤ a.maximumCatchUpRuns ∧
    ∀ (key : String) (run : AutomationRun),
      (addedRuns s (s.evaluate draw now).1 id)[key]? = some run →
      Missed a now run.scheduledFor := by
  obtain ⟨times, hlength, htimes, hadds⟩ := adds_evaluateAll draw now s []
    s.automations.nodup_keys ha (hs.automation id a ha).2
  have hadded (key : String) (run : AutomationRun)
      (h : (addedRuns s (s.evaluate draw now).1 id)[key]? = some run) :
      run.scheduledFor ∈ times ∧ key = scheduleKey id run.scheduledFor := by
    obtain ⟨hrun, howner, hnone⟩ := getElem?_addedRuns h
    rw [(evaluate_fst s draw now).1] at hrun
    rcases hadds key run hrun howner with hbefore | ⟨-, htime, hkey⟩
    · rw [hnone] at hbefore
      cases hbefore
    · exact ⟨htime, hkey⟩
  refine ⟨?_, fun key run h => htimes _ (hadded key run h).1⟩
  calc (addedRuns s (s.evaluate draw now).1 id).size
      ≤ (times.map (scheduleKey id)).length := by
        refine size_le_length fun key hkey => ?_
        obtain ⟨run, hrun⟩ := isSome_iff_exists.mp
          (mem_iff_isSome_getElem?.mp hkey)
        obtain ⟨htime, hkey⟩ := hadded key run hrun
        exact mem_map.mpr ⟨_, htime, hkey.symm⟩
    _ = times.length := length_map _
    _ ≤ a.maximumCatchUpRuns := hlength

/-! ### Nothing is due after an evaluation -/

/-- The automation is not due at `now`. -/
def NotDue (now : Instant) (automation : Option Automation) : Prop :=
  ∀ a ∈ automation, a.enabled = true → ∀ time ∈ a.nextDueAt, now < time

theorem notDue_evaluateAutomation (hs : ∀ a, s.automations[id]? = some a → Accepted a)
    (draw : String → Uuid) (now : Instant) (queued : List String) (other : Uuid)
    (h : NotDue time s.automations[id]?) :
    NotDue time (s.evaluateAutomation draw now queued other).1.automations[id]? := by
  by_cases hother : id = other
  · subst hother
    have hspec := evaluateAutomation_spec draw now s queued id
    generalize s.evaluateAutomation draw now queued id = r at hspec
    cases hspec with
    | missing | idle | invalid | overflow => exact h
    | @due a stored nextDue interval due ha henabled hnext hnow hinterval hdue hafter hsame =>
      dsimp only
      rw [getElem?_insert_eq, if_pos rfl]
      rintro _ ⟨⟩ - next hnext'
      rw [mem_def.mp hnext'] at hafter
      calc time < nextDue := h a ha henabled nextDue hnext
        _ ≤ now := hnow
        _ < next := lt_nextDueAfter (hs a ha) hinterval hafter
  · rw [automations_evaluateAutomation_other (s := s) draw now queued hother]
    exact h

theorem notDue_of_evaluated (hs : ∀ a, s.automations[id]? = some a → Accepted a)
    {queued' : List String} (hok : s.evaluateAutomation draw now queued id = (s', .ok queued')) :
    NotDue now s'.automations[id]? := by
  have hspec := evaluateAutomation_spec draw now s queued id
  rw [hok] at hspec
  cases hspec with
  | @idle a ha h =>
    rw [ha]
    rintro _ ⟨⟩
    exact h
  | @due a stored nextDue interval due ha henabled hnext hnow hinterval hdue hafter hsame =>
    dsimp only
    rw [getElem?_insert_eq, if_pos rfl]
    rintro _ ⟨⟩ - next hnext'
    rw [mem_def.mp hnext'] at hafter
    exact lt_nextDueAfter (hs a ha) hinterval hafter

/-- Every automation is one that `upsert` accepts. -/
def AllAccepted (s : SchedulerSnapshot) : Prop :=
  ∀ (id : Uuid) (a : Automation), s.automations[id]? = some a → Accepted a

omit [ChronoSeconds] in
theorem Grows.accepted (h : Grows s s') (hs : s.AllAccepted) : s'.AllAccepted := by
  intro id a ha
  have hrel := h.automations id
  rw [ha] at hrel
  generalize hold : s.automations[id]? = old at hrel
  cases hrel with
  | some hsame => exact (hs id _ hold).congr hsame

theorem notDue_evaluateAll (hs : s.AllAccepted) (draw : String → Uuid) (now : Instant)
    (queued : List String) (ids : List Uuid) {id : Uuid} (h : NotDue time s.automations[id]?) :
    NotDue time (evaluateAll draw now s queued ids).1.automations[id]? := by
  refine (evaluateAll_relates (fun s s' => s.AllAccepted ∧ NotDue time s.automations[id]? →
    s'.AllAccepted ∧ NotDue time s'.automations[id]?) (fun _ h => h) (fun h h' hs => h' (h hs))
    (fun s queued other _ h => ?_) s queued ⟨hs, h⟩).2
  exact ⟨(grows_evaluateAutomation draw now queued other).accepted h.1,
    notDue_evaluateAutomation (h.1 id) draw now queued other h.2⟩

theorem notDue_of_evaluatedAll (hs : s.AllAccepted) {queued' : List String}
    (hok : (evaluateAll draw now s queued ids).2 = .ok queued') {id : Uuid} (hid : id ∈ ids) :
    NotDue now (evaluateAll draw now s queued ids).1.automations[id]? := by
  induction ids generalizing s queued with
  | nil => cases hid
  | cons other ids ih =>
    have hgrows := grows_evaluateAutomation (s := s) draw now queued other
    unfold evaluateAll at hok ⊢
    rcases hr : s.evaluateAutomation draw now queued other with ⟨s₁, fault | queued₁⟩
    · rw [hr] at hok
      cases hok
    · rw [hr] at hok hgrows
      rcases mem_cons.mp hid with rfl | hid
      · exact notDue_evaluateAll (hgrows.accepted hs) draw now queued₁ ids
          (notDue_of_evaluated (hs id) hr)
      · exact ih (hgrows.accepted hs) hok hid

/-- No automation is due at `now`. -/
def Quiet (s : SchedulerSnapshot) (now : Instant) : Prop :=
  ∀ id : Uuid, NotDue now s.automations[id]?

theorem quiet_evaluate (hs : s.Sound) (hok : (s.evaluate draw now).2 = .ok queued) :
    (s.evaluate draw now).1.Quiet now := by
  intro id
  obtain ⟨-, hautomations, hresult⟩ := evaluate_fst s draw now
  rw [hautomations]
  by_cases hid : id ∈ s.automations
  · exact notDue_of_evaluatedAll (fun id a ha => (hs.automation id a ha).2) (hresult ▸ hok)
      (mem_keys.mpr hid)
  · rw [← (grows_evaluate s draw now).mem_automations id, hautomations,
      mem_iff_isSome_getElem?, Bool.not_eq_true, isSome_eq_false_iff,
      isNone_iff_eq_none] at hid
    rw [hid]
    exact fun a ha => nomatch ha

theorem Quiet.evaluate (hs : s.Sound) (h : s.Quiet time) (draw : String → Uuid) (now : Instant) :
    (s.evaluate draw now).1.Quiet time := by
  intro id
  rw [(evaluate_fst s draw now).2.1]
  exact notDue_evaluateAll (fun id a ha => (hs.automation id a ha).2) draw now [] _ (h id)

/-- An evaluation at which nothing is due. -/
theorem evaluateAll_of_quiet (h : s.Quiet now) (draw : String → Uuid) (queued : List String)
    (hids : ∀ id ∈ ids, id ∈ s.automations) :
    evaluateAll draw now s queued ids = (s, .ok queued) := by
  induction ids with
  | nil => rfl
  | cons id ids ih =>
    have hidle : s.evaluateAutomation draw now queued id = (s, .ok queued) := by
      obtain ⟨a, ha⟩ := isSome_iff_exists.mp
        (mem_iff_isSome_getElem?.mp (hids id mem_cons_self))
      unfold evaluateAutomation
      rw [ha]
      dsimp only
      split_ifs with henabled
      · rfl
      split
      · rfl
      · rename_i nextDue hnext
        rw [if_pos (h id a ha (by simpa using henabled) nextDue hnext)]
    rw [evaluateAll, hidle]
    exact ih fun id' hid' => hids id' (mem_cons_of_mem id hid')

theorem evaluate_of_quiet (h : s.Quiet time) (hnow : now ≤ time) (draw : String → Uuid) :
    s.evaluate draw now = ({ s with lastEvaluatedAt := some now }, .ok []) := by
  have hquiet : s.Quiet now := fun id a ha henabled next hnext =>
    hnow.trans_lt (h id a ha henabled next hnext)
  rw [evaluate, evaluateAll_of_quiet hquiet draw [] fun id hid => mem_keys.mp hid]

/-! ### Slots -/

/-- Runs that an evaluation enqueued are stored under their slots. -/
def Slotted (s : SchedulerSnapshot) : Prop :=
  ∀ (key : String) (run : AutomationRun), s.runs[key]? = some run →
    key = scheduleKey run.automationId run.scheduledFor

/-- What an evaluation enqueues is stored under its slot. -/
theorem slot_of_mem_evaluateAll (draw : String → Uuid) (now : Instant) (queued : List String)
    (ids : List Uuid) {run : AutomationRun}
    (hrun : (SchedulerSnapshot.evaluateAll draw now s queued ids).1.runs[key]? = some run) :
    s.runs[key]? = some run ∨ key = scheduleKey run.automationId run.scheduledFor := by
  refine evaluateAll_relates (fun s s' => ∀ run, s'.runs[key]? = some run →
    s.runs[key]? = some run ∨ key = scheduleKey run.automationId run.scheduledFor)
    (fun _ _ hrun => .inl hrun) (fun h h' run hrun => (h' run hrun).elim (h run) .inr)
    (fun s queued id _ run hrun => ?_) s queued run hrun
  have hspec := evaluateAutomation_spec draw now s queued id
  generalize s.evaluateAutomation draw now queued id = r at hspec hrun
  cases hspec with
  | missing | idle | invalid | overflow => exact .inl hrun
  | due =>
    rcases of_mem_enqueue draw hrun with hbefore | ⟨-, howner, -, hkey⟩
    · exact .inl hbefore
    · exact .inr (howner ▸ hkey)

theorem Slotted.apply (hs : s.Sound) (h : s.Slotted) {op : SchedulerOp}
    (hop : op.OnSchedule) : (s.apply op).Slotted := by
  intro key run hrun
  rcases hs.run_cases hrun with ⟨run₀, hold, hcontinues⟩ | ⟨henqueues, -⟩
  · rw [hcontinues.automationId, hcontinues.scheduledFor]
    exact h key run₀ hold
  · cases op with
    | evaluate draw now =>
      change (s.evaluate draw now).1.runs[key]? = some run at hrun
      rw [(evaluate_fst s draw now).1] at hrun
      rcases slot_of_mem_evaluateAll draw now [] _ hrun with hbefore | hkey
      · exact h key run hbefore
      · exact hkey
    | runNow => exact hop.elim
    | triggerEvent => exact hop.elim
    | _ => exact henqueues.elim

theorem Slotted.run (hs : s.Sound) (h : s.Slotted) {ops : List SchedulerOp}
    (hops : ∀ op ∈ ops, op.OnSchedule) : (Lib.run SchedulerSnapshot.apply s ops).Slotted := by
  induction ops generalizing s with
  | nil => exact h
  | cons op ops ih =>
    exact ih (sound_apply hs op) (h.apply hs (hops op mem_cons_self))
      fun op' hop' => hops op' (mem_cons_of_mem op hop')

/-! ### Whole runs -/

theorem Quiet.apply (hs : s.Sound) (h : s.Quiet time) {op : SchedulerOp} (hop : op.Ticks) :
    (s.apply op).Quiet time := by
  cases op with
  | evaluate draw now => exact h.evaluate hs draw now
  | fromSnapshot => exact h
  | recoverAfterRestart => exact h
  | _ => exact hop.elim

theorem Quiet.run (hs : s.Sound) (h : s.Quiet time) {ticks : List SchedulerOp}
    (hticks : ∀ op ∈ ticks, op.Ticks) : (Lib.run SchedulerSnapshot.apply s ticks).Quiet time := by
  induction ticks generalizing s with
  | nil => exact h
  | cons op ticks ih =>
    exact ih (sound_apply hs op) (h.apply hs (hticks op mem_cons_self))
      fun op' hop' => hticks op' (mem_cons_of_mem op hop')

/-- Every interval fits into a `chrono::Duration`. -/
def IntervalsFit (s : SchedulerSnapshot) : Prop :=
  ∀ (id : Uuid) (a : Automation) (interval : Option ℕ), s.automations[id]? = some a →
    triggerIntervalSeconds a.trigger = .ok interval → Fits interval

theorem evaluate_ok (hs : s.Sound) (hfits : s.IntervalsFit) (draw : String → Uuid)
    (now : Instant) : ∃ queued, (s.evaluate draw now).2 = .ok queued := by
  cases hr : (s.evaluate draw now).2 with
  | ok queued => exact ⟨queued, rfl⟩
  | error fault =>
    obtain ⟨-, id, a, _, interval, ha, -, -, -, hinterval, hnot⟩ := (evaluate_fault_iff hs).mp hr
    exact absurd (hfits id a interval ha hinterval) hnot

/-- **An evaluation happens once.**  In a scheduler reached by any calls, so that all its
automations were accepted by `upsert`:

* if the intervals fit into a duration, `evaluate` at `now` returns, and after any further
  ticks and restarts an evaluation at a time up to `now` enqueues nothing and changes neither
  automations nor runs;
* if nothing was enqueued off the schedule, no two runs of an automation have the same slot;
* one evaluation adds at most `maximum_catch_up_runs` runs of an automation, each of them
  whole intervals after its next due time and not later than `now`. -/
theorem evaluate_once (ops : List SchedulerOp) :
    let s := Lib.run apply {} ops
    (s.IntervalsFit → ∀ draw now, (∃ queued, (s.evaluate draw now).2 = .ok queued) ∧
      ∀ ticks, (∀ op ∈ ticks, op.Ticks) → ∀ draw' now', now' ≤ now →
        let s' := Lib.run apply (s.evaluate draw now).1 ticks
        (s'.evaluate draw' now').2 = .ok [] ∧
        (s'.evaluate draw' now').1.automations = s'.automations ∧
        (s'.evaluate draw' now').1.runs = s'.runs) ∧
    ((∀ op ∈ ops, op.OnSchedule) → ∀ (key key' : String) (run run' : AutomationRun),
      s.runs[key]? = some run → s.runs[key']? = some run' →
      run.automationId = run'.automationId →
      run.scheduledFor.timestampMillis = run'.scheduledFor.timestampMillis → key = key') ∧
    ∀ draw now (id : Uuid) (a : Automation), s.automations[id]? = some a →
      let added := addedRuns s (s.evaluate draw now).1 id
      added.size ≤ a.maximumCatchUpRuns ∧
      ∀ (key : String) (run : AutomationRun), added[key]? = some run →
        ∃ nextDue interval, a.nextDueAt = some nextDue ∧
          triggerIntervalSeconds a.trigger = .ok interval ∧
          (∃ k : ℕ, nextDue.checkedAddSigned (k * interval.getD 0) = some run.scheduledFor) ∧
          run.scheduledFor ≤ now := by
  intro s
  have hsound : s.Sound := sound_run ops
  refine ⟨fun hfits draw now => ?_, fun hops key key' run run' hrun hrun' howner htime => ?_,
    fun draw now id a ha => addedRuns_evaluate hsound draw now ha⟩
  · obtain ⟨queued, hqueued⟩ := evaluate_ok hsound hfits draw now
    refine ⟨⟨queued, hqueued⟩, fun ticks hticks draw' now' hnow' => ?_⟩
    have hafter : (s.evaluate draw now).1.Sound := sound_apply hsound (.evaluate draw now)
    have hquiet := (quiet_evaluate hsound hqueued).run hafter hticks
    dsimp only
    rw [evaluate_of_quiet hquiet hnow' draw']
    exact ⟨rfl, rfl, rfl⟩
  · have hslotted : s.Slotted :=
      Slotted.run sound_empty (fun key run hrun => by simp at hrun) hops
    rw [hslotted key run hrun, hslotted key' run' hrun', scheduleKey, scheduleKey, howner, htime]

end

/-! ### A panic in the middle -/

section Examples

attribute [local instance] plainSeconds

/-- Two automations, the first with an interval that no duration can hold. -/
def hugeInterval : List SchedulerOp :=
  [.upsert (briefing 1 (.interval (maxDuration + 1)) (some (second 5))),
    .upsert (briefing 2 (.interval 60) (some (second 3)))]

/-- **An evaluation that panicked is made up for.**  `evaluate` at second 10 panics at the
first automation; at second 4, which is earlier, it enqueues the second one. -/
theorem panicked_evaluation_is_resumed :
    let s := Lib.run apply {} hugeInterval
    let s' := (s.evaluate (fun _ => 9) (second 10)).1
    (s.evaluate (fun _ => 9) (second 10)).2 = .error .panicked ∧ second 4 ≤ second 10 ∧
    (s'.evaluate (fun _ => 9) (second 4)).2 = .ok [scheduleKey 2 (second 3)] ∧
    (s'.evaluate (fun _ => 9) (second 4)).1.runs.size = s'.runs.size + 1 := by
  decide +kernel

/-- An automation that was away for three minutes. -/
def missedRuns : List SchedulerOp := [.upsert (briefing 1 (.interval 60) (some (second 5)))]

theorem intervalsFit_missedRuns : IntervalsFit (Lib.run apply {} missedRuns) := by
  intro id a interval ha hinterval
  have hstored : (Lib.run apply {} missedRuns).automations =
      (∅ : BTreeMap Uuid Automation).insert 1 (briefing 1 (.interval 60) (some (second 5))) := rfl
  rw [hstored, getElem?_insert_eq] at ha
  split_ifs at ha
  · obtain rfl := Option.some.inj ha
    cases hinterval
    rintro _ ⟨⟩
    decide
  · simp at ha

/-- It catches up on three times, and once only. -/
theorem evaluate_once_missed :
    let s := Lib.run apply {} missedRuns
    let s' := (s.evaluate (fun _ => 9) (second 200)).1
    s'.runs.size = 3 ∧ (s'.evaluate (fun _ => 10) (second 190)).2 = .ok [] ∧
      (s'.evaluate (fun _ => 10) (second 190)).1.runs = s'.runs := by
  intro s s'
  have hagain := ((evaluate_once missedRuns).1 intervalsFit_missedRuns (fun _ => 9)
    (second 200)).2 [] (fun _ h => absurd h not_mem_nil) (fun _ => 10) (second 190)
    (by decide +kernel)
  exact ⟨by decide +kernel, hagain.1, hagain.2.2⟩

end Examples

end SchedulerSnapshot
end PersonalAgent.Automation
