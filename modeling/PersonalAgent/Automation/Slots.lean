/-
# The course of one automation

An evaluation treats the automations one after the other, and what it does to one of them
depends on nothing but its settings and the runs under its own keys.  `Course` is that part of
the scheduler, `Course.evaluate` what an evaluation does to it, and `course_evaluate` says that
the scheduler restricted to an automation is its course.  Two facts are about other automations:
none of them has an interval that panics, and none is spelled like this one.

On the course, `due_times` counts from the old due time and `next_due_after` from the time of
the evaluation, so a late evaluation moves every later slot (`late_evaluation_shifts_slots`,
`slots_recorded`).  And the policy for missed runs is mapped over the whole list, the run that
is on time included (`on_time_runs`).
-/

import PersonalAgent.Automation.Evaluation

namespace PersonalAgent.Automation

open Lib List Std.ExtTreeMap SchedulerSnapshot Option

/-! ### Keys -/

theorem length_hexText (width n : ℕ) : (hexText width n).toList.length = width := by
  have hlist : (hexText width n).toList = (List.range width).reverse.map fun i =>
      "0123456789abcdef".toList.getD (n / 16 ^ i % 16) '0' := String.toList_ofList
  simp [hlist]

theorem length_spelling (id : Uuid) : id.spelling.toList.length = 36 := by
  simp [Uuid.spelling, length_hexText]

def slotKey (id : Uuid) (millis : ℤ) : String := s!"{id.spelling}:{millis}"

theorem scheduleKey_eq (id : Uuid) (t : Instant) :
    scheduleKey id t = slotKey id t.timestampMillis := rfl

/-- A key tells the spelling of the id and the millisecond. -/
theorem slotKey_inj {i j : Uuid} {m n : ℤ} (h : slotKey i m = slotKey j n) :
    i.spelling = j.spelling ∧ m = n := by
  have hkey (i : Uuid) (m : ℤ) : (slotKey i m).toList =
      i.spelling.toList ++ ':' :: m.repr.toList := by
    simp [slotKey, toString]
  have hchars := congrArg String.toList h
  rw [hkey, hkey] at hchars
  obtain ⟨hspelling, htail⟩ := append_inj hchars (by rw [length_spelling, length_spelling])
  exact ⟨String.toList_inj.mp hspelling,
    Int.repr_injective (String.toList_inj.mp (List.cons.inj htail).2)⟩

/-! ### The course -/

/-- What the scheduler knows of one automation: its settings, and the run for each
millisecond. -/
structure Course where
  automation : Option Automation
  runs : ℤ → Option AutomationRun

namespace Course

/-- The run that `enqueue` makes. -/
def newRun (draw : String → Uuid) (id : Uuid) (due : Instant × AutomationRunStatus) :
    AutomationRun :=
  .new (draw (scheduleKey id due.1)) id (scheduleKey id due.1) due.1 due.2

/-- `enqueue`, seen from the keys of the automation. -/
def enqueue (draw : String → Uuid) (id : Uuid) (runs : ℤ → Option AutomationRun)
    (due : Instant × AutomationRunStatus) : ℤ → Option AutomationRun :=
  if (runs due.1.timestampMillis).isSome then runs
  else Function.update runs due.1.timestampMillis (some (newRun draw id due))

/-- The due time of an automation that an evaluation at `now` has something to do for. -/
def dueAt (a : Automation) (now : Instant) : Option Instant :=
  match a.nextDueAt with
  | some first => if a.enabled = true ∧ ¬now < first then some first else none
  | none => none

theorem dueAt_eq_some_iff {a : Automation} {now first : Instant} :
    dueAt a now = some first ↔ a.nextDueAt = some first ∧ a.enabled = true ∧ first ≤ now := by
  unfold dueAt
  cases a.nextDueAt with
  | none => simp
  | some time =>
    rw [ite_none_right_eq_some, not_lt, and_comm]
    refine and_congr_right fun htime => ?_
    rw [Option.some.inj htime]

variable [ChronoSeconds]

/-- The automation after an evaluation that found it due. -/
def advanced (a : Automation) (interval : Option ℕ) (now : Instant) : Automation :=
  { a with
    nextDueAt := (nextDueAfter now interval a.trigger).toOption.join
    enabled := match a.trigger with
      | .once _ => false
      | _ => a.enabled }

/-- What an evaluation does to an automation. -/
def evaluate (draw : String → Uuid) (id : Uuid) (now : Instant) (c : Course) : Course :=
  match c.automation with
  | none => c
  | some a =>
    match dueAt a now, triggerIntervalSeconds a.trigger with
    | some first, .ok interval =>
      ⟨some (advanced a interval now),
        (a.missedRunPolicy.apply (dueList a first now interval)).foldl
          (enqueue draw id) c.runs⟩
    | _, _ => c

theorem evaluate_of_due {c : Course} {a : Automation} {now first : Instant} {interval : Option ℕ}
    (ha : c.automation = some a) (hdue : dueAt a now = some first)
    (hinterval : triggerIntervalSeconds a.trigger = .ok interval) (draw : String → Uuid)
    (id : Uuid) : c.evaluate draw id now = ⟨some (advanced a interval now),
      (a.missedRunPolicy.apply (dueList a first now interval)).foldl
        (enqueue draw id) c.runs⟩ := by
  rw [evaluate, ha]
  dsimp only
  rw [hdue, hinterval]

/-- An evaluation, with the ids it draws and its time. -/
def tick (id : Uuid) (c : Course) (call : (String → Uuid) × Instant) : Course :=
  c.evaluate call.1 id call.2

end Course

namespace SchedulerSnapshot

variable {s s' : SchedulerSnapshot} {id : Uuid}

def course (s : SchedulerSnapshot) (id : Uuid) : Course where
  automation := s.automations[id]?
  runs millis := s.runs[slotKey id millis]?

/-- No other automation is spelled like this one: ids of 128 bits are not. -/
def Apart (s : SchedulerSnapshot) (id : Uuid) : Prop :=
  ∀ other ∈ s.automations, other.spelling = id.spelling → other = id

variable (draw : String → Uuid)

theorem enqueue_own (id : Uuid)
    (acc : BTreeMap String AutomationRun × List String) (due : Instant × AutomationRunStatus) :
    (fun millis => (enqueue draw id acc due).1[slotKey id millis]?) =
      Course.enqueue draw id (fun millis => acc.1[slotKey id millis]?) due := by
  funext millis
  unfold enqueue Course.enqueue
  dsimp only
  rw [contains_eq_isSome_getElem?, scheduleKey_eq]
  by_cases hused : (acc.1[slotKey id due.1.timestampMillis]?).isSome
  · rw [if_pos hused, if_pos hused]
  · rw [if_neg hused, if_neg hused, getElem?_insert_eq, Function.update_apply]
    refine if_congr ⟨fun hkey => (slotKey_inj hkey).2, fun hmillis => ?_⟩ rfl rfl
    rw [hmillis]

theorem enqueueAll_own (id : Uuid)
    (acc : BTreeMap String AutomationRun × List String)
    (due : List (Instant × AutomationRunStatus)) :
    (fun millis => (due.foldl (enqueue draw id) acc).1[slotKey id millis]?) =
      due.foldl (Course.enqueue draw id) (fun millis => acc.1[slotKey id millis]?) := by
  induction due generalizing acc with
  | nil => rfl
  | cons d due ih => rw [foldl_cons, foldl_cons, ← enqueue_own, ih]

theorem enqueueAll_other {other : Uuid}
    (hspelling : other.spelling ≠ id.spelling) (millis : ℤ)
    (acc : BTreeMap String AutomationRun × List String)
    (due : List (Instant × AutomationRunStatus)) :
    (due.foldl (enqueue draw other) acc).1[slotKey id millis]? =
      acc.1[slotKey id millis]? := by
  induction due generalizing acc with
  | nil => rfl
  | cons d due ih =>
    rw [foldl_cons, ih]
    unfold enqueue
    dsimp only
    by_cases hused : acc.1.contains (scheduleKey other d.1)
    · rw [if_pos hused]
    · rw [if_neg hused, getElem?_insert_eq, scheduleKey_eq,
        if_neg fun hkey => hspelling (slotKey_inj hkey).1.symm]

theorem IntervalsFit.grows (h : s.IntervalsFit) (hgrows : Grows s s') : s'.IntervalsFit := by
  intro id a interval ha hinterval
  have hrel := hgrows.automations id
  rw [ha] at hrel
  generalize hold : s.automations[id]? = old at hrel
  cases hrel with
  | some hsame => exact h id _ interval hold (hsame.trigger ▸ hinterval)

theorem Apart.grows (h : s.Apart id) (hgrows : Grows s s') : s'.Apart id :=
  fun other hother => h other ((hgrows.mem_automations other).mp hother)

variable [ChronoSeconds]

/-- The body of the loop, for the automation itself. -/
theorem course_evaluateAutomation (now : Instant) (queued : List String)
    (hfits : s.IntervalsFit) :
    (s.evaluateAutomation draw now queued id).1.course id =
      (s.course id).evaluate draw id now := by
  unfold evaluateAutomation Course.evaluate Course.dueAt
  cases ha : s.automations[id]? with
  | none =>
    have hcourse : (s.course id).automation = none := ha
    rw [hcourse]
  | some a =>
    have hcourse : (s.course id).automation = some a := ha
    rw [hcourse]
    dsimp only
    by_cases henabled : a.enabled = true
    · rw [if_neg (by simp [henabled])]
      cases hnext : a.nextDueAt with
      | none => rfl
      | some first =>
        dsimp only
        by_cases hnow : now < first
        · rw [if_pos hnow, if_neg fun h => h.2 hnow]
        · rw [if_neg hnow, if_pos ⟨henabled, hnow⟩]
          cases hinterval : triggerIntervalSeconds a.trigger with
          | error e => rfl
          | ok interval =>
            have hfit := hfits id a interval ha hinterval
            obtain ⟨next, hafter⟩ := nextDueAfter_of_fits hfit now a.trigger
            simp only [dueTimes_of_fits hfit, hafter]
            unfold course Course.advanced
            rw [← enqueueAll_own draw id (s.runs, queued), hafter]
            cases a.trigger <;> simp [Except.toOption]
    · rw [if_pos (by simpa using henabled)]
      cases a.nextDueAt with
      | none => rfl
      | some first =>
        dsimp only
        rw [if_neg fun h => henabled h.1]

/-- The body of the loop, for another automation. -/
theorem course_evaluateAutomation_other (now : Instant)
    (queued : List String) {other : Uuid} (hne : other ≠ id)
    (hspelling : other.spelling ≠ id.spelling) :
    (s.evaluateAutomation draw now queued other).1.course id = s.course id := by
  have hspec := evaluateAutomation_spec draw now s queued other
  generalize s.evaluateAutomation draw now queued other = r at hspec
  cases hspec with
  | due ha henabled hnext hnow hinterval hdue hafter hsame =>
    unfold course
    dsimp only
    rw [getElem?_insert_eq, if_neg hne.symm]
    congr 1
    funext millis
    exact enqueueAll_other draw hspelling millis _ _
  | _ => rfl

/-- What the course of an automation rests on. -/
structure Separate (s : SchedulerSnapshot) (id : Uuid) : Prop where
  sound : s.Sound
  fits : s.IntervalsFit
  apart : s.Apart id

/-- The loop over the automations comes to each of them once. -/
theorem course_evaluateAll (now : Instant) (hfits : s.IntervalsFit)
    (hapart : s.Apart id) (queued : List String) {ids : List Uuid} (hids : ids.Nodup)
    (hstored : ∀ other ∈ ids, other ∈ s.automations)
    (hok : ∃ queued', (evaluateAll draw now s queued ids).2 = .ok queued') :
    (evaluateAll draw now s queued ids).1.course id =
      if id ∈ ids then (s.course id).evaluate draw id now else s.course id := by
  induction ids generalizing s queued with
  | nil => simp [evaluateAll]
  | cons other ids ih =>
    obtain ⟨hnotMem, hids⟩ := nodup_cons.mp hids
    have hgrows := grows_evaluateAutomation (s := s) draw now queued other
    have hcourse : (s.evaluateAutomation draw now queued other).1.course id =
        if other = id then (s.course id).evaluate draw id now else s.course id := by
      split_ifs with hid
      · subst hid
        exact course_evaluateAutomation draw now queued hfits
      · exact course_evaluateAutomation_other draw now queued hid fun hspelling =>
          hid (hapart other (hstored other mem_cons_self) hspelling)
    unfold evaluateAll at hok ⊢
    generalize s.evaluateAutomation draw now queued other = r at hgrows hcourse hok ⊢
    obtain ⟨s₁, fault | queued₁⟩ := r
    · obtain ⟨queued', hqueued⟩ := hok
      cases hqueued
    · have hrest := ih (hfits.grows hgrows) (hapart.grows hgrows) queued₁ hids
        (fun i hi => (hgrows.mem_automations i).mpr (hstored i (mem_cons_of_mem _ hi))) hok
      dsimp only at hcourse hrest ⊢
      rw [hrest, hcourse]
      by_cases hid : other = id
      · subst hid
        rw [if_neg hnotMem, if_pos rfl, if_pos mem_cons_self]
      · rw [if_neg hid]
        simp [Ne.symm hid]

/-- **The scheduler restricted to an automation is its course.** -/
theorem course_evaluate (h : s.Separate id) (draw : String → Uuid) (now : Instant) :
    (s.evaluate draw now).1.course id = (s.course id).evaluate draw id now := by
  obtain ⟨queued, hqueued⟩ := evaluate_ok h.sound h.fits draw now
  obtain ⟨hruns, hautomations, hresult⟩ := evaluate_fst s draw now
  have hall := course_evaluateAll draw now h.fits h.apart [] s.automations.nodup_keys
    (fun other hother => mem_keys.mp hother) ⟨queued, hresult.symm.trans hqueued⟩
  have hcourse : (s.evaluate draw now).1.course id =
      (evaluateAll draw now s [] s.automations.keys).1.course id := by
    unfold course
    rw [hruns, hautomations]
  rw [hcourse, hall]
  split_ifs with hid
  · rfl
  · have hnone : (s.course id).automation = none := by
      rw [Std.ExtTreeMap.mem_keys, Std.ExtTreeMap.mem_iff_isSome_getElem?, Bool.not_eq_true,
        isSome_eq_false_iff, isNone_iff_eq_none] at hid
      exact hid
    rw [Course.evaluate, hnone]

/-- An evaluation, with the ids it draws and its time. -/
def tick (s : SchedulerSnapshot) (call : (String → Uuid) × Instant) : SchedulerSnapshot :=
  (s.evaluate call.1 call.2).1

theorem Separate.tick (h : s.Separate id) (call : (String → Uuid) × Instant) :
    (s.tick call).Separate id where
  sound := sound_apply h.sound (.evaluate call.1 call.2)
  fits := h.fits.grows (grows_evaluate s call.1 call.2)
  apart := h.apart.grows (grows_evaluate s call.1 call.2)

theorem course_tick (h : s.Separate id) (call : (String → Uuid) × Instant) :
    (s.tick call).course id = (s.course id).tick id call := course_evaluate h call.1 call.2

theorem course_run (h : s.Separate id) (calls : List ((String → Uuid) × Instant)) :
    (Lib.run tick s calls).course id =
      Lib.run (Course.tick id) (s.course id) calls := by
  induction calls generalizing s with
  | nil => rfl
  | cons call calls ih => rw [run_cons, run_cons, ih (h.tick call), course_tick h]

theorem along_course (h : s.Separate id) {ok : Course → (String → Uuid) × Instant → Prop}
    {calls : List ((String → Uuid) × Instant)}
    (hcalls : Along tick (fun s => ok (s.course id)) s calls) :
    Along (Course.tick id) ok (s.course id) calls := by
  induction calls generalizing s with
  | nil => trivial
  | cons call calls ih =>
    refine ⟨hcalls.1, ?_⟩
    rw [← course_tick h]
    exact ih (h.tick call) hcalls.2

end SchedulerSnapshot

/-! ### Slots -/

/-- The time `k` intervals of `step` seconds after `d`. -/
def Slot (d : Instant) (step k : ℕ) (t : Instant) : Prop :=
  t.secs = d.secs + k * step ∧ t.nanos = d.nanos

section Slots

variable {d t u : Instant} {step k j : ℕ}

theorem Instant.le_iff_secs (h : t.nanos = u.nanos) : t ≤ u ↔ t.secs ≤ u.secs := by
  refine ⟨fun hle => ?_, fun hle => ?_⟩
  · by_contra hlt
    exact absurd hle (not_le.mpr (Instant.lt_of_secs_lt (not_le.mp hlt)))
  · rcases hle.lt_or_eq with hlt | heq
    · exact (Instant.lt_of_secs_lt hlt).le
    · exact (Instant.ext_iff'.mpr ⟨heq, h⟩).le

theorem Slot.le_iff (hstep : 0 < step) (ht : Slot d step k t) (hu : Slot d step j u) :
    t ≤ u ↔ k ≤ j := by
  rw [Instant.le_iff_secs (ht.2.trans hu.2.symm), ht.1, hu.1, add_le_add_iff_left]
  norm_cast
  exact Nat.mul_le_mul_right_iff hstep

theorem Slot.of_le (hu : Slot d step j u) (hkj : k ≤ j) : ∃ t, Slot d step k t := by
  have hle : (k * step : ℤ) ≤ j * step := by
    exact_mod_cast Nat.mul_le_mul_right step hkj
  have hpos : (0 : ℤ) ≤ k * step := by positivity
  have hfirst := d.inRange.1
  have hlast := u.inRange.2
  rw [hu.1] at hlast
  exact ⟨⟨d.secs + k * step, d.nanos, ⟨by omega, by omega⟩, d.subsecond⟩, rfl, rfl⟩

theorem Slot.inj (hstep : 0 < step) (ht : Slot d step k t) (hu : Slot d step j u)
    (hmillis : t.timestampMillis = u.timestampMillis) : k = j ∧ t = u := by
  unfold Instant.timestampMillis at hmillis
  rw [ht.2, hu.2] at hmillis
  have hsecs : t.secs = u.secs := by omega
  refine ⟨?_, Instant.ext_iff'.mpr ⟨hsecs, ht.2.trans hu.2.symm⟩⟩
  rw [ht.1, hu.1, add_right_inj] at hsecs
  exact Nat.eq_of_mul_eq_mul_right hstep (by exact_mod_cast hsecs)

variable [ChronoSeconds]

/-- The time after a slot, where `d` is in no leap second. -/
theorem Slot.next_iff (hd : d.nanos < 10 ^ 9) (h : Slot d step k t) :
    t.checkedAddSigned step = some u ↔ Slot d step (k + 1) u := by
  have hnanos : t.nanos % 10 ^ 9 = d.nanos := by rw [h.2, Nat.mod_eq_of_lt hd]
  rw [Instant.checkedAddSigned_eq_some, hnanos, h.2, ite_self, Slot, h.1]
  push_cast
  rw [add_mul, one_mul, add_assoc]

/-- The loop of `due_times` finds every slot up to `now`, if it has room. -/
theorem Slot.mem_catchUp (hd : d.nanos < 10 ^ 9) (hstep : 0 < step) {now cursor : Instant}
    {n room : ℕ} (hcursor : Slot d step n cursor) (hnow : Slot d step j now) (hroom : j ≤ n + room)
    (hk : n < k) (hkj : k ≤ j) (ht : Slot d step k t) : t ∈ catchUp step now room cursor := by
  induction room generalizing cursor n with
  | zero => omega
  | succ room ih =>
    obtain ⟨next, hnext⟩ := hnow.of_le (show n + 1 ≤ j by omega)
    unfold catchUp
    rw [(hcursor.next_iff hd).mpr hnext]
    dsimp only
    rw [if_neg (not_lt.mpr ((hnext.le_iff hstep hnow).mpr (by omega)))]
    rcases eq_or_lt_of_le (Nat.succ_le_of_lt hk) with heq | hlt
    · subst heq
      rw [Instant.ext_iff'.mpr ⟨ht.1.trans hnext.1.symm, ht.2.trans hnext.2.symm⟩]
      exact mem_cons_self
    · exact mem_cons_of_mem _ (ih hnext (by omega) hlt)

theorem Slot.of_mem_catchUp (hd : d.nanos < 10 ^ 9) (hstep : 0 < step) {now cursor : Instant}
    {n room : ℕ} (hcursor : Slot d step n cursor) (hnow : Slot d step j now)
    (ht : t ∈ catchUp step now room cursor) : ∃ k, k ≤ j ∧ Slot d step k t := by
  induction room generalizing cursor n with
  | zero => cases ht
  | succ room ih =>
    unfold catchUp at ht
    split at ht
    · cases ht
    · rename_i next hnext
      have hslot := (hcursor.next_iff hd).mp hnext
      split_ifs at ht with hlate
      · cases ht
      · rcases mem_cons.mp ht with rfl | ht
        · exact ⟨n + 1, (hslot.le_iff hstep hnow).mp (not_lt.mp hlate), hslot⟩
        · exact ih hslot ht

end Slots

namespace Course

section Grid

variable {draw : String → Uuid} {id : Uuid} {runs : ℤ → Option AutomationRun}
  {due : List (Instant × AutomationRunStatus)} {millis : ℤ} {run : AutomationRun}

theorem enqueueAll_kept (h : runs millis = some run) :
    due.foldl (enqueue draw id) runs millis = some run := by
  induction due generalizing runs with
  | nil => exact h
  | cons p due ih =>
    refine ih ?_
    unfold enqueue
    split_ifs with hused
    · exact h
    · rw [Function.update_apply, if_neg, h]
      rintro rfl
      exact hused (by rw [h]; rfl)

/-- Every due time has a run afterwards. -/
theorem enqueueAll_recorded {p : Instant × AutomationRunStatus} (hp : p ∈ due) :
    ∃ run, due.foldl (enqueue draw id) runs p.1.timestampMillis = some run := by
  induction due generalizing runs with
  | nil => cases hp
  | cons q due ih =>
    rcases mem_cons.mp hp with rfl | hp
    · have hnow : ∃ run, enqueue draw id runs p p.1.timestampMillis = some run := by
        unfold enqueue
        split_ifs with hused
        · exact isSome_iff_exists.mp hused
        · exact ⟨_, Function.update_self _ _ _⟩
      obtain ⟨run, hrun⟩ := hnow
      rw [foldl_cons]
      exact ⟨run, enqueueAll_kept hrun⟩
    · exact ih hp

theorem of_mem_enqueueAll (h : due.foldl (enqueue draw id) runs millis = some run) :
    runs millis = some run ∨
      ∃ p ∈ due, millis = p.1.timestampMillis ∧ run = newRun draw id p := by
  induction due generalizing runs with
  | nil => exact .inl h
  | cons p due ih =>
    rcases ih h with hrun | ⟨q, hq, hmillis, hrun⟩
    · unfold enqueue at hrun
      split_ifs at hrun with hused
      · exact .inl hrun
      · rw [Function.update_apply] at hrun
        split_ifs at hrun with hmillis
        · exact .inr ⟨p, mem_cons_self, hmillis, (Option.some.inj hrun).symm⟩
        · exact .inl hrun
    · exact .inr ⟨q, mem_cons_of_mem p hq, hmillis, hrun⟩

variable [ChronoSeconds] {d t now : Instant} {step maximum n j k : ℕ} {c : Course}

/-- The course of an automation that catches up, when it comes to its slot `n`: the slots before
have their runs, and there are no others. -/
structure At (d : Instant) (step maximum n : ℕ) (id : Uuid) (c : Course) : Prop where
  automation : ∃ a, c.automation = some a ∧ a.enabled = true ∧
    a.missedRunPolicy = .catchUpBounded ∧ a.maximumCatchUpRuns = maximum ∧
    triggerIntervalSeconds a.trigger = .ok (some step) ∧
    ∀ t, a.nextDueAt = some t ↔ Slot d step n t
  recorded : ∀ k t, k < n → Slot d step k t →
    ∃ run, c.runs t.timestampMillis = some run ∧ run.automationId = id ∧ run.scheduledFor = t
  only : ∀ millis run, c.runs millis = some run →
    ∃ k < n, Slot d step k run.scheduledFor ∧ millis = run.scheduledFor.timestampMillis

theorem advanced_of_interval {a : Automation}
    (hinterval : triggerIntervalSeconds a.trigger = .ok (some step)) (hfits : step ≤ maxDuration)
    (now : Instant) : (advanced a (some step) now).enabled = a.enabled ∧
      (advanced a (some step) now).nextDueAt = now.checkedAddSigned step := by
  unfold advanced
  cases htrigger : a.trigger with
  | once time =>
    rw [htrigger] at hinterval
    cases hinterval
  | _ => exact ⟨rfl, by simp [nextDueAfter, durationSeconds_of_le hfits, Except.toOption]⟩

/-- An evaluation at slot `j` that has to make up for no more than it may. -/
theorem At.evaluate_due (hleap : d.nanos < 10 ^ 9) (hstep : 0 < step) (hfits : step ≤ maxDuration)
    (h : c.At d step maximum n id) (hnow : Slot d step j now) (hnj : n ≤ j)
    (hroom : j + 1 ≤ n + maximum) (draw : String → Uuid) :
    (c.evaluate draw id now).At d step maximum (j + 1) id := by
  obtain ⟨a, ha, henabled, hpolicy, hmaximum, hinterval, hnext⟩ := h.automation
  obtain ⟨first, hfirst⟩ := hnow.of_le hnj
  have hdue : dueAt a now = some first := dueAt_eq_some_iff.mpr
    ⟨(hnext first).mpr hfirst, henabled, (hfirst.le_iff hstep hnow).mpr hnj⟩
  have hlist : ∀ k t, n ≤ k → k ≤ j → Slot d step k t →
      t ∈ dueList a first now (some step) := by
    intro k t hnk hkj ht
    rcases hnk.eq_or_lt with rfl | hlt
    · rw [Instant.ext_iff'.mpr ⟨ht.1.trans hfirst.1.symm, ht.2.trans hfirst.2.symm⟩]
      exact mem_cons_self
    · exact mem_cons_of_mem _ (hfirst.mem_catchUp hleap hstep hnow (by omega) hlt hkj ht)
  have hslots : ∀ t ∈ dueList a first now (some step),
      ∃ k ≤ j, Slot d step k t := by
    intro t ht
    rcases mem_cons.mp ht with rfl | ht
    · exact ⟨n, hnj, hfirst⟩
    · exact hfirst.of_mem_catchUp hleap hstep hnow ht
  rw [evaluate_of_due ha hdue hinterval, hpolicy]
  refine ⟨⟨_, rfl, ?_, hpolicy, hmaximum, hinterval, fun t => ?_⟩, fun k t hk ht => ?_,
    fun millis run hrun => ?_⟩
  · rw [(advanced_of_interval hinterval hfits now).1]
    exact henabled
  · rw [(advanced_of_interval hinterval hfits now).2]
    exact hnow.next_iff hleap
  · rcases lt_or_ge k n with hkn | hnk
    · obtain ⟨run, hrun, hown⟩ := h.recorded k t hkn ht
      exact ⟨run, enqueueAll_kept hrun, hown⟩
    · have hmem : (t, AutomationRunStatus.queued) ∈
          (dueList a first now (some step)).map (·, .queued) :=
        mem_map_of_mem (hlist k t hnk (by omega) ht)
      obtain ⟨run, hrun⟩ := enqueueAll_recorded hmem
      refine ⟨run, hrun, ?_⟩
      rcases of_mem_enqueueAll hrun with hbefore | ⟨p, hp, hmillis, rfl⟩
      · obtain ⟨k', hk', hslot, hsame⟩ := h.only _ run hbefore
        have := (ht.inj hstep hslot hsame).1
        omega
      · obtain ⟨t', ht', rfl⟩ := mem_map.mp hp
        obtain ⟨k', -, hslot⟩ := hslots t' ht'
        exact ⟨rfl, (ht.inj hstep hslot hmillis).2.symm⟩
  · rcases of_mem_enqueueAll hrun with hbefore | ⟨p, hp, hmillis, rfl⟩
    · obtain ⟨k', hk', hslot⟩ := h.only millis run hbefore
      exact ⟨k', by omega, hslot⟩
    · obtain ⟨t', ht', rfl⟩ := mem_map.mp hp
      obtain ⟨k', hk', hslot⟩ := hslots t' ht'
      exact ⟨k', by omega, hslot, hmillis⟩

/-- An evaluation that finds the automation due is made at a slot, and has no more slots to make
up for than the automation allows. -/
def Punctual (d : Instant) (step : ℕ) (c : Course) (call : (String → Uuid) × Instant) : Prop :=
  ∀ a, c.automation = some a → ∀ first, dueAt a call.2 = some first →
    ∃ j, Slot d step j call.2 ∧ ∀ n, Slot d step n first → j + 1 ≤ n + a.maximumCatchUpRuns

/-- **A punctual evaluation comes to the first slot after it.** -/
theorem At.tick (hleap : d.nanos < 10 ^ 9) (hstep : 0 < step) (hfits : step ≤ maxDuration)
    (h : c.At d step maximum n id) {call : (String → Uuid) × Instant}
    (hcall : c.Punctual d step call) :
    ∃ n' ≥ n, (c.tick id call).At d step maximum n' id ∧
      ∀ k t, Slot d step k t → t ≤ call.2 → k < n' := by
  obtain ⟨a, ha, henabled, -, hmaximum, -, hnext⟩ := h.automation
  cases hdue : dueAt a call.2 with
  | some first =>
    obtain ⟨j, hnow, hroom⟩ := hcall a ha first hdue
    obtain ⟨hfirst, -, hle⟩ := dueAt_eq_some_iff.mp hdue
    have hslot := (hnext first).mp hfirst
    have hnj := (hslot.le_iff hstep hnow).mp hle
    refine ⟨j + 1, by omega, h.evaluate_due hleap hstep hfits hnow hnj ?_ call.1,
      fun k t ht hle => ?_⟩
    · exact hmaximum ▸ hroom n hslot
    · have := (ht.le_iff hstep hnow).mp hle
      omega
  | none =>
    have hidle : c.tick id call = c := by
      unfold Course.tick evaluate
      rw [ha]
      dsimp only
      rw [hdue]
    rw [hidle]
    refine ⟨n, le_rfl, h, fun k t ht hle => ?_⟩
    by_contra hnk
    obtain ⟨first, hfirst⟩ := ht.of_le (not_lt.mp hnk)
    have hle' : first ≤ call.2 := ((hfirst.le_iff hstep ht).mpr (not_lt.mp hnk)).trans hle
    have hdue' := dueAt_eq_some_iff.mpr ⟨(hnext first).mpr hfirst, henabled, hle'⟩
    rw [hdue] at hdue'
    cases hdue'

theorem At.along (hleap : d.nanos < 10 ^ 9) (hstep : 0 < step) (hfits : step ≤ maxDuration)
    (h : c.At d step maximum n id) {calls : List ((String → Uuid) × Instant)}
    (hcalls : Along (Course.tick id) (Punctual d step) c calls) :
    ∃ n' ≥ n, (Lib.run (Course.tick id) c calls).At d step maximum n' id ∧
      ∀ call ∈ calls, ∀ k t, Slot d step k t → t ≤ call.2 → k < n' := by
  induction calls generalizing c n with
  | nil => exact ⟨n, le_rfl, h, fun call hcall => absurd hcall not_mem_nil⟩
  | cons call calls ih =>
    obtain ⟨n₁, hn₁, h₁, hcovered⟩ := h.tick hleap hstep hfits hcalls.1
    obtain ⟨n₂, hn₂, h₂, hrest⟩ := ih h₁ hcalls.2
    refine ⟨n₂, hn₁.trans hn₂, h₂, ?_⟩
    rintro call' hcall'
    rcases mem_cons.mp hcall' with rfl | hcall'
    · exact fun k t ht hle => (hcovered k t ht hle).trans_le hn₂
    · exact hrest call' hcall'

end Grid

/-! ### On time -/

section OnTime

variable {id : Uuid} {c c' : Course} {a : Automation} {now : Instant}
  {policy policy' : MissedRunPolicy}

/-- How a policy records a run that is not late. -/
def onTimeStatus : MissedRunPolicy → AutomationRunStatus
  | .skip => .skipped
  | _ => .queued

theorem onTimeStatus_eq_queued : onTimeStatus policy = .queued ↔ policy ≠ .skip := by
  cases policy <;> simp [onTimeStatus]

theorem onTimeStatus_inj :
    onTimeStatus policy = onTimeStatus policy' ↔ (policy = .skip ↔ policy' = .skip) := by
  cases policy <;> cases policy' <;> simp [onTimeStatus]

theorem apply_singleton (policy : MissedRunPolicy) (t : Instant) :
    policy.apply [t] = [(t, onTimeStatus policy)] := by
  cases policy <;> rfl

/-- The evaluation is made when the automation becomes due. -/
def OnTime (c : Course) (call : (String → Uuid) × Instant) : Prop :=
  ∃ a, c.automation = some a ∧ a.enabled = true ∧ a.nextDueAt = some call.2

variable [ChronoSeconds]

/-- Nothing else is due when the first time is now. -/
theorem dueList_on_time {interval : Option ℕ} (hvalid : ∀ seconds ∈ interval, 0 < seconds)
    (a : Automation) (now : Instant) :
    dueList a now now interval = [now] := by
  cases interval with
  | none => rfl
  | some seconds =>
    change now :: catchUp seconds now (a.maximumCatchUpRuns - 1) now = [now]
    congr 1
    cases a.maximumCatchUpRuns - 1 with
    | zero => rfl
    | succ room =>
      unfold catchUp
      split
      · rfl
      · rename_i next hnext
        rw [if_pos (Instant.lt_checkedAddSigned (hvalid seconds rfl) hnext)]

variable {call : (String → Uuid) × Instant} {calls : List ((String → Uuid) × Instant)}

/-- **What an evaluation on time does**: one run, of the status the policy gives. -/
theorem tick_on_time (id : Uuid) (hvalid : validateTrigger a.trigger = .ok ())
    (ha : c.automation = some a) (hcall : c.OnTime call) :
    ∃ interval, triggerIntervalSeconds a.trigger = .ok interval ∧
      c.tick id call = ⟨some (advanced a interval call.2),
        [(call.2, onTimeStatus a.missedRunPolicy)].foldl (enqueue call.1 id) c.runs⟩ := by
  obtain ⟨a', ha', henabled, hnext⟩ := hcall
  obtain rfl : a = a' := Option.some.inj (ha.symm.trans ha')
  obtain ⟨interval, hinterval, hpos⟩ := interval_of_valid hvalid
  have hdue : dueAt a call.2 = some call.2 := dueAt_eq_some_iff.mpr ⟨hnext, henabled, le_rfl⟩
  refine ⟨interval, hinterval, ?_⟩
  rw [Course.tick, evaluate_of_due ha hdue hinterval, dueList_on_time hpos, apply_singleton]

/-- All runs have the status that the policy gives to runs on time. -/
structure Governed (policy : MissedRunPolicy) (c : Course) : Prop where
  automation : ∃ a, c.automation = some a ∧ a.missedRunPolicy = policy ∧
    validateTrigger a.trigger = .ok ()
  status : ∀ millis run, c.runs millis = some run → run.status = onTimeStatus policy

theorem Governed.tick (h : c.Governed policy) (id : Uuid) (hcall : c.OnTime call) :
    (c.tick id call).Governed policy ∧
      (∃ run, (c.tick id call).runs call.2.timestampMillis = some run) ∧
      ∀ millis run, c.runs millis = some run → (c.tick id call).runs millis = some run := by
  obtain ⟨a, ha, rfl, hvalid⟩ := h.automation
  obtain ⟨interval, -, htick⟩ := tick_on_time id hvalid ha hcall
  rw [htick]
  refine ⟨⟨⟨_, rfl, rfl, hvalid⟩, fun millis run hrun => ?_⟩,
    enqueueAll_recorded mem_cons_self, fun millis run hrun => enqueueAll_kept hrun⟩
  rcases of_mem_enqueueAll hrun with hbefore | ⟨p, hp, -, rfl⟩
  · exact h.status millis run hbefore
  · rw [mem_singleton.mp hp]
    rfl

theorem Governed.along (h : c.Governed policy)
    (hcalls : Along (Course.tick id) OnTime c calls) :
    (Lib.run (Course.tick id) c calls).Governed policy ∧
      (∀ call ∈ calls, ∃ run,
        (Lib.run (Course.tick id) c calls).runs call.2.timestampMillis = some run) ∧
      ∀ millis run, c.runs millis = some run →
        (Lib.run (Course.tick id) c calls).runs millis = some run := by
  induction calls generalizing c with
  | nil => exact ⟨h, fun call hcall => absurd hcall not_mem_nil, fun _ _ hrun => hrun⟩
  | cons call calls ih =>
    obtain ⟨hgoverned, ⟨run, hrun⟩, hkept⟩ := h.tick id hcalls.1
    obtain ⟨hend, hrecorded, hkept'⟩ := ih hgoverned hcalls.2
    refine ⟨hend, fun call' hcall' => ?_, fun _ _ hold => hkept' _ _ (hkept _ _ hold)⟩
    rcases mem_cons.mp hcall' with rfl | hcall'
    · exact ⟨run, hkept' _ _ hrun⟩
    · exact hrecorded call' hcall'

/-- Two courses of one automation under two policies. -/
structure Alike (policy policy' : MissedRunPolicy) (c c' : Course) : Prop where
  automation : ∃ a, c.automation = some a ∧ a.missedRunPolicy = policy ∧
    validateTrigger a.trigger = .ok () ∧
    c'.automation = some { a with missedRunPolicy := policy' }
  runs : onTimeStatus policy = onTimeStatus policy' → c.runs = c'.runs

theorem Alike.tick (h : Alike policy policy' c c') (id : Uuid) (hcall : c.OnTime call) :
    c'.OnTime call ∧ Alike policy policy' (c.tick id call) (c'.tick id call) := by
  obtain ⟨a, ha, rfl, hvalid, ha'⟩ := h.automation
  have hcall' : c'.OnTime call := by
    obtain ⟨b, hb, henabled, hnext⟩ := hcall
    obtain rfl : a = b := Option.some.inj (ha.symm.trans hb)
    exact ⟨_, ha', henabled, hnext⟩
  obtain ⟨interval, hinterval, htick⟩ := tick_on_time id hvalid ha hcall
  obtain ⟨interval', hinterval', htick'⟩ := tick_on_time
    (a := { a with missedRunPolicy := policy' }) id hvalid ha' hcall'
  obtain rfl : interval = interval' := Except.ok.inj (hinterval.symm.trans hinterval')
  refine ⟨hcall', ?_⟩
  rw [htick, htick']
  refine ⟨⟨_, rfl, rfl, hvalid, rfl⟩, fun hstatus => ?_⟩
  dsimp only
  rw [h.runs hstatus, hstatus]

theorem Alike.along (h : Alike policy policy' c c')
    (hcalls : Along (Course.tick id) OnTime c calls) :
    Along (Course.tick id) OnTime c' calls ∧
      Alike policy policy' (Lib.run (Course.tick id) c calls)
        (Lib.run (Course.tick id) c' calls) := by
  induction calls generalizing c c' with
  | nil => exact ⟨trivial, h⟩
  | cons call calls ih =>
    obtain ⟨hcall, htick⟩ := h.tick id hcalls.1
    obtain ⟨hrest, hend⟩ := ih htick hcalls.2
    exact ⟨⟨hcall, hrest⟩, hend⟩

end OnTime

end Course

namespace SchedulerSnapshot

section

variable {s : SchedulerSnapshot} {id : Uuid}

/-- The automation has no run yet, and its keys are free. -/
structure Unrun (s : SchedulerSnapshot) (id : Uuid) : Prop where
  runs : ∀ (key : String) (run : AutomationRun), s.runs[key]? = some run → run.automationId ≠ id
  keys : ∀ millis, s.runs[slotKey id millis]? = none

theorem Unrun.governed {a : Automation} (h : s.Separate id) (hunrun : s.Unrun id)
    (ha : s.automations[id]? = some a) : (s.course id).Governed a.missedRunPolicy := by
  refine ⟨⟨a, ha, rfl, (h.sound.automation id a ha).2.trigger⟩, fun millis run hrun => ?_⟩
  change s.runs[slotKey id millis]? = some run at hrun
  rw [hunrun.keys] at hrun
  cases hrun

variable [ChronoSeconds]

/-- **The slots of an automation that catches up.**  From any snapshot in which it is first due at
`d` and has no run, along every run of evaluations that are made at slots when they find it due:
every slot up to each of them has exactly one run, and the automation has no other runs. -/
theorem slots_recorded {a : Automation} {d : Instant} {step : ℕ} (h : s.Separate id)
    (hunrun : s.Unrun id) (ha : s.automations[id]? = some a) (henabled : a.enabled = true)
    (hpolicy : a.missedRunPolicy = .catchUpBounded)
    (hinterval : triggerIntervalSeconds a.trigger = .ok (some step))
    (hnext : a.nextDueAt = some d) (hleap : d.nanos < 10 ^ 9)
    {calls : List ((String → Uuid) × Instant)}
    (hcalls : Along tick (fun s => (s.course id).Punctual d step) s calls) :
    (∀ call ∈ calls, ∀ k t, Slot d step k t → t ≤ call.2 →
      ∃! key : String, ∃ run, (Lib.run tick s calls).runs[key]? = some run ∧ run.automationId = id ∧
        run.scheduledFor = t) ∧
    ∀ (key : String) (run : AutomationRun), (Lib.run tick s calls).runs[key]? = some run →
      run.automationId = id →
      ∃ k, Slot d step k run.scheduledFor := by
  have hvalid := (h.sound.automation id a ha).2.trigger
  obtain ⟨interval, hinterval', hpos⟩ := interval_of_valid hvalid
  obtain rfl : interval = some step := by
    rw [hinterval] at hinterval'
    exact (Except.ok.inj hinterval').symm
  have hstep : 0 < step := hpos step rfl
  have hfits : Fits (some step) := h.fits id a (some step) ha hinterval
  have hstart : (s.course id).At d step a.maximumCatchUpRuns 0 id := by
    refine ⟨⟨a, ha, henabled, hpolicy, rfl, hinterval, fun t => ?_⟩,
      fun k t hk => absurd hk k.not_lt_zero, fun millis run hrun => ?_⟩
    · rw [hnext, some_inj, Instant.ext_iff', Slot]
      simp [eq_comm]
    · change s.runs[slotKey id millis]? = some run at hrun
      rw [hunrun.keys] at hrun
      cases hrun
  obtain ⟨n, -, hend, hcovered⟩ := hstart.along hleap hstep (hfits step rfl) (along_course h hcalls)
  rw [← course_run h] at hend
  -- the runs of the automation are stored under their slots
  have hslotted : ∀ (key : String) (run : AutomationRun),
      (Lib.run tick s calls).runs[key]? = some run →
      run.automationId = id → key = scheduleKey id run.scheduledFor := by
    refine run_invariant (fun s : SchedulerSnapshot => ∀ (key : String) (run : AutomationRun),
      s.runs[key]? = some run → run.automationId = id → key = scheduleKey id run.scheduledFor)
      ?_ calls ?_
    · intro s call hs key run hrun hown
      unfold tick at hrun
      rw [(evaluate_fst s call.1 call.2).1] at hrun
      rcases slot_of_mem_evaluateAll call.1 call.2 [] _ hrun with hbefore | hkey
      · exact hs key run hbefore hown
      · exact hown ▸ hkey
    · exact fun key run hrun hown => absurd hown (hunrun.runs key run hrun)
  refine ⟨fun call hcall k t ht hle => ?_, fun key run hrun hown => ?_⟩
  · obtain ⟨run, hrun, hown, htime⟩ := hend.recorded k t (hcovered call hcall k t ht hle) ht
    refine ⟨scheduleKey id t, ⟨run, hrun, hown, htime⟩, ?_⟩
    rintro key ⟨run', hrun', hown', rfl⟩
    exact hslotted key run' hrun' hown'
  · obtain rfl := hslotted key run hrun hown
    obtain ⟨k, -, hslot, -⟩ := hend.only _ run hrun
    exact ⟨k, hslot⟩

/-- **Runs that are on time.**  Along every run of evaluations each made when the automation
becomes due, its runs are queued exactly if the policy is not `Skip`, and two policies give the
same runs exactly if both or neither of them is. -/
theorem on_time_runs {a : Automation} (h : s.Separate id) (hunrun : s.Unrun id)
    (ha : s.automations[id]? = some a) {calls : List ((String → Uuid) × Instant)}
    (hne : calls ≠ []) (hcalls : Along tick (fun s => (s.course id).OnTime) s calls) :
    ((∀ call ∈ calls, ∃ run, (Lib.run tick s calls).runs[scheduleKey id call.2]? = some run ∧
      run.status = .queued) ↔ a.missedRunPolicy ≠ .skip) ∧
    ∀ (s' : SchedulerSnapshot) (policy : MissedRunPolicy), s'.Separate id → s'.Unrun id →
      s'.automations[id]? = some { a with missedRunPolicy := policy } →
      ((∀ millis, (Lib.run tick s calls).runs[slotKey id millis]? =
        (Lib.run tick s' calls).runs[slotKey id millis]?) ↔
        (a.missedRunPolicy = .skip ↔ policy = .skip)) := by
  obtain ⟨call, hcall⟩ := exists_mem_of_ne_nil calls hne
  have hgoverned := hunrun.governed h ha
  have halong := along_course h hcalls
  obtain ⟨hend, hrecorded, -⟩ := hgoverned.along halong
  rw [← course_run h] at hend hrecorded
  refine ⟨?_, fun s' policy h' hunrun' ha' => ?_⟩
  · rw [← Course.onTimeStatus_eq_queued]
    refine ⟨fun hqueued => ?_, fun hpolicy call hcall => ?_⟩
    · obtain ⟨run, hrun, hstatus⟩ := hqueued call hcall
      rw [← hend.status _ run hrun, hstatus]
    · obtain ⟨run, hrun⟩ := hrecorded call hcall
      exact ⟨run, hrun, (hend.status _ run hrun).trans hpolicy⟩
  · have halike : Course.Alike a.missedRunPolicy policy (s.course id) (s'.course id) := by
      refine ⟨⟨a, ha, rfl, (h.sound.automation id a ha).2.trigger, ha'⟩, fun _ => ?_⟩
      funext millis
      exact (hunrun.keys millis).trans (hunrun'.keys millis).symm
    obtain ⟨halong', hsame⟩ := halike.along halong
    obtain ⟨hend', -, -⟩ := (hunrun'.governed h' ha').along halong'
    rw [← course_run h'] at hend'
    rw [← course_run h, ← course_run h'] at hsame
    rw [← Course.onTimeStatus_inj]
    refine ⟨fun hruns => ?_, fun hpolicy millis => congrFun (hsame.runs hpolicy) millis⟩
    obtain ⟨run, hrun⟩ := hrecorded call hcall
    rw [← hend.status _ run hrun]
    exact hend'.status _ run ((hruns _).symm.trans hrun)

end

section Examples

attribute [local instance] plainSeconds

/-- **A late evaluation moves the slots.**  Every 60 seconds from second 5: evaluated a second
late, the automation is next due at second 66, and second 65 has no run. -/
theorem late_evaluation_shifts_slots :
    let s := Lib.run tick (Lib.run apply {} missedRuns) [(fun _ => 9, second 6),
      (fun _ => 9, second 66)]
    Slot (second 5) 60 1 (second 65) ∧ second 65 ≤ second 66 ∧
      s.runs.values.map (·.scheduledFor) = [second 5, second 66] := by
  refine ⟨⟨by decide, rfl⟩, by decide +kernel, by decide +kernel⟩

theorem automations_missedRuns : (Lib.run apply {} missedRuns).automations =
    (∅ : BTreeMap Uuid Automation).insert 1 (briefing 1 (.interval 60) (some (second 5))) := rfl

theorem separate_missedRuns : (Lib.run apply {} missedRuns).Separate 1 := by
  refine ⟨sound_run missedRuns, intervalsFit_missedRuns, fun other hother _ => ?_⟩
  have hcompare : compare 1 other = .eq := by simpa [automations_missedRuns] using hother
  exact (compare_eq_iff_eq.mp hcompare).symm

theorem unrun_missedRuns : (Lib.run apply {} missedRuns).Unrun 1 := by
  have hruns : (Lib.run apply {} missedRuns).runs = ∅ := rfl
  refine ⟨fun key run hrun => ?_, fun millis => ?_⟩
  · simp [hruns] at hrun
  · simp [hruns]

/-- Evaluated at its first slot and at the third. -/
theorem slots_recorded_missed :
    let s := Lib.run tick (Lib.run apply {} missedRuns) [(fun _ => 9, second 5),
      (fun _ => 9, second 125)]
    ∃! key : String, ∃ run, s.runs[key]? = some run ∧ run.automationId = 1 ∧
      run.scheduledFor = second 65 := by
  -- three slots are what the automation may make up for
  have hpunctual (s : SchedulerSnapshot) (call : (String → Uuid) × Instant) (j : ℕ) (hj : j < 3)
      (hmaximum : s.automations[(1 : Uuid)]?.map (·.maximumCatchUpRuns) = some 3)
      (hslot : Slot (second 5) 60 j call.2) : (s.course 1).Punctual (second 5) 60 call := by
    intro a ha first hfirst
    refine ⟨j, hslot, fun n hn => ?_⟩
    change s.automations[(1 : Uuid)]? = some a at ha
    rw [ha] at hmaximum
    have hthree : a.maximumCatchUpRuns = 3 := Option.some.inj hmaximum
    omega
  have hcalls : Along tick (fun s => (s.course 1).Punctual (second 5) 60)
      (Lib.run apply {} missedRuns) [(fun _ => 9, second 5), (fun _ => 9, second 125)] :=
    ⟨hpunctual _ _ 0 (by decide) (by decide +kernel) ⟨by decide, rfl⟩,
      hpunctual _ _ 2 (by decide) (by decide +kernel) ⟨by decide, rfl⟩, trivial⟩
  exact (slots_recorded (a := briefing 1 (.interval 60) (some (second 5)))
    separate_missedRuns unrun_missedRuns rfl rfl rfl rfl rfl (by decide) hcalls).1
    (fun _ => 9, second 125) (by simp) 1 (second 65) ⟨by decide, rfl⟩ (by decide +kernel)

/-- A briefing every minute whose missed runs are skipped. -/
def skipping : List SchedulerOp :=
  [.upsert { briefing 1 (.interval 60) (some (second 5)) with missedRunPolicy := .skip }]

/-- **A run on time is skipped.**  Evaluated at second 5, when it becomes due, the automation
skips its run; with another policy the run is queued. -/
theorem on_time_run_is_skipped :
    let skipped := Lib.run tick (Lib.run apply {} skipping) [(fun _ => 9, second 5)]
    let queued := Lib.run tick (Lib.run apply {} missedRuns) [(fun _ => 9, second 5)]
    skipped.runs.values.map (fun run => (run.scheduledFor, run.status)) =
      [(second 5, .skipped)] ∧
    queued.runs.values.map (fun run => (run.scheduledFor, run.status)) =
      [(second 5, .queued)] := by
  decide +kernel

/-- Evaluated at its first two slots. -/
theorem on_time_runs_missed :
    let s := Lib.run tick (Lib.run apply {} missedRuns) [(fun _ => 9, second 5),
      (fun _ => 9, second 65)]
    ∃ run, s.runs[scheduleKey 1 (second 65)]? = some run ∧ run.status = .queued := by
  have hcalls : Along tick (fun s => (s.course 1).OnTime)
      (Lib.run apply {} missedRuns) [(fun _ => 9, second 5), (fun _ => 9, second 65)] :=
    ⟨⟨_, rfl, rfl, rfl⟩, ⟨_, rfl, rfl, rfl⟩, trivial⟩
  exact (on_time_runs (a := briefing 1 (.interval 60) (some (second 5)))
    separate_missedRuns unrun_missedRuns rfl (by simp) hcalls).1.mpr (by decide)
    (fun _ => 9, second 65) (by simp)

end Examples

end SchedulerSnapshot

end PersonalAgent.Automation
