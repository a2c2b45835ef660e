/-
# Runs of one automation at a time

`start` counts the running runs of an automation against its `max_concurrency`.  A run also
becomes running when it is resumed after an approval, and `resume_after_approval` does not
count: the place of the suspended run can have been taken in the meantime
(`resumed_run_exceeds_limit`).  With a free place at every resumption the limit holds
throughout (`running_le_maxConcurrency`).
-/

import PersonalAgent.Automation.Integrity

namespace PersonalAgent.Automation

open Lib Std.ExtTreeMap

/-- The calls that make the run of a key running. -/
def SchedulerOp.Runs (op : SchedulerOp) (key : String) : Prop :=
  (∃ clock, op = .start key clock) ∨ op = .resumeAfterApproval key

theorem SchedulerOp.Runs.eq {op : SchedulerOp} {key key' : String} (h : op.Runs key)
    (h' : op.Runs key') : key' = key := by
  rcases h with ⟨clock, rfl⟩ | rfl
  · rcases h' with ⟨clock', heq⟩ | heq
    · injection heq with hkey
      exact hkey.symm
    · cases heq
  · rcases h' with ⟨clock', heq⟩ | heq
    · cases heq
    · injection heq with hkey
      exact hkey.symm

/-- A run becomes running by these calls alone. -/
theorem Transition.running {key : String} {op : SchedulerOp} {standing standing' : Standing}
    (h : Transition key op standing standing') (hrunning : standing'.1 = .running) :
    standing.1 = .running ∨ op.Runs key := by
  cases h with
  | stay => exact .inl hrunning
  | start clock => exact .inr (.inl ⟨clock, rfl⟩)
  | resume => exact .inr (.inr rfl)
  | wait | bind | finish | preempt => exact .inl rfl
  | approve | fail | recover => cases hrunning

namespace SchedulerSnapshot

section

variable {s : SchedulerSnapshot} {op : SchedulerOp} {id : Uuid} {key : String}

theorem mem_runningRuns :
    key ∈ s.runningRuns id ↔
      ∃ run, s.runs[key]? = some run ∧ run.automationId = id ∧ run.status = .running := by
  rw [mem_iff_isSome_getElem?, runningRuns,
    getElem?_filter_eq s.runs (fun run => run.automationId == id && run.status == .running)]
  cases s.runs[key]? with
  | none => simp
  | some run => simp [Option.filter, Option.isSome_ite]

variable [ChronoSeconds]

/-- A run is running after a call if it was before, or if the call was to start or to resume
it. -/
theorem mem_runningRuns_apply (hs : s.Sound) (h : key ∈ (s.apply op).runningRuns id) :
    key ∈ s.runningRuns id ∨
      op.Runs key ∧ ∃ run, s.runs[key]? = some run ∧ run.automationId = id := by
  obtain ⟨run, hrun, howner, hstatus⟩ := mem_runningRuns.mp h
  rcases hs.run_cases hrun with ⟨run₀, hold, hcontinues⟩ | ⟨-, henqueued⟩
  · rw [hcontinues.automationId] at howner
    rcases hcontinues.standing.running hstatus with hrunning | hruns
    · exact .inl (mem_runningRuns.mpr ⟨run₀, hold, howner, hrunning⟩)
    · exact .inr ⟨hruns, run₀, hold, howner⟩
  · have := henqueued.status
    rw [hstatus] at this
    simp at this

/-- `upsert` keeps the limit of a stored automation, and a run is resumed only while there is
a free place. -/
def PlacesKept (s : SchedulerSnapshot) : SchedulerOp → Prop
  | .upsert a => ∀ stored ∈ s.automations[a.id]?, stored.maxConcurrency = a.maxConcurrency
  | .resumeAfterApproval key => ∀ run ∈ s.runs[key]?, ∀ a ∈ s.automations[run.automationId]?,
      (s.runningRuns run.automationId).size < a.maxConcurrency
  | _ => True

/-- No automation has more runs running than it may. -/
def WithinLimits (s : SchedulerSnapshot) : Prop :=
  ∀ (id : Uuid) (a : Automation), s.automations[id]? = some a →
    (s.runningRuns id).size ≤ a.maxConcurrency

/-- A call that makes a run running found a free place for it. -/
theorem size_lt_of_runs (hop : s.PlacesKept op) {a : Automation} {run : AutomationRun}
    (hruns : op.Runs key) (hrun : s.runs[key]? = some run) (howner : run.automationId = id)
    (ha : s.automations[id]? = some a) (hnew : key ∈ (s.apply op).runningRuns id)
    (hold : key ∉ s.runningRuns id) : (s.runningRuns id).size < a.maxConcurrency := by
  subst howner
  rcases hruns with ⟨clock, rfl⟩ | rfl
  · change key ∈ (s.start key clock).1.runningRuns run.automationId at hnew
    rcases s.start_cases key clock with ⟨error, heq⟩ | ⟨run', a', hrun', ha', hlt, -, -⟩
    · rw [heq] at hnew
      exact absurd hnew hold
    · obtain rfl := Option.some.inj (hrun.symm.trans hrun')
      obtain rfl := Option.some.inj (ha.symm.trans ha')
      exact hlt
  · exact hop run hrun a ha

/-- One call adds at most the run it starts or resumes. -/
theorem size_runningRuns_apply (hs : s.Sound) (hop : s.PlacesKept op) {a : Automation}
    (ha : s.automations[id]? = some a) (h : (s.runningRuns id).size ≤ a.maxConcurrency) :
    ((s.apply op).runningRuns id).size ≤ a.maxConcurrency := by
  by_cases hsub : ∀ key ∈ (s.apply op).runningRuns id, key ∈ s.runningRuns id
  · exact (size_le_size hsub).trans h
  · simp only [not_forall] at hsub
    obtain ⟨key, hnew, hold⟩ := hsub
    obtain ⟨hruns, run, hrun, howner⟩ := (mem_runningRuns_apply hs hnew).resolve_left hold
    have hlt := size_lt_of_runs hop hruns hrun howner ha hnew hold
    have hle : ((s.apply op).runningRuns id).size ≤ (key :: (s.runningRuns id).keys).length := by
      refine size_le_length fun key' hkey' => ?_
      rcases mem_runningRuns_apply hs hkey' with hbefore | ⟨hruns', -⟩
      · exact List.mem_cons_of_mem key (mem_keys.mpr hbefore)
      · exact hruns.eq hruns' ▸ List.mem_cons_self
    rw [List.length_cons, length_keys] at hle
    omega

omit [ChronoSeconds] in
/-- An automation that is not stored has no runs. -/
theorem size_runningRuns_of_none (hs : s.Sound) (h : s.automations[id]? = none) :
    (s.runningRuns id).size = 0 := by
  have hnone : ∀ key ∈ s.runningRuns id, key ∈ ([] : List String) := fun key hkey => ?_
  · exact Nat.le_zero.mp (size_le_length hnone)
  obtain ⟨run, hrun, rfl, -⟩ := mem_runningRuns.mp hkey
  have hmem := (hs.run key run hrun).2
  rw [mem_iff_isSome_getElem?, h] at hmem
  cases hmem

theorem withinLimits_apply (hs : s.Sound) (hop : s.PlacesKept op) (h : s.WithinLimits) :
    (s.apply op).WithinLimits := by
  intro id a ha
  have hat := (apply_stepsTo hs.keyed op).automations id
  rw [ha] at hat
  generalize hold : s.automations[id]? = old at hat
  cases hat with
  | kept hsame =>
    rw [hsame.maxConcurrency]
    exact size_runningRuns_apply hs hop hold (h id _ hold)
  | upserted heq hid _ =>
    subst heq hid
    cases old with
    | none =>
      -- a new automation: nothing is running, and `upsert` starts nothing
      have hzero := size_runningRuns_of_none hs hold
      have hle : ((s.apply (.upsert a)).runningRuns a.id).size ≤ (s.runningRuns a.id).size := by
        refine size_le_size fun key hkey => ?_
        rcases mem_runningRuns_apply hs hkey with hbefore | ⟨hruns, -⟩
        · exact hbefore
        · rcases hruns with ⟨clock, heq⟩ | heq <;> cases heq
      omega
    | some stored =>
      rw [← hop stored hold]
      exact size_runningRuns_apply hs hop hold (h a.id stored hold)

/-- **No automation runs more often at a time than it may,** in any sequence of calls that
does not change the limit of a stored automation and resumes a run only while there is a free
place. -/
theorem running_le_maxConcurrency {ops : List SchedulerOp}
    (hops : Along apply PlacesKept {} ops) (id : Uuid) (a : Automation)
    (ha : (Lib.run apply {} ops).automations[id]? = some a) :
    ((Lib.run apply {} ops).runningRuns id).size ≤ a.maxConcurrency := by
  have h : Sound (Lib.run apply {} ops) ∧ WithinLimits (Lib.run apply {} ops) :=
    hops.invariant (fun s => s.Sound ∧ s.WithinLimits)
      (fun _ op hop h => ⟨sound_apply h.1 op, withinLimits_apply h.1 hop h.2⟩)
      ⟨sound_empty, fun id a ha => by simp at ha⟩
  exact h.2 id a ha

end

/-! ### A resumed run without a place -/

section Examples

attribute [local instance] plainSeconds

/-- The keys of two runs of one automation. -/
def firstKey : String := manualKey 1 (second 5) 7
def secondKey : String := manualKey 1 (second 5) 8

/-- The first run waits for approval, and the second is started in its place. -/
def takenPlace : List SchedulerOp :=
  [.upsert (briefing 1 (.interval 60) none), .runNow (fun _ => 9) 1 (second 5) 7,
    .runNow (fun _ => 10) 1 (second 5) 8, .start firstKey (second 6),
    .waitForApproval firstKey "write files", .start secondKey (second 7)]

/-- **A resumption is not counted.**  Two runs of an automation with `max_concurrency` 1 are
running. -/
theorem resumed_run_exceeds_limit :
    let s := Lib.run apply {} (takenPlace ++ [.resumeAfterApproval firstKey])
    (s.runningRuns 1).size = 2 ∧ (s.automations[1]?).map (·.maxConcurrency) = some 1 := by
  decide +kernel

instance decidablePlacesKept (s : SchedulerSnapshot) : ∀ op, Decidable (s.PlacesKept op)
  | .upsert a => inferInstanceAs (Decidable
      (∀ stored ∈ s.automations[a.id]?, stored.maxConcurrency = a.maxConcurrency))
  | .resumeAfterApproval key => inferInstanceAs (Decidable (∀ run ∈ s.runs[key]?,
      ∀ a ∈ s.automations[run.automationId]?,
        (s.runningRuns run.automationId).size < a.maxConcurrency))
  | .evaluate _ _ | .triggerEvent _ _ _ | .runNow _ _ _ _ | .setEnabled _ _ | .remove _
  | .start _ _ | .waitForApproval _ _ | .bindApproval _ _ _ _ | .bindRuntimeSession _ _
  | .approve _ | .finish _ _ _ _ | .setResultSummary _ _ | .failActive _ _ _
  | .recoverAfterRestart | .preemptForUser | .fromSnapshot => inferInstanceAs (Decidable True)

/-- The first run is resumed after the second has finished. -/
theorem running_le_maxConcurrency_resumed :
    let ops := takenPlace ++ [.finish secondKey true none (second 8),
      .resumeAfterApproval firstKey]
    ((Lib.run apply {} ops).runningRuns 1).size = 1 ∧
      ∀ a, (Lib.run apply {} ops).automations[1]? = some a →
        ((Lib.run apply {} ops).runningRuns 1).size ≤ a.maxConcurrency := by
  intro ops
  have hops : Along apply PlacesKept {} (takenPlace ++
      [.finish secondKey true none (second 8), .resumeAfterApproval firstKey]) := by
    decide +kernel
  exact ⟨by decide +kernel, running_le_maxConcurrency hops 1⟩

end Examples

end SchedulerSnapshot
end PersonalAgent.Automation
