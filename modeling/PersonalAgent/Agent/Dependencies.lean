/-
# Nothing runs before what it depends on

Only `start` looks at the dependencies of a task.  A task also becomes Running,
Waiting or Completed by `resume_after_approval`, `recover` and the completions, but
each of those starts from a task that was Running or Waiting, so the check made at its
start still counts: Completed is a state no operation leaves (`Move.eq_of_completed`).
The direct dependencies of an active task are therefore Completed in every reachable
state, and by induction along the edges so are the transitive ones.
-/

import PersonalAgent.Agent.RunningOrder

namespace PersonalAgent.Agent

open Lib

namespace DurableSupervisor

/-- The task under `k` is completed. -/
def CompletedAt (s : DurableSupervisor) (k : Uuid) : Prop :=
  ∃ t, s.tasks[k]? = some t ∧ t.status = .completed

/-- Running, Waiting, Completed or Failed: past the check that `start` makes. -/
def Active (t : Task) : Prop :=
  t.status = .running ∨ t.status = .waiting ∨ t.status = .completed ∨ t.status = .failed

/-- `dependency` comes before `dependent` in the plan. -/
def DependsOn (s : DurableSupervisor) (dependency dependent : Uuid) : Prop :=
  (dependency, dependent) ∈ s.snapshot.graph.edges

/-- Every active task has its direct dependencies completed. -/
def Ordered (s : DurableSupervisor) : Prop :=
  ∀ (k : Uuid) t, s.tasks[k]? = some t → Active t → ∀ j, DependsOn s j k → CompletedAt s j

variable {s s' : DurableSupervisor} {op : Op} {k : Uuid} {t : Task}

theorem Move.eq_of_completed {t' : Task} (h : Move s op s' k t t') (hc : t.status = .completed) :
    t' = t := by
  cases h <;> simp_all

theorem completedAt_step (he : Effect s op s') (h : CompletedAt s k) : CompletedAt s' k := by
  obtain ⟨t, ht, hc⟩ := h
  obtain ⟨t', ht', hm⟩ := he.move_of_before ht
  exact ⟨t', ht', hm.eq_of_completed hc ▸ hc⟩

/-- A task that a step makes active was active, or is the one whose start found its
dependencies completed. -/
theorem Move.active {t' : Task} (h : Move s op s' k t t') (ha : Active t') :
    Active t ∨ s.dependenciesCompleted k = true := by
  cases h with
  | started _ _ hd _ => exact .inr hd
  | failed _ hr => exact .inl (hr.imp_right .inl)
  | _ => simp_all [Active]

theorem completedAt_of_dependenciesCompleted {j : Uuid} (h : s.dependenciesCompleted k = true)
    (hj : DependsOn s j k) : CompletedAt s j := by
  simp only [dependenciesCompleted, List.all_eq_true, List.mem_filter, decide_eq_true_eq] at h
  obtain ⟨t, ht, hc⟩ := (Option.any_eq_true _ _).mp (h (j, k) ⟨hj, rfl⟩)
  exact ⟨t, ht, by simpa using hc⟩

theorem Ordered.step (h : Ordered s) (he : Effect s op s') : Ordered s' := by
  intro k t' ht' ha j hj
  have hj : DependsOn s j k := by rwa [DependsOn, he.edges] at hj
  obtain ⟨t, ht, hm⟩ := he.move_of_after ht'
  rcases hm.active ha with ha | hd
  · exact completedAt_step he (h k t ht ha j hj)
  · exact completedAt_step he (completedAt_of_dependenciesCompleted hd hj)

theorem Ordered.transGen (h : Ordered s) {j : Uuid} (ht : s.tasks[k]? = some t) (ha : Active t)
    (hj : Relation.TransGen (DependsOn s) j k) : CompletedAt s j := by
  -- from the dependent back to the dependency, each one met on the way being completed
  induction hj using Relation.TransGen.head_induction_on with
  | single hj => exact h k t ht ha _ hj
  | head hj _ ih =>
    obtain ⟨u, hu, hc⟩ := ih
    exact h _ u hu (.inr (.inr (.inl hc))) _ hj

section Runs

variable [Petgraph]

theorem Fresh.ordered {graph : TaskGraph} {p d : ℕ} {s₀ : DurableSupervisor}
    (h : Fresh graph p d s₀) : Ordered s₀ := by
  intro k t ht ha
  simp [Active, h.status ht] at ha

/-- **No task runs, waits or completes before its dependencies, and completion is
final.**  In every state a run reaches, the direct and transitive dependencies of a
Running, Waiting or Completed task are Completed; and a task that is Completed keeps
its status and its output however the run goes on. -/
theorem dependencies_completed {graph : TaskGraph} {p d : ℕ} {s₀ : DurableSupervisor}
    (h : Fresh graph p d s₀) (ops : List Op) :
    (∀ (k : Uuid) t, (run step s₀ ops).tasks[k]? = some t →
      t.status = .running ∨ t.status = .waiting ∨ t.status = .completed →
      ∀ j, Relation.TransGen (DependsOn (run step s₀ ops)) j k →
        ∃ u, (run step s₀ ops).tasks[j]? = some u ∧ u.status = .completed) ∧
    (∀ (k : Uuid) t, (run step s₀ ops).tasks[k]? = some t → t.status = .completed →
      ∀ more : List Op, ∃ t', (run step s₀ (ops ++ more)).tasks[k]? = some t' ∧
        t'.status = .completed ∧ t'.output = t.output) := by
  have hord : Lane (run step s₀ ops) ∧ Ordered (run step s₀ ops) :=
    run_invariant (fun s => Lane s ∧ Ordered s)
      (fun _ op hs => ⟨step_lane hs.1 op, hs.2.step (step_effect hs.1 op)⟩) ops
      ⟨h.lane, h.ordered⟩
  refine ⟨fun k t ht ha j hj => hord.2.transGen ht ?_ hj, fun k t ht hc more => ?_⟩
  · rcases ha with ha | ha | ha <;> simp [Active, ha]
  rw [run_append]
  -- the task itself stays in place: an invariant of the rest of the run
  have hkept : Lane (run step (run step s₀ ops) more) ∧
      (run step (run step s₀ ops) more).tasks[k]? = some t := by
    refine run_invariant (fun s => Lane s ∧ s.tasks[k]? = some t) (fun s op hs => ?_) more
      ⟨hord.1, ht⟩
    obtain ⟨t', ht', hm⟩ := (step_effect hs.1 op).move_of_before hs.2
    exact ⟨step_lane hs.1 op, hm.eq_of_completed hc ▸ ht'⟩
  exact ⟨t, hkept.2, hc, rfl⟩

end Runs

attribute [local instance] Petgraph.kahn

/-- The first task of a pair completes and the second is started. -/
theorem dependencies_completed_pair :
    let s := run step
      (pairStart (sampleTask 1 0 "read" none) (sampleTask 2 0 "read" none) [(1, 2)])
      [.start 1, .complete 1 .null true none ⟨"2026-01-01T00:00:00Z"⟩, .start 2]
    (s.tasks[2]?).any (·.status = .running) = true ∧
      ∃ u, s.tasks[1]? = some u ∧ u.status = .completed := by
  refine ⟨by decide, ?_⟩
  exact (dependencies_completed (fresh_pairStart rfl rfl rfl) _).1 2 _ rfl (.inl rfl) 1
    (.single (by simp [DependsOn]; decide))

end DurableSupervisor
end PersonalAgent.Agent
