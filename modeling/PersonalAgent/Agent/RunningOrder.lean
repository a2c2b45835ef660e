/-
# The running order describes the running tasks

The supervisor keeps the same fact twice: each task has a status, and the snapshot
lists the running tasks in the order they started.  `start` and
`resume_after_approval` bound the length of the list, `ready_tasks` counts statuses,
and `recover` refuses a snapshot in which the two disagree.

They never do, on a plan none of whose tasks had started (`runningOrder_exact`), and
`recover` always accepts the snapshot (`recovered_once`).  For that the plan has to stay
valid, which it does because an operation keeps the keys, the goals and the edges
(`Valid.step`).
-/

import PersonalAgent.Agent.Transitions

namespace PersonalAgent.Agent

open Lib

namespace DurableSupervisor

variable [Petgraph]

/-- What `recover` asks of a snapshot besides its lane. -/
structure Valid (s : DurableSupervisor) : Prop where
  version : s.snapshot.schemaVersion = 1
  graph : s.snapshot.graph.validate = .ok ()
  bounds : checkSchedulerBounds s.maximumParallelism s.maximumDelegationDepth = .ok ()

theorem Fresh.valid {graph : TaskGraph} {p d : ℕ} {s₀ : DurableSupervisor}
    (h : Fresh graph p d s₀) : Valid s₀ := by
  obtain ⟨hg, hb, rfl⟩ := new_ok_iff.mp h.new_ok
  exact ⟨rfl, hg, hb⟩

/-- An operation keeps the plan valid: `validate` reads only keys, goals and edges. -/
theorem Valid.step {s s' : DurableSupervisor} {op : Op} (h : Valid s) (he : Effect s op s') :
    Valid s' := by
  refine ⟨he.schemaVersion.trans h.version, ?_, ?_⟩
  · obtain ⟨howner, hedges, horder⟩ := s.snapshot.graph.validate_ok_iff.mp h.graph
    refine s'.snapshot.graph.validate_ok_iff.mpr ⟨fun k t' ht' => ?_, fun edge hedge => ?_, ?_⟩
    · obtain ⟨t, ht, hm⟩ := he.move_of_after ht'
      rw [hm.samePlan.goalId, he.goalId]
      exact howner k t ht
    · rw [he.edges] at hedge
      exact ⟨(he.mem_iff _).mpr (hedges edge hedge).1, (he.mem_iff _).mpr (hedges edge hedge).2⟩
    · have hkeys : s'.snapshot.graph.tasks.keys = s.snapshot.graph.tasks.keys :=
        keys_eq_of_mem_iff he.mem_iff
      rw [hkeys, he.edges]
      exact horder
  · rw [he.maximumParallelism, he.maximumDelegationDepth]
    exact h.bounds

/-- The bounds a run works under are those it started with. -/
theorem bounds_run {s₀ : DurableSupervisor} (h : Lane s₀) (ops : List Op) :
    (run step s₀ ops).maximumParallelism = s₀.maximumParallelism ∧
      (run step s₀ ops).maximumDelegationDepth = s₀.maximumDelegationDepth := by
  refine run_relates Lane (fun s s' => s'.maximumParallelism = s.maximumParallelism ∧
    s'.maximumDelegationDepth = s.maximumDelegationDepth) (fun _ => ⟨rfl, rfl⟩)
    (fun _ _ _ h₁ h₂ => ⟨h₂.1.trans h₁.1, h₂.2.trans h₁.2⟩) (fun _ op hs => step_lane hs op)
    (fun s op hs => ?_) ops h
  exact ⟨(step_effect hs op).maximumParallelism, (step_effect hs op).maximumDelegationDepth⟩

theorem Fresh.lane_valid_run {graph : TaskGraph} {p d : ℕ} {s₀ : DurableSupervisor}
    (h : Fresh graph p d s₀) (ops : List Op) :
    Lane (run step s₀ ops) ∧ Valid (run step s₀ ops) :=
  run_invariant (fun s => Lane s ∧ Valid s)
    (fun _ op hs => ⟨step_lane hs.1 op, hs.2.step (step_effect hs.1 op)⟩) ops ⟨h.lane, h.valid⟩

/-- **The running order is exact in every reachable state**, and recovery from it
succeeds. -/
theorem runningOrder_exact {graph : TaskGraph} {p d : ℕ} {s₀ : DurableSupervisor}
    (h : Fresh graph p d s₀) (ops : List Op) :
    (run step s₀ ops).runningOrder.Nodup ∧
    (∀ k, k ∈ (run step s₀ ops).runningOrder ↔
      ∃ t, (run step s₀ ops).tasks[k]? = some t ∧ t.status = .running) ∧
    (run step s₀ ops).runningOrder.length ≤ p ∧
    ∃ s', recover (run step s₀ ops).snapshot p d = .ok s' := by
  obtain ⟨hl, hv⟩ := h.lane_valid_run ops
  obtain ⟨hp, hd⟩ := bounds_run h.lane ops
  obtain ⟨-, -, rfl⟩ := new_ok_iff.mp h.new_ok
  have hrec := recover_of_lane hl hv.version hv.graph hv.bounds
  rw [hp, hd] at hrec
  exact ⟨hl.nodup, hl.mem_iff, hl.bounded.trans_eq hp, hrec⟩

/-- A recovery changes the tasks in flight and nothing else, and leaves none for the next. -/
theorem Lane.recover {s : DurableSupervisor} (hl : Lane s) (hv : Valid s) :
    ∃ s', recover s.snapshot s.maximumParallelism s.maximumDelegationDepth = .ok s' ∧
      s'.runningOrder = [] ∧ s'.snapshot.receipts = s.snapshot.receipts ∧
      (∀ k : Uuid, s'.tasks[k]? = (s.tasks[k]?).map fun t =>
        if t.status = .running then recoveredTask s.snapshot.receipts t else t) ∧
      DurableSupervisor.recover s'.snapshot s.maximumParallelism s.maximumDelegationDepth =
        .ok s' := by
  obtain ⟨m, hm, hget⟩ := foldlM_recoverTask s.snapshot.receipts s.runningOrder s.tasks hl.nodup
    fun id hid => (hl.mem_iff id).mp hid
  have hrec := recover_ok_iff.mpr ⟨hv.version, hv.graph, m, hm, hv.bounds, rfl⟩
  refine ⟨_, hrec, rfl, rfl, fun k => ?_, ?_⟩
  · change m[k]? = _
    rw [hget]
    split_ifs with hk
    · obtain ⟨t, ht, hr⟩ := (hl.mem_iff k).mp hk
      simp [ht, hr]
    · cases ht : s.tasks[k]? with
      | none => rfl
      | some t =>
        have hr : t.status ≠ .running := fun hr => hk ((hl.mem_iff k).mpr ⟨t, ht, hr⟩)
        simp [hr]
  · have hv' := hv.step (stepped_recover hl.listed hrec).toEffect
    exact recover_ok_iff.mpr ⟨hv'.version, hv'.graph, m, rfl, hv'.bounds, rfl⟩

/-- **A crash costs the tasks in flight their place, once.**  Wherever a run stops, recovery
rewrites the Running tasks as `recoveredTask` does, keeps the other tasks and all receipts and
empties the lane; and a second crash right after it recovers to the same supervisor. -/
theorem recovered_once {graph : TaskGraph} {p d : ℕ} {s₀ : DurableSupervisor}
    (h : Fresh graph p d s₀) (ops : List Op) :
    ∃ s', recover (run step s₀ ops).snapshot p d = .ok s' ∧ s'.runningOrder = [] ∧
      s'.snapshot.receipts = (run step s₀ ops).snapshot.receipts ∧
      (∀ k : Uuid, s'.tasks[k]? = ((run step s₀ ops).tasks[k]?).map fun t =>
        if t.status = .running then recoveredTask (run step s₀ ops).snapshot.receipts t else t) ∧
      recover s'.snapshot p d = .ok s' := by
  obtain ⟨hl, hv⟩ := h.lane_valid_run ops
  obtain ⟨hp, hd⟩ := bounds_run h.lane ops
  obtain ⟨-, -, rfl⟩ := new_ok_iff.mp h.new_ok
  have hrec := hl.recover hv
  rwa [hp, hd] at hrec

end DurableSupervisor

/-- A queued task as the tests of the source build it, with its risk and key. -/
def sampleTask (id goalId : Uuid) (risk : String) (key : Option String) : Task where
  id := id
  goalId := goalId
  parentTaskId := none
  title := "a"
  assignedAgent := "executor"
  workspace := none
  browserProfile := none
  toolScopes := ∅
  risk := risk
  executionZone := .isolated
  maxAttempts := 1
  attempt := 0
  idempotencyKey := key
  checkpointId := none
  status := .queued
  progress := 0
  output := none

/-- Two tasks of goal 0, the second after the first when `edges` says so. -/
def samplePair (a b : Task) (edges : List (Uuid × Uuid)) : TaskGraph where
  goalId := 0
  revision := 1
  tasks := (∅ : BTreeMap Uuid Task) |>.insert 1 a |>.insert 2 b
  edges := edges

namespace DurableSupervisor

attribute [local instance] Petgraph.kahn

/-- The supervisor `new` returns on a pair of tasks, with room for one. -/
def pairStart (a b : Task) (edges : List (Uuid × Uuid)) : DurableSupervisor :=
  ⟨⟨1, samplePair a b edges, ∅, [], 0⟩, 1, 1⟩

theorem fresh_pairStart {a b : Task} {edges : List (Uuid × Uuid)}
    (hv : (samplePair a b edges).validate = .ok ()) (ha : a.status = .queued)
    (hb : b.status = .queued) : Fresh (samplePair a b edges) 1 1 (pairStart a b edges) := by
  refine ⟨new_ok_iff.mpr ⟨hv, rfl, rfl⟩, fun k t ht => ?_⟩
  simp only [samplePair, getElem?_insert_eq] at ht
  split_ifs at ht with h₂ h₁
  · exact Option.some.inj ht ▸ hb
  · exact Option.some.inj ht ▸ ha
  · simp at ht

/-- A pair in order, its first task started. -/
theorem runningOrder_exact_pair :
    (run step (pairStart (sampleTask 1 0 "read" none) (sampleTask 2 0 "read" none) [(1, 2)])
      [.start 1]).runningOrder.length ≤ 1 :=
  (runningOrder_exact (fresh_pairStart rfl rfl rfl) [.start 1]).2.2.1

/-- The process crashes twice while the first task runs. -/
theorem recovered_once_pair :
    let s := run step (pairStart (sampleTask 1 0 "read" none) (sampleTask 2 0 "read" none) [])
      [.start 1]
    s.runningOrder = [1] ∧
      ∃ s', recover s.snapshot 1 1 = .ok s' ∧ recover s'.snapshot 1 1 = .ok s' := by
  have hfresh : Fresh _ 1 1 (pairStart (sampleTask 1 0 "read" none)
    (sampleTask 2 0 "read" none) []) := fresh_pairStart rfl rfl rfl
  obtain ⟨s', hs', -, -, -, hagain⟩ := recovered_once hfresh [.start 1]
  exact ⟨by decide, s', hs', hagain⟩

end DurableSupervisor
end PersonalAgent.Agent
