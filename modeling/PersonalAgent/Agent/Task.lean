/-
# Goals, tasks and task graphs

The data model of `crates/agent/src/lib.rs`, lines 11 to 238: the lifecycle
`WorkStatus` shared by goals and tasks, a `Goal` with its budgets, a `Task` as one
typed node of a plan, and the `TaskGraph` that `validate` accepts before anything
runs.

A graph is keyed by task id.  Nothing in the source makes the key and the field
`id` of the task under it the same, so neither does the model: the supervisor's
operations look tasks up by key.  Acyclicity is decided by `petgraph`, which the
repository does not contain; it enters as the parameter `Petgraph.toposort`, the
success of `toposort(&graph, None)` on the nodes and edges that were added.
-/

import PersonalAgent.Contracts.Value
import PersonalAgent.Lib.Except

namespace PersonalAgent.Agent

open Lib

/-- Lifecycle shared by goals and tasks. -/
inductive WorkStatus where
  | queued
  | planning
  | running
  | waiting
  | paused
  | completed
  | failed
  | cancelled
  deriving DecidableEq, Repr

/-- Isolation boundary for task execution. -/
inductive ExecutionZone where
  | isolated
  | workspace
  | desktop
  deriving DecidableEq, Repr

/-- One typed node in a plan. -/
structure Task where
  id : Uuid
  goalId : Uuid
  parentTaskId : Option Uuid
  title : String
  assignedAgent : String
  workspace : Option String
  browserProfile : Option String
  toolScopes : Finset String
  risk : String
  executionZone : ExecutionZone
  maxAttempts : ℕ
  attempt : ℕ
  idempotencyKey : Option String
  checkpointId : Option String
  status : WorkStatus
  progress : ℕ
  output : Option Value

/-- A revisioned task graph; an edge is dependency first, dependent second. -/
structure TaskGraph where
  goalId : Uuid
  revision : ℕ
  tasks : BTreeMap Uuid Task
  edges : List (Uuid × Uuid)

/-- Invalid plan or completion transition. -/
inductive PlanError where
  | missingTask (id : Uuid)
  | cycle
  | wrongGoal (task actual expected : Uuid)
  | unverifiedCriteria (missing : List String)
  | taskNotReady (id : Uuid)
  | attemptsExhausted (id : Uuid)
  | missingIdempotencyKey (id : Uuid)
  | authorityWidening (task : Uuid) (detail : String)
  | invalidSnapshot (detail : String)
  deriving DecidableEq, Repr

/-- `petgraph::algo::toposort` on a `DiGraphMap` with these nodes and edges:
whether it returns an order. -/
class Petgraph where
  toposort : List Uuid → List (Uuid × Uuid) → Bool

/-- The reference order: take the nodes no edge leads to, drop the edges that leave
them, and go on with the rest; each round takes a node or meets a cycle. -/
def kahn : ℕ → List Uuid → List (Uuid × Uuid) → Bool
  | 0, nodes, _ => nodes.isEmpty
  | fuel + 1, nodes, edges =>
    let rest := nodes.filter fun v => edges.any (·.2 = v)
    nodes.isEmpty || (rest.length < nodes.length &&
      kahn fuel rest (edges.filter fun edge => edge.1 ∈ rest))

/-- A `toposort` to run examples with. -/
@[reducible] def Petgraph.kahn : Petgraph where
  toposort nodes edges := Agent.kahn nodes.length nodes edges

variable [Petgraph]

/-- Verify ownership, referential integrity, and acyclicity. -/
def TaskGraph.validate (graph : TaskGraph) : Except PlanError Unit := do
  graph.tasks.toList.forM fun (_, task) =>
    if task.goalId ≠ graph.goalId then
      .error (.wrongGoal task.id task.goalId graph.goalId)
    else .ok ()
  graph.edges.forM fun (dependency, dependent) =>
    if dependency ∉ graph.tasks then .error (.missingTask dependency)
    else if dependent ∉ graph.tasks then .error (.missingTask dependent)
    else .ok ()
  if Petgraph.toposort graph.tasks.keys graph.edges then .ok () else .error .cycle

/-- `validate` accepts exactly the graphs whose tasks belong to the goal, whose edges
join tasks of the graph, and which have a topological order. -/
theorem TaskGraph.validate_ok_iff (graph : TaskGraph) :
    graph.validate = .ok () ↔
      (∀ (k : Uuid) t, graph.tasks[k]? = some t → t.goalId = graph.goalId) ∧
      (∀ edge ∈ graph.edges, edge.1 ∈ graph.tasks ∧ edge.2 ∈ graph.tasks) ∧
      Petgraph.toposort graph.tasks.keys graph.edges = true := by
  have howner : (graph.tasks.toList.forM fun (_, task) =>
        if task.goalId ≠ graph.goalId then
          (.error (.wrongGoal task.id task.goalId graph.goalId) : Except PlanError Unit)
        else .ok ()) = .ok () ↔
      ∀ (k : Uuid) t, graph.tasks[k]? = some t → t.goalId = graph.goalId := by
    rw [forM_ok_iff]
    simp
  have hedges : (graph.edges.forM fun (dependency, dependent) =>
        if dependency ∉ graph.tasks then (.error (.missingTask dependency) : Except PlanError Unit)
        else if dependent ∉ graph.tasks then .error (.missingTask dependent)
        else .ok ()) = .ok () ↔
      ∀ edge ∈ graph.edges, edge.1 ∈ graph.tasks ∧ edge.2 ∈ graph.tasks := by
    rw [forM_ok_iff]
    refine forall₂_congr fun edge _ => ?_
    by_cases h₁ : edge.1 ∈ graph.tasks <;> by_cases h₂ : edge.2 ∈ graph.tasks <;> simp [h₁, h₂]
  have horder : (if Petgraph.toposort graph.tasks.keys graph.edges then
        (.ok () : Except PlanError Unit) else .error .cycle) = .ok () ↔
      Petgraph.toposort graph.tasks.keys graph.edges = true := by
    split_ifs with h <;> simp [h]
  rw [← howner, ← hedges, ← horder]
  unfold validate
  constructor
  · intro h
    obtain ⟨⟨⟩, h₁, h⟩ := bind_ok_iff.mp h
    obtain ⟨⟨⟩, h₂, h⟩ := bind_ok_iff.mp h
    exact ⟨h₁, h₂, h⟩
  · rintro ⟨h₁, h₂, h₃⟩
    exact bind_ok_iff.mpr ⟨(), h₁, bind_ok_iff.mpr ⟨(), h₂, h₃⟩⟩

end PersonalAgent.Agent
