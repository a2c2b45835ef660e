/-
# Debounced checkpoints

`GoalPersistence` (`goals_host.rs`, lines 70 to 225) collects, for every goal, the events
that were appended but not yet accounted for by its checkpoint, and the latest snapshot.
A flush takes all of it at once and writes it in one transaction; a write that fails puts
the batch back below what was queued meanwhile.  A timer only takes the batch if nothing
was queued after it was set (`takeGeneration`), and a flush for a critical transition or
at shutdown takes it in any case (`take`).
-/

import PersonalAgent.Lib.OrdMap
import PersonalAgent.Storage.Checkpoint

namespace PersonalAgent.Goals

open Agent Storage

/-- What one goal still has to have checkpointed. -/
structure PendingGoalCheckpoint where
  snapshot : SupervisorSnapshot
  events : List EventEnvelope

abbrev Batch := BTreeMap Uuid PendingGoalCheckpoint

structure GoalPersistence where
  generation : ℕ := 0
  pending : Batch := ∅

namespace GoalPersistence

/-- Add an event and its snapshot; the new generation is that of the timer it sets. -/
def queue (p : GoalPersistence) (snapshot : SupervisorSnapshot) (event : EventEnvelope) :
    GoalPersistence :=
  let events := ((p.pending[snapshot.graph.goalId]?).map (·.events)).getD []
  { generation := p.generation + 1
    pending := p.pending.insert snapshot.graph.goalId ⟨snapshot, events ++ [event]⟩ }

/-- Take the batch for a flush, which outdates every timer. -/
def take (p : GoalPersistence) : Batch × GoalPersistence :=
  (p.pending, { generation := p.generation + 1, pending := ∅ })

/-- Take the batch for a timer, if it is still the latest. -/
def takeGeneration (p : GoalPersistence) (generation : ℕ) : Option (Batch × GoalPersistence) :=
  if p.generation = generation then some (p.pending, { p with pending := ∅ }) else none

/-- The updates of a batch, in order of the goals. -/
def updates (batch : Batch) : List SupervisorCheckpointUpdate :=
  batch.toList.map fun entry => ⟨entry.2.snapshot, entry.2.events⟩

/-- `events.dedup_by_key(|event| event.monotonic_sequence)`. -/
def dedupBySequence : List EventEnvelope → List EventEnvelope
  | [] => []
  | event :: events =>
    match dedupBySequence events with
    | [] => [event]
    | next :: rest =>
      if event.monotonicSequence = next.monotonicSequence then event :: rest
      else event :: next :: rest

/-- What failed to be written, with what was queued for the goal since. -/
def merged (failed newer : PendingGoalCheckpoint) : PendingGoalCheckpoint :=
  ⟨newer.snapshot, dedupBySequence (sortedBySequence (failed.events ++ newer.events))⟩

/-- Put a batch back after a failed write. -/
def restorePending (p : GoalPersistence) (failed : Batch) : GoalPersistence :=
  { p with pending := failed.toList.foldl (fun pending (goalId, failed) =>
      pending.insert goalId (match pending[goalId]? with
        | some newer => merged failed newer
        | none => failed)) p.pending }

end GoalPersistence
end PersonalAgent.Goals
