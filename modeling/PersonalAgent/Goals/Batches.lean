/-
# Batches of pending checkpoints

What is queued for a goal is the list of its events that were appended and whose
checkpoint is not written yet (`eventsOf`).  Queueing adds one event at the end, and a
batch that is put back stands before what was queued meanwhile:
as long as the events of a goal are queued in their order, restoring loses nothing and
repeats nothing.  A batch that is written decides the row of every goal it holds
(`rows_of_batch`).
-/

import PersonalAgent.Goals.Persistence
import PersonalAgent.Storage.CheckpointUpdates

namespace PersonalAgent.Goals

open Lib List

open Agent Storage

/-- The events that a batch holds for a goal. -/
def eventsOf (batch : Batch) (g : Uuid) : List EventEnvelope :=
  ((batch[g]?).map (·.events)).getD []

theorem eventsOf_some {batch : Batch} {g : Uuid} {entry : PendingGoalCheckpoint}
    (h : batch[g]? = some entry) : eventsOf batch g = entry.events := by
  rw [eventsOf, h]
  rfl

theorem eventsOf_none {batch : Batch} {g : Uuid} (h : batch[g]? = none) :
    eventsOf batch g = [] := by
  rw [eventsOf, h]
  rfl

@[simp] theorem eventsOf_empty (g : Uuid) : eventsOf ∅ g = [] :=
  eventsOf_none Std.ExtTreeMap.getElem?_empty

namespace GoalPersistence

/-- The entry of a goal after something was queued. -/
theorem getElem?_queue (p : GoalPersistence) (snapshot : SupervisorSnapshot) (event : EventEnvelope)
    (g : Uuid) :
    (p.queue snapshot event).pending[g]? =
      if g = snapshot.graph.goalId then some ⟨snapshot, eventsOf p.pending g ++ [event]⟩
      else p.pending[g]? := by
  rw [queue, getElem?_insert_eq]
  by_cases hg : g = snapshot.graph.goalId
  · rw [if_pos hg, if_pos hg, hg]
    rfl
  · rw [if_neg hg, if_neg hg]

theorem eventsOf_queue (p : GoalPersistence) (snapshot : SupervisorSnapshot) (event : EventEnvelope)
    (g : Uuid) :
    eventsOf (p.queue snapshot event).pending g =
      eventsOf p.pending g ++ if g = snapshot.graph.goalId then [event] else [] := by
  rw [eventsOf, getElem?_queue]
  by_cases hg : g = snapshot.graph.goalId
  · rw [if_pos hg, if_pos hg]
    rfl
  · rw [if_neg hg, if_neg hg, append_nil]
    rfl

/-! ### A batch that is put back -/

/-- What stands for a goal after a failed entry was put back. -/
def restored (failed : PendingGoalCheckpoint) :
    Option PendingGoalCheckpoint → PendingGoalCheckpoint
  | some newer => merged failed newer
  | none => failed

/-- The entries of a batch are put back each for its own goal. -/
theorem foldl_restored {l : List (Uuid × PendingGoalCheckpoint)} (hnodup : (l.map (·.1)).Nodup)
    (pending : Batch) :
    let pending' := l.foldl (fun pending entry =>
      pending.insert entry.1 (restored entry.2 pending[entry.1]?)) pending
    (∀ g : Uuid, g ∉ l.map (·.1) → pending'[g]? = pending[g]?) ∧
      ∀ entry ∈ l, pending'[entry.1]? = some (restored entry.2 pending[entry.1]?) := by
  induction l generalizing pending with
  | nil => exact ⟨fun _ _ => rfl, fun _ h => (nomatch h)⟩
  | cons entry l ih =>
    rw [map_cons, nodup_cons] at hnodup
    obtain ⟨houtside, hinside⟩ := ih hnodup.2
      (pending.insert entry.1 (restored entry.2 pending[entry.1]?))
    refine ⟨fun g hg => ?_, fun other hother => ?_⟩
    · rw [map_cons, mem_cons, not_or] at hg
      rw [foldl_cons, houtside g hg.2, getElem?_insert_eq, if_neg hg.1]
    · rcases mem_cons.mp hother with rfl | hother
      · rw [foldl_cons, houtside _ hnodup.1, getElem?_insert_eq, if_pos rfl]
      · have hne : other.1 ≠ entry.1 := fun h => hnodup.1 (h ▸ mem_map_of_mem hother)
        rw [foldl_cons, hinside other hother, getElem?_insert_eq, if_neg hne]

theorem getElem?_restorePending (p : GoalPersistence) (failed : Batch) (g : Uuid) :
    (p.restorePending failed).pending[g]? =
      match failed[g]? with
      | none => p.pending[g]?
      | some entry => some (restored entry p.pending[g]?) := by
  have hkeys : failed.toList.map (·.1) = failed.keys := Std.ExtTreeMap.map_fst_toList_eq_keys
  obtain ⟨houtside, hinside⟩ := foldl_restored (hkeys ▸ Std.ExtTreeMap.nodup_keys) p.pending
  cases hentry : failed[g]? with
  | none =>
    refine houtside g ?_
    rw [hkeys, Std.ExtTreeMap.mem_keys, Std.ExtTreeMap.mem_iff_isSome_getElem?, hentry]
    exact Bool.false_ne_true
  | some entry =>
    exact hinside (g, entry) (Std.ExtTreeMap.mem_toList_iff_getElem?_eq_some.mpr hentry)

end GoalPersistence

/-! ### A batch that is written -/

/-- **A batch decides the rows of its goals**, and no others. -/
theorem rows_of_batch {batch : Batch} {rows rows' : Checkpoints}
    (hkeyed : ∀ (g : Uuid) entry, batch[g]? = some entry → entry.snapshot.graph.goalId = g)
    (h : saveSupervisorCheckpointUpdates rows (GoalPersistence.updates batch) = .ok rows')
    (g : Uuid) :
    (batch[g]? = none → rows'[g]? = rows[g]?) ∧
      ∀ entry, batch[g]? = some entry → ∃ row,
        updatedRow rows[g]? ⟨entry.snapshot, entry.events⟩ = .ok row ∧ rows'[g]? = some row := by
  have hids : (GoalPersistence.updates batch).map (·.goalId) = batch.keys := by
    rw [GoalPersistence.updates, map_map, ← Std.ExtTreeMap.map_fst_toList_eq_keys]
    refine map_congr_left fun entry hentry => ?_
    exact hkeyed entry.1 entry.2 (Std.ExtTreeMap.mem_toList_iff_getElem?_eq_some.mp hentry)
  obtain ⟨houtside, hinside⟩ := rows_of_updates (hids ▸ Std.ExtTreeMap.nodup_keys) h
  refine ⟨fun hnone => houtside g ?_, fun entry hentry => ?_⟩
  · rw [hids, Std.ExtTreeMap.mem_keys, Std.ExtTreeMap.mem_iff_isSome_getElem?, hnone]
    exact Bool.false_ne_true
  · obtain ⟨row, hrow, hget⟩ := hinside ⟨entry.snapshot, entry.events⟩
      (mem_map.mpr ⟨(g, entry),
      Std.ExtTreeMap.mem_toList_iff_getElem?_eq_some.mpr hentry, rfl⟩)
    have hg : entry.snapshot.graph.goalId = g := hkeyed g entry hentry
    rw [SupervisorCheckpointUpdate.goalId, hg] at hrow hget
    exact ⟨row, hrow, hget⟩

end PersonalAgent.Goals
