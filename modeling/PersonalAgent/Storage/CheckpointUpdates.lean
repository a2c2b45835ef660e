/-
# What a batch of updates does to the rows

A batch holds one update for each goal, so every row is decided by one update or by none
(`rows_of_updates`).  An update whose events are in order of their sequence either finds
the row ahead of all of them and leaves it, or ends at its last event with its snapshot in
the row.
-/

import PersonalAgent.Lib.OrdMap
import PersonalAgent.Storage.Checkpoint

namespace PersonalAgent.Storage

open Lib

open Agent

abbrev SupervisorCheckpointUpdate.goalId (update : SupervisorCheckpointUpdate) : Uuid :=
  update.snapshot.graph.goalId

/-- Every row is decided by the update of its goal, if there is one. -/
theorem rows_of_updates {updates : List SupervisorCheckpointUpdate} {rows rows' : Checkpoints}
    (hnodup : (updates.map (·.goalId)).Nodup)
    (h : saveSupervisorCheckpointUpdates rows updates = .ok rows') :
    (∀ g : Uuid, g ∉ updates.map (·.goalId) → rows'[g]? = rows[g]?) ∧
      ∀ update ∈ updates, ∃ row, updatedRow rows[update.goalId]? update = .ok row ∧
        rows'[update.goalId]? = some row := by
  induction updates generalizing rows with
  | nil =>
    cases pure_ok_iff.mp h
    exact ⟨fun _ _ => rfl, fun _ h => (nomatch h)⟩
  | cons update updates ih =>
    rw [List.map_cons, List.nodup_cons] at hnodup
    obtain ⟨rows₁, hrows₁, h⟩ := bind_ok_iff.mp h
    obtain ⟨row, hrow, hrows₁⟩ := bind_ok_iff.mp hrows₁
    obtain rfl := pure_ok_iff.mp hrows₁
    obtain ⟨houtside, hinside⟩ := ih hnodup.2 h
    refine ⟨fun g hg => ?_, fun update' hmem => ?_⟩
    · rw [List.map_cons, List.mem_cons, not_or] at hg
      rw [houtside g hg.2, getElem?_insert_eq, if_neg hg.1]
    · rcases List.mem_cons.mp hmem with rfl | hmem
      · refine ⟨row, hrow, ?_⟩
        rw [houtside _ hnodup.1]
        exact (getElem?_insert_eq _ _ _ _).trans (if_pos rfl)
      · obtain ⟨row', hrow', hget⟩ := hinside update' hmem
        have hne : update'.goalId ≠ update.goalId :=
          fun h => hnodup.1 (h ▸ List.mem_map_of_mem hmem)
        rw [getElem?_insert_eq, if_neg hne] at hrow'
        exact ⟨row', hrow', hget⟩

/-- One event of an update that went through: skipped, or taken over. -/
theorem advanceCheckpoint_ok {snapshot : SupervisorSnapshot}
    {state state' : Option SupervisorRecoveryCheckpoint × Bool} {event : EventEnvelope}
    (h : advanceCheckpoint snapshot state event = .ok state') :
    (∃ c, state.1 = some c ∧ event.monotonicSequence ≤ c.lastSequence ∧ state' = state) ∨
      (∀ c, state.1 = some c → c.lastSequence < event.monotonicSequence) ∧
        ∃ c, evolveSupervisorCheckpoint state.1 snapshot event = .ok c ∧
          state' = (some c, true) := by
  obtain ⟨⟨⟩, -, h⟩ := bind_ok_iff.mp h
  split_ifs at h with hgoal hskip
  · obtain ⟨c, hc, hle⟩ := (Option.any_eq_true _ _).mp hskip
    exact .inl ⟨c, hc, by simpa using hle, (pure_ok_iff.mp h).symm⟩
  · obtain ⟨c, hc, h⟩ := bind_ok_iff.mp h
    refine .inr ⟨fun c' hc' => ?_, c, hc, (pure_ok_iff.mp h).symm⟩
    simpa [hc'] using hskip

theorem evolve_ok {previous : Option SupervisorRecoveryCheckpoint} {snapshot : SupervisorSnapshot}
    {event : EventEnvelope} {c : SupervisorRecoveryCheckpoint}
    (h : evolveSupervisorCheckpoint previous snapshot event = .ok c) :
    c.snapshot = snapshot ∧ c.lastSequence = event.monotonicSequence ∧
      c.latestGoalEvent = some event := by
  unfold evolveSupervisorCheckpoint at h
  dsimp only at h
  split at h
  · cases h
  · cases h
    exact ⟨rfl, rfl, rfl⟩

end PersonalAgent.Storage
