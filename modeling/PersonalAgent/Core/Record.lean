/-
# Recording an event is not one operation

`Core::record` of `crates/core/src/lib.rs` (lines 945 to 962) is documented as "append
and project as one handler operation".  It commits the event to the store, then applies
it to the projection in memory, and then writes the projection checkpoint that is due at
every thousandth sequence.  Nothing is taken back: an event the projection refuses stays
in the log, a payload that does not decode leaves the projection with the sequence, the
profile and the recent events of the event it refused, and a checkpoint that fails makes
an error of a record that is complete (`record_stores_what_it_refuses`).
-/

import PersonalAgent.Core.ProfileState

namespace PersonalAgent.Core

open Lib

open Storage

/-- `Core`, without the runtime it starts and stops. -/
structure CoreState where
  store : EventStore AppProjection := {}
  projection : AppProjection := {}

/-- Append and project as one handler operation. -/
def CoreState.record (c : CoreState) (event : EventEnvelope) (faults : Faults) :
    CoreState × Except CoreError Unit :=
  match c.store.append event faults.write with
  | .error e => (c, .error (.storage e))
  | .ok store =>
    match c.projection.apply event with
    | (projection, .error e) => (⟨store, projection⟩, .error e)
    | (projection, .ok ()) =>
      if projection.lastSequence % projectionCheckpointInterval = 0 then
        match store.saveProjectionCheckpoint projection projection.lastSequence
            faults.checkpoint with
        | .error e => (⟨store, projection⟩, .error (.storage e))
        | .ok store => (⟨store, projection⟩, .ok ())
      else (⟨store, projection⟩, .ok ())

/-! ### When the store takes an event -/

theorem append_isOk_iff {P : Type} {s : EventStore P} {event : EventEnvelope} {fault : Bool} :
    (∃ s', s.append event fault = .ok s') ↔
      validateEvent event = .ok () ∧ fault = false ∧ s.events.Free event := by
  unfold EventStore.append
  constructor
  · rintro ⟨s', h⟩
    obtain ⟨⟨⟩, hvalid, h⟩ := bind_ok_iff.mp h
    obtain ⟨events, hinsert, -⟩ := bind_ok_iff.mp (commit_ok h)
    refine ⟨hvalid, ?_, ?_⟩
    · cases fault with
      | true => cases h
      | false => rfl
    · unfold EventTable.insert at hinsert
      split_ifs at hinsert with hfree
      exact hfree
  · rintro ⟨hvalid, rfl, hfree⟩
    obtain ⟨events, hinsert⟩ : ∃ events, s.events.insert event = .ok events :=
      ⟨_, dif_pos hfree⟩
    refine ⟨{ s with events }, bind_ok_iff.mpr ⟨(), hvalid, ?_⟩⟩
    rw [commit, if_neg Bool.false_ne_true]
    exact bind_ok_iff.mpr ⟨events, hinsert, rfl⟩

/-- A stored event is a new row. -/
theorem table_ne_of_insert {t t' : EventTable} {event : EventEnvelope}
    (h : t.insert event = .ok t') : t' ≠ t := by
  unfold EventTable.insert at h
  split_ifs at h with hfree
  cases h
  intro heq
  have hlen := (EventTable.placed_perm fun row hrow => (hfree row hrow).1).length_eq
  have hrows : EventTable.placed t.rows event = t.rows := congrArg EventTable.rows heq
  rw [hrows, List.length_cons] at hlen
  omega

/-! ### When the projection takes it -/

namespace AppProjection

/-- Where `apply` needs a payload it cannot decode, it fails. -/
theorem counted_error (p : AppProjection) {event : EventEnvelope} (h : ¬Readable event) :
    (p.counted event).2 = .error (.event .json) := by
  obtain ⟨hnone, htype⟩ := not_or.mp h
  rw [Bool.not_eq_true, Option.isSome_eq_false_iff, Option.isNone_iff_eq_none] at hnone
  rw [not_not] at htype
  simp only [payloadTypes, List.mem_cons, List.not_mem_nil, or_false] at htype
  rcases htype with h | h | h | h | h | h | h | h | h | h | h | h | h <;>
    simp [counted, h, onPayload, EventEnvelope.payload, hnone]

/-- `apply` succeeds exactly on a later event whose payload it can read. -/
theorem apply_ok_iff (p : AppProjection) (event : EventEnvelope) :
    (p.apply event).2 = .ok () ↔
      p.lastSequence < event.monotonicSequence ∧ Readable event := by
  constructor
  · intro h
    by_cases hseq : event.monotonicSequence ≤ p.lastSequence
    · rw [apply, if_pos hseq] at h
      cases h
    refine ⟨not_le.mp hseq, ?_⟩
    by_contra hread
    have herr := counted_error (p.noted event) hread
    rw [apply, if_neg hseq] at h
    generalize (p.noted event).counted event = c at h herr
    obtain ⟨q, r⟩ := c
    obtain rfl : r = .error (.event .json) := herr
    cases h
  · rintro ⟨hseq, hread⟩
    obtain ⟨p', happly, -⟩ := applied_of_readable hseq hread
    rw [happly]

end AppProjection

/-! ### All or nothing -/

namespace CoreState

theorem record_of_refused {c : CoreState} {event : EventEnvelope} {faults : Faults}
    {e : StorageError} (h : c.store.append event faults.write = .error e) :
    c.record event faults = (c, .error (.storage e)) := by
  rw [record, h]

/-- Once the event is stored, what is left of `record` can fail but not take it back. -/
theorem record_of_appended {c : CoreState} {event : EventEnvelope} {faults : Faults}
    {store : EventStore AppProjection} (h : c.store.append event faults.write = .ok store) :
    (c.record event faults).1.store.events = store.events ∧
      ((c.record event faults).2 = .ok () ↔
        c.projection.lastSequence < event.monotonicSequence ∧ AppProjection.Readable event ∧
          (event.monotonicSequence % projectionCheckpointInterval = 0 →
            faults.checkpoint = false)) := by
  have hok := c.projection.apply_ok_iff event
  have hlast (q : AppProjection) (hq : c.projection.apply event = (q, .ok ())) :
      q.lastSequence = event.monotonicSequence := by
    have happlied : c.projection.applied event = .ok q := by rw [AppProjection.applied, hq]
    exact (AppProjection.lastSequence_of_applied happlied).2
  rw [record, h]
  dsimp only
  generalize happly : c.projection.apply event = a at hok
  obtain ⟨q, r⟩ := a
  cases r with
  | error e =>
    refine ⟨rfl, iff_of_false (fun h => by cases h) fun h => ?_⟩
    exact absurd (hok.mpr ⟨h.1, h.2.1⟩) (fun h => by cases h)
  | ok u =>
    obtain ⟨hseq, hread⟩ := hok.mp rfl
    rw [← hlast q happly]
    dsimp only
    split_ifs with hdue
    · cases hfault : faults.checkpoint with
      | true => exact ⟨rfl, iff_of_false (fun h => by cases h) fun h => by cases h.2.2 hdue⟩
      | false => exact ⟨rfl, iff_of_true rfl ⟨hlast q happly ▸ hseq, hread, fun _ => rfl⟩⟩
    · exact ⟨rfl, iff_of_true rfl ⟨hlast q happly ▸ hseq, hread, fun h => absurd h hdue⟩⟩

/-- **When a failed record has left everything as it was.**  For every store,
projection, event and database fault: an error of `record` leaves the log and the
projection alone exactly when the store refuses the event, or the event is above the
projection's sequence, has a payload `apply` can read where it reads one, and no due
checkpoint fails. -/
theorem record_keeps_iff (c : CoreState) (event : EventEnvelope) (faults : Faults) :
    (∀ e, (c.record event faults).2 = .error e →
      (c.record event faults).1.store.events = c.store.events ∧
        (c.record event faults).1.projection = c.projection) ↔
    ¬(validateEvent event = .ok () ∧ faults.write = false ∧ c.store.events.Free event) ∨
      (c.projection.lastSequence < event.monotonicSequence ∧ AppProjection.Readable event ∧
        (event.monotonicSequence % projectionCheckpointInterval = 0 →
          faults.checkpoint = false)) := by
  rw [← append_isOk_iff]
  cases hstore : c.store.append event faults.write with
  | error e =>
    refine iff_of_true (fun e' _ => ?_) (.inl fun h => ?_)
    · rw [record_of_refused hstore]
      exact ⟨rfl, rfl⟩
    · obtain ⟨s', h⟩ := h
      cases h
  | ok store =>
    obtain ⟨hevents, hok⟩ := record_of_appended hstore
    have hnew : store.events ≠ c.store.events :=
      table_ne_of_insert (EventStore.append_ok hstore).1.inserted
    constructor
    · intro hkeeps
      refine .inr (hok.mp ?_)
      cases hr : (c.record event faults).2 with
      | ok u => rfl
      | error e => exact absurd (hevents.symm.trans (hkeeps e hr).1) hnew
    · rintro (hrefused | htaken) e he
      · exact absurd ⟨store, rfl⟩ hrefused
      · rw [hok.mpr htaken] at he
        cases he

/-- **`record` stores what it refuses.**  An empty store and projection, and a health
report whose payload is no JSON: the call returns an error, the event is in the log, and
the projection has its sequence. -/
theorem record_stores_what_it_refuses :
    let event : EventEnvelope := { ProfileState.runtimeEvent "e" "runtime.health" none with
      monotonicSequence := 1 }
    let after := CoreState.record {} event {}
    after.2 = .error (.event .json) ∧ after.1.store.events.rows.length = 1 ∧
      after.1.projection.lastSequence = 1 :=
  ⟨rfl, rfl, rfl⟩

end CoreState
end PersonalAgent.Core
