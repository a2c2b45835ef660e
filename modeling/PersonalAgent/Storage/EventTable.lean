/-
# The event table

Table `events` of `crates/storage/src/lib.rs`: the sequence is its primary key and the
event id is unique, so a row that repeats either is refused.  `EventTable` carries both
constraints; `insert` is the `INSERT` of the store and `after` the query that resumes a
subscription, in order of the sequence.

Sequences are stored as `i64`, so `validate_event` refuses one of `2 ^ 63` or more.
-/

import PersonalAgent.Contracts.Event
import PersonalAgent.Lib.Except
import PersonalAgent.Lib.Paging

namespace PersonalAgent.Storage

open List

/-- Failures of the store; `database` is any failure of the database itself, among
them a violated constraint. -/
inductive StorageError where
  | unsupportedEventSchema (version : ℕ)
  | sequenceOutOfRange (sequence : ℕ)
  | supervisorGoalMismatch (eventGoal : Option Text) (snapshotGoal : Uuid)
  | json
  | database
  deriving DecidableEq, Repr

/-- The rows of `events`, in order of their sequence. -/
structure EventTable where
  rows : List EventEnvelope
  sorted : rows.Pairwise (·.monotonicSequence < ·.monotonicSequence)
  unique : (rows.map (·.eventId)).Nodup

/-- A table without rows. -/
def EventTable.empty : EventTable := ⟨[], List.Pairwise.nil, nodup_nil⟩

/-- The sequences `i64::try_from` accepts. -/
def inRange (sequence : ℕ) : Bool := sequence < 2 ^ 63

def validateEvent (event : EventEnvelope) : Except StorageError Unit :=
  if event.schemaVersion ≠ eventSchemaVersion then
    .error (.unsupportedEventSchema event.schemaVersion)
  else if inRange event.monotonicSequence then .ok ()
  else .error (.sequenceOutOfRange event.monotonicSequence)

namespace EventTable

/-- Neither the sequence nor the id of the event is taken. -/
def Free (t : EventTable) (event : EventEnvelope) : Prop :=
  ∀ row ∈ t.rows, row.monotonicSequence ≠ event.monotonicSequence ∧ row.eventId ≠ event.eventId

instance (t : EventTable) (event : EventEnvelope) : Decidable (t.Free event) :=
  inferInstanceAs (Decidable (∀ row ∈ t.rows, _ ∧ _))

def placed (rows : List EventEnvelope) (event : EventEnvelope) : List EventEnvelope :=
  rows.filter (·.monotonicSequence < event.monotonicSequence) ++
    event :: rows.filter (event.monotonicSequence < ·.monotonicSequence)

variable {rows : List EventEnvelope} {event : EventEnvelope} {t : EventTable}

theorem placed_perm (h : ∀ row ∈ rows, row.monotonicSequence ≠ event.monotonicSequence) :
    (placed rows event).Perm (event :: rows) := by
  have hsplit : (rows.filter (event.monotonicSequence < ·.monotonicSequence)) =
      rows.filter (fun row => !decide (row.monotonicSequence < event.monotonicSequence)) := by
    refine filter_congr fun row hrow => ?_
    have := h row hrow
    by_cases hlt : row.monotonicSequence < event.monotonicSequence
    · simp [hlt, hlt.le]
    · simp [hlt]
      omega
  rw [placed, hsplit]
  exact perm_middle.trans ((filter_append_perm _ rows).cons event)

theorem sorted_placed (h : rows.Pairwise (·.monotonicSequence < ·.monotonicSequence)) :
    (placed rows event).Pairwise (·.monotonicSequence < ·.monotonicSequence) := by
  refine pairwise_append.mpr ⟨h.filter _, pairwise_cons.mpr ⟨fun b hb => ?_, h.filter _⟩,
    fun a ha b hb => ?_⟩
  · exact of_decide_eq_true (mem_filter.mp hb).2
  · have ha := of_decide_eq_true (mem_filter.mp ha).2
    rcases mem_cons.mp hb with rfl | hb
    · exact ha
    · exact ha.trans (of_decide_eq_true (mem_filter.mp hb).2)

/-- `INSERT INTO events`: refused when a constraint is violated. -/
def insert (t : EventTable) (event : EventEnvelope) : Except StorageError EventTable :=
  if h : t.Free event then
    .ok ⟨placed t.rows event, sorted_placed t.sorted, by
      have hperm := (placed_perm fun row hrow => (h row hrow).1).map (·.eventId)
      refine hperm.nodup_iff.mpr (nodup_cons.mpr ⟨fun hmem => ?_, t.unique⟩)
      obtain ⟨row, hrow, hid⟩ := mem_map.mp hmem
      exact (h row hrow).2 hid⟩
  else .error .database

/-- `SELECT COALESCE(MAX(monotonic_sequence), 0) FROM events`. -/
def lastSequence (t : EventTable) : ℕ := (t.rows.getLast?.map (·.monotonicSequence)).getD 0

theorem le_lastSequence {row : EventEnvelope} (h : row ∈ t.rows) :
    row.monotonicSequence ≤ t.lastSequence := by
  have hne : t.rows ≠ [] := ne_nil_of_mem h
  have hsorted := t.sorted
  rw [lastSequence, getLast?_eq_getLast_of_ne_nil hne, Option.map_some, Option.getD_some]
  rw [← dropLast_append_getLast hne] at h hsorted
  rcases mem_append.mp h with h | h
  · exact ((pairwise_append.mp hsorted).2.2 row h _ (mem_singleton_self _)).le
  · rw [mem_singleton.mp h]

theorem eq_of_sequence {row row' : EventEnvelope} (h : row ∈ t.rows) (h' : row' ∈ t.rows)
    (hseq : row.monotonicSequence = row'.monotonicSequence) : row = row' := by
  have hnodup : (t.rows.map (·.monotonicSequence)).Nodup :=
    pairwise_map.mpr (t.sorted.imp fun hlt => hlt.ne)
  exact inj_on_of_nodup_map hnodup h h' hseq

theorem rows_of_insert {t' : EventTable} (hseq : t.lastSequence < event.monotonicSequence)
    (h : t.insert event = .ok t') : t'.rows = t.rows ++ [event] := by
  unfold insert at h
  split_ifs at h with hfree
  cases h
  have hlow (row : EventEnvelope) (hrow : row ∈ t.rows) :
      row.monotonicSequence < event.monotonicSequence := (le_lastSequence hrow).trans_lt hseq
  have h₁ : t.rows.filter (·.monotonicSequence < event.monotonicSequence) = t.rows :=
    filter_eq_self.mpr fun row hrow => decide_eq_true (hlow row hrow)
  have h₂ : t.rows.filter (event.monotonicSequence < ·.monotonicSequence) = [] := by
    refine filter_eq_nil_iff.mpr fun row hrow => ?_
    have := hlow row hrow
    simp only [decide_eq_true_eq]
    omega
  simp only [placed, h₁, h₂]

theorem sublist_insert {t' : EventTable} (h : t.insert event = .ok t') :
    t.rows.Sublist t'.rows := by
  unfold insert at h
  split_ifs at h with hfree
  cases h
  have hperm := placed_perm fun row hrow => (hfree row hrow).1
  exact sublist_of_subperm_of_pairwise ((sublist_cons_self event t.rows).subperm.trans
    hperm.symm.subperm) t.sorted (sorted_placed t.sorted)

theorem lastSequence_le_of_rows {t' : EventTable} {added : List EventEnvelope}
    (h : t'.rows = t.rows ++ added) : t.lastSequence ≤ t'.lastSequence := by
  rw [lastSequence]
  cases hlast : t.rows.getLast? with
  | none => exact Nat.zero_le _
  | some row =>
    have hrow : row ∈ t'.rows := by
      rw [h]
      exact mem_append_left _ (mem_of_getLast? hlast)
    exact le_lastSequence hrow

end EventTable
end PersonalAgent.Storage
