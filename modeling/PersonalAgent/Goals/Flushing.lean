/-
# No queued checkpoint is lost

`GoalPersistence` between the locks of `goals_host.rs` (lines 83 to 225): events are queued
under the queue lock, and a batch is taken under the write gate, written under the profile
lock, and put back if that fails.  `Persister` is the queue, the batch under the write gate
with the function that took it, and the rows that writes go to; anything may be queued
between a take and the end of its write.

`no_queued_event_is_lost` needs two conditions.  Events of one goal that were queued with
the same sequence are the same event, which the primary key of the log gives; a batch that is
put back keeps one event of each sequence.  And `flush` does not find the profile lock
poisoned: it returns there without putting its batch back (`poisoned_flush_loses_batch`),
unlike `flush_generation`.
-/

import PersonalAgent.Goals.Batches
import PersonalAgent.Lib.Run
import PersonalAgent.Storage.Batching

namespace PersonalAgent.Goals

open Lib List GoalPersistence

open Agent Storage

/-- The two functions that write a batch. -/
inductive Taker where
  | flush
  | flushGeneration
  deriving DecidableEq, Repr

/-- How an attempt to write ends, apart from what the updates themselves give. -/
inductive Attempt where
  | reached
  | storageError
  | poisonedProfile
  deriving DecidableEq, Repr

/-- `queued` is not in the source and no step reads it: it is everything queued so far, the
latest last. -/
structure Persister where
  persistence : GoalPersistence := {}
  writing : Option (Batch × Taker) := none
  rows : Checkpoints := ∅
  queued : List (SupervisorSnapshot × EventEnvelope) := []

/-- What happens to the queue of checkpoints. -/
inductive PersisterOp where
  | queue (snapshot : SupervisorSnapshot) (event : EventEnvelope)
  | flush
  | flushGeneration (generation : ℕ)
  | finish (attempt : Attempt)

namespace Persister

/-- Put the batch back, except that `flush` leaves on a poisoned profile lock at once. -/
def failed (s : Persister) (batch : Batch) (taker : Taker) (attempt : Attempt) : Persister :=
  if taker = .flush ∧ attempt = .poisonedProfile then { s with writing := none }
  else { s with persistence := s.persistence.restorePending batch, writing := none }

def step (s : Persister) : PersisterOp → Persister
  | .queue snapshot event =>
    { s with
      persistence := s.persistence.queue snapshot event
      queued := s.queued ++ [(snapshot, event)] }
  | .flush =>
    if s.writing.isSome then s
    else
      let (batch, persistence) := s.persistence.take
      { s with persistence, writing := if batch.isEmpty then none else some (batch, .flush) }
  | .flushGeneration generation =>
    if s.writing.isSome then s
    else
      match s.persistence.takeGeneration generation with
      | none => s
      | some (batch, persistence) =>
        { s with persistence, writing := some (batch, .flushGeneration) }
  | .finish attempt =>
    match s.writing with
    | none => s
    | some (batch, taker) =>
      if attempt = .reached then
        match saveSupervisorCheckpointUpdates s.rows (updates batch) with
        | .ok rows => { s with rows, writing := none }
        | .error _ => s.failed batch taker attempt
      else s.failed batch taker attempt

/-- The batch under the write gate. -/
def batch (s : Persister) : Batch := (s.writing.map (·.1)).getD ∅

/-- The row of the goal accounts for the event. -/
def Covered (rows : Checkpoints) (g : Uuid) (event : EventEnvelope) : Prop :=
  ∃ c, rows[g]? = some c ∧ event.monotonicSequence ≤ c.lastSequence

/-- The snapshot that was queued last for a goal. -/
def latestSnapshot (queued : List (SupervisorSnapshot × EventEnvelope)) (g : Uuid) :
    Option SupervisorSnapshot :=
  ((queued.map (·.1)).filter (·.graph.goalId = g)).getLast?

/-- Events queued for one goal under one sequence are one event. -/
def Identified (queued : List (SupervisorSnapshot × EventEnvelope)) : Prop :=
  ∀ a ∈ queued, ∀ b ∈ queued, a.1.graph.goalId = b.1.graph.goalId →
    a.2.monotonicSequence = b.2.monotonicSequence → a.2 = b.2

/-- Where everything queued is, and what snapshots stand with it. -/
structure Safe (pending batch : Batch) (rows : Checkpoints)
    (queued : List (SupervisorSnapshot × EventEnvelope)) : Prop where
  identified : Identified queued
  kept : ∀ q ∈ queued, q.2 ∈ eventsOf pending q.1.graph.goalId ∨
    q.2 ∈ eventsOf batch q.1.graph.goalId ∨ Covered rows q.1.graph.goalId q.2
  keyed : ∀ (g : Uuid) entry, batch[g]? = some entry → entry.snapshot.graph.goalId = g
  known : ∀ (g : Uuid) event, event ∈ eventsOf pending g ∨ event ∈ eventsOf batch g →
    ∃ q ∈ queued, q.1.graph.goalId = g ∧ q.2 = event
  pendingLatest : ∀ (g : Uuid) entry, pending[g]? = some entry →
    latestSnapshot queued g = some entry.snapshot
  batchLatest : ∀ (g : Uuid) entry, pending[g]? = none → batch[g]? = some entry →
    latestSnapshot queued g = some entry.snapshot

/-! ### What a batch that is put back keeps -/

theorem dedupBySequence_subset (events : List EventEnvelope) :
    dedupBySequence events ⊆ events := by
  induction events with
  | nil => exact fun _ h => h
  | cons event events ih =>
    intro e he
    rw [dedupBySequence] at he
    split at he
    · exact mem_cons.mpr ((mem_cons.mp he).imp_right fun h => (nomatch h))
    · rename_i next rest hrest
      rw [hrest] at ih
      split_ifs at he
      · exact mem_cons.mpr ((mem_cons.mp he).imp_right fun h =>
          ih (mem_cons_of_mem _ h))
      · exact mem_cons.mpr ((mem_cons.mp he).imp_right fun h => ih h)

theorem exists_mem_dedupBySequence {events : List EventEnvelope} {event : EventEnvelope}
    (h : event ∈ events) : ∃ e ∈ dedupBySequence events,
      e.monotonicSequence = event.monotonicSequence := by
  induction events with
  | nil => cases h
  | cons first events ih =>
    rw [dedupBySequence]
    rcases mem_cons.mp h with rfl | h
    · split
      · exact ⟨event, mem_singleton_self _, rfl⟩
      · split_ifs <;> exact ⟨event, mem_cons_self, rfl⟩
    · obtain ⟨e, he, hseq⟩ := ih h
      split
      · rename_i hnil
        rw [hnil] at he
        cases he
      · rename_i next rest hrest
        rw [hrest] at he
        split_ifs with hsame
        · rcases mem_cons.mp he with rfl | he
          · exact ⟨first, mem_cons_self, hsame.trans hseq⟩
          · exact ⟨e, mem_cons_of_mem _ he, hseq⟩
        · exact ⟨e, mem_cons_of_mem _ he, hseq⟩

/-- Merging keeps every event if no two differ in one sequence. -/
theorem mem_merged {failed newer : PendingGoalCheckpoint} {event : EventEnvelope}
    (hid : ∀ a ∈ failed.events ++ newer.events, ∀ b ∈ failed.events ++ newer.events,
      a.monotonicSequence = b.monotonicSequence → a = b) :
    event ∈ (merged failed newer).events ↔
      event ∈ failed.events ∨ event ∈ newer.events := by
  rw [← mem_append]
  constructor
  · intro h
    exact mem_sortedBySequence.mp (dedupBySequence_subset _ h)
  · intro h
    obtain ⟨e, he, hseq⟩ := exists_mem_dedupBySequence (mem_sortedBySequence.mpr h)
    rwa [← hid e (mem_sortedBySequence.mp (dedupBySequence_subset _ he)) event h hseq]

/-- What is pending for a goal after a batch was put back. -/
theorem mem_restorePending {p : GoalPersistence} {batch : Batch} {g : Uuid} {event : EventEnvelope}
    (hid : ∀ a ∈ eventsOf batch g ++ eventsOf p.pending g,
      ∀ b ∈ eventsOf batch g ++ eventsOf p.pending g,
        a.monotonicSequence = b.monotonicSequence → a = b) :
    event ∈ eventsOf (p.restorePending batch).pending g ↔
      event ∈ eventsOf batch g ∨ event ∈ eventsOf p.pending g := by
  have hget := getElem?_restorePending p batch g
  cases hentry : batch[g]? with
  | none =>
    rw [hentry] at hget
    rw [eventsOf_none hentry, eventsOf, hget, ← eventsOf]
    simp
  | some entry =>
    rw [hentry] at hget
    rw [eventsOf_some hget, eventsOf_some hentry]
    cases hnewer : p.pending[g]? with
    | none => simp [eventsOf_none hnewer, restored]
    | some newer =>
      rw [eventsOf_some hentry, eventsOf_some hnewer] at hid
      rw [eventsOf_some hnewer]
      exact mem_merged hid

/-! ### Steps -/

theorem latestSnapshot_concat (queued : List (SupervisorSnapshot × EventEnvelope))
    (snapshot : SupervisorSnapshot) (event : EventEnvelope) (g : Uuid) :
    latestSnapshot (queued ++ [(snapshot, event)]) g =
      if g = snapshot.graph.goalId then some snapshot else latestSnapshot queued g := by
  rw [latestSnapshot, map_append, filter_append]
  by_cases hg : g = snapshot.graph.goalId
  · simp [hg]
  · have hg' : ¬snapshot.graph.goalId = g := fun h => hg h.symm
    simp [hg, hg', latestSnapshot]

theorem goalId_of_latestSnapshot {queued : List (SupervisorSnapshot × EventEnvelope)} {g : Uuid}
    {snapshot : SupervisorSnapshot} (h : latestSnapshot queued g = some snapshot) :
    snapshot.graph.goalId = g :=
  of_decide_eq_true (mem_filter.mp (mem_of_getLast? h)).2

namespace Safe

variable {p : GoalPersistence} {batch : Batch} {rows rows' : Checkpoints}
  {queued : List (SupervisorSnapshot × EventEnvelope)}

theorem empty (rows : Checkpoints) : Safe ∅ ∅ rows [] where
  identified := fun _ h => (nomatch h)
  kept := fun _ h => (nomatch h)
  keyed := fun g entry h => by simp at h
  known := fun g event h => by simp at h
  pendingLatest := fun g entry h => by simp at h
  batchLatest := fun g entry _ h => by simp at h

theorem queue (h : Safe p.pending batch rows queued) {snapshot : SupervisorSnapshot}
    {event : EventEnvelope}
    (hnew : ∀ q ∈ queued, q.1.graph.goalId = snapshot.graph.goalId →
      q.2.monotonicSequence = event.monotonicSequence → q.2 = event) :
    Safe (p.queue snapshot event).pending batch rows (queued ++ [(snapshot, event)]) := by
  have hmem (q : SupervisorSnapshot × EventEnvelope) :
      q ∈ queued ++ [(snapshot, event)] ↔ q ∈ queued ∨ q = (snapshot, event) := by simp
  refine ⟨fun a ha b hb hgoal hseq => ?_, fun q hq => ?_, h.keyed, fun g e he => ?_,
    fun g entry hentry => ?_, fun g entry hnone hentry => ?_⟩
  · rcases (hmem a).mp ha with ha | rfl <;> rcases (hmem b).mp hb with hb | rfl
    · exact h.identified a ha b hb hgoal hseq
    · exact hnew a ha hgoal hseq
    · exact (hnew b hb hgoal.symm hseq.symm).symm
    · rfl
  · rw [eventsOf_queue]
    rcases (hmem q).mp hq with hq | rfl
    · exact (h.kept q hq).imp_left fun he => mem_append_left _ he
    · rw [if_pos rfl]
      exact .inl (mem_append_right _ (mem_singleton_self _))
  · rw [eventsOf_queue] at he
    have hold (he : e ∈ eventsOf p.pending g ∨ e ∈ eventsOf batch g) :
        ∃ q ∈ queued ++ [(snapshot, event)], q.1.graph.goalId = g ∧ q.2 = e := by
      obtain ⟨q, hq, hgoal, hevent⟩ := h.known g e he
      exact ⟨q, mem_append_left _ hq, hgoal, hevent⟩
    rcases he with he | he
    · rcases mem_append.mp he with he | he
      · exact hold (.inl he)
      · split_ifs at he with hg
        · exact ⟨(snapshot, event), mem_append_right _ (mem_singleton_self _), hg.symm,
            (mem_singleton.mp he).symm⟩
        · cases he
    · exact hold (.inr he)
  · rw [getElem?_queue] at hentry
    rw [latestSnapshot_concat]
    split_ifs at hentry ⊢
    · cases hentry
      rfl
    · exact h.pendingLatest g entry hentry
  · rw [getElem?_queue] at hnone
    rw [latestSnapshot_concat]
    split_ifs at hnone ⊢
    exact h.batchLatest g entry hnone hentry

/-- Everything pending becomes the batch. -/
theorem take (h : Safe p.pending ∅ rows queued) : Safe ∅ p.pending rows queued where
  identified := h.identified
  kept q hq := by
    rcases h.kept q hq with he | he | he
    · exact .inr (.inl he)
    · rw [eventsOf_empty] at he
      cases he
    · exact .inr (.inr he)
  keyed g entry hentry := goalId_of_latestSnapshot (h.pendingLatest g entry hentry)
  known g event he := by
    refine h.known g event (he.symm.imp_right fun he => ?_)
    rw [eventsOf_empty] at he
    cases he
  pendingLatest g entry hentry := by simp at hentry
  batchLatest g entry _ hentry := h.pendingLatest g entry hentry

/-- What was written is covered by the rows. -/
theorem written (h : Safe p.pending batch rows queued)
    (hsave : saveSupervisorCheckpointUpdates rows (updates batch) = .ok rows') :
    Safe p.pending ∅ rows' queued where
  identified := h.identified
  kept q hq := by
    rcases h.kept q hq with he | he | ⟨c, hc, hle⟩
    · exact .inl he
    · cases hentry : batch[q.1.graph.goalId]? with
      | none =>
        rw [eventsOf_none hentry] at he
        cases he
      | some entry =>
        rw [eventsOf_some hentry] at he
        obtain ⟨c, hc, hget⟩ := (rows_of_batch h.keyed hsave _).2 entry hentry
        exact .inr (.inr ⟨c, hget, updatedRow_covers hc he⟩)
    · obtain ⟨c', hc', hle'⟩ := save_le hsave hc
      exact .inr (.inr ⟨c', hc', hle.trans hle'⟩)
  keyed g entry hentry := by simp at hentry
  known g event he := by
    refine h.known g event (he.imp_right fun he => ?_)
    rw [eventsOf_empty] at he
    cases he
  pendingLatest := h.pendingLatest
  batchLatest g entry _ hentry := by simp at hentry

/-- A batch that is put back is pending again, with the later snapshot. -/
theorem restore (h : Safe p.pending batch rows queued) :
    Safe (p.restorePending batch).pending ∅ rows queued := by
  -- the two lists of a goal were queued for it, so that no sequence has two events
  have hid (g : Uuid) : ∀ a ∈ eventsOf batch g ++ eventsOf p.pending g,
      ∀ b ∈ eventsOf batch g ++ eventsOf p.pending g,
        a.monotonicSequence = b.monotonicSequence → a = b := by
    intro a ha b hb hseq
    obtain ⟨qa, hqa, hga, rfl⟩ := h.known g a (mem_append.mp ha).symm
    obtain ⟨qb, hqb, hgb, rfl⟩ := h.known g b (mem_append.mp hb).symm
    exact h.identified qa hqa qb hqb (hga.trans hgb.symm) hseq
  refine ⟨h.identified, fun q hq => ?_, fun g entry hentry => ?_, fun g e he => ?_,
    fun g entry hentry => ?_, fun g entry _ hentry => ?_⟩
  · rw [mem_restorePending (hid _)]
    rcases h.kept q hq with he | he | he
    · exact .inl (.inr he)
    · exact .inl (.inl he)
    · exact .inr (.inr he)
  · simp at hentry
  · rw [mem_restorePending (hid g), eventsOf_empty] at he
    rcases he with he | he
    · exact h.known g e he.symm
    · cases he
  · rw [getElem?_restorePending] at hentry
    cases hfailed : batch[g]? with
    | none =>
      rw [hfailed] at hentry
      exact h.pendingLatest g entry hentry
    | some old =>
      rw [hfailed] at hentry
      cases hentry
      cases hnewer : p.pending[g]? with
      | none => exact h.batchLatest g old hnewer hfailed
      | some newer => exact h.pendingLatest g newer hnewer
  · simp at hentry

end Safe

/-- Sequences identify the events of a goal, and `flush` does not meet a poisoned lock. -/
def Permitted (s : Persister) : PersisterOp → Prop
  | .queue snapshot event => ∀ q ∈ s.queued, q.1.graph.goalId = snapshot.graph.goalId →
    q.2.monotonicSequence = event.monotonicSequence → q.2 = event
  | .finish .poisonedProfile => s.writing.all (·.2 = .flushGeneration)
  | _ => True

/-- Everything queued is somewhere. -/
abbrev Kept (s : Persister) : Prop := Safe s.persistence.pending s.batch s.rows s.queued

theorem failed_kept {s : Persister} {w : Batch × Taker} {attempt : Attempt} (h : s.Kept)
    (hw : s.writing = some w) (hlock : ¬(w.2 = .flush ∧ attempt = .poisonedProfile)) :
    (s.failed w.1 w.2 attempt).Kept := by
  have hbatch : s.batch = w.1 := by rw [batch, hw]; rfl
  rw [failed, if_neg hlock]
  rw [Kept, hbatch] at h
  exact h.restore

/-- **One permitted step keeps everything queued.** -/
theorem step_kept {s : Persister} {op : PersisterOp} (hop : s.Permitted op) (h : s.Kept) :
    (s.step op).Kept := by
  have hfree (hw : ¬s.writing.isSome) : s.batch = ∅ := by
    rw [batch, Option.not_isSome_iff_eq_none.mp hw]
    rfl
  cases op with
  | queue snapshot event => exact h.queue hop
  | flush =>
    rw [step]
    split_ifs with hw
    · exact h
    · rw [Kept, hfree hw] at h
      have htaken := h.take
      by_cases hempty : s.persistence.pending.isEmpty
      · have hnil : s.persistence.pending = ∅ := Std.ExtTreeMap.isEmpty_iff.mp hempty
        simpa [GoalPersistence.take, Kept, batch, hnil] using htaken
      · simpa [GoalPersistence.take, Kept, batch, hempty] using htaken
  | flushGeneration generation =>
    rw [step]
    split_ifs with hw
    · exact h
    · rw [takeGeneration]
      by_cases hlatest : s.persistence.generation = generation
      · rw [if_pos hlatest]
        exact (hfree hw ▸ h : Safe s.persistence.pending ∅ s.rows s.queued).take
      · rw [if_neg hlatest]
        exact h
  | finish attempt =>
    rw [step]
    cases hw : s.writing with
    | none => exact h
    | some w =>
      have hbatch : s.batch = w.1 := by rw [batch, hw]; rfl
      dsimp only
      split_ifs with hreached
      · cases hsave : saveSupervisorCheckpointUpdates s.rows (updates w.1) with
        | error e => exact failed_kept h hw fun hlock => (nomatch hreached.symm.trans hlock.2)
        | ok rows => exact (hbatch ▸ h :
          Safe s.persistence.pending w.1 s.rows s.queued).written hsave
      · refine failed_kept h hw fun hlock => ?_
        obtain ⟨hflush, rfl⟩ := hlock
        have htimer : w.2 = .flushGeneration := by simpa [Permitted, hw] using hop
        exact nomatch hflush.symm.trans htimer

/-- **No queued event is lost.**  In every interleaving of queueing, flushes, timers and
ends of writes in which sequences identify the events of a goal and no `flush` meets a
poisoned profile lock, each event ever queued is pending for its goal, in the batch being
written, or at or below the boundary of its goal's row; and what is pending for a goal has
the snapshot that was queued last. -/
theorem no_queued_event_is_lost (rows : Checkpoints) (ops : List PersisterOp)
    (h : Along step Permitted { rows } ops) :
    let s := run step { rows } ops
    (∀ q ∈ s.queued, q.2 ∈ eventsOf s.persistence.pending q.1.graph.goalId ∨
        q.2 ∈ eventsOf s.batch q.1.graph.goalId ∨ Covered s.rows q.1.graph.goalId q.2) ∧
      ∀ (g : Uuid) entry, s.persistence.pending[g]? = some entry →
        latestSnapshot s.queued g = some entry.snapshot := by
  have hrun := h.invariant Kept (fun _ _ => step_kept) (Safe.empty rows)
  exact ⟨hrun.kept, hrun.pendingLatest⟩

section Examples

/-- **A flush under a poisoned profile lock loses its batch.** -/
theorem poisoned_flush_loses_batch :
    let event := goalEvent 1 "goal.created" 7
    let s := run step {} [.queue (goalSnapshot 1) event, .flush, .finish .poisonedProfile]
    s.queued.map (·.2.monotonicSequence) = [1] ∧ (eventsOf s.persistence.pending 1).length = 0 ∧
      (eventsOf s.batch 1).length = 0 ∧ s.rows[1]?.map (·.lastSequence) = none := by
  decide +kernel

/-- A flush that fails in the database while more is queued, a timer that is outdated, one
that meets a poisoned lock, and a flush that writes. -/
theorem no_queued_event_is_lost_retried :
    let created := goalEvent 1 "goal.created" 7
    let started := goalEvent 2 "task.started" 7
    let s := run step {} [.queue (goalSnapshot 1) created, .flush,
      .queue (goalSnapshot 2) started, .finish .storageError, .flushGeneration 2,
      .flushGeneration 3, .finish .poisonedProfile, .flush, .finish .reached]
    s.rows[1]?.map (·.lastSequence) = some 2 ∧
      (∀ q ∈ s.queued, q.2 ∈ eventsOf s.persistence.pending q.1.graph.goalId ∨
        q.2 ∈ eventsOf s.batch q.1.graph.goalId ∨ Covered s.rows q.1.graph.goalId q.2) ∧
      ∀ (g : Uuid) entry, s.persistence.pending[g]? = some entry →
        latestSnapshot s.queued g = some entry.snapshot := by
  refine ⟨by decide +kernel, no_queued_event_is_lost ∅ _ ⟨fun _ h => (nomatch h), trivial, ?_,
    trivial, trivial, trivial, rfl, trivial, trivial, trivial⟩⟩
  intro q hq _ hseq
  obtain rfl := mem_singleton.mp hq
  exact nomatch hseq

end Examples

end Persister
end PersonalAgent.Goals
