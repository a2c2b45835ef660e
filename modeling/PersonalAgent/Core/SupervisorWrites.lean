/-
# The two ways to write a supervisor

A transition of a goal is stored in one of two ways (`crates/core/src/lib.rs`, lines 421 to
488): its event is appended at once and the recovery checkpoint follows in a debounced
batch, or snapshot and event are stored together.  The checkpoint waits for exactly the
unresolved approvals (`pending_approvals_match_log`) under two conditions: a batch leaves
out no event between the boundary and its own last event, and a transition is stored
together with its event only when the boundary has no event of the goal above it.

The second condition is not checked by the code.  The combined write moves the boundary
past events that were appended and not yet checkpointed, and their batch is then skipped:
an approval requested by one of them is gone from the checkpoint
(`combined_write_skips_approval`).  The log itself only grows (`stored_events_stay`).
-/

import PersonalAgent.Core.InStep
import PersonalAgent.Storage.PendingApprovals

namespace PersonalAgent.Core

open Lib List

open Agent Storage Migration

namespace ProfileState

variable {p q : ProfileState} {goalId : Uuid}

/-! ### What a step does to log and checkpoints -/

/-- A batch of checkpoints that was saved moves the rows and nothing else. -/
theorem saveSupervisorCheckpointUpdates_ok {updates : List SupervisorCheckpointUpdate}
    {fault : Bool} (h : p.saveSupervisorCheckpointUpdates updates fault = (q, .ok ())) :
    ∃ rows, Storage.saveSupervisorCheckpointUpdates p.store.supervisors updates = .ok rows ∧
      q = { p with store := { p.store with supervisors := rows } } := by
  unfold ProfileState.saveSupervisorCheckpointUpdates EventStore.saveSupervisorCheckpoints at h
  cases hempty : updates.isEmpty with
  | true =>
    rw [hempty] at h
    cases h
    rw [List.isEmpty_iff.mp hempty]
    exact ⟨_, rfl, rfl⟩
  | false =>
    rw [hempty] at h
    cases hrows : Storage.saveSupervisorCheckpointUpdates p.store.supervisors updates with
    | error e =>
      rw [hrows] at h
      cases fault <;> cases h
    | ok rows =>
      rw [hrows] at h
      cases fault <;> cases h
      exact ⟨rows, rfl, rfl⟩

/-- The log of the second store goes on after that of the first. -/
def Extends (s s' : EventStore AppProjection) : Prop :=
  ∃ added, s'.events.rows = s.events.rows ++ added ∧
    ∀ e ∈ added, s.events.lastSequence < e.monotonicSequence

variable {s s' : EventStore AppProjection}

theorem Extends.of_eq (h : s'.events = s.events) : Extends s s' :=
  ⟨[], by rw [h, append_nil], fun _ h => (nomatch h)⟩

theorem Extends.trans {s'' : EventStore AppProjection} (h : Extends s s') (h' : Extends s' s'') :
    Extends s s'' := by
  obtain ⟨added, hrows, hadded⟩ := h
  obtain ⟨added', hrows', hadded'⟩ := h'
  refine ⟨added ++ added', by rw [hrows', hrows, append_assoc], fun e he => ?_⟩
  rcases mem_append.mp he with he | he
  · exact hadded e he
  · exact (EventTable.lastSequence_le_of_rows hrows).trans_lt (hadded' e he)

/-- An import goes on after the log. -/
theorem Extends.of_imported (h : s.Imported s') : Extends s s' := by
  obtain ⟨added, hrows, hadded⟩ := h.rows
  exact ⟨added, hrows, fun e he => (hadded e he).2⟩

/-- The next event of a profile in step goes on after the log. -/
theorem Extends.of_appended {event : EventEnvelope} (h : InStep p.store p.projection)
    (hseq : event.monotonicSequence = p.projection.lastSequence + 1)
    (hstored : p.store.Appended event s') :
    s'.events.rows = p.store.events.rows ++ [event] ∧
      p.store.events.lastSequence < event.monotonicSequence := by
  have hlow : p.store.events.lastSequence < event.monotonicSequence := by
    rw [hseq, h.lastSequence]
    exact Nat.lt_succ_self _
  exact ⟨EventTable.rows_of_insert hlow hstored.inserted, hlow⟩

theorem Moved.extends (hmove : Moved False p q) (h : InStep p.store p.projection) :
    Extends p.store q.store := by
  cases hmove with
  | kept hevents _ _ => exact .of_eq hevents
  | checkpointed hevents _ _ => exact .of_eq hevents
  | appended event hseq _ hstored _ =>
    obtain ⟨hrows, hlow⟩ := Extends.of_appended h hseq hstored
    exact ⟨[event], hrows, fun e he => mem_singleton.mp he ▸ hlow⟩
  | imported himport _ _ => exact .of_imported himport
  | rebuilt himport _ => exact .of_imported himport

theorem Moves.extends (hmoves : Moves False p q) (h : InStep p.store p.projection) :
    Extends p.store q.store := by
  induction hmoves with
  | refl => exact .of_eq rfl
  | tail hmoves hlast ih => exact ih.trans (hlast.extends (Moves.inStep hmoves h))

theorem Moved.sublist {lag : Prop} (hmove : Moved lag p q) :
    p.store.events.rows.Sublist q.store.events.rows := by
  cases hmove with
  | kept hevents | checkpointed hevents => exact hevents ▸ Sublist.refl _
  | appended event _ _ hstored _ => exact EventTable.sublist_insert hstored.inserted
  | imported himport _ _ | rebuilt himport _ =>
    obtain ⟨added, hrows, -⟩ := himport.rows
    exact hrows ▸ sublist_append_left _ _

theorem Moves.sublist (hmoves : Moves True p q) :
    p.store.events.rows.Sublist q.store.events.rows :=
  hmoves.invariant (fun q => p.store.events.rows.Sublist q.store.events.rows)
    (fun _ _ hmove h => h.trans hmove.sublist) (Sublist.refl _)

/-- Applying an event that was stored changes neither the log nor the checkpoints. -/
theorem applyPersistedEvent_frame (p : ProfileState) (event : EventEnvelope) (fault : Bool) :
    (p.applyPersistedEvent event fault).1.store.events = p.store.events ∧
      (p.applyPersistedEvent event fault).1.store.supervisors = p.store.supervisors := by
  unfold applyPersistedEvent
  split
  · exact ⟨rfl, rfl⟩
  · dsimp only
    split_ifs
    · cases fault <;> exact ⟨rfl, rfl⟩
    · exact ⟨rfl, rfl⟩

theorem persist_append_supervisors (event : EventEnvelope) (faults : Faults) :
    (p.persist event (p.store.append event faults.write) faults.checkpoint).1.store.supervisors =
      p.store.supervisors := by
  unfold persist
  split
  · rfl
  · rename_i store hstore
    exact (applyPersistedEvent_frame _ _ _).2.trans (EventStore.append_ok hstore).2

theorem appendUsageEvent_supervisors (event : EventEnvelope) (facts : List UsageFact)
    (egress : List EgressRecord) (faults : Faults) :
    (match p.store.appendUsageEvent event facts egress faults.write with
      | .error e => p.failedWrite e faults.recovery
      | .ok store =>
        { p with store }.applyPersistedEvent event faults.checkpoint).1.store.supervisors =
      p.store.supervisors := by
  split
  · unfold failedWrite
    split <;> rfl
  · rename_i store hstore
    exact (applyPersistedEvent_frame _ _ _).2.trans (EventStore.appendUsageEvent_ok hstore).2

theorem importLegacy_supervisors (inputs : Prepared) (consent : MigrationConsent)
    (runId sourceFingerprint : String) (faults : ImportFaults) :
    (p.importLegacy inputs consent runId sourceFingerprint faults).1.store.supervisors =
      p.store.supervisors := by
  have hrun : (migrate ImportRun.sink ⟨p.store, faults.sink⟩ inputs consent runId
      sourceFingerprint).1.store.supervisors = p.store.supervisors := by
    refine migrate_relates
      (fun r r' : ImportRun AppProjection => r'.store.supervisors = r.store.supervisors)
      (fun _ => rfl) (fun _ _ _ h h' => h'.trans h) (fun _ _ => rfl) _ _ _ _
      fun record _ r => ?_
    change (r.storeOne record).1.store.supervisors = _
    unfold ImportRun.storeOne
    split
    · rename_i store hstore
      exact EventStore.storeRecord_supervisors (commit_ok hstore)
    · rfl
  unfold importLegacy
  dsimp only
  generalize migrate ImportRun.sink ⟨p.store, faults.sink⟩ inputs consent runId
    sourceFingerprint = r at hrun ⊢
  obtain ⟨run, result⟩ := r
  cases result with
  | error e => cases e <;> exact hrun
  | ok report =>
    dsimp only
    split_ifs
    · exact hrun
    · exact hrun
    · cases rebuildProjectionFrom run.store <;> exact hrun

/-! ### The writes of checkpoints -/

/-- A combined write: refused, or the event and the row are stored. -/
theorem recordSupervisorEvent_tracked (hstep : InStep p.store p.projection) (stamp : Stamp)
    (snapshot : SupervisorSnapshot) (eventType : String) (payload : Value) (faults : Faults)
    (hcaught : snapshot.graph.goalId = goalId →
      CaughtUp goalId p.store.events p.store.supervisors[goalId]?)
    (h : Tracked goalId p.store.events p.store.supervisors[goalId]?) :
    let q := (p.recordSupervisorEvent stamp snapshot eventType payload faults).1
    Tracked goalId q.store.events q.store.supervisors[goalId]? := by
  unfold recordSupervisorEvent persist
  dsimp only
  split
  · exact h
  · rename_i store hstore
    obtain ⟨hevents, hsupervisors⟩ := applyPersistedEvent_frame { p with store }
      (p.supervisorEvent stamp snapshot eventType payload) faults.checkpoint
    rw [hevents, hsupervisors]
    obtain ⟨hrows, hlow⟩ := Extends.of_appended hstep rfl
      (EventStore.saveSupervisorSnapshotAndEvent_ok hstore)
    obtain ⟨⟨⟩, -, hstore⟩ := bind_ok_iff.mp hstore
    obtain ⟨c, hc, hstore⟩ := bind_ok_iff.mp (commit_ok hstore)
    obtain ⟨events, -, hstore⟩ := bind_ok_iff.mp hstore
    obtain rfl := pure_ok_iff.mp hstore
    dsimp only at hrows ⊢
    rw [getElem?_insert_eq]
    by_cases hgoal : goalId = snapshot.graph.goalId
    · rw [if_pos hgoal]
      rw [← hgoal] at hc
      exact h.evolved (hcaught hgoal.symm) hrows hlow (congrArg _ (congrArg _ hgoal.symm)) hc
    · rw [if_neg hgoal]
      exact h.extend hrows fun e he => mem_singleton.mp he ▸ hlow

/-- A snapshot that is stored alone leaves the boundary of its row. -/
theorem saveSupervisorSnapshot_tracked (hstep : InStep p.store p.projection)
    (snapshot : SupervisorSnapshot)
    (h : Tracked goalId p.store.events p.store.supervisors[goalId]?) :
    Tracked goalId p.store.events
      (Storage.saveSupervisorSnapshot p.store.supervisors snapshot)[goalId]? := by
  have hpos : ∀ e ∈ p.store.events.rows, 0 < e.monotonicSequence := fun e he => hstep.positive he
  rw [Storage.saveSupervisorSnapshot, getElem?_insert_eq]
  by_cases hgoal : goalId = snapshot.graph.goalId
  · rw [if_pos hgoal, ← hgoal]
    cases hrow : p.store.supervisors[goalId]? with
    | none => exact (hrow ▸ h).of_same hpos rfl rfl
    | some c => exact (hrow ▸ h).of_same hpos rfl rfl
  · rw [if_neg hgoal]
    exact h

section Steps

variable [Chrono]

/-- The operations that write checkpoints. -/
def WritesCheckpoints : ProfileOp → Prop
  | .recordSupervisorEvent .. => True
  | .saveSupervisorSnapshot .. => True
  | .saveSupervisorCheckpointUpdates .. => True
  | _ => False

theorem step_supervisors {op : ProfileOp} (hop : ¬WritesCheckpoints op) :
    (p.step op).store.supervisors = p.store.supervisors := by
  cases op with
  | submitUserMessage stamp text faults =>
    change (p.submitUserMessage stamp text faults).1.store.supervisors = _
    unfold submitUserMessage
    dsimp only
    split_ifs
    · rfl
    · exact persist_append_supervisors _ faults
  | recordRuntimeHealth stamp health faults => exact persist_append_supervisors _ faults
  | recordLifecycleStart stamp unclean faults => exact persist_append_supervisors _ faults
  | recordSupervisorEvent stamp snapshot eventType payload faults => exact absurd trivial hop
  | appendSupervisorEvent stamp snapshot eventType payload faults =>
    rw [step, appendSupervisorEvent_fst]
    exact persist_append_supervisors _ faults
  | saveSupervisorSnapshot snapshot fault => exact absurd trivial hop
  | saveSupervisorCheckpointUpdates updates fault => exact absurd trivial hop
  | recordArtifactWorkspaceEvent stamp eventType payload faults =>
    exact persist_append_supervisors _ faults
  | recordRuntimeEvent event egressId faults =>
    change (p.recordRuntimeEvent event egressId faults).1.store.supervisors = _
    unfold recordRuntimeEvent
    dsimp only
    split
    · rfl
    · rename_i usage mutation _
      exact @appendUsageEvent_supervisors { p with usage := usage.clearDetailRecords } _ _ _ faults
  | recordEgress stamp record faults =>
    change (p.recordEgress stamp record faults).1.store.supervisors = _
    unfold recordEgress
    dsimp only
    split
    · rfl
    · split
      · rfl
      · rename_i usage _
        exact @appendUsageEvent_supervisors { p with usage } _ _ _ faults
  | importLegacy inputs consent runId sourceFingerprint faults =>
    exact importLegacy_supervisors inputs consent runId sourceFingerprint faults
  | checkpointProjection fault => cases fault <;> rfl
  | reopen saved =>
    have hsaved : (if saved then (p.checkpointProjection false).1 else p).store.supervisors =
        p.store.supervisors := by
      cases saved <;> rfl
    refine Eq.trans ?_ hsaved
    dsimp only [step]
    split
    · rename_i q hq
      rw [(opened_ok hq).1]
    · rfl

/-- A runtime event is stored or not, whether or not the projection can read it. -/
theorem recordRuntimeEvent_sublist (event : EventEnvelope) (egressId : Uuid) (faults : Faults) :
    p.store.events.rows.Sublist
      (p.recordRuntimeEvent event egressId faults).1.store.events.rows := by
  unfold recordRuntimeEvent
  dsimp only
  split
  · exact Sublist.refl _
  · split
    · unfold failedWrite
      split <;> exact Sublist.refl _
    · rename_i store hstore
      rw [(applyPersistedEvent_frame _ _ _).1]
      exact EventTable.sublist_insert (EventStore.appendUsageEvent_ok hstore).1.inserted

/-- **No stored event is ever lost.**  Whichever operations, checkpoints and imports succeed or
fail, and wherever the profile is closed or crashes, the events of the log stay, unchanged and
in their order, among those of every later log. -/
theorem stored_events_stay (p : ProfileState) (ops : List ProfileOp) :
    p.store.events.rows.Sublist (run step p ops).store.events.rows := by
  refine run_invariant (fun q : ProfileState => p.store.events.rows.Sublist q.store.events.rows)
    (fun q op hq => hq.trans ?_) ops (Sublist.refl _)
  by_cases hop : q.Admissible op
  · exact (step_moves hop fun _ _ _ _ _ _ => .inr (.inr trivial)).sublist
  · cases op with
    | recordRuntimeEvent event egressId faults => exact recordRuntimeEvent_sublist _ _ _
    | _ => exact absurd trivial hop

/-- The two conditions under which the writes of a goal compose: a batch leaves out no event
of the goal, and a combined write comes when the checkpoint accounts for all of them. -/
def Composes (goalId : Uuid) (p : ProfileState) (op : ProfileOp) : Prop :=
  p.Careful op ∧ match op with
    | .recordSupervisorEvent _ snapshot _ _ _ =>
      snapshot.graph.goalId = goalId → CaughtUp goalId p.store.events p.store.supervisors[goalId]?
    | .saveSupervisorCheckpointUpdates updates _ => ∀ update ∈ updates, update.goalId = goalId →
      HandedOver goalId p.store.events p.store.supervisors[goalId]? update.events
    | _ => True

/-- **One operation under the conditions keeps the row tracked.** -/
theorem step_tracked {op : ProfileOp} (hop : Composes goalId p op)
    (hstep : InStep p.store p.projection)
    (h : Tracked goalId p.store.events p.store.supervisors[goalId]?) :
    Tracked goalId (p.step op).store.events (p.step op).store.supervisors[goalId]? := by
  obtain ⟨hcareful, hop⟩ := hop
  by_cases hwrites : WritesCheckpoints op
  · cases op with
    | recordSupervisorEvent stamp snapshot eventType payload faults =>
      exact recordSupervisorEvent_tracked hstep stamp snapshot eventType payload faults hop h
    | saveSupervisorSnapshot snapshot fault =>
      cases fault with
      | true => exact h
      | false => exact saveSupervisorSnapshot_tracked hstep snapshot h
    | saveSupervisorCheckpointUpdates updates fault =>
      obtain ⟨hevents, -⟩ := p.saveSupervisorCheckpointUpdates_frame updates fault
      rw [step, hevents]
      cases hsave : p.saveSupervisorCheckpointUpdates updates fault with
      | mk q result =>
        cases result with
        | error e =>
          unfold saveSupervisorCheckpointUpdates at hsave
          split at hsave
          · cases hsave
            exact h
          · cases hsave
        | ok u =>
          obtain ⟨rows, hrows, rfl⟩ := saveSupervisorCheckpointUpdates_ok hsave
          exact h.saved (fun e he => hstep.positive he) hop hrows
    | _ => exact hwrites.elim
  · obtain ⟨added, hrows, hadded⟩ := Moves.extends (step_moves hcareful.admissible (by
      rintro inputs consent runId sourceFingerprint faults rfl
      exact hcareful.imp_right .inl)) hstep
    rw [step_supervisors hwrites]
    exact h.extend hrows hadded

/-- **The checkpoint waits for the unresolved approvals.**  In every run on a new profile in
which batches leave out no event of the goal and combined writes come only when the
checkpoint accounts for all of them, a stored checkpoint waits for exactly the approvals
that the goal's events up to its boundary leave unresolved. -/
theorem pending_approvals_match_log (goalId : Uuid) (profileId : String)
    (usage legacyUsage : UsageLedger) (ops : List ProfileOp)
    (h : Along step (Composes goalId) (created profileId usage legacyUsage) ops) :
    let p := run step (created profileId usage legacyUsage) ops
    ∀ c, p.store.supervisors[goalId]? = some c →
      c.pendingApprovalEvents = unresolved (p.store.events.rows.filter fun event =>
        event.goalId = some (.uuid goalId) && event.monotonicSequence ≤ c.lastSequence) := by
  have hrun := h.invariant (fun p : ProfileState => InStep p.store p.projection ∧
      Tracked goalId p.store.events p.store.supervisors[goalId]?)
    (fun p op hop ⟨hstep, htracked⟩ => ⟨step_inStep hop.1 hstep, step_tracked hop hstep htracked⟩)
    ⟨InStep.empty, Tracked.empty⟩
  intro p c hc
  have hpending := hrun.2.pending
  rw [hc] at hpending
  exact hpending

end Steps

section Examples

attribute [local instance] anyChrono

/-- An approval request for task 7 of goal 1. -/
def approvalRequest : EventEnvelope :=
  (created "default" {} {}).supervisorEvent ⟨"one", "now"⟩ (goalSnapshot 1) "approval.requested"
    (.object [("task_id", .ofUuid 7)])

/-- **A combined write loses an approval.**  A request is appended, another transition of
the goal is stored together with its event, and the batch of the request follows: the
checkpoint stands at the second event and waits for nothing. -/
theorem combined_write_skips_approval :
    let p := run step (created "default" {} {}) [
      .appendSupervisorEvent ⟨"one", "now"⟩ (goalSnapshot 1) "approval.requested"
        (.object [("task_id", .ofUuid 7)]) {},
      .recordSupervisorEvent ⟨"two", "now"⟩ (goalSnapshot 2) "task.started"
        (.object [("task_id", .ofUuid 8)]) {},
      .saveSupervisorCheckpointUpdates [⟨goalSnapshot 1, [approvalRequest]⟩] false]
    (p.store.supervisors[1]?.map fun c => (c.lastSequence, c.pendingApprovalEvents.length)) =
        some (2, 0) ∧
      (unresolved (p.store.events.rows.filter fun event =>
        event.goalId = some (.uuid 1) && event.monotonicSequence ≤ 2)).map (·.eventId) =
          ["one"] := by
  decide +kernel

/-- The same with the batch before the combined write. -/
theorem pending_approvals_match_log_batch :
    let p := run step (created "default" {} {}) [
      .appendSupervisorEvent ⟨"one", "now"⟩ (goalSnapshot 1) "approval.requested"
        (.object [("task_id", .ofUuid 7)]) {},
      .saveSupervisorCheckpointUpdates [⟨goalSnapshot 1, [approvalRequest]⟩] false,
      .recordSupervisorEvent ⟨"two", "now"⟩ (goalSnapshot 2) "task.started"
        (.object [("task_id", .ofUuid 8)]) {}]
    (p.store.supervisors[1]?.map fun c => (c.lastSequence, c.pendingApprovalEvents.length)) =
        some (2, 1) ∧
      ∀ c, p.store.supervisors[1]? = some c →
        c.pendingApprovalEvents = unresolved (p.store.events.rows.filter fun event =>
          event.goalId = some (.uuid 1) && event.monotonicSequence ≤ c.lastSequence) := by
  refine ⟨by decide +kernel, pending_approvals_match_log 1 "default" {} {} _
    ⟨⟨trivial, trivial⟩, ⟨trivial, fun update hupdate _ => ?_⟩,
      ⟨trivial, fun _ event hevent _ => ?_⟩,
      trivial⟩⟩
  · obtain rfl := mem_singleton.mp hupdate
    refine ⟨nodup_singleton _, fun _ h => h, fun event hevent _ _ _ _ => .inl hevent⟩
  · obtain rfl : event = approvalRequest := mem_singleton.mp hevent
    decide +kernel

end Examples

end ProfileState
end PersonalAgent.Core
