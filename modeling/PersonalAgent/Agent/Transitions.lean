/-
# What a supervisor operation can do

The operations of `DurableSupervisor` as one alphabet `Op` with a total step: an
operation that returns an error leaves the supervisor as it was, which is what the
source does.  `recover` is an operation too: a crash followed by a recovery of the
snapshot under the same bounds.

Every invariant of the supervisor is derived from one description of a step.  `Move`
lists what can become of one task, with the guards under which it happens, and
`Effect` says that a step moves every task by one of them, leaves the plan alone and
only adds verified receipts (`step_effect`).  The one operation that rewrites tasks
without looking at their status is `preempt_for_user`, which trusts the running
lane; the lane is therefore described first (`Lane`).
-/

import PersonalAgent.Agent.Supervisor
import PersonalAgent.Lib.OrdMap
import PersonalAgent.Lib.Run

namespace PersonalAgent.Agent

open Lib List Std.ExtTreeMap Option

namespace DurableSupervisor

/-- The operations of the supervisor, with the arguments they take. -/
inductive Op where
  | start (taskId : Uuid)
  | complete (taskId : Uuid) (output : Value) (verified : Bool)
      (effectFingerprint : Option String) (now : DateTime)
  | providerFailed (taskId : Uuid)
  | bindCheckpoint (taskId : Uuid) (checkpointId : String)
  | waitForApproval (taskId : Uuid) (reason : String)
  | resumeAfterApproval (taskId : Uuid)
  | pause (taskId : Uuid)
  | resume (taskId : Uuid)
  | cancel (taskId : Uuid)
  | retry (taskId : Uuid)
  | fail (taskId : Uuid) (output : Value)
  | pauseAll
  | resumeAll
  | cancelAll
  | preemptForUser
  | advanceVirtualTime (seconds : ℕ)
  | recover

/-- The supervisor after a fallible operation: an error leaves it as it was. -/
def orKeep (s : DurableSupervisor) : Except PlanError DurableSupervisor → DurableSupervisor
  | .ok s' => s'
  | .error _ => s

/-- One operation. -/
def step [Petgraph] (s : DurableSupervisor) : Op → DurableSupervisor
  | .start taskId => s.orKeep ((s.start taskId).map (·.1))
  | .complete taskId output verified effectFingerprint now =>
    s.orKeep (s.complete taskId output verified effectFingerprint now)
  | .providerFailed taskId => s.orKeep (s.providerFailed taskId)
  | .bindCheckpoint taskId checkpointId => s.orKeep (s.bindCheckpoint taskId checkpointId)
  | .waitForApproval taskId reason => s.orKeep ((s.waitForApproval taskId reason).map (·.1))
  | .resumeAfterApproval taskId => s.orKeep (s.resumeAfterApproval taskId)
  | .pause taskId => s.orKeep (s.pause taskId)
  | .resume taskId => s.orKeep (s.resume taskId)
  | .cancel taskId => s.orKeep (s.cancel taskId)
  | .retry taskId => s.orKeep (s.retry taskId)
  | .fail taskId output => s.orKeep (s.fail taskId output)
  | .pauseAll => s.pauseAll
  | .resumeAll => s.resumeAll
  | .cancelAll => s.cancelAll
  | .preemptForUser => s.preemptForUser
  | .advanceVirtualTime seconds => s.advanceVirtualTime seconds
  | .recover => s.orKeep (recover s.snapshot s.maximumParallelism s.maximumDelegationDepth)

/-! ### Reading the record updates -/

@[simp] theorem tasks_withTasks (s : DurableSupervisor) (m : BTreeMap Uuid Task) :
    (s.withTasks m).tasks = m := rfl

@[simp] theorem tasks_withLane (s : DurableSupervisor) (l : List Uuid) :
    (s.withLane l).tasks = s.tasks := rfl

@[simp] theorem tasks_withReceipts (s : DurableSupervisor) (r : BTreeMap String EffectReceipt) :
    (s.withReceipts r).tasks = s.tasks := rfl

@[simp] theorem runningOrder_withLane (s : DurableSupervisor) (l : List Uuid) :
    (s.withLane l).runningOrder = l := rfl

@[simp] theorem getElem?_tasks_withTask (s : DurableSupervisor) (id k : Uuid) (t : Task) :
    (s.withTask id t).tasks[k]? = if k = id then some t else s.tasks[k]? :=
  getElem?_insert_eq _ _ _ _

variable {id k : Uuid} {s s' s₀ : DurableSupervisor} {allowed : WorkStatus → Bool} {t t' : Task}
  {p d : ℕ} {op : Op} {fp : Option String} {now : DateTime} {graph : TaskGraph}

theorem mem_retain {l : List Uuid} : k ∈ retain id l ↔ k ∈ l ∧ k ≠ id := by
  simp [retain]

/-- What `transition` did when it returned a supervisor. -/
theorem transition_ok {rewrite : Task → Task} {lane : List Uuid → List Uuid}
    (h : s.transition id allowed rewrite lane = .ok s') :
    ∃ t, s.tasks[id]? = some t ∧ allowed t.status = true ∧
      s' = (s.withTask id (rewrite t)).withLane (lane s.runningOrder) := by
  unfold transition at h
  split at h
  · cases h
  · rename_i t ht
    split_ifs at h with hal
    exact ⟨t, ht, hal, (Except.ok.inj h).symm⟩

/-! ### The running lane -/

/-- The running lane is exact: it lists the Running tasks, each once, and no more of
them than the parallelism allows. -/
structure Lane (s : DurableSupervisor) : Prop where
  nodup : s.runningOrder.Nodup
  mem_iff : ∀ k, k ∈ s.runningOrder ↔ ∃ t, s.tasks[k]? = some t ∧ t.status = .running
  bounded : s.runningOrder.length ≤ s.maximumParallelism

/-- The half of `Lane` that needs nothing of the plan a supervisor was built on: what
the lane lists is Running, and listed once. -/
structure Listed (s : DurableSupervisor) : Prop where
  nodup : s.runningOrder.Nodup
  running : ∀ k ∈ s.runningOrder, ∃ t, s.tasks[k]? = some t ∧ t.status = .running

theorem Lane.listed (h : Lane s) : Listed s :=
  ⟨h.nodup, fun k hk => (h.mem_iff k).mp hk⟩

/-- Rewriting the tasks of a lane one after another rewrites each of them. -/
theorem getElem?_foldl_modify {f : Task → Task} (hf : ∀ t, f (f t) = f t) (lane : List Uuid)
    (m : BTreeMap Uuid Task) (k : Uuid) :
    (lane.foldl (fun tasks id => tasks.modify id f) m)[k]? =
      if k ∈ lane then m[k]?.map f else m[k]? := by
  induction lane generalizing m with
  | nil => simp
  | cons id lane ih =>
    rw [foldl_cons, ih, Std.ExtTreeMap.getElem?_modify]
    by_cases hk : id = k
    · subst hk
      simp [Function.comp_def, hf]
    · simp [hk, Ne.symm hk]

/-- The recovery loop over an exact lane succeeds and rewrites the tasks of the lane. -/
theorem foldlM_recoverTask (receipts : BTreeMap String EffectReceipt) (lane : List Uuid)
    (m : BTreeMap Uuid Task) (hnd : lane.Nodup)
    (hrun : ∀ id ∈ lane, ∃ t, m[id]? = some t ∧ t.status = .running) :
    ∃ m', lane.foldlM (recoverTask receipts) m = .ok m' ∧
      ∀ k : Uuid, m'[k]? = if k ∈ lane then m[k]?.map (recoveredTask receipts) else m[k]? := by
  induction lane generalizing m with
  | nil => exact ⟨m, rfl, fun k => by simp⟩
  | cons id lane ih =>
    obtain ⟨hid, hnd⟩ := nodup_cons.mp hnd
    obtain ⟨t, ht, hr⟩ := hrun id mem_cons_self
    have hstep : recoverTask receipts m id = .ok (m.insert id (recoveredTask receipts t)) := by
      simp [recoverTask, ht, hr]
    obtain ⟨m', hm', hget⟩ := ih (m.insert id (recoveredTask receipts t)) hnd fun j hj => by
      rw [getElem?_insert_eq, if_neg (ne_of_mem_of_not_mem hj hid)]
      exact hrun j (mem_cons_of_mem _ hj)
    refine ⟨m', ?_, fun k => ?_⟩
    · rw [foldlM_cons, hstep]
      exact hm'
    · rw [hget, getElem?_insert_eq]
      by_cases hk : k = id
      · subst hk
        simp [hid, ht]
      · simp [hk]

/-- When `recover` returns a supervisor, and which. -/
theorem recover_ok_iff [Petgraph] {snapshot : SupervisorSnapshot} :
    recover snapshot p d = .ok s' ↔
      snapshot.schemaVersion = 1 ∧ snapshot.graph.validate = .ok () ∧
      ∃ m, snapshot.runningOrder.foldlM (recoverTask snapshot.receipts) snapshot.graph.tasks
          = .ok m ∧ checkSchedulerBounds p d = .ok () ∧
        s' = ⟨{ snapshot with graph := { snapshot.graph with tasks := m }, runningOrder := [] },
          p, d⟩ := by
  unfold recover
  by_cases hv : snapshot.schemaVersion = 1
  · rw [if_neg (not_not.mpr hv), bind_ok_iff]
    refine ⟨fun ⟨(), hg, h⟩ => ?_, fun ⟨_, hg, m, hm, hb, h⟩ => ⟨(), hg, ?_⟩⟩
    · obtain ⟨m, hm, h⟩ := bind_ok_iff.mp h
      obtain ⟨⟨⟩, hb, h⟩ := bind_ok_iff.mp h
      exact ⟨hv, hg, m, hm, hb, (pure_ok_iff.mp h).symm⟩
    · exact bind_ok_iff.mpr ⟨m, hm, bind_ok_iff.mpr ⟨(), hb, congrArg _ h.symm⟩⟩
  · rw [if_pos hv]
    exact ⟨fun h => (nomatch h), fun h => absurd h.1 hv⟩

/-- `recover` succeeds on a valid snapshot whose lane is exact. -/
theorem recover_of_lane [Petgraph] (hl : Lane s) (hv : s.snapshot.schemaVersion = 1)
    (hg : s.snapshot.graph.validate = .ok ())
    (hb : checkSchedulerBounds s.maximumParallelism s.maximumDelegationDepth = .ok ()) :
    ∃ s', recover s.snapshot s.maximumParallelism s.maximumDelegationDepth = .ok s' := by
  obtain ⟨m, hm, -⟩ := foldlM_recoverTask s.snapshot.receipts s.runningOrder s.tasks hl.nodup
    fun id hid => (hl.mem_iff id).mp hid
  exact ⟨_, recover_ok_iff.mpr ⟨hv, hg, m, hm, hb, rfl⟩⟩

/-! ### Moves -/

/-- What the operation `op`, taken from `s` to `s'`, can make of the task under `k`. -/
inductive Move (s : DurableSupervisor) (op : Op) (s' : DurableSupervisor) (k : Uuid) :
    Task → Task → Prop where
  | stay (t : Task) : Move s op s' k t t
  | started (t : Task) : op = .start k → t.status = .queued →
      s.dependenciesCompleted k = true →
      (isConsequential t = true → t.idempotencyKey.isSome = true) →
      Move s op s' k t { t with attempt := nextAttempt t.attempt, status := .running }
  | completed (t : Task) (output : Value) : t.status = .running →
      (isConsequential t = true → ∃ key r, t.idempotencyKey = some key ∧
        s'.snapshot.receipts[key]? = some r ∧ r.taskId = k) →
      Move s op s' k t { t with output := some output, progress := 100, status := .completed }
  | recovered (t : Task) (key : String) (r : EffectReceipt) : op = .recover →
      t.status = .running → t.idempotencyKey = some key →
      s.snapshot.receipts[key]? = some r → r.verified = true →
      Move s op s' k t { t with status := .completed, progress := 100 }
  | suspended (t : Task) (status : WorkStatus) : t.status = .running →
      status = .queued ∨ status = .waiting → Move s op s' k t { t with status := status }
  | readmitted (t : Task) : t.status = .waiting → Move s op s' k t { t with status := .running }
  | paused (t : Task) : t.status ≠ .completed → Move s op s' k t { t with status := .paused }
  | resumed (t : Task) : t.status = .paused → Move s op s' k t { t with status := .queued }
  | cancelled (t : Task) : t.status ≠ .completed →
      Move s op s' k t { t with status := .cancelled }
  | retried (t : Task) : t.status = .failed ∨ t.status = .waiting →
      Move s op s' k t { t with status := .queued, checkpointId := none }
  | failed (t : Task) (output : Value) : t.status = .running ∨ t.status = .waiting →
      Move s op s' k t { t with status := .failed, output := some output }
  | bound (t : Task) (checkpointId : String) : t.status = .running ∨ t.status = .waiting →
      Move s op s' k t { t with checkpointId := some checkpointId }

/-- **What one operation does.**  Every task makes a move, no task appears or goes,
the plan and the bounds stay, and receipts are only added, verified ones. -/
structure Effect (s : DurableSupervisor) (op : Op) (s' : DurableSupervisor) : Prop where
  moves : ∀ k : Uuid, Option.Rel (Move s op s' k) s.tasks[k]? s'.tasks[k]?
  edges : s'.snapshot.graph.edges = s.snapshot.graph.edges
  goalId : s'.snapshot.graph.goalId = s.snapshot.graph.goalId
  schemaVersion : s'.snapshot.schemaVersion = s.snapshot.schemaVersion
  maximumParallelism : s'.maximumParallelism = s.maximumParallelism
  maximumDelegationDepth : s'.maximumDelegationDepth = s.maximumDelegationDepth
  kept : ∀ (key : String) r, s.snapshot.receipts[key]? = some r →
    s'.snapshot.receipts[key]? = some r
  added : ∀ (key : String) r, s'.snapshot.receipts[key]? = some r →
    s.snapshot.receipts[key]? = some r ∨ r.verified = true

theorem rel_stay (o : Option Task) : Option.Rel (Move s op s' k) o o := by
  cases o with
  | none => exact .none
  | some t => exact .some (.stay t)

theorem Effect.stay (s : DurableSupervisor) (op : Op) : Effect s op s where
  moves _ := rel_stay _
  edges := rfl
  goalId := rfl
  schemaVersion := rfl
  maximumParallelism := rfl
  maximumDelegationDepth := rfl
  kept _ _ h := h
  added _ _ h := .inl h

/-! ### The lane in a step -/

/-- What becomes of the running lane: it loses tasks, and only such as stop running, or a task
that did not run enters at its end. -/
inductive LaneChange (s s' : DurableSupervisor) : Prop where
  | shrinks (sublist : s'.runningOrder.Sublist s.runningOrder)
      (running : ∀ (k : Uuid) t', s'.tasks[k]? = some t' → t'.status = .running →
        ∃ t, s.tasks[k]? = some t ∧ t.status = .running ∧
          (k ∈ s.runningOrder → k ∈ s'.runningOrder))
      (kept : ∀ k ∈ s'.runningOrder, ∀ t, s.tasks[k]? = some t → t.status = .running →
        ∃ t', s'.tasks[k]? = some t' ∧ t'.status = .running)
  | enters {id : Uuid} {t t' : Task} (ht : s.tasks[id]? = some t) (hr : t.status ≠ .running)
      (ht' : t'.status = .running) (room : s.runningOrder.length < s.maximumParallelism)
      (heq : s' = (s.withTask id t').withLane (s.runningOrder ++ [id]))

namespace LaneChange

theorem refl (s : DurableSupervisor) : LaneChange s s :=
  .shrinks (List.Sublist.refl _) (fun _ t ht hr => ⟨t, ht, hr, fun h => h⟩)
    fun _ _ t ht hr => ⟨t, ht, hr⟩

theorem leave (hlane : s'.runningOrder = retain id s.runningOrder)
    (htasks : ∀ k : Uuid, s'.tasks[k]? = if k = id then some t else s.tasks[k]?)
    (ht : t.status ≠ .running) : LaneChange s s' := by
  refine .shrinks (hlane ▸ filter_sublist) (fun k t' ht' hr => ?_) fun k hk t ht hr => ?_
  · rw [htasks] at ht'
    split_ifs at ht' with hk
    · exact absurd (Option.some.inj ht' ▸ hr) ht
    · exact ⟨t', ht', hr, fun hmem => hlane ▸ mem_retain.mpr ⟨hmem, hk⟩⟩
  · rw [htasks, if_neg (mem_retain.mp (hlane ▸ hk)).2]
    exact ⟨t, ht, hr⟩

/-- A rewrite that does not touch whether the task runs leaves the lane alone. -/
theorem rewrite (ht : s.tasks[id]? = some t) (hr : t'.status = .running ↔ t.status = .running) :
    LaneChange s ((s.withTask id t').withLane s.runningOrder) := by
  refine .shrinks (List.Sublist.refl _) (fun k u hu hur => ?_) fun k hk u hu hur => ?_
  · rw [tasks_withLane, getElem?_tasks_withTask] at hu
    split_ifs at hu with hk
    · exact ⟨t, hk ▸ ht, hr.mp (Option.some.inj hu ▸ hur), fun h => h⟩
    · exact ⟨u, hu, hur, fun h => h⟩
  · rw [tasks_withLane, getElem?_tasks_withTask]
    split_ifs with hk
    · subst hk
      exact ⟨t', rfl, hr.mpr (Option.some.inj (ht.symm.trans hu) ▸ hur)⟩
    · exact ⟨u, hu, hur⟩

/-- The lane is emptied; what runs afterwards was not in it. -/
theorem clear (hlane : s'.runningOrder = [])
    (h : ∀ (k : Uuid) t, s'.tasks[k]? = some t → t.status = .running →
      s.tasks[k]? = some t ∧ k ∉ s.runningOrder) : LaneChange s s' := by
  refine .shrinks (hlane ▸ nil_sublist _) (fun k t ht hr => ?_) fun k hk => ?_
  · obtain ⟨hbefore, hk⟩ := h k t ht hr
    exact ⟨t, hbefore, hr, fun hmem => absurd hmem hk⟩
  · exact absurd (hlane ▸ hk) not_mem_nil

theorem listed (h : LaneChange s s') (hl : Listed s) : Listed s' := by
  cases h with
  | shrinks hsub _ hkept =>
    refine ⟨hl.nodup.sublist hsub, fun k hk => ?_⟩
    obtain ⟨t, ht, hr⟩ := hl.running k (hsub.subset hk)
    exact hkept k hk t ht hr
  | @enters id t t' ht hr ht' _ heq =>
    subst heq
    have hid : id ∉ s.runningOrder := fun hid => by
      obtain ⟨u, hu, hur⟩ := hl.running id hid
      exact hr (Option.some.inj (ht.symm.trans hu) ▸ hur)
    refine ⟨hl.nodup.append (nodup_singleton id) (by simpa using hid), fun k hk => ?_⟩
    rw [tasks_withLane, getElem?_tasks_withTask]
    rw [runningOrder_withLane, mem_append, mem_singleton] at hk
    split_ifs with hkid
    · exact ⟨t', rfl, ht'⟩
    · exact hl.running k (hk.resolve_right hkid)

theorem lane (h : LaneChange s s') (hmax : s'.maximumParallelism = s.maximumParallelism)
    (hl : Lane s) : Lane s' := by
  have hlisted := h.listed hl.listed
  refine ⟨hlisted.nodup, fun k => ⟨hlisted.running k, ?_⟩, ?_⟩
  · rintro ⟨t', ht', hr'⟩
    cases h with
    | shrinks _ hrunning _ =>
      obtain ⟨t, ht, hr, hmem⟩ := hrunning k t' ht' hr'
      exact hmem ((hl.mem_iff k).mpr ⟨t, ht, hr⟩)
    | @enters id _ _ _ _ _ _ heq =>
      subst heq
      rw [tasks_withLane, getElem?_tasks_withTask] at ht'
      split_ifs at ht' with hk
      · exact mem_append_right _ (mem_singleton.mpr hk)
      · exact mem_append_left _ ((hl.mem_iff k).mpr ⟨t', ht', hr'⟩)
  · rw [hmax]
    cases h with
    | shrinks hsub => exact hsub.length_le.trans hl.bounded
    | enters _ _ _ hroom heq =>
      rw [heq, runningOrder_withLane, length_append, length_singleton]
      omega

end LaneChange

/-- An effect, and what it does to the lane. -/
structure Stepped (s : DurableSupervisor) (op : Op) (s' : DurableSupervisor) : Prop
    extends Effect s op s' where
  lane : LaneChange s s'

theorem Stepped.stay (s : DurableSupervisor) (op : Op) : Stepped s op s := ⟨.stay s op, .refl s⟩

variable {m : BTreeMap Uuid Task} {x : Except PlanError DurableSupervisor} {order : List Uuid}

/-- An operation that replaces the task map and the lane does what it does to each
task. -/
theorem Effect.ofTasks
    (h : ∀ k : Uuid, Option.Rel (Move s op ((s.withTasks m).withLane order) k) s.tasks[k]? m[k]?) :
    Effect s op ((s.withTasks m).withLane order) where
  moves := h
  edges := rfl
  goalId := rfl
  schemaVersion := rfl
  maximumParallelism := rfl
  maximumDelegationDepth := rfl
  kept _ _ h := h
  added _ _ h := .inl h

theorem Effect.ofTask (ht : s.tasks[id]? = some t)
    (hm : Move s op ((s.withTask id t').withLane order) id t t') :
    Effect s op ((s.withTask id t').withLane order) := by
  refine Effect.ofTasks fun k => ?_
  rw [getElem?_insert_eq]
  split_ifs with hk
  · subst hk
    rw [ht]
    exact .some hm
  · exact rel_stay _

theorem Effect.ofMap {f : Task → Task}
    (h : ∀ k t, Move s op ((s.withTasks (s.tasks.map fun _ t => f t)).withLane order) k t (f t)) :
    Effect s op ((s.withTasks (s.tasks.map fun _ t => f t)).withLane order) := by
  refine Effect.ofTasks fun k => ?_
  rw [Std.ExtTreeMap.getElem?_map]
  cases s.tasks[k]? with
  | none => exact .none
  | some t => exact .some (h k t)

/-- A fallible operation makes a step when its success does. -/
theorem Stepped.orKeep (h : ∀ s', x = .ok s' → Stepped s op s') : Stepped s op (s.orKeep x) := by
  cases x with
  | error e => exact .stay s op
  | ok s' => exact h s' rfl

/-- The transitions that take a task out of the lane. -/
theorem Stepped.leave {rewrite : Task → Task}
    (h : ∀ t s', allowed t.status = true → Move s op s' id t (rewrite t))
    (hr : ∀ t, (rewrite t).status ≠ .running) :
    Stepped s op (s.orKeep (s.transition id allowed rewrite (retain id))) := by
  refine .orKeep fun s' hs' => ?_
  obtain ⟨t, ht, hal, rfl⟩ := transition_ok hs'
  exact ⟨.ofTask ht (h t _ hal), .leave rfl (getElem?_tasks_withTask s id · _) (hr t)⟩

theorem Stepped.rewrite {rewrite : Task → Task}
    (h : ∀ t s', allowed t.status = true → Move s op s' id t (rewrite t))
    (hr : ∀ t, allowed t.status = true → ((rewrite t).status = .running ↔ t.status = .running)) :
    Stepped s op (s.orKeep (s.transition id allowed rewrite fun lane => lane)) := by
  refine .orKeep fun s' hs' => ?_
  obtain ⟨t, ht, hal, rfl⟩ := transition_ok hs'
  exact ⟨.ofTask ht (h t _ hal), .rewrite ht (hr t hal)⟩

/-- All tasks are stopped. -/
theorem Stepped.ofMap {f : Task → Task}
    (h : ∀ k t, Move s op ((s.withTasks (s.tasks.map fun _ t => f t)).withLane []) k t (f t))
    (hf : ∀ t, (f t).status ≠ .running) :
    Stepped s op ((s.withTasks (s.tasks.map fun _ t => f t)).withLane []) := by
  refine ⟨.ofMap h, .clear rfl fun k t ht hr => ?_⟩
  rw [tasks_withLane, tasks_withTasks, Std.ExtTreeMap.getElem?_map] at ht
  obtain ⟨t₀, -, rfl⟩ := map_eq_some_iff.mp ht
  exact absurd hr (hf t₀)

/-! ### The operations with bodies of their own -/

/-- The three ways `start` returns: the task was completed before, its dependencies
are not completed, or it is started. -/
theorem start_ok {d : ScheduleDecision} (h : s.start id = .ok (s', d)) :
    ∃ t, s.tasks[id]? = some t ∧
      ((s' = s ∧ d = .alreadyCompleted id ∧ t.status = .completed) ∨
       (s' = s ∧ d = .waitForDependencies id ∧ t.status ≠ .completed ∧
          s.dependenciesCompleted id = false) ∨
       (d = .start id (nextAttempt t.attempt) ∧ t.status = .queued ∧
          s.dependenciesCompleted id = true ∧ t.attempt < t.maxAttempts ∧
          (isConsequential t = true → t.idempotencyKey.isSome = true) ∧
          s.runningOrder.length < s.maximumParallelism ∧
          s' = (s.withTask id { t with
              attempt := nextAttempt t.attempt, status := .running }).withLane
            (s.runningOrder ++ [id]))) := by
  unfold start at h
  split at h
  · cases h
  · rename_i t ht
    refine ⟨t, ht, ?_⟩
    split_ifs at h with hc hd hq ha hk hl
    · cases h
      exact .inl ⟨rfl, rfl, hc⟩
    · cases h
      exact .inr (.inl ⟨rfl, rfl, hc, by simpa using hd⟩)
    · cases h
      refine .inr (.inr ⟨rfl, not_not.mp hq, by simpa using hd, by omega, fun hcons => ?_, by omega,
        rfl⟩)
      simpa [hcons, isSome_iff_ne_none] using hk

/-- What `receipted` returns keeps every receipt, adds only a verified one, and holds
the task's own receipt when the task is consequential. -/
theorem receipted_ok {m : BTreeMap String EffectReceipt} (h : s.receipted id t fp now = .ok m) :
    (∀ (key : String) r, s.snapshot.receipts[key]? = some r → m[key]? = some r) ∧
    (∀ (key : String) r, m[key]? = some r →
      s.snapshot.receipts[key]? = some r ∨ r.verified = true) ∧
    (isConsequential t = true → ∃ key r, t.idempotencyKey = some key ∧ m[key]? = some r ∧
      r.taskId = id) := by
  unfold receipted at h
  split_ifs at h with hc
  · split at h
    · cases h
    · cases h
    · rename_i key fingerprint hkey
      split at h
      · rename_i existing hex
        split_ifs at h with hsame
        cases h
        refine ⟨fun _ _ hr => hr, fun _ _ hr => .inl hr, fun _ => ⟨key, existing, hkey, hex, ?_⟩⟩
        simp only [Bool.or_eq_true, decide_eq_true_eq, not_or, not_not] at hsame
        exact hsame.2
      · rename_i hnone
        cases h
        refine ⟨fun key' r hr => ?_, fun key' r hr => ?_, fun _ =>
          ⟨key, _, hkey, (getElem?_insert_eq _ _ _ _).trans (if_pos rfl), rfl⟩⟩
        · rw [getElem?_insert_eq, if_neg]
          · exact hr
          · rintro rfl
            rw [hnone] at hr
            cases hr
        · rw [getElem?_insert_eq] at hr
          split_ifs at hr with hk
          · cases hr
            exact .inr rfl
          · exact .inl hr
  · cases h
    exact ⟨fun _ _ hr => hr, fun _ _ hr => .inl hr, fun hc' => absurd hc' hc⟩

theorem complete_ok {output : Value} {verified : Bool}
    (h : s.complete id output verified fp now = .ok s') :
    ∃ t m, s.tasks[id]? = some t ∧ t.status = .running ∧ verified = true ∧
      s.receipted id t fp now = .ok m ∧
      s' = (((s.withReceipts m).withTask id
        { t with output := some output, progress := 100, status := .completed }).withLane
          (retain id s.runningOrder)) := by
  unfold complete at h
  split at h
  · cases h
  · rename_i t ht
    split_ifs at h with hr
    obtain ⟨m, hm, h⟩ := bind_ok_iff.mp h
    simp only [Bool.or_eq_true, decide_eq_true_eq, Bool.not_eq_true', not_or, not_not,
      Bool.not_eq_false] at hr
    exact ⟨t, m, ht, hr.1, hr.2, hm, (pure_ok_iff.mp h).symm⟩

theorem resumeAfterApproval_ok (h : s.resumeAfterApproval id = .ok s') :
    ∃ t, s.tasks[id]? = some t ∧ t.status = .waiting ∧
      s.runningOrder.length < s.maximumParallelism ∧
      s' = (s.withTask id { t with status := .running }).withLane (s.runningOrder ++ [id]) := by
  unfold resumeAfterApproval at h
  split at h
  · cases h
  · rename_i t ht
    split_ifs at h with hr
    simp only [Bool.or_eq_true, decide_eq_true_eq, not_or, not_not, not_le] at hr
    exact ⟨t, ht, hr.1, hr.2, (Except.ok.inj h).symm⟩

theorem retry_ok (h : s.retry id = .ok s') :
    ∃ t, s.tasks[id]? = some t ∧ (t.status = .failed ∨ t.status = .waiting) ∧
      t.attempt < t.maxAttempts ∧
      s' = (s.withTask id { t with status := .queued, checkpointId := none }).withLane
        s.runningOrder := by
  unfold retry at h
  split at h
  · cases h
  · rename_i t ht
    split_ifs at h with hr
    simp only [Bool.or_eq_true, Bool.not_eq_true', Bool.or_eq_false_iff, decide_eq_false_iff_not,
      decide_eq_true_eq, not_or, not_and_or, not_not, not_le] at hr
    exact ⟨t, ht, hr.1, hr.2, (Except.ok.inj h).symm⟩

theorem stepped_complete {output : Value} {verified : Bool}
    (h : s.complete id output verified fp now = .ok s') : Stepped s op s' := by
  obtain ⟨t, m, ht, hr, -, hm, rfl⟩ := complete_ok h
  obtain ⟨hkept, hadded, hown⟩ := receipted_ok hm
  refine ⟨⟨fun k => ?_, rfl, rfl, rfl, rfl, rfl, hkept, hadded⟩,
    .leave rfl (getElem?_tasks_withTask _ id · _) (by simp)⟩
  rw [tasks_withLane, getElem?_tasks_withTask, tasks_withReceipts]
  split_ifs with hk
  · subst hk
    rw [ht]
    exact .some (.completed t output hr hown)
  · exact rel_stay _

theorem move_recoveredTask (hr : t.status = .running) :
    Move s .recover s' k t (recoveredTask s.snapshot.receipts t) := by
  unfold recoveredTask
  simp only
  split_ifs with hv hq
  · obtain ⟨r, hr', hver⟩ := (any_eq_true _ _).mp hv
    obtain ⟨key, hkey, hget⟩ := bind_eq_some_iff.mp hr'
    exact .recovered t key r rfl hr hkey hget hver
  · exact .suspended t .queued hr (.inl rfl)
  · exact .suspended t .waiting hr (.inr rfl)

theorem recoveredTask_not_running (receipts : BTreeMap String EffectReceipt) (t : Task) :
    (recoveredTask receipts t).status ≠ .running := by
  unfold recoveredTask
  simp only
  split_ifs <;> simp

/-- A recovery, under whatever bounds, moves the tasks of the lane and no other, and empties
the lane. -/
theorem moves_recover [Petgraph] (hl : Listed s) (h : recover s.snapshot p d = .ok s') :
    (∀ k : Uuid, Option.Rel (Move s .recover s' k) s.tasks[k]? s'.tasks[k]?) ∧
      LaneChange s s' := by
  obtain ⟨-, -, m, hm, -, rfl⟩ := recover_ok_iff.mp h
  obtain ⟨m', hm', hget⟩ := foldlM_recoverTask s.snapshot.receipts s.runningOrder s.tasks hl.nodup
    hl.running
  obtain rfl : m = m' := Except.ok.inj (hm.symm.trans hm')
  refine ⟨fun k => ?_, .clear rfl fun k t ht hr => ?_⟩
  · change Option.Rel _ s.tasks[k]? m[k]?
    rw [hget]
    split_ifs with hk
    · obtain ⟨t, ht, hr⟩ := hl.running k hk
      rw [ht]
      exact .some (move_recoveredTask hr)
    · exact rel_stay _
  · change m[k]? = some t at ht
    rw [hget] at ht
    split_ifs at ht with hk
    · obtain ⟨t₀, -, rfl⟩ := map_eq_some_iff.mp ht
      exact absurd hr (recoveredTask_not_running _ _)
    · exact ⟨ht, hk⟩

theorem stepped_recover [Petgraph] (hl : Listed s)
    (h : recover s.snapshot s.maximumParallelism s.maximumDelegationDepth = .ok s') :
    Stepped s .recover s' := by
  obtain ⟨hmoves, hlane⟩ := moves_recover hl h
  obtain ⟨-, -, m, -, -, rfl⟩ := recover_ok_iff.mp h
  change Stepped s .recover ((s.withTasks m).withLane [])
  exact ⟨.ofTasks hmoves, hlane⟩

theorem stepped_preemptForUser (hl : Listed s) : Stepped s op s.preemptForUser := by
  have hget := getElem?_foldl_modify (f := fun t => { t with status := .paused }) (fun _ => rfl)
    s.runningOrder s.tasks
  refine ⟨.ofTasks fun k => ?_, .clear rfl fun k t ht hr => ?_⟩
  · rw [hget]
    split_ifs with hk
    · obtain ⟨t, ht, hr⟩ := hl.running k hk
      rw [ht]
      exact .some (.paused t (by simp [hr]))
    · exact rel_stay _
  · change (s.runningOrder.foldl _ s.tasks)[k]? = some t at ht
    rw [hget] at ht
    split_ifs at ht with hk
    · obtain ⟨t₀, -, rfl⟩ := map_eq_some_iff.mp ht
      cases hr
    · exact ⟨ht, hk⟩

theorem resumeAll_eq (s : DurableSupervisor) :
    s.resumeAll = (s.withTasks (s.tasks.map fun _ t =>
      if t.status = .paused then { t with status := .queued } else t)).withLane s.runningOrder :=
  rfl

theorem stepped_resumeAll : Stepped s op s.resumeAll := by
  rw [resumeAll_eq]
  refine ⟨.ofMap fun k t => ?_, .shrinks (List.Sublist.refl _) (fun k t ht hr => ?_)
    fun k _ t ht hr => ⟨t, ?_, hr⟩⟩
  · split_ifs with hp
    · exact .resumed t hp
    · exact .stay t
  · rw [tasks_withLane, tasks_withTasks, Std.ExtTreeMap.getElem?_map] at ht
    obtain ⟨t₀, ht₀, rfl⟩ := map_eq_some_iff.mp ht
    split_ifs at hr
    exact ⟨t₀, ht₀, hr, fun h => h⟩
  · rw [tasks_withLane, tasks_withTasks, Std.ExtTreeMap.getElem?_map, ht]
    simp [hr]

/-- **What every operation does**, from a state whose lane lists Running tasks. -/
theorem Listed.stepped [Petgraph] (hl : Listed s) (op : Op) : Stepped s op (s.step op) := by
  cases op with
  | start id =>
    refine .orKeep fun s' hs' => ?_
    obtain ⟨⟨s'', d⟩, hd, rfl⟩ := map_ok_iff.mp hs'
    obtain ⟨t, ht, ⟨rfl, -⟩ | ⟨rfl, -⟩ | ⟨-, hq, hdep, -, hkey, hroom, rfl⟩⟩ := start_ok hd
    · exact .stay _ _
    · exact .stay _ _
    · exact ⟨.ofTask ht (.started t rfl hq hdep hkey), .enters ht (by simp [hq]) rfl hroom rfl⟩
  | complete id output verified fp now => exact .orKeep fun s' => stepped_complete
  | providerFailed id =>
    refine .leave (fun t s' hr => .suspended t _ (by simpa using hr) ?_) fun t => ?_
    · split_ifs
      · exact .inl rfl
      · exact .inr rfl
    · simp only
      split_ifs <;> simp
  | bindCheckpoint id checkpoint =>
    exact .rewrite (fun t s' hr => .bound t checkpoint (by simpa using hr)) fun t _ => Iff.rfl
  | waitForApproval id reason =>
    refine .orKeep fun s' hs' => ?_
    obtain ⟨⟨s'', d⟩, hd, rfl⟩ := map_ok_iff.mp hs'
    obtain ⟨s₁, hs₁, hd⟩ := bind_ok_iff.mp hd
    obtain ⟨t, ht, hr, rfl⟩ := transition_ok hs₁
    obtain ⟨rfl, -⟩ := Prod.mk.inj (pure_ok_iff.mp hd)
    exact ⟨.ofTask ht (.suspended t .waiting (by simpa using hr) (.inr rfl)),
      .leave rfl (getElem?_tasks_withTask s id · _) (by simp)⟩
  | resumeAfterApproval id =>
    refine .orKeep fun s' hs' => ?_
    obtain ⟨t, ht, hw, hroom, rfl⟩ := resumeAfterApproval_ok hs'
    exact ⟨.ofTask ht (.readmitted t hw), .enters ht (by simp [hw]) rfl hroom rfl⟩
  | pause id =>
    refine .leave (fun t s' hr => .paused t ?_) fun t => by simp
    rintro hc
    simp [hc] at hr
  | resume id =>
    refine .rewrite (fun t s' hr => .resumed t (by simpa using hr)) fun t hp => ?_
    have hp : t.status = .paused := by simpa using hp
    simp [hp]
  | cancel id =>
    refine .leave (fun t s' hr => .cancelled t ?_) fun t => by simp
    rintro hc
    simp [hc] at hr
  | retry id =>
    refine .orKeep fun s' hs' => ?_
    obtain ⟨t, ht, hw, -, rfl⟩ := retry_ok hs'
    refine ⟨.ofTask ht (.retried t hw), .rewrite ht ?_⟩
    rcases hw with hw | hw <;> simp [hw]
  | fail id output =>
    exact .leave (fun t s' hr => .failed t output (by simpa using hr)) fun t => by simp
  | pauseAll =>
    refine .ofMap (fun k t => ?_) fun t => ?_
    · split_ifs with hc
      · exact .stay t
      · exact .paused t (by rintro h; simp [h] at hc)
    · split_ifs with hc
      · rintro hr
        simp [hr] at hc
      · simp
  | resumeAll => exact stepped_resumeAll
  | cancelAll =>
    refine .ofMap (fun k t => ?_) fun t => ?_
    · split_ifs with hc
      · exact .stay t
      · exact .cancelled t (by rintro h; simp [h] at hc)
    · split_ifs with hc
      · rintro hr
        simp [hr] at hc
      · simp
  | preemptForUser => exact stepped_preemptForUser hl
  | advanceVirtualTime seconds =>
    exact ⟨⟨fun k => rel_stay _, rfl, rfl, rfl, rfl, rfl, fun _ _ h => h, fun _ _ h => .inl h⟩,
      .shrinks (List.Sublist.refl _) (fun _ t ht hr => ⟨t, ht, hr, fun h => h⟩)
        fun _ _ t ht hr => ⟨t, ht, hr⟩⟩
  | recover => exact .orKeep fun s' => stepped_recover hl

theorem step_effect [Petgraph] (hl : Lane s) (op : Op) :
    Effect s op (s.step op) := (hl.listed.stepped op).toEffect

/-- **The lane stays exact** under every operation. -/
theorem step_lane [Petgraph] (h : Lane s) (op : Op) : Lane (s.step op) :=
  (h.listed.stepped op).lane.lane (step_effect h op).maximumParallelism h

/-! ### What no operation changes -/

/-- The parts of a task that are fixed when the plan is made. -/
structure SamePlan (t t' : Task) : Prop where
  id : t'.id = t.id
  goalId : t'.goalId = t.goalId
  parentTaskId : t'.parentTaskId = t.parentTaskId
  toolScopes : t'.toolScopes = t.toolScopes
  executionZone : t'.executionZone = t.executionZone
  risk : t'.risk = t.risk
  idempotencyKey : t'.idempotencyKey = t.idempotencyKey

theorem Move.samePlan (h : Move s op s' k t t') : SamePlan t t' := by
  cases h <;> exact ⟨rfl, rfl, rfl, rfl, rfl, rfl, rfl⟩

theorem Effect.move_of_after (h : Effect s op s') (ht' : s'.tasks[k]? = some t') :
    ∃ t, s.tasks[k]? = some t ∧ Move s op s' k t t' := by
  have hm := h.moves k
  rw [ht'] at hm
  generalize s.tasks[k]? = o at hm
  cases hm with
  | some hm => exact ⟨_, rfl, hm⟩

/-- A task before a step is there after it. -/
theorem Effect.move_of_before (h : Effect s op s') (ht : s.tasks[k]? = some t) :
    ∃ t', s'.tasks[k]? = some t' ∧ Move s op s' k t t' := by
  have hm := h.moves k
  rw [ht] at hm
  generalize s'.tasks[k]? = o at hm
  cases hm with
  | some hm => exact ⟨_, rfl, hm⟩

theorem Effect.mem_iff (h : Effect s op s') (k : Uuid) : k ∈ s'.tasks ↔ k ∈ s.tasks := by
  have hm := h.moves k
  rw [mem_iff_isSome_getElem?, mem_iff_isSome_getElem?]
  generalize s.tasks[k]? = o, s'.tasks[k]? = o' at hm
  cases hm <;> rfl

/-! ### Where runs start -/

/-- `s₀` is the supervisor `new` returns on a plan none of whose tasks has started. -/
structure Fresh [Petgraph] (graph : TaskGraph) (p d : ℕ) (s₀ : DurableSupervisor) : Prop where
  new_ok : new graph p d = .ok s₀
  queued : ∀ (k : Uuid) t, graph.tasks[k]? = some t → t.status = .queued

theorem new_ok_iff [Petgraph] :
    new graph p d = .ok s₀ ↔ graph.validate = .ok () ∧ checkSchedulerBounds p d = .ok () ∧
      s₀ = ⟨⟨1, graph, ∅, [], 0⟩, p, d⟩ := by
  unfold new
  constructor
  · intro h
    obtain ⟨⟨⟩, hg, h⟩ := bind_ok_iff.mp h
    obtain ⟨⟨⟩, hb, h⟩ := bind_ok_iff.mp h
    exact ⟨hg, hb, (pure_ok_iff.mp h).symm⟩
  · rintro ⟨hg, hb, rfl⟩
    exact bind_ok_iff.mpr ⟨(), hg, bind_ok_iff.mpr ⟨(), hb, rfl⟩⟩

theorem Fresh.status [Petgraph] (h : Fresh graph p d s₀) (ht : s₀.tasks[k]? = some t) :
    t.status = .queued := by
  obtain ⟨-, -, rfl⟩ := new_ok_iff.mp h.new_ok
  exact h.queued k t ht

theorem Fresh.lane [Petgraph] (h : Fresh graph p d s₀) : Lane s₀ := by
  have hs (k : Uuid) (t : Task) (ht : s₀.tasks[k]? = some t) := h.status ht
  obtain ⟨-, -, rfl⟩ := new_ok_iff.mp h.new_ok
  refine ⟨nodup_nil, fun k => ⟨fun hk => absurd hk not_mem_nil, ?_⟩, Nat.zero_le _⟩
  rintro ⟨t, ht, hr⟩
  rw [hs k t ht] at hr
  cases hr

/-- The lane is exact in every state a run reaches. -/
theorem lane_run [Petgraph] (h : Lane s₀) (ops : List Op) : Lane (run step s₀ ops) :=
  run_invariant Lane (fun _ op hs => step_lane hs op) ops h

end DurableSupervisor
end PersonalAgent.Agent
