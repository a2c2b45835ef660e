/-
# Attempts, and what the ready list is worth

`start` is the one operation that charges an attempt, and it refuses a task whose
attempts are used up.  So along any run the counter of a task is its first value plus
the number of times `start` returned `Start` for it (`attempts_counted`).  The bound is
only ever checked at a start: a plan may come with a counter above it
(`new_accepts_spent_attempts`), and then the counter stays there.

`ready_tasks` does not look at the attempts.  `retry`, `provider_failed` and `recover`
put a task back in the queue only while it has some left, but `resume` and `resume_all`
do not ask: a task paused on its last attempt is Queued again, is listed as ready, is
refused by every `start`, and keeps the slot it takes in the list from the tasks behind
it (`resumed_task_blocks_slot`).  The list can be started through exactly when what
`start` asks beyond it holds of the tasks listed (`ready_started_iff`).

Runs begin at any supervisor `new` or `recover` returns.  On the plans they accept the
lane need not list every Running task, so this module works with `Listed`.
-/

import PersonalAgent.Agent.RunningOrder

namespace PersonalAgent.Agent

open Lib List Std.ExtTreeMap

namespace DurableSupervisor

/-! ### What the lane lists stays Running -/

variable {s : DurableSupervisor} {id : Uuid} {t t' : Task}

theorem Listed.clear (h : s.runningOrder = []) : Listed s :=
  ⟨h ▸ nodup_nil, fun _ hk => absurd (h ▸ hk) not_mem_nil⟩

section Histories

variable [Petgraph]

theorem runningOrder_recover {snapshot : SupervisorSnapshot} {p d : ℕ} {s' : DurableSupervisor}
    (h : recover snapshot p d = .ok s') : s'.runningOrder = [] := by
  obtain ⟨-, -, m, -, -, rfl⟩ := recover_ok_iff.mp h
  rfl

variable {s : DurableSupervisor}

/-! ### Supervisors and their histories -/

/-- A supervisor as `new` or `recover` returns it. -/
inductive Built : DurableSupervisor → Prop where
  | new {graph : TaskGraph} {p d : ℕ} {s : DurableSupervisor} : new graph p d = .ok s → Built s
  | recover {snapshot : SupervisorSnapshot} {p d : ℕ} {s : DurableSupervisor} :
      recover snapshot p d = .ok s → Built s

theorem Built.listed (h : Built s) : Listed s := by
  cases h with
  | new h =>
    obtain ⟨-, -, rfl⟩ := new_ok_iff.mp h
    exact Listed.clear rfl
  | recover h => exact Listed.clear (runningOrder_recover h)

/-- One turn of a history: an operation, or a crash followed by a recovery of the
snapshot under the bounds the new process has. -/
inductive Turn where
  | op (op : Op)
  | restart (maximumParallelism maximumDelegationDepth : ℕ)

/-- The supervisor after a turn; a recovery that is refused leaves the snapshot for the
next one. -/
def turn (s : DurableSupervisor) : Turn → DurableSupervisor
  | .op op => s.step op
  | .restart p d => s.orKeep (recover s.snapshot p d)

/-- The operation a turn is. -/
def Turn.asOp : Turn → Op
  | .op o => o
  | .restart _ _ => .recover

theorem Listed.turn (h : Listed s) (a : Turn) : Listed (s.turn a) := by
  cases a with
  | op op => exact (h.stepped op).lane.listed h
  | restart p d =>
    rw [DurableSupervisor.turn]
    cases hr : recover s.snapshot p d with
    | error e => exact h
    | ok s' => exact .clear (runningOrder_recover hr)

theorem Listed.moves (h : Listed s) (a : Turn) (k : Uuid) :
    Option.Rel (Move s a.asOp (s.turn a) k) s.tasks[k]? (s.turn a).tasks[k]? := by
  cases a with
  | op op => exact (h.stepped op).moves k
  | restart p d =>
    rw [DurableSupervisor.turn]
    cases hr : recover s.snapshot p d with
    | error e => exact rel_stay _
    | ok s' => exact (moves_recover h hr).1 k

/-! ### Counting starts -/

/-- Whether the turn is a `start` that returns `Start` for the task under `k`. -/
def startsTask (k : Uuid) (s : DurableSupervisor) : Turn → Bool
  | .op (.start id) =>
    match s.start id with
    | .ok (_, .start taskId _) => taskId = k
    | _ => false
  | _ => false

/-- How many turns of the history start the task under `k`. -/
def starts (k : Uuid) : DurableSupervisor → List Turn → ℕ
  | _, [] => 0
  | s, a :: as => (s.startsTask k a).toNat + starts k (s.turn a) as

/-- A turn that does not start the task leaves its counter alone, and one that starts it
charges one attempt of those it has left. -/
theorem attempt_turn (hl : Listed s) (a : Turn) {k : Uuid} {t : Task} (ht : s.tasks[k]? = some t)
    (hu : t.maxAttempts ≤ 65535) :
    ∃ t', (s.turn a).tasks[k]? = some t' ∧ t'.maxAttempts = t.maxAttempts ∧
      t'.attempt = t.attempt + (s.startsTask k a).toNat ∧
      (s.startsTask k a = true → t.attempt < t.maxAttempts) := by
  have hmove := hl.moves a k
  rw [ht] at hmove
  generalize hget : (s.turn a).tasks[k]? = o at hmove
  cases hmove with
  | some hm =>
    rename_i t'
    refine ⟨t', rfl, by cases hm <;> rfl, ?_⟩
    by_cases hop : ∃ id, a = .op (.start id)
    · -- the one operation that can charge: read it off `start` itself
      obtain ⟨id, rfl⟩ := hop
      change (s.orKeep ((s.start id).map (·.1))).tasks[k]? = some t' at hget
      cases hs : s.start id with
      | error e =>
        rw [hs] at hget
        obtain rfl : t = t' := Option.some.inj (ht.symm.trans hget)
        simp [startsTask, hs]
      | ok r =>
        obtain ⟨s', d⟩ := r
        rw [hs] at hget
        change s'.tasks[k]? = some t' at hget
        obtain ⟨u, hid, ⟨rfl, rfl, -⟩ | ⟨rfl, rfl, -⟩ | ⟨rfl, -, -, hlt, -, -, rfl⟩⟩ := start_ok hs
        · obtain rfl : t = t' := Option.some.inj (ht.symm.trans hget)
          simp [startsTask, hs]
        · obtain rfl : t = t' := Option.some.inj (ht.symm.trans hget)
          simp [startsTask, hs]
        · rw [tasks_withLane, getElem?_tasks_withTask] at hget
          split_ifs at hget with hk
          · subst hk
            obtain rfl : t = u := Option.some.inj (ht.symm.trans hid)
            cases hget
            have hnext : nextAttempt t.attempt = t.attempt + 1 := by
              unfold nextAttempt
              omega
            simp [startsTask, hs, hnext, hlt]
          · obtain rfl : t = t' := Option.some.inj (ht.symm.trans hget)
            simp [startsTask, hs, Ne.symm hk]
    · have hquiet : s.startsTask k a = false := by
        unfold startsTask
        split
        · rename_i id
          exact absurd ⟨id, rfl⟩ hop
        · rfl
      have hkept : t'.attempt = t.attempt := by
        cases hm with
        | started hstart =>
          cases a with
          | op op => exact absurd ⟨k, congrArg Turn.op hstart⟩ hop
          | restart p d => cases hstart
        | _ => rfl
      simp [hquiet, hkept]

/-- The counter over a whole history. -/
theorem attempt_run (hl : Listed s) (turns : List Turn) {k : Uuid} {t : Task}
    (ht : s.tasks[k]? = some t) (hu : t.maxAttempts ≤ 65535) :
    ∃ t', (run turn s turns).tasks[k]? = some t' ∧ t'.maxAttempts = t.maxAttempts ∧
      t'.attempt = t.attempt + starts k s turns ∧
      t'.attempt ≤ max t.attempt t.maxAttempts := by
  induction turns generalizing s t with
  | nil => exact ⟨t, ht, rfl, rfl, le_max_left _ _⟩
  | cons a as ih =>
    obtain ⟨u, hget, hmax, hatt, hleft⟩ := attempt_turn hl a ht hu
    obtain ⟨t', hget', hmax', hatt', hle⟩ := ih (hl.turn a) hget (hmax ▸ hu)
    refine ⟨t', hget', hmax'.trans hmax, ?_, ?_⟩
    · rw [hatt', hatt, starts]
      omega
    · cases hst : s.startsTask k a with
      | true =>
        have hlt := hleft hst
        rw [hst, Bool.toNat_true] at hatt
        omega
      | false =>
        rw [hst, Bool.toNat_false] at hatt
        omega

/-- **The attempt counter counts the starts.**  From any supervisor `new` or `recover`
returns and along any history with any number of crashes, a task's counter is its first
value plus the number of `Start` results for it, never falls, and never exceeds
`max_attempts` unless the plan came with a larger value, which it then keeps; no task
is started more than `max_attempts` times. -/
theorem attempts_counted {s₀ : DurableSupervisor} (h : Built s₀) {k : Uuid} {t₀ : Task}
    (ht₀ : s₀.tasks[k]? = some t₀) (hu : t₀.maxAttempts ≤ 65535) (turns : List Turn) :
    ∃ t, (run turn s₀ turns).tasks[k]? = some t ∧ t.maxAttempts = t₀.maxAttempts ∧
      t.attempt = t₀.attempt + starts k s₀ turns ∧
      t.attempt ≤ max t₀.attempt t₀.maxAttempts ∧
      starts k s₀ turns ≤ t₀.maxAttempts ∧
      ∀ more : List Turn, ∃ t', (run turn s₀ (turns ++ more)).tasks[k]? = some t' ∧
        t.attempt ≤ t'.attempt := by
  obtain ⟨t, ht, hmax, hatt, hle⟩ := attempt_run h.listed turns ht₀ hu
  refine ⟨t, ht, hmax, hatt, hle, by omega, fun more => ?_⟩
  have hlisted : Listed (run turn s₀ turns) :=
    run_invariant Listed (fun _ a hs => hs.turn a) turns h.listed
  obtain ⟨t', ht', -, hatt', -⟩ := attempt_run hlisted more ht (hmax ▸ hu)
  rw [run_append]
  exact ⟨t', ht', by omega⟩

end Histories

/-! ### Starting what is ready -/

/-- What `start` asks of a Queued task beyond its dependencies and a free slot. -/
def Startable (t : Task) : Prop :=
  t.attempt < t.maxAttempts ∧ (isConsequential t = true → t.idempotencyKey.isSome = true)

/-- `start` on a Queued task with its dependencies completed and a slot free. -/
theorem start_of_ready (ht : s.tasks[id]? = some t) (hq : t.status = .queued)
    (hd : s.dependenciesCompleted id = true) (hroom : s.runningOrder.length < s.maximumParallelism)
    (hok : Startable t) :
    s.start id = .ok ((s.withTask id { t with
        attempt := nextAttempt t.attempt, status := .running }).withLane
      (s.runningOrder ++ [id]), .start id (nextAttempt t.attempt)) := by
  have hkey : (isConsequential t && t.idempotencyKey.isNone) = false := by
    cases hc : isConsequential t with
    | false => rfl
    | true => simpa using hok.2 hc
  simp [start, ht, hq, hd, hkey, not_le.mpr hok.1, not_le.mpr hroom]

/-- What the calls of `start` on the ids of a list return, one after the other. -/
def startEach (s : DurableSupervisor) : List Uuid → List (Except PlanError ScheduleDecision)
  | [] => []
  | id :: ids =>
    match s.start id with
    | .ok (s', decision) => .ok decision :: s'.startEach ids
    | .error e => .error e :: s.startEach ids

/-- The call returned `Start` for this task. -/
def Started (id : Uuid) (result : Except PlanError ScheduleDecision) : Prop :=
  ∃ attempt, result = .ok (.start id attempt)

theorem dependenciesCompleted_start {k : Uuid} {lane : List Uuid} (ht : s.tasks[id]? = some t)
    (hq : t.status ≠ .completed) (hq' : t'.status ≠ .completed) :
    ((s.withTask id t').withLane lane).dependenciesCompleted k = s.dependenciesCompleted k := by
  unfold dependenciesCompleted
  congr 1
  funext edge
  rw [tasks_withLane, getElem?_tasks_withTask]
  split_ifs with he
  · rw [he, ht]
    simp [hq, hq']
  · rfl

/-- The tasks of `ids` are Queued and have their dependencies completed. -/
def AllReady (s : DurableSupervisor) (ids : List Uuid) : Prop :=
  ∀ id ∈ ids, ∃ t, s.tasks[id]? = some t ∧ t.status = .queued ∧ s.dependenciesCompleted id = true

/-- A list of ready tasks with a slot for each is started through exactly when every
one of them is startable: a start changes nothing about the tasks behind it. -/
theorem startEach_iff {ids : List Uuid} (hnd : ids.Nodup) (hready : AllReady s ids)
    (hroom : s.runningOrder.length + ids.length ≤ s.maximumParallelism) :
    List.Forall₂ Started ids (s.startEach ids) ↔
      ∀ id ∈ ids, ∀ t, s.tasks[id]? = some t → Startable t := by
  induction ids generalizing s with
  | nil => simp [startEach]
  | cons id ids ih =>
    obtain ⟨hid, hnd⟩ := nodup_cons.mp hnd
    obtain ⟨t, ht, hq, hd⟩ := hready id mem_cons_self
    rw [length_cons] at hroom
    by_cases hok : Startable t
    · have hstart := start_of_ready ht hq hd (by omega) hok
      have hother {k : Uuid} (hk : k ∈ ids) : ((s.withTask id { t with
          attempt := nextAttempt t.attempt, status := .running }).withLane
          (s.runningOrder ++ [id])).tasks[k]? = s.tasks[k]? := by
        rw [tasks_withLane, getElem?_tasks_withTask, if_neg (ne_of_mem_of_not_mem hk hid)]
      rw [startEach, hstart, List.forall₂_cons, ih hnd]
      · constructor
        · rintro ⟨-, hrest⟩ k hk u hu
          rcases mem_cons.mp hk with rfl | hk
          · exact Option.some.inj (ht.symm.trans hu) ▸ hok
          · exact hrest k hk u ((hother hk).trans hu)
        · intro hall
          refine ⟨⟨_, rfl⟩, fun k hk u hu => hall k (mem_cons_of_mem _ hk) u ?_⟩
          exact (hother hk).symm.trans hu
      · intro k hk
        obtain ⟨u, hu, huq, hud⟩ := hready k (mem_cons_of_mem _ hk)
        refine ⟨u, (hother hk).trans hu, huq, ?_⟩
        rw [dependenciesCompleted_start ht (by simp [hq]) (by simp)]
        exact hud
      · change (s.runningOrder ++ [id]).length + ids.length ≤ s.maximumParallelism
        rw [length_append, length_singleton]
        omega
    · refine iff_of_false (fun hall => ?_) fun hall => hok (hall id mem_cons_self t ht)
      -- the first call cannot have returned `Start`
      rw [startEach] at hall
      split at hall
      · rename_i s' d hs
        obtain ⟨⟨attempt, hd⟩, -⟩ := List.forall₂_cons.mp hall
        cases hd
        obtain ⟨u, hu, ⟨-, hd, -⟩ | ⟨-, hd, -⟩ | ⟨-, -, -, hlt, hkey, -⟩⟩ := start_ok hs
        · cases hd
        · cases hd
        · exact hok (Option.some.inj (ht.symm.trans hu) ▸ ⟨hlt, hkey⟩)
      · obtain ⟨⟨attempt, hd⟩, -⟩ := List.forall₂_cons.mp hall
        cases hd

/-! ### The ready list -/

/-- The candidates `ready_tasks` cuts to the free slots. -/
theorem readyTasks_sublist (s : DurableSupervisor) :
    s.readyTasks.Sublist ((s.tasks.toList.filter fun entry =>
      entry.2.status = .queued && s.dependenciesCompleted entry.1).map (·.1)) :=
  take_sublist _ _

theorem nodup_readyTasks (s : DurableSupervisor) : s.readyTasks.Nodup := by
  have hkeys : (s.tasks.toList.map (·.1)).Nodup := by
    rw [map_fst_toList_eq_keys]
    exact s.tasks.nodup_keys
  exact hkeys.sublist (s.readyTasks_sublist.trans (filter_sublist.map _))

theorem allReady_readyTasks (s : DurableSupervisor) : AllReady s s.readyTasks := by
  intro id hid
  obtain ⟨⟨k, t⟩, hmem, rfl⟩ := mem_map.mp (s.readyTasks_sublist.subset hid)
  rw [mem_filter, mem_toList_iff_getElem?_eq_some] at hmem
  obtain ⟨ht, hready⟩ := hmem
  simp only [Bool.and_eq_true, decide_eq_true_eq] at hready
  exact ⟨t, ht, hready.1, hready.2⟩

/-- A lane that lists Running tasks is no longer than their number. -/
theorem Listed.length_le (h : Listed s) :
    s.runningOrder.length ≤ (s.tasks.toList.filter (·.2.status = .running)).length := by
  have hsub : s.runningOrder ⊆ (s.tasks.toList.filter (·.2.status = .running)).map (·.1) := by
    intro k hk
    obtain ⟨t, ht, hr⟩ := h.running k hk
    refine mem_map.mpr ⟨(k, t), mem_filter.mpr ⟨?_, by simpa using hr⟩, rfl⟩
    exact mem_toList_iff_getElem?_eq_some.mpr ht
  have hlen := (h.nodup.subperm hsub).length_le
  rwa [length_map] at hlen

/-- The free slots `ready_tasks` counts are free in the lane. -/
theorem Listed.room (h : Listed s) (hne : s.readyTasks ≠ []) :
    s.runningOrder.length + s.readyTasks.length ≤ s.maximumParallelism := by
  have hlane := h.length_le
  have htake : s.readyTasks.length ≤ s.maximumParallelism -
      (s.tasks.toList.filter (·.2.status = .running)).length := length_take_le _ _
  have hpos : 0 < s.readyTasks.length := length_pos_iff.mpr hne
  omega

/-- **When the ready list can be started through.**  In every state a history reaches,
`start` returns `Start` for each id of `ready_tasks`, called in order, exactly when every
task listed has an attempt left and, if consequential, an idempotency key. -/
theorem ready_started_iff [Petgraph] {s₀ : DurableSupervisor} (h : Built s₀) (turns : List Turn) :
    List.Forall₂ Started (run turn s₀ turns).readyTasks
        ((run turn s₀ turns).startEach (run turn s₀ turns).readyTasks) ↔
      ∀ id ∈ (run turn s₀ turns).readyTasks, ∀ t,
        (run turn s₀ turns).tasks[id]? = some t →
        t.attempt < t.maxAttempts ∧
          (isConsequential t = true → t.idempotencyKey.isSome = true) := by
  have hlisted : Listed (run turn s₀ turns) :=
    run_invariant Listed (fun _ a hs => hs.turn a) turns h.listed
  by_cases hne : (run turn s₀ turns).readyTasks = []
  · simp [hne, startEach]
  · exact startEach_iff (nodup_readyTasks _) (allReady_readyTasks _) (hlisted.room hne)

attribute [local instance] Petgraph.kahn

theorem built_pairStart {a b : Task} {edges : List (Uuid × Uuid)}
    (hv : (samplePair a b edges).validate = .ok ()) : Built (pairStart a b edges) :=
  .new (new_ok_iff.mpr ⟨hv, rfl, rfl⟩)

/-- Two independent tasks with one attempt each, and a slot for one of them. -/
def independentPair : DurableSupervisor :=
  pairStart (sampleTask 1 0 "read" none) (sampleTask 2 0 "read" none) []

/-- **A resumed task blocks a slot.**  Task 1 is paused on its only attempt and resumed:
it is all the ready list has room for, `start` refuses it, and task 2, which `start`
would take, is not listed. -/
theorem resumed_task_blocks_slot :
    Built independentPair ∧
    let s := run turn independentPair [.op (.start 1), .op (.pause 1), .op (.resume 1)]
    s.readyTasks = [1] ∧
    s.startEach s.readyTasks = [.error (.attemptsExhausted 1)] ∧
    s.startEach [2] = [.ok (.start 2 1)] :=
  ⟨built_pairStart rfl, rfl, rfl, rfl⟩

/-- Two tasks with two attempts each, and a slot for either. -/
def roomyPair : DurableSupervisor :=
  { pairStart { sampleTask 1 0 "read" none with maxAttempts := 2 }
      { sampleTask 2 0 "read" none with maxAttempts := 2 } [] with maximumParallelism := 2 }

/-- After a first attempt that failed and a restart, both tasks are listed and start. -/
theorem ready_started_pair :
    let s := run turn roomyPair [.op (.start 1), .op (.providerFailed 1), .restart 2 1]
    s.readyTasks = [1, 2] ∧ List.Forall₂ Started s.readyTasks (s.startEach s.readyTasks) := by
  have hbuilt : Built roomyPair := .new (new_ok_iff.mpr ⟨rfl, rfl, rfl⟩)
  refine ⟨rfl, (ready_started_iff hbuilt _).mpr fun id hid t ht => ?_⟩
  have hid : id = 1 ∨ id = 2 := by simpa using (show id ∈ [1, 2] from hid)
  rcases hid with rfl | rfl
  · obtain rfl : { sampleTask 1 0 "read" none with attempt := 1, maxAttempts := 2 } = t :=
      Option.some.inj ht
    decide
  · obtain rfl : { sampleTask 2 0 "read" none with maxAttempts := 2 } = t := Option.some.inj ht
    decide

/-- **A plan may come with its attempts overspent**: `validate` does not compare the
counter with its bound, so the supervisor `new` returns has a counter above it. -/
theorem new_accepts_spent_attempts :
    let overspent := { sampleTask 1 0 "read" none with attempt := 2 }
    Built (pairStart overspent (sampleTask 2 0 "read" none) []) ∧
    ((pairStart overspent (sampleTask 2 0 "read" none) []).tasks[1]?).any
      (fun t => t.maxAttempts < t.attempt) = true :=
  ⟨built_pairStart rfl, by decide⟩

/-- Task 1 is started, the process crashes, and the recovered task has used its one attempt. -/
theorem attempts_counted_pair :
    starts 1 independentPair [.op (.start 1), .restart 2 1] = 1 ∧
    ∃ t, (run turn independentPair [.op (.start 1), .restart 2 1]).tasks[1]? = some t ∧
      t.attempt = 1 := by
  obtain ⟨t, ht, -, hatt, -⟩ := attempts_counted (built_pairStart rfl)
    (show independentPair.tasks[1]? = some (sampleTask 1 0 "read" none) from rfl) (by decide)
    [.op (.start 1), .restart 2 1]
  exact ⟨rfl, t, ht, hatt⟩

end DurableSupervisor
end PersonalAgent.Agent
