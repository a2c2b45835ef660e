/-
# Who an effect receipt belongs to

`complete` refuses a consequential task whose idempotency key already carries the
receipt of another task.  `recover` does not look: it promotes a Running task to
Completed on any verified receipt under its key.  Two consequential tasks that share a
key therefore both end Completed when the process crashes while the second one runs,
although only the first one's effect was ever receipted
(`recover_completes_on_foreign_receipt`).

That is the only way: where recoveries find only a task's own receipt (`OwnReceipts`),
every Completed consequential task has its own (`receipted_by_own_task`).
-/

import PersonalAgent.Agent.RunningOrder

namespace PersonalAgent.Agent

open Lib

namespace DurableSupervisor

/-- The task `t` under `k` has a key, and the receipt under it is verified and its
own. -/
def OwnReceipt (s : DurableSupervisor) (k : Uuid) (t : Task) : Prop :=
  ∃ key r, t.idempotencyKey = some key ∧ s.snapshot.receipts[key]? = some r ∧
    r.verified = true ∧ r.taskId = k

/-- A recovery taken from `s` meets no foreign receipt: a verified receipt under the
key of a Running consequential task is that task's. -/
def OwnReceipts (s : DurableSupervisor) (op : Op) : Prop :=
  op = .recover → ∀ (k : Uuid) t, s.tasks[k]? = some t → t.status = .running →
    isConsequential t = true → ∀ key r, t.idempotencyKey = some key →
      s.snapshot.receipts[key]? = some r → r.verified = true → r.taskId = k

/-- All receipts are verified, and completed consequential tasks have their own. -/
structure Receipted (s : DurableSupervisor) : Prop where
  verified : ∀ (key : String) r, s.snapshot.receipts[key]? = some r → r.verified = true
  own : ∀ (k : Uuid) t, s.tasks[k]? = some t → t.status = .completed →
    isConsequential t = true → OwnReceipt s k t

theorem isConsequential_congr {t t' : Task} (h : SamePlan t t') :
    isConsequential t' = isConsequential t := by
  simp only [isConsequential, h.risk]

theorem OwnReceipt.step {s s' : DurableSupervisor} {op : Op} (he : Effect s op s') {k : Uuid}
    {t t' : Task} (hp : SamePlan t t') (h : OwnReceipt s k t) : OwnReceipt s' k t' := by
  obtain ⟨key, r, hkey, hr, hver, hid⟩ := h
  exact ⟨key, r, hp.idempotencyKey.trans hkey, he.kept key r hr, hver, hid⟩

theorem Receipted.step {s s' : DurableSupervisor} {op : Op} (h : Receipted s)
    (hok : OwnReceipts s op) (he : Effect s op s') : Receipted s' := by
  have hver (key : String) (r : EffectReceipt) (hr : s'.snapshot.receipts[key]? = some r) :
      r.verified = true := (he.added key r hr).elim (h.verified key r) fun hv => hv
  refine ⟨hver, fun k t' ht' hc hcons => ?_⟩
  obtain ⟨t, ht, hm⟩ := he.move_of_after ht'
  rw [isConsequential_congr hm.samePlan] at hcons
  have hp := hm.samePlan
  -- a task becomes Completed by a completion or by a recovery; otherwise it was before
  cases hm with
  | completed output hr hown =>
    obtain ⟨key, r, hkey, hget, hid⟩ := hown hcons
    exact ⟨key, r, hkey, hget, hver key r hget, hid⟩
  | recovered key r hop hr hkey hget hv =>
    exact ⟨key, r, hkey, he.kept key r hget, hv, hok hop k t ht hr hcons key r hkey hget hv⟩
  | stay => exact (h.own k _ ht hc hcons).step he hp
  | bound checkpoint hs => exact (h.own k t ht hc hcons).step he hp
  | suspended status hr hs => rcases hs with rfl | rfl <;> cases hc
  | _ => cases hc

theorem OwnReceipt.unique {s : DurableSupervisor} {j k : Uuid} {t u : Task}
    (ht : OwnReceipt s k t) (hu : OwnReceipt s j u) (hkey : t.idempotencyKey = u.idempotencyKey) :
    k = j := by
  obtain ⟨key, r, hk, hr, -, rfl⟩ := ht
  obtain ⟨key', r', hk', hr', -, rfl⟩ := hu
  obtain rfl : key = key' := Option.some.inj (hk.symm.trans (hkey.trans hk'))
  rw [Option.some.inj (hr.symm.trans hr')]

section Runs

variable [Petgraph]

theorem Fresh.receipted {graph : TaskGraph} {p d : ℕ} {s₀ : DurableSupervisor}
    (h : Fresh graph p d s₀) : Receipted s₀ := by
  refine ⟨fun key r hr => ?_, fun k t ht hc => ?_⟩
  · obtain ⟨-, -, rfl⟩ := new_ok_iff.mp h.new_ok
    simp at hr
  · rw [h.status ht] at hc
    cases hc

/-- **Consequential effects are receipted by their own task**, in every run whose
recoveries meet no foreign receipt: a Completed consequential task has a key, the
receipt under it is verified and names that task, and no other Completed
consequential task has that key. -/
theorem receipted_by_own_task {graph : TaskGraph} {p d : ℕ} {s₀ : DurableSupervisor}
    (h : Fresh graph p d s₀) {ops : List Op} (hok : Along step OwnReceipts s₀ ops) :
    (∀ (k : Uuid) t, (run step s₀ ops).tasks[k]? = some t → t.status = .completed →
      isConsequential t = true → ∃ key r, t.idempotencyKey = some key ∧
        (run step s₀ ops).snapshot.receipts[key]? = some r ∧ r.verified = true ∧
        r.taskId = k) ∧
    (∀ (j k : Uuid) t u, (run step s₀ ops).tasks[k]? = some t →
      (run step s₀ ops).tasks[j]? = some u → t.status = .completed →
      u.status = .completed → isConsequential t = true → isConsequential u = true →
      t.idempotencyKey = u.idempotencyKey → k = j) := by
  obtain ⟨-, hrec⟩ : Lane (run step s₀ ops) ∧ Receipted (run step s₀ ops) :=
    Along.invariant (fun s => Lane s ∧ Receipted s)
      (fun _ op hop hs => ⟨step_lane hs.1 op, hs.2.step hop (step_effect hs.1 op)⟩) hok
      ⟨h.lane, h.receipted⟩
  refine ⟨hrec.own, fun j k t u ht hu htc huc htk huk hkey => ?_⟩
  exact (hrec.own k t ht htc htk).unique (hrec.own j u hu huc huk) hkey

end Runs

attribute [local instance] Petgraph.kahn

/-- Two consequential tasks with one key, in no order. -/
def sharedKey : DurableSupervisor :=
  pairStart (sampleTask 1 0 "consequential" (some "key"))
    (sampleTask 2 0 "consequential" (some "key"))
    []

/-- The first completes, the second is started, and the process crashes. -/
def crashWhileSecondRuns : List Op :=
  [.start 1, .complete 1 .null true (some "effect") ⟨"2026-01-01T00:00:00Z"⟩, .start 2, .recover]

/-- **Recovery completes a task on another task's receipt.**  Both tasks end
Completed, and the one receipt names the first. -/
theorem recover_completes_on_foreign_receipt :
    Fresh (samplePair (sampleTask 1 0 "consequential" (some "key"))
      (sampleTask 2 0 "consequential" (some "key")) []) 1 1 sharedKey ∧
    let s := run step sharedKey crashWhileSecondRuns
    (s.tasks[1]?).any (·.status = .completed) = true ∧
    (s.tasks[2]?).any (fun t => t.status = .completed && isConsequential t &&
      t.idempotencyKey = some "key") = true ∧
    (s.snapshot.receipts["key"]?).any (·.taskId = 2) = false :=
  ⟨fresh_pairStart rfl rfl rfl, by decide, by decide, by decide⟩

/-- The first completes, and the process crashes with nothing running. -/
def crashAfterFirst : List Op :=
  [.start 1, .complete 1 .null true (some "effect") ⟨"2026-01-01T00:00:00Z"⟩, .recover]

/-- With the first task alone completed, a crash finds no foreign receipt. -/
theorem receipted_by_own_task_pair :
    OwnReceipt (run step sharedKey crashAfterFirst) 1
      { sampleTask 1 0 "consequential" (some "key") with
        attempt := 1, status := .completed, progress := 100, output := some .null } := by
  have hfresh : Fresh (samplePair (sampleTask 1 0 "consequential" (some "key"))
    (sampleTask 2 0 "consequential" (some "key")) []) 1 1 sharedKey := fresh_pairStart rfl rfl rfl
  refine (@receipted_by_own_task _ _ _ _ _ hfresh crashAfterFirst ?_).1 1 _ rfl rfl rfl
  refine ⟨fun h => (nomatch h), fun h => (nomatch h), fun _ k t ht hr => ?_, trivial⟩
  -- the lane is exact and empty when this recovery is taken
  have hl := lane_run hfresh.lane (crashAfterFirst.take 2)
  exact absurd ((hl.mem_iff k).mpr ⟨t, ht, hr⟩) List.not_mem_nil

end DurableSupervisor
end PersonalAgent.Agent
