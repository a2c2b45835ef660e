/-
# Delegated authority

`docs/architecture/system.md` says that a child never widens its parent's authority,
and `validate_delegation` checks it for one task: the scopes and the zone against the
parent's, and the number of ancestors against the bound.  No operation calls it.
`new` and `recover` validate the graph, which does not read the parents, and `start`
reads the dependencies only, so a child with a scope its parent lacks runs
(`start_runs_widened_child`).

In every run from a supervisor whose Running and Waiting tasks `validate_delegation`
accepts, with starts of tasks it accepts (`Vetted`), every Running task stays within its
parent and within the depth (`running_within_parent`).  One link at a time is enough,
because no operation changes a task's parent, scopes or zone.

The check has a hole of its own: its walk up the parent links keeps no record of the
tasks it has met, and `validate` proves acyclic only the dependency edges.  Where the
parent links lead into a cycle, the walk never ends (`validateDelegation_ends_iff`).
-/

import PersonalAgent.Agent.Attempts

namespace PersonalAgent.Agent

open Lib Std.ExtTreeMap Option

namespace DurableSupervisor

/-- `Ancestors s cursor n`: the walk up from `cursor` meets `n` tasks and ends. -/
inductive Ancestors (s : DurableSupervisor) : Option Uuid → ℕ → Prop where
  | root : Ancestors s none 0
  | parent {id : Uuid} {t : Task} {n : ℕ} : s.tasks[id]? = some t →
      Ancestors s t.parentTaskId n → Ancestors s (some id) (n + 1)

/-! ### The walk ends within as many turns as there are tasks, or never -/

/-- The cursor one turn of the walk later. -/
def cursorUp (s : DurableSupervisor) (cursor : Option Uuid) : Option Uuid :=
  cursor.bind fun id => (s.tasks[id]?).bind (·.parentTaskId)

theorem iterate_cursorUp_none (s : DurableSupervisor) (n : ℕ) : s.cursorUp^[n] none = none := by
  induction n with
  | zero => rfl
  | succ n ih => exact ih

/-- The walk is still under way after `fuel` turns exactly when its cursor is. -/
theorem delegationDepth_eq_none_iff (s : DurableSupervisor) (fuel depth : ℕ)
    (cursor : Option Uuid) :
    s.delegationDepth fuel depth cursor = none ↔ (s.cursorUp^[fuel] cursor).isSome = true := by
  induction fuel generalizing depth cursor with
  | zero => cases cursor <;> simp [delegationDepth]
  | succ fuel ih =>
    cases cursor with
    | none => simp [delegationDepth, iterate_cursorUp_none]
    | some id =>
      rw [delegationDepth, Function.iterate_succ_apply]
      cases ht : s.tasks[id]? with
      | none => simp [cursorUp, ht, iterate_cursorUp_none]
      | some t => simpa [cursorUp, ht] using ih (depth + 1) t.parentTaskId

variable {s : DurableSupervisor} {n : ℕ} {cursor : Option Uuid} {a b : Uuid} {op : Op}

/-- A cursor that repeats never runs out. -/
theorem isSome_iterate_of_repeat {c : Option Uuid} {i j : ℕ} (hij : i < j)
    (hsome : (s.cursorUp^[i] c).isSome = true) (heq : s.cursorUp^[i] c = s.cursorUp^[j] c) (n : ℕ) :
    (s.cursorUp^[n] c).isSome = true := by
  have hcycle (m : ℕ) : s.cursorUp^[m * (j - i) + i] c = s.cursorUp^[i] c := by
    induction m with
    | zero => simp
    | succ m ih =>
      have hturn : (m + 1) * (j - i) + i = (j - i) + (m * (j - i) + i) := by ring
      rw [hturn, Function.iterate_add_apply, ih, ← Function.iterate_add_apply,
        Nat.sub_add_cancel hij.le, heq]
  by_contra hn
  rw [Bool.not_eq_true, isSome_eq_false_iff, isNone_iff_eq_none] at hn
  -- past a turn without a cursor there is none, yet turn `n * (j - i) + i` has one
  have hlate : n ≤ n * (j - i) + i :=
    (Nat.le_mul_of_pos_right n (Nat.sub_pos_of_lt hij)).trans (Nat.le_add_right _ _)
  have hgone := hcycle n
  rw [← Nat.sub_add_cancel hlate, Function.iterate_add_apply, hn, iterate_cursorUp_none] at hgone
  simp [← hgone] at hsome

/-- Past a turn without a cursor there is none. -/
theorem isSome_of_isSome_iterate {c : Option Uuid} {i : ℕ} (hi : i ≤ n)
    (h : (s.cursorUp^[n] c).isSome = true) : (s.cursorUp^[i] c).isSome = true := by
  by_contra hn
  rw [Bool.not_eq_true, isSome_eq_false_iff, isNone_iff_eq_none] at hn
  rw [← Nat.sub_add_cancel hi, Function.iterate_add_apply, hn, iterate_cursorUp_none] at h
  cases h

/-- A walk longer than there are tasks has met one of them twice. -/
theorem exists_repeat (h : (s.cursorUp^[s.tasks.size + 1] cursor).isSome = true) :
    ∃ i j k, i < j ∧ s.cursorUp^[i] cursor = some k ∧ s.cursorUp^[j] cursor = some k := by
  have hsome (i : ℕ) (hi : i ≤ s.tasks.size + 1) : (s.cursorUp^[i] cursor).isSome = true :=
    isSome_of_isSome_iterate hi h
  -- the cursors before the last are keys of the task map, so two of them agree
  have hmaps (i : ℕ) (hi : i ∈ Finset.range (s.tasks.size + 1)) :
      (s.cursorUp^[i] cursor).getD 0 ∈ s.tasks.keys.toFinset := by
    have hi := Finset.mem_range.mp hi
    have hnext := hsome (i + 1) (by omega)
    obtain ⟨id, hid⟩ := isSome_iff_exists.mp (hsome i (by omega))
    rw [Function.iterate_succ_apply', hid, cursorUp, bind_some] at hnext
    rw [hid, getD_some, List.mem_toFinset, mem_keys,
      mem_iff_isSome_getElem?]
    cases ht : s.tasks[id]? with
    | none => simp [ht] at hnext
    | some t => rfl
  have hcard : s.tasks.keys.toFinset.card < (Finset.range (s.tasks.size + 1)).card := by
    rw [Finset.card_range, List.toFinset_card_of_nodup s.tasks.nodup_keys,
      length_keys]
    omega
  obtain ⟨i, hi, j, hj, hne, heq⟩ := Finset.exists_ne_map_eq_of_card_lt_of_maps_to hcard hmaps
  obtain ⟨a, ha⟩ := isSome_iff_exists.mp (hsome i (Finset.mem_range.mp hi).le)
  obtain ⟨b, hb⟩ := isSome_iff_exists.mp (hsome j (Finset.mem_range.mp hj).le)
  rw [ha, hb] at heq
  obtain rfl : a = b := heq
  rcases Nat.lt_or_gt_of_ne hne with hij | hji
  · exact ⟨i, j, a, hij, ha, hb⟩
  · exact ⟨j, i, a, hji, hb, ha⟩

/-- **The fuel of `validateDelegation` is enough**: a walk that has not ended after one
turn more than there are tasks never ends, which is the source's endless loop. -/
theorem delegationDepth_diverges {depth : ℕ}
    (h : s.delegationDepth (s.tasks.size + 1) depth cursor = none) (fuel depth' : ℕ) :
    s.delegationDepth fuel depth' cursor = none := by
  rw [delegationDepth_eq_none_iff] at h ⊢
  obtain ⟨i, j, k, hij, hi, hj⟩ := exists_repeat h
  exact isSome_iterate_of_repeat hij (hi ▸ rfl) (hi.trans hj.symm) fuel

/-! ### Which walks never end -/

/-- The task under `a` names `b` as its parent. -/
def ParentOf (s : DurableSupervisor) (a b : Uuid) : Prop :=
  ∃ t, s.tasks[a]? = some t ∧ t.parentTaskId = some b

theorem cursorUp_eq_some_iff : s.cursorUp (some a) = some b ↔ ParentOf s a b := by
  simp [cursorUp, ParentOf, bind_eq_some_iff]

/-- Turns of the walk are steps up the parent links. -/
theorem reflTransGen_of_iterate (h : s.cursorUp^[n] (some a) = some b) :
    Relation.ReflTransGen (ParentOf s) a b := by
  induction n generalizing b with
  | zero =>
    obtain rfl : a = b := Option.some.inj h
    exact .refl
  | succ n ih =>
    rw [Function.iterate_succ_apply'] at h
    cases hc : s.cursorUp^[n] (some a) with
    | none =>
      rw [hc] at h
      cases h
    | some c =>
      rw [hc, cursorUp_eq_some_iff] at h
      exact .tail (ih hc) h

theorem exists_iterate_of_reflTransGen (h : Relation.ReflTransGen (ParentOf s) a b) :
    ∃ n, s.cursorUp^[n] (some a) = some b := by
  induction h with
  | refl => exact ⟨0, rfl⟩
  | tail _ hlink ih =>
    obtain ⟨n, hn⟩ := ih
    refine ⟨n + 1, ?_⟩
    rw [Function.iterate_succ_apply', hn, cursorUp_eq_some_iff]
    exact hlink

/-- The walk from `parentId` never runs out exactly when it leads into a cycle of
parent links. -/
theorem forall_isSome_iterate_iff {parentId : Uuid} :
    (∀ n, (s.cursorUp^[n] (some parentId)).isSome = true) ↔
      ∃ k, Relation.ReflTransGen (ParentOf s) parentId k ∧
        Relation.TransGen (ParentOf s) k k := by
  constructor
  · intro h
    obtain ⟨i, j, k, hij, hi, hj⟩ := exists_repeat (h (s.tasks.size + 1))
    refine ⟨k, reflTransGen_of_iterate hi, ?_⟩
    -- the turn after the first visit leads back to `k` in the turns that are left
    have hcycle : s.cursorUp^[j - i] (some k) = some k := by
      rw [← hi, ← Function.iterate_add_apply, Nat.sub_add_cancel hij.le, hj, hi]
    have hpred : j - i = (j - i - 1) + 1 := by omega
    rw [hpred, Function.iterate_succ_apply] at hcycle
    cases hup : s.cursorUp (some k) with
    | none =>
      rw [hup, iterate_cursorUp_none] at hcycle
      cases hcycle
    | some c =>
      rw [hup] at hcycle
      exact .head' (cursorUp_eq_some_iff.mp hup) (reflTransGen_of_iterate hcycle)
  · rintro ⟨k, hreach, hcycle⟩ n
    obtain ⟨i, hi⟩ := exists_iterate_of_reflTransGen hreach
    obtain ⟨c, hlink, hback⟩ := Relation.TransGen.head'_iff.mp hcycle
    obtain ⟨m, hm⟩ := exists_iterate_of_reflTransGen hback
    have hround : s.cursorUp^[m + 1 + i] (some parentId) = some k := by
      rw [Function.iterate_add_apply, hi, Function.iterate_succ_apply,
        cursorUp_eq_some_iff.mpr hlink, hm]
    exact isSome_iterate_of_repeat (by omega : i < m + 1 + i) (hi ▸ rfl) (hi.trans hround.symm) n

/-- The walk up from the parent of an accepted child. -/
theorem validateDelegation_eq_none_iff {child : Task} :
    s.validateDelegation child = none ↔
      ∃ parentId parent, child.parentTaskId = some parentId ∧ s.tasks[parentId]? = some parent ∧
        child.toolScopes ⊆ parent.toolScopes ∧
        zoneRank child.executionZone ≤ zoneRank parent.executionZone ∧
        s.delegationDepth (s.tasks.size + 1) 1 parent.parentTaskId = none := by
  unfold validateDelegation
  cases hp : child.parentTaskId with
  | none => simp
  | some parentId =>
    cases hparent : s.tasks[parentId]? with
    | none => simp [hparent]
    | some parent =>
      by_cases hscopes : child.toolScopes ⊆ parent.toolScopes
      · by_cases hzone : zoneRank child.executionZone > zoneRank parent.executionZone
        · simp [hparent, hscopes, hzone]
        · have hle := not_lt.mp hzone
          simp [hparent, hscopes, hle, not_lt.mpr hle]
      · simp [hparent, hscopes]

/-- **When `validate_delegation` ends.**  On any supervisor and child it returns unless
the child passes the checks against its parent and the parent links lead into a cycle;
and then no number of turns is enough. -/
theorem validateDelegation_ends_iff (s : DurableSupervisor) (child : Task) :
    (s.validateDelegation child ≠ none ↔
      ∀ parentId parent, child.parentTaskId = some parentId → s.tasks[parentId]? = some parent →
        child.toolScopes ⊆ parent.toolScopes →
        zoneRank child.executionZone ≤ zoneRank parent.executionZone →
        ∀ k, Relation.ReflTransGen (ParentOf s) parentId k →
          ¬Relation.TransGen (ParentOf s) k k) ∧
    (s.validateDelegation child = none →
      ∃ parentId parent, child.parentTaskId = some parentId ∧ s.tasks[parentId]? = some parent ∧
        ∀ fuel depth, s.delegationDepth fuel depth parent.parentTaskId = none) := by
  have hstart {parentId : Uuid} {parent : Task} (hparent : s.tasks[parentId]? = some parent) :
      parent.parentTaskId = s.cursorUp (some parentId) := by simp [cursorUp, hparent]
  constructor
  · rw [Ne, validateDelegation_eq_none_iff]
    constructor
    · intro hends parentId parent hp hparent hscopes hzone k hreach hcycle
      refine hends ⟨parentId, parent, hp, hparent, hscopes, hzone, ?_⟩
      rw [delegationDepth_eq_none_iff, hstart hparent, ← Function.iterate_succ_apply]
      exact forall_isSome_iterate_iff.mpr ⟨k, hreach, hcycle⟩ _
    · rintro hacyclic ⟨parentId, parent, hp, hparent, hscopes, hzone, hwalk⟩
      have hall (n : ℕ) : (s.cursorUp^[n] (some parentId)).isSome = true := by
        refine isSome_of_isSome_iterate (Nat.le_succ n) ?_
        rw [Function.iterate_succ_apply, ← hstart hparent, ← delegationDepth_eq_none_iff s n 1]
        exact delegationDepth_diverges hwalk n 1
      obtain ⟨k, hreach, hcycle⟩ := forall_isSome_iterate_iff.mp hall
      exact hacyclic parentId parent hp hparent hscopes hzone k hreach hcycle
  · intro hnone
    obtain ⟨parentId, parent, hp, hparent, -, -, hwalk⟩ := validateDelegation_eq_none_iff.mp hnone
    exact ⟨parentId, parent, hp, hparent, delegationDepth_diverges hwalk⟩

/-! ### Within the parent -/

/-- The child is no wider than its parent and no deeper than the bound. -/
def WithinParent (s : DurableSupervisor) (child : Task) : Prop :=
  ∀ parentId, child.parentTaskId = some parentId →
    ∃ parent, s.tasks[parentId]? = some parent ∧ child.toolScopes ⊆ parent.toolScopes ∧
      zoneRank child.executionZone ≤ zoneRank parent.executionZone ∧
      ∃ n, Ancestors s child.parentTaskId n ∧ n ≤ s.maximumDelegationDepth

/-- The walk that returns a depth has counted the ancestors. -/
theorem ancestors_of_delegationDepth {fuel depth depth' : ℕ}
    (h : s.delegationDepth fuel depth cursor = some (.ok depth')) :
    ∃ n, Ancestors s cursor n ∧ depth' = depth + n := by
  induction fuel generalizing depth cursor with
  | zero =>
    cases cursor with
    | none =>
      obtain rfl : depth = depth' := by simpa [delegationDepth] using h
      exact ⟨0, .root, rfl⟩
    | some id => cases h
  | succ fuel ih =>
    cases cursor with
    | none =>
      obtain rfl : depth = depth' := by simpa [delegationDepth] using h
      exact ⟨0, .root, rfl⟩
    | some id =>
      rw [delegationDepth] at h
      split at h
      · cases h
      · rename_i t ht
        obtain ⟨n, hn, rfl⟩ := ih h
        exact ⟨n + 1, .parent ht hn, by omega⟩

/-- **What `validate_delegation` accepts is within its parent.** -/
theorem withinParent_of_validateDelegation {child : Task}
    (h : s.validateDelegation child = some (.ok ())) : WithinParent s child := by
  intro parentId hp
  unfold validateDelegation at h
  rw [hp] at h
  simp only at h
  split at h
  · cases h
  · rename_i parent hparent
    by_cases hscopes : child.toolScopes ⊆ parent.toolScopes
    swap
    · simp [hscopes] at h
    by_cases hzone : zoneRank child.executionZone > zoneRank parent.executionZone
    · simp [hscopes, hzone] at h
    rw [if_neg (not_not.mpr hscopes), if_neg hzone] at h
    obtain ⟨walk, hwalk, h⟩ := map_eq_some_iff.mp h
    obtain ⟨depth, rfl, hbound⟩ := bind_ok_iff.mp h
    split_ifs at hbound with hdepth
    obtain ⟨n, hn, rfl⟩ := ancestors_of_delegationDepth hwalk
    refine ⟨parent, hparent, hscopes, not_lt.mp hzone, n + 1, ?_, by omega⟩
    rw [hp]
    exact .parent hparent hn

/-- Steps keep the ancestors, because they keep the parents. -/
theorem Ancestors.step {s' : DurableSupervisor} (he : Effect s op s') (h : Ancestors s cursor n) :
    Ancestors s' cursor n := by
  induction h with
  | root => exact .root
  | parent ht _ ih =>
    obtain ⟨t', ht', hm⟩ := he.move_of_before ht
    exact .parent ht' (by rwa [hm.samePlan.parentTaskId])

theorem WithinParent.step {s' : DurableSupervisor} (he : Effect s op s') {t t' : Task}
    (hp : SamePlan t t') (h : WithinParent s t) : WithinParent s' t' := by
  intro parentId hparent
  rw [hp.parentTaskId] at hparent
  obtain ⟨parent, hget, hscopes, hzone, n, hn, hle⟩ := h parentId hparent
  obtain ⟨parent', hget', hm⟩ := he.move_of_before hget
  refine ⟨parent', hget', ?_, ?_, n, ?_, by rwa [he.maximumDelegationDepth]⟩
  · rwa [hp.toolScopes, hm.samePlan.toolScopes]
  · rwa [hp.executionZone, hm.samePlan.executionZone]
  · rw [hp.parentTaskId]
    exact hn.step he

/-- A start taken from `s` that starts its task starts one `validate_delegation`
accepts. -/
def Vetted (s : DurableSupervisor) (op : Op) : Prop :=
  ∀ id s' attempt, op = .start id → s.start id = .ok (s', .start id attempt) →
    ∀ t, s.tasks[id]? = some t → s.validateDelegation t = some (.ok ())

/-- The tasks that `new` or `recover` hands over Running, or Waiting for the approval after which
they run, are ones `validate_delegation` accepts. -/
def VettedPlan (s : DurableSupervisor) : Prop :=
  ∀ (k : Uuid) t, s.tasks[k]? = some t → t.status = .running ∨ t.status = .waiting →
    s.validateDelegation t = some (.ok ())

/-- Running tasks, and the Waiting ones that may run again, are within their parents. -/
def Delegated (s : DurableSupervisor) : Prop :=
  ∀ (k : Uuid) t, s.tasks[k]? = some t → t.status = .running ∨ t.status = .waiting →
    WithinParent s t

/-- A step that starts a task is a `start` that returned `Start`. -/
theorem start_of_running [Petgraph] {k : Uuid} {t t' : Task} (ht : s.tasks[k]? = some t)
    (ht' : (s.step (.start k)).tasks[k]? = some t') (hq : t.status = .queued)
    (hr : t'.status = .running) : ∃ s' attempt, s.start k = .ok (s', .start k attempt) := by
  cases hs : s.start k with
  | error e =>
    rw [step, hs] at ht'
    obtain rfl : t = t' := Option.some.inj (ht.symm.trans ht')
    rw [hq] at hr
    cases hr
  | ok r =>
    obtain ⟨s', d⟩ := r
    rw [step, hs] at ht'
    obtain ⟨u, -, ⟨rfl, -⟩ | ⟨rfl, -⟩ | ⟨rfl, -⟩⟩ := start_ok hs
    · obtain rfl : t = t' := Option.some.inj (ht.symm.trans ht')
      rw [hq] at hr
      cases hr
    · obtain rfl : t = t' := Option.some.inj (ht.symm.trans ht')
      rw [hq] at hr
      cases hr
    · exact ⟨s', _, rfl⟩

theorem Delegated.step [Petgraph] (h : Delegated s) (hl : Listed s) (hok : Vetted s op) :
    Delegated (s.step op) := by
  have he := (hl.stepped op).toEffect
  intro k t' ht' ha
  obtain ⟨t, ht, hm⟩ := he.move_of_after ht'
  refine WithinParent.step he hm.samePlan ?_
  -- only a start makes an inactive task active
  cases hm with
  | started hop hq _ _ =>
    subst hop
    obtain ⟨s', attempt, hs⟩ := start_of_running ht ht' hq rfl
    exact withinParent_of_validateDelegation (hok k s' attempt rfl hs t ht)
  | stay => exact h k _ ht ha
  | suspended status hr _ => exact h k t ht (.inl hr)
  | readmitted hw => exact h k t ht (.inr hw)
  | bound checkpoint hs => exact h k t ht hs
  | _ => simp at ha

/-- `child` runs and was delegated by the task under `parentId`. -/
def DelegatedBy (s : DurableSupervisor) (child parentId : Uuid) : Prop :=
  ∃ t, s.tasks[child]? = some t ∧ t.status = .running ∧ t.parentTaskId = some parentId

theorem Delegated.chain (h : Delegated s) {k j : Uuid}
    (hc : Relation.TransGen (DelegatedBy s) k j) :
    ∃ t u, s.tasks[k]? = some t ∧ s.tasks[j]? = some u ∧ t.toolScopes ⊆ u.toolScopes ∧
      zoneRank t.executionZone ≤ zoneRank u.executionZone := by
  have hlink {a b : Uuid} (hab : DelegatedBy s a b) :
      ∃ t u, s.tasks[a]? = some t ∧ s.tasks[b]? = some u ∧ t.toolScopes ⊆ u.toolScopes ∧
        zoneRank t.executionZone ≤ zoneRank u.executionZone := by
    obtain ⟨t, ht, hr, hp⟩ := hab
    obtain ⟨u, hu, hscopes, hzone, -⟩ := h a t ht (.inl hr) b hp
    exact ⟨t, u, ht, hu, hscopes, hzone⟩
  induction hc with
  | single hab => exact hlink hab
  | tail _ hbc ih =>
    obtain ⟨t, u, ht, hu, hs, hz⟩ := ih
    obtain ⟨u', v, hu', hv, hs', hz'⟩ := hlink hbc
    obtain rfl : u = u' := Option.some.inj (hu.symm.trans hu')
    exact ⟨t, v, ht, hv, hs.trans hs', hz.trans hz'⟩

/-- **A Running task is within its parent's authority**, in every run from a supervisor that
`new` or `recover` returns, if `validate_delegation` accepts its Running and Waiting tasks
and every task that is started later: its scopes are among the parent's, its zone is no
higher, its ancestors are no more than the delegation depth, and along a chain of delegated
Running tasks scopes and zone only shrink. -/
theorem running_within_parent [Petgraph] {s₀ : DurableSupervisor} (h : Built s₀)
    (hplan : VettedPlan s₀) {ops : List Op} (hok : Along step Vetted s₀ ops) :
    (∀ (k : Uuid) t parentId, (run step s₀ ops).tasks[k]? = some t → t.status = .running →
      t.parentTaskId = some parentId →
      ∃ parent, (run step s₀ ops).tasks[parentId]? = some parent ∧
        t.toolScopes ⊆ parent.toolScopes ∧
        zoneRank t.executionZone ≤ zoneRank parent.executionZone ∧
        ∃ n, Ancestors (run step s₀ ops) t.parentTaskId n ∧ n ≤ s₀.maximumDelegationDepth) ∧
    (∀ k j : Uuid, Relation.TransGen (DelegatedBy (run step s₀ ops)) k j →
      ∃ t u, (run step s₀ ops).tasks[k]? = some t ∧
        (run step s₀ ops).tasks[j]? = some u ∧ t.toolScopes ⊆ u.toolScopes ∧
        zoneRank t.executionZone ≤ zoneRank u.executionZone) := by
  have hfirst : Delegated s₀ := fun k t ht ha =>
    withinParent_of_validateDelegation (hplan k t ht ha)
  obtain ⟨-, hdel, hdepth⟩ : Listed (run step s₀ ops) ∧ Delegated (run step s₀ ops) ∧
      (run step s₀ ops).maximumDelegationDepth = s₀.maximumDelegationDepth :=
    Along.invariant
      (fun s => Listed s ∧ Delegated s ∧ s.maximumDelegationDepth = s₀.maximumDelegationDepth)
      (fun _ op hop ⟨hl, hd, hm⟩ => ⟨(hl.stepped op).lane.listed hl, hd.step hl hop,
        (hl.stepped op).toEffect.maximumDelegationDepth.trans hm⟩) hok ⟨h.listed, hfirst, rfl⟩
  refine ⟨fun k t parentId ht hr hp => ?_, fun k j => hdel.chain⟩
  obtain ⟨parent, hget, hscopes, hzone, n, hn, hle⟩ := hdel k t ht (.inl hr) parentId hp
  exact ⟨parent, hget, hscopes, hzone, n, hn, hle.trans_eq hdepth⟩

attribute [local instance] Petgraph.kahn

def sampleChild (scopes : Finset String) (zone : ExecutionZone) : Task :=
  { sampleTask 2 0 "read" none with
    parentTaskId := some 1, toolScopes := scopes, executionZone := zone }

/-- **`start` runs a child wider than its parent**: the parent has no scope and is
isolated, the child has the shell and the desktop, and `validate_delegation` would
have refused it. -/
theorem start_runs_widened_child :
    let s₀ := pairStart (sampleTask 1 0 "read" none) (sampleChild {"shell"} .desktop) []
    let s := s₀.step (.start 2)
    Built s₀ ∧
    (s.tasks[2]?).any (fun t => t.status = .running && t.parentTaskId = some 1 &&
      decide ("shell" ∈ t.toolScopes) && decide (t.executionZone = .desktop)) = true ∧
    (s.tasks[1]?).any (fun t => decide ("shell" ∈ t.toolScopes)) = false ∧
    s₀.validateDelegation (sampleChild {"shell"} .desktop) =
      some (.error (.authorityWidening 2 "tool scopes exceed parent")) :=
  ⟨built_pairStart rfl, by decide, by decide, by decide⟩

/-- **`validate_delegation` can run for ever.**  Two tasks that name each other as
parent make a plan `validate` accepts, and the walk up from either never ends. -/
theorem validateDelegation_loops :
    let first := { sampleTask 1 0 "read" none with parentTaskId := some 2 }
    let second := { sampleTask 2 0 "read" none with parentTaskId := some 1 }
    new (samplePair first second []) 1 1 = .ok (pairStart first second []) ∧
      (pairStart first second []).validateDelegation first = none :=
  ⟨rfl, by decide⟩

/-- A parent, and a child as narrow as it is that waits for its approval. -/
def waitingPair : DurableSupervisor :=
  pairStart (sampleTask 1 0 "read" none) { sampleChild ∅ .isolated with status := .waiting } []

/-- The child of the pair is approved and runs. -/
theorem running_within_parent_pair :
    let s := run step waitingPair [.resumeAfterApproval 2]
    ∃ parent, s.tasks[1]? = some parent ∧ (∅ : Finset String) ⊆ parent.toolScopes := by
  have hplan : VettedPlan waitingPair := by
    intro k t ht hstatus
    have hk : k = 1 ∨ k = 2 := by
      by_contra hk
      rw [not_or] at hk
      simp [waitingPair, pairStart, tasks, samplePair, Ne.symm hk.1, Ne.symm hk.2] at ht
    rcases hk with rfl | rfl
    · obtain rfl : sampleTask 1 0 "read" none = t := Option.some.inj ht
      exact absurd hstatus (by decide)
    · obtain rfl : { sampleChild ∅ .isolated with status := .waiting } = t := Option.some.inj ht
      decide
  have hvet : Along step Vetted waitingPair [.resumeAfterApproval 2] :=
    ⟨fun id s' attempt hop => (by cases hop), trivial⟩
  obtain ⟨parent, hget, hscopes, -⟩ := (running_within_parent (built_pairStart rfl) hplan hvet).1 2
    { sampleChild ∅ .isolated with status := .running } 1 rfl rfl rfl
  exact ⟨parent, hget, hscopes⟩

end DurableSupervisor
end PersonalAgent.Agent
