/-
# Admission of local models

`crates/audio/src/arbiter.rs`: the models that share the memory of one GPU, each with its
declared cost, whether it is resident and how many users it has.  A load is planned
first; the worker then unloads what the plan names, and the plan is committed.  Other
loads, leases and unloads may come in between, so a plan can be stale in every way when
it is committed.

`arbiter_within_ceiling` is about all such runs, from any ceiling.  The plans carry what
makes the arithmetic of a commit exact: the models they unload are distinct and are not
the one they load (`WellPlanned`).
-/

import PersonalAgent.Contracts.Value
import PersonalAgent.Lib.MapTotal
import PersonalAgent.Lib.Run
import PersonalAgent.Lib.SortedPages

namespace PersonalAgent.Audio

open Lib List Std.ExtTreeMap

/-- A local model known to the arbiter, in the order of the source. -/
inductive LocalModel where
  | qwen3Tts
  | fasterWhisperLargeV3TurboInt8
  | visionGrounding
  | moonshine
  | kokoro
  | ocrs
  deriving DecidableEq, Repr

inductive ModelPriority where
  | vision
  | activeStt
  | activeTts
  | cpuFallback
  deriving DecidableEq, Repr

structure ModelDeclaration where
  vramMib : ℕ
  priority : ModelPriority
  usesGpu : Bool

def ModelDeclaration.gpu (vramMib : ℕ) (priority : ModelPriority) : ModelDeclaration :=
  { vramMib, priority, usesGpu := true }

def ModelDeclaration.cpu : ModelDeclaration :=
  { vramMib := 0, priority := .cpuFallback, usesGpu := false }

namespace LocalModel

/-- The place in the derived order. -/
def rank : LocalModel → ℕ
  | qwen3Tts => 0
  | fasterWhisperLargeV3TurboInt8 => 1
  | visionGrounding => 2
  | moonshine => 3
  | kokoro => 4
  | ocrs => 5

instance : Fintype LocalModel where
  elems := {qwen3Tts, fasterWhisperLargeV3TurboInt8, visionGrounding, moonshine, kokoro, ocrs}
  complete model := by cases model <;> decide

instance : Ord LocalModel where
  compare := compareOn rank

instance : Std.TransCmp (compare : LocalModel → LocalModel → Ordering) :=
  inferInstanceAs (Std.TransCmp (compareOn rank))

instance : Std.LawfulEqCmp (compare : LocalModel → LocalModel → Ordering) where
  eq_of_compare {a b} h := by
    have hrank : a.rank = b.rank := Nat.compare_eq_eq.mp h
    cases a <;> cases b <;> first | rfl | cases hrank

def declaration : LocalModel → ModelDeclaration
  | qwen3Tts => .gpu 1400 .activeTts
  | fasterWhisperLargeV3TurboInt8 => .gpu 1500 .activeStt
  | visionGrounding => .gpu 1200 .vision
  | moonshine | kokoro | ocrs => .cpu

def vramMib (model : LocalModel) : ℕ := model.declaration.vramMib

def usesGpu (model : LocalModel) : Bool := model.declaration.usesGpu

end LocalModel

def ModelPriority.rank : ModelPriority → ℕ
  | vision => 0
  | activeStt => 1
  | activeTts => 2
  | cpuFallback => 3

/-- `sort_by_key(|(model, priority)| (*priority, *model))`. -/
def evictedBefore (a b : LocalModel) : Bool :=
  let key (model : LocalModel) := toLex (model.declaration.priority.rank, model.rank)
  key a ≤ key b

structure ModelState where
  loaded : Bool := false
  activeLeases : ℕ := 0
  deriving DecidableEq, Repr

structure AdmissionPlan where
  requested : LocalModel
  unload : List LocalModel
  projectedVramMib : ℕ
  alreadyLoaded : Bool
  deriving DecidableEq, Repr

structure AdmissionDenied where
  requested : LocalModel
  requiredVramMib : ℕ
  ceilingVramMib : ℕ
  deriving DecidableEq, Repr

/-- `u32::saturating_add`. -/
def saturatingAdd (a b : ℕ) : ℕ := min (a + b) (2 ^ 32 - 1)

structure ModelArbiter where
  ceilingVramMib : ℕ
  states : BTreeMap LocalModel ModelState

namespace ModelArbiter

def withCeilingMib (ceilingVramMib : ℕ) : ModelArbiter where
  ceilingVramMib := ceilingVramMib
  states := [LocalModel.qwen3Tts, .fasterWhisperLargeV3TurboInt8, .visionGrounding, .moonshine,
    .kokoro, .ocrs].foldl (fun states model => states.insert model {}) ∅

variable (a : ModelArbiter)

/-- `states.get(&model).copied().unwrap_or_default()`. -/
def state (model : LocalModel) : ModelState := (a.states[model]?).getD {}

/-- A write through `state_mut`. -/
def setState (model : LocalModel) (state : ModelState) : ModelArbiter :=
  { a with states := a.states.insert model state }

/-- Currently declared resident GPU memory. -/
def residentVramMib : ℕ :=
  total (fun model state => if state.loaded then model.vramMib else 0) a.states

def isLoaded (model : LocalModel) : Bool := (a.state model).loaded

def isActive (model : LocalModel) : Bool := (a.state model).activeLeases > 0

def denied (requested : LocalModel) : AdmissionDenied where
  requested := requested
  requiredVramMib := saturatingAdd a.residentVramMib requested.vramMib
  ceilingVramMib := a.ceilingVramMib

/-- The models that may be evicted for another one, the first to go first. -/
def candidates (a : ModelArbiter) (requested : LocalModel) : List LocalModel :=
  stableSort evictedBefore ((a.states.toList.filter fun entry =>
    entry.1 ≠ requested && entry.1.usesGpu && entry.2.loaded &&
      entry.2.activeLeases = 0).map (·.1))

/-- The loop over the candidates: what is projected and what is to be unloaded. -/
def evict (ceiling : ℕ) : List LocalModel → ℕ → List LocalModel → ℕ × List LocalModel
  | [], projected, unload => (projected, unload)
  | candidate :: rest, projected, unload =>
    if projected ≤ ceiling then (projected, unload)
    else evict ceiling rest (projected - candidate.vramMib) (unload ++ [candidate])

/-- Compute evictions for a model load without changing registry state. -/
def planAdmission (requested : LocalModel) :
    Except AdmissionDenied AdmissionPlan :=
  let current := a.residentVramMib
  if a.isLoaded requested then .ok ⟨requested, [], current, true⟩
  else if !requested.usesGpu then .ok ⟨requested, [], current, false⟩
  else
    let (projected, unload) := evict a.ceilingVramMib (a.candidates requested)
      (saturatingAdd current requested.vramMib) []
    if projected > a.ceilingVramMib then .error ⟨requested, projected, a.ceilingVramMib⟩
    else .ok ⟨requested, unload, projected, false⟩

/-- Commit a plan after every requested worker unload has succeeded. -/
def commitAdmission (plan : AdmissionPlan) :
    ModelArbiter × Except AdmissionDenied Unit :=
  if plan.unload.any fun model => !(a.state model).loaded || (a.state model).activeLeases > 0 then
    (a, .error (a.denied plan.requested))
  else
    let projected := if a.isLoaded plan.requested then a.residentVramMib
      else saturatingAdd a.residentVramMib plan.requested.vramMib
    let projected := plan.unload.foldl (fun projected model => projected - model.vramMib) projected
    if projected > a.ceilingVramMib then (a, .error (a.denied plan.requested))
    else
      let a := plan.unload.foldl
        (fun a model => a.setState model { a.state model with loaded := false }) a
      (a.setState plan.requested { a.state plan.requested with loaded := true }, .ok ())

/-- Record one active use of a resident model. -/
def activate (model : LocalModel) : ModelArbiter × Except AdmissionDenied Unit :=
  if a.isLoaded model then
    (a.setState model { a.state model with
      activeLeases := saturatingAdd (a.state model).activeLeases 1 }, .ok ())
  else (a, .error (a.denied model))

/-- Release one active use. -/
def release (model : LocalModel) : ModelArbiter :=
  a.setState model { a.state model with activeLeases := (a.state model).activeLeases - 1 }

def markUnloaded (model : LocalModel) : ModelArbiter :=
  a.setState model { a.state model with loaded := false, activeLeases := 0 }

def resetWorkerGpuModels (a : ModelArbiter) : ModelArbiter :=
  [LocalModel.qwen3Tts, .fasterWhisperLargeV3TurboInt8, .visionGrounding].foldl markUnloaded a

end ModelArbiter

/-! ### Runs -/

/-- The arbiter with the plans that were computed so far. -/
structure ArbiterRun where
  arbiter : ModelArbiter
  plans : List AdmissionPlan := []

inductive ArbiterOp where
  | plan (requested : LocalModel)
  | commit (i : ℕ)
  | activate (model : LocalModel)
  | release (model : LocalModel)
  | markUnloaded (model : LocalModel)
  | resetWorkerGpuModels

namespace ArbiterRun

/-- One operation; a commit takes any plan that was computed before. -/
def step (s : ArbiterRun) : ArbiterOp → ArbiterRun
  | .plan requested =>
    match s.arbiter.planAdmission requested with
    | .ok plan => { s with plans := s.plans ++ [plan] }
    | .error _ => s
  | .commit i =>
    match s.plans[i]? with
    | some plan => { s with arbiter := (s.arbiter.commitAdmission plan).1 }
    | none => s
  | .activate model => { s with arbiter := (s.arbiter.activate model).1 }
  | .release model => { s with arbiter := s.arbiter.release model }
  | .markUnloaded model => { s with arbiter := s.arbiter.markUnloaded model }
  | .resetWorkerGpuModels => { s with arbiter := s.arbiter.resetWorkerGpuModels }

end ArbiterRun

/-! ### Resident memory -/

namespace ModelArbiter

variable {a : ModelArbiter}

@[simp] theorem state_setState (a : ModelArbiter) (model other : LocalModel) (state : ModelState) :
    (a.setState model state).state other = if other = model then state else a.state other := by
  rw [setState, ModelArbiter.state, getElem?_insert_eq]
  split_ifs <;> rfl

@[simp] theorem ceiling_setState (a : ModelArbiter) (model : LocalModel) (state : ModelState) :
    (a.setState model state).ceilingVramMib = a.ceilingVramMib := rfl

/-- **What is resident**, model by model. -/
theorem residentVramMib_eq (a : ModelArbiter) :
    a.residentVramMib = ∑ model, if (a.state model).loaded then model.vramMib else 0 := by
  rw [residentVramMib, total_eq_sum _ _ Finset.univ fun _ _ => Finset.mem_univ _]
  refine Finset.sum_congr rfl fun model _ => ?_
  rw [ModelArbiter.state]
  cases hstate : a.states[model]? with
  | none => rw [cell_of_none hstate]; rfl
  | some state => rw [cell_of_some hstate]; rfl

/-- Loading or unloading one model. -/
theorem residentVramMib_setState (a : ModelArbiter) (model : LocalModel) (state : ModelState) :
    (a.setState model state).residentVramMib +
        (if (a.state model).loaded then model.vramMib else 0) =
      a.residentVramMib + if state.loaded then model.vramMib else 0 := by
  rw [residentVramMib_eq, residentVramMib_eq,
    ← Finset.add_sum_erase _ _ (Finset.mem_univ model),
    ← Finset.add_sum_erase _ (fun m => if (a.state m).loaded then m.vramMib else 0)
      (Finset.mem_univ model), state_setState, if_pos rfl]
  have hrest : ∑ m ∈ Finset.univ.erase model,
      (if ((a.setState model state).state m).loaded then m.vramMib else 0) =
        ∑ m ∈ Finset.univ.erase model, if (a.state m).loaded then m.vramMib else 0 :=
    Finset.sum_congr rfl fun m hm => by rw [state_setState, if_neg (Finset.ne_of_mem_erase hm)]
  omega

/-- All models together are far below what a `u32` holds. -/
theorem residentVramMib_le (a : ModelArbiter) : a.residentVramMib ≤ 4100 := by
  rw [residentVramMib_eq]
  refine (Finset.sum_le_sum (g := LocalModel.vramMib) fun model _ => ?_).trans (by decide)
  split_ifs
  · exact le_rfl
  · exact Nat.zero_le _

theorem saturatingAdd_eq (a : ModelArbiter) (model : LocalModel) :
    saturatingAdd a.residentVramMib model.vramMib = a.residentVramMib + model.vramMib := by
  have hle := residentVramMib_le a
  have hmodel : model.vramMib ≤ 1500 := by cases model <;> decide
  rw [saturatingAdd]
  omega

/-! ### Plans -/

/-- What a plan unloads is distinct, and not what it loads. -/
structure WellPlanned (plan : AdmissionPlan) : Prop where
  nodup : plan.unload.Nodup
  other : plan.requested ∉ plan.unload

variable {requested model : LocalModel} {plan : AdmissionPlan} {ceiling : ℕ}

theorem mem_candidates : model ∈ a.candidates requested ↔
    model ≠ requested ∧ model.usesGpu = true ∧ (a.state model).loaded = true ∧
      (a.state model).activeLeases = 0 := by
  rw [candidates, (stableSort_perm _).mem_iff, mem_map]
  constructor
  · rintro ⟨⟨m, state⟩, hmem, rfl⟩
    obtain ⟨hmem, htest⟩ := mem_filter.mp hmem
    have hget := mem_toList_iff_getElem?_eq_some.mp hmem
    rw [ModelArbiter.state, hget]
    simpa [and_assoc] using htest
  · rintro ⟨hne, hgpu, hloaded, hidle⟩
    cases hget : a.states[model]? with
    | none =>
      rw [ModelArbiter.state, hget] at hloaded
      cases hloaded
    | some state =>
      rw [ModelArbiter.state, hget] at hloaded hidle
      refine ⟨(model, state), mem_filter.mpr
        ⟨mem_toList_iff_getElem?_eq_some.mpr hget, ?_⟩, rfl⟩
      simp only [Option.getD_some] at hloaded hidle
      simp [hne, hgpu, hloaded, hidle]

theorem nodup_candidates (a : ModelArbiter) (requested : LocalModel) :
    (a.candidates requested).Nodup := by
  rw [candidates, (stableSort_perm _).nodup_iff]
  refine (filter_sublist.map _).nodup ?_
  rw [map_fst_toList_eq_keys]
  exact nodup_keys

def vramOf (models : List LocalModel) : ℕ := (models.map LocalModel.vramMib).sum

/-- The loop evicts the first candidates, and all of them if they do not make room. -/
theorem evict_spec (ceiling : ℕ) (models : List LocalModel) (projected : ℕ)
    (unload : List LocalModel) : ∃ evicted rest, models = evicted ++ rest ∧
      evict ceiling models projected unload = (projected - vramOf evicted, unload ++ evicted) ∧
      (ceiling < projected - vramOf evicted → rest = []) := by
  induction models generalizing projected unload with
  | nil => exact ⟨[], [], rfl, by simp [evict, vramOf], fun _ => rfl⟩
  | cons model models ih =>
    rw [evict]
    split_ifs with hfits
    · refine ⟨[], model :: models, rfl, by simp [vramOf], fun hlt => ?_⟩
      simp only [vramOf, map_nil, sum_nil] at hlt
      omega
    · obtain ⟨evicted, rest, rfl, hevict, hall⟩ :=
        ih (projected - model.vramMib) (unload ++ [model])
      have hsub : projected - model.vramMib - vramOf evicted =
          projected - vramOf (model :: evicted) := by
        rw [vramOf, vramOf, map_cons, sum_cons]
        omega
      rw [hsub] at hevict hall
      exact ⟨model :: evicted, rest, rfl, by rw [hevict, append_assoc]; rfl, hall⟩

theorem planAdmission_wellPlanned (h : a.planAdmission requested = .ok plan) :
    WellPlanned plan := by
  unfold planAdmission at h
  dsimp only at h
  obtain ⟨evicted, rest, hcandidates, hevict, -⟩ := evict_spec a.ceilingVramMib
    (a.candidates requested) (saturatingAdd a.residentVramMib requested.vramMib) []
  rw [hevict] at h
  split_ifs at h
  · cases h
    exact ⟨nodup_nil, not_mem_nil⟩
  · cases h
    exact ⟨nodup_nil, not_mem_nil⟩
  · cases h
    have hnodup := nodup_candidates a requested
    rw [hcandidates] at hnodup
    refine ⟨(nodup_append.mp hnodup).1, fun hmem => ?_⟩
    have hcandidate : requested ∈ a.candidates requested := by
      rw [hcandidates]
      exact mem_append_left _ hmem
    exact (mem_candidates.mp hcandidate).1 rfl

def withoutIdle (a : ModelArbiter) : ModelArbiter :=
  { a with states := a.states.map fun model state =>
      if model.usesGpu && state.activeLeases = 0 then { state with loaded := false } else state }

theorem loaded_withoutIdle (a : ModelArbiter) (model : LocalModel) :
    (a.withoutIdle.state model).loaded =
      ((a.state model).loaded && !(model.usesGpu && (a.state model).activeLeases = 0)) := by
  rw [ModelArbiter.state, ModelArbiter.state, withoutIdle, Std.ExtTreeMap.getElem?_map]
  cases a.states[model]? with
  | none => rfl
  | some state =>
    simp only [Option.map_some, Option.getD_some]
    split_ifs with hidle
    · rw [hidle]
      simp
    · rw [Bool.not_eq_true] at hidle
      rw [hidle]
      simp

/-- Evicting all candidates leaves what is not an idle GPU model. -/
theorem residentVramMib_withoutIdle (h : (a.state requested).loaded = false) :
    a.withoutIdle.residentVramMib + vramOf (a.candidates requested) = a.residentVramMib := by
  have hsum : vramOf (a.candidates requested) =
      ∑ model, if model ∈ a.candidates requested then model.vramMib else 0 := by
    rw [vramOf, ← sum_toFinset _ (nodup_candidates a requested), ← Finset.sum_filter]
    refine Finset.sum_congr ?_ fun _ _ => rfl
    ext model
    simp
  rw [residentVramMib_eq, residentVramMib_eq, hsum, ← Finset.sum_add_distrib]
  refine Finset.sum_congr rfl fun model _ => ?_
  rw [loaded_withoutIdle]
  by_cases hcandidate : model ∈ a.candidates requested
  · obtain ⟨-, hgpu, hloaded, hidle⟩ := mem_candidates.mp hcandidate
    simp [hcandidate, hgpu, hloaded, hidle]
  · rw [if_neg hcandidate, Nat.add_zero]
    refine if_congr ?_ rfl rfl
    rw [Bool.and_eq_true, and_iff_left_iff_imp, Bool.not_eq_true', Bool.and_eq_false_imp]
    intro hloaded hgpu
    rw [decide_eq_false_iff_not]
    refine fun hidle => hcandidate (mem_candidates.mpr ⟨?_, hgpu, hloaded, hidle⟩)
    rintro rfl
    rw [h] at hloaded
    cases hloaded

/-- **A plan is refused only if nothing that is idle could make room for it.** -/
theorem planAdmission_error {error : AdmissionDenied}
    (h : a.planAdmission requested = .error error) :
    a.ceilingVramMib < a.withoutIdle.residentVramMib + requested.vramMib := by
  unfold planAdmission at h
  dsimp only at h
  obtain ⟨evicted, rest, hcandidates, hevict, hall⟩ := evict_spec a.ceilingVramMib
    (a.candidates requested) (saturatingAdd a.residentVramMib requested.vramMib) []
  rw [hevict] at h
  split_ifs at h with hloaded hgpu hlt
  have hunloaded : (a.state requested).loaded = false := by simpa [isLoaded] using hloaded
  have hresident := residentVramMib_withoutIdle hunloaded
  rw [hcandidates, hall hlt, append_nil] at hresident
  rw [saturatingAdd_eq] at hlt
  dsimp only at hlt
  omega

/-! ### Commits -/

/-- What is unloaded is no longer loaded, and nothing else changes. -/
theorem state_unload (models : List LocalModel) (a : ModelArbiter) (model : LocalModel) :
    (models.foldl (fun a m => a.setState m { a.state m with loaded := false }) a).state model =
      if model ∈ models then { a.state model with loaded := false } else a.state model := by
  induction models generalizing a with
  | nil => simp
  | cons m models ih =>
    rw [foldl_cons, ih, state_setState]
    by_cases hm : model = m
    · subst hm
      simp
    · simp [hm]

theorem ceiling_unload (models : List LocalModel) (a : ModelArbiter) :
    (models.foldl (fun a m => a.setState m { a.state m with loaded := false }) a).ceilingVramMib =
      a.ceilingVramMib := by
  induction models generalizing a with
  | nil => rfl
  | cons m models ih => exact ih _

/-- Distinct models that were loaded give back what they declared. -/
theorem residentVramMib_unload {models : List LocalModel} (hnodup : models.Nodup)
    (hloaded : ∀ m ∈ models, (a.state m).loaded = true) :
    (models.foldl (fun a m => a.setState m { a.state m with loaded := false }) a).residentVramMib +
      vramOf models = a.residentVramMib := by
  induction models generalizing a with
  | nil => rfl
  | cons m models ih =>
    obtain ⟨hm, hnodup⟩ := nodup_cons.mp hnodup
    have hrest := ih (a := a.setState m { a.state m with loaded := false }) hnodup fun m' hm' => by
      rw [state_setState, if_neg (ne_of_mem_of_not_mem hm' hm)]
      exact hloaded m' (mem_cons_of_mem _ hm')
    have hset : (a.setState m { a.state m with loaded := false }).residentVramMib + m.vramMib =
        a.residentVramMib := by
      have h := residentVramMib_setState a m { a.state m with loaded := false }
      rwa [if_pos (hloaded m mem_cons_self), if_neg Bool.false_ne_true] at h
    rw [foldl_cons, vramOf, map_cons, sum_cons, ← vramOf, ← hset, ← hrest]
    omega

theorem foldl_sub (models : List LocalModel) (n : ℕ) :
    models.foldl (fun n m => n - m.vramMib) n = n - vramOf models := by
  induction models generalizing n with
  | nil => rfl
  | cons m models ih =>
    rw [foldl_cons, ih, vramOf, vramOf, map_cons, sum_cons]
    omega

theorem commitAdmission_cases (a : ModelArbiter) (plan : AdmissionPlan) :
    a.commitAdmission plan = (a, .error (a.denied plan.requested)) ∨
      (a.commitAdmission plan).2 = .ok () ∧
      (∀ m ∈ plan.unload, (a.state m).loaded = true ∧ (a.state m).activeLeases = 0) ∧
      (if a.isLoaded plan.requested then a.residentVramMib
        else a.residentVramMib + plan.requested.vramMib) - vramOf plan.unload ≤ a.ceilingVramMib ∧
      ∃ b : ModelArbiter, b = plan.unload.foldl
          (fun a m => a.setState m { a.state m with loaded := false }) a ∧
        (a.commitAdmission plan).1 = b.setState plan.requested
          { b.state plan.requested with loaded := true } := by
  unfold commitAdmission
  by_cases hstale : (plan.unload.any fun model =>
      !(a.state model).loaded || (a.state model).activeLeases > 0) = true
  · exact .inl (if_pos hstale)
  rw [if_neg hstale]
  dsimp only
  rw [saturatingAdd_eq, foldl_sub]
  by_cases hover : (if a.isLoaded plan.requested = true then a.residentVramMib
      else a.residentVramMib + plan.requested.vramMib) - vramOf plan.unload > a.ceilingVramMib
  · exact .inl (if_pos hover)
  · rw [if_neg hover]
    refine .inr ⟨rfl, fun m hm => ?_, not_lt.mp hover, _, rfl, rfl⟩
    rw [any_eq_true, not_exists] at hstale
    have hfine := hstale m
    rw [not_and] at hfine
    simpa [not_or] using hfine hm

/-- A failed commit changes nothing. -/
theorem commitAdmission_error {error : AdmissionDenied}
    (h : (a.commitAdmission plan).2 = .error error) : (a.commitAdmission plan).1 = a := by
  obtain hfailed | ⟨hok, -⟩ := commitAdmission_cases a plan
  · rw [hfailed]
  · rw [hok] at h
    cases h

theorem commitAdmission_keeps_active (a : ModelArbiter) (plan : AdmissionPlan)
    (hactive : a.isActive model) (hloaded : a.isLoaded model) :
    (a.commitAdmission plan).1.isLoaded model := by
  obtain hfailed | ⟨-, hunload, -, b, rfl, hcommit⟩ := commitAdmission_cases a plan
  · rwa [hfailed]
  · have hkept : model ∉ plan.unload := fun hmem => by
      have hidle := (hunload model hmem).2
      rw [isActive, hidle] at hactive
      cases hactive
    rw [hcommit, isLoaded, state_setState]
    split_ifs
    · rfl
    · rw [state_unload, if_neg hkept]
      exact hloaded

/-! ### What every run keeps -/

/-- What is resident fits, and what is in use is resident. -/
structure Sound (a : ModelArbiter) (ceiling : ℕ) : Prop where
  fits : a.residentVramMib ≤ ceiling
  unchanged : a.ceilingVramMib = ceiling
  loaded : ∀ model, a.isActive model → a.isLoaded model

theorem sound_withCeilingMib (ceiling : ℕ) : (withCeilingMib ceiling).Sound ceiling := by
  have hidle (model : LocalModel) : (withCeilingMib ceiling).state model = {} := by
    cases model <;> rfl
  refine ⟨?_, rfl, fun model hactive => ?_⟩
  · rw [residentVramMib_eq, Finset.sum_eq_zero fun model _ => by rw [hidle]; rfl]
    exact Nat.zero_le _
  · rw [isActive, hidle] at hactive
    cases hactive

/-- A write that loads nothing keeps the arbiter sound if the model it leaves in use was
resident before. -/
theorem Sound.setState (h : a.Sound ceiling) {state : ModelState}
    (hload : state.loaded = true → (a.state model).loaded = true)
    (hactive : state.activeLeases > 0 → state.loaded = true) :
    (a.setState model state).Sound ceiling := by
  refine ⟨?_, h.unchanged, fun other hother => ?_⟩
  · have hset := residentVramMib_setState a model state
    have hfits := h.fits
    by_cases hloaded : state.loaded = true
    · rw [if_pos (hload hloaded), if_pos hloaded] at hset
      omega
    · rw [if_neg hloaded] at hset
      omega
  · rw [isActive, state_setState] at hother
    rw [isLoaded, state_setState]
    split_ifs at hother ⊢ with hmodel
    · exact hactive (of_decide_eq_true hother)
    · exact h.loaded other hother

theorem Sound.markUnloaded (h : a.Sound ceiling) (model : LocalModel) :
    (a.markUnloaded model).Sound ceiling :=
  h.setState (fun hload => by cases hload) fun hactive => absurd hactive (lt_irrefl 0)

theorem Sound.release (h : a.Sound ceiling) (model : LocalModel) :
    (a.release model).Sound ceiling := by
  refine h.setState (fun hload => hload) fun hactive => h.loaded model (decide_eq_true ?_)
  dsimp only at hactive
  omega

theorem Sound.activate (h : a.Sound ceiling) (model : LocalModel) :
    (a.activate model).1.Sound ceiling := by
  rw [ModelArbiter.activate]
  split_ifs with hloaded
  · exact h.setState (fun hload => hload) fun _ => hloaded
  · exact h

theorem Sound.resetWorkerGpuModels (h : a.Sound ceiling) : a.resetWorkerGpuModels.Sound ceiling :=
  ((h.markUnloaded _).markUnloaded _).markUnloaded _

/-- **A commit of a well planned admission keeps the arbiter sound**, however stale: what
is unloaded was resident, once each, so the projection is what is resident afterwards. -/
theorem Sound.commitAdmission (h : a.Sound ceiling) (hplan : WellPlanned plan) :
    (a.commitAdmission plan).1.Sound ceiling := by
  obtain hfailed | ⟨-, hunload, hfits, b, hb, hcommit⟩ := commitAdmission_cases a plan
  · rwa [hfailed]
  have hb' : b.residentVramMib + vramOf plan.unload = a.residentVramMib := by
    rw [hb]
    exact residentVramMib_unload hplan.nodup fun m hm => (hunload m hm).1
  have hrequested : b.state plan.requested = a.state plan.requested := by
    rw [hb, state_unload, if_neg hplan.other]
  refine ⟨?_, ?_, fun model hactive => ?_⟩
  · have hset := residentVramMib_setState b plan.requested
      { b.state plan.requested with loaded := true }
    rw [if_pos (show ({ b.state plan.requested with loaded := true } : ModelState).loaded = true
      from rfl), hrequested] at hset
    rw [h.unchanged, isLoaded] at hfits
    rw [hcommit, hrequested]
    split_ifs at hset hfits
    · omega
    · omega
  · rw [hcommit, ceiling_setState, hb, ceiling_unload, h.unchanged]
  · rw [hcommit, isActive, state_setState] at hactive
    rw [hcommit, isLoaded, state_setState]
    split_ifs at hactive ⊢ with hmodel
    · rfl
    · rw [hb, state_unload] at hactive ⊢
      split_ifs at hactive ⊢ with hmem
      · rw [(hunload model hmem).2] at hactive
        cases hactive
      · exact h.loaded model hactive

end ModelArbiter

open ModelArbiter

namespace ArbiterRun

/-- The arbiter is sound and every plan at hand is well planned. -/
structure Sound (s : ArbiterRun) (ceiling : ℕ) : Prop where
  arbiter : s.arbiter.Sound ceiling
  plans : ∀ plan ∈ s.plans, ModelArbiter.WellPlanned plan

theorem Sound.step {s : ArbiterRun} {ceiling : ℕ} (h : s.Sound ceiling) (op : ArbiterOp) :
    (s.step op).Sound ceiling := by
  cases op with
  | plan requested =>
    rw [ArbiterRun.step]
    cases hplan : s.arbiter.planAdmission requested with
    | error _ => exact h
    | ok plan =>
      refine ⟨h.arbiter, fun plan' hmem => ?_⟩
      rcases mem_append.mp hmem with hold | hnew
      · exact h.plans plan' hold
      · rw [mem_singleton.mp hnew]
        exact planAdmission_wellPlanned hplan
  | commit i =>
    rw [ArbiterRun.step]
    cases hplan : s.plans[i]? with
    | none => exact h
    | some plan =>
      exact ⟨h.arbiter.commitAdmission (h.plans plan (mem_of_getElem? hplan)), h.plans⟩
  | activate model => exact ⟨h.arbiter.activate model, h.plans⟩
  | release model => exact ⟨h.arbiter.release model, h.plans⟩
  | markUnloaded model => exact ⟨h.arbiter.markUnloaded model, h.plans⟩
  | resetWorkerGpuModels => exact ⟨h.arbiter.resetWorkerGpuModels, h.plans⟩

theorem sound_run (ceiling : ℕ) (ops : List ArbiterOp) :
    (run step ⟨.withCeilingMib ceiling, []⟩ ops).Sound ceiling :=
  run_invariant (Sound · ceiling) (fun _ op h => h.step op) ops
    ⟨sound_withCeilingMib ceiling, fun _ hmem => absurd hmem not_mem_nil⟩

end ArbiterRun

/-- **The arbiter over all runs.**  Whatever plans are computed and committed, in whatever
order with the leases and the unloads, what is resident fits under the ceiling and what
is in use is resident.  No commit, of a plan of the run or of any other, unloads a model
in use or changes anything when it fails, and a plan is refused only if the request would
not fit beside the models that are not idle. -/
theorem arbiter_within_ceiling (ceiling : ℕ) (ops : List ArbiterOp) :
    let a := (run ArbiterRun.step ⟨.withCeilingMib ceiling, []⟩ ops).arbiter
    a.residentVramMib ≤ ceiling ∧
      (∀ model, a.isActive model → a.isLoaded model) ∧
      (∀ plan model, a.isActive model → (a.commitAdmission plan).1.isLoaded model) ∧
      (∀ plan error, (a.commitAdmission plan).2 = .error error →
        (a.commitAdmission plan).1 = a) ∧
      ∀ requested error, a.planAdmission requested = .error error →
        ceiling < a.withoutIdle.residentVramMib + requested.vramMib := by
  intro a
  have hsound : a.Sound ceiling := (ArbiterRun.sound_run ceiling ops).arbiter
  refine ⟨hsound.fits, hsound.loaded, fun plan model hactive => ?_, fun plan error herror => ?_,
    fun requested error herror => ?_⟩
  · exact a.commitAdmission_keeps_active plan hactive (hsound.loaded model hactive)
  · exact commitAdmission_error herror
  · rw [← hsound.unchanged]
    exact planAdmission_error herror

end PersonalAgent.Audio
