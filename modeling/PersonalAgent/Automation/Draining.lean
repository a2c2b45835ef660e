/-
# Starting what is queued

`apps/desktop/src-tauri/src/automation_host.rs`: `drain_queued` reads the configured maximum,
lists as many queued runs as there are places, and after it has given the scheduler's lock back
it starts them one by one.  A start that is rejected ends the pass.

Between its list and its last start a pass knows nothing of what other passes start, so two of
them can fill the same places; and a run whose automation is at its own limit stands in the list
in the place of one that could be started, and ends the pass (`rejected_run_starves_others`).
-/

import PersonalAgent.Automation.Concurrency

namespace PersonalAgent.Automation

open Lib List SchedulerSnapshot

/-! ### Counting runs -/

/-- `Running | WaitingApproval`. -/
def AutomationRunStatus.isActive (status : AutomationRunStatus) : Bool :=
  status == .running || status == .waitingApproval

namespace SchedulerSnapshot

/-- The runs that take one of the configured places. -/
def activeRuns (s : SchedulerSnapshot) : BTreeMap String AutomationRun :=
  s.runs.filter fun _ run => run.status.isActive

def queuedRuns (s : SchedulerSnapshot) : BTreeMap String AutomationRun :=
  s.runs.filter fun _ run => run.status == .queued

/-- The runs a pass lists: in the order of their keys, as many as there are places. -/
def listed (s : SchedulerSnapshot) (maximum : ℕ) : List String :=
  (s.queuedRuns.toList.take (maximum - s.activeRuns.size)).map fun entry => entry.2.scheduleKey

end SchedulerSnapshot

/-! ### Passes -/

/-- Where a call of `drain_queued` is. -/
inductive DrainPass where
  | idle
  /-- It has read the maximum. -/
  | listing (maximum : ℕ)
  /-- It has still to start these runs. -/
  | starting (keys : List String)
  deriving DecidableEq, Repr

/-- A pass that has these runs left to start; without any it is over. -/
def DrainPass.of : List String → DrainPass
  | [] => .idle
  | keys => .starting keys

structure AutomationHost where
  scheduler : SchedulerSnapshot
  /-- `automation.max_concurrency` of the settings. -/
  maximum : ℕ
  pass : ℕ → DrainPass

/-- One step of the host. -/
inductive HostStep where
  /-- A call of the scheduler by anything but a pass, which are the only ones that start runs. -/
  | call (op : SchedulerOp)
  | configure (maximum : ℕ)
  /-- Pass `i` reads the maximum. -/
  | read (i : ℕ)
  /-- It lists the runs, under the scheduler's lock. -/
  | list (i : ℕ)
  /-- It starts the next run. -/
  | start (i : ℕ) (clock : Instant)

namespace AutomationHost

variable [ChronoSeconds] (h : AutomationHost)

def setPass (i : ℕ) (pass : DrainPass) : AutomationHost :=
  { h with pass := Function.update h.pass i pass }

def callOther : SchedulerOp → AutomationHost
  | .start _ _ => h
  | op => { h with scheduler := h.scheduler.apply op }

def read (i : ℕ) : AutomationHost :=
  match h.pass i with
  | .idle => h.setPass i (.listing h.maximum)
  | _ => h

def list (i : ℕ) : AutomationHost :=
  match h.pass i with
  | .listing maximum => h.setPass i (.of (h.scheduler.listed maximum))
  | _ => h

/-- One turn of the loop; `?` leaves it with the error of a rejected start. -/
def startNext (i : ℕ) (clock : Instant) : AutomationHost :=
  match h.pass i with
  | .starting (key :: rest) =>
    match h.scheduler.start key clock with
    | (scheduler, .ok ()) => { h with scheduler }.setPass i (.of rest)
    | (scheduler, .error _) => { h with scheduler }.setPass i .idle
  | _ => h

def step : HostStep → AutomationHost
  | .call op => h.callOther op
  | .configure maximum => { h with maximum }
  | .read i => h.read i
  | .list i => h.list i
  | .start i clock => h.startNext i clock

/-- No automation is stored and no pass is under way. -/
def initial (maximum : ℕ) : AutomationHost := ⟨{}, maximum, fun _ => .idle⟩

/-- The next run of pass `i` is accepted by `Scheduler::start`. -/
def Accepts (i : ℕ) (clock : Instant) : Prop :=
  match h.pass i with
  | .starting (key :: _) => (h.scheduler.start key clock).2 = .ok ()
  | _ => False

/-- Passes do not overlap, the maximum is changed between passes, and what a pass starts is
accepted. -/
def Orderly : HostStep → Prop
  | .read _ | .configure _ => ∀ j, h.pass j = .idle
  | .start i clock => ∀ keys, h.pass i = .starting keys → h.Accepts i clock
  | _ => True

end AutomationHost

/-! ### What a call does to the counts -/

/-- A run becomes active by being started. -/
theorem Transition.active {key : String} {op : SchedulerOp} {standing standing' : Standing}
    (h : Transition key op standing standing') (hactive : standing'.1.isActive = true) :
    standing.1.isActive = true ∨ ∃ clock, op = .start key clock := by
  cases h with
  | stay => exact .inl hactive
  | start clock => exact .inr ⟨clock, rfl⟩
  | wait | bind | resume | preempt => exact .inl rfl
  | finish success => cases success <;> cases hactive
  | approve | fail | recover => cases hactive

namespace SchedulerSnapshot

variable {s : SchedulerSnapshot} {op : SchedulerOp} {key : String} {clock : Instant}

theorem mem_activeRuns : key ∈ s.activeRuns ↔
    ∃ run, s.runs[key]? = some run ∧ run.status.isActive = true := by
  rw [Std.ExtTreeMap.mem_iff_isSome_getElem?, activeRuns,
    getElem?_filter_eq s.runs (·.status.isActive)]
  cases s.runs[key]? with
  | none => simp
  | some run => simp [Option.filter, Option.isSome_ite]

theorem size_activeRuns_apply [ChronoSeconds] (hs : s.Sound)
    (hop : ∀ key clock, op ≠ .start key clock) :
    (s.apply op).activeRuns.size ≤ s.activeRuns.size := by
  refine size_le_size fun key hkey => ?_
  obtain ⟨run, hrun, hactive⟩ := mem_activeRuns.mp hkey
  rcases hs.run_cases hrun with ⟨run₀, hold, hcontinues⟩ | ⟨-, henqueued⟩
  · rcases hcontinues.standing.active hactive with hbefore | ⟨clock, heq⟩
    · exact mem_activeRuns.mpr ⟨run₀, hold, hbefore⟩
    · exact absurd heq (hop key clock)
  · have hstatus := henqueued.status
    simp only [mem_cons, not_mem_nil, or_false] at hstatus
    rcases hstatus with hstatus | hstatus <;> rw [hstatus] at hactive <;> cases hactive

theorem mem_queuedRuns : key ∈ s.queuedRuns ↔
    ∃ run, s.runs[key]? = some run ∧ run.status = .queued := by
  rw [Std.ExtTreeMap.mem_iff_isSome_getElem?, queuedRuns,
    getElem?_filter_eq s.runs (·.status == .queued)]
  cases s.runs[key]? with
  | none => simp
  | some run => simp [Option.filter, Option.isSome_ite]

theorem sizes_start (h : (s.start key clock).2 = .ok ()) :
    (s.start key clock).1.activeRuns.size = s.activeRuns.size + 1 ∧
      (s.start key clock).1.queuedRuns.size + 1 = s.queuedRuns.size := by
  rcases s.start_cases key clock with ⟨error, heq⟩ | ⟨run, a, hrun, -, -, hstatus, heq⟩
  · rw [heq] at h
    cases h
  rw [heq]
  constructor
  · have hnot : key ∉ s.activeRuns := by
      intro hmem
      obtain ⟨run', hrun', hactive⟩ := mem_activeRuns.mp hmem
      cases hrun.symm.trans hrun'
      rw [hstatus] at hactive
      cases hactive
    rw [activeRuns, filter_insert_of_pos s.runs (p := (·.status.isActive)) key rfl,
      Std.ExtTreeMap.size_insert]
    exact if_neg hnot
  · have hmem : key ∈ s.queuedRuns := mem_queuedRuns.mpr ⟨run, hrun, hstatus⟩
    rw [queuedRuns, filter_insert_of_neg s.runs (p := (·.status == .queued)) key rfl,
      Std.ExtTreeMap.size_erase]
    change (if s.queuedRuns.contains key = true then s.queuedRuns.size - 1 else _) + 1 = _
    rw [if_pos (Std.ExtTreeMap.mem_iff_contains.mp hmem)]
    have hpos : 0 < s.queuedRuns.size := by
      rw [← Std.ExtTreeMap.length_keys]
      exact length_pos_of_mem (Std.ExtTreeMap.mem_keys.mpr hmem)
    exact Nat.sub_add_cancel hpos

theorem queued_of_accepted (h : (s.start key clock).2 = .ok ()) : key ∈ s.queuedRuns := by
  rcases s.start_cases key clock with ⟨error, heq⟩ | ⟨run, a, hrun, -, -, hstatus, -⟩
  · rw [heq] at h
    cases h
  · exact mem_queuedRuns.mpr ⟨run, hrun, hstatus⟩

theorem length_listed (s : SchedulerSnapshot) (maximum : ℕ) :
    (s.listed maximum).length = min (maximum - s.activeRuns.size) s.queuedRuns.size := by
  rw [listed, length_map, length_take, Std.ExtTreeMap.length_toList]

end SchedulerSnapshot

/-! ### Runs of the host -/

namespace AutomationHost

section

variable {h : AutomationHost} {i : ℕ} {clock : Instant}

/-- The runs a pass has left to start, counted with those that take places. -/
structure Within (h : AutomationHost) : Prop where
  sound : h.scheduler.Sound
  listing : ∀ i maximum, h.pass i = .listing maximum → maximum = h.maximum
  starting : ∀ i keys, h.pass i = .starting keys →
    h.scheduler.activeRuns.size + keys.length ≤ h.maximum
  /-- At most one pass is under way. -/
  single : ∀ i j, h.pass i ≠ .idle → h.pass j ≠ .idle → i = j

theorem within_initial (maximum : ℕ) : (initial maximum).Within where
  sound := sound_empty
  listing := fun _ _ hpass => by cases hpass
  starting := fun _ _ hpass => by cases hpass
  single := fun _ _ hpass => absurd rfl hpass

theorem pass_setPass_self {pass : DrainPass} : (h.setPass i pass).pass i = pass :=
  Function.update_self i _ h.pass

theorem pass_setPass_of_ne {j : ℕ} {pass : DrainPass} (hj : j ≠ i) :
    (h.setPass i pass).pass j = h.pass j :=
  Function.update_of_ne hj _ h.pass

/-- Pass `i`, the only one under way, goes on, and the scheduler may have changed. -/
theorem Within.advance {scheduler : SchedulerSnapshot} {pass : DrainPass}
    (hsound : scheduler.Sound) (hothers : ∀ j, j ≠ i → h.pass j = .idle)
    (hlisting : ∀ maximum, pass = .listing maximum → maximum = h.maximum)
    (hstarting : ∀ keys, pass = .starting keys →
      scheduler.activeRuns.size + keys.length ≤ h.maximum) :
    ({ h with scheduler := scheduler }.setPass i pass).Within where
  sound := hsound
  listing := by
    intro j maximum hj
    by_cases hji : j = i
    · subst hji
      rw [pass_setPass_self] at hj
      exact hlisting maximum hj
    · rw [pass_setPass_of_ne hji] at hj
      cases (hothers j hji).symm.trans hj
  starting := by
    intro j keys hj
    by_cases hji : j = i
    · subst hji
      rw [pass_setPass_self] at hj
      exact hstarting keys hj
    · rw [pass_setPass_of_ne hji] at hj
      cases (hothers j hji).symm.trans hj
  single := by
    have honly (j : ℕ)
        (hj : ({ h with scheduler := scheduler }.setPass i pass).pass j ≠ .idle) : j = i := by
      by_contra hji
      rw [pass_setPass_of_ne hji] at hj
      exact hj (hothers j hji)
    exact fun j k hj hk => (honly j hj).trans (honly k hk).symm

/-- The other passes are idle while one is under way. -/
theorem Within.others (hw : h.Within) (hpass : h.pass i ≠ .idle) (j : ℕ) (hj : j ≠ i) :
    h.pass j = .idle := by
  by_contra hbusy
  exact hj (hw.single j i hbusy hpass)

theorem Within.callOther [ChronoSeconds] (hw : h.Within) (op : SchedulerOp) :
    (h.callOther op).Within := by
  by_cases hstart : ∃ key clock, op = .start key clock
  · obtain ⟨key, clock, rfl⟩ := hstart
    exact hw
  · have hop : ∀ key clock, op ≠ .start key clock := fun key clock heq => hstart ⟨key, clock, heq⟩
    have hcall : h.callOther op = { h with scheduler := h.scheduler.apply op } := by
      cases op with
      | start key clock => exact absurd rfl (hop key clock)
      | _ => rfl
    rw [hcall]
    refine ⟨sound_apply hw.sound op, hw.listing, fun i keys hpass => ?_,
      hw.single⟩
    have hle := size_activeRuns_apply hw.sound hop
    have hbound := hw.starting i keys hpass
    change (h.scheduler.apply op).activeRuns.size + keys.length ≤ h.maximum
    omega

theorem Within.read (hw : h.Within) (hidle : ∀ j, h.pass j = .idle) : (h.read i).Within := by
  unfold AutomationHost.read
  rw [hidle i]
  exact Within.advance hw.sound (fun j _ => hidle j) (fun _ hpass => by cases hpass; rfl)
    fun _ hpass => by cases hpass

theorem of_eq_starting {keys keys' : List String} (h : DrainPass.of keys = .starting keys') :
    keys' = keys ∧ keys ≠ [] := by
  cases keys with
  | nil => cases h
  | cons =>
    cases h
    exact ⟨rfl, nofun⟩

theorem of_ne_listing {keys : List String} {maximum : ℕ} :
    DrainPass.of keys ≠ .listing maximum := by
  cases keys <;> exact nofun

/-- A pass lists no more runs than there are places. -/
theorem Within.list (hw : h.Within) : (h.list i).Within := by
  unfold AutomationHost.list
  split
  case h_2 => exact hw
  case h_1 maximum hpass =>
    have hmaximum := hw.listing i maximum hpass
    refine Within.advance hw.sound (hw.others (by rw [hpass]; exact nofun))
      (fun _ hof => absurd hof of_ne_listing) fun keys hof => ?_
    obtain ⟨rfl, hsome⟩ := of_eq_starting hof
    have hpos := length_pos_iff.mpr hsome
    have hlength := h.scheduler.length_listed maximum
    omega

theorem accepts_starting {key : String} {rest : List String}
    (hpass : h.pass i = .starting (key :: rest)) :
    h.Accepts i clock ↔ (h.scheduler.start key clock).2 = .ok () := by
  rw [Accepts, hpass]

theorem startNext_accepted {key : String} {rest : List String}
    (hpass : h.pass i = .starting (key :: rest)) (haccepts : h.Accepts i clock) :
    h.startNext i clock =
      { h with scheduler := (h.scheduler.start key clock).1 }.setPass i (.of rest) := by
  have hok := (accepts_starting hpass).mp haccepts
  rw [startNext, hpass]
  dsimp only
  rcases hstart : h.scheduler.start key clock with ⟨scheduler, result⟩
  rw [hstart] at hok
  cases hok
  rfl

variable [ChronoSeconds]

/-- An accepted start takes one of the places the pass has counted. -/
theorem Within.startNext (hw : h.Within)
    (haccepts : ∀ keys, h.pass i = .starting keys → h.Accepts i clock) :
    (h.startNext i clock).Within := by
  rcases hpass : h.pass i with _ | maximum | _ | ⟨key, rest⟩
  · rwa [AutomationHost.startNext, hpass]
  · rwa [AutomationHost.startNext, hpass]
  · rwa [AutomationHost.startNext, hpass]
  · have hok := haccepts _ hpass
    have hsizes := sizes_start ((accepts_starting hpass).mp hok)
    have hbound := hw.starting i _ hpass
    rw [startNext_accepted hpass hok]
    have hsound : (h.scheduler.start key clock).1.Sound :=
      sound_apply hw.sound (.start key clock)
    refine Within.advance hsound (hw.others (by rw [hpass]; exact nofun))
      (fun _ hof => absurd hof of_ne_listing) fun keys hof => ?_
    obtain ⟨rfl, -⟩ := of_eq_starting hof
    rw [length_cons] at hbound
    omega

theorem Within.step (hw : h.Within) {s : HostStep} (hs : h.Orderly s) : (h.step s).Within := by
  cases s with
  | call op => exact hw.callOther op
  | configure maximum =>
    refine ⟨hw.sound, fun i _ hpass => ?_, fun i _ hpass => ?_, hw.single⟩
    · cases (hs i).symm.trans hpass
    · cases (hs i).symm.trans hpass
  | read i => exact hw.read hs
  | list i => exact hw.list
  | start i clock => exact hw.startNext hs

/-! ### One pass -/

/-- The starts of a pass that is alone move its runs, one by one, from the queued to the active
ones. -/
theorem sizes_starts (clocks : List Instant) (keys : List String) (hpass : h.pass i = .of keys)
    (hs : Along step Orderly h (clocks.map (.start i)))
    (hover : (run step h (clocks.map (.start i))).pass i = .idle) :
    let final := run step h (clocks.map (.start i))
    final.maximum = h.maximum ∧
      final.scheduler.activeRuns.size = h.scheduler.activeRuns.size + keys.length ∧
      final.scheduler.queuedRuns.size + keys.length = h.scheduler.queuedRuns.size := by
  induction clocks generalizing h keys with
  | nil =>
    cases keys with
    | nil => exact ⟨rfl, rfl, rfl⟩
    | cons => cases hpass.symm.trans hover
  | cons clock clocks ih =>
    obtain ⟨hfirst, hrest⟩ := hs
    cases keys with
    | nil =>
      have hsame : h.step (.start i clock) = h := by
        rw [AutomationHost.step, startNext, hpass]
        rfl
      rw [hsame] at hrest
      simp only [map_cons, run_cons, hsame] at hover ⊢
      exact ih [] hpass hrest hover
    | cons key keys =>
      have haccepts := hfirst _ hpass
      have hstep := startNext_accepted hpass haccepts
      obtain ⟨hactive, hqueued⟩ :=
        sizes_start ((accepts_starting hpass).mp haccepts)
      have hthen := ih keys (h := h.step (.start i clock))
        (by rw [AutomationHost.step, hstep]; exact pass_setPass_self) hrest hover
      rw [AutomationHost.step, hstep] at hthen
      obtain ⟨hmaximum, hactive', hqueued'⟩ := hthen
      simp only [map_cons, run_cons, AutomationHost.step, hstep, length_cons]
      refine ⟨hmaximum, ?_, ?_⟩
      · rw [hactive']
        change (h.scheduler.start key clock).1.activeRuns.size + keys.length = _
        omega
      · change _ + keys.length = (h.scheduler.start key clock).1.queuedRuns.size at hqueued'
        omega

/-- A pass that nothing comes between fills the places, or leaves nothing that could start. -/
theorem drained_of_alone (clocks : List Instant) (hidle : h.pass i = .idle)
    (hs : Along step Orderly h (.read i :: .list i :: clocks.map (.start i)))
    (hover : (run step h (.read i :: .list i :: clocks.map (.start i))).pass i = .idle) :
    let final := run step h (.read i :: .list i :: clocks.map (.start i))
    final.maximum ≤ final.scheduler.activeRuns.size ∨
      ∀ key clock, (final.scheduler.start key clock).2 ≠ .ok () := by
  have hlisted : (h.step (.read i)).step (.list i) =
      (h.setPass i (.listing h.maximum)).setPass i (.of (h.scheduler.listed h.maximum)) := by
    simp only [AutomationHost.step, AutomationHost.read, hidle, AutomationHost.list,
      pass_setPass_self]
    rfl
  obtain ⟨-, -, hstarts⟩ := hs
  rw [run_cons, run_cons] at hover ⊢
  obtain ⟨hmaximum, hactive, hqueued⟩ := sizes_starts clocks (h.scheduler.listed h.maximum)
    (by rw [hlisted]; exact pass_setPass_self) hstarts hover
  have hlength := h.scheduler.length_listed h.maximum
  generalize hfinal : run step ((h.step (.read i)).step (.list i)) _ = final at *
  rw [hlisted] at hmaximum hactive hqueued
  change final.maximum = h.maximum at hmaximum
  change _ = h.scheduler.activeRuns.size + _ at hactive
  change _ = h.scheduler.queuedRuns.size at hqueued
  rcases Nat.lt_or_ge (h.maximum - h.scheduler.activeRuns.size) h.scheduler.queuedRuns.size
    with hfull | hall
  · left
    omega
  · right
    intro key clock haccepted
    have hmem := queued_of_accepted haccepted
    have hpos : 0 < final.scheduler.queuedRuns.size := by
      rw [← Std.ExtTreeMap.length_keys]
      exact length_pos_of_mem (Std.ExtTreeMap.mem_keys.mpr hmem)
    omega

/-- **Queued runs are neither starved nor started beyond the maximum,** if passes do not overlap,
the maximum is changed only between them, and each run that a pass has listed is accepted when its
turn comes: no start raises the number of active runs above the maximum, and a pass that nothing
comes between ends with the maximum reached or with no run left that could be started. -/
theorem drained_within_maximum (maximum : ℕ) (steps : List HostStep)
    (hs : Along step Orderly (initial maximum) steps) :
    (∀ before i clock after, steps = before ++ .start i clock :: after →
        (run step (initial maximum) before).Accepts i clock →
          ((run step (initial maximum) before).step
              (.start i clock)).scheduler.activeRuns.size
            ≤ (run step (initial maximum) before).maximum) ∧
      (∀ before i (clocks : List Instant),
        steps = before ++ .read i :: .list i :: clocks.map (.start i) →
          (run step (initial maximum) before).pass i = .idle →
            (run step (initial maximum) steps).pass i = .idle →
              (run step (initial maximum) steps).maximum
                  ≤ (run step (initial maximum) steps).scheduler.activeRuns.size ∨
                ∀ key clock,
                  ((run step (initial maximum) steps).scheduler.start key clock).2 ≠ .ok ()) := by
  constructor
  · intro before i clock after hsteps haccepts
    rw [hsteps, along_append] at hs
    have hw := hs.1.invariant Within (fun _ _ hok hw => hw.step hok) (within_initial maximum)
    generalize run step (initial maximum) before = h at *
    rcases hpass : h.pass i with _ | _ | _ | ⟨key, rest⟩
    case starting.cons =>
      have hsizes := sizes_start ((accepts_starting hpass).mp haccepts)
      have hbound := hw.starting i _ hpass
      rw [AutomationHost.step, startNext_accepted hpass haccepts]
      change (h.scheduler.start key clock).1.activeRuns.size ≤ _
      rw [length_cons] at hbound
      omega
    all_goals
      rw [Accepts, hpass] at haccepts
      exact haccepts.elim
  · intro before i clocks hsteps hidle hover
    rw [hsteps, along_append] at hs
    rw [hsteps, run_append] at hover ⊢
    exact drained_of_alone clocks hidle hs.2 hover

end

/-! ### Passes that do not drain -/

section Examples

attribute [local instance] plainSeconds

open SchedulerSnapshot (briefing second)

/-- Two automations that run one at a time are stored. -/
def twoAutomations : List HostStep :=
  [.call (.upsert (briefing 1 (.interval 60) none)),
    .call (.upsert (briefing 2 (.interval 60) none))]

/-- Automation `id` is asked to run, at the fifth second. -/
def asked (id nonce : Uuid) : HostStep := .call (.runNow (fun _ => nonce) id (second 5) nonce)

/-- One pass that starts what it has listed at the sixth second. -/
def passOf (i starts : ℕ) : List HostStep :=
  .read i :: .list i :: (List.replicate starts (second 6)).map (.start i)

instance (h : AutomationHost) (i : ℕ) (clock : Instant) : Decidable (h.Accepts i clock) := by
  unfold Accepts
  split <;> infer_instance

def bothAsked : List HostStep := twoAutomations ++ [asked 1 7, asked 2 8]

/-- One pass starts both runs that were asked for, and leaves a place free. -/
theorem drained_within_maximum_both :
    (run step (initial 3) (bothAsked ++ passOf 0 2)).scheduler.activeRuns.size = 2 ∧
      ∀ key clock,
        ((run step (initial 3) (bothAsked ++ passOf 0 2)).scheduler.start key clock).2 ≠
          .ok () := by
  have hactive :
      (run step (initial 3) (bothAsked ++ passOf 0 2)).scheduler.activeRuns.size = 2 := by
    decide +kernel
  have hfirst : (run step (initial 3) (bothAsked ++ passOf 0 0)).Accepts 0 (second 6) := by
    decide +kernel
  have hsecond : (run step (initial 3) (bothAsked ++ passOf 0 1)).Accepts 0 (second 6) := by
    decide +kernel
  have horderly : Along step Orderly (initial 3) (bothAsked ++ passOf 0 2) :=
    ⟨trivial, trivial, trivial, trivial, fun _ => rfl, trivial, fun _ _ => hfirst,
      fun _ _ => hsecond, trivial⟩
  refine ⟨hactive, ((drained_within_maximum 3 _ horderly).2 bothAsked 0 [second 6, second 6] rfl rfl
    (by decide +kernel)).resolve_left fun hfull => ?_⟩
  rw [hactive] at hfull
  exact absurd hfull (by decide +kernel)

/-- The first automation runs and is asked to run again, before the second is asked. -/
def saturated : List HostStep :=
  twoAutomations ++ [asked 1 7] ++ passOf 0 1 ++ [asked 1 8, asked 2 9] ++ passOf 0 1

/-- **A rejected run starves the others.**  The pass is over after one rejected start.  One run is
active of three that may be, and the run of the second automation would be accepted. -/
theorem rejected_run_starves_others :
    (run step (initial 3) saturated).pass 0 = .idle ∧
      (run step (initial 3) saturated).scheduler.activeRuns.size = 1 ∧
      ((run step (initial 3) saturated).scheduler.start
        (manualKey 2 (second 5) 9) (second 7)).2 = .ok () := by
  decide +kernel

end Examples

end AutomationHost

end PersonalAgent.Automation
