/-
# Batching of checkpoint updates

Debounced persistence hands the events of a goal over in batches, and a batch whose write
failed or was raced comes again.  The row does not show it: it is that of a single update
with all events and the last snapshot (`Schedule.updatedRow`).

An update sorts its events and skips those its row accounts for (`fresh`), so on distinct
sequences it comes down to following the rest in order (`updatedRow_ok_iff`).  Following
reads the snapshot of a row nowhere (`follow_append`), which is why the last one is all
that remains of the snapshots.
-/

import PersonalAgent.Storage.CheckpointUpdates

namespace PersonalAgent.Storage

open Lib List

open Agent

/-- An event an update of the goal does not refuse. -/
def Accepted (goalId : Uuid) (event : EventEnvelope) : Prop :=
  validateEvent event = .ok () ∧ event.goalId = some (.uuid goalId)

/-- The events a row does not account for. -/
def fresh (row : Option SupervisorRecoveryCheckpoint) (events : List EventEnvelope) :
    List EventEnvelope :=
  events.filter fun event => !row.any (event.monotonicSequence ≤ ·.lastSequence)

/-- Move a row over events, one after the other. -/
def follow (snapshot : SupervisorSnapshot) (row : Option SupervisorRecoveryCheckpoint)
    (events : List EventEnvelope) : Except StorageError (Option SupervisorRecoveryCheckpoint) :=
  events.foldlM (fun row event => some <$> evolveSupervisorCheckpoint row snapshot event) row

variable {goalId : Uuid} {snapshot snapshot' : SupervisorSnapshot}
  {row row' : Option SupervisorRecoveryCheckpoint} {events events' : List EventEnvelope}
  {c : SupervisorRecoveryCheckpoint}

/-! ### Following events -/

variable {event : EventEnvelope} {state : Option SupervisorRecoveryCheckpoint × Bool}
  {updates : List SupervisorCheckpointUpdate} {update : SupervisorCheckpointUpdate}

theorem follow_cons_ok (h : follow snapshot row (event :: events) = .ok row') :
    ∃ c, evolveSupervisorCheckpoint row snapshot event = .ok c ∧
      follow snapshot (some c) events = .ok row' := by
  obtain ⟨row₁, hrow₁, h⟩ := bind_ok_iff.mp h
  obtain ⟨c, hc, rfl⟩ := map_ok_iff.mp hrow₁
  exact ⟨c, hc, h⟩

theorem follow_cons (h : evolveSupervisorCheckpoint row snapshot event = .ok c) :
    follow snapshot row (event :: events) = follow snapshot (some c) events := by
  rw [follow, foldlM_cons, h]
  rfl

theorem follow_ends (h : follow snapshot row (events ++ [event]) = .ok row') :
    ∃ c, row' = some c ∧ c.snapshot = snapshot ∧ c.lastSequence = event.monotonicSequence := by
  rw [follow, foldlM_append] at h
  obtain ⟨row₁, -, h⟩ := bind_ok_iff.mp h
  obtain ⟨c, hc, h⟩ := follow_cons_ok h
  obtain ⟨hsnapshot, hseq, -⟩ := evolve_ok hc
  exact ⟨c, (pure_ok_iff.mp h).symm, hsnapshot, hseq⟩

def relabel (snapshot : SupervisorSnapshot) (row : Option SupervisorRecoveryCheckpoint) :
    Option SupervisorRecoveryCheckpoint :=
  row.map ({ · with snapshot := snapshot })

/-- A step of the row does not read its snapshot. -/
theorem evolve_relabel (event : EventEnvelope) :
    evolveSupervisorCheckpoint (relabel snapshot' row) snapshot event =
      evolveSupervisorCheckpoint row snapshot event := by
  cases row with
  | none => rfl
  | some c => rfl

theorem evolve_snapshot (snapshot snapshot' : SupervisorSnapshot) (event : EventEnvelope) :
    some <$> evolveSupervisorCheckpoint row snapshot' event =
      relabel snapshot' <$> some <$> evolveSupervisorCheckpoint row snapshot event := by
  unfold evolveSupervisorCheckpoint
  cases event.payloadJson with
  | none => rfl
  | some payload =>
    cases row with
    | none => rfl
    | some c => rfl

theorem follow_relabel (snapshot snapshot' : SupervisorSnapshot) :
    follow snapshot' (relabel snapshot' row) events =
      relabel snapshot' <$> follow snapshot row events := by
  induction events generalizing row with
  | nil => rfl
  | cons event events ih =>
    rw [follow, foldlM_cons, evolve_relabel, evolve_snapshot snapshot,
      follow, foldlM_cons]
    cases evolveSupervisorCheckpoint row snapshot event with
    | error e => rfl
    | ok c => exact @ih (some c)

theorem follow_append (snapshot snapshot' : SupervisorSnapshot)
    (hlast : events' = [] → events = []) :
    follow snapshot' row (events ++ events') =
      follow snapshot row events >>= fun row => follow snapshot' row events' := by
  rcases eq_or_ne events' [] with hnil | hne
  · rw [hlast hnil, hnil]
    rfl
  have hread (row : Option SupervisorRecoveryCheckpoint) {events : List EventEnvelope}
      (hne : events ≠ []) :
      follow snapshot' (relabel snapshot' row) events = follow snapshot' row events := by
    cases events with
    | nil => exact absurd rfl hne
    | cons event events => rw [follow, foldlM_cons, evolve_relabel, follow, foldlM_cons]
  rw [← hread row (append_ne_nil_of_right_ne_nil _ hne), follow, foldlM_append]
  change (follow snapshot' (relabel snapshot' row) events >>= _) = _
  rw [follow_relabel snapshot]
  cases follow snapshot row events with
  | error e => rfl
  | ok row₁ => exact hread row₁ hne

/-! ### One update -/

theorem fresh_append : fresh row (events ++ events') = fresh row events ++ fresh row events' :=
  filter_append ..

/-- A row that stands before an event accounts for none of those after it. -/
theorem fresh_of_lt (h : ∀ e ∈ events, c.lastSequence < e.monotonicSequence) :
    fresh (some c) events = events := by
  refine filter_eq_self.mpr fun e he => ?_
  simpa using h e he

/-- One event of an update: it is checked, and followed unless the row accounts for it. -/
theorem advance_ok_iff {b : Bool} :
    advanceCheckpoint snapshot (row, b) event = .ok state ↔
      Accepted snapshot.graph.goalId event ∧
        if row.any (event.monotonicSequence ≤ ·.lastSequence) then (row, b) = state
        else ∃ c, evolveSupervisorCheckpoint row snapshot event = .ok c ∧
          (some c, true) = state := by
  rw [advanceCheckpoint, bind_ok_iff, Accepted]
  by_cases hgoal : event.goalId = some (.uuid snapshot.graph.goalId)
  · rw [if_neg (not_not_intro hgoal)]
    have hunit (p : Prop) : (∃ a : Unit, validateEvent event = .ok a ∧ p) ↔
        (validateEvent event = .ok () ∧ event.goalId = some (.uuid snapshot.graph.goalId)) ∧ p :=
      ⟨fun ⟨(), hvalid, hp⟩ => ⟨⟨hvalid, hgoal⟩, hp⟩, fun ⟨⟨hvalid, _⟩, hp⟩ => ⟨(), hvalid, hp⟩⟩
    split_ifs
    · rw [hunit, pure_ok_iff]
    · simp only [hunit, bind_ok_iff, pure_ok_iff]
  · simp [hgoal]

/-- **The loop of an update.**  Over events in order it checks all of them and follows
those the row does not account for. -/
theorem foldlM_advance_iff {b : Bool}
    (hsorted : events.Pairwise (·.monotonicSequence < ·.monotonicSequence)) :
    events.foldlM (advanceCheckpoint snapshot) (row, b) = .ok state ↔
      (∀ e ∈ events, Accepted snapshot.graph.goalId e) ∧
        follow snapshot row (fresh row events) = .ok state.1 ∧
          (b || !(fresh row events).isEmpty) = state.2 := by
  induction events generalizing row b with
  | nil =>
    rw [foldlM_nil, pure_ok_iff, Prod.ext_iff]
    simp [fresh, follow, pure_ok_iff]
  | cons event events ih =>
    obtain ⟨hlt, hsorted⟩ := pairwise_cons.mp hsorted
    rw [foldlM_cons, bind_ok_iff, forall_mem_cons]
    by_cases hskip : row.any (event.monotonicSequence ≤ ·.lastSequence)
    · have hfresh : fresh row (event :: events) = fresh row events := by
        rw [fresh, filter_cons_of_neg (by simp [hskip]), fresh]
      simp only [advance_ok_iff, hskip, if_true, hfresh, and_assoc, exists_and_left,
        exists_eq_left', ih hsorted]
    · -- from here on the row stands below all events that follow
      have hrest (c : SupervisorRecoveryCheckpoint)
          (hc : c.lastSequence = event.monotonicSequence) :
          fresh (some c) events = events :=
        fresh_of_lt fun e he => hc ▸ hlt e he
      have hfresh : fresh row (event :: events) = event :: events := by
        cases row with
        | none => simp [fresh]
        | some c =>
          have hc : c.lastSequence < event.monotonicSequence := by simpa using hskip
          exact fresh_of_lt (forall_mem_cons.mpr ⟨hc, fun e he => hc.trans (hlt e he)⟩)
      rw [hfresh]
      constructor
      · rintro ⟨state₁, hstep, hfold⟩
        obtain ⟨haccepted, hstep⟩ := advance_ok_iff.mp hstep
        rw [if_neg hskip] at hstep
        obtain ⟨c, hc, rfl⟩ := hstep
        obtain ⟨hall, hfollow, hflag⟩ := (ih hsorted).mp hfold
        rw [hrest c (evolve_ok hc).2.1] at hfollow
        exact ⟨⟨haccepted, hall⟩, (follow_cons hc).trans hfollow, by simpa using hflag⟩
      · rintro ⟨⟨haccepted, hall⟩, hfollow, hflag⟩
        obtain ⟨c, hc, hfollow⟩ := follow_cons_ok hfollow
        refine ⟨(some c, true), advance_ok_iff.mpr ⟨haccepted, ?_⟩,
          (ih hsorted).mpr ⟨hall, ?_, by simpa using hflag⟩⟩
        · rw [if_neg hskip]
          exact ⟨c, hc, rfl⟩
        · rw [hrest c (evolve_ok hc).2.1]
          exact hfollow

theorem mem_sortedBySequence :
    event ∈ sortedBySequence events ↔ event ∈ events := mem_insertionSort _

theorem sortedBySequence_ne_nil (hne : events ≠ []) : sortedBySequence events ≠ [] := fun hnil =>
  hne (perm_nil.mp (hnil ▸ (perm_insertionSort _ events).symm))

theorem sorted_sortedBySequence (hnodup : (events.map (·.monotonicSequence)).Nodup) :
    (sortedBySequence events).Pairwise (·.monotonicSequence < ·.monotonicSequence) := by
  have hperm : (sortedBySequence events).Perm events := perm_insertionSort _ _
  have hne := pairwise_map.mp ((hperm.map (·.monotonicSequence)).nodup_iff.mpr hnodup)
  have := (⟨fun _ _ _ => Nat.le_trans⟩ :
    IsTrans EventEnvelope (·.monotonicSequence ≤ ·.monotonicSequence))
  have := (⟨fun _ _ => Nat.le_total _ _⟩ :
    Std.Total fun a b : EventEnvelope => a.monotonicSequence ≤ b.monotonicSequence)
  have hle : (sortedBySequence events).Pairwise (·.monotonicSequence ≤ ·.monotonicSequence) :=
    pairwise_insertionSort _ _
  exact (hle.and hne).imp fun ⟨hle, hne⟩ => lt_of_le_of_ne hle hne

theorem sortedBySequence_unique (hperm : events'.Perm events)
    (hsorted : events'.Pairwise (·.monotonicSequence < ·.monotonicSequence)) :
    sortedBySequence events = events' := by
  have hnodup : (events.map (·.monotonicSequence)).Nodup :=
    (hperm.map _).nodup_iff.mp (pairwise_map.mpr (hsorted.imp fun hlt => hlt.ne))
  refine List.Perm.eq_of_pairwise (fun a b _ _ hab hba => absurd hab hba.asymm)
    (sorted_sortedBySequence hnodup) hsorted ((perm_insertionSort _ _).trans hperm.symm)

/-- A row that followed the events it did not account for exists, and is not behind any. -/
theorem follow_fresh_ok (hne : events ≠ [])
    (hsorted : events.Pairwise (·.monotonicSequence < ·.monotonicSequence))
    (h : follow snapshot row (fresh row events) = .ok row') :
    ∃ c, row' = some c ∧ (∀ e ∈ events, e.monotonicSequence ≤ c.lastSequence) ∧
      (row = some c ∨ c.snapshot = snapshot ∧ ∃ e ∈ events, c.lastSequence = e.monotonicSequence ∧
        ∀ c₀, row = some c₀ → c₀.lastSequence < c.lastSequence) := by
  have hcovered {e : EventEnvelope} (he : e ∈ events) (hfresh : e ∉ fresh row events) :
      ∃ c, row = some c ∧ e.monotonicSequence ≤ c.lastSequence := by
    have hany : row.any (e.monotonicSequence ≤ ·.lastSequence) := by
      by_contra hany
      exact hfresh (mem_filter.mpr ⟨he, by simp [hany]⟩)
    obtain ⟨c, hc, hle⟩ := (Option.any_eq_true _ _).mp hany
    exact ⟨c, hc, of_decide_eq_true hle⟩
  rcases eq_nil_or_concat (fresh row events) with hnil | ⟨before, last, hlast⟩
  · rw [hnil] at h hcovered
    obtain rfl := pure_ok_iff.mp h
    obtain ⟨e, he⟩ := exists_mem_of_ne_nil _ hne
    obtain ⟨c, rfl, -⟩ := hcovered he (not_mem_nil)
    refine ⟨c, rfl, fun e he => ?_, .inl rfl⟩
    obtain ⟨c', hc', hle⟩ := hcovered he (not_mem_nil)
    exact Option.some.inj hc' ▸ hle
  · rw [concat_eq_append] at hlast
    obtain ⟨c, rfl, hsnapshot, hseq⟩ := follow_ends (hlast ▸ h)
    have hmem : last ∈ fresh row events :=
        hlast ▸ mem_append_right _ (mem_singleton_self _)
    obtain ⟨hevent, hahead⟩ := mem_filter.mp hmem
    have hbehind (c₀ : SupervisorRecoveryCheckpoint) (hc₀ : row = some c₀) :
        c₀.lastSequence < c.lastSequence := by
      rw [hseq]
      simpa [hc₀] using hahead
    refine ⟨c, rfl, fun e he => ?_, .inr ⟨hsnapshot, last, hevent, hseq, hbehind⟩⟩
    by_cases hfresh : e ∈ fresh row events
    · have hsorted' := hsorted.filter fun e => !row.any (e.monotonicSequence ≤ ·.lastSequence)
      rw [hlast] at hfresh
      rw [← fresh, hlast, pairwise_append] at hsorted'
      rcases mem_append.mp hfresh with hfresh | hfresh
      · exact hseq ▸ (hsorted'.2.2 e hfresh last (mem_singleton_self _)).le
      · rw [mem_singleton.mp hfresh, hseq]
    · obtain ⟨c₀, hc₀, hle⟩ := hcovered he hfresh
      exact hle.trans (hbehind c₀ hc₀).le

/-- **What an update makes of a row.**  It checks its events and follows, in order, those
the row does not account for. -/
theorem updatedRow_ok_iff (hne : events ≠ []) (hnodup : (events.map (·.monotonicSequence)).Nodup) :
    updatedRow row ⟨snapshot, events⟩ = .ok c ↔
      (∀ e ∈ events, Accepted snapshot.graph.goalId e) ∧
        follow snapshot row (fresh row (sortedBySequence events)) = .ok (some c) := by
  have hsorted := sorted_sortedBySequence hnodup
  -- the snapshot is in the row already if the row moved
  have hsame {row' : Option SupervisorRecoveryCheckpoint}
      (h : follow snapshot row (fresh row (sortedBySequence events)) = .ok row') :
      ∃ c, row' = some c ∧ (if !(fresh row (sortedBySequence events)).isEmpty || events.isEmpty then
        { c with snapshot := snapshot } else c) = c := by
    obtain ⟨c, rfl, -⟩ := follow_fresh_ok (sortedBySequence_ne_nil hne) hsorted h
    refine ⟨c, rfl, ?_⟩
    rcases eq_nil_or_concat (fresh row (sortedBySequence events)) with hnil |
      ⟨before, last, hlast⟩
    · simp [hnil, hne]
    · rw [concat_eq_append] at hlast
      obtain ⟨c', hc', rfl, -⟩ := follow_ends (hlast ▸ h)
      rw [Option.some.inj hc', ite_self]
  rw [updatedRow, bind_ok_iff]
  constructor
  · rintro ⟨⟨row', advanced⟩, hfold, h⟩
    obtain ⟨hall, hfollow, rfl⟩ := (foldlM_advance_iff hsorted).mp hfold
    obtain ⟨c', rfl, hc'⟩ := hsame hfollow
    obtain rfl : c' = c := hc'.symm.trans (pure_ok_iff.mp h)
    exact ⟨fun e he => hall e (mem_sortedBySequence.mpr he), hfollow⟩
  · rintro ⟨hall, hfollow⟩
    obtain ⟨c', hc', hsnapshot⟩ := hsame hfollow
    obtain rfl := Option.some.inj hc'
    exact ⟨(some c, _), (foldlM_advance_iff hsorted).mpr
      ⟨fun e he => hall e (mem_sortedBySequence.mp he), hfollow, rfl⟩,
      pure_ok_iff.mpr hsnapshot⟩

/-- An update with nothing new leaves the row. -/
theorem updatedRow_of_covered (hne : events ≠ [])
    (haccepted : ∀ e ∈ events, Accepted snapshot.graph.goalId e)
    (hcovered : ∀ e ∈ events, e.monotonicSequence ≤ c.lastSequence) :
    updatedRow (some c) ⟨snapshot, events⟩ = .ok c := by
  have hloop (l : List EventEnvelope) (hl : ∀ e ∈ l, e ∈ events) :
      l.foldlM (advanceCheckpoint snapshot) (some c, false) = .ok (some c, false) := by
    induction l with
    | nil => rfl
    | cons e l ih =>
      obtain ⟨he, hl⟩ := forall_mem_cons.mp hl
      refine bind_ok_iff.mpr ⟨_, advance_ok_iff.mpr ⟨haccepted e he, ?_⟩, ih hl⟩
      rw [if_pos (by simpa using hcovered e he)]
  rw [updatedRow, hloop _ fun e he => mem_sortedBySequence.mp he]
  simp [bind, Except.bind, pure, Except.pure, hne]

/-! ### One update after another -/

theorem updatedRow_append (hgoal : snapshot.graph.goalId = snapshot'.graph.goalId)
    (hne : events ≠ []) (hne' : events' ≠ [])
    (hafter : ∀ e ∈ events, ∀ e' ∈ events', e.monotonicSequence < e'.monotonicSequence)
    (hnodup : ((events ++ events').map (·.monotonicSequence)).Nodup) :
    (∃ c₁, updatedRow row ⟨snapshot, events⟩ = .ok c₁ ∧
        updatedRow (some c₁) ⟨snapshot', events'⟩ = .ok c) ↔
      updatedRow row ⟨snapshot', events ++ events'⟩ = .ok c := by
  have hnodup'' := hnodup
  rw [map_append, nodup_append] at hnodup
  have hsorted := sorted_sortedBySequence hnodup.1
  have hsorted' := sorted_sortedBySequence hnodup.2.1
  have hsort : sortedBySequence (events ++ events') =
      sortedBySequence events ++ sortedBySequence events' :=
    sortedBySequence_unique ((perm_insertionSort _ _).append (perm_insertionSort _ _))
      (pairwise_append.mpr ⟨hsorted, hsorted', fun e he e' he' =>
        hafter e (mem_sortedBySequence.mp he) e' (mem_sortedBySequence.mp he')⟩)
  -- a row that accounts for the later events accounts for the earlier ones
  have hlast : fresh row (sortedBySequence events') = [] →
      fresh row (sortedBySequence events) = [] := by
    intro hnil
    obtain ⟨e', he'⟩ := exists_mem_of_ne_nil _ hne'
    have hcovers := filter_eq_nil_iff.mp hnil e' (mem_sortedBySequence.mpr he')
    rw [Bool.not_eq_true', Bool.not_eq_false] at hcovers
    obtain ⟨c₀, rfl, hle⟩ := (Option.any_eq_true _ _).mp hcovers
    refine filter_eq_nil_iff.mpr fun e he => ?_
    have hlt := hafter e (mem_sortedBySequence.mp he) e' he'
    have hle := of_decide_eq_true hle
    simpa using hlt.le.trans hle
  -- and the first update skips none of the events of the second
  have hmiddle {row₁ : Option SupervisorRecoveryCheckpoint}
      (h : follow snapshot row (fresh row (sortedBySequence events)) = .ok row₁) :
      ∃ c₁, row₁ = some c₁ ∧
        fresh (some c₁) (sortedBySequence events') = fresh row (sortedBySequence events') := by
    obtain ⟨c₁, rfl, -, hrow | ⟨-, e, he, hseq, hbehind⟩⟩ :=
      follow_fresh_ok (sortedBySequence_ne_nil hne) hsorted h
    · exact ⟨c₁, rfl, hrow ▸ rfl⟩
    · have hc₁ : ∀ e' ∈ sortedBySequence events', c₁.lastSequence < e'.monotonicSequence :=
        fun e' he' => hseq ▸ hafter e (mem_sortedBySequence.mp he) e' (mem_sortedBySequence.mp he')
      refine ⟨c₁, rfl, (fresh_of_lt hc₁).trans ?_⟩
      cases row with
      | none => simp [fresh]
      | some c₀ => exact (fresh_of_lt fun e' he' => (hbehind c₀ rfl).trans (hc₁ e' he')).symm
  have hne'' : events ++ events' ≠ [] := append_ne_nil_of_left_ne_nil hne _
  rw [updatedRow_ok_iff hne'' hnodup'', hsort, fresh_append, follow_append snapshot snapshot' hlast,
    bind_ok_iff]
  simp only [updatedRow_ok_iff hne hnodup.1, updatedRow_ok_iff hne' hnodup.2.1]
  constructor
  · rintro ⟨c₁, ⟨hall, hfollow⟩, hall', hfollow'⟩
    obtain ⟨c₂, hc₂, hfresh⟩ := hmiddle hfollow
    rw [Option.some.inj hc₂, hfresh] at hfollow'
    refine ⟨fun e he => ?_, some c₁, hfollow, Option.some.inj hc₂ ▸ hfollow'⟩
    rcases mem_append.mp he with he | he
    · exact hgoal ▸ hall e he
    · exact hall' e he
  · rintro ⟨hall, row₁, hfollow, hfollow'⟩
    obtain ⟨c₁, rfl, hfresh⟩ := hmiddle hfollow
    refine ⟨c₁, ⟨fun e he => ?_, hfollow⟩, fun e he => ?_, hfresh ▸ hfollow'⟩
    · exact hgoal ▸ hall e (mem_append_left _ he)
    · exact hall e (mem_append_right _ he)

/-- Events that an update brought before change nothing when they come again. -/
theorem updatedRow_again {again : SupervisorCheckpointUpdate}
    (hgoal : snapshot.graph.goalId = again.snapshot.graph.goalId) (hne : events ≠ [])
    (hnodup : (events.map (·.monotonicSequence)).Nodup) (hagain : again.events ≠ [])
    (hsub : again.events ⊆ events) :
    (∃ c₁, updatedRow row ⟨snapshot, events⟩ = .ok c₁ ∧ updatedRow (some c₁) again = .ok c) ↔
      updatedRow row ⟨snapshot, events⟩ = .ok c := by
  have hstays {c : SupervisorRecoveryCheckpoint}
      (h : updatedRow row ⟨snapshot, events⟩ = .ok c) : updatedRow (some c) again = .ok c := by
    obtain ⟨hall, hfollow⟩ := (updatedRow_ok_iff hne hnodup).mp h
    obtain ⟨c', hc', hle, -⟩ :=
      follow_fresh_ok (sortedBySequence_ne_nil hne) (sorted_sortedBySequence hnodup) hfollow
    obtain rfl := Option.some.inj hc'
    exact updatedRow_of_covered hagain (fun e he => hgoal ▸ hall e (hsub he))
      fun e he => hle e (mem_sortedBySequence.mpr (hsub he))
  constructor
  · rintro ⟨c₁, h₁, h⟩
    rw [hstays h₁] at h
    cases h
    exact h₁
  · intro h
    exact ⟨c, h, hstays h⟩

theorem foldlM_saveUpdates (rows : Checkpoints) (calls : List (List SupervisorCheckpointUpdate)) :
    calls.foldlM saveSupervisorCheckpointUpdates rows =
      saveSupervisorCheckpointUpdates rows calls.flatten := by
  induction calls generalizing rows with
  | nil => rfl
  | cons call calls ih =>
    rw [foldlM_cons, flatten_cons, saveSupervisorCheckpointUpdates,
      saveSupervisorCheckpointUpdates, foldlM_append]
    congr 1
    funext rows
    exact ih rows

/-- A goal's events handed over in updates: in the order of the sequences, each update
with its part of them in any order, and in between earlier events again, in any order and
with any snapshot.  `events` are those handed over and `last` is the snapshot that came
with the last of them. -/
inductive Schedule (goalId : Uuid) :
    List EventEnvelope → SupervisorSnapshot → List SupervisorCheckpointUpdate → Prop where
  | first (update : SupervisorCheckpointUpdate) (hgoal : update.goalId = goalId)
      (hne : update.events ≠ []) : Schedule goalId update.events update.snapshot [update]
  | next {events : List EventEnvelope} {last : SupervisorSnapshot}
      {updates : List SupervisorCheckpointUpdate} (h : Schedule goalId events last updates)
      (update : SupervisorCheckpointUpdate) (hgoal : update.goalId = goalId)
      (hne : update.events ≠ [])
      (hafter : ∀ e ∈ events, ∀ e' ∈ update.events, e.monotonicSequence < e'.monotonicSequence) :
      Schedule goalId (events ++ update.events) update.snapshot (updates ++ [update])
  | again {events : List EventEnvelope} {last : SupervisorSnapshot}
      {updates : List SupervisorCheckpointUpdate} (h : Schedule goalId events last updates)
      (update : SupervisorCheckpointUpdate) (hgoal : update.goalId = goalId)
      (hne : update.events ≠ []) (hsub : update.events ⊆ events) :
      Schedule goalId events last (updates ++ [update])

namespace Schedule

variable {last : SupervisorSnapshot} {updates : List SupervisorCheckpointUpdate}
  {rows rows' : Checkpoints}

theorem ne_nil (h : Schedule goalId events last updates) : events ≠ [] := by
  induction h with
  | first _ _ hne => exact hne
  | next _ _ _ hne _ _ => exact append_ne_nil_of_right_ne_nil _ hne
  | again _ _ _ _ _ ih => exact ih

theorem goalId_eq (h : Schedule goalId events last updates) : last.graph.goalId = goalId := by
  induction h with
  | first _ hgoal _ => exact hgoal
  | next _ _ hgoal _ _ _ => exact hgoal
  | again _ _ _ _ _ ih => exact ih

end Schedule

theorem save_two {rows rows' : Checkpoints} {one all : SupervisorCheckpointUpdate}
    (hone : one.goalId = goalId) (hupdate : update.goalId = goalId) (hall : all.goalId = goalId)
    (hsave : ∀ rows', saveSupervisorCheckpointUpdates rows updates = .ok rows' ↔
      saveSupervisorCheckpointUpdates rows [one] = .ok rows')
    (h : ∀ c, (∃ c₁, updatedRow rows[goalId]? one = .ok c₁ ∧ updatedRow (some c₁) update = .ok c) ↔
      updatedRow rows[goalId]? all = .ok c) :
    saveSupervisorCheckpointUpdates rows (updates ++ [update]) = .ok rows' ↔
      saveSupervisorCheckpointUpdates rows [all] = .ok rows' := by
  have hsingle (rows rows' : Checkpoints) {update : SupervisorCheckpointUpdate}
      (hupdate : update.goalId = goalId) :
      saveSupervisorCheckpointUpdates rows [update] = .ok rows' ↔
        ∃ c, updatedRow rows[goalId]? update = .ok c ∧ rows.insert goalId c = rows' := by
    rw [saveSupervisorCheckpointUpdates, foldlM_cons, bind_ok_iff]
    simp only [saveCheckpointUpdate, foldlM_nil, pure_ok_iff, exists_eq_right,
      bind_ok_iff, hupdate]
  have htwice (c₁ c : SupervisorRecoveryCheckpoint) :
      (rows.insert goalId c₁).insert goalId c = rows.insert goalId c := by
    refine Std.ExtTreeMap.ext_getElem? fun g => ?_
    rw [getElem?_insert_eq, getElem?_insert_eq, getElem?_insert_eq]
    split_ifs <;> rfl
  rw [saveSupervisorCheckpointUpdates, foldlM_append, bind_ok_iff, hsingle _ _ hall]
  constructor
  · rintro ⟨rows₁, h₁, h₂⟩
    obtain ⟨c₁, hc₁, rfl⟩ := (hsingle _ _ hone).mp ((hsave rows₁).mp h₁)
    obtain ⟨c, hc, rfl⟩ := (hsingle _ _ hupdate).mp h₂
    rw [getElem?_insert_eq, if_pos rfl] at hc
    exact ⟨c, (h c).mp ⟨c₁, hc₁, hc⟩, (htwice c₁ c).symm⟩
  · rintro ⟨c, hc, rfl⟩
    obtain ⟨c₁, hc₁, hc⟩ := (h c).mpr hc
    refine ⟨rows.insert goalId c₁, (hsave _).mpr ((hsingle _ _ hone).mpr ⟨c₁, hc₁, rfl⟩),
      (hsingle _ _ hupdate).mpr ⟨c, ?_, htwice c₁ c⟩⟩
    rwa [getElem?_insert_eq, if_pos rfl]

theorem Schedule.save_iff {last : SupervisorSnapshot} (h : Schedule goalId events last updates)
    (hnodup : (events.map (·.monotonicSequence)).Nodup) (rows rows' : Checkpoints) :
    saveSupervisorCheckpointUpdates rows updates = .ok rows' ↔
      saveSupervisorCheckpointUpdates rows [⟨last, events⟩] = .ok rows' := by
  induction h generalizing rows' with
  | first update _ _ => rfl
  | next h update hgoal hne hafter ih =>
    have hbefore := (nodup_append.mp (map_append ▸ hnodup)).1
    refine save_two h.goalId_eq hgoal hgoal (ih hbefore) fun c => ?_
    exact updatedRow_append (h.goalId_eq.trans hgoal.symm) h.ne_nil hne hafter hnodup
  | again h update hgoal hne hsub ih =>
    refine save_two h.goalId_eq hgoal h.goalId_eq (ih hnodup) fun c => ?_
    exact updatedRow_again (h.goalId_eq.trans hgoal.symm) h.ne_nil hnodup hne hsub

/-- The order of the events of an update does not matter. -/
theorem updatedRow_perm (hperm : events'.Perm events)
    (hnodup : (events.map (·.monotonicSequence)).Nodup) :
    updatedRow row ⟨snapshot, events'⟩ = updatedRow row ⟨snapshot, events⟩ := by
  have hsort : sortedBySequence events' = sortedBySequence events :=
    sortedBySequence_unique ((perm_insertionSort _ _).trans hperm.symm)
      (sorted_sortedBySequence hnodup)
  have hempty : events'.isEmpty = events.isEmpty := by
    rw [Bool.eq_iff_iff, isEmpty_iff_length_eq_zero, isEmpty_iff_length_eq_zero,
      hperm.length_eq]
  rw [updatedRow, updatedRow]
  simp only [hsort, hempty]

variable {state' : Option SupervisorRecoveryCheckpoint × Bool} {c₀ : SupervisorRecoveryCheckpoint}

/-- The loop of an update never falls back. -/
theorem foldlM_advance_le {n : ℕ}
    (h : events.foldlM (advanceCheckpoint snapshot) state = .ok state')
    (hstate : ∃ c, state.1 = some c ∧ n ≤ c.lastSequence) :
    ∃ c, state'.1 = some c ∧ n ≤ c.lastSequence := by
  refine foldlM_ok_invariant
    (fun state : Option SupervisorRecoveryCheckpoint × Bool =>
      ∃ c, state.1 = some c ∧ n ≤ c.lastSequence)
    (fun state event state' ⟨c, hc, hle⟩ hstep => ?_) h hstate
  rcases advanceCheckpoint_ok hstep with ⟨_, _, _, rfl⟩ | ⟨hlt, c', hc', rfl⟩
  · exact ⟨c, hc, hle⟩
  · exact ⟨c', rfl, hle.trans ((hlt c hc).le.trans (evolve_ok hc').2.1.ge)⟩

/-- The loop of an update ends at or above every event of it. -/
theorem foldlM_advance_covers (h : events.foldlM (advanceCheckpoint snapshot) state = .ok state') :
    ∀ e ∈ events, ∃ c, state'.1 = some c ∧ e.monotonicSequence ≤ c.lastSequence := by
  induction events generalizing state with
  | nil => exact fun _ h => (nomatch h)
  | cons event events ih =>
    obtain ⟨state₁, hstep, h⟩ := bind_ok_iff.mp h
    refine forall_mem_cons.mpr ⟨foldlM_advance_le h ?_, ih h⟩
    rcases advanceCheckpoint_ok hstep with ⟨c, hc, hle, rfl⟩ | ⟨-, c, hc, rfl⟩
    · exact ⟨c, hc, hle⟩
    · exact ⟨c, rfl, (evolve_ok hc).2.1.ge⟩

/-- What an update returns stands where its loop ends. -/
theorem updatedRow_ends (h : updatedRow row update = .ok c) :
    ∃ state, (sortedBySequence update.events).foldlM (advanceCheckpoint update.snapshot)
      (row, false) = .ok state ∧ ∀ c', state.1 = some c' → c.lastSequence = c'.lastSequence := by
  obtain ⟨state, hfold, h⟩ := bind_ok_iff.mp h
  refine ⟨state, hfold, fun c' hc' => ?_⟩
  obtain rfl := pure_ok_iff.mp h
  rw [hc', Option.getD_some]
  split_ifs
  · rfl
  · rfl

/-- A row never falls back. -/
theorem updatedRow_le (h : updatedRow (some c₀) update = .ok c) :
    c₀.lastSequence ≤ c.lastSequence := by
  obtain ⟨state, hfold, hends⟩ := updatedRow_ends h
  obtain ⟨c', hc', hle⟩ := foldlM_advance_le hfold ⟨c₀, rfl, le_rfl⟩
  exact hle.trans (hends c' hc').ge

theorem updatedRow_covers (h : updatedRow row update = .ok c) {e : EventEnvelope}
    (he : e ∈ update.events) : e.monotonicSequence ≤ c.lastSequence := by
  obtain ⟨state, hfold, hends⟩ := updatedRow_ends h
  obtain ⟨c', hc', hle⟩ := foldlM_advance_covers hfold e (mem_sortedBySequence.mpr he)
  exact hle.trans (hends c' hc').ge

theorem save_le {rows rows' : Checkpoints}
    (h : saveSupervisorCheckpointUpdates rows updates = .ok rows') {g : Uuid}
    (hc₀ : rows[g]? = some c₀) : ∃ c, rows'[g]? = some c ∧ c₀.lastSequence ≤ c.lastSequence := by
  refine foldlM_ok_invariant
    (fun rows : Checkpoints => ∃ c, rows[g]? = some c ∧ c₀.lastSequence ≤ c.lastSequence)
    (fun rows update rows' ⟨c, hc, hle⟩ hstep => ?_) h ⟨c₀, hc₀, le_rfl⟩
  obtain ⟨c', hc', hstep⟩ := bind_ok_iff.mp hstep
  obtain rfl := pure_ok_iff.mp hstep
  rw [getElem?_insert_eq]
  by_cases hg : g = update.snapshot.graph.goalId
  · rw [← hg, hc] at hc'
    exact ⟨c', if_pos hg, hle.trans (updatedRow_le hc')⟩
  · exact ⟨c, (if_neg hg).trans hc, hle⟩

/-- **Batching does not matter.**  Calls that hand the events of a goal over by a schedule
leave the rows that one update with all the events, in any order, and the last snapshot
leaves; and whatever is saved, no row falls back. -/
theorem batching_does_not_matter {last : SupervisorSnapshot}
    {calls : List (List SupervisorCheckpointUpdate)}
    (h : Schedule goalId events last calls.flatten)
    (hnodup : (events.map (·.monotonicSequence)).Nodup) (hperm : events'.Perm events)
    (rows rows' : Checkpoints) :
    (calls.foldlM saveSupervisorCheckpointUpdates rows = .ok rows' ↔
        saveSupervisorCheckpointUpdates rows [⟨last, events'⟩] = .ok rows') ∧
      ∀ (calls : List (List SupervisorCheckpointUpdate)) (rows rows' : Checkpoints),
        calls.foldlM saveSupervisorCheckpointUpdates rows = .ok rows' →
          ∀ (g : Uuid) (c₀ : SupervisorRecoveryCheckpoint), rows[g]? = some c₀ →
            ∃ c, rows'[g]? = some c ∧ c₀.lastSequence ≤ c.lastSequence := by
  refine ⟨?_, fun calls rows rows' h g c₀ hc₀ => save_le (foldlM_saveUpdates _ _ ▸ h) hc₀⟩
  have hone : saveSupervisorCheckpointUpdates rows [⟨last, events'⟩] =
      saveSupervisorCheckpointUpdates rows [⟨last, events⟩] := by
    simp only [saveSupervisorCheckpointUpdates, foldlM_cons, saveCheckpointUpdate,
      updatedRow_perm hperm hnodup]
  rw [foldlM_saveUpdates, hone]
  exact h.save_iff hnodup rows rows'

section Examples

def goalEvent (sequence : ℕ) (type : String) (taskId : Uuid) : EventEnvelope where
  schemaVersion := eventSchemaVersion
  eventId := ""
  wallClockTimestamp := "2026-01-01T00:00:00Z"
  monotonicSequence := sequence
  origin := "supervisor"
  profileId := ""
  sessionId := none
  goalId := some (.uuid 1)
  taskId := some (.uuid taskId)
  agentId := none
  type := type
  payloadJson := some (.object [("task_id", .string (.uuid taskId))])

def goalSnapshot (elapsed : ℕ) : SupervisorSnapshot := ⟨1, ⟨1, 0, ∅, []⟩, ∅, [], elapsed⟩

/-- Three events in two updates, the first of them out of order, and the first update
again after the second. -/
theorem batching_does_not_matter_three :
    let created := goalEvent 1 "goal.created" 7
    let requested := goalEvent 2 "approval.requested" 7
    let started := goalEvent 3 "task.started" 8
    let early : SupervisorCheckpointUpdate := ⟨goalSnapshot 1, [requested, created]⟩
    let late : SupervisorCheckpointUpdate := ⟨goalSnapshot 2, [started]⟩
    ∃ rows, [[early], [late], [early]].foldlM saveSupervisorCheckpointUpdates ∅ = .ok rows ∧
      rows[1]?.map (·.lastSequence) = some 3 := by
  intro created requested started early late
  have hone : ((saveSupervisorCheckpointUpdates ∅
      [⟨goalSnapshot 2, [created, requested, started]⟩]).map
        fun rows => rows[1]?.map (·.lastSequence)) = .ok (some 3) := by
    decide +kernel
  obtain ⟨rows, hrows, hlast⟩ := map_ok_iff.mp hone
  have hschedule : Schedule 1 ([requested, created] ++ [started]) (goalSnapshot 2)
      [[early], [late], [early]].flatten :=
    ((Schedule.first early rfl (by decide)).next late rfl (by decide) (by decide)).again early rfl
      (by decide) (subset_append_left _ _)
  refine ⟨rows, ((batching_does_not_matter hschedule (by decide) ?_ ∅ rows).1).mpr hrows, hlast⟩
  exact List.Perm.swap requested created [started]

end Examples

end PersonalAgent.Storage
