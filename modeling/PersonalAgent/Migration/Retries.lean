/-
# Repeating a migration

A sink that can be relied on says what it holds (`Reliable`): a lookup is accurate and a store
adds its record or, when it fails, nothing.  Either may fail at any call.  A run then adds the
records of the plan up to where it was stopped, each unless its id is there, so repeating it
until it succeeds is a pass that was taken up again (`Lib.addAll_addAll_take`).
-/

import PersonalAgent.Lib.Except
import PersonalAgent.Lib.Resume
import PersonalAgent.Migration.Prepare

namespace PersonalAgent.Migration

open Lib List

/-! ### Records of a plan -/

/-- The records of a run that is not interrupted by its sink. -/
def plannedRecords : Prepared → List PreparedRecord
  | [] => []
  | .error _ :: _ => []
  | .ok batch :: inputs => batch.records ++ plannedRecords inputs

section

variable {σ ε : Type}

/-- What a sink holds, and how its calls keep to it. -/
structure Reliable (sink : MigrationSink σ ε) (records : σ → Multiset PreparedRecord) : Prop where
  contains_keeps : ∀ s id, records (sink.contains s id).1 = records s
  contains_accurate : ∀ s id found, (sink.contains s id).2 = .ok found →
    (found = true ↔ id ∈ (records s).map (·.id))
  store_adds : ∀ s record, (sink.store s record).2 = .ok () →
    record.id ∉ (records s).map (·.id) → records (sink.store s record).1 = record ::ₘ records s
  store_keeps : ∀ s record e, (sink.store s record).2 = .error e →
    records (sink.store s record).1 = records s

variable {sink : MigrationSink σ ε} {records : σ → Multiset PreparedRecord} {s s' : σ}
  {record : PreparedRecord} {e : MigrationRunError ε} {inputs : Prepared} {item : ImportItemReport}
  {batch : List PreparedRecord} {items : List ImportItemReport} {consent : MigrationConsent}

/-- A part of a run that has `batch` to add and `found` to report: all of it is added, or it fails
after some of it. -/
def Advances {α : Type} (records : σ → Multiset PreparedRecord) (s : σ)
    (batch : List PreparedRecord) (found : α) : σ × Except (MigrationRunError ε) α → Prop
  | (s', .ok reported) => records s' = addAll (·.id) (records s) batch ∧ reported = found
  | (s', .error _) =>
    ∃ n ≤ batch.length, records s' = addAll (·.id) (records s) (batch.take n)

section

variable {α β : Type} {found reported : α} {found' : β} {rest : List PreparedRecord}

theorem Advances.map (h : Advances (ε := ε) records s batch found (s', .ok reported)) (f : α → β) :
    Advances (ε := ε) records s batch (f found) (s', .ok (f reported)) :=
  ⟨h.1, congrArg f h.2⟩

/-- A part that fails, where more was to come. -/
theorem Advances.stop (h : Advances records s batch found (s', .error e)) :
    Advances records s (batch ++ rest) found' (s', .error e) := by
  obtain ⟨n, hn, hs'⟩ := h
  refine ⟨n, ?_, by rw [hs', take_append_of_le_length hn]⟩
  rw [length_append]
  omega

/-- One part after another. -/
theorem Advances.andThen (h : Advances (ε := ε) records s batch found (s', .ok reported))
    {r : σ × Except (MigrationRunError ε) β} (h' : Advances records s' rest found' r) :
    Advances records s (batch ++ rest) (found, found') (r.map id (·.map (reported, ·))) := by
  obtain ⟨hbatch, hfound⟩ := h
  obtain ⟨t, e | more⟩ := r
  · obtain ⟨n, hn, ht⟩ := h'
    refine ⟨batch.length + n, ?_, ?_⟩
    · rw [length_append]
      omega
    · rw [take_length_add_append, addAll_append, ← hbatch]
      exact ht
  · refine ⟨?_, by rw [hfound, h'.2]⟩
    rw [addAll_append, ← hbatch]
    exact h'.1

/-- Where all of it is there nothing is added, however it ends. -/
theorem Advances.present {r : σ × Except (MigrationRunError ε) α}
    (h : Advances records s batch found r)
    (hpresent : ∀ record ∈ batch, record.id ∈ (records s).map (·.id)) :
    records r.1 = records s := by
  obtain ⟨s', e | reported⟩ := r
  · obtain ⟨n, -, hn⟩ := h
    exact hn.trans
      (addAll_eq_self fun record hrecord => hpresent record (mem_of_mem_take hrecord))
  · exact h.1.trans (addAll_eq_self hpresent)

end

/-- One record is added unless its id is there. -/
theorem migrateRecord_advances (hsink : Reliable sink records) (s : σ) (record : PreparedRecord) :
    Advances records s [record] (itemReport record (record.id ∈ (records s).map (·.id)))
      (migrateRecord sink s record) := by
  have hkeeps := hsink.contains_keeps s record.id
  have haccurate := hsink.contains_accurate s record.id
  unfold migrateRecord
  generalize sink.contains s record.id = r at hkeeps haccurate
  obtain ⟨t, e | found⟩ := r
  · exact ⟨0, Nat.zero_le _, hkeeps⟩
  cases found with
  | true =>
    have hthere := (haccurate true rfl).mp rfl
    refine ⟨hkeeps.trans (addAll_eq_self fun b hb => ?_).symm, by simp only [hthere, decide_true]⟩
    exact mem_singleton.mp hb ▸ hthere
  | false =>
    have hmissing : record.id ∉ (records s).map (·.id) := fun hmem =>
      Bool.false_ne_true ((haccurate false rfl).mpr hmem)
    have hadds := hsink.store_adds t record
    have hstore := hsink.store_keeps t record
    dsimp only at hkeeps ⊢
    generalize sink.store t record = r at hadds hstore
    obtain ⟨u, e | ⟨⟩⟩ := r
    · exact ⟨0, Nat.zero_le _, (hstore e rfl).trans hkeeps⟩
    · rw [hkeeps] at hadds
      exact ⟨(hadds rfl hmissing).trans (if_neg hmissing).symm,
        by simp only [hmissing, decide_false]⟩

/-- The rows of a batch, where `stored` is there before it. -/
def batchItems (stored : Multiset PreparedRecord) : List PreparedRecord → List ImportItemReport
  | [] => []
  | record :: batch => itemReport record (record.id ∈ stored.map (·.id)) ::
      batchItems (addNew (·.id) stored record) batch

theorem migrateRecords_advances (hsink : Reliable sink records) (s : σ)
    (batch : List PreparedRecord) :
    Advances records s batch (batchItems (records s) batch) (migrateRecords sink s batch) := by
  induction batch generalizing s with
  | nil => exact ⟨rfl, rfl⟩
  | cons record batch ih =>
    have hhead := migrateRecord_advances hsink s record
    rw [migrateRecords]
    generalize migrateRecord sink s record = r at hhead
    obtain ⟨t, e | item⟩ := r
    · exact hhead.stop
    · have hall := hhead.andThen (ih t)
      rw [hhead.1] at hall
      dsimp only
      generalize migrateRecords sink t batch = r at hall
      obtain ⟨u, e | items⟩ := r
      · exact hall
      · exact hall.map fun reported => reported.1 :: reported.2

/-- What a run reports that finds every record. -/
def presentItems : Prepared → List ImportItemReport
  | [] => []
  | .error _ :: _ => []
  | .ok batch :: inputs =>
    batch.notices ++ batch.records.map (itemReport · true) ++ presentItems inputs

/-- What a run reports, where `stored` is there before it. -/
def runItems (stored : Multiset PreparedRecord) : Prepared → List ImportItemReport
  | [] => []
  | .error _ :: _ => []
  | .ok batch :: inputs => batch.notices ++ batchItems stored batch.records ++
      runItems (addAll (·.id) stored batch.records) inputs

theorem migrateInputs_advances (hsink : Reliable sink records) (s : σ) (inputs : Prepared) :
    Advances records s (plannedRecords inputs) (runItems (records s) inputs)
      (migrateInputs sink s inputs) := by
  induction inputs generalizing s with
  | nil => exact ⟨rfl, rfl⟩
  | cons input inputs ih =>
    cases input with
    | error e => exact ⟨0, Nat.zero_le _, rfl⟩
    | ok batch =>
      have hhead := migrateRecords_advances hsink s batch.records
      rw [migrateInputs]
      generalize migrateRecords sink s batch.records = r at hhead
      obtain ⟨t, e | stored⟩ := r
      · exact hhead.stop
      · have hall := hhead.andThen (ih t)
        rw [hhead.1] at hall
        dsimp only
        generalize migrateInputs sink t inputs = r at hall
        obtain ⟨u, e | items⟩ := r
        · exact hall
        · exact hall.map fun reported => batch.notices ++ reported.1 ++ reported.2

theorem batchItems_present {stored : Multiset PreparedRecord}
    (h : ∀ record ∈ batch, record.id ∈ stored.map (·.id)) :
    batchItems stored batch = batch.map (itemReport · true) := by
  induction batch with
  | nil => rfl
  | cons record batch ih =>
    obtain ⟨hhead, htail⟩ := forall_mem_cons.mp h
    rw [batchItems, addNew, if_pos hhead, ih htail, decide_eq_true hhead, map_cons]

theorem runItems_present {stored : Multiset PreparedRecord}
    (h : ∀ record ∈ plannedRecords inputs, record.id ∈ stored.map (·.id)) :
    runItems stored inputs = presentItems inputs := by
  induction inputs with
  | nil => rfl
  | cons input inputs ih =>
    cases input with
    | error e => rfl
    | ok batch =>
      obtain ⟨hhead, htail⟩ := forall_mem_append.mp h
      rw [runItems, batchItems_present hhead, addAll_eq_self hhead, ih htail, presentItems]

/-! ### Report rows of a plan -/

/-- The notices of a batch are about what was skipped or invalid. -/
def Quiet (prepared : Except MigrationError PreparedBatch) : Prop :=
  ∀ batch, prepared = .ok batch → ∀ item ∈ batch.notices,
    item.status ≠ .imported ∧ item.status ≠ .alreadyPresent

theorem quiet_bind {α : Type} {x : Except MigrationError α}
    {f : α → Except MigrationError PreparedBatch} (h : ∀ a, Quiet (f a)) : Quiet (x >>= f) := by
  intro batch hbatch
  obtain ⟨a, -, ha⟩ := bind_ok_iff.mp hbatch
  exact h a batch ha

theorem quiet_records (records : List PreparedRecord) : Quiet (.ok { records }) := by
  intro batch hbatch item hitem
  cases hbatch
  exact (nomatch hitem)

theorem quiet_notice {batch : PreparedBatch} (h : batch.notices = [item])
    (hitem : item.status = .skipped ∨ item.status = .invalid) : Quiet (.ok batch) := by
  intro batch' hbatch item' hmem
  cases hbatch
  rw [h] at hmem
  obtain rfl := mem_singleton.mp hmem
  rcases hitem with hitem | hitem <;> rw [hitem] <;> exact ⟨by decide, by decide⟩

theorem quiet_joinBatches {α : Type} {f : α → Except MigrationError PreparedBatch}
    (h : ∀ a, Quiet (f a)) (l : List α) :
    Quiet (l.mapM f >>= fun batches => pure (joinBatches batches)) := by
  intro batch hbatch item hitem
  obtain ⟨batches, hmap, hjoin⟩ := bind_ok_iff.mp hbatch
  obtain rfl := Except.ok.inj hjoin
  obtain ⟨one, hone, hitem⟩ := mem_flatMap.mp hitem
  obtain ⟨a, -, ha⟩ := mem_mapM_ok hmap hone
  exact h a one ha item hitem

/-- A run that finds every record reports each of them as already present, and no other row says
so. -/
theorem count_presentItems (h : ∀ input ∈ inputs, Quiet input) :
    (presentItems inputs).countP (·.status = .imported) = 0 ∧
      (presentItems inputs).countP (·.status = .alreadyPresent) =
        (plannedRecords inputs).length := by
  induction inputs with
  | nil => exact ⟨rfl, rfl⟩
  | cons input inputs ih =>
    obtain ⟨hhead, htail⟩ := forall_mem_cons.mp h
    cases input with
    | error e => exact ⟨rfl, rfl⟩
    | ok batch =>
      obtain ⟨himported, hpresent⟩ := ih htail
      have hnotices := hhead batch rfl
      have hnone : batch.notices.countP (·.status = .imported) = 0 :=
        countP_eq_zero.mpr fun item hitem => by simp [(hnotices item hitem).1]
      have hnone' : batch.notices.countP (·.status = .alreadyPresent) = 0 :=
        countP_eq_zero.mpr fun item hitem => by simp [(hnotices item hitem).2]
      rw [presentItems, plannedRecords, countP_append, countP_append, countP_append,
        countP_append, length_append, himported, hpresent, hnone, hnone', countP_map,
        countP_map]
      constructor
      · rw [zero_add, add_zero]
        exact countP_eq_zero.mpr fun record _ => by simp [itemReport]
      · rw [zero_add, countP_eq_length.mpr fun record _ => by simp [itemReport]]

theorem mem_presentItems (h : record ∈ plannedRecords inputs) :
    itemReport record true ∈ presentItems inputs := by
  induction inputs with
  | nil => exact (nomatch h)
  | cons input inputs ih =>
    cases input with
    | error e => exact (nomatch h)
    | ok batch =>
      rw [presentItems, mem_append, mem_append]
      rcases mem_append.mp h with h | h
      · exact .inl (.inr (mem_map_of_mem h))
      · exact .inr (ih h)

theorem plannedRecords_congr {inputs' : Prepared}
    (h : inputs.map (·.map (·.records)) = inputs'.map (·.map (·.records))) :
    plannedRecords inputs = plannedRecords inputs' := by
  induction inputs generalizing inputs' with
  | nil =>
    rw [map_nil, eq_comm, map_eq_nil_iff] at h
    rw [h]
  | cons input inputs ih =>
    cases inputs' with
    | nil => cases h
    | cons input' inputs' =>
      obtain ⟨hhead, htail⟩ := List.cons.inj h
      cases input with
      | error e =>
        cases input' with
        | error e' => rfl
        | ok batch' => cases hhead
      | ok batch =>
        cases input' with
        | error e' => cases hhead
        | ok batch' =>
          have hrecords : batch.records = batch'.records := Except.ok.inj hhead
          rw [plannedRecords, plannedRecords, ih htail, hrecords]

/-! ### Runs -/

/-- What a run reports that made these rows. -/
def reportOf (runId sourceFingerprint : String) (items : List ImportItemReport) :
    MigrationReport where
  runId := runId
  sourceFingerprint := sourceFingerprint
  summary := summarize (sortedItems items)
  items := sortedItems items

/-- **What a run does**, however it ends. -/
theorem migrate_advances (hsink : Reliable sink records) (s : σ) (inputs : Prepared)
    (consent : MigrationConsent) (runId fingerprint : String) :
    Advances records s (plannedRecords inputs)
      (reportOf runId fingerprint (runItems (records s) inputs))
      (migrate sink s inputs consent runId fingerprint) := by
  unfold migrate
  split_ifs
  · exact ⟨0, Nat.zero_le _, rfl⟩
  · have hall := migrateInputs_advances hsink s inputs
    generalize migrateInputs sink s inputs = r at hall
    obtain ⟨t, e | items⟩ := r
    · exact hall
    · exact hall.map (reportOf runId fingerprint)

end

section

variable [Sha256] {source : LegacySource} {plan : MigrationPlan}

theorem quiet_invalidBatch (input : DiscoveredInput) (detail : String) :
    Quiet (.ok (invalidBatch source plan input detail)) := quiet_notice rfl (.inr rfl)

theorem quiet_skippedSecret (input : DiscoveredInput) (detail : String) :
    Quiet (.ok (skippedSecret source plan input detail)) := quiet_notice rfl (.inl rfl)

variable [JsonBytes]

theorem quiet_prepareHistoryFile (path : PathBuf) :
    Quiet (prepareHistoryFile source plan path) := by
  refine quiet_bind fun bytes => quiet_bind fun records => ?_
  dsimp only
  split_ifs
  · exact quiet_notice rfl (.inr rfl)
  · exact quiet_records records

theorem quiet_prepareTask (input : DiscoveredInput) (task : TomlValue) (number : ℕ) :
    Quiet (prepareTask source plan input task number) := by
  unfold prepareTask
  split
  · exact quiet_notice rfl (.inr rfl)
  · exact quiet_bind fun record => quiet_records [record]

theorem quiet_prepareManifest (input : DiscoveredInput) (manifest : PathBuf) :
    Quiet (prepareManifest source plan input manifest) := by
  refine quiet_bind fun bytes => ?_
  split
  · exact quiet_notice rfl (.inr rfl)
  · exact quiet_bind fun files => quiet_bind fun records => quiet_records records

variable [Toml]

/-- **Preparing never reports an import**: the rows it makes itself are about what was left
out. -/
theorem quiet_prepareInput (consent : MigrationConsent) (input : DiscoveredInput) :
    Quiet (prepareInput source plan consent input) := by
  unfold prepareInput
  split
  · refine quiet_bind fun bytes => ?_
    split
    · exact quiet_invalidBatch _ _
    · exact quiet_bind fun record => quiet_notice rfl (.inl rfl)
  · refine quiet_bind fun bytes => ?_
    split
    · exact quiet_invalidBatch _ _
    · exact quiet_bind fun record => quiet_records [record]
  · exact quiet_bind fun files => quiet_joinBatches quiet_prepareHistoryFile _
  · exact quiet_bind fun files => quiet_bind fun records => quiet_records records
  · refine quiet_bind fun bytes => ?_
    split
    · exact quiet_invalidBatch _ _
    · split
      · exact quiet_invalidBatch _ _
      · exact quiet_joinBatches (fun _ => quiet_prepareTask input _ _) _
  · exact quiet_bind fun files => quiet_joinBatches (quiet_prepareManifest input) _
  · exact quiet_bind fun files => quiet_joinBatches (quiet_prepareManifest input) _
  · exact quiet_bind fun files => quiet_bind fun records => quiet_records records
  · refine quiet_bind fun bytes => ?_
    split
    · exact quiet_invalidBatch _ _
    · exact quiet_bind fun record => quiet_notice rfl (.inl rfl)
  · refine quiet_bind fun bytes => ?_
    split
    · exact quiet_invalidBatch _ _
    · exact quiet_bind fun record => quiet_records [record]
  · refine quiet_bind fun bytes => ?_
    split
    · exact quiet_invalidBatch _ _
    · exact quiet_bind fun record => quiet_notice rfl (.inl rfl)
  · exact quiet_skippedSecret _ _
  · exact quiet_skippedSecret _ _
  · exact quiet_skippedSecret _ _
  · exact quiet_notice rfl (.inl rfl)

theorem quiet_preparedInputs (consent : MigrationConsent) :
    ∀ input ∈ preparedInputs source plan consent, Quiet input := by
  intro input hinput
  obtain ⟨discovered, -, rfl⟩ := mem_map.mp hinput
  exact quiet_prepareInput consent discovered

/-- The kind of consent beyond the first one decides about a notice alone. -/
theorem records_prepareInput (consent consent' : MigrationConsent) (input : DiscoveredInput) :
    (prepareInput source plan consent input).map (·.records) =
      (prepareInput source plan consent' input).map (·.records) := by
  unfold prepareInput
  split <;> rfl

/-- The records of a profile. -/
def profileRecords (source : LegacySource) (plan : MigrationPlan) : List PreparedRecord :=
  plannedRecords (preparedInputs source plan ⟨true, false⟩)

theorem plannedRecords_preparedInputs (consent : MigrationConsent) :
    plannedRecords (preparedInputs source plan consent) = profileRecords source plan := by
  refine plannedRecords_congr ?_
  unfold preparedInputs
  rw [map_map, map_map]
  exact map_congr_left fun input _ => records_prepareInput consent _ input

variable {σ ε : Type} {sink : MigrationSink σ ε} {records : σ → Multiset PreparedRecord}

/-- Runs on one source, repeated until one succeeds. -/
inductive Retried (sink : MigrationSink σ ε) (source : LegacySource) (plan : MigrationPlan) :
    σ → σ → Prop
  | done (s : σ) (consent : MigrationConsent) (runId : String)
      (h : (migrateSource source plan sink s consent runId).2.isOk = true) :
      Retried sink source plan s (migrateSource source plan sink s consent runId).1
  | again (s : σ) {s' : σ} (consent : MigrationConsent) (runId : String)
      (h : (migrateSource source plan sink s consent runId).2.isOk = false)
      (hrest : Retried sink source plan (migrateSource source plan sink s consent runId).1 s') :
      Retried sink source plan s s'

theorem migrateSource_advances (source : LegacySource) (plan : MigrationPlan)
    (hsink : Reliable sink records) (s : σ) (consent : MigrationConsent) (runId : String) :
    Advances records s (profileRecords source plan)
      (reportOf runId plan.sourceFingerprint
        (runItems (records s) (preparedInputs source plan consent)))
      (migrateSource source plan sink s consent runId) := by
  rw [← plannedRecords_preparedInputs consent]
  exact migrate_advances hsink s _ consent runId _

/-- Repeated runs end with every record added. -/
theorem records_of_retried (hsink : Reliable sink records) {s s' : σ}
    (h : Retried sink source plan s s') :
    records s' = addAll (·.id) (records s) (profileRecords source plan) := by
  induction h with
  | done s consent runId h =>
    have hrun := migrateSource_advances source plan hsink s consent runId
    generalize migrateSource source plan sink s consent runId = r at h hrun
    obtain ⟨t, e | report⟩ := r
    · cases h
    · exact hrun.1
  | again s consent runId h _ ih =>
    have hrun := migrateSource_advances source plan hsink s consent runId
    generalize migrateSource source plan sink s consent runId = r at h ih hrun
    obtain ⟨t, e | report⟩ := r
    · obtain ⟨n, -, hn⟩ := hrun
      rw [ih, hn, addAll_addAll_take]
    · cases h

/-- **Migration is retry-safe.**  Repeating a run until it succeeds leaves what one run without
an interruption leaves on any reliable sink; each id that was not there is stored once over all
runs; a further run stores nothing and, when it succeeds, reports every record as already
present; and without consent nothing is asked of the sink, whatever the source. -/
theorem migration_retry_safe (hsink : Reliable sink records) {s s' : σ}
    (hruns : Retried sink source plan s s') :
    (∀ (σ' ε' : Type) (sink' : MigrationSink σ' ε') (records' : σ' → Multiset PreparedRecord)
      (t t' : σ') (consent : MigrationConsent) (runId : String) (report : MigrationReport),
      Reliable sink' records' → records' t = records s →
      migrateSource source plan sink' t consent runId = (t', .ok report) →
      records s' = records' t') ∧
    (∃ stored, records s' = records s + stored ∧ (stored.map (·.id)).Nodup ∧
      ∀ id, id ∈ stored.map (·.id) ↔
        id ∈ (profileRecords source plan).map (·.id) ∧ id ∉ (records s).map (·.id)) ∧
    (∀ consent runId,
      records (migrateSource source plan sink s' consent runId).1 = records s' ∧
      ∀ report, (migrateSource source plan sink s' consent runId).2 = .ok report →
        report.summary.imported = 0 ∧
        report.summary.alreadyPresent = (profileRecords source plan).length ∧
        ∀ record ∈ profileRecords source plan, itemReport record true ∈ report.items) ∧
    (∀ (source' : LegacySource) (plan' : MigrationPlan) (t : σ) (consent : MigrationConsent)
      (runId : String), consent.copyPersonalData = false →
      migrateSource source' plan' sink t consent runId = (t, .error .confirmationRequired)) := by
  have hrecords := records_of_retried hsink hruns
  refine ⟨?_, ?_, ?_, ?_⟩
  · intro σ' ε' sink' records' t t' consent runId report hsink' ht hrun
    have hran := migrateSource_advances source plan hsink' t consent runId
    rw [hrun] at hran
    rw [hran.1, ht, hrecords]
  · rw [hrecords]
    exact addAll_eq_add (records s) (profileRecords source plan)
  · intro consent runId
    have hpresent : ∀ record ∈ profileRecords source plan,
        record.id ∈ (records s').map (·.id) := by
      intro record hrecord
      rw [hrecords]
      exact mem_map_addAll.mpr (.inr (mem_map_of_mem hrecord))
    have hrun := migrateSource_advances source plan hsink s' consent runId
    refine ⟨hrun.present hpresent, fun report hreport => ?_⟩
    rw [← Prod.eta (migrateSource ..), hreport] at hrun
    obtain rfl := hrun.2
    rw [runItems_present (by rwa [plannedRecords_preparedInputs])]
    have hperm : (sortedItems (presentItems (preparedInputs source plan consent))).Perm _ :=
      perm_insertionSort _ _
    obtain ⟨himported, halready⟩ :=
      count_presentItems (@quiet_preparedInputs _ source plan _ _ consent)
    refine ⟨(hperm.countP_eq _).trans himported, ?_, fun record hrecord => ?_⟩
    · rw [← plannedRecords_preparedInputs consent]
      exact (hperm.countP_eq _).trans halready
    · rw [← plannedRecords_preparedInputs consent] at hrecord
      exact hperm.mem_iff.mpr (mem_presentItems hrecord)
  · intro source' plan' t consent runId hconsent
    unfold migrateSource migrate
    rw [hconsent]
    rfl

end

/-! ### A sink that fails once -/

/-- A list of records; the first store fails if the flag is set. -/
def brittleSink : MigrationSink (List PreparedRecord × Bool) Unit where
  contains s id := (s, .ok (s.1.any (·.id = id)))
  store s record :=
    if s.2 then ((s.1, false), .error ()) else ((record :: s.1, false), .ok ())

theorem reliable_brittleSink : Reliable brittleSink fun s => s.1 where
  contains_keeps s id := rfl
  contains_accurate s id found h := by
    obtain rfl := Except.ok.inj h
    simp
  store_adds s record h _ := by
    unfold brittleSink at h ⊢
    dsimp only at h ⊢
    split_ifs at h ⊢
    rfl
  store_keeps s record e h := by
    unfold brittleSink at h ⊢
    dsimp only at h ⊢
    split_ifs at h ⊢
    rfl

section

@[reducible] def plainSha256 : Sha256 := ⟨fun bytes => [.ofNat bytes.length]⟩

@[reducible] def plainJson : JsonBytes where
  fromSlice _ := .error "expected value at line 1 column 1"
  toVec _ := []

@[reducible] def plainToml : Toml := ⟨fun _ => none⟩

attribute [local instance] plainSha256 plainJson plainToml

def noteNodes : List (PathBuf × Node) :=
  [(["home"], ⟨.directory, none⟩), (["home", "memory"], ⟨.directory, none⟩),
    (["home", "memory", "a.md"], ⟨.file [104, 105], none⟩)]

/-- A profile with one note. -/
def noteSource : LegacySource where
  nodes := Std.ExtTreeMap.ofList noteNodes
  inDirectory := by decide +kernel

def notePlan : MigrationPlan where
  roots := ⟨["home"], ["home"], none⟩
  sourceFingerprint := ""
  inputs := [⟨"memory", ["home", "memory"], 2, 1, false, .importData, none⟩]

/-- A first run that fails, and a second one. -/
theorem note_retry_safe :
    ∃ stored : Multiset PreparedRecord,
      ((migrateSource noteSource notePlan brittleSink
        (migrateSource noteSource notePlan brittleSink ([], true) ⟨true, false⟩ "1").1
        ⟨true, false⟩ "2").1.1 : Multiset PreparedRecord) = ([] : List PreparedRecord) + stored ∧
      (stored.map (·.id)).Nodup ∧ ∀ id, id ∈ stored.map (·.id) ↔
        id ∈ (profileRecords noteSource notePlan).map (·.id) ∧
          id ∉ (([] : List PreparedRecord) : Multiset PreparedRecord).map (·.id) :=
  (migration_retry_safe reliable_brittleSink (.again ([], true) ⟨true, false⟩ "1"
    (by decide +kernel) (.done _ ⟨true, false⟩ "2" (by decide +kernel)))).2.1

end

end PersonalAgent.Migration
