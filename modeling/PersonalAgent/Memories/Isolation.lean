/-
# Recall across namespaces

`recall_scoped` runs the recall of the whole store and keeps what is in a selected
namespace.  The limits of the recall do not cut anything off (`recallLabeled_all`): it
asks for as many results as there are memories.  What a memory outside the selection can
still do is decide the stage: if any eligible memory of the store matches the query
lexically, vectors are not looked at, so a lexical hit in a foreign namespace suppresses a
memory of a selected one that would be found by its vector
(`foreign_hit_suppresses_recall`).
-/

import PersonalAgent.Memories.Sound

namespace PersonalAgent.Memories

open Lib List MemoryStore

/-! ### The order of results -/

namespace F32

theorem not_isNan_of_isPositive {x : F32} (h : x.isPositive) : ¬x.isNan := by
  intro hnan
  simp [isPositive, partialCmp, hnan] at h

end F32

/-- What results are sorted by. -/
def RecallResult.key (result : RecallResult) : ℤ ×ₗ ℕ :=
  toLex (-result.combinedScore.order, result.memory.id)

theorem resultOrder_iff {a b : RecallResult} (ha : a.combinedScore.isPositive)
    (hb : b.combinedScore.isPositive) :
    resultOrder a b ≠ .gt ↔ a.key ≤ b.key := by
  have hcmp : b.combinedScore.partialCmp a.combinedScore =
      some (compare b.combinedScore.order a.combinedScore.order) := by
    rw [F32.partialCmp, if_neg]
    simp [F32.not_isNan_of_isPositive ha, F32.not_isNan_of_isPositive hb]
  rw [resultOrder, hcmp, Option.getD_some, RecallResult.key, RecallResult.key,
    Prod.Lex.toLex_le_toLex]
  rcases lt_trichotomy b.combinedScore.order a.combinedScore.order with h | h | h
  · rw [compare_lt_iff_lt.mpr h]
    simp [Ordering.then, h]
  · rw [compare_eq_iff_eq.mpr h]
    simp [Ordering.then, h, compare_gt_iff_gt]
  · rw [compare_gt_iff_gt.mpr h]
    simp [Ordering.then]
    omega

/-! ### The candidates of tables that hold a store -/

namespace RecallTables

variable {t : RecallTables} {f : Uuid → Option RecallIndexRecord}

theorem Holds.mem_fts (h : t.Holds f) {row : FtsRow} :
    row ∈ t.fts ↔ ∃ r, f row.memoryId = some r ∧ row.content = r.content := by
  have hrow : row ∈ t.fts ↔ row ∈ t.fts.filter (·.memoryId = row.memoryId) := by simp
  rw [hrow, h.fts]
  cases f row.memoryId with
  | none => simp
  | some r =>
    obtain ⟨id, content⟩ := row
    simp

/-- No id has two rows. -/
theorem Holds.nodup (h : t.Holds f) : (t.fts.map (·.memoryId)).Nodup := by
  refine nodup_iff_count_le_one.mpr fun id => ?_
  have hcount : (t.fts.map (·.memoryId)).count id = (t.fts.filter (·.memoryId = id)).length := by
    rw [List.count, countP_map, countP_eq_length_filter]
    rfl
  rw [hcount, h.fts]
  cases f id <;> simp

variable {tokens : Finset String} {modelId : String} {limit : ℕ} {now : ℤ}

/-- A limit that no query reaches cuts nothing off. -/
theorem mem_vectorCandidates (hlimit : t.fts.length ≤ limit) {c : RecallCandidate} :
    c ∈ t.vectorCandidates modelId limit now ↔ ∃ row ∈ t.fts,
      ((t.vectors[row.memoryId]?).any (·.modelId = modelId) && t.live now row) ∧
        t.candidate row = c := by
  unfold vectorCandidates
  dsimp only
  rw [take_of_length_le, mem_map]
  · simp only [mem_filter, and_assoc]
  · exact (length_filter_le _ _).trans hlimit

variable [FullText]

theorem mem_ftsCandidates (hlimit : t.fts.length ≤ limit) {c : RecallCandidate} :
    c ∈ t.ftsCandidates tokens limit now ↔ ∃ row ∈ t.fts,
      (FullText.isMatch tokens row.content && t.live now row) ∧ t.candidate row = c := by
  unfold ftsCandidates
  dsimp only
  rw [take_of_length_le, mem_map]
  · simp only [(stableSort_perm _).mem_iff, mem_filter, and_assoc]
  · rw [(stableSort_perm _).length_eq]
    exact (length_filter_le _ _).trans hlimit

theorem nodup_candidates (h : t.Holds f) :
    ((t.candidates tokens modelId limit now).map (·.id)).Nodup := by
  have hrows {rows : List FtsRow} (hsub : (rows.map (·.memoryId)).Nodup) (n : ℕ) :
      (((rows.take n).map t.candidate).map (·.id)).Nodup := by
    rw [map_map]
    exact hsub.sublist ((take_sublist n rows).map _)
  have hfilter (p : FtsRow → Bool) : ((t.fts.filter p).map (·.memoryId)).Nodup :=
    h.nodup.sublist (filter_sublist.map _)
  have hvector (n : ℕ) : ((t.vectorCandidates modelId n now).map (·.id)).Nodup :=
    hrows (hfilter _) n
  unfold candidates
  dsimp only
  split_ifs
  · exact nodup_nil
  · exact hvector _
  · exact hvector _
  · exact hrows (((stableSort_perm _).map _).nodup_iff.mpr (hfilter _)) _

end RecallTables

namespace MemoryStore

section Stage

variable [Instants]

def indexLive (memory : Memory) (now : DateTime) : Bool :=
  eligible memory && (memory.expiresAt.map timestampMillis).all (timestampMillis now < ·)

def candidateOf (s : MemoryStore) (id : Uuid) : RecallCandidate :=
  ⟨id, s.embeddings[id]?, s.embeddingModelId id⟩

variable {s : MemoryStore} {t : RecallTables} {now : DateTime}

variable {memory : Memory} {row : FtsRow} {c : RecallCandidate}

theorem vectors_of_holds (h : t.Holds s.record?) {id : Uuid}
    (hget : s.memories[id]? = some memory) :
    t.vectors[id]? = (s.embeddings[id]?).map fun v =>
      ⟨s.storedEmbeddingModelId id, v.length, encodeVector v⟩ := by
  rw [h.vectors, record?, hget, Option.map_some, Option.bind_some, RecallIndexRecord.vectorRow,
    recallIndexRecord, embeddingModelId]
  cases s.embeddings[id]? <;> rfl

theorem candidate_of_holds (h : t.Holds s.record?)
    (hget : s.memories[row.memoryId]? = some memory) :
    t.candidate row = s.candidateOf row.memoryId := by
  rw [RecallTables.candidate, vectors_of_holds h hget, candidateOf, embeddingModelId]
  cases s.embeddings[row.memoryId]? with
  | none => rfl
  | some v =>
    simp only [Option.map_some, Option.bind_some, decodeVector_encodeVector]

theorem live_of_holds (h : t.Holds s.record?) (hget : s.memories[row.memoryId]? = some memory) :
    t.live (timestampMillis now) row = indexLive memory now := by
  rw [RecallTables.live, h.metadata, record?, hget]
  rfl

theorem mem_fts_of_holds (h : t.Holds s.record?) :
    row ∈ t.fts ↔ ∃ memory, s.memories[row.memoryId]? = some memory ∧
      row.content = memory.content := by
  rw [h.mem_fts, record?]
  cases s.memories[row.memoryId]? with
  | none => simp
  | some memory => simp [recallIndexRecord]

/-- The rows are at most as many as the memories. -/
theorem length_fts_le (h : t.Holds s.record?) : t.fts.length ≤ s.memories.size := by
  have hsub : t.fts.map (·.memoryId) ⊆ s.memories.keys := by
    intro id hid
    obtain ⟨row, hrow, rfl⟩ := mem_map.mp hid
    obtain ⟨memory, hget, -⟩ := (mem_fts_of_holds h).mp hrow
    rw [Std.ExtTreeMap.mem_keys, Std.ExtTreeMap.mem_iff_isSome_getElem?, hget]
    rfl
  calc t.fts.length = (t.fts.map (·.memoryId)).length := (length_map _).symm
    _ ≤ s.memories.keys.length := (h.nodup.subperm hsub).length_le
    _ = s.memories.size := Std.ExtTreeMap.length_keys

/-- The rows a query selects, as memories of the store. -/
theorem exists_row_iff (h : t.Holds s.record?) {p : FtsRow → Bool} {q : Uuid → Memory → Bool}
    (hpq : ∀ row memory, s.memories[row.memoryId]? = some memory → row.content = memory.content →
      p row = q row.memoryId memory) :
    (∃ row ∈ t.fts, p row ∧ t.candidate row = c) ↔
      ∃ (id : Uuid) (memory : Memory), s.memories[id]? = some memory ∧ q id memory ∧
        s.candidateOf id = c := by
  constructor
  · rintro ⟨row, hrow, hp, rfl⟩
    obtain ⟨memory, hget, hcontent⟩ := (mem_fts_of_holds h).mp hrow
    refine ⟨row.memoryId, memory, hget, ?_, (candidate_of_holds h hget).symm⟩
    rw [← hpq row memory hget hcontent]
    exact hp
  · rintro ⟨id, memory, hget, hq, rfl⟩
    refine ⟨⟨id, memory.content⟩, (mem_fts_of_holds h).mpr ⟨memory, hget, rfl⟩, ?_,
      candidate_of_holds h hget⟩
    rw [hpq ⟨id, memory.content⟩ memory hget rfl]
    exact hq

variable [FullText]

/-- Whether the lexical stage of a recall finds anything in the whole store. -/
def lexicalHit (s : MemoryStore) (tokens : Finset String) (now : DateTime) : Bool :=
  s.memories.toList.any fun entry =>
    FullText.isMatch tokens entry.2.content && indexLive entry.2 now

/-- Whether a memory becomes a candidate: in the lexical stage by its text, otherwise by the
label of its vector. -/
def surfaces (s : MemoryStore) (lexical : Bool) (tokens : Finset String) (modelId : String)
    (now : DateTime) (id : Uuid) (memory : Memory) : Bool :=
  (if lexical then FullText.isMatch tokens memory.content
    else s.embeddingModelId id = some modelId) && indexLive memory now

variable {tokens : Finset String} {modelId : String}

theorem lexicalHit_iff : s.lexicalHit tokens now ↔ ∃ (id : Uuid) (memory : Memory),
    s.memories[id]? = some memory ∧ FullText.isMatch tokens memory.content ∧
      indexLive memory now := by
  simp only [lexicalHit, any_eq_true, Prod.exists, Bool.and_eq_true,
    Std.ExtTreeMap.mem_toList_iff_getElem?_eq_some]

theorem mem_vectorCandidates_of_holds (h : t.Holds s.record?) (tokens : Finset String) {limit : ℕ}
    (hlimit : t.fts.length ≤ limit) :
    c ∈ t.vectorCandidates modelId limit (timestampMillis now) ↔ ∃ (id : Uuid) (memory : Memory),
      s.memories[id]? = some memory ∧ s.surfaces false tokens modelId now id memory ∧
        s.candidateOf id = c := by
  rw [RecallTables.mem_vectorCandidates hlimit]
  refine exists_row_iff h fun row memory hget _ => ?_
  rw [vectors_of_holds h hget, live_of_holds h hget, surfaces, embeddingModelId]
  cases s.embeddings[row.memoryId]? <;> simp

theorem mem_ftsCandidates_of_holds (h : t.Holds s.record?) (modelId : String) {limit : ℕ}
    (hlimit : t.fts.length ≤ limit) :
    c ∈ t.ftsCandidates tokens limit (timestampMillis now) ↔ ∃ (id : Uuid) (memory : Memory),
      s.memories[id]? = some memory ∧ s.surfaces true tokens modelId now id memory ∧
        s.candidateOf id = c := by
  rw [RecallTables.mem_ftsCandidates hlimit]
  refine exists_row_iff h fun row memory hget hcontent => ?_
  rw [live_of_holds h hget, surfaces, hcontent]
  rfl

/-- **The candidates of a recall.**  The stage is decided by the whole store; within it,
each memory decides for itself. -/
theorem mem_candidates (h : t.Holds s.record?) (hsize : s.memories.size < 2 ^ 63) :
    c ∈ t.candidates tokens modelId s.memories.size (timestampMillis now) ↔
      ∃ (id : Uuid) (memory : Memory), s.memories[id]? = some memory ∧
        s.surfaces (tokens ≠ ∅ && s.lexicalHit tokens now) tokens modelId now id memory ∧
          s.candidateOf id = c := by
  unfold RecallTables.candidates
  by_cases hzero : s.memories.size = 0
  · rw [if_pos hzero, Std.ExtTreeMap.eq_empty_iff_size_eq_zero.mpr hzero]
    simp
  have hmin : min s.memories.size (2 ^ 63 - 1) = s.memories.size := by omega
  have hlength := length_fts_le h
  rw [if_neg hzero, hmin]
  dsimp only
  by_cases htokens : tokens = ∅
  · rw [if_pos htokens, mem_vectorCandidates_of_holds h tokens hlength]
    simp [htokens]
  have hempty : (t.ftsCandidates tokens s.memories.size (timestampMillis now)).isEmpty =
      !s.lexicalHit tokens now := by
    rw [Bool.eq_iff_iff, List.isEmpty_iff, List.eq_nil_iff_forall_not_mem, Bool.not_eq_true',
      ← Bool.not_eq_true, lexicalHit_iff]
    simp only [mem_ftsCandidates_of_holds h modelId hlength]
    constructor
    · rintro hnone ⟨id, memory, hget, hmatch, hlive⟩
      exact hnone _ ⟨id, memory, hget, by simp [surfaces, hmatch, hlive], rfl⟩
    · rintro hnone c ⟨id, memory, hget, hsurfaces, -⟩
      simp only [surfaces, if_true, Bool.and_eq_true] at hsurfaces
      exact hnone ⟨id, memory, hget, hsurfaces⟩
  rw [if_neg htokens, hempty]
  cases s.lexicalHit tokens now with
  | false =>
    rw [Bool.and_false, Bool.not_false, if_pos rfl]
    exact mem_vectorCandidates_of_holds h tokens hlength
  | true =>
    rw [Bool.and_true, Bool.not_true, if_neg Bool.false_ne_true, decide_eq_true htokens]
    exact mem_ftsCandidates_of_holds h modelId hlength

end Stage

/-! ### The results of a recall -/

section Results

variable [Instants] [FullText] [Similarity]

/-- What a recall returns for an id, given the stage. -/
def resultOf (s : MemoryStore) (lexical : Bool) (tokens : Finset String)
    (queryEmbedding : Option (List F32)) (modelId : String) (now : DateTime) (id : Uuid) :
    Option RecallResult :=
  ((s.memories[id]?).filter (s.surfaces lexical tokens modelId now id)).bind fun _ =>
    (s.scored tokens queryEmbedding modelId now (s.candidateOf id)).filter
      (·.combinedScore.isPositive)

variable {s : MemoryStore} {queryEmbedding : Option (List F32)} {modelId : String} {now : DateTime}

theorem scored_id (h : s.Coherent) {tokens : Finset String} {c : RecallCandidate} {r : RecallResult}
    (hr : s.scored tokens queryEmbedding modelId now c = some r) : r.memory.id = c.id := by
  obtain ⟨memory, hget, hmemory, -⟩ := exists_of_scored hr
  rw [hmemory]
  exact h.keyed c.id memory hget

theorem resultOf_id (h : s.Coherent) {lexical : Bool} {tokens : Finset String} {id : Uuid}
    {r : RecallResult} (hr : s.resultOf lexical tokens queryEmbedding modelId now id = some r) :
    r.memory.id = id := by
  obtain ⟨-, -, hr⟩ := Option.bind_eq_some_iff.mp hr
  exact scored_id h (Option.filter_eq_some_iff.mp hr).1

/-- The scored candidates of a recall of everything, before they are ordered. -/
theorem mem_positive (h : s.Coherent) {t : RecallTables} (hholds : t.Holds s.record?)
    (hsize : s.memories.size < 2 ^ 63) (tokens : Finset String)
    (queryEmbedding : Option (List F32)) (modelId : String) (now : DateTime) :
    let found := ((t.candidates tokens modelId s.memories.size (timestampMillis now)).filterMap
      (s.scored tokens queryEmbedding modelId now)).filter (·.combinedScore.isPositive)
    (found.map (·.memory.id)).Nodup ∧ ∀ r, r ∈ found ↔ ∃ id : Uuid,
      s.resultOf (tokens ≠ ∅ && s.lexicalHit tokens now) tokens queryEmbedding modelId now id =
        some r := by
  refine ⟨?_, fun r => ?_⟩
  · refine List.Nodup.sublist (filter_sublist.map _) (pairwise_map.mpr ?_)
    refine pairwise_filterMap.mpr ((pairwise_map.mp
      (RecallTables.nodup_candidates hholds)).imp fun hne r hr r' hr' heq => hne ?_)
    rw [← scored_id h hr, ← scored_id h hr', heq]
  · simp only [mem_filter, mem_filterMap, mem_candidates hholds hsize, resultOf,
      Option.bind_eq_some_iff, Option.filter_eq_some_iff]
    constructor
    · rintro ⟨⟨_, ⟨id, memory, hget, hsurfaces, rfl⟩, hr⟩, hpositive⟩
      exact ⟨id, memory, ⟨hget, hsurfaces⟩, hr, hpositive⟩
    · rintro ⟨id, memory, ⟨hget, hsurfaces⟩, hr, hpositive⟩
      exact ⟨⟨_, ⟨id, memory, hget, hsurfaces, rfl⟩, hr⟩, hpositive⟩

/-- **A recall of everything**, strictly ordered: the result of each id, given the stage. -/
theorem recallLabeled_all (h : s.Coherent) (hsize : s.memories.size < 2 ^ 63) (query : String)
    (queryEmbedding : Option (List F32)) (modelId : String) (now : DateTime) :
    let results := (s.recallLabeled query queryEmbedding modelId s.memories.size now).2
    let tokens := FullText.tokenize query
    results.Pairwise (fun a b => a.key < b.key) ∧ ∀ r, r ∈ results ↔ ∃ id : Uuid,
      s.resultOf (tokens ≠ ∅ && s.lexicalHit tokens now) tokens queryEmbedding modelId now id =
        some r := by
  intro results tokens
  by_cases hzero : s.memories.size = 0
  · have hnil : results = [] := by
      change (s.recallLabeled query queryEmbedding modelId s.memories.size now).2 = []
      rw [recallLabeled, if_pos hzero]
    refine ⟨hnil ▸ List.Pairwise.nil, fun r => ?_⟩
    simp [hnil, resultOf, Std.ExtTreeMap.eq_empty_iff_size_eq_zero.mpr hzero]
  obtain ⟨index, hindex⟩ := ensureRecallIndex_eq (s := s)
  obtain ⟨hcoherent, hsync⟩ := coherent_ensureRecallIndex h
  have hholds : index.tables.Holds s.record? := by
    have hholds := hcoherent.indexed hsync
    rw [hindex] at hholds
    exact hholds
  obtain ⟨hids, hmem⟩ := mem_positive h hholds hsize tokens queryEmbedding modelId now
  obtain ⟨found, hfound⟩ : ∃ found, found = ((index.tables.candidates tokens modelId
      s.memories.size (timestampMillis now)).filterMap
        (s.scored tokens queryEmbedding modelId now)).filter
        (·.combinedScore.isPositive) := ⟨_, rfl⟩
  rw [← hfound] at hids hmem
  have hlength : found.length ≤ s.memories.size := by
    have hsub : found.map (·.memory.id) ⊆ s.memories.keys := by
      intro id hid
      obtain ⟨r, hr, rfl⟩ := mem_map.mp hid
      obtain ⟨id, hr⟩ := (hmem r).mp hr
      rw [resultOf_id h hr, Std.ExtTreeMap.mem_keys, Std.ExtTreeMap.mem_iff_isSome_getElem?]
      obtain ⟨memory, hget, -⟩ := Option.bind_eq_some_iff.mp hr
      rw [(Option.filter_eq_some_iff.mp hget).1]
      rfl
    rw [← length_map, ← Std.ExtTreeMap.length_keys]
    exact (hids.subperm hsub).length_le
  have hkeys : (found.map RecallResult.key).Nodup := by
    refine pairwise_map.mpr ((pairwise_map.mp hids).imp fun hne heq => hne ?_)
    exact congrArg (fun key => (ofLex key).2) heq
  have hresults : results = stableSort (fun a b => a.key ≤ b.key) found := by
    change (s.recallLabeled query queryEmbedding modelId s.memories.size now).2 = _
    have hlimit : min (max (min (s.memories.size * 32) (2 ^ 64 - 1)) 256) s.memories.size =
        s.memories.size := by omega
    rw [recallLabeled, if_neg hzero, hindex]
    dsimp only
    rw [hlimit]
    change (stableSort _ (((index.tables.candidates tokens modelId s.memories.size
      (timestampMillis now)).filterMap (s.scored tokens queryEmbedding modelId now)).filter
        (·.combinedScore.isPositive))).take s.memories.size = _
    rw [← hfound, take_of_length_le ((stableSort_perm _).length_eq.trans_le hlength)]
    refine stableSort_congr fun a ha b hb => ?_
    have hpositive (r : RecallResult) (hr : r ∈ found) : r.combinedScore.isPositive := by
      rw [hfound] at hr
      exact (mem_filter.mp hr).2
    exact decide_eq_decide.mpr (resultOrder_iff (hpositive a ha) (hpositive b hb))
  rw [hresults]
  refine ⟨strictSorted_stableSort RecallResult.key hkeys, fun r => ?_⟩
  rw [(stableSort_perm _).mem_iff]
  exact hmem r

end Results

end MemoryStore

/-! ### Two systems that agree on the selected namespaces -/

namespace PersistentMemory

/-- A memory of a selected namespace. -/
def selected (p : PersistentMemory) (namespaces : Finset MemoryNamespace) (id : Uuid) : Bool :=
  (p.scopes[id]?).any (· ∈ namespaces)

/-- The same memories, vectors, labels and scopes in the selected namespaces, and the same
embedding model; nothing is said about the rest. -/
structure Agree (namespaces : Finset MemoryNamespace) (p₁ p₂ : PersistentMemory) : Prop where
  model : p₁.store.embeddingModel = p₂.store.embeddingModel
  selected : ∀ id, p₁.selected namespaces id = p₂.selected namespaces id
  scopes : ∀ id : Uuid, p₁.selected namespaces id → p₁.scopes[id]? = p₂.scopes[id]?
  memories : ∀ id : Uuid, p₁.selected namespaces id →
    p₁.store.memories[id]? = p₂.store.memories[id]?
  embeddings : ∀ id : Uuid, p₁.selected namespaces id →
    p₁.store.embeddings[id]? = p₂.store.embeddings[id]?
  labels : ∀ id : Uuid, p₁.selected namespaces id →
    p₁.store.embeddingModelId id = p₂.store.embeddingModelId id

theorem Agree.symm {namespaces : Finset MemoryNamespace} {p₁ p₂ : PersistentMemory}
    (h : Agree namespaces p₁ p₂) : Agree namespaces p₂ p₁ where
  model := h.model.symm
  selected id := (h.selected id).symm
  scopes id hid := (h.scopes id (h.selected id ▸ hid)).symm
  memories id hid := (h.memories id (h.selected id ▸ hid)).symm
  embeddings id hid := (h.embeddings id (h.selected id ▸ hid)).symm
  labels id hid := (h.labels id (h.selected id ▸ hid)).symm

/-- Systems that differ under one id, which neither of them has in a selected namespace. -/
theorem agree_of_other {namespaces : Finset MemoryNamespace} {p p' : PersistentMemory}
    {changed : Uuid} (hchanged : ¬p.selected namespaces changed)
    (hchanged' : ¬p'.selected namespaces changed)
    (hmodel : p'.store.embeddingModel = p.store.embeddingModel)
    (hscopes : ∀ id : Uuid, id ≠ changed → p'.scopes[id]? = p.scopes[id]?)
    (hstore : ∀ id, id ≠ changed → p'.store.held id = p.store.held id) :
    Agree namespaces p p' := by
  have hother (id : Uuid) (h : p.selected namespaces id) : id ≠ changed :=
    fun heq => hchanged (heq ▸ h)
  have hheld (id : Uuid) (h : p.selected namespaces id) :=
    MemoryStore.Held.mk.inj (hstore id (hother id h))
  refine ⟨hmodel.symm, fun id => ?_, fun id h => (hscopes id (hother id h)).symm,
    fun id h => (hheld id h).1.symm, fun id h => (hheld id h).2.1.symm, fun id h => ?_⟩
  · by_cases hid : id = changed
    · rw [hid, Bool.eq_false_iff.mpr hchanged, Bool.eq_false_iff.mpr hchanged']
    · rw [PersistentMemory.selected, PersistentMemory.selected, hscopes id hid]
  · obtain ⟨-, hvector, hlabel, -⟩ := hheld id h
    rw [embeddingModelId, embeddingModelId, hvector,
      storedEmbeddingModelId_congr hmodel hlabel]

/-- A memory that is remembered in another namespace, under an id that is not selected,
changes nothing in the selected ones. -/
theorem agree_remember [Instants] {p : PersistentMemory} {namespaces : Finset MemoryNamespace}
    {scope : MemoryNamespace} (hscope : scope ∉ namespaces) {memory : Memory}
    (hid : ¬p.selected namespaces memory.id) (embedding : Option (List F32)) :
    Agree namespaces p (p.remember scope memory embedding).1 := by
  have hstore : (p.store.upsert memory embedding).1.embeddingModel = p.store.embeddingModel ∧
      ∀ id, id ≠ memory.id → (p.store.upsert memory embedding).1.held id = p.store.held id := by
    rw [upsert]
    rcases p.store.upsertLabeled_cases memory embedding
      p.store.legacyCompatibleEmbeddingModelId with ⟨-, e, he⟩ | ⟨-, t, hr, ht⟩
    · rw [he]
      exact ⟨rfl, fun _ _ => rfl⟩
    · rw [ht]
      exact ⟨hr.model, hr.other⟩
  unfold remember
  split
  · exact agree_of_other hid hid rfl (fun _ _ => rfl) fun _ _ => rfl
  · split <;> rename_i heq <;> rw [heq] at hstore <;> obtain ⟨hmodel, hother⟩ := hstore
    · exact agree_of_other hid hid hmodel (fun _ _ => rfl) hother
    · refine agree_of_other hid ?_ hmodel (fun id hne => ?_) hother
      · simp [PersistentMemory.selected, hscope]
      · exact (getElem?_insert_eq _ _ _ _).trans (if_neg hne)

section Isolation

variable [Instants] [FullText] [Similarity]

theorem resultOf_congr {namespaces : Finset MemoryNamespace} {p₁ p₂ : PersistentMemory}
    (h : Agree namespaces p₁ p₂) {id : Uuid} (hid : p₁.selected namespaces id) (lexical : Bool)
    (tokens : Finset String) (queryEmbedding : Option (List F32)) (modelId : String)
    (now : DateTime) :
    p₁.store.resultOf lexical tokens queryEmbedding modelId now id =
      p₂.store.resultOf lexical tokens queryEmbedding modelId now id := by
  have hcandidate : p₁.store.candidateOf id = p₂.store.candidateOf id := by
    rw [candidateOf, candidateOf, h.embeddings id hid, h.labels id hid]
  have hsurfaces : p₁.store.surfaces lexical tokens modelId now id =
      p₂.store.surfaces lexical tokens modelId now id := by
    funext memory
    rw [surfaces, surfaces, h.labels id hid]
  have hscored : p₁.store.scored tokens queryEmbedding modelId now (p₂.store.candidateOf id) =
      p₂.store.scored tokens queryEmbedding modelId now (p₂.store.candidateOf id) := by
    have hmemory : p₁.store.memories[(p₂.store.candidateOf id).id]? =
        p₂.store.memories[(p₂.store.candidateOf id).id]? := h.memories id hid
    unfold scored
    rw [hmemory]
  rw [resultOf, resultOf, h.memories id hid, hsurfaces, hcandidate, hscored]

/-- The results of a scoped recall, before they are cut: strictly ordered, the results of the
selected ids. -/
theorem recallScoped_eq_take {p : PersistentMemory} (h : p.Reachable)
    (hsize : p.store.memories.size < 2 ^ 63) (namespaces : Finset MemoryNamespace) (query : String)
    (queryEmbedding : Option (List F32)) (limit : ℕ) (now : DateTime) :
    ∃ results : List RecallResult,
      (p.recallScoped namespaces query queryEmbedding limit now).2 = results.take limit ∧
      results.Pairwise (fun a b => a.key < b.key) ∧
      ∀ r, r ∈ results ↔ p.selected namespaces r.memory.id ∧
        p.store.resultOf (FullText.tokenize query ≠ ∅ &&
            p.store.lexicalHit (FullText.tokenize query) now) (FullText.tokenize query)
          queryEmbedding p.store.legacyCompatibleEmbeddingModelId now r.memory.id = some r := by
  obtain ⟨hsorted, hmem⟩ := recallLabeled_all h.sound.coherent hsize query queryEmbedding
    p.store.legacyCompatibleEmbeddingModelId now
  refine ⟨(p.store.recallLabeled query queryEmbedding _ p.store.memories.size now).2.filter
    fun result => p.selected namespaces result.memory.id, rfl, hsorted.filter _, fun r => ?_⟩
  rw [mem_filter, hmem, and_comm]
  refine and_congr_right fun _ => ⟨fun ⟨id, hr⟩ => ?_, fun hr => ⟨_, hr⟩⟩
  rwa [resultOf_id h.sound.coherent hr]

/-- A memory of any namespace that may be recalled matches the query. -/
def Mentioned (p : PersistentMemory) (query : String) (now : DateTime) : Prop :=
  ∃ (id : Uuid) (memory : Memory), p.store.memories[id]? = some memory ∧
    FullText.isMatch (FullText.tokenize query) memory.content ∧ indexLive memory now

/-- A recall finds the memory by its vector: it may be recalled, its vector is one of the model,
and with the query vector its score is positive. -/
def FoundByVector (p : PersistentMemory) (query : String) (queryEmbedding : Option (List F32))
    (now : DateTime) (id : Uuid) : Prop :=
  let modelId := p.store.legacyCompatibleEmbeddingModelId
  ∃ (memory : Memory) (r : RecallResult), p.store.memories[id]? = some memory ∧
    p.store.embeddingModelId id = some modelId ∧ indexLive memory now ∧
    p.store.scored (FullText.tokenize query) queryEmbedding modelId now (p.store.candidateOf id) =
      some r ∧ r.combinedScore.isPositive

theorem foundByVector_iff {p : PersistentMemory} {query : String}
    {queryEmbedding : Option (List F32)} {now : DateTime} {id : Uuid} :
    p.FoundByVector query queryEmbedding now id ↔
      ∃ r, p.store.resultOf false (FullText.tokenize query) queryEmbedding
        p.store.legacyCompatibleEmbeddingModelId now id = some r := by
  simp only [FoundByVector, resultOf, surfaces, Option.bind_eq_some_iff,
    Option.filter_eq_some_iff, Bool.false_eq_true, if_false, Bool.and_eq_true, decide_eq_true_eq]
  constructor
  · rintro ⟨memory, r, hget, hlabel, hlive, hr, hpositive⟩
    exact ⟨r, memory, ⟨hget, hlabel, hlive⟩, hr, hpositive⟩
  · rintro ⟨r, memory, ⟨hget, hlabel, hlive⟩, hr, hpositive⟩
    exact ⟨memory, r, hget, hlabel, hlive, hr, hpositive⟩

/-- Where only the second system mentions the query, it recalls nothing, and the first one what
it finds by vectors. -/
theorem recallScoped_eq_iff_of_mentioned {p₁ p₂ : PersistentMemory} (h₁ : p₁.Reachable)
    (h₂ : p₂.Reachable) (hsize₁ : p₁.store.memories.size < 2 ^ 63)
    (hsize₂ : p₂.store.memories.size < 2 ^ 63) {namespaces : Finset MemoryNamespace}
    (hagree : Agree namespaces p₁ p₂) {query : String} (queryEmbedding : Option (List F32))
    (limit : ℕ) {now : DateTime} (htokens : FullText.tokenize query ≠ ∅)
    (hnone : p₁.store.lexicalHit (FullText.tokenize query) now = false)
    (hhit : p₂.store.lexicalHit (FullText.tokenize query) now = true) :
    (p₁.recallScoped namespaces query queryEmbedding limit now).2 =
      (p₂.recallScoped namespaces query queryEmbedding limit now).2 ↔
    limit = 0 ∨
      ∀ id, p₁.selected namespaces id → ¬p₁.FoundByVector query queryEmbedding now id := by
  obtain ⟨results₁, htake₁, -, hmem₁⟩ :=
    recallScoped_eq_take h₁ hsize₁ namespaces query queryEmbedding limit now
  obtain ⟨results₂, htake₂, -, hmem₂⟩ :=
    recallScoped_eq_take h₂ hsize₂ namespaces query queryEmbedding limit now
  rw [hnone, Bool.and_false] at hmem₁
  rw [hhit, decide_eq_true htokens, Bool.and_true] at hmem₂
  -- a selected memory that matches would be one of the first system as well
  have hnil : results₂ = [] := by
    refine eq_nil_iff_forall_not_mem.mpr fun r hr => ?_
    obtain ⟨hselected, hr⟩ := (hmem₂ r).mp hr
    obtain ⟨memory, hget, -⟩ := Option.bind_eq_some_iff.mp hr
    obtain ⟨hget, hsurfaces⟩ := Option.filter_eq_some_iff.mp hget
    rw [← hagree.selected] at hselected
    rw [surfaces, if_pos rfl, Bool.and_eq_true] at hsurfaces
    have hmatch := lexicalHit_iff.mpr ⟨_, memory, (hagree.memories _ hselected).trans hget,
      hsurfaces⟩
    rw [hnone] at hmatch
    cases hmatch
  rw [htake₁, htake₂, hnil, take_nil, take_eq_nil_iff]
  refine or_congr_right ?_
  constructor
  · intro hempty id hselected hfound
    obtain ⟨r, hr⟩ := foundByVector_iff.mp hfound
    have hid := resultOf_id h₁.sound.coherent hr
    have hr := (hmem₁ r).mpr ⟨hid ▸ hselected, hid ▸ hr⟩
    rw [hempty] at hr
    cases hr
  · refine fun hnot => eq_nil_iff_forall_not_mem.mpr fun r hr => ?_
    obtain ⟨hselected, hr⟩ := (hmem₁ r).mp hr
    exact hnot _ hselected (foundByVector_iff.mpr ⟨r, hr⟩)

/-- **When a recall is isolated.**  Two memory systems of the program that agree on the selected
namespaces give the same results to the same query exactly if no result is asked for, the query
has no tokens, a memory of any namespace mentions it in both systems or in neither, or no memory
of a selected namespace is found by its vector. -/
theorem recall_scoped_isolated_iff {p₁ p₂ : PersistentMemory} (h₁ : p₁.Reachable)
    (h₂ : p₂.Reachable) (hsize₁ : p₁.store.memories.size < 2 ^ 63)
    (hsize₂ : p₂.store.memories.size < 2 ^ 63) {namespaces : Finset MemoryNamespace}
    (hagree : Agree namespaces p₁ p₂) (query : String) (queryEmbedding : Option (List F32))
    (limit : ℕ) (now : DateTime) :
    (p₁.recallScoped namespaces query queryEmbedding limit now).2 =
      (p₂.recallScoped namespaces query queryEmbedding limit now).2 ↔
    limit = 0 ∨ FullText.tokenize query = ∅ ∨
      (p₁.Mentioned query now ↔ p₂.Mentioned query now) ∨
      ∀ id, p₁.selected namespaces id → ¬p₁.FoundByVector query queryEmbedding now id := by
  have hmodelId : p₂.store.legacyCompatibleEmbeddingModelId =
      p₁.store.legacyCompatibleEmbeddingModelId := by
    rw [legacyCompatibleEmbeddingModelId, ← hagree.model]
    rfl
  have hmentioned (p : PersistentMemory) : p.Mentioned query now ↔
      p.store.lexicalHit (FullText.tokenize query) now = true := lexicalHit_iff.symm
  rw [hmentioned, hmentioned, ← Bool.eq_iff_iff]
  by_cases hstage : FullText.tokenize query = ∅ ∨
      p₁.store.lexicalHit (FullText.tokenize query) now =
        p₂.store.lexicalHit (FullText.tokenize query) now
  · -- both are in the same stage
    refine iff_of_true ?_ (.inr (hstage.imp_right .inl))
    obtain ⟨results₁, htake₁, hsorted₁, hmem₁⟩ :=
      recallScoped_eq_take h₁ hsize₁ namespaces query queryEmbedding limit now
    obtain ⟨results₂, htake₂, hsorted₂, hmem₂⟩ :=
      recallScoped_eq_take h₂ hsize₂ namespaces query queryEmbedding limit now
    have hlexical : (FullText.tokenize query ≠ ∅ &&
        p₂.store.lexicalHit (FullText.tokenize query) now) = (FullText.tokenize query ≠ ∅ &&
          p₁.store.lexicalHit (FullText.tokenize query) now) := by
      rcases hstage with htokens | hsame
      · simp [htokens]
      · rw [hsame]
    rw [htake₁, htake₂]
    refine congrArg (take limit) (eq_of_strictSorted RecallResult.key hsorted₁ hsorted₂ fun r => ?_)
    rw [hmem₁, hmem₂, ← hagree.selected, hlexical, hmodelId]
    exact and_congr_right fun hselected => by rw [resultOf_congr hagree hselected]
  · obtain ⟨htokens, hdiffer⟩ := not_or.mp hstage
    rw [or_iff_right htokens, or_iff_right hdiffer]
    cases hit₁ : p₁.store.lexicalHit (FullText.tokenize query) now with
    | false =>
      cases hit₂ : p₂.store.lexicalHit (FullText.tokenize query) now with
      | false => exact absurd (hit₁.trans hit₂.symm) hdiffer
      | true =>
        exact recallScoped_eq_iff_of_mentioned h₁ h₂ hsize₁ hsize₂ hagree queryEmbedding limit
          htokens hit₁ hit₂
    | true =>
      cases hit₂ : p₂.store.lexicalHit (FullText.tokenize query) now with
      | true => exact absurd (hit₁.trans hit₂.symm) hdiffer
      | false =>
        rw [eq_comm, recallScoped_eq_iff_of_mentioned h₂ h₁ hsize₂ hsize₁ hagree.symm
          queryEmbedding limit htokens hit₂ hit₁]
        refine or_congr_right (forall_congr' fun id => ?_)
        rw [← hagree.selected]
        refine imp_congr_right fun hselected => not_congr ?_
        rw [foundByVector_iff, foundByVector_iff, hmodelId, resultOf_congr hagree hselected]

end Isolation

section Examples

attribute [local instance] wholeText allSimilar oneInstant

/-- One project remembers apples, with a vector. -/
def apples : PersistentMemory :=
  ((new { dimensions := 1 }).remember (.project "a") (sample 1 .trustedUser "apple")
    (some [.zero])).1

/-- Another project remembers something about pears as well. -/
def applesAndPears : PersistentMemory :=
  (apples.remember (.project "b") (sample 2 .trustedUser "pear") none).1

theorem reachable_apples : apples.Reachable :=
  .remember (.fromStore (.new _)) _ _ _

theorem agree_apples : Agree {.project "a"} apples applesAndPears :=
  agree_remember (by decide) (by decide +kernel) none

/-- **A lexical hit elsewhere suppresses a recall.**  Asked about pears with a query vector,
the project of the apples finds its memory by the vector, as long as no other project
mentions pears. -/
theorem foreign_hit_suppresses_recall : ∃ p₁ p₂ : PersistentMemory, p₁.Reachable ∧ p₂.Reachable ∧
    Agree {.project "a"} p₁ p₂ ∧
    (p₁.recallScoped {.project "a"} "pear" (some [.zero]) 5 ⟨"now"⟩).2.map (·.memory.content) =
      ["apple"] ∧
    (p₂.recallScoped {.project "a"} "pear" (some [.zero]) 5 ⟨"now"⟩).2 = [] :=
  ⟨apples, applesAndPears, reachable_apples, reachable_apples.remember _ _ _, agree_apples,
    by decide +kernel, by decide +kernel⟩

/-- Asked about apples, both systems find something lexically, and the results are the same. -/
theorem recall_scoped_isolated_apples :
    (apples.recallScoped {.project "a"} "apple" (some [.zero]) 5 ⟨"now"⟩).2.map (·.memory.content) =
        ["apple"] ∧
      (applesAndPears.recallScoped {.project "a"} "apple" (some [.zero]) 5 ⟨"now"⟩).2 =
        (apples.recallScoped {.project "a"} "apple" (some [.zero]) 5 ⟨"now"⟩).2 :=
  ⟨by decide +kernel, ((recall_scoped_isolated_iff reachable_apples
    (reachable_apples.remember _ _ _) (by decide +kernel) (by decide +kernel) agree_apples "apple"
    (some [.zero]) 5 ⟨"now"⟩).mpr (.inr (.inr (.inl (iff_of_true
      (lexicalHit_iff.mp (by decide +kernel)) (lexicalHit_iff.mp (by decide +kernel))))))).symm⟩

end Examples

end PersistentMemory

end PersonalAgent.Memories
