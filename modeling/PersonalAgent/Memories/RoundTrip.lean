/-
# Rows and stores

A memory store is written as one row per fact and per tombstone (`storage_rows`) and read
back through the checks of `upsert` (`from_storage_rows`, lines 1060 to 1122 of
`crates/memory/src/lib.rs`).  The way back is safe because of what every store has
(`MemoryStore.Sound`): facts and tombstones are under different ids, a vector belongs to a
fact, has the size of the model and a label that is not blank.

A snapshot of an older release has no labels, and its vectors then go by the name of the
store's model.  A model without a name makes rows that are refused
(`nameless_model_rejected`); every other store reads back as it was (`rows_read_back`) and
recalls the same (`recall_survives_restart`).
-/

import PersonalAgent.Memories.Isolation

namespace PersonalAgent.Memories

open Lib

/-- What `from_storage_rows` asks of one row: a fact has a source and is not a recalled
copy, and it has either neither vector nor label, or a vector of the model's size and a
label that is not blank. -/
def MemoryStorageRow.Readable (model : EmbeddingModel) : MemoryStorageRow → Prop
  | .active memory vector label => memory.sourceEventIds ≠ [] ∧ memory.trust ≠ .recalled ∧
      ((vector = none ∧ label = none) ∨
        ∃ v l, vector = some v ∧ label = some l ∧ v.length = model.dimensions ∧ ¬blank l)
  | .rejected _ => True

theorem MemoryStorageRow.readable_iff_fits {model : EmbeddingModel} {row : MemoryStorageRow} :
    row.Readable model ↔ row.Fits model := by
  match row with
  | .active memory (some vector) (some label) => simp [Readable, Fits, Valid]
  | .active memory none none => simp [Readable, Fits, Valid]
  | .active memory (some vector) none => simp [Readable, Fits]
  | .active memory none (some label) => simp [Readable, Fits]
  | .rejected id => exact Iff.rfl

namespace MemoryStore

section Rows

variable [Instants]

theorem embeddingModel_upsertLabeled (s : MemoryStore) (memory : Memory)
    (embedding : Option (List F32)) (label : String) :
    (s.upsertLabeled memory embedding label).1.embeddingModel = s.embeddingModel := by
  unfold upsertLabeled
  split_ifs <;> cases embedding <;> rfl

/-- A row that is taken is marked as seen, and the model stays. -/
theorem seen_of_addStorageRow {s s' : MemoryStore} {seen seen' : BTreeSet Uuid}
    {row : MemoryStorageRow} (h : addStorageRow (s, seen) row = .ok (s', seen')) :
    seen' = seen.insert row.id ∧ s'.embeddingModel = s.embeddingModel := by
  obtain ⟨hseen, -⟩ := fits_of_addStorageRow h
  unfold addStorageRow at h
  dsimp only at h
  rw [if_neg hseen] at h
  match row with
  | .active memory (some vector) (some label) =>
    obtain ⟨_, -, h⟩ := map_ok_iff.mp h
    cases h
    exact ⟨rfl, embeddingModel_upsertLabeled _ _ _ _⟩
  | .active memory none none =>
    obtain ⟨_, -, h⟩ := map_ok_iff.mp h
    cases h
    exact ⟨rfl, embeddingModel_upsertLabeled _ _ _ _⟩
  | .active memory (some vector) none => cases h
  | .active memory none (some label) => cases h
  | .rejected id =>
    cases h
    exact ⟨rfl, rfl⟩

theorem fits_of_foldlM {rows : List MemoryStorageRow} {s : MemoryStore} {seen : BTreeSet Uuid}
    {r : MemoryStore × BTreeSet Uuid} (h : rows.foldlM addStorageRow (s, seen) = .ok r) :
    (rows.map (·.id)).Nodup ∧ ∀ row ∈ rows, row.id ∉ seen ∧ row.Fits s.embeddingModel := by
  induction rows generalizing s seen with
  | nil => exact ⟨List.nodup_nil, fun row hrow => absurd hrow List.not_mem_nil⟩
  | cons row rows ih =>
    rw [List.foldlM_cons] at h
    obtain ⟨⟨s', seen'⟩, hrow, hrest⟩ := bind_ok_iff.mp h
    obtain ⟨hnodup, hall⟩ := ih hrest
    obtain ⟨rfl, hmodel⟩ := seen_of_addStorageRow hrow
    have hother (row' : MemoryStorageRow) (hrow' : row' ∈ rows) :
        row'.id ≠ row.id ∧ row'.id ∉ seen := by
      have hunseen := (hall row' hrow').1
      rwa [mem_insert_iff, not_or] at hunseen
    refine ⟨List.nodup_cons.mpr ⟨fun hmem => ?_, hnodup⟩, fun row' hrow' => ?_⟩
    · obtain ⟨row', hrow', hid⟩ := List.mem_map.mp hmem
      exact (hother row' hrow').1 hid
    · rcases List.mem_cons.mp hrow' with rfl | hrow'
      · exact fits_of_addStorageRow hrow
      · exact ⟨(hother row' hrow').2, hmodel ▸ (hall row' hrow').2⟩

/-- **Which lists of rows can be read.** -/
theorem fromStorageRows_ok_iff {model : EmbeddingModel} {rows : List MemoryStorageRow} :
    (∃ s, fromStorageRows model rows = .ok s) ↔
      (rows.map (·.id)).Nodup ∧ ∀ row ∈ rows, row.Readable model := by
  constructor
  · rintro ⟨s, h⟩
    obtain ⟨_, hfold, -⟩ := map_ok_iff.mp h
    obtain ⟨hnodup, hall⟩ := fits_of_foldlM hfold
    exact ⟨hnodup, fun row hrow => MemoryStorageRow.readable_iff_fits.mpr (hall row hrow).2⟩
  · rintro ⟨hnodup, hall⟩
    obtain ⟨s, hs, -⟩ := fromStorageRows_entries hnodup fun row hrow =>
      MemoryStorageRow.readable_iff_fits.mp (hall row hrow)
    exact ⟨s, hs⟩

theorem Sound.read_back {s : MemoryStore} (h : s.Sound) :
    ∃ s', fromStorageRows s.embeddingModel s.storageRows = .ok s' ∧ s.Same s' := by
  obtain ⟨s', hs', hsound, hmodel, hentry⟩ := fromStorageRows_entries (nodup_storageRows h)
    fun row hrow => entry_fits h ((mem_storageRows h).mp hrow)
  refine ⟨s', hs', same_of_entry h hsound hmodel (funext fun id => ?_)⟩
  -- the row found under an id is the entry of the id
  rw [hentry]
  cases hfind : s.storageRows.find? (·.id = id) with
  | some row =>
    obtain rfl : row.id = id := by simpa using List.find?_some hfind
    exact ((mem_storageRows h).mp (List.mem_of_find?_eq_some hfind)).symm
  | none =>
    cases hrow : s.entry id with
    | none => rfl
    | some row =>
      obtain rfl := entry_id h hrow
      have hmem := (mem_storageRows h).mpr hrow
      simpa using List.find?_eq_none.mp hfind row hmem

end Rows

/-- **Stores and rows.**  Every store of the program, where a snapshot without labels has
a model with a name, is read back from its rows with the same facts, vectors, tombstones
and labels; the ids of its rows are distinct; and the lists of rows that can be read under
a model are exactly those with distinct ids in which every fact has a source, is no
recalled copy, and has a vector of the model's size with a label that is not blank or
neither of the two. -/
theorem rows_read_back [Instants] [FullText] [Similarity] :
    (∀ s : MemoryStore, s.Reachable →
      (∃ s', fromStorageRows s.embeddingModel s.storageRows = .ok s' ∧
        s'.memories = s.memories ∧ s'.embeddings = s.embeddings ∧ s'.rejected = s.rejected ∧
        ∀ id, s'.embeddingModelId id = s.embeddingModelId id) ∧
      (s.storageRows.map (·.id)).Nodup) ∧
    ∀ (model : EmbeddingModel) (rows : List MemoryStorageRow),
      (∃ s, fromStorageRows model rows = .ok s) ↔
        (rows.map (·.id)).Nodup ∧ ∀ row ∈ rows, row.Readable model := by
  refine ⟨fun s h => ⟨?_, nodup_storageRows h.sound⟩, fun model rows => fromStorageRows_ok_iff⟩
  obtain ⟨s', hs', hsame⟩ := h.sound.read_back
  exact ⟨s', hs', hsame.memories, hsame.embeddings, hsame.rejected, hsame.labels⟩

section Examples

attribute [local instance] wholeText allSimilar oneInstant

/-- A store under the given model with one labelled vector. -/
def labelledUnder (name : String) : MemoryStore :=
  ((new { id := name, dimensions := 1 }).upsertLabeled (sample 1 .trustedUser "tea")
    (some [.zero]) "e5-small-int8").1

theorem reachable_labelledUnder (name : String) : (labelledUnder name).Reachable :=
  (Reachable.new { id := name, dimensions := 1 }).apply
    (.upsertLabeled (sample 1 .trustedUser "tea") (some [.zero]) "e5-small-int8")

/-- A snapshot without labels, under a model that has a name. -/
theorem rows_read_back_unlabelled :
    ∃ s', fromStorageRows ((labelledUnder "e5").deserialised false).embeddingModel
        ((labelledUnder "e5").deserialised false).storageRows = .ok s' ∧
      s'.embeddingModelId 1 = ((labelledUnder "e5").deserialised false).embeddingModelId 1 := by
  obtain ⟨⟨s', hs', -, -, -, hlabels⟩, -⟩ := rows_read_back.1
    ((labelledUnder "e5").deserialised false)
    ((reachable_labelledUnder "e5").deserialised false (.inr (by decide +kernel)))
  exact ⟨s', hs', hlabels 1⟩

/-- **A model without a name is refused.**  A store under a model whose id is blank is
saved by a release that kept no labels; the rows of the snapshot carry the blank name and
are not read back.  Nor is a row with a blank label and no vector. -/
theorem nameless_model_rejected :
    (labelledUnder "").Reachable ∧
    (fromStorageRows ((labelledUnder "").deserialised false).embeddingModel
        ((labelledUnder "").deserialised false).storageRows).map (fun _ => ()) =
      .error .missingEmbeddingProvenance ∧
    (fromStorageRows {} [.active (sample 1 .trustedUser "tea") none (some "")]).map (fun _ => ()) =
      .error .unexpectedEmbeddingProvenance := by
  refine ⟨reachable_labelledUnder "", ?_, rfl⟩
  rfl

end Examples

/-- Recalls of everything do not tell stores apart that hold the same. -/
theorem Same.recallLabeled [Instants] [FullText] [Similarity] {s s' : MemoryStore}
    (hsame : s.Same s') (h : s.Coherent) (h' : s'.Coherent) (hsize : s.memories.size < 2 ^ 63)
    (query : String) (queryEmbedding : Option (List F32)) (modelId : String) (now : DateTime) :
    (s'.recallLabeled query queryEmbedding modelId s'.memories.size now).2 =
      (s.recallLabeled query queryEmbedding modelId s.memories.size now).2 := by
  obtain ⟨hsorted, hmem⟩ := recallLabeled_all h hsize query queryEmbedding modelId now
  obtain ⟨hsorted', hmem'⟩ := recallLabeled_all h' (hsame.memories ▸ hsize) query
    queryEmbedding modelId now
  have hresult : s'.resultOf = s.resultOf := by
    funext lexical tokens queryEmbedding modelId now id
    have hscored : s'.scored = s.scored := by
      funext tokens queryEmbedding modelId now c
      unfold scored
      rw [hsame.memories]
    have hsurfaces : s'.surfaces lexical tokens modelId now id =
        s.surfaces lexical tokens modelId now id := by
      funext memory
      rw [surfaces, surfaces, hsame.labels]
    rw [resultOf, resultOf, hscored, hsurfaces, candidateOf, candidateOf, hsame.memories,
      hsame.embeddings, hsame.labels]
  refine eq_of_strictSorted RecallResult.key hsorted' hsorted fun r => ?_
  rw [hmem, hmem', lexicalHit, lexicalHit, hsame.memories, hresult]

end MemoryStore

namespace PersistentMemory

open MemoryStore

/-- **A restart does not change what is recalled.**  The rows of the facts and the metadata
make a system again that answers every query with the same results in the same order,
whatever state the recall index was in, which is not stored. -/
theorem recall_survives_restart [Instants] [FullText] [Similarity] {p : PersistentMemory}
    (h : p.Reachable) (hsize : p.store.memories.size < 2 ^ 63) :
    ∃ store, fromStorageRows p.store.embeddingModel p.store.storageRows = .ok store ∧
      ∀ namespaces query queryEmbedding limit now,
        ((fromStorageParts store p.storageMetadata).recallScoped namespaces query queryEmbedding
            limit now).2 =
          (p.recallScoped namespaces query queryEmbedding limit now).2 := by
  obtain ⟨store, hstore, hsame⟩ := h.sound.read_back
  refine ⟨store, hstore, fun namespaces query queryEmbedding limit now => ?_⟩
  have hrecall := hsame.recallLabeled h.sound.coherent
    (sound_fromStorageRows hstore).coherent hsize query queryEmbedding
    p.store.legacyCompatibleEmbeddingModelId now
  have hmodel : store.legacyCompatibleEmbeddingModelId =
      p.store.legacyCompatibleEmbeddingModelId := by
    unfold legacyCompatibleEmbeddingModelId
    rw [hsame.embeddingModel]
  change (List.filter _ (store.recallLabeled query queryEmbedding
    store.legacyCompatibleEmbeddingModelId store.memories.size now).2).take limit = _
  rw [hmodel, hrecall]
  rfl

attribute [local instance] wholeText allSimilar oneInstant

theorem recall_survives_restart_apples :
    ∃ store, fromStorageRows apples.store.embeddingModel apples.store.storageRows =
        .ok store ∧
      ((fromStorageParts store apples.storageMetadata).recallScoped {.project "a"} "apple" none 5
        ⟨"now"⟩).2.map (·.memory.content) = ["apple"] := by
  obtain ⟨store, hstore, hrecall⟩ := recall_survives_restart reachable_apples (by decide +kernel)
  refine ⟨store, hstore, ?_⟩
  rw [hrecall]
  decide +kernel

end PersistentMemory
end PersonalAgent.Memories
