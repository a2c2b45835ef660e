/-
# The index in step with the store

`RecallTables.Holds` says that the tables have exactly one record for every id a function
gives one for, with its content, eligibility, expiry and vector, and none for any other
id.  Index changes are pointwise updates of that function (`holds_upsert`, `holds_delete`,
`holds_rebuild`).

A store is `Coherent` if, whenever the count of its index is the number of its memories,
the tables hold the records of its memories.  The count alone would not say so; it does
because every change of a fact either carries the change over or forgets the count.
-/

import PersonalAgent.Lib.OrdMap
import PersonalAgent.Lib.Run
import PersonalAgent.Memories.Store

namespace PersonalAgent.Memories

open Lib List

namespace RecallTables

/-- The tables hold the records that `f` gives, and nothing else. -/
structure Holds (t : RecallTables) (f : Uuid → Option RecallIndexRecord) : Prop where
  fts : ∀ id, t.fts.filter (·.memoryId = id) = ((f id).map fun r => ⟨id, r.content⟩).toList
  metadata : ∀ id : Uuid, t.metadata[id]? = (f id).map (·.metadataRow)
  vectors : ∀ id : Uuid, t.vectors[id]? = (f id).bind (·.vectorRow)

variable {t : RecallTables} {f : Uuid → Option RecallIndexRecord}

theorem holds_empty : Holds {} fun _ => none :=
  ⟨fun _ => rfl, fun _ => Std.ExtTreeMap.getElem?_empty, fun _ => Std.ExtTreeMap.getElem?_empty⟩

theorem filter_removed (rows : List FtsRow) (id removed : Uuid) :
    (rows.filter (·.memoryId ≠ removed)).filter (·.memoryId = id) =
      if id = removed then [] else rows.filter (·.memoryId = id) := by
  rw [filter_filter]
  split_ifs with h
  · subst h
    simp
  · refine filter_congr fun row _ => ?_
    by_cases hrow : row.memoryId = id
    · simp [hrow, h]
    · simp [hrow]

theorem holds_upsert (h : t.Holds f) (r : RecallIndexRecord) :
    (t.upsert r).Holds (Function.update f r.id (some r)) where
  fts id := by
    change (t.fts.filter (·.memoryId ≠ r.id) ++ [(⟨r.id, r.content⟩ : FtsRow)]).filter
      (·.memoryId = id) = _
    rw [filter_append, filter_removed]
    by_cases hid : id = r.id
    · subst hid
      simp
    · have hid' : ¬r.id = id := fun h => hid h.symm
      rw [Function.update_of_ne hid, if_neg hid, h.fts]
      simp [hid']
  metadata id := by
    change (t.metadata.insert r.id r.metadataRow)[id]? = _
    rw [getElem?_insert_eq, Function.update_apply]
    split_ifs
    · rfl
    · exact h.metadata id
  vectors id := by
    rw [Function.update_apply, upsert, replaceVector]
    cases hrow : r.vectorRow with
    | none =>
      change (t.vectors.erase r.id)[id]? = _
      rw [getElem?_erase_eq]
      split_ifs
      · exact hrow.symm
      · exact h.vectors id
    | some row =>
      change (t.vectors.insert r.id row)[id]? = _
      rw [getElem?_insert_eq]
      split_ifs
      · exact hrow.symm
      · exact h.vectors id

theorem holds_delete (h : t.Holds f) (removed : Uuid) :
    (t.delete removed).Holds (Function.update f removed none) where
  fts id := by
    change (t.fts.filter (·.memoryId ≠ removed)).filter (·.memoryId = id) = _
    rw [filter_removed, Function.update_apply]
    split_ifs
    · rfl
    · exact h.fts id
  metadata id := by
    change (t.metadata.erase removed)[id]? = _
    rw [getElem?_erase_eq, Function.update_apply]
    split_ifs
    · rfl
    · exact h.metadata id
  vectors id := by
    change (t.vectors.erase removed)[id]? = _
    rw [getElem?_erase_eq, Function.update_apply]
    split_ifs
    · rfl
    · exact h.vectors id

/-- An `INSERT` of a record whose id is not there. -/
theorem holds_insertRecord (h : t.Holds f) {r : RecallIndexRecord} (hnew : f r.id = none) :
    (t.insertRecord r).Holds (Function.update f r.id (some r)) := by
  have hfts : t.fts.filter (·.memoryId ≠ r.id) = t.fts := by
    refine filter_eq_self.mpr fun row hrow => ?_
    have hnone := h.fts r.id
    rw [hnew] at hnone
    simpa using filter_eq_nil_iff.mp hnone row hrow
  have hvectors : t.vectors.erase r.id = t.vectors := by
    refine Std.ExtTreeMap.ext_getElem? fun id => ?_
    rw [getElem?_erase_eq]
    split_ifs with hid
    · rw [hid, h.vectors, hnew, Option.bind_none]
    · rfl
  have hsame : t.insertRecord r = t.upsert r := by
    rw [insertRecord, upsert, replaceVector, replaceMetadata, hfts, hvectors]
  rw [hsame]
  exact holds_upsert h r

/-- **A rebuild holds its records.** -/
theorem holds_rebuild {records : List RecallIndexRecord} (hnodup : (records.map (·.id)).Nodup) :
    (rebuild records).Holds fun id => records.find? (·.id = id) := by
  -- from the last record back, so that its id is new to the tables before it
  induction records using List.reverseRecOn with
  | nil => exact holds_empty
  | append_singleton records r ih =>
    rw [map_append, nodup_append] at hnodup
    have hnew : records.find? (·.id = r.id) = none := by
      refine find?_eq_none.mpr fun other hother hid => ?_
      exact hnodup.2.2 _ (mem_map_of_mem hother) _ (mem_singleton_self _)
        (of_decide_eq_true hid)
    have hupdate : (fun id => (records ++ [r]).find? (·.id = id)) =
        Function.update (fun id => records.find? (·.id = id)) r.id (some r) := by
      funext id
      rw [find?_append, Function.update_apply]
      split_ifs with hid
      · rw [hid, hnew]
        simp
      · have hid' : ¬r.id = id := fun h => hid h.symm
        simp [hid']
    rw [hupdate, rebuild, foldl_append]
    exact holds_insertRecord (ih hnodup.1) hnew

end RecallTables

/-! ### What a store may hold -/

def blank (text : String) : Bool := (Core.trim text).isEmpty

/-- What a store may hold of one id. -/
def Valid (model : EmbeddingModel) : Option Memory → Option (List F32) → String → Prop
  | none, vector, _ => vector = none
  | some memory, vector, label => memory.sourceEventIds ≠ [] ∧ memory.trust ≠ .recalled ∧
      ∀ v, vector = some v → v.length = model.dimensions ∧ ¬blank label

/-- A row that `from_storage_rows` takes. -/
def MemoryStorageRow.Fits (row : MemoryStorageRow) (model : EmbeddingModel) : Prop :=
  match row with
  | .active memory vector label => Valid model (some memory) vector (label.getD "") ∧
      vector.isSome = label.isSome
  | .rejected _ => True

theorem vector_of_valid {model : EmbeddingModel} {memory : Option Memory}
    {vector : Option (List F32)} {label : String} (h : Valid model memory vector label)
    (v : List F32) (hv : vector = some v) : v.length = model.dimensions ∧ ¬blank label := by
  cases memory with
  | none => cases hv.symm.trans h
  | some memory => exact h.2.2 v hv

theorem Memory.conflicting_eq (memory : Memory) (other : Uuid) : memory.conflicting other =
    { memory with conflictsWith := (memory.conflicting other).conflictsWith } := by
  unfold Memory.conflicting
  split_ifs <;> rfl

namespace MemoryStore

/-- What a store holds under an id. -/
structure Held where
  memory : Option Memory
  vector : Option (List F32)
  label : Option String
  rejected : Prop

def held (s : MemoryStore) (id : Uuid) : Held :=
  ⟨s.memories[id]?, s.embeddings[id]?, s.embeddingModels[id]?, id ∈ s.rejected⟩

/-- `t` is `s` with something else under an id, before the index is told. -/
structure Rewrites (s t : MemoryStore) (id : Uuid) (new : Held) : Prop where
  model : t.embeddingModel = s.embeddingModel
  index : t.recallIndex = s.recallIndex
  here : t.held id = new
  other : ∀ id', id' ≠ id → t.held id' = s.held id'

/-! ### What an operation does to a store -/

section Cases

variable (s : MemoryStore)

/-- A memory is stored just if its row fits the model. -/
theorem upsertLabeled_cases [Instants] (memory : Memory) (embedding : Option (List F32))
    (label : String) :
    let row := MemoryStorageRow.active memory embedding (embedding.map fun _ => label)
    (¬row.Fits s.embeddingModel ∧ ∃ e, s.upsertLabeled memory embedding label = (s, .error e)) ∨
    row.Fits s.embeddingModel ∧ ∃ t, s.Rewrites t memory.id ⟨some memory,
        embedding.or s.embeddings[memory.id]?,
        (embedding.map fun _ => label).or s.embeddingModels[memory.id]?, False⟩ ∧
      s.upsertLabeled memory embedding label =
        (t.reindexed s.indexSynchronized memory.id memory, .ok ()) := by
  unfold upsertLabeled
  split_ifs with hsource htrust hdimensions hlabel
  · exact .inl ⟨fun h => h.1.1 (isEmpty_iff.mp hsource), _, rfl⟩
  · exact .inl ⟨fun h => h.1.2.1 htrust, _, rfl⟩
  · refine .inl ⟨fun h => ?_, _, rfl⟩
    cases embedding with
    | none => cases hdimensions
    | some vector => exact of_decide_eq_true hdimensions (h.1.2.2 vector rfl).1
  · obtain ⟨hsome, hblank⟩ := Bool.and_eq_true_iff.mp hlabel
    obtain ⟨vector, rfl⟩ := Option.isSome_iff_exists.mp hsome
    exact .inl ⟨fun h => (h.1.2.2 vector rfl).2 hblank, _, rfl⟩
  · refine .inr ⟨⟨⟨fun hnil => hsource (isEmpty_iff.mpr hnil), htrust, fun v hv => ?_⟩, ?_⟩,
      ?_⟩
    · subst hv
      simpa [blank] using And.intro hdimensions hlabel
    · cases embedding <;> rfl
    · cases embedding <;> refine ⟨_, ?_, rfl⟩ <;> refine ⟨rfl, rfl, ?_, fun id' hid => ?_⟩ <;>
        simp_all [held, getElem?_insert_eq]
      all_goals exact fun _ => Ne.symm hid

theorem approve_cases [Instants] (id : Uuid) : (s.approve id).1 = s ∨
    ∃ memory t, s.memories[id]? = some memory ∧ s.Rewrites t id
      { s.held id with memory := some { memory with trust := .reviewedInference } } ∧
    (s.approve id).1 = t.reindexed s.indexSynchronized id
      { memory with trust := .reviewedInference } := by
  unfold approve
  split
  · exact .inl rfl
  · rename_i memory hmemory
    split_ifs
    · exact .inl rfl
    · refine .inr ⟨memory, _, hmemory, ?_, rfl⟩
      refine ⟨rfl, rfl, ?_, fun id' hid => ?_⟩ <;> simp_all [held, getElem?_insert_eq]

theorem reject_cases (id : Uuid) : (s.reject id).1 = s ∨ ∃ t,
    s.Rewrites t id ⟨none, none, none, True⟩ ∧
      (s.reject id).1 = t.unindexed s.indexSynchronized id := by
  unfold reject
  split
  · exact .inl rfl
  · split_ifs
    · exact .inl rfl
    · refine .inr ⟨_, ?_, rfl⟩
      refine ⟨rfl, rfl, ?_, fun id' hid => ?_⟩ <;> simp_all [held, getElem?_erase_eq]
      exact fun heq => absurd heq.symm hid

/-- A deletion changes the links of the other memories, and removes one. -/
theorem delete_cases (id : Uuid) : (s.delete id).1 = s ∨ ∃ memories t,
    (∀ id' : Uuid, memories[id']? = (s.memories[id']?).map (Memory.unlinked id)) ∧
      { s with memories }.Rewrites t id ⟨none, none, none, id ∈ s.rejected⟩ ∧
      (s.delete id).1 = t.unindexed s.indexSynchronized id := by
  unfold delete
  split
  · exact .inl rfl
  · refine .inr ⟨s.memories.map fun _ => Memory.unlinked id, _,
      fun id' => Std.ExtTreeMap.getElem?_map, ?_, rfl⟩
    refine ⟨rfl, rfl, ?_, fun id' hid => ?_⟩ <;>
      simp_all [held, Std.ExtTreeMap.getElem?_map, getElem?_erase_eq]

theorem linkConflict_cases (left right : Uuid) : (s.linkConflict left right).1 = s ∨
    left ≠ right ∧ (∃ memory, s.memories[left]? = some memory) ∧
      (∃ memory, s.memories[right]? = some memory) ∧
      ∃ memories, (s.linkConflict left right).1 = { s with memories } ∧
      ∀ id : Uuid, memories[id]? = (s.memories[id]?).map fun memory => { memory with
        conflictsWith := if id = right then (memory.conflicting left).conflictsWith
          else if id = left then (memory.conflicting right).conflictsWith
          else memory.conflictsWith } := by
  unfold linkConflict
  split
  · exact .inl rfl
  · exact .inl rfl
  · rename_i leftMemory rightMemory hleft hright
    split_ifs with hsame
    · exact .inl rfl
    · refine .inr ⟨hsame, ⟨_, hleft⟩, ⟨_, hright⟩, _, rfl, fun id => ?_⟩
      rw [getElem?_insert_eq, getElem?_insert_eq]
      split_ifs with hr hl
      · rw [hr, hright, Option.map_some, ← Memory.conflicting_eq]
      · rw [hl, hleft, Option.map_some, ← Memory.conflicting_eq]
      · exact Option.map_id'.symm

end Cases

section Stores

variable [Instants]

/-! ### Stores and their indices -/

def record? (s : MemoryStore) (id : Uuid) : Option RecallIndexRecord :=
  (s.memories[id]?).map (s.recallIndexRecord id)

/-- Memories stand under their ids, none of them is rejected, and an index that looks to be
in step is. -/
structure Coherent (s : MemoryStore) : Prop where
  keyed : ∀ (id : Uuid) memory, s.memories[id]? = some memory → memory.id = id
  disjoint : ∀ id ∈ s.rejected, s.memories[id]? = none
  indexed : s.indexSynchronized → s.recallIndex.tables.Holds s.record?

variable {s : MemoryStore}

theorem coherent_new (model : EmbeddingModel) : (new model).Coherent where
  keyed id memory h := by simp [new] at h
  disjoint id _ := Std.ExtTreeMap.getElem?_empty
  indexed _ := by
    have hnone : (new model).record? = fun _ => none := by
      funext id
      rw [record?, new, Std.ExtTreeMap.getElem?_empty, Option.map_none]
    rw [hnone]
    exact RecallTables.holds_empty

/-- A fresh index is in step only with a store without memories. -/
theorem indexed_fresh (hindex : s.recallIndex = {}) (h : s.indexSynchronized) :
    s.recallIndex.tables.Holds s.record? := by
  have hsize : s.memories.size = 0 := by
    simpa [indexSynchronized, hindex, eq_comm] using h
  have hnone : s.record? = fun _ => none := by
    funext id
    rw [record?, Std.ExtTreeMap.eq_empty_iff_size_eq_zero.mpr hsize, Std.ExtTreeMap.getElem?_empty,
      Option.map_none]
  rw [hnone, hindex]
  exact RecallTables.holds_empty

variable {s' t : MemoryStore} {id : Uuid} {after : Held} {queryEmbedding : Option (List F32)}

theorem record?_congr {s : MemoryStore} (hmodel : s'.embeddingModel = s.embeddingModel)
    (hheld : s'.held id = s.held id) : s'.record? id = s.record? id := by
  obtain ⟨hmemory, hvector, hlabel, -⟩ := Held.mk.inj hheld
  have hrecord (memory : Memory) :
      s'.recallIndexRecord id memory = s.recallIndexRecord id memory := by
    rw [recallIndexRecord, recallIndexRecord, embeddingModelId, embeddingModelId,
      storedEmbeddingModelId, storedEmbeddingModelId, legacyCompatibleEmbeddingModelId,
      legacyCompatibleEmbeddingModelId, hmodel, hvector, hlabel]
  rw [record?, record?, hmemory, funext hrecord]

/-- A change under one id that is carried over to the index, or makes it forget its count. -/
theorem Rewrites.coherent (hr : s.Rewrites t id after) (h : s.Coherent)
    (hkeyed : ∀ memory, after.memory = some memory → memory.id = id)
    (hdisjoint : after.rejected → after.memory = none) {index : RecallIndex}
    (hindex : index.synchronizedCount = none ∨ s.indexSynchronized ∧
      ∀ f, t.recallIndex.tables.Holds f →
        index.tables.Holds (Function.update f id (t.record? id))) :
    { t with recallIndex := index }.Coherent where
  keyed id' memory hget := by
    change (t.held id').memory = some memory at hget
    by_cases hid : id' = id
    · rw [hid, hr.here] at hget
      exact (hkeyed memory hget).trans hid.symm
    · rw [hr.other id' hid] at hget
      exact h.keyed id' memory hget
  disjoint id' hmem := by
    change (t.held id').rejected at hmem
    change (t.held id').memory = none
    by_cases hid : id' = id
    · rw [hid, hr.here] at hmem ⊢
      exact hdisjoint hmem
    · rw [hr.other id' hid] at hmem ⊢
      exact h.disjoint id' hmem
  indexed hsync := by
    rcases hindex with hnone | ⟨hsync', hcarried⟩
    · simp [indexSynchronized, hnone] at hsync
    · have hrecord : Function.update s.record? id (t.record? id) = t.record? := by
        funext id'
        rw [Function.update_apply]
        split_ifs with hid
        · rw [hid]
        · exact (record?_congr hr.model (hr.other id' hid)).symm
      change index.tables.Holds t.record?
      rw [← hrecord]
      exact hcarried _ (hr.index.symm ▸ h.indexed hsync')

theorem Rewrites.reindexed {memory : Memory} (hr : s.Rewrites t id after) (h : s.Coherent)
    (hmemory : after.memory = some memory) (hid : memory.id = id) (hlive : ¬after.rejected) :
    (t.reindexed s.indexSynchronized id memory).Coherent := by
  refine hr.coherent h (fun memory' h' => ?_) (fun hrejected => absurd hrejected hlive) ?_
  · obtain rfl := Option.some.inj (hmemory.symm.trans h')
    exact hid
  · cases hsync : s.indexSynchronized with
    | false => exact .inl rfl
    | true =>
      have hrecord : t.record? id = some (t.recallIndexRecord id memory) := by
        change (t.held id).memory.map _ = _
        rw [hr.here, hmemory, Option.map_some]
      rw [hrecord]
      exact .inr ⟨rfl, fun f hf => RecallTables.holds_upsert hf (t.recallIndexRecord id memory)⟩

theorem Rewrites.unindexed (hr : s.Rewrites t id after) (h : s.Coherent)
    (hmemory : after.memory = none) : (t.unindexed s.indexSynchronized id).Coherent := by
  refine hr.coherent h (fun memory h' => (nomatch hmemory.symm.trans h')) (fun _ => hmemory) ?_
  cases hsync : s.indexSynchronized with
  | false => exact .inl rfl
  | true =>
    have hrecord : t.record? id = none := by
      change (t.held id).memory.map _ = _
      rw [hr.here, hmemory, Option.map_none]
    rw [hrecord]
    exact .inr ⟨rfl, fun f hf => RecallTables.holds_delete hf id⟩

/-- The index does not look at conflict links. -/
theorem coherent_relinked (h : s.Coherent) {memories : BTreeMap Uuid Memory}
    {links : Uuid → Memory → List Uuid} (hget : ∀ id : Uuid, memories[id]? =
      (s.memories[id]?).map fun memory => { memory with conflictsWith := links id memory }) :
    { s with memories }.Coherent ∧ { s with memories }.indexSynchronized = s.indexSynchronized := by
  have hkeys : memories.keys = s.memories.keys := keys_eq_of_mem_iff fun id => by
    rw [Std.ExtTreeMap.mem_iff_isSome_getElem?, Std.ExtTreeMap.mem_iff_isSome_getElem?, hget,
      Option.isSome_map]
  have hsync : { s with memories }.indexSynchronized = s.indexSynchronized := by
    rw [indexSynchronized, indexSynchronized, ← Std.ExtTreeMap.length_keys, hkeys,
      Std.ExtTreeMap.length_keys]
  refine ⟨⟨fun id memory hmemory => ?_, fun id hid => ?_, fun h' => ?_⟩, hsync⟩
  · rw [hget] at hmemory
    obtain ⟨old, hold, rfl⟩ := Option.map_eq_some_iff.mp hmemory
    exact h.keyed id old hold
  · rw [hget, h.disjoint id hid, Option.map_none]
  · have hrecord : { s with memories }.record? = s.record? := by
      funext id
      rw [record?, hget, Option.map_map]
      rfl
    rw [hrecord]
    exact h.indexed (hsync ▸ h')

theorem coherent_upsertLabeled (h : s.Coherent) (memory : Memory) (embedding : Option (List F32))
    (label : String) : (s.upsertLabeled memory embedding label).1.Coherent := by
  rcases s.upsertLabeled_cases memory embedding label with ⟨-, e, he⟩ | ⟨-, t, hr, ht⟩
  · rw [he]
    exact h
  · rw [ht]
    exact hr.reindexed h rfl rfl id

theorem coherent_approve (h : s.Coherent) (id : Uuid) : (s.approve id).1.Coherent := by
  rcases s.approve_cases id with hsame | ⟨memory, t, hmemory, hr, ht⟩
  · rwa [hsame]
  · rw [ht]
    refine hr.reindexed h rfl (h.keyed id memory hmemory) fun hmem => ?_
    cases hmemory.symm.trans (h.disjoint id hmem)

theorem coherent_reject (h : s.Coherent) (id : Uuid) : (s.reject id).1.Coherent := by
  rcases s.reject_cases id with hsame | ⟨t, hr, ht⟩
  · rwa [hsame]
  · rw [ht]
    exact hr.unindexed h rfl

theorem coherent_delete (h : s.Coherent) (id : Uuid) : (s.delete id).1.Coherent := by
  rcases s.delete_cases id with hsame | ⟨memories, t, hget, hr, ht⟩
  · rwa [hsame]
  · obtain ⟨hrelinked, hsync⟩ := coherent_relinked h hget
    rw [ht, ← hsync]
    exact hr.unindexed hrelinked rfl

theorem coherent_linkConflict (h : s.Coherent) (left right : Uuid) :
    (s.linkConflict left right).1.Coherent := by
  rcases s.linkConflict_cases left right with hsame | ⟨-, -, -, memories, heq, hget⟩
  · rwa [hsame]
  · rw [heq]
    exact (coherent_relinked h hget).1

/-- The records of a rebuild are those of the store. -/
theorem find?_records (h : s.Coherent) (id : Uuid) :
    (s.memories.toList.map fun entry => s.recallIndexRecord entry.2.id entry.2).find? (·.id = id) =
      s.record? id := by
  rw [find?_map]
  cases hfind : s.memories.toList.find? ((fun r : RecallIndexRecord => decide (r.id = id)) ∘
      fun entry => s.recallIndexRecord entry.2.id entry.2) with
  | none =>
    have hnone : s.memories[id]? = none := by
      refine Option.eq_none_iff_forall_ne_some.mpr fun memory hmemory => ?_
      refine find?_eq_none.mp hfind (id, memory)
        (Std.ExtTreeMap.mem_toList_iff_getElem?_eq_some.mpr hmemory) ?_
      exact decide_eq_true (h.keyed id memory hmemory)
    rw [record?, hnone, Option.map_none, Option.map_none]
  | some entry =>
    have hget := Std.ExtTreeMap.mem_toList_iff_getElem?_eq_some.mp (mem_of_find?_eq_some hfind)
    have hid : entry.2.id = id := by simpa [recallIndexRecord] using find?_some hfind
    rw [← h.keyed _ _ hget, hid] at hget
    rw [record?, hget, Option.map_some, Option.map_some, hid]

theorem coherent_ensureRecallIndex (h : s.Coherent) :
    s.ensureRecallIndex.Coherent ∧ s.ensureRecallIndex.indexSynchronized := by
  unfold ensureRecallIndex
  split_ifs with hsync
  · exact ⟨h, hsync⟩
  · have hids : (s.memories.toList.map fun entry => s.recallIndexRecord entry.2.id entry.2).map
        (·.id) = s.memories.keys := by
      rw [map_map, ← Std.ExtTreeMap.map_fst_toList_eq_keys]
      refine map_congr_left fun entry hentry => ?_
      exact h.keyed _ _ (Std.ExtTreeMap.mem_toList_iff_getElem?_eq_some.mp hentry)
    have hholds := RecallTables.holds_rebuild (hids ▸ Std.ExtTreeMap.nodup_keys)
    rw [funext (find?_records h)] at hholds
    refine ⟨⟨h.keyed, h.disjoint, fun _ => hholds⟩, ?_⟩
    simp [indexSynchronized, RecallIndex.rebuild, Std.ExtTreeMap.length_toList]

/-- A recall may change the index and nothing else. -/
theorem ensureRecallIndex_eq : ∃ index, s.ensureRecallIndex = { s with recallIndex := index } := by
  unfold ensureRecallIndex
  split_ifs
  · exact ⟨s.recallIndex, rfl⟩
  · exact ⟨_, rfl⟩

theorem coherent_fresh (h : s.Coherent) (hmemories : s'.memories = s.memories)
    (hrejected : s'.rejected = s.rejected) (hindex : s'.recallIndex = {}) : s'.Coherent := by
  refine ⟨?_, ?_, indexed_fresh hindex⟩
  · rw [hmemories]
    exact h.keyed
  · rw [hmemories, hrejected]
    exact h.disjoint

/-! ### Runs -/

/-- An operation on one of the stores of a program, given by its place; copies become new
stores at the end. -/
inductive StoreOp where
  | upsert (memory : Memory) (embedding : Option (List F32))
  | upsertLabeled (memory : Memory) (embedding : Option (List F32)) (label : String)
  | approve (id : Uuid)
  | reject (id : Uuid)
  | delete (id : Uuid)
  | linkConflict (left right : Uuid)
  | recallLabeled (query : String) (queryEmbedding : Option (List F32))
    (modelId : String) (limit : ℕ)
      (now : DateTime)
  | clone
  | deserialise (labels : Bool)

variable [FullText] [Similarity]

/-- The store after an operation, whatever the operation returned, and the copy it made. -/
def apply (s : MemoryStore) : StoreOp → MemoryStore × List MemoryStore
  | .upsert memory embedding => ((s.upsert memory embedding).1, [])
  | .upsertLabeled memory embedding label => ((s.upsertLabeled memory embedding label).1, [])
  | .approve id => ((s.approve id).1, [])
  | .reject id => ((s.reject id).1, [])
  | .delete id => ((s.delete id).1, [])
  | .linkConflict left right => ((s.linkConflict left right).1, [])
  | .recallLabeled query queryEmbedding modelId limit now =>
    ((s.recallLabeled query queryEmbedding modelId limit now).1, [])
  | .clone => (s, [s.clone])
  | .deserialise labels => (s, [s.deserialised labels])

/-- One operation on the store at a place, if there is one. -/
def stepAll (stores : List MemoryStore) (op : ℕ × StoreOp) : List MemoryStore :=
  match stores[op.1]? with
  | none => stores
  | some s => stores.set op.1 (s.apply op.2).1 ++ (s.apply op.2).2

theorem coherent_recallLabeled (h : s.Coherent) (query : String)
    (queryEmbedding : Option (List F32))
    (modelId : String) (limit : ℕ) (now : DateTime) :
    (s.recallLabeled query queryEmbedding modelId limit now).1.Coherent := by
  unfold recallLabeled
  split_ifs
  · exact h
  · exact (coherent_ensureRecallIndex h).1

theorem apply_coherent (h : s.Coherent) (op : StoreOp) :
    (s.apply op).1.Coherent ∧ ∀ copy ∈ (s.apply op).2, copy.Coherent := by
  have hnone : ∀ copy ∈ ([] : List MemoryStore), copy.Coherent := fun _ h => (nomatch h)
  cases op with
  | upsert memory embedding => exact ⟨coherent_upsertLabeled h _ _ _, hnone⟩
  | upsertLabeled memory embedding label => exact ⟨coherent_upsertLabeled h _ _ _, hnone⟩
  | approve id => exact ⟨coherent_approve h id, hnone⟩
  | reject id => exact ⟨coherent_reject h id, hnone⟩
  | delete id => exact ⟨coherent_delete h id, hnone⟩
  | linkConflict left right => exact ⟨coherent_linkConflict h left right, hnone⟩
  | recallLabeled query queryEmbedding modelId limit now =>
    exact ⟨coherent_recallLabeled h _ _ _ _ _, hnone⟩
  | clone => exact ⟨h, fun copy hcopy => mem_singleton.mp hcopy ▸ coherent_fresh h rfl rfl rfl⟩
  | deserialise labels =>
    exact ⟨h, fun copy hcopy => mem_singleton.mp hcopy ▸ coherent_fresh h rfl rfl rfl⟩

theorem stepAll_coherent {stores : List MemoryStore} (h : ∀ s ∈ stores, s.Coherent)
    (op : ℕ × StoreOp) : ∀ s ∈ stepAll stores op, s.Coherent := by
  unfold stepAll
  cases hget : stores[op.1]? with
  | none => exact h
  | some s =>
    obtain ⟨hstore, hcopies⟩ := apply_coherent (h s (mem_of_getElem? hget)) op.2
    intro s' hs'
    rcases mem_append.mp hs' with hs' | hs'
    · rcases mem_or_eq_of_mem_set hs' with hs' | rfl
      · exact h s' hs'
      · exact hstore
    · exact hcopies s' hs'

/-- A candidate with a result has a memory in the store, reviewed and not expired. -/
theorem exists_of_scored {tokens : Finset String} {modelId : String} {now : DateTime}
    {candidate : RecallCandidate} {result : RecallResult}
    (h : s.scored tokens queryEmbedding modelId now candidate = some result) :
    ∃ memory, s.memories[candidate.id]? = some memory ∧ result.memory = memory.recalled ∧
      eligible memory ∧ unexpired memory now := by
  obtain ⟨memory, hget, h⟩ := Option.bind_eq_some_iff.mp h
  by_cases hlive : unexpired memory now && eligible memory
  · rw [hlive] at h
    cases h
    exact ⟨memory, hget, rfl, (Bool.and_eq_true_iff.mp hlive).symm⟩
  · rw [Bool.not_eq_true] at hlive
    rw [hlive] at h
    cases h

/-- What a recall returns stands in the store, reviewed and not expired. -/
theorem recallLabeled_mem {query : String} {modelId : String} {limit : ℕ} {now : DateTime}
    {result : RecallResult}
    (h : result ∈ (s.recallLabeled query queryEmbedding modelId limit now).2) :
    ∃ (id : Uuid) (memory : Memory), s.memories[id]? = some memory ∧
      result.memory = memory.recalled ∧
      eligible memory ∧ unexpired memory now := by
  unfold recallLabeled at h
  split_ifs at h
  · cases h
  · obtain ⟨h, -⟩ := mem_filter.mp
      ((stableSort_perm _).mem_iff.mp (mem_of_mem_take h))
    obtain ⟨candidate, -, h⟩ := mem_filterMap.mp h
    obtain ⟨memory, hget, hmemory⟩ := exists_of_scored h
    obtain ⟨index, hindex⟩ := ensureRecallIndex_eq (s := s)
    rw [hindex] at hget
    exact ⟨candidate.id, memory, hget, hmemory⟩

/-- **The recall index is coherent.**  In every run of operations on stores, their clones
and their deserialised copies: an index whose count is the number of memories has exactly
one record for each stored memory, with its content, eligibility, expiry, vector and label,
and none for another id; and a recall only returns memories that are stored, not rejected,
reviewed or user-authored, and not expired. -/
theorem index_coherent (models : List EmbeddingModel) (ops : List (ℕ × StoreOp)) :
    ∀ s ∈ run stepAll (models.map new) ops,
      (s.recallIndex.synchronizedCount = some s.memories.size →
        ∀ id : Uuid, let tables := s.recallIndex.tables
          let record := (s.memories[id]?).map (s.recallIndexRecord id)
          tables.fts.filter (·.memoryId = id) = (record.map fun r => ⟨id, r.content⟩).toList ∧
          tables.metadata[id]? = record.map (·.metadataRow) ∧
          tables.vectors[id]? = record.bind (·.vectorRow)) ∧
      ∀ (query : String) (queryEmbedding : Option (List F32)) (modelId : String) (limit : ℕ)
        (now : DateTime), ∀ result ∈ (s.recallLabeled query queryEmbedding modelId limit now).2,
          ∃ memory, s.memories[result.memory.id]? = some memory ∧ result.memory = memory.recalled ∧
            result.memory.id ∉ s.rejected ∧ eligible memory ∧ unexpired memory now := by
  have hrun := run_invariant (fun stores : List MemoryStore => ∀ s ∈ stores, s.Coherent)
    (fun _ op h => stepAll_coherent h op) (s := models.map new) ops (fun s hs => by
      obtain ⟨model, -, rfl⟩ := mem_map.mp hs
      exact coherent_new model)
  intro s hs
  have hcoherent := hrun s hs
  refine ⟨fun hsync id => ?_, fun query queryEmbedding modelId limit now result hresult => ?_⟩
  · have hholds := hcoherent.indexed (decide_eq_true hsync)
    exact ⟨hholds.fts id, hholds.metadata id, hholds.vectors id⟩
  · obtain ⟨id, memory, hget, hmemory, heligible, hexpiry⟩ := recallLabeled_mem hresult
    have hid : result.memory.id = id := by
      rw [hmemory]
      exact hcoherent.keyed id memory hget
    rw [hid]
    refine ⟨memory, hget, hmemory, fun hrejected => ?_, heligible, hexpiry⟩
    cases hget.symm.trans (hcoherent.disjoint id hrejected)

end Stores

section Examples

/-- Texts for closed runs: a text is one token and matches itself. -/
@[reducible] def wholeText : FullText where
  tokenize text := {text}
  isMatch tokens content := content ∈ tokens
  bm25 _ _ _ := 0

/-- Numbers for closed runs: everything is as similar as can be. -/
@[reducible] def allSimilar : Similarity where
  ratio _ _ := ⟨0x3f800000, by decide⟩
  cosine _ _ := ⟨0x3f800000, by decide⟩
  combined _ _ := ⟨0x3f800000, by decide⟩

/-- Times for closed runs: all the same. -/
@[reducible] def oneInstant : Instants := ⟨fun _ => 0⟩

attribute [local instance] wholeText allSimilar oneInstant

/-- A memory of closed runs. -/
def sample (id : Uuid) (trust : MemoryTrust) (content : String) : Memory where
  id := id
  tier := .semantic
  trust := trust
  content := content
  sourceEventIds := ["event"]
  confidence := .zero
  sensitivity := "private"
  createdAt := ⟨"now"⟩
  expiresAt := none
  conflictsWith := []

/-- A proposal that is stored, recalled in vain, approved and cloned: the index of the store
knows it as reviewed. -/
theorem index_coherent_approved :
    let ops : List (ℕ × StoreOp) := [(0, .upsert (sample 1 .proposedInference "tea") none),
      (0, .recallLabeled "tea" none "" 5 ⟨"now"⟩), (0, .approve 1), (0, .clone)]
    ∃ s ∈ run stepAll ([{}].map new) ops, s.recallIndex.synchronizedCount = some 1 ∧
      s.recallIndex.tables.metadata[1]? = some ⟨true, none⟩ ∧
      s.recallIndex.tables.fts.filter (·.memoryId = 1) = [⟨1, "tea"⟩] := by
  intro ops
  have hcount : ((run stepAll ([{}].map new) ops).head?.map fun s =>
      (s.recallIndex.synchronizedCount, s.memories.size)) = some (some 1, 1) := by
    decide +kernel
  have hmemory : ((run stepAll ([{}].map new) ops).head?.bind fun s => s.memories[1]?) =
      some { sample 1 .proposedInference "tea" with trust := .reviewedInference } := by
    decide +kernel
  obtain ⟨s, hs, hcount⟩ := Option.map_eq_some_iff.mp hcount
  obtain ⟨hsync, hsize⟩ := Prod.mk.inj hcount
  rw [hs, Option.bind_some] at hmemory
  have hmem := mem_of_mem_head? hs
  obtain ⟨hfts, hmetadata, -⟩ := (index_coherent [{}] ops s hmem).1 (hsize.symm ▸ hsync) 1
  refine ⟨s, hmem, hsync, ?_, ?_⟩
  · rw [hmetadata, hmemory]
    rfl
  · rw [hfts, hmemory]
    rfl

end Examples

end MemoryStore

end PersonalAgent.Memories
