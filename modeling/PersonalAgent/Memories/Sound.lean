/-
# Memory stores of the program

What every store that the memory crate can make has: facts with a source, none of them
marked as recalled, vectors of the size of the model with a label, and no vector without a
fact.  `MemoryStore.Reachable` lists the ways to make a store, `Reachable.sound` is the
invariant.

What a store holds of an id is its `entry`: the row of a fact with its vector and label, or
the tombstone of a rejected proposal.  Rows with distinct ids, each of them fit for the
model, become a store with these entries (`fromStorageRows_entries`).
-/

import PersonalAgent.Lib.Except
import PersonalAgent.Memories.Coherence
import PersonalAgent.Memories.Persistent

namespace PersonalAgent.Memories

open Lib Std.ExtTreeMap

namespace MemoryStore

theorem storedEmbeddingModelId_congr {s s' : MemoryStore} {id : Uuid}
    (hmodel : s'.embeddingModel = s.embeddingModel)
    (hlabel : s'.embeddingModels[id]? = s.embeddingModels[id]?) :
    s'.storedEmbeddingModelId id = s.storedEmbeddingModelId id := by
  rw [storedEmbeddingModelId, storedEmbeddingModelId, legacyCompatibleEmbeddingModelId,
    legacyCompatibleEmbeddingModelId, hmodel, hlabel]

section Sound

variable [Instants]

structure Sound (s : MemoryStore) : Prop where
  coherent : s.Coherent
  valid : ∀ id : Uuid, Valid s.embeddingModel s.memories[id]? s.embeddings[id]?
    (s.storedEmbeddingModelId id)

variable {s : MemoryStore}

theorem sound_new (model : EmbeddingModel) : (new model).Sound :=
  ⟨coherent_new model, fun _ => by simp [new, Valid]⟩

/-- What holds of one id only depends on what is stored under it. -/
theorem Rewrites.valid {t : MemoryStore} {id : Uuid} {after : Held} (hr : s.Rewrites t id after)
    (h : s.Sound) (hafter : Valid s.embeddingModel after.memory after.vector
      (after.label.getD s.legacyCompatibleEmbeddingModelId)) (id' : Uuid) :
    Valid t.embeddingModel t.memories[id']? t.embeddings[id']? (t.storedEmbeddingModelId id') := by
  change Valid t.embeddingModel (t.held id').memory (t.held id').vector
    ((t.held id').label.getD t.legacyCompatibleEmbeddingModelId)
  rw [legacyCompatibleEmbeddingModelId, hr.model]
  by_cases hid : id' = id
  · rw [hid, hr.here]
    exact hafter
  · rw [hr.other id' hid]
    exact h.valid id'

theorem sound_upsertLabeled (h : s.Sound) (memory : Memory) (embedding : Option (List F32))
    (label : String) : (s.upsertLabeled memory embedding label).1.Sound := by
  rcases s.upsertLabeled_cases memory embedding label with ⟨-, e, he⟩ | ⟨hfits, t, hr, ht⟩
  · rw [he]
    exact h
  · rw [ht]
    refine ⟨hr.reindexed h.coherent rfl rfl id, hr.valid h ?_⟩
    cases embedding with
    | none => exact ⟨hfits.1.1, hfits.1.2.1, vector_of_valid (h.valid memory.id)⟩
    | some vector => exact hfits.1

theorem sound_approve (h : s.Sound) (id : Uuid) : (s.approve id).1.Sound := by
  have hcoherent := coherent_approve h.coherent id
  rcases s.approve_cases id with hsame | ⟨memory, t, hmemory, hr, ht⟩
  · rwa [hsame]
  · have hvalid := h.valid id
    rw [hmemory] at hvalid
    rw [ht] at hcoherent ⊢
    exact ⟨hcoherent, hr.valid h ⟨hvalid.1, nofun, vector_of_valid (h.valid id)⟩⟩

theorem sound_reject (h : s.Sound) (id : Uuid) : (s.reject id).1.Sound := by
  rcases s.reject_cases id with hsame | ⟨t, hr, ht⟩
  · rwa [hsame]
  · rw [ht]
    exact ⟨hr.unindexed h.coherent rfl, hr.valid h rfl⟩

theorem sound_relinked (h : s.Sound) {memories : BTreeMap Uuid Memory}
    {links : Uuid → Memory → List Uuid} (hget : ∀ id : Uuid, memories[id]? =
      (s.memories[id]?).map fun memory => { memory with conflictsWith := links id memory }) :
    { s with memories }.Sound := by
  refine ⟨(coherent_relinked h.coherent hget).1, fun id => ?_⟩
  have hvalid := h.valid id
  change Valid s.embeddingModel memories[id]? s.embeddings[id]? (s.storedEmbeddingModelId id)
  rw [hget]
  cases hmemory : s.memories[id]? <;> rw [hmemory] at hvalid <;> exact hvalid

theorem sound_delete (h : s.Sound) (id : Uuid) : (s.delete id).1.Sound := by
  have hcoherent := coherent_delete h.coherent id
  rcases s.delete_cases id with hsame | ⟨memories, t, hget, hr, ht⟩
  · rwa [hsame]
  · rw [ht] at hcoherent ⊢
    exact ⟨hcoherent, hr.valid (sound_relinked h hget) rfl⟩

theorem sound_linkConflict (h : s.Sound) (left right : Uuid) :
    (s.linkConflict left right).1.Sound := by
  rcases s.linkConflict_cases left right with hsame | ⟨-, -, -, memories, heq, hget⟩
  · rwa [hsame]
  · rw [heq]
    exact sound_relinked h hget

/-- A store that differs in its index. -/
theorem sound_of_index (h : s.Sound) {index : RecallIndex}
    (hcoherent : { s with recallIndex := index }.Coherent) :
    { s with recallIndex := index }.Sound :=
  ⟨hcoherent, fun id => h.valid id⟩

theorem sound_clone (h : s.Sound) : s.clone.Sound :=
  sound_of_index h (coherent_fresh h.coherent rfl rfl rfl)

/-- A snapshot without labels is read under the label of its model. -/
theorem sound_deserialised (h : s.Sound) {labels : Bool}
    (hnamed : labels ∨ ¬blank s.legacyCompatibleEmbeddingModelId) :
    (s.deserialised labels).Sound := by
  refine ⟨coherent_fresh h.coherent rfl rfl rfl, fun id => ?_⟩
  cases labels with
  | true => exact h.valid id
  | false =>
    change Valid s.embeddingModel s.memories[id]? s.embeddings[id]?
      (((∅ : BTreeMap Uuid String)[id]?).getD s.legacyCompatibleEmbeddingModelId)
    have hvalid := h.valid id
    rw [getElem?_empty]
    cases hmemory : s.memories[id]? with
    | none =>
      rw [hmemory] at hvalid
      exact hvalid
    | some memory =>
      rw [hmemory] at hvalid
      exact ⟨hvalid.1, hvalid.2.1, fun v hv =>
        ⟨(hvalid.2.2 v hv).1, hnamed.resolve_left Bool.false_ne_true⟩⟩

end Sound

/-! ### Entries -/

def entry (s : MemoryStore) (id : Uuid) : Option MemoryStorageRow :=
  match s.memories[id]? with
  | some memory => some (.active memory s.embeddings[id]? (s.embeddingModelId id))
  | none => if id ∈ s.rejected then some (.rejected id) else none

theorem entry_congr {s s' : MemoryStore} {id : Uuid} (hmodel : s'.embeddingModel = s.embeddingModel)
    (hheld : s'.held id = s.held id) : s'.entry id = s.entry id := by
  obtain ⟨hmemory, hvector, hlabel, hrejected⟩ := Held.mk.inj hheld
  rw [entry, entry, hmemory, hvector, embeddingModelId, embeddingModelId, hvector,
    storedEmbeddingModelId_congr hmodel hlabel]
  simp only [hrejected]

theorem memory_of_entry_none {s : MemoryStore} {id : Uuid} (h : s.entry id = none) :
    s.memories[id]? = none ∧ id ∉ s.rejected := by
  unfold entry at h
  split at h
  · cases h
  · split_ifs at h with hrejected
    exact ⟨‹_›, hrejected⟩

section Entries

variable [Instants] {s : MemoryStore}

variable {id : Uuid} {row : MemoryStorageRow} {rows : List MemoryStorageRow}

theorem entry_id (h : s.Sound) (hentry : s.entry id = some row) : row.id = id := by
  unfold entry at hentry
  split at hentry
  · cases hentry
    exact h.coherent.keyed _ _ ‹_›
  · split_ifs at hentry
    cases hentry
    rfl

theorem entry_fits (h : s.Sound) (hentry : s.entry id = some row) : row.Fits s.embeddingModel := by
  have hvalid := h.valid id
  unfold entry at hentry
  split at hentry
  · rename_i memory hmemory
    cases hentry
    rw [hmemory] at hvalid
    rw [MemoryStorageRow.Fits, embeddingModelId]
    cases hvector : s.embeddings[id]? with
    | none => exact ⟨⟨hvalid.1, hvalid.2.1, fun v hv => by cases hv⟩, rfl⟩
    | some vector =>
      rw [hvector] at hvalid
      exact ⟨hvalid, rfl⟩
  · split_ifs at hentry
    cases hentry
    trivial

theorem entry_active (h : s.Sound) {memory : Memory} (hget : s.memories[id]? = some memory) :
    s.entry memory.id =
      some (.active memory s.embeddings[memory.id]? (s.embeddingModelId memory.id)) := by
  rw [h.coherent.keyed id memory hget, entry, hget]

/-- **The rows of a store** are its entries, under distinct ids. -/
theorem mem_storageRows (h : s.Sound) : row ∈ s.storageRows ↔ s.entry row.id = some row := by
  unfold storageRows
  dsimp only
  rw [(stableSort_perm _).mem_iff, List.mem_append, List.mem_map, List.mem_map]
  constructor
  · rintro (⟨⟨id, memory⟩, hentry, rfl⟩ | ⟨id, hid, rfl⟩)
    · exact entry_active h (mem_toList_iff_getElem?_eq_some.mp hentry)
    · have hmem : id ∈ s.rejected := Std.ExtTreeSet.mem_toList.mp hid
      change s.entry id = _
      rw [entry, h.coherent.disjoint id hmem]
      exact if_pos hmem
  · intro hentry
    unfold entry at hentry
    split at hentry
    · rename_i memory hget
      refine .inl ⟨(_, memory), mem_toList_iff_getElem?_eq_some.mpr hget, ?_⟩
      rw [h.coherent.keyed _ _ hget]
      exact Option.some.inj hentry
    · split_ifs at hentry with hrejected
      exact .inr ⟨row.id, Std.ExtTreeSet.mem_toList.mpr hrejected, Option.some.inj hentry⟩

theorem nodup_storageRows (h : s.Sound) : (s.storageRows.map (·.id)).Nodup := by
  unfold storageRows
  dsimp only
  have hactive : ((s.memories.toList.map fun entry => MemoryStorageRow.active entry.2
      s.embeddings[entry.2.id]? (s.embeddingModelId entry.2.id)).map (·.id)) = s.memories.keys := by
    rw [List.map_map, ← map_fst_toList_eq_keys]
    refine List.map_congr_left fun entry hentry => ?_
    exact h.coherent.keyed _ _ (mem_toList_iff_getElem?_eq_some.mp hentry)
  have hrejected : (s.rejected.toList.map MemoryStorageRow.rejected).map (·.id) =
      s.rejected.toList := by
    rw [List.map_map]
    exact List.map_id _
  rw [((stableSort_perm _).map _).nodup_iff, List.map_append, hactive, hrejected,
    List.nodup_append]
  refine ⟨nodup_keys, s.rejected.ordered_toList.imp fun hlt => ?_,
    fun a ha b hb heq => ?_⟩
  · exact fun heq => Nat.ne_of_lt (compare_lt_iff_lt.mp hlt) heq
  · rw [mem_keys, mem_iff_isSome_getElem?, heq,
      h.coherent.disjoint b (Std.ExtTreeSet.mem_toList.mp hb)] at ha
    cases ha

/-- The same facts, vectors, labels and tombstones, under the same model. -/
structure Same (s s' : MemoryStore) : Prop where
  embeddingModel : s'.embeddingModel = s.embeddingModel
  memories : s'.memories = s.memories
  embeddings : s'.embeddings = s.embeddings
  labels : ∀ id, s'.embeddingModelId id = s.embeddingModelId id
  rejected : s'.rejected = s.rejected

/-- A vector needs a fact. -/
theorem embeddings_none (h : s.Sound) (hnone : s.memories[id]? = none) :
    s.embeddings[id]? = none := by
  have hvalid := h.valid id
  rw [hnone] at hvalid
  exact hvalid

theorem mem_rejected_iff (h : s.Sound) : id ∈ s.rejected ↔ s.entry id = some (.rejected id) := by
  unfold entry
  constructor
  · intro hmem
    rw [h.coherent.disjoint id hmem]
    exact if_pos hmem
  · intro hentry
    split at hentry
    · cases hentry
    · split_ifs at hentry with hmem
      exact hmem

theorem same_of_entry {s' : MemoryStore} (h : s.Sound) (h' : s'.Sound)
    (hmodel : s'.embeddingModel = s.embeddingModel) (hentry : s'.entry = s.entry) : s.Same s' := by
  have hid (id : Uuid) : s'.memories[id]? = s.memories[id]? ∧
      s'.embeddings[id]? = s.embeddings[id]? ∧
      s'.embeddingModelId id = s.embeddingModelId id := by
    have hid := congrFun hentry id
    unfold entry at hid
    cases hmemory' : s'.memories[id]? with
    | some memory' =>
      cases hmemory : s.memories[id]? with
      | some memory =>
        rw [hmemory, hmemory', Option.some.injEq, MemoryStorageRow.active.injEq] at hid
        exact ⟨congrArg some hid.1, hid.2⟩
      | none =>
        rw [hmemory, hmemory'] at hid
        dsimp only at hid
        split_ifs at hid
        cases hid
    | none =>
      cases hmemory : s.memories[id]? with
      | some memory =>
        rw [hmemory, hmemory'] at hid
        dsimp only at hid
        split_ifs at hid
        cases hid
      | none =>
        rw [embeddingModelId, embeddingModelId, embeddings_none h hmemory,
          embeddings_none h' hmemory']
        exact ⟨rfl, rfl, rfl⟩
  refine ⟨hmodel, ext_getElem? fun id => (hid id).1,
    ext_getElem? fun id => (hid id).2.1, fun id => (hid id).2.2,
    Std.ExtTreeSet.ext_mem fun id => ?_⟩
  rw [mem_rejected_iff h, mem_rejected_iff h', hentry]

/-- A fact is added under an id without an entry. -/
theorem entry_upsertLabeled (h : s.Sound) (memory : Memory) (embedding : Option (List F32))
    (label : String) (hnew : s.entry memory.id = none)
    (hfits : (MemoryStorageRow.active memory embedding
      (embedding.map fun _ => label)).Fits s.embeddingModel) :
    ∃ s', s.upsertLabeled memory embedding label = (s', .ok ()) ∧
      s'.embeddingModel = s.embeddingModel ∧
      s'.entry = Function.update s.entry memory.id
        (some (.active memory embedding (embedding.map fun _ => label))) := by
  rcases s.upsertLabeled_cases memory embedding label with ⟨hunfit, -⟩ | ⟨-, t, hr, ht⟩
  · exact absurd hfits hunfit
  · refine ⟨_, ht, hr.model, funext fun id => ?_⟩
    rw [Function.update_apply]
    split_ifs with hid
    · obtain ⟨hmemory, hvector, hlabel, -⟩ := Held.mk.inj hr.here
      change t.entry id = _
      rw [hid, entry, hmemory, embeddingModelId, storedEmbeddingModelId, hvector, hlabel,
        embeddings_none h (memory_of_entry_none hnew).1]
      cases embedding <;> rfl
    · exact entry_congr hr.model (hr.other id hid)

theorem entry_rejected (h : s.Sound) (hnew : s.entry id = none) :
    { s with rejected := s.rejected.insert id }.Sound ∧
      { s with rejected := s.rejected.insert id }.entry =
        Function.update s.entry id (some (.rejected id)) := by
  obtain ⟨hmemory, -⟩ := memory_of_entry_none hnew
  refine ⟨⟨⟨h.coherent.keyed, fun id' hid' => ?_, h.coherent.indexed⟩, h.valid⟩, ?_⟩
  · rcases (mem_insert_iff _ _ _).mp hid' with rfl | hid'
    · exact hmemory
    · exact h.coherent.disjoint id' hid'
  · funext id'
    rw [Function.update_apply]
    split_ifs with hid
    · rw [entry, hid, hmemory]
      exact if_pos ((mem_insert_iff _ _ _).mpr (.inl rfl))
    · refine entry_congr rfl (congrArg (Held.mk _ _ _) (propext ?_))
      rw [mem_insert_iff]
      exact or_iff_right hid

/-- **One row of a load.**  A row that fits the model, under a new id, becomes an entry. -/
theorem addStorageRow_ok (h : s.Sound) {seen : BTreeSet Uuid} (hnew : s.entry row.id = none)
    (hseen : row.id ∉ seen) (hfits : row.Fits s.embeddingModel) :
    ∃ s', addStorageRow (s, seen) row = .ok (s', seen.insert row.id) ∧ s'.Sound ∧
      s'.embeddingModel = s.embeddingModel ∧
      s'.entry = Function.update s.entry row.id (some row) := by
  unfold addStorageRow
  dsimp only
  rw [if_neg hseen]
  match row with
  | .active memory (some vector) (some label) =>
    obtain ⟨s', hs', hmodel, hentry⟩ :=
      entry_upsertLabeled h memory (some vector) label hnew hfits
    have hsound := sound_upsertLabeled h memory (some vector) label
    rw [hs'] at hsound
    dsimp only
    rw [hs']
    exact ⟨s', rfl, hsound, hmodel, hentry⟩
  | .active memory none none =>
    obtain ⟨s', hs', hmodel, hentry⟩ :=
      entry_upsertLabeled h memory none s.legacyCompatibleEmbeddingModelId hnew hfits
    have hsound := sound_upsertLabeled h memory none s.legacyCompatibleEmbeddingModelId
    rw [hs'] at hsound
    dsimp only
    rw [upsert, hs']
    exact ⟨s', rfl, hsound, hmodel, hentry⟩
  | .active memory (some vector) none => cases hfits.2
  | .active memory none (some label) => cases hfits.2
  | .rejected id =>
    obtain ⟨hsound, hentry⟩ := entry_rejected h hnew
    exact ⟨_, rfl, hsound, rfl, hentry⟩

theorem foldlM_addStorageRow (seen : BTreeSet Uuid) (h : s.Sound)
    (hnew : ∀ row ∈ rows, s.entry row.id = none ∧ row.id ∉ seen) (hnodup : (rows.map (·.id)).Nodup)
    (hfits : ∀ row ∈ rows, row.Fits s.embeddingModel) :
    ∃ s' seen', rows.foldlM addStorageRow (s, seen) = .ok (s', seen') ∧ s'.Sound ∧
      s'.embeddingModel = s.embeddingModel ∧
      ∀ id, s'.entry id = (rows.find? (·.id = id)).or (s.entry id) := by
  induction rows generalizing s seen with
  | nil => exact ⟨s, seen, rfl, h, rfl, fun _ => rfl⟩
  | cons row rows ih =>
    obtain ⟨hhead, hrest⟩ := List.nodup_cons.mp hnodup
    obtain ⟨s₁, hrow, hsound, hmodel, hentry⟩ := addStorageRow_ok h (hnew row List.mem_cons_self).1
      (hnew row List.mem_cons_self).2 (hfits row List.mem_cons_self)
    have hother (row' : MemoryStorageRow) (hrow' : row' ∈ rows) : row'.id ≠ row.id :=
      fun heq => hhead (List.mem_map.mpr ⟨row', hrow', heq⟩)
    obtain ⟨s', seen', hrows, hsound', hmodel', hentry'⟩ := ih (seen.insert row.id) hsound
      (fun row' hrow' => by
        obtain ⟨hnone, hunseen⟩ := hnew row' (List.mem_cons_of_mem _ hrow')
        rw [hentry, Function.update_of_ne (hother row' hrow'), mem_insert_iff, not_or]
        exact ⟨hnone, hother row' hrow', hunseen⟩) hrest
      (fun row' hrow' => hmodel ▸ hfits row' (List.mem_cons_of_mem _ hrow'))
    refine ⟨s', seen', ?_, hsound', hmodel'.trans hmodel, fun id => ?_⟩
    · rw [List.foldlM_cons, hrow]
      exact hrows
    · rw [hentry', hentry, Function.update_apply, List.find?_cons]
      by_cases hid : row.id = id
      · have hnone : rows.find? (·.id = id) = none :=
          List.find?_eq_none.mpr fun row' hrow' => by simpa [← hid] using hother row' hrow'
        rw [hnone, if_pos hid.symm, decide_eq_true hid]
        rfl
      · rw [if_neg (Ne.symm hid), decide_eq_false hid]

/-- **A load.**  Rows with distinct ids, each of them fit for the model, become a store with
these entries. -/
theorem fromStorageRows_entries {model : EmbeddingModel} (hnodup : (rows.map (·.id)).Nodup)
    (hfits : ∀ row ∈ rows, row.Fits model) :
    ∃ s, fromStorageRows model rows = .ok s ∧ s.Sound ∧ s.embeddingModel = model ∧
      ∀ id, s.entry id = rows.find? (·.id = id) := by
  have hnone (id : Uuid) : (new model).entry id = none := by
    simp [entry, new]
  obtain ⟨s, seen, hrows, hsound, hmodel, hentry⟩ := foldlM_addStorageRow ∅ (sound_new model)
    (fun row _ => ⟨hnone row.id, by simp⟩) hnodup hfits
  refine ⟨s, ?_, hsound, hmodel, fun id => ?_⟩
  · rw [fromStorageRows, hrows]
    rfl
  · rw [hentry, hnone, Option.or_none]

theorem fits_of_upsertLabeled {memory : Memory} {embedding : Option (List F32)} {label : String}
    (h : (s.upsertLabeled memory embedding label).2 = .ok ()) :
    (MemoryStorageRow.active memory embedding
      (embedding.map fun _ => label)).Fits s.embeddingModel := by
  rcases s.upsertLabeled_cases memory embedding label with ⟨-, e, he⟩ | ⟨hfits, -⟩
  · rw [he] at h
    cases h
  · exact hfits

/-- Only such rows are taken. -/
theorem fits_of_addStorageRow {seen : BTreeSet Uuid} {r : MemoryStore × BTreeSet Uuid}
    (h : addStorageRow (s, seen) row = .ok r) : row.id ∉ seen ∧ row.Fits s.embeddingModel := by
  unfold addStorageRow at h
  dsimp only at h
  by_cases hseen : row.id ∈ seen
  · rw [if_pos hseen] at h
    cases h
  rw [if_neg hseen] at h
  refine ⟨hseen, ?_⟩
  match row with
  | .active memory (some vector) (some label) =>
    obtain ⟨_, hok, -⟩ := map_ok_iff.mp h
    exact fits_of_upsertLabeled hok
  | .active memory none none =>
    obtain ⟨_, hok, -⟩ := map_ok_iff.mp h
    exact fits_of_upsertLabeled hok
  | .active memory (some vector) none => cases h
  | .active memory none (some label) => cases h
  | .rejected id => trivial

/-- A loaded store is sound, whatever rows it was made of. -/
theorem sound_fromStorageRows {model : EmbeddingModel} (h : fromStorageRows model rows = .ok s) :
    s.Sound := by
  obtain ⟨⟨s', seen⟩, hrows, rfl⟩ := map_ok_iff.mp h
  -- ids that were not seen have no entry
  refine (foldlM_ok_invariant
    (fun acc : MemoryStore × BTreeSet Uuid => acc.1.Sound ∧ ∀ id, id ∉ acc.2 →
    acc.1.entry id = none)
    ?_ hrows ⟨sound_new model, fun id _ => by simp [entry, new]⟩).1
  rintro ⟨s, seen⟩ row ⟨s', seen'⟩ ⟨hsound, hunseen⟩ hrow
  obtain ⟨hseen, hfits⟩ := fits_of_addStorageRow hrow
  obtain ⟨s₁, hrow', hsound', -, hentry⟩ := addStorageRow_ok hsound (hunseen _ hseen) hseen hfits
  cases hrow.symm.trans hrow'
  refine ⟨hsound', fun id hid => ?_⟩
  rw [mem_insert_iff, not_or] at hid
  rw [hentry, Function.update_of_ne hid.1]
  exact hunseen id hid.2

end Entries

/-! ### Reachable stores -/

section Reachable

variable [Instants] [FullText] [Similarity]

/-- A store of the program: a new one, one that an operation was called on, a copy, or one
read back from rows.  A snapshot of an older release, without labels, has a name for its
model. -/
inductive Reachable : MemoryStore → Prop
  | new (model : EmbeddingModel) : Reachable (new model)
  | apply {s : MemoryStore} (h : Reachable s) (op : StoreOp) : Reachable (s.apply op).1
  | clone {s : MemoryStore} (h : Reachable s) : Reachable s.clone
  | deserialised {s : MemoryStore} (h : Reachable s) (labels : Bool)
      (hnamed : labels ∨ ¬blank s.legacyCompatibleEmbeddingModelId) :
      Reachable (s.deserialised labels)
  | fromStorageRows {s : MemoryStore} (model : EmbeddingModel) (rows : List MemoryStorageRow)
      (h : fromStorageRows model rows = .ok s) : Reachable s

theorem sound_apply {s : MemoryStore} (h : s.Sound) (op : StoreOp) : (s.apply op).1.Sound := by
  cases op with
  | upsert memory embedding => exact sound_upsertLabeled h _ _ _
  | upsertLabeled memory embedding label => exact sound_upsertLabeled h _ _ _
  | approve id => exact sound_approve h id
  | reject id => exact sound_reject h id
  | delete id => exact sound_delete h id
  | linkConflict left right => exact sound_linkConflict h left right
  | recallLabeled query queryEmbedding modelId limit now =>
    have hcoherent := coherent_recallLabeled h.coherent query queryEmbedding modelId limit now
    change (s.recallLabeled query queryEmbedding modelId limit now).1.Sound
    unfold recallLabeled at hcoherent ⊢
    split_ifs at hcoherent ⊢
    · exact h
    · obtain ⟨index, hindex⟩ := ensureRecallIndex_eq (s := s)
      dsimp only at hcoherent ⊢
      rw [hindex] at hcoherent ⊢
      exact sound_of_index h hcoherent
  | clone => exact h
  | deserialise labels => exact h

/-- **Every store of the program is sound.** -/
theorem Reachable.sound {s : MemoryStore} (h : s.Reachable) : s.Sound := by
  induction h with
  | new model => exact sound_new model
  | apply _ op ih => exact sound_apply ih op
  | clone _ ih => exact sound_clone ih
  | deserialised _ labels hnamed ih => exact sound_deserialised ih hnamed
  | fromStorageRows model rows h => exact sound_fromStorageRows h

end Reachable

end MemoryStore

/-! ### Namespaced memory -/

namespace PersistentMemory

variable {p : PersistentMemory}

theorem store_proposeStyle (preference : StylePreference) :
    (p.proposeStyle preference).1.store = p.store := by
  unfold proposeStyle
  split
  · rfl
  · split_ifs <;> rfl

theorem store_reviewStyle (id : Uuid) (accept : Bool) :
    (p.reviewStyle id accept).1.store = p.store := by
  unfold reviewStyle
  split
  · rfl
  · split_ifs <;> rfl

theorem store_upsertProjectNode (node : ProjectNode) :
    (p.upsertProjectNode node).1.store = p.store := by
  unfold upsertProjectNode
  split
  · rfl
  · split_ifs <;> rfl

theorem store_linkProjectNodes (relation : ProjectRelation) :
    (p.linkProjectNodes relation).1.store = p.store := by
  unfold linkProjectNodes
  split
  · rfl
  · split_ifs <;> rfl

variable [Instants] [FullText] [Similarity]

/-- A memory system of the program.  Its store is a public field; the namespaces, styles and
the project graph may come from any metadata that was stored. -/
inductive Reachable : PersistentMemory → Prop
  | fromStore {store : MemoryStore} (h : store.Reachable) : Reachable (fromStore store)
  | fromStorageParts {store : MemoryStore} (h : store.Reachable)
      (metadata : PersistentMemoryMetadata) : Reachable (fromStorageParts store metadata)
  | store {p : PersistentMemory} (h : Reachable p) (op : MemoryStore.StoreOp) :
      Reachable { p with store := (p.store.apply op).1 }
  | remember {p : PersistentMemory} (h : Reachable p) (scope : MemoryNamespace) (memory : Memory)
      (embedding : Option (List F32)) : Reachable (p.remember scope memory embedding).1
  | deleteNamespace {p : PersistentMemory} (h : Reachable p) (scope : MemoryNamespace) :
      Reachable (p.deleteNamespace scope).1
  | proposeStyle {p : PersistentMemory} (h : Reachable p) (preference : StylePreference) :
      Reachable (p.proposeStyle preference).1
  | reviewStyle {p : PersistentMemory} (h : Reachable p) (id : Uuid) (accept : Bool) :
      Reachable (p.reviewStyle id accept).1
  | upsertProjectNode {p : PersistentMemory} (h : Reachable p) (node : ProjectNode) :
      Reachable (p.upsertProjectNode node).1
  | linkProjectNodes {p : PersistentMemory} (h : Reachable p) (relation : ProjectRelation) :
      Reachable (p.linkProjectNodes relation).1
  | recallScoped {p : PersistentMemory} (h : Reachable p) (namespaces : Finset MemoryNamespace)
      (query : String) (queryEmbedding : Option (List F32)) (limit : ℕ) (now : DateTime) :
      Reachable (p.recallScoped namespaces query queryEmbedding limit now).1

theorem store_remember (h : p.store.Reachable) (scope : MemoryNamespace) (memory : Memory)
    (embedding : Option (List F32)) : (p.remember scope memory embedding).1.store.Reachable := by
  unfold remember
  split
  · exact h
  · have hupsert : (p.store.upsert memory embedding).1.Reachable :=
        h.apply (.upsert memory embedding)
    split <;> rename_i heq <;> rw [heq] at hupsert <;> exact hupsert

theorem store_deleteNamespace (h : p.store.Reachable) (scope : MemoryNamespace) :
    (p.deleteNamespace scope).1.store.Reachable := by
  have hall (ids : List Uuid) (s : MemoryStore) (hs : s.Reachable) :
      (ids.foldl (fun s id => (s.delete id).1) s).Reachable := by
    induction ids generalizing s with
    | nil => exact hs
    | cons id ids ih => exact ih _ (hs.apply (.delete id))
  exact hall _ _ h

/-- The store of a memory system is a store of the program. -/
theorem Reachable.store_reachable (h : p.Reachable) : p.store.Reachable := by
  induction h with
  | fromStore h => exact h
  | fromStorageParts h metadata => exact h
  | store _ op ih => exact ih.apply op
  | remember _ scope memory embedding ih => exact store_remember ih scope memory embedding
  | deleteNamespace _ scope ih => exact store_deleteNamespace ih scope
  | proposeStyle _ preference ih => rwa [store_proposeStyle]
  | reviewStyle _ id accept ih => rwa [store_reviewStyle]
  | upsertProjectNode _ node ih => rwa [store_upsertProjectNode]
  | linkProjectNodes _ relation ih => rwa [store_linkProjectNodes]
  | recallScoped _ namespaces query queryEmbedding limit now ih =>
    exact ih.apply (.recallLabeled query queryEmbedding _ _ now)

theorem Reachable.sound (h : p.Reachable) : p.store.Sound := h.store_reachable.sound

end PersistentMemory
end PersonalAgent.Memories
