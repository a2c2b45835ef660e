/-
# Saved memory reads back

A save is a difference against the stored rows: stale rows go, unchanged rows and their
links stay, the others are written.  `syncMemoryRows_spec` says what that amounts to, id by
id: the rows of the profile become those of the snapshot and all other rows stay.  It rests
on the stored rows agreeing with their bodies and links (`Agrees`), which every save and
every import keeps; so a run of saves, for any profiles, can be followed save by save
(`saved_memory_reads_back`).
-/

import PersonalAgent.Storage.MemoryRows

namespace PersonalAgent.Storage

open Lib List

open Memories

namespace MemoryTables

/-- The stored row of an id, if it is not an imported one, has the id, the trust and the
links of its body. -/
def AgreesAt (t : MemoryTables) (id : Text) : Prop :=
  ∀ stored, t.memories[id]? = some stored → stored.trust ∈ memoryTrusts →
    ∃ row : MemoryStorageRow, stored.body = .row row ∧ row.id.toText = id ∧
      row.trustLabel = stored.trust ∧ t.links id = row.sourceEventIds.toFinset

/-- The tables agree at every id. -/
def Agrees (t : MemoryTables) : Prop := ∀ id, t.AgreesAt id

def storedRow (profileId : String) (row : MemoryStorageRow) : MemoryTableRow :=
  ⟨profileId, row.trustLabel, .row row⟩

theorem trustLabel_mem (row : MemoryStorageRow) : row.trustLabel ∈ memoryTrusts := by
  cases row with
  | active memory _ _ => rw [MemoryStorageRow.trustLabel]; cases memory.trust <;> decide
  | rejected _ => rw [MemoryStorageRow.trustLabel]; decide

@[simp] theorem ownedBy_storedRow (profileId : String) (row : MemoryStorageRow) :
    (storedRow profileId row).ownedBy profileId := by
  simp [MemoryTableRow.ownedBy, storedRow, trustLabel_mem]

/-! ### One row -/

/-- The tables with a row and its links written. -/
def put (profileId : String) (t : MemoryTables) (id : Text) (row : MemoryStorageRow) :
    MemoryTables :=
  { t with
    memories := t.memories.insert id (storedRow profileId row)
    links := Function.update t.links id row.sourceEventIds.toFinset }

theorem relink_eq (t : MemoryTables) (id : Text) (row : MemoryStorageRow) :
    t.relink id row =
      { t with links := Function.update t.links id row.sourceEventIds.toFinset } := by
  have hfold (sources : List String) (linked : Finset String) :
      sources.foldl (fun links source => Function.update links id (insert source (links id)))
        (Function.update t.links id linked) =
      Function.update t.links id (linked ∪ sources.toFinset) := by
    induction sources generalizing linked with
    | nil => rw [foldl_nil, toFinset_nil, Finset.union_empty]
    | cons source sources ih =>
      rw [foldl_cons, Function.update_self, Function.update_idem, ih, toFinset_cons,
        Finset.union_insert, Finset.insert_union]
  rw [relink, hfold, Finset.empty_union]

variable {t t' : MemoryTables} {existing : BTreeMap Text MemoryTableRow}

/-- **One row of a save**: it is written, or it was there as it is; and nobody else's row
was. -/
theorem writeRow_ok {profileId : String} {id : Text} {row : MemoryStorageRow}
    (hexisting : existing[id]? = (t.memories[id]?).filter (·.ownedBy profileId))
    (hagrees : t.AgreesAt id) (h : writeRow profileId existing t id row = .ok t') :
    t' = t.put profileId id row ∧ (t.memories[id]?).all (·.ownedBy profileId) := by
  unfold writeRow at h
  dsimp only at h
  cases hstored : existing[id]? with
  | none =>
    rw [hstored] at h
    dsimp only at h
    cases hmemory : t.memories[id]? with
    | none =>
      rw [hmemory] at h
      cases h
      exact ⟨relink_eq _ _ _, rfl⟩
    | some other =>
      rw [hmemory] at h
      cases h
  | some stored =>
    rw [hstored] at h hexisting
    obtain ⟨hmemory, howned⟩ := Option.filter_eq_some_iff.mp hexisting.symm
    have hprofile : stored.profileId = profileId := by
      simp only [MemoryTableRow.ownedBy, Bool.and_eq_true, decide_eq_true_eq] at howned
      exact howned.1
    refine ⟨?_, by simp [hmemory, howned]⟩
    dsimp only at h
    by_cases hsame : stored.trust = row.trustLabel ∧ stored.body = .row row
    · rw [if_pos hsame] at h
      cases h
      have hrow : stored = storedRow profileId row := by
        rw [storedRow, ← hprofile, ← hsame.1, ← hsame.2]
      obtain ⟨row', hbody, -, -, hlinks⟩ := hagrees stored hmemory (hsame.1 ▸ trustLabel_mem row)
      cases hsame.2.symm.trans hbody
      have hmemories : t.memories.insert id (storedRow profileId row) = t.memories := by
        refine Std.ExtTreeMap.ext_getElem? fun id' => ?_
        rw [getElem?_insert_eq]
        split_ifs with hid
        · rw [hid, hmemory, hrow]
        · rfl
      rw [put, hmemories, ← hlinks, Function.update_eq_self]
    · rw [if_neg hsame] at h
      cases h
      have hrow : t.hasRow id profileId := by simp [hasRow, hmemory, hprofile]
      rw [if_pos hrow]
      exact relink_eq _ _ _

/-! ### All rows -/

/-- Only rows and links differ. -/
def SameSnapshots (t t' : MemoryTables) : Prop :=
  t'.models = t.models ∧ t'.metadata = t.metadata ∧ t'.legacyIndexes = t.legacyIndexes ∧
    t'.legacySystems = t.legacySystems

theorem SameSnapshots.trans {t'' : MemoryTables} (h : SameSnapshots t t')
    (h' : SameSnapshots t' t'') : SameSnapshots t t'' :=
  ⟨h'.1.trans h.1, h'.2.1.trans h.2.1, h'.2.2.1.trans h.2.2.1, h'.2.2.2.trans h.2.2.2⟩

def entryAt (t : MemoryTables) (id : Text) : Option MemoryTableRow × Finset String :=
  (t.memories[id]?, t.links id)

theorem AgreesAt.congr {id : Text} (h : t.AgreesAt id) (hsame : t'.entryAt id = t.entryAt id) :
    t'.AgreesAt id := by
  obtain ⟨hmemory, hlinks⟩ := Prod.mk.inj hsame
  intro stored
  rw [hmemory, hlinks]
  exact h stored

theorem entryAt_put (profileId : String) (t : MemoryTables) (id id' : Text)
    (row : MemoryStorageRow) : (t.put profileId id row).entryAt id' =
      if id' = id then (some (storedRow profileId row), row.sourceEventIds.toFinset)
      else t.entryAt id' := by
  simp only [entryAt, put, getElem?_insert_eq, Function.update_apply]
  split_ifs <;> rfl

theorem entryAt_deleteRow {profileId : String} {id : Text} (id' : Text)
    (hprofile : ∀ stored, t.memories[id]? = some stored → stored.profileId = profileId) :
    (t.deleteRow profileId id).entryAt id' = if id' = id then (none, ∅) else t.entryAt id' := by
  have hmemory : (t.deleteRow profileId id).memories[id']? =
      if id' = id then none else t.memories[id']? := by
    change (if t.hasRow id profileId then t.memories.erase id else t.memories)[id']? = _
    cases hstored : t.memories[id]? with
    | none =>
      have hno : ¬t.hasRow id profileId := by simp [hasRow, hstored]
      rw [if_neg hno]
      split_ifs with hid
      · rw [hid, hstored]
      · rfl
    | some stored =>
      have hyes : t.hasRow id profileId := by simp [hasRow, hstored, hprofile stored hstored]
      rw [if_pos hyes, getElem?_erase_eq]
  have hlinks : (t.deleteRow profileId id).links id' = if id' = id then ∅ else t.links id' :=
    Function.update_apply _ _ _ _
  rw [entryAt, hmemory, hlinks]
  split_ifs <;> rfl

/-- **All rows of a save.**  The rows are distinct, so each of them is compared with what was
stored before the loop. -/
theorem foldlM_writeRow {profileId : String} {entries : List (Text × MemoryStorageRow)}
    (hnodup : (entries.map Prod.fst).Nodup)
    (hexisting : ∀ e ∈ entries, existing[e.1]? = (t.memories[e.1]?).filter (·.ownedBy profileId))
    (hagrees : ∀ e ∈ entries, t.AgreesAt e.1)
    (h : entries.foldlM (fun t e => writeRow profileId existing t e.1 e.2) t = .ok t') :
    SameSnapshots t t' ∧
    (∀ e ∈ entries, t'.entryAt e.1 = (some (storedRow profileId e.2), e.2.sourceEventIds.toFinset) ∧
      (t.memories[e.1]?).all (·.ownedBy profileId)) ∧
    ∀ id, id ∉ entries.map Prod.fst → t'.entryAt id = t.entryAt id := by
  induction entries generalizing t with
  | nil =>
    cases pure_ok_iff.mp h
    exact ⟨⟨rfl, rfl, rfl, rfl⟩, fun _ h => (nomatch h), fun _ _ => rfl⟩
  | cons e entries ih =>
    obtain ⟨hhead, hrest⟩ := nodup_cons.mp hnodup
    obtain ⟨t₁, hwrite, h⟩ := bind_ok_iff.mp h
    obtain ⟨rfl, howned⟩ := writeRow_ok (hexisting e mem_cons_self)
      (hagrees e mem_cons_self) hwrite
    have hother {id : Text} (hid : id ≠ e.1) :
        (t.put profileId e.1 e.2).entryAt id = t.entryAt id :=
      (entryAt_put ..).trans (if_neg hid)
    have hkeep (e' : Text × MemoryStorageRow) (he' : e' ∈ entries) :
        (t.put profileId e.1 e.2).entryAt e'.1 = t.entryAt e'.1 :=
      hother fun heq => hhead (mem_map.mpr ⟨e', he', heq⟩)
    obtain ⟨hsame, hwritten, hkept⟩ := ih hrest
      (fun e' he' => by
        rw [(Prod.mk.inj (hkeep e' he')).1]
        exact hexisting e' (mem_cons_of_mem _ he'))
      (fun e' he' => (hagrees e' (mem_cons_of_mem _ he')).congr (hkeep e' he')) h
    refine ⟨SameSnapshots.trans ⟨rfl, rfl, rfl, rfl⟩ hsame, fun e' he' => ?_, fun id hid => ?_⟩
    · rcases mem_cons.mp he' with rfl | he'
      · exact ⟨(hkept e'.1 hhead).trans ((entryAt_put ..).trans (if_pos rfl)), howned⟩
      · obtain ⟨hentry, howned⟩ := hwritten e' he'
        rw [(Prod.mk.inj (hkeep e' he')).1] at howned
        exact ⟨hentry, howned⟩
    · rw [map_cons, mem_cons, not_or] at hid
      exact (hkept id hid.2).trans (hother hid.1)

/-- Removing rows that nobody else has. -/
theorem foldl_deleteRow (profileId : String) {ids : List Text}
    (hprofile : ∀ id ∈ ids, ∀ stored, t.memories[id]? = some stored →
      stored.profileId = profileId) :
    SameSnapshots t (ids.foldl (deleteRow profileId) t) ∧ ∀ id,
      (ids.foldl (deleteRow profileId) t).entryAt id =
        if id ∈ ids then (none, ∅) else t.entryAt id := by
  induction ids generalizing t with
  | nil => exact ⟨⟨rfl, rfl, rfl, rfl⟩, fun _ => rfl⟩
  | cons id ids ih =>
    obtain ⟨hhead, htail⟩ := forall_mem_cons.mp hprofile
    have hdelete (id' : Text) := entryAt_deleteRow id' hhead
    obtain ⟨hsame, hrest⟩ := ih (t := t.deleteRow profileId id) fun id' hid' stored hstored => by
      have hget := hdelete id'
      split_ifs at hget
      · cases hstored.symm.trans (Prod.mk.inj hget).1
      · exact htail id' hid' stored ((Prod.mk.inj hget).1.symm.trans hstored)
    refine ⟨SameSnapshots.trans ⟨rfl, rfl, rfl, rfl⟩ hsame, fun id' => ?_⟩
    rw [foldl_cons, hrest, hdelete]
    simp only [mem_cons]
    by_cases hid : id' = id <;> by_cases hids : id' ∈ ids <;> simp [hid, hids]

/-! ### A save -/

section Saves

/-- The row of a text key in a snapshot. -/
def rowAt (s : MemoryStore) (id : Text) : Option MemoryStorageRow := id.parse.bind s.entry

theorem rowAt_toText (s : MemoryStore) (id : Uuid) : rowAt s id.toText = s.entry id := rfl

variable [Instants] {s : MemoryStore}

theorem rowAt_id (hs : s.Sound) {id : Text} {row : MemoryStorageRow} (h : rowAt s id = some row) :
    row.id.toText = id := by
  obtain ⟨uuid, hparse, hentry⟩ := Option.bind_eq_some_iff.mp h
  cases id with
  | uuid id =>
    cases hparse
    rw [MemoryStore.entry_id hs hentry]
    rfl
  | plain text => cases hparse

theorem getElem?_snapshotRows (hs : s.Sound) (id : Text) : (snapshotRows s)[id]? = rowAt s id := by
  have hdistinct : (s.storageRows.map fun row => (row.id.toText, row)).Pairwise
      fun a b => ¬compare a.1 b.1 = .eq := by
    refine pairwise_map.mpr ((pairwise_map.mp (MemoryStore.nodup_storageRows hs)).imp
      fun hne heq => hne ?_)
    exact Text.uuid.inj (Std.LawfulEqCmp.compare_eq_iff_eq.mp heq)
  cases hrow : rowAt s id with
  | some row =>
    have hid := rowAt_id hs hrow
    rw [← hid, rowAt_toText] at hrow
    refine Std.ExtTreeMap.getElem?_ofList_of_mem (k := id) Std.ReflCmp.compare_self hdistinct ?_
    exact mem_map.mpr ⟨row, (MemoryStore.mem_storageRows hs).mpr hrow, by rw [hid]⟩
  | none =>
    refine Std.ExtTreeMap.getElem?_ofList_of_contains_eq_false ?_
    rw [map_map, contains_eq_mem, decide_eq_false_iff_not, mem_map]
    rintro ⟨row, hmem, rfl⟩
    rw [MemoryStore.mem_storageRows hs] at hmem
    cases hmem.symm.trans hrow

variable {t t' : MemoryTables} {profileId : String} {fault : Bool}

/-- **What a save does**, id by id: the rows of the profile become those of the snapshot, and
all other rows stay. -/
theorem syncMemoryRows_spec (hs : s.Sound) (hagrees : t.Agrees)
    (h : t.syncMemoryRows profileId s = .ok t') :
    SameSnapshots t t' ∧ ∀ id, match rowAt s id with
      | some row => t'.entryAt id = (some (storedRow profileId row), row.sourceEventIds.toFinset) ∧
          (t.memories[id]?).all (·.ownedBy profileId)
      | none => t'.entryAt id =
          if (t.memories[id]?).any (·.ownedBy profileId) then (none, ∅) else t.entryAt id := by
  unfold syncMemoryRows at h
  dsimp only at h
  generalize hstale :
    (t.ownedRows profileId).keys.filter (!(snapshotRows s).contains ·) = stale at h
  have howned (id : Text) : (t.ownedRows profileId)[id]? =
      (t.memories[id]?).filter (·.ownedBy profileId) := getElem?_filter_eq _ _ _
  have hstale_iff (id : Text) : id ∈ stale ↔
      (t.memories[id]?).any (·.ownedBy profileId) ∧ rowAt s id = none := by
    rw [← hstale, mem_filter, Std.ExtTreeMap.mem_keys, Std.ExtTreeMap.mem_iff_isSome_getElem?,
      howned, Std.ExtTreeMap.contains_eq_isSome_getElem?, getElem?_snapshotRows hs]
    cases t.memories[id]? <;> simp [Option.filter]
  obtain ⟨hsame, hdeleted⟩ := foldl_deleteRow profileId
    fun id (hid : id ∈ stale) stored (hstored : t.memories[id]? = some stored) => by
      obtain ⟨hany, -⟩ := (hstale_iff id).mp hid
      rw [hstored] at hany
      simp only [Option.any_some, MemoryTableRow.ownedBy, Bool.and_eq_true,
        decide_eq_true_eq] at hany
      exact hany.1
  generalize stale.foldl (deleteRow profileId) t = t₁ at h hsame hdeleted
  have hkept {id : Text} {row : MemoryStorageRow} (hrow : rowAt s id = some row) :
      t₁.entryAt id = t.entryAt id := by
    rw [hdeleted, if_neg fun hid => by cases hrow.symm.trans ((hstale_iff id).mp hid).2]
  have hentry (e : Text × MemoryStorageRow) (he : e ∈ (snapshotRows s).toList) :
      rowAt s e.1 = some e.2 := by
    rw [← getElem?_snapshotRows hs]
    exact Std.ExtTreeMap.mem_toList_iff_getElem?_eq_some.mp he
  have hnodup : ((snapshotRows s).toList.map Prod.fst).Nodup := by
    rw [Std.ExtTreeMap.map_fst_toList_eq_keys]
    exact Std.ExtTreeMap.nodup_keys
  obtain ⟨hsame', hwritten, hrest⟩ := foldlM_writeRow hnodup
    (fun e he => by rw [howned, (Prod.mk.inj (hkept (hentry e he))).1])
    (fun e he => (hagrees e.1).congr (hkept (hentry e he))) h
  refine ⟨hsame.trans hsame', fun id => ?_⟩
  cases hrow : rowAt s id with
  | some row =>
    obtain ⟨hput, hall⟩ := hwritten (id, row)
      (Std.ExtTreeMap.mem_toList_iff_getElem?_eq_some.mpr
      ((getElem?_snapshotRows hs id).trans hrow))
    rw [(Prod.mk.inj (hkept hrow)).1] at hall
    exact ⟨hput, hall⟩
  | none =>
    have hnot : id ∉ (snapshotRows s).toList.map Prod.fst := by
      rw [Std.ExtTreeMap.map_fst_toList_eq_keys, Std.ExtTreeMap.mem_keys,
        Std.ExtTreeMap.mem_iff_isSome_getElem?, getElem?_snapshotRows hs, hrow]
      exact Bool.false_ne_true
    rw [hrest id hnot, hdeleted]
    simp only [hstale_iff, hrow, and_true]

/-- A save keeps rows and links in agreement. -/
theorem agrees_syncMemoryRows (hs : s.Sound) (hagrees : t.Agrees)
    (h : t.syncMemoryRows profileId s = .ok t') : t'.Agrees := by
  intro id
  have hid := (syncMemoryRows_spec hs hagrees h).2 id
  cases hrow : rowAt s id with
  | some row =>
    rw [hrow] at hid
    obtain ⟨hmemory, hlinks⟩ := Prod.mk.inj hid.1
    intro stored hstored _
    cases hstored.symm.trans hmemory
    exact ⟨row, rfl, rowAt_id hs hrow, rfl, hlinks⟩
  | none =>
    rw [hrow] at hid
    dsimp only at hid
    split_ifs at hid
    · intro stored hstored
      cases hstored.symm.trans (Prod.mk.inj hid).1
    · exact (hagrees id).congr hid

/-! ### A load -/

def rowOf (e : Text × MemoryTableRow) : MemoryStorageRow := (e.2.body.decode).getD (.rejected 0)

/-- **A load after a save.**  If the rows of a profile are those of a snapshot, with their
links, the load gives the snapshot. -/
theorem loadMemoryStore_saved (hs : s.Sound) (hmodel : t.models[profileId]? = some s.embeddingModel)
    (howned : ∀ id, (t.ownedRows profileId)[id]? = (rowAt s id).map (storedRow profileId))
    (hlinks : ∀ id row, rowAt s id = some row → t.links id = row.sourceEventIds.toFinset) :
    ∃ s', t.loadMemoryStore profileId = .ok (some s') ∧ s.Same s' := by
  obtain ⟨stored, hstored⟩ : ∃ stored, stored = (t.ownedRows profileId).toList := ⟨_, rfl⟩
  have hmem (e : Text × MemoryTableRow) (he : e ∈ stored) :
      rowAt s e.1 = some (rowOf e) ∧ e.2 = storedRow profileId (rowOf e) := by
    rw [hstored, Std.ExtTreeMap.mem_toList_iff_getElem?_eq_some, howned] at he
    obtain ⟨row, hrow, he⟩ := Option.map_eq_some_iff.mp he
    rw [rowOf, ← he]
    exact ⟨hrow, rfl⟩
  have hread : stored.mapM (fun e => t.readRow e.1 e.2) = .ok (stored.map rowOf) := by
    refine mapM_ok fun e he => ?_
    obtain ⟨hrow, heq⟩ := hmem e he
    have hid : ¬((rowOf e).id.toText ≠ e.1 ∨
        (rowOf e).trustLabel ≠ (storedRow profileId (rowOf e)).trust) := by
      simp [rowAt_id hs hrow, storedRow]
    rw [heq]
    change (if _ then _ else _) = _
    rw [if_neg hid, if_neg (not_not_intro (hlinks _ _ hrow))]
  have hnodup : ((stored.map rowOf).map (·.id)).Nodup := by
    have hkeys : (stored.map Prod.fst).Nodup := by
      rw [hstored, Std.ExtTreeMap.map_fst_toList_eq_keys]
      exact Std.ExtTreeMap.nodup_keys
    have hids : ((stored.map rowOf).map (·.id)).map Uuid.toText = stored.map Prod.fst := by
      rw [map_map, map_map]
      exact map_congr_left fun e he => rowAt_id hs (hmem e he).1
    exact List.Nodup.of_map _ (hids ▸ hkeys)
  have hfits (row : MemoryStorageRow) (hrow : row ∈ stored.map rowOf) :
      row.Fits s.embeddingModel := by
    obtain ⟨e, he, rfl⟩ := mem_map.mp hrow
    obtain ⟨id, -, hentry⟩ := Option.bind_eq_some_iff.mp (hmem e he).1
    exact MemoryStore.entry_fits hs hentry
  obtain ⟨s', hload, hsound, hmodel', hentry⟩ := MemoryStore.fromStorageRows_entries hnodup hfits
  have hentry' : s'.entry = s.entry := by
    funext id
    rw [hentry]
    cases hrow : s.entry id with
    | none =>
      refine find?_eq_none.mpr fun row hmem' hid => ?_
      obtain ⟨e, he, rfl⟩ := mem_map.mp hmem'
      have hrow' := (hmem e he).1
      rw [← rowAt_id hs hrow', of_decide_eq_true hid, rowAt_toText, hrow] at hrow'
      cases hrow'
    | some row =>
      have hid := MemoryStore.entry_id hs hrow
      have hget : (t.ownedRows profileId)[id.toText]? = some (storedRow profileId row) := by
        rw [howned, rowAt_toText, hrow, Option.map_some]
      have hin : row ∈ stored.map rowOf := by
        refine mem_map.mpr ⟨(id.toText, storedRow profileId row), ?_, rfl⟩
        rw [hstored]
        exact Std.ExtTreeMap.mem_toList_iff_getElem?_eq_some.mpr hget
      obtain ⟨row', hfind⟩ := Option.isSome_iff_exists.mp
        (find?_isSome (p := (·.id = id)) |>.mpr ⟨row, hin, decide_eq_true hid⟩)
      rw [hfind]
      have hid' := find?_some hfind
      refine congrArg some (inj_on_of_nodup_map hnodup
        (mem_of_find?_eq_some hfind) hin ?_)
      exact (of_decide_eq_true hid').trans hid.symm
  refine ⟨s', ?_, MemoryStore.same_of_entry hs hsound hmodel' hentry'⟩
  unfold loadMemoryStore
  rw [hmodel]
  dsimp only [Option.isNone_some, Option.getD_some]
  rw [if_neg (by simp), ← hstored, hread]
  dsimp only [bind, Except.bind]
  rw [hload]

/-! ### Saves of memory systems -/

/-- The rows a save may not touch: those of other profiles, and imported ones. -/
def foreign (profileId : String) (row : MemoryTableRow) : Bool := !row.ownedBy profileId

/-- What a save of a profile leaves as it is: the rows of others with their links, and the
snapshots of other profiles. -/
structure Untouched (profileId : String) (t t' : MemoryTables) : Prop where
  rows : ∀ id : Text, (t'.memories[id]?).filter (foreign profileId) =
    (t.memories[id]?).filter (foreign profileId)
  links : ∀ id : Text, (t.memories[id]?).any (foreign profileId) → t'.links id = t.links id
  models : ∀ other : String, other ≠ profileId → t'.models[other]? = t.models[other]?
  metadata : ∀ other : String, other ≠ profileId → t'.metadata[other]? = t.metadata[other]?
  legacyIndexes : ∀ other : String, other ≠ profileId →
    t'.legacyIndexes[other]? = t.legacyIndexes[other]?
  legacySystems : ∀ other : String, other ≠ profileId →
    t'.legacySystems[other]? = t.legacySystems[other]?

theorem rows_of_sync (hs : s.Sound) (hagrees : t.Agrees) (h : t.syncMemoryRows profileId s = .ok t')
    (id : Text) :
    (t'.memories[id]?).filter (foreign profileId) = (t.memories[id]?).filter (foreign profileId) ∧
      ((t.memories[id]?).any (foreign profileId) → t'.links id = t.links id) ∧
      (t'.memories[id]?).filter (·.ownedBy profileId) =
        (rowAt s id).map (storedRow profileId) := by
  have hid := (syncMemoryRows_spec hs hagrees h).2 id
  cases hold : t.memories[id]? with
  | none =>
    cases hrow : rowAt s id <;> simp_all [entryAt, foreign, Option.filter]
  | some old =>
    cases howned : old.ownedBy profileId <;> cases hrow : rowAt s id <;>
      simp_all [entryAt, foreign, Option.filter]

theorem untouched_of_sync (hs : s.Sound) (hagrees : t.Agrees)
    (h : t.syncMemoryRows profileId s = .ok t') : Untouched profileId t t' := by
  obtain ⟨⟨hmodels, hmetadata, hindexes, hsystems⟩, -⟩ := syncMemoryRows_spec hs hagrees h
  exact ⟨fun id => (rows_of_sync hs hagrees h id).1, fun id => (rows_of_sync hs hagrees h id).2.1,
    fun _ _ => by rw [hmodels], fun _ _ => by rw [hmetadata], fun _ _ => by rw [hindexes],
    fun _ _ => by rw [hsystems]⟩

/-- The same memory system: the same facts, vectors, labels, tombstones, scopes, styles and
project graph. -/
structure SameSystem (p p' : PersistentMemory) : Prop where
  store : p.store.Same p'.store
  metadata : p'.storageMetadata = p.storageMetadata

omit [Instants] in
theorem transaction_ok {tx : Except MemoryRowError MemoryTables}
    (h : t.transaction fault tx = (t', .ok ())) : tx = .ok t' := by
  unfold transaction at h
  split_ifs at h
  · cases h
  · cases tx with
    | error e => cases h
    | ok t₁ =>
      cases h
      rfl

omit [Instants] in
theorem transaction_error {tx : Except MemoryRowError MemoryTables} {e : MemoryRowError}
    (h : t.transaction fault tx = (t', .error e)) : t' = t := by
  unfold transaction at h
  split_ifs at h
  · cases h
    rfl
  · cases tx with
    | error e =>
      cases h
      rfl
    | ok t₁ => cases h

/-- **A save that returns.** -/
theorem save_ok (hagrees : t.Agrees) {p : PersistentMemory} (hp : p.store.Sound)
    (h : t.savePersistentMemorySnapshot fault profileId p = (t', .ok ())) :
    t'.Agrees ∧ Untouched profileId t t' ∧
      ∃ p', t'.persistentMemorySnapshot profileId = .ok (some p') ∧ SameSystem p p' := by
  obtain ⟨t₁, hsync, h⟩ := bind_ok_iff.mp (transaction_ok h)
  cases pure_ok_iff.mp h
  have huntouched := untouched_of_sync hp hagrees hsync
  have hother {V : Type} (m : BTreeMap String V) (v : V) {other : String}
      (hne : other ≠ profileId) :
      (m.insert profileId v)[other]? = m[other]? ∧ (m.erase profileId)[other]? = m[other]? :=
    ⟨(getElem?_insert_eq _ _ _ _).trans (if_neg hne),
      (getElem?_erase_eq _ _ _).trans (if_neg hne)⟩
  have hagrees' := agrees_syncMemoryRows hp hagrees hsync
  refine ⟨hagrees', ⟨huntouched.rows, huntouched.links,
    fun other hne => ?_, fun other hne => ?_, fun other hne => ?_, fun other hne => ?_⟩, ?_⟩
  · exact (hother _ _ hne).1.trans (huntouched.models other hne)
  · exact (hother _ _ hne).1.trans (huntouched.metadata other hne)
  · exact (getElem?_erase_eq _ _ _).trans
      ((if_neg hne).trans (huntouched.legacyIndexes other hne))
  · exact (getElem?_erase_eq _ _ _).trans
      ((if_neg hne).trans (huntouched.legacySystems other hne))
  · obtain ⟨t', ht'⟩ : ∃ t' : MemoryTables, t' = { t₁ with
        models := t₁.models.insert profileId p.store.embeddingModel
        metadata := t₁.metadata.insert profileId p.storageMetadata
        legacyIndexes := t₁.legacyIndexes.erase profileId
        legacySystems := t₁.legacySystems.erase profileId } := ⟨_, rfl⟩
    rw [← ht']
    have hmodel : t'.models[profileId]? = some p.store.embeddingModel := by
      rw [ht']
      exact (getElem?_insert_eq _ _ _ _).trans (if_pos rfl)
    have hmetadata : t'.metadata[profileId]? = some p.storageMetadata := by
      rw [ht']
      exact (getElem?_insert_eq _ _ _ _).trans (if_pos rfl)
    obtain ⟨s', hload, hsame⟩ := loadMemoryStore_saved hp hmodel
      (fun id => by
        rw [ht']
        exact (getElem?_filter_eq _ _ _).trans (rows_of_sync hp hagrees hsync id).2.2)
      (fun id row hrow => by
        have hid := (syncMemoryRows_spec hp hagrees hsync).2 id
        rw [hrow] at hid
        rw [ht']
        exact (Prod.mk.inj hid.1).2)
    refine ⟨.fromStorageParts s' p.storageMetadata, ?_, hsame, rfl⟩
    rw [persistentMemorySnapshot, hmetadata]
    dsimp only
    rw [hload]
    rfl

theorem agrees_saveMemorySnapshot (hagrees : t.Agrees) (hs : s.Sound) (fault : Bool)
    (profileId : String) : (t.saveMemorySnapshot fault profileId s).1.Agrees := by
  obtain ⟨⟨t', result⟩, h⟩ : ∃ r, t.saveMemorySnapshot fault profileId s = r := ⟨_, rfl⟩
  rw [h]
  cases result with
  | error e =>
    rw [transaction_error h]
    exact hagrees
  | ok _ =>
    obtain ⟨t₁, hsync, h⟩ := bind_ok_iff.mp (transaction_ok h)
    cases pure_ok_iff.mp h
    have hagrees' := agrees_syncMemoryRows hs hagrees hsync
    exact hagrees'

omit [Instants] in
theorem agrees_importMemory (hagrees : t.Agrees) (fault : Bool) (id : Text)
    (record : ImportedMemory) : (t.importMemory fault id record).1.Agrees := by
  obtain ⟨⟨t', result⟩, h⟩ : ∃ r, t.importMemory fault id record = r := ⟨_, rfl⟩
  rw [h]
  cases result with
  | error e =>
    rw [transaction_error h]
    exact hagrees
  | ok _ =>
    have htx := transaction_ok h
    split_ifs at htx
    cases htx
    intro id' stored hstored htrust
    rw [getElem?_insert_eq] at hstored
    split_ifs at hstored with hid
    · cases hstored
      simp [memoryTrusts] at htrust
    · exact hagrees id' stored hstored htrust

end Saves

/-! ### Runs -/

/-- The writes to the tables of memory. -/
inductive MemoryOp where
  | save (fault : Bool) (profileId : String) (snapshot : PersistentMemory)
  | saveStore (fault : Bool) (profileId : String) (snapshot : MemoryStore)
  | importMemory (fault : Bool) (id : Text) (record : ImportedMemory)

/-- The tables after a write, whatever the write returned. -/
def step (t : MemoryTables) : MemoryOp → MemoryTables
  | .save fault profileId snapshot =>
    (t.savePersistentMemorySnapshot fault profileId snapshot).1
  | .saveStore fault profileId snapshot => (t.saveMemorySnapshot fault profileId snapshot).1
  | .importMemory fault id record => (t.importMemory fault id record).1

section Runs

variable [Instants] [FullText] [Similarity]

/-- What is saved was made by the memory crate. -/
def MemoryOp.Reachable : MemoryOp → Prop
  | .save _ _ snapshot => snapshot.Reachable
  | .saveStore _ _ snapshot => snapshot.Reachable
  | .importMemory _ _ _ => True

theorem agrees_step {t : MemoryTables} (hagrees : t.Agrees) (op : MemoryOp) (hop : op.Reachable) :
    (t.step op).Agrees := by
  cases op with
  | save fault profileId snapshot =>
    obtain ⟨⟨t', result⟩, h⟩ : ∃ r, t.savePersistentMemorySnapshot fault profileId snapshot = r :=
      ⟨_, rfl⟩
    rw [step, h]
    cases result with
    | error e =>
      rw [transaction_error h]
      exact hagrees
    | ok _ => exact (save_ok hagrees (PersistentMemory.Reachable.sound hop) h).1
  | saveStore fault profileId snapshot =>
    exact agrees_saveMemorySnapshot hagrees (MemoryStore.Reachable.sound hop) fault profileId
  | importMemory fault id record => exact agrees_importMemory hagrees fault id record

/-- **Saved memory reads back.**  In every run of saves and imports, from tables whose rows
agree with their bodies and links: the rows still agree; and a further save either fails and
changes nothing, or the profile then loads the saved system, with the rows and links of other
profiles, the imported rows and the snapshots of other profiles left as they were. -/
theorem saved_memory_reads_back {t₀ : MemoryTables} (h₀ : t₀.Agrees) {ops : List MemoryOp}
    (hops : ∀ op ∈ ops, op.Reachable) (fault : Bool) (profileId : String) {p : PersistentMemory}
    (hp : p.Reachable) :
    let t := run step t₀ ops
    let saved := t.savePersistentMemorySnapshot fault profileId p
    t.Agrees ∧ saved.1.Agrees ∧ (∀ e, saved.2 = .error e → saved.1 = t) ∧
      (saved.2 = .ok () → Untouched profileId t saved.1 ∧
        ∃ p', saved.1.persistentMemorySnapshot profileId = .ok (some p') ∧ SameSystem p p') := by
  intro t saved
  have hagrees : t.Agrees := by
    have hrun (ops : List MemoryOp) (hops : ∀ op ∈ ops, op.Reachable) (t : MemoryTables)
        (ht : t.Agrees) : (run step t ops).Agrees := by
      induction ops generalizing t with
      | nil => exact ht
      | cons op ops ih =>
        exact ih (fun op' hop' => hops op' (mem_cons_of_mem _ hop')) _
          (agrees_step ht op (hops op mem_cons_self))
    exact hrun ops hops t₀ h₀
  refine ⟨hagrees, agrees_step hagrees (.save fault profileId p) hp, fun e he => ?_,
    fun hok => ?_⟩
  · exact transaction_error (e := e) (Prod.ext rfl he)
  · exact (save_ok hagrees hp.sound (Prod.ext rfl hok)).2

end Runs

section Examples

attribute [local instance] MemoryStore.wholeText MemoryStore.allSimilar MemoryStore.oneInstant

/-- A system with one reviewed fact, with its vector, and a rejected proposal. -/
def reviewed : PersistentMemory :=
  let p : PersistentMemory := .new { dimensions := 1 }
  let p := (p.remember .global (MemoryStore.sample 1 .trustedUser "tea") (some [.zero])).1
  let p := (p.remember .global (MemoryStore.sample 2 .proposedInference "coffee") none).1
  { p with store := (p.store.apply (.reject 2)).1 }

/-- The same system with the fact in other words. -/
def reworded : PersistentMemory :=
  (reviewed.remember .global (MemoryStore.sample 1 .trustedUser "green tea") none).1

theorem reachable_reviewed : reviewed.Reachable :=
  .store (.remember (.remember (.fromStore (.new _)) _ _ _) _ _ _) (.reject 2)

theorem agrees_empty : ({} : MemoryTables).Agrees := fun _ _ h => by simp at h

/-- A save, an import, a save that fails and a save that updates one row and leaves the
tombstone; the system that was saved last reads back. -/
theorem saved_memory_reads_back_reworded :
    let ops : List MemoryOp := [.save false "default" reviewed,
      .importMemory false (.plain "note") ⟨"notes", none, "", "text"⟩,
        .save true "default" reworded]
    let saved := (run step {} ops).savePersistentMemorySnapshot false "default" reworded
    saved.2.toBool ∧ (saved.1.memories[Text.plain "note"]?).isSome ∧
      ∃ p', saved.1.persistentMemorySnapshot "default" = .ok (some p') ∧
        SameSystem reworded p' := by
  intro ops saved
  have hops : ∀ op ∈ ops, op.Reachable := by
    simp only [ops, forall_mem_cons]
    exact ⟨reachable_reviewed, trivial, reachable_reviewed.remember _ _ _, fun _ h => (nomatch h)⟩
  have hok : saved.2.toBool := by decide +kernel
  refine ⟨hok, by decide +kernel, ?_⟩
  refine ((saved_memory_reads_back agrees_empty hops false "default"
    (reachable_reviewed.remember _ _ _)).2.2.2 ?_).2
  change saved.2 = _
  cases hsaved : saved.2 with
  | error e =>
    rw [hsaved] at hok
    cases hok
  | ok _ => rfl

end Examples

end MemoryTables
end PersonalAgent.Storage
