/-
# The rows of memory

`sync_memory_rows`, `load_memory_store` and the snapshot calls around them
(`crates/storage/src/lib.rs`, lines 935 to 1030 and 1584 to 1756).  Facts and tombstones of
all profiles share the table `memories`, whose primary key is the id alone, with the rows
that a migration imported; `memory_links` has the source events of each id.  A save compares
the rows of its profile with the stored ones and writes the differences.

The body of a row is JSON.  Its encoding is assumed to round-trip, so a body is the row
itself, or what a migration wrote, which is no such row.  The same goes for the snapshots of
the embedding model and the metadata, kept here by profile and without the time of their
last change, which nothing reads.
-/

import PersonalAgent.Memories.Sound
import PersonalAgent.Storage.EventStore

namespace PersonalAgent.Storage

open Memories

/-! ### Ids as keys -/

/-- UUIDs in their order, which is that of their spellings, and other texts after them. -/
instance : Ord Text where
  compare := compareLex (compareOn fun | .uuid _ => 0 | .plain _ => 1)
    (compareLex (compareOn fun | .uuid id => id | .plain _ => 0)
      (compareOn fun | .uuid _ => "" | .plain text => text))

instance : Std.TransCmp (compare : Text → Text → Ordering) :=
  inferInstanceAs (Std.TransCmp (compareLex _ (compareLex _ _)))

instance : Std.LawfulEqCmp (compare : Text → Text → Ordering) where
  eq_of_compare {a b} h := by
    obtain ⟨hkind, h⟩ := compareLex_eq_eq.mp h
    obtain ⟨hid, htext⟩ := compareLex_eq_eq.mp h
    cases a <;> cases b <;> simp_all [compareOn]

/-! ### The tables -/

/-- What a migration wrote about an imported memory. -/
structure ImportedMemory where
  sourceLocator : String
  sourceModifiedAt : Option String
  contentSha256 : String
  markdown : String
  deriving DecidableEq

/-- `body_json` of a row of `memories`. -/
inductive MemoryBody where
  | row (stored : MemoryStorageRow)
  | imported (record : ImportedMemory)
  deriving DecidableEq

/-- `serde_json::from_str::<MemoryStorageRow>`. -/
def MemoryBody.decode : MemoryBody → Option MemoryStorageRow
  | .row stored => some stored
  | .imported _ => none

/-- A row of `memories`, under its id. -/
structure MemoryTableRow where
  profileId : String
  trust : String
  body : MemoryBody
  deriving DecidableEq

/-- A snapshot in the format of an older release, with the time of its last change; the body
may not be readable. -/
structure LegacySnapshot (α : Type) where
  body : Option α
  updatedAt : String

/-- The tables that memory is stored in, with the snapshots of memory by profile. -/
structure MemoryTables where
  memories : BTreeMap Text MemoryTableRow := ∅
  links : Text → Finset String := fun _ => ∅
  models : BTreeMap String EmbeddingModel := ∅
  metadata : BTreeMap String PersistentMemoryMetadata := ∅
  legacyIndexes : BTreeMap String (LegacySnapshot MemoryStore) := ∅
  legacySystems : BTreeMap String (LegacySnapshot PersistentMemory) := ∅

/-- `StorageError`, as far as memory goes. -/
inductive MemoryRowError where
  | memoryProfileCollision (id : Text) (existingProfile requestedProfile : String)
  | memoryRowMismatch (id : Text)
  | memoryLinksMismatch (id : Text)
  | memory (error : MemoryError)
  | storage (error : StorageError)
  deriving DecidableEq

/-- The trust of rows that are not imported. -/
def memoryTrusts : List String :=
  ["trusted_user", "reviewed_inference", "proposed_inference", "background_observation",
    "recalled", "rejected"]

/-- The rows a save and a load look at. -/
def MemoryTableRow.ownedBy (profileId : String) (row : MemoryTableRow) : Bool :=
  row.profileId = profileId && row.trust ∈ memoryTrusts

namespace MemoryTables

variable (t : MemoryTables)

/-- `WHERE id=?1 AND profile_id=?2`. -/
def hasRow (id : Text) (profileId : String) : Bool :=
  (t.memories[id]?).any (·.profileId = profileId)

def deleteRow (profileId : String) (t : MemoryTables) (id : Text) : MemoryTables :=
  { t with
    links := Function.update t.links id ∅
    memories := if t.hasRow id profileId then t.memories.erase id else t.memories }

/-- The links of a row that was written: first all of them are deleted. -/
def relink (id : Text) (row : MemoryStorageRow) : MemoryTables :=
  let link (links : Text → Finset String) (source : String) :=
    Function.update links id (insert source (links id))
  { t with links := row.sourceEventIds.foldl link (Function.update t.links id ∅) }

/-- One turn of the loop over the rows of a snapshot. -/
def writeRow (profileId : String) (existing : BTreeMap Text MemoryTableRow) (t : MemoryTables)
    (id : Text) (row : MemoryStorageRow) : Except MemoryRowError MemoryTables :=
  let written : MemoryTableRow := ⟨profileId, row.trustLabel, .row row⟩
  match existing[id]? with
  | some stored =>
    if stored.trust = written.trust ∧ stored.body = written.body then .ok t
    else
      let memories :=
        if t.hasRow id profileId then t.memories.insert id written else t.memories
      .ok ({ t with memories }.relink id row)
  | none =>
    match t.memories[id]? with
    | some other => .error (.memoryProfileCollision id other.profileId profileId)
    | none => .ok ({ t with memories := t.memories.insert id written }.relink id row)

def snapshotRows (snapshot : MemoryStore) : BTreeMap Text MemoryStorageRow :=
  .ofList (snapshot.storageRows.map fun row => (row.id.toText, row))

def ownedRows (profileId : String) : BTreeMap Text MemoryTableRow :=
  t.memories.filter fun _ row => row.ownedBy profileId

def syncMemoryRows (profileId : String) (snapshot : MemoryStore) :
    Except MemoryRowError MemoryTables :=
  let rows := snapshotRows snapshot
  let existing := t.ownedRows profileId
  let t := (existing.keys.filter (!rows.contains ·)).foldl (deleteRow profileId) t
  rows.toList.foldlM (fun t entry => writeRow profileId existing t entry.1 entry.2) t

/-- A stored row, checked against its key, its trust and its links. -/
def readRow (id : Text) (stored : MemoryTableRow) :
    Except MemoryRowError MemoryStorageRow :=
  match stored.body.decode with
  | none => .error (.storage .json)
  | some row =>
    if row.id.toText ≠ id ∨ row.trustLabel ≠ stored.trust then .error (.memoryRowMismatch id)
    else if t.links id ≠ row.sourceEventIds.toFinset then .error (.memoryLinksMismatch id)
    else .ok row

variable [Instants] (t : MemoryTables)

def loadMemoryStore (profileId : String) :
    Except MemoryRowError (Option MemoryStore) :=
  let model := t.models[profileId]?
  let stored := (t.ownedRows profileId).toList
  if model.isNone && stored.isEmpty then .ok none
  else do
    let rows ← stored.mapM fun entry => t.readRow entry.1 entry.2
    match MemoryStore.fromStorageRows (model.getD {}) rows with
    | .ok store => .ok (some store)
    | .error e => .error (.memory e)

/-- Load the row-backed namespaced memory system. -/
def persistentMemorySnapshot (profileId : String) :
    Except MemoryRowError (Option PersistentMemory) :=
  match t.metadata[profileId]? with
  | none => .ok none
  | some metadata => do
    let store ← t.loadMemoryStore profileId
    return some (.fromStorageParts (store.getD (.new {})) metadata)

omit [Instants]

/-- A transaction: what it wrote is there if every statement and the commit succeed. -/
def transaction (fault : Bool) (tx : Except MemoryRowError MemoryTables) :
    MemoryTables × Except MemoryRowError Unit :=
  if fault then (t, .error (.storage .database))
  else match tx with
    | .ok t' => (t', .ok ())
    | .error e => (t, .error e)

/-- Atomically synchronize independently writable memory/vector rows. -/
def saveMemorySnapshot (fault : Bool) (profileId : String)
    (snapshot : MemoryStore) : MemoryTables × Except MemoryRowError Unit :=
  t.transaction fault do
    let t ← t.syncMemoryRows profileId snapshot
    return { t with
      models := t.models.insert profileId snapshot.embeddingModel
      legacyIndexes := t.legacyIndexes.erase profileId }

/-- Atomically synchronize memory rows plus the smaller namespace/style/project metadata. -/
def savePersistentMemorySnapshot (fault : Bool) (profileId : String)
    (snapshot : PersistentMemory) : MemoryTables × Except MemoryRowError Unit :=
  t.transaction fault do
    let t ← t.syncMemoryRows profileId snapshot.store
    return { t with
      models := t.models.insert profileId snapshot.store.embeddingModel
      metadata := t.metadata.insert profileId snapshot.storageMetadata
      legacyIndexes := t.legacyIndexes.erase profileId
      legacySystems := t.legacySystems.erase profileId }

/-- `materialize_migration_record` for a memory. -/
def importMemory (fault : Bool) (id : Text) (record : ImportedMemory) :
    MemoryTables × Except MemoryRowError Unit :=
  t.transaction fault <|
    if t.memories.contains id then .error (.storage .database)
    else .ok { t with
      memories := t.memories.insert id ⟨"default", "legacy-imported", .imported record⟩ }

end MemoryTables
end PersonalAgent.Storage
