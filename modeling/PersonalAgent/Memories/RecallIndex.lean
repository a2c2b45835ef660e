/-
# The recall index

`RecallIndex` of `crates/memory/src/lib.rs` (lines 268 to 724): an in-memory database with
a full-text table, a table of eligibility and expiry, and a table of vectors, kept beside
a memory store and derived from it.  Rows of the full-text table are in the order of their
row ids; ids are the keys of the other two.  `synchronizedCount` is all the index
remembers about the store it was taken from.

What SQLite makes of a full-text query is left open (`FullText`): whether a text matches,
and the `bm25` of a text in a corpus.
-/

import PersonalAgent.Lib.SortedPages
import PersonalAgent.Memories.Record

namespace PersonalAgent.Memories

/-- Tokens and full-text search. -/
class FullText where
  tokenize : String → Finset String
  /-- `recall_fts MATCH` of the quoted tokens joined by `OR`. -/
  isMatch : Finset String → String → Bool
  bm25 : List String → Finset String → String → ℚ

structure FtsRow where
  memoryId : Uuid
  content : String
  deriving DecidableEq, Repr

structure MetadataRow where
  eligible : Bool
  expiresAtMillis : Option ℤ
  deriving DecidableEq, Repr

structure VectorRow where
  modelId : String
  dimensions : ℕ
  vector : List UInt8
  deriving DecidableEq, Repr

/-- The tables of the index. -/
structure RecallTables where
  fts : List FtsRow := []
  metadata : BTreeMap Uuid MetadataRow := ∅
  vectors : BTreeMap Uuid VectorRow := ∅

/-- The connection is opened at the first use. -/
structure RecallIndex where
  connection : Option RecallTables := none
  synchronizedCount : Option ℕ := some 0

/-- What the index holds of one memory. -/
structure RecallIndexRecord where
  id : Uuid
  content : String
  eligible : Bool
  expiresAtMillis : Option ℤ
  vector : Option (List F32)
  modelId : Option String

structure RecallCandidate where
  id : Uuid
  vector : Option (List F32)
  modelId : Option String
  deriving DecidableEq

namespace RecallIndexRecord

def metadataRow (record : RecallIndexRecord) : MetadataRow :=
  ⟨record.eligible, record.expiresAtMillis⟩

/-- The vector row of a record that has both a vector and its label. -/
def vectorRow (record : RecallIndexRecord) : Option VectorRow :=
  match record.vector, record.modelId with
  | some vector, some modelId => some ⟨modelId, vector.length, encodeVector vector⟩
  | _, _ => none

end RecallIndexRecord

namespace RecallTables

variable (t : RecallTables)

def replaceVector (record : RecallIndexRecord) : RecallTables :=
  { t with vectors := match record.vectorRow with
    | some row => t.vectors.insert record.id row
    | none => t.vectors.erase record.id }

def replaceMetadata (record : RecallIndexRecord) : RecallTables :=
  { t with metadata := t.metadata.insert record.id record.metadataRow }

def upsert (record : RecallIndexRecord) : RecallTables :=
  let fts := t.fts.filter (·.memoryId ≠ record.id) ++ [⟨record.id, record.content⟩]
  ({ t with fts }.replaceMetadata record).replaceVector record

def delete (id : Uuid) : RecallTables where
  fts := t.fts.filter (·.memoryId ≠ id)
  metadata := t.metadata.erase id
  vectors := t.vectors.erase id

/-- The `INSERT`s of a rebuild for one record. -/
def insertRecord (record : RecallIndexRecord) : RecallTables where
  fts := t.fts ++ [⟨record.id, record.content⟩]
  metadata := t.metadata.insert record.id record.metadataRow
  vectors := match record.vectorRow with
    | some row => t.vectors.insert record.id row
    | none => t.vectors

def rebuild (records : List RecallIndexRecord) : RecallTables := records.foldl insertRecord {}

/-- The rows a candidate query may return: eligible and not expired. -/
def live (nowMillis : ℤ) (row : FtsRow) : Bool :=
  (t.metadata[row.memoryId]?).any fun m => m.eligible && m.expiresAtMillis.all (nowMillis < ·)

/-- A candidate with the vector of its row, as far as it decodes. -/
def candidate (row : FtsRow) : RecallCandidate where
  id := row.memoryId
  vector := (t.vectors[row.memoryId]?).bind fun v => decodeVector v.vector v.dimensions
  modelId := (t.vectors[row.memoryId]?).map (·.modelId)

variable [FullText] (t : RecallTables)

/-- Matching rows, best first; of equal rank the lower row id. -/
def ftsCandidates (tokens : Finset String) (limit : ℕ) (nowMillis : ℤ) :
    List RecallCandidate :=
  let rank (row : FtsRow) := FullText.bm25 (t.fts.map (·.content)) tokens row.content
  let rows := t.fts.filter fun row => FullText.isMatch tokens row.content && t.live nowMillis row
  ((Lib.stableSort (fun a b => rank a ≤ rank b) rows).take limit).map t.candidate

/-- Rows with a vector of the model, in the order of their row ids. -/
def vectorCandidates (modelId : String) (limit : ℕ) (nowMillis : ℤ) :
    List RecallCandidate :=
  let rows := t.fts.filter fun row =>
    (t.vectors[row.memoryId]?).any (·.modelId = modelId) && t.live nowMillis row
  (rows.take limit).map t.candidate

/-- Lexical candidates first, and vectors only where no text matches. -/
def candidates (tokens : Finset String) (modelId : String) (limit : ℕ)
    (nowMillis : ℤ) : List RecallCandidate :=
  if limit = 0 then []
  else
    let limit := min limit (2 ^ 63 - 1)
    if tokens = ∅ then t.vectorCandidates modelId limit nowMillis
    else
      let lexical := t.ftsCandidates tokens limit nowMillis
      if lexical.isEmpty then t.vectorCandidates modelId limit nowMillis else lexical

end RecallTables

namespace RecallIndex

/-- The tables, created empty at the first use. -/
def tables (index : RecallIndex) : RecallTables := index.connection.getD {}

def markDirty (index : RecallIndex) : RecallIndex := { index with synchronizedCount := none }

def upsert (index : RecallIndex) (record : RecallIndexRecord) (synchronizedCount : ℕ) :
    RecallIndex :=
  ⟨some (index.tables.upsert record), some synchronizedCount⟩

def delete (index : RecallIndex) (id : Uuid) (synchronizedCount : ℕ) : RecallIndex :=
  ⟨some (index.tables.delete id), some synchronizedCount⟩

def rebuild (records : List RecallIndexRecord) : RecallIndex :=
  ⟨some (.rebuild records), some records.length⟩

end RecallIndex
end PersonalAgent.Memories
