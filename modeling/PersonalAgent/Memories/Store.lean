/-
# The memory store

`MemoryStore` of `crates/memory/src/lib.rs` (lines 726 to 1145): facts, their vectors with
the label of the implementation that made them, and the ids of rejected proposals.  The
recall index is a cache beside them; each operation that changes a fact either carries the
change over, if the index was in step before, or marks the index dirty.  `recall` takes
the store by reference but may rebuild the index, so here it returns the store as well.

A memory store compares without its index.  A clone starts with a fresh index, and so does
a store that is read back from its serialised form.
-/

import PersonalAgent.Memories.RecallIndex

namespace PersonalAgent.Memories

/-- The numbers of a ranking; the arithmetic on `f32` is left open. -/
class Similarity where
  ratio : ℕ → ℕ → F32
  cosine : List F32 → List F32 → F32
  /-- `lexical.mul_add(0.55, vector * 0.45)`. -/
  combined : F32 → F32 → F32

structure MemoryStore where
  embeddingModel : EmbeddingModel
  memories : BTreeMap Uuid Memory := ∅
  embeddings : BTreeMap Uuid (List F32) := ∅
  embeddingModels : BTreeMap Uuid String := ∅
  rejected : BTreeSet Uuid := ∅
  recallIndex : RecallIndex := {}

/-- Ranked hybrid retrieval result. -/
structure RecallResult where
  memory : Memory
  lexicalScore : F32
  vectorScore : F32
  combinedScore : F32
  deriving DecidableEq

namespace MemoryStore

def new (embeddingModel : EmbeddingModel) : MemoryStore := { embeddingModel }

variable (s : MemoryStore)

def legacyCompatibleEmbeddingModelId : String :=
  if s.embeddingModel.id = "intfloat-multilingual-e5-small-onnx" then "feature-hash-local"
  else s.embeddingModel.id

def storedEmbeddingModelId (id : Uuid) : String :=
  (s.embeddingModels[id]?).getD s.legacyCompatibleEmbeddingModelId

/-- Return the honest implementation label persisted beside one vector. -/
def embeddingModelId (id : Uuid) : Option String :=
  (s.embeddings[id]?).map fun _ => s.storedEmbeddingModelId id

/-- `DateTime::timestamp_millis`. -/
def timestampMillis [Instants] (time : DateTime) : ℤ := Instants.nanos time / 10 ^ 6

/-- Reviewed or user-authored. -/
def eligible (memory : Memory) : Bool :=
  memory.trust ≠ .proposedInference && memory.trust ≠ .backgroundObservation

section Index

variable [Instants] (s : MemoryStore)

/-- What the index should hold of a memory of the store. -/
def recallIndexRecord (id : Uuid) (memory : Memory) : RecallIndexRecord where
  id := id
  content := memory.content
  eligible := eligible memory
  expiresAtMillis := memory.expiresAt.map timestampMillis
  vector := s.embeddings[id]?
  modelId := s.embeddingModelId id

/-- `synchronized_count() == Some(self.memories.len())`. -/
def indexSynchronized : Bool :=
  s.recallIndex.synchronizedCount = some s.memories.size

/-- Carry a changed memory over to the index, or mark it dirty. -/
def reindexed (synchronized : Bool) (id : Uuid) (memory : Memory) : MemoryStore :=
  { s with recallIndex :=
      if synchronized then
        s.recallIndex.upsert (s.recallIndexRecord id memory) s.memories.size
      else s.recallIndex.markDirty }

/-- Carry a removal over to the index, or mark it dirty. -/
def unindexed (synchronized : Bool) (id : Uuid) : MemoryStore :=
  { s with recallIndex :=
      if synchronized then s.recallIndex.delete id s.memories.size else s.recallIndex.markDirty }

/-! ### Changes -/

/-- Insert or replace a memory while recording the implementation that produced its
vector. -/
def upsertLabeled (memory : Memory) (embedding : Option (List F32))
    (embeddingModelId : String) : MemoryStore × Except MemoryError Unit :=
  if memory.sourceEventIds.isEmpty then (s, .error .missingProvenance)
  else if memory.trust = .recalled then (s, .error .recursiveExtraction)
  else if embedding.any (·.length ≠ s.embeddingModel.dimensions) then
    (s, .error .embeddingDimensions)
  else if embedding.isSome && (Core.trim embeddingModelId).isEmpty then
    (s, .error .missingEmbeddingProvenance)
  else
    let synchronized := s.indexSynchronized
    let s := match embedding with
      | some vector => { s with
          embeddings := s.embeddings.insert memory.id vector
          embeddingModels := s.embeddingModels.insert memory.id embeddingModelId }
      | none => s
    let s := { s with
      rejected := s.rejected.erase memory.id
      memories := s.memories.insert memory.id memory }
    (s.reindexed synchronized memory.id memory, .ok ())

/-- Insert or replace a memory and optional persisted embedding. -/
def upsert (memory : Memory) (embedding : Option (List F32)) :
    MemoryStore × Except MemoryError Unit :=
  s.upsertLabeled memory embedding s.legacyCompatibleEmbeddingModelId

/-- Approve a queued inference without rewriting it as user-authored. -/
def approve (id : Uuid) : MemoryStore × Except MemoryError Unit :=
  match s.memories[id]? with
  | none => (s, .error (.missing id))
  | some memory =>
    if memory.trust ≠ .proposedInference then (s, .error .notProposed)
    else
      let synchronized := s.indexSynchronized
      let memory := { memory with trust := .reviewedInference }
      let s := { s with memories := s.memories.insert id memory }
      (s.reindexed synchronized id memory, .ok ())

/-- Reject a proposal while retaining its identifier for audit/deduplication. -/
def reject (id : Uuid) : MemoryStore × Except MemoryError Unit :=
  match s.memories[id]? with
  | none => (s, .error (.missing id))
  | some memory =>
    if memory.trust ≠ .proposedInference then (s, .error .notProposed)
    else
      let synchronized := s.indexSynchronized
      let s := { s with
        memories := s.memories.erase id
        embeddings := s.embeddings.erase id
        embeddingModels := s.embeddingModels.erase id
        rejected := s.rejected.insert id }
      (s.unindexed synchronized id, .ok ())

/-- Link a conflict bidirectionally without deleting or superseding either fact. -/
def linkConflict (left right : Uuid) : MemoryStore × Except MemoryError Unit :=
  match s.memories[left]?, s.memories[right]? with
  | none, _ => (s, .error (.missing left))
  | _, none => (s, .error (.missing right))
  | some leftMemory, some rightMemory =>
    if left = right then (s, .ok ())
    else
      let memories := s.memories.insert left (Memory.conflicting leftMemory right)
      ({ s with memories := memories.insert right (Memory.conflicting rightMemory left) }, .ok ())

/-- Delete one memory and remove its links from surviving records. -/
def delete (id : Uuid) : MemoryStore × Except MemoryError Memory :=
  match s.memories[id]? with
  | none => (s, .error (.missing id))
  | some removed =>
    let synchronized := s.indexSynchronized
    let s := { s with
      memories := (s.memories.erase id).map fun _ => Memory.unlinked id
      embeddings := s.embeddings.erase id
      embeddingModels := s.embeddingModels.erase id }
    (s.unindexed synchronized id, .ok removed)

/-! ### Recall -/

/-- The index, rebuilt if it does not look to be in step. -/
def ensureRecallIndex : MemoryStore :=
  if s.indexSynchronized then s
  else
    let records := s.memories.toList.map fun entry => s.recallIndexRecord entry.2.id entry.2
    { s with recallIndex := .rebuild records }

/-- `expires_at.is_none_or(|expiry| expiry > now)`. -/
def unexpired (memory : Memory) (now : DateTime) : Bool :=
  memory.expiresAt.all fun expiry => Instants.nanos now < Instants.nanos expiry

variable [FullText] [Similarity] (s : MemoryStore)

/-- The result of a candidate whose memory may be recalled. -/
def scored (tokens : Finset String) (queryEmbedding : Option (List F32))
    (modelId : String) (now : DateTime) (candidate : RecallCandidate) : Option RecallResult := do
  let memory ← s.memories[candidate.id]?
  if !(unexpired memory now && eligible memory) then none
  else
    let overlap := (tokens ∩ FullText.tokenize memory.content).card
    let lexicalScore := if tokens = ∅ then .zero else Similarity.ratio overlap tokens.card
    let vectorScore := match queryEmbedding, candidate.vector with
      | some query, some vector =>
        if candidate.modelId = some modelId then Similarity.cosine query vector else .zero
      | _, _ => .zero
    some {
      memory := memory.recalled
      lexicalScore
      vectorScore
      combinedScore := Similarity.combined lexicalScore vectorScore }

/-- The order of results: the higher score, then the lower id. -/
def resultOrder (left right : RecallResult) : Ordering :=
  ((right.combinedScore.partialCmp left.combinedScore).getD .eq).then
    (compare left.memory.id right.memory.id)

/-- Hybrid retrieval with an explicit query-vector provenance label. -/
def recallLabeled (query : String) (queryEmbedding : Option (List F32))
    (modelId : String) (limit : ℕ) (now : DateTime) : MemoryStore × List RecallResult :=
  if limit = 0 then (s, [])
  else
    let s := s.ensureRecallIndex
    let tokens := FullText.tokenize query
    let candidateLimit := min (max (min (limit * 32) (2 ^ 64 - 1)) 256) s.memories.size
    let candidates := s.recallIndex.tables.candidates tokens modelId candidateLimit
      (timestampMillis now)
    let results := (candidates.filterMap (s.scored tokens queryEmbedding modelId now)).filter
      (·.combinedScore.isPositive)
    (s, (Lib.stableSort (fun left right => resultOrder left right ≠ .gt) results).take limit)

/-- Hybrid lexical/vector retrieval (`recall`) under the label of the store. -/
def recallUnlabeled (query : String)
    (queryEmbedding : Option (List F32)) (limit : ℕ)
    (now : DateTime) : MemoryStore × List RecallResult :=
  s.recallLabeled query queryEmbedding s.legacyCompatibleEmbeddingModelId limit now

end Index

/-! ### Copies -/

/-- A clone owns an independent cache. -/
def clone : MemoryStore := { s with recallIndex := {} }

/-- The store read back from its serialised form; a snapshot of an older release has no
labels. -/
def deserialised (labels : Bool) : MemoryStore :=
  { s with
    embeddingModels := if labels then s.embeddingModels else ∅
    recallIndex := {} }

/-! ### Rows -/

/-- Materialize independently writable rows for encrypted storage. -/
def storageRows : List MemoryStorageRow :=
  let active := s.memories.toList.map fun entry =>
    MemoryStorageRow.active entry.2 s.embeddings[entry.2.id]? (s.embeddingModelId entry.2.id)
  Lib.stableSort (fun a b => a.id ≤ b.id) (active ++ s.rejected.toList.map .rejected)

variable [Instants] (s : MemoryStore)

/-- One turn of the loop of `from_storage_rows`, with the ids seen so far. -/
def addStorageRow (acc : MemoryStore × BTreeSet Uuid) (row : MemoryStorageRow) :
    Except MemoryError (MemoryStore × BTreeSet Uuid) :=
  let (s, seen) := acc
  if row.id ∈ seen then .error (.duplicateStorageRow row.id)
  else
    let upserted (result : MemoryStore × Except MemoryError Unit) :=
      result.2.map fun _ => (result.1, seen.insert row.id)
    match row with
    | .active memory (some embedding) (some modelId) =>
      upserted (s.upsertLabeled memory (some embedding) modelId)
    | .active memory none none => upserted (s.upsert memory none)
    | .active _ (some _) none => .error .missingEmbeddingProvenance
    | .active _ none (some _) => .error .unexpectedEmbeddingProvenance
    | .rejected id => .ok ({ s with rejected := s.rejected.insert id }, seen.insert row.id)

/-- Rebuild the in-memory recall store from independently persisted rows. -/
def fromStorageRows (embeddingModel : EmbeddingModel) (rows : List MemoryStorageRow) :
    Except MemoryError MemoryStore :=
  (rows.foldlM addStorageRow (new embeddingModel, ∅)).map (·.1)

end MemoryStore
end PersonalAgent.Memories
