/-
# Namespaced memory

`PersistentMemory` of `crates/memory/src/lib.rs` (lines 1153 to 1428): a memory store with
the namespace of each memory, writing-style preferences and a project graph.  The store is
a public field, so its own operations are available on it; the namespaces, preferences and
graph change only through the operations here.
-/

import PersonalAgent.Memories.Store

namespace PersonalAgent.Memories

/-- A writing-style observation remains reviewable and traceable to examples. -/
structure StylePreference where
  id : Uuid
  «namespace» : MemoryNamespace
  description : String
  examples : List String
  sourceEventIds : List String
  confidence : F32
  reviewed : Bool
  deriving DecidableEq

/-- Typed project graph node for repositories, people, services, and documents. -/
structure ProjectNode where
  id : Uuid
  «namespace» : MemoryNamespace
  kind : String
  name : String
  attributes : BTreeMap String String
  sourceEventIds : List String

structure ProjectRelation where
  source : Uuid
  relation : String
  target : Uuid
  sourceEventIds : List String
  deriving DecidableEq

/-- Non-fact state for the namespace-aware memory system. -/
structure PersistentMemoryMetadata where
  scopes : BTreeMap Uuid MemoryNamespace := ∅
  style : BTreeMap Uuid StylePreference := ∅
  projectNodes : BTreeMap Uuid ProjectNode := ∅
  projectRelations : List ProjectRelation := []

/-- Namespace-aware memory, writing style, and project graph index. -/
structure PersistentMemory extends PersistentMemoryMetadata where
  store : MemoryStore

namespace PersistentMemory

def new (embeddingModel : EmbeddingModel) : PersistentMemory := { store := .new embeddingModel }

/-- Upgrade a legacy fact/vector store without losing existing records. -/
def fromStore (store : MemoryStore) : PersistentMemory := { store }

variable (p : PersistentMemory)

/-- The non-fact metadata persisted separately from memory rows. -/
def storageMetadata : PersistentMemoryMetadata :=
  p.toPersistentMemoryMetadata

/-- Split row-backed facts from the metadata. -/
def intoStorageParts : MemoryStore × PersistentMemoryMetadata :=
  (p.store, p.storageMetadata)

def fromStorageParts (store : MemoryStore) (metadata : PersistentMemoryMetadata) :
    PersistentMemory :=
  { metadata with store }

section Changes

variable [Instants] (p : PersistentMemory)

/-- Store a record within an explicit namespace. -/
def remember (scope : MemoryNamespace) (memory : Memory)
    (embedding : Option (List F32)) : PersistentMemory × Except MemoryError Unit :=
  match scope.validate with
  | .error e => (p, .error e)
  | .ok () =>
    match p.store.upsert memory embedding with
    | (store, .error e) => ({ p with store }, .error e)
    | (store, .ok ()) => ({ p with store, scopes := p.scopes.insert memory.id scope }, .ok ())

/-- Remove everything of one namespace. -/
def deleteNamespace (scope : MemoryNamespace) : PersistentMemory × ℕ :=
  let ids := (p.scopes.toList.filter (·.2 = scope)).map (·.1)
  let store := ids.foldl (fun store id => (store.delete id).1) p.store
  let removedNodes := (p.projectNodes.toList.filter (·.2.namespace = scope)).map (·.1)
  ({ store
     scopes := ids.foldl (·.erase ·) p.scopes
     style := p.style.filter fun _ preference => preference.namespace ≠ scope
     projectNodes := p.projectNodes.filter fun id _ => id ∉ removedNodes
     projectRelations := p.projectRelations.filter fun relation =>
       relation.source ∉ removedNodes && relation.target ∉ removedNodes }, ids.length)

end Changes

/-- Add a reviewable style preference with explicit provenance. -/
def proposeStyle (preference : StylePreference) :
    PersistentMemory × Except MemoryError Unit :=
  match preference.namespace.validate with
  | .error e => (p, .error e)
  | .ok () =>
    if preference.sourceEventIds.isEmpty then (p, .error .missingProvenance)
    else ({ p with style := p.style.insert preference.id preference }, .ok ())

/-- Accept or reject one proposed style preference. -/
def reviewStyle (id : Uuid) (accept : Bool) :
    PersistentMemory × Except MemoryError Unit :=
  match p.style[id]? with
  | none => (p, .error (.missing id))
  | some preference =>
    if accept then
      ({ p with style := p.style.insert id { preference with reviewed := true } }, .ok ())
    else ({ p with style := p.style.erase id }, .ok ())

/-- Insert or replace a project-graph node. -/
def upsertProjectNode (node : ProjectNode) :
    PersistentMemory × Except MemoryError Unit :=
  match node.namespace.validate with
  | .error e => (p, .error e)
  | .ok () =>
    if node.sourceEventIds.isEmpty then (p, .error .missingProvenance)
    else ({ p with projectNodes := p.projectNodes.insert node.id node }, .ok ())

/-- Add a traceable relation between existing project nodes. -/
def linkProjectNodes (relation : ProjectRelation) :
    PersistentMemory × Except MemoryError Unit :=
  match [relation.source, relation.target].find? (!p.projectNodes.contains ·) with
  | some id => (p, .error (.missingProjectNode id))
  | none =>
    if relation.sourceEventIds.isEmpty then (p, .error .missingProvenance)
    else if p.projectRelations.contains relation then (p, .ok ())
    else ({ p with projectRelations := p.projectRelations ++ [relation] }, .ok ())

def recallScoped [Instants] [FullText] [Similarity] (p : PersistentMemory)
    (namespaces : Finset MemoryNamespace) (query : String) (queryEmbedding : Option (List F32))
    (limit : ℕ) (now : DateTime) : PersistentMemory × List RecallResult :=
  let (store, results) := p.store.recallUnlabeled query queryEmbedding p.store.memories.size now
  let results := results.filter fun result =>
    (p.scopes[result.memory.id]?).any (· ∈ namespaces)
  ({ p with store }, results.take limit)

end PersistentMemory
end PersonalAgent.Memories
