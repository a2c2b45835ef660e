/-
# Memory records

The data of `crates/memory/src/lib.rs` (lines 13 to 266): a memory with its provenance and
trust, the namespace that isolates it, and the rows it is stored in.

An `f32` is its bit pattern, so that equality, the little-endian bytes of a stored vector
and `partial_cmp` are what they are in the source.  The arithmetic behind a similarity is
left to `PersonalAgent.Memories.RecallIndex`.
-/

import PersonalAgent.Core.Usage

namespace PersonalAgent.Memories

/-- `std::collections::BTreeSet`. -/
abbrev BTreeSet (K : Type) [Ord K] := Std.ExtTreeSet K compare

/-! ### Single-precision numbers -/

/-- `f32`, by its bits. -/
structure F32 where
  bits : ℕ
  lt : bits < 2 ^ 32
  deriving DecidableEq, Repr

namespace F32

/-- `0.0`. -/
def zero : F32 := ⟨0, by decide⟩

def isNan (x : F32) : Bool := 0x7f800000 < x.bits % 2 ^ 31

/-- A key that orders numbers as their values; both zeros are `0`. -/
def order (x : F32) : ℤ := if x.bits < 2 ^ 31 then x.bits else -(x.bits - 2 ^ 31 : ℤ)

def partialCmp (x y : F32) : Option Ordering :=
  if x.isNan || y.isNan then none else some (compare x.order y.order)

/-- `x > 0.0`. -/
def isPositive (x : F32) : Bool := x.partialCmp zero = some .gt

def toLeBytes (x : F32) : List UInt8 :=
  [.ofNat x.bits, .ofNat (x.bits / 2 ^ 8), .ofNat (x.bits / 2 ^ 16), .ofNat (x.bits / 2 ^ 24)]

def fromLeBytes (a b c d : UInt8) : F32 :=
  ⟨a.toNat + 2 ^ 8 * b.toNat + 2 ^ 16 * c.toNat + 2 ^ 24 * d.toNat, by
    have := a.toNat_lt
    have := b.toNat_lt
    have := c.toNat_lt
    have := d.toNat_lt
    omega⟩

end F32

def encodeVector (vector : List F32) : List UInt8 := vector.flatMap F32.toLeBytes

/-- Whole chunks of four bytes, or `none` if some are left. -/
def decodeChunks : List UInt8 → Option (List F32)
  | [] => some []
  | a :: b :: c :: d :: rest => (decodeChunks rest).map (.fromLeBytes a b c d :: ·)
  | _ => none

def decodeVector (bytes : List UInt8) (dimensions : ℕ) : Option (List F32) :=
  if bytes.length ≠ dimensions * 4 then none else decodeChunks bytes

theorem length_encodeVector (vector : List F32) :
    (encodeVector vector).length = vector.length * 4 := by
  induction vector with
  | nil => rfl
  | cons x vector ih =>
    rw [encodeVector, List.flatMap_cons, List.length_append, ← encodeVector, ih, F32.toLeBytes]
    simp only [List.length_cons, List.length_nil]
    omega

theorem decodeChunks_encodeVector (vector : List F32) :
    decodeChunks (encodeVector vector) = some vector := by
  induction vector with
  | nil => rfl
  | cons x vector ih =>
    have hx : F32.fromLeBytes (.ofNat x.bits) (.ofNat (x.bits / 2 ^ 8)) (.ofNat (x.bits / 2 ^ 16))
        (.ofNat (x.bits / 2 ^ 24)) = x := by
      obtain ⟨bits, hbits⟩ := x
      rw [F32.fromLeBytes, F32.mk.injEq]
      simp only [UInt8.toNat_ofNat']
      omega
    change (decodeChunks (encodeVector vector)).map _ = _
    rw [ih, Option.map_some, hx]

/-- A stored vector reads back. -/
theorem decodeVector_encodeVector (vector : List F32) :
    decodeVector (encodeVector vector) vector.length = some vector := by
  rw [decodeVector, if_neg (not_not_intro (length_encodeVector vector)), decodeChunks_encodeVector]

/-! ### Memories -/

/-- Retrieval tier with different retention and trust semantics. -/
inductive MemoryTier where
  | working
  | episodic
  | semantic
  | procedural
  | project
  | relationship
  deriving DecidableEq, Repr

/-- Whether a memory can be treated as a user-authored fact. -/
inductive MemoryTrust where
  | trustedUser
  | reviewedInference
  | proposedInference
  | backgroundObservation
  | recalled
  deriving DecidableEq, Repr

/-- Pinned embedding implementation metadata persisted beside vectors. -/
structure EmbeddingModel where
  id : String := "e5-small-int8"
  version : String := "614241f622f53c4eeff9890bdc4f31cfecc418b3"
  dimensions : ℕ := 384
  license : String := "MIT"
  deriving DecidableEq, Repr

/-- Memory-store failure with explicit review/provenance semantics. -/
inductive MemoryError where
  | missing (id : Uuid)
  | notProposed
  | recursiveExtraction
  | embeddingDimensions
  | missingProvenance
  | missingEmbeddingProvenance
  | missingNamespace
  | missingProjectNode (id : Uuid)
  | duplicateStorageRow (id : Uuid)
  | unexpectedEmbeddingProvenance
  deriving DecidableEq, Repr

/-- Explicit isolation boundary for global, profile, project, and conversation memory. -/
inductive MemoryNamespace where
  | global
  | profile (id : String)
  | project (id : String)
  | conversation (id : String)
  deriving DecidableEq, Repr

def MemoryNamespace.validate : MemoryNamespace → Except MemoryError Unit
  | .global => .ok ()
  | .profile id | .project id | .conversation id =>
    if (Core.trim id).isEmpty then .error .missingNamespace else .ok ()

/-- Durable memory with conflict-preserving provenance. -/
structure Memory where
  id : Uuid
  tier : MemoryTier
  trust : MemoryTrust
  content : String
  sourceEventIds : List String
  confidence : F32
  sensitivity : String
  createdAt : DateTime
  expiresAt : Option DateTime
  conflictsWith : List Uuid
  deriving DecidableEq

/-- Mark recalled text so extraction does not recursively duplicate it. -/
def Memory.recalled (memory : Memory) : Memory := { memory with trust := .recalled }

/-- `conflicts_with` with one more id. -/
def Memory.conflicting (memory : Memory) (other : Uuid) : Memory :=
  if memory.conflictsWith.contains other then memory
  else { memory with conflictsWith := memory.conflictsWith ++ [other] }

/-- `conflicts_with.retain(|other| *other != id)`. -/
def Memory.unlinked (id : Uuid) (memory : Memory) : Memory :=
  { memory with conflictsWith := memory.conflictsWith.filter (· ≠ id) }

/-! ### Stored rows -/

/-- One independently durable memory row: a fact with its vector, or the tombstone of a
rejected proposal. -/
inductive MemoryStorageRow where
  | active (memory : Memory) (embedding : Option (List F32)) (embeddingModelId : Option String)
  | rejected (id : Uuid)
  deriving DecidableEq

namespace MemoryStorageRow

def id : MemoryStorageRow → Uuid
  | .active memory _ _ => memory.id
  | .rejected id => id

def trustLabel : MemoryStorageRow → String
  | .active memory _ _ => match memory.trust with
    | .trustedUser => "trusted_user"
    | .reviewedInference => "reviewed_inference"
    | .proposedInference => "proposed_inference"
    | .backgroundObservation => "background_observation"
    | .recalled => "recalled"
  | .rejected _ => "rejected"

def sourceEventIds : MemoryStorageRow → List String
  | .active memory _ _ => memory.sourceEventIds
  | .rejected _ => []

end MemoryStorageRow
end PersonalAgent.Memories
