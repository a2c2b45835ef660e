/-
# Conflict links

A conflict is stored twice, in both memories (`link_conflict`).  `delete` takes the removed
id out of every surviving memory, but `reject`, which removes a memory as well, does not
(`crates/memory/src/lib.rs`, lines 862 to 916 and 1124 to 1144): a rejected proposal that was
linked stays listed (`reject_leaves_link`).  As long as no linked proposal is rejected, the
links are symmetric, irreflexive, without repetitions and never dangling
(`conflicts_symmetric`).
-/

import PersonalAgent.Memories.Coherence

namespace PersonalAgent.Memories

open Lib List

/-- Links between ids: each is stored on both sides, once, and not with itself. -/
structure Mutual (links : Uuid → List Uuid) : Prop where
  symm : ∀ a b, b ∈ links a → a ∈ links b
  irrefl : ∀ a, a ∉ links a
  nodup : ∀ a, (links a).Nodup

namespace Mutual

variable {links links' : Uuid → List Uuid}

/-- Taking an id out of all links. -/
theorem remove (h : Mutual links) (id : Uuid) :
    Mutual fun a => if a = id then [] else (links a).filter (· ≠ id) := by
  refine ⟨fun a b hb => ?_, fun a ha => ?_, fun a => ?_⟩
  · split_ifs at hb with ha
    · cases hb
    · obtain ⟨hmem, hne⟩ := mem_filter.mp hb
      rw [if_neg (of_decide_eq_true hne)]
      exact mem_filter.mpr ⟨h.symm a b hmem, decide_eq_true ha⟩
  · split_ifs at ha
    · cases ha
    · exact h.irrefl a (mem_of_mem_filter ha)
  · split_ifs
    · exact nodup_nil
    · exact (h.nodup a).filter _

/-- One more id in a list, unless it is there. -/
def added (ids : List Uuid) (id : Uuid) : List Uuid := if ids.contains id then ids else ids ++ [id]

theorem mem_added {ids : List Uuid} {id b : Uuid} : b ∈ added ids id ↔ b ∈ ids ∨ b = id := by
  unfold added
  split_ifs with h
  · rw [contains_iff_mem] at h
    constructor
    · exact .inl
    · rintro (hb | rfl)
      · exact hb
      · exact h
  · rw [mem_append, mem_singleton]

theorem nodup_added {ids : List Uuid} (h : ids.Nodup) (id : Uuid) : (added ids id).Nodup := by
  unfold added
  split_ifs with hmem
  · exact h
  · rw [contains_iff_mem] at hmem
    exact nodup_append.mpr ⟨h, nodup_singleton id, fun a ha b hb heq => by
      rw [mem_singleton] at hb
      exact hmem (hb ▸ heq ▸ ha)⟩

/-- Linking two different ids. -/
theorem link (h : Mutual links) {left right : Uuid} (hne : left ≠ right) :
    Mutual fun a => if a = right then added (links right) left
      else if a = left then added (links left) right else links a := by
  refine ⟨fun a b hb => ?_, fun a ha => ?_, fun a => ?_⟩
  · have hiff (a b : Uuid) : b ∈ (if a = right then added (links right) left
        else if a = left then added (links left) right else links a) ↔
        b ∈ links a ∨ (a = right ∧ b = left) ∨ (a = left ∧ b = right) := by
      split_ifs with hr hl
      · subst hr
        simp only [mem_added, true_and, hne.symm, false_and, or_false]
      · subst hl
        simp only [mem_added, hne, false_and, true_and, false_or]
      · simp only [hr, hl, false_and, or_false]
    have hb' := (hiff a b).mp hb
    refine (hiff b a).mpr ?_
    rcases hb' with hb' | ⟨rfl, rfl⟩ | ⟨rfl, rfl⟩
    · exact .inl (h.symm a b hb')
    · exact .inr (.inr ⟨rfl, rfl⟩)
    · exact .inr (.inl ⟨rfl, rfl⟩)
  · split_ifs at ha with hr hl
    · rcases mem_added.mp ha with ha | ha
      · exact h.irrefl a (hr ▸ ha)
      · exact hne (ha.symm.trans hr)
    · rcases mem_added.mp ha with ha | ha
      · exact h.irrefl a (hl ▸ ha)
      · exact hne (hl.symm.trans ha)
    · exact h.irrefl a ha
  · split_ifs
    · exact nodup_added (h.nodup right) left
    · exact nodup_added (h.nodup left) right
    · exact h.nodup a

end Mutual

namespace MemoryStore

def conflicts (s : MemoryStore) (id : Uuid) : List Uuid :=
  ((s.memories[id]?).map (·.conflictsWith)).getD []

theorem mem_conflicts {s : MemoryStore} {a b : Uuid} :
    b ∈ s.conflicts a ↔ ∃ memory, s.memories[a]? = some memory ∧ b ∈ memory.conflictsWith := by
  unfold conflicts
  cases s.memories[a]? <;> simp

theorem conflicts_eq {s : MemoryStore} {id : Uuid} {memory : Memory}
    (h : s.memories[id]? = some memory) : s.conflicts id = memory.conflictsWith := by
  rw [conflicts, h]
  rfl

section Steps

variable {s : MemoryStore}

/-- A change that leaves the links of its id. -/
theorem Rewrites.conflicts {t : MemoryStore} {id : Uuid} {after : Held}
    (hr : s.Rewrites t id after)
    (hafter : (after.memory.map (·.conflictsWith)).getD [] = s.conflicts id) :
    t.conflicts = s.conflicts := by
  funext id'
  change ((t.held id').memory.map (·.conflictsWith)).getD [] = _
  by_cases hid : id' = id
  · rw [hid, hr.here, hafter]
  · rw [hr.other id' hid]
    rfl

theorem conflicts_upsertLabeled [Instants] {memory : Memory} (hnew : s.memories[memory.id]? = none)
    (hlinks : memory.conflictsWith = []) (embedding : Option (List F32)) (label : String) :
    (s.upsertLabeled memory embedding label).1.conflicts = s.conflicts := by
  rcases s.upsertLabeled_cases memory embedding label with ⟨-, e, he⟩ | ⟨-, t, hr, ht⟩
  · rw [he]
  · rw [ht]
    refine hr.conflicts ?_
    rw [conflicts, hnew]
    exact hlinks

theorem conflicts_approve [Instants] (id : Uuid) : (s.approve id).1.conflicts = s.conflicts := by
  rcases s.approve_cases id with hsame | ⟨memory, t, hmemory, hr, ht⟩
  · rw [hsame]
  · rw [ht]
    exact hr.conflicts (conflicts_eq hmemory).symm

/-- A proposal without links may be rejected. -/
theorem conflicts_reject {id : Uuid} (hlinks : s.conflicts id = []) :
    (s.reject id).1.conflicts = s.conflicts := by
  rcases s.reject_cases id with hsame | ⟨t, hr, ht⟩
  · rw [hsame]
  · rw [ht]
    exact hr.conflicts hlinks.symm

theorem mutual_delete (h : Mutual s.conflicts) (id : Uuid) :
    Mutual (s.delete id).1.conflicts := by
  rcases s.delete_cases id with hsame | ⟨memories, t, hget, hr, ht⟩
  · rwa [hsame]
  · have hconflicts : t.conflicts = fun a => if a = id then [] else
        (s.conflicts a).filter (· ≠ id) := by
      funext a
      change ((t.held a).memory.map (·.conflictsWith)).getD [] = _
      split_ifs with ha
      · rw [ha, hr.here]
        rfl
      · rw [hr.other a ha, held, hget, conflicts]
        cases s.memories[a]? <;> rfl
    rw [ht]
    change Mutual t.conflicts
    exact hconflicts ▸ h.remove id

theorem mutual_linkConflict (h : Mutual s.conflicts) (left right : Uuid) :
    Mutual (s.linkConflict left right).1.conflicts := by
  rcases s.linkConflict_cases left right with
    hsame | ⟨hne, ⟨leftMemory, hleft⟩, ⟨rightMemory, hright⟩, memories, heq, hget⟩
  · rwa [hsame]
  · have hadded (memory : Memory) (other : Uuid) : (memory.conflicting other).conflictsWith =
        Mutual.added memory.conflictsWith other := by
      unfold Memory.conflicting Mutual.added
      split_ifs <;> rfl
    have hconflicts : { s with memories }.conflicts = fun a =>
        if a = right then Mutual.added (s.conflicts right) left
        else if a = left then Mutual.added (s.conflicts left) right else s.conflicts a := by
      funext a
      rw [conflicts, hget]
      split_ifs with hr hl
      · simp only [hr, hright, conflicts_eq hright, Option.map_some, hadded]
        rfl
      · simp only [hl, hleft, conflicts_eq hleft, Option.map_some, hadded]
        rfl
      · rw [conflicts, Option.map_map]
        rfl
    rw [heq, hconflicts]
    exact h.link hne

end Steps

section Runs

variable [Instants] [FullText] [Similarity]

/-- New memories come without links, and a proposal that is rejected has none. -/
def LinksAllowed (s : MemoryStore) : StoreOp → Prop
  | .upsert memory _ | .upsertLabeled memory _ _ =>
    s.memories[memory.id]? = none ∧ memory.conflictsWith = []
  | .reject id => s.conflicts id = []
  | _ => True

instance decidableLinksAllowed (s : MemoryStore) : ∀ op, Decidable (s.LinksAllowed op)
  | .upsert memory _ | .upsertLabeled memory _ _ =>
    inferInstanceAs (Decidable (s.memories[memory.id]? = none ∧ memory.conflictsWith = []))
  | .reject id => inferInstanceAs (Decidable (s.conflicts id = []))
  | .approve _ | .delete _ | .linkConflict _ _ | .recallLabeled _ _ _ _ _ | .clone
  | .deserialise _ => inferInstanceAs (Decidable True)

theorem mutual_apply {s : MemoryStore} {op : StoreOp} (hop : s.LinksAllowed op)
    (h : Mutual s.conflicts) : Mutual (s.apply op).1.conflicts := by
  cases op with
  | upsert memory embedding =>
    change Mutual (s.upsertLabeled memory embedding _).1.conflicts
    rwa [conflicts_upsertLabeled hop.1 hop.2]
  | upsertLabeled memory embedding label =>
    change Mutual (s.upsertLabeled memory embedding label).1.conflicts
    rwa [conflicts_upsertLabeled hop.1 hop.2]
  | approve id =>
    change Mutual (s.approve id).1.conflicts
    rwa [conflicts_approve]
  | reject id =>
    change Mutual (s.reject id).1.conflicts
    rwa [conflicts_reject hop]
  | delete id => exact mutual_delete h id
  | linkConflict left right => exact mutual_linkConflict h left right
  | recallLabeled query queryEmbedding modelId limit now =>
    change Mutual (s.recallLabeled query queryEmbedding modelId limit now).1.conflicts
    unfold recallLabeled
    split_ifs
    · exact h
    · obtain ⟨index, hindex⟩ := ensureRecallIndex_eq (s := s)
      dsimp only
      rw [hindex]
      exact h
  | clone => exact h
  | deserialise labels => exact h

/-- **Conflict links are mutual** in every run in which new memories come without links and
no linked proposal is rejected: `b` stands in the conflicts of `a` just if `a` stands in
those of `b`, both of them stored, and no memory lists itself or another one twice. -/
theorem conflicts_symmetric (model : EmbeddingModel) {ops : List StoreOp}
    (hops : Along (fun s op => (s.apply op).1) LinksAllowed (new model) ops) :
    let s := run (fun s op => (s.apply op).1) (new model) ops
    (∀ a b : Uuid, (∃ memory, s.memories[a]? = some memory ∧ b ∈ memory.conflictsWith) ↔
      ∃ memory, s.memories[b]? = some memory ∧ a ∈ memory.conflictsWith) ∧
    ∀ (a : Uuid) (memory : Memory), s.memories[a]? = some memory →
      a ∉ memory.conflictsWith ∧ memory.conflictsWith.Nodup := by
  intro s
  have hnew : Mutual (new model).conflicts := by
    have hnone (a : Uuid) : (new model).conflicts a = [] := by simp [conflicts, new]
    exact ⟨fun a b hb => by simp [hnone] at hb, fun a ha => by simp [hnone] at ha,
      fun a => by rw [hnone]; exact nodup_nil⟩
  have h : Mutual s.conflicts := hops.invariant (fun s => Mutual s.conflicts)
    (fun _ _ hop h => mutual_apply hop h) hnew
  refine ⟨fun a b => ?_, fun a memory hmemory => ?_⟩
  · rw [← mem_conflicts, ← mem_conflicts]
    exact ⟨h.symm a b, h.symm b a⟩
  · rw [← conflicts_eq hmemory]
    exact ⟨h.irrefl a, h.nodup a⟩

end Runs

section Examples

attribute [local instance] wholeText allSimilar oneInstant

/-- A fact and a proposal, linked. -/
def linkedPair : List StoreOp :=
  [.upsert (sample 1 .trustedUser "tea") none, .upsert (sample 2 .proposedInference "coffee") none,
    .linkConflict 1 2]

/-- **A rejected proposal stays listed.**  The fact it was linked with names a memory that is
not stored. -/
theorem reject_leaves_link :
    let s := run (fun s op => (s.apply op).1) (new {}) (linkedPair ++ [.reject 2])
    (s.memories[1]?).map (·.conflictsWith) = some [2] ∧ s.memories[2]? = none := by
  decide +kernel

/-- After an approval and a deletion instead, nothing is left of the link. -/
theorem conflicts_symmetric_deleted :
    let s := run (fun s op => (s.apply op).1) (new {}) (linkedPair ++ [.approve 2, .delete 2])
    s.memories.size = 1 ∧
    ∀ (a : Uuid) (memory : Memory), s.memories[a]? = some memory →
      a ∉ memory.conflictsWith ∧ memory.conflictsWith.Nodup := by
  have hops : Along (fun s op => (s.apply op).1) LinksAllowed (new {})
      (linkedPair ++ [.approve 2, .delete 2]) := by decide +kernel
  intro s
  exact ⟨by decide +kernel, (conflicts_symmetric {} hops).2⟩

end Examples

end MemoryStore
end PersonalAgent.Memories
