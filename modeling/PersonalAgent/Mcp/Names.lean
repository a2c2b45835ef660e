/-
# Resolved names

What `sanitize_identifier` and `normalize_catalog` of `crates/mcp-manager/src/lib.rs` make of
the names of a server's tools.  A namespace has no dot, so the namespace of a resolved name
can be read off it; tools whose sanitized names are distinct and free are resolved to these
names; and in every run no resolved name stands for two tools (`run_distinctNames`).
-/

import PersonalAgent.Mcp.Runs

namespace PersonalAgent.Mcp

open Lib List

/-! ### Names -/

section

variable [CharCase]

omit [CharCase] in
theorem sanitizeChar_chars {P : Char → Prop} (hletter : ∀ c, isAsciiAlphanumeric c = true → P c)
    (hunderscore : P '_') {acc : List Char × Bool} (hacc : ∀ c ∈ acc.1, P c) (d : Char) :
    ∀ c ∈ (sanitizeChar acc d).1, P c := by
  intro c hmem
  unfold sanitizeChar at hmem
  split_ifs at hmem with halphanumeric
  · rcases mem_append.mp hmem with hold | hnew
    · exact hacc c hold
    · obtain rfl := mem_singleton.mp hnew
      exact hletter c halphanumeric
  · rcases mem_append.mp hmem with hold | hnew
    · exact hacc c hold
    · obtain rfl := mem_singleton.mp hnew
      exact hunderscore
  · exact hacc c hmem

theorem sanitizeIdentifier_chars {value : String} {c : Char}
    (h : c ∈ (sanitizeIdentifier value).toList) : isAsciiAlphanumeric c = true ∨ c = '_' := by
  have hfold (chars : List Char) : ∀ acc : List Char × Bool,
      (∀ d ∈ acc.1, isAsciiAlphanumeric d = true ∨ d = '_') →
      ∀ d ∈ (chars.foldl sanitizeChar acc).1, isAsciiAlphanumeric d = true ∨ d = '_' := by
    induction chars with
    | nil => exact fun _ hacc => hacc
    | cons d chars ih =>
      exact fun acc hacc => ih _ (sanitizeChar_chars (fun _ => .inl) (.inr rfl) hacc d)
  rw [sanitizeIdentifier, String.toList_ofList, mem_reverse] at h
  have hmem := mem_reverse.mp (dropWhile_sublist _ |>.subset h)
  exact hfold _ _ (fun _ hnone => absurd hnone not_mem_nil) c hmem

theorem namespace_dotFree [UrlLibrary] {definition : ServerDefinition}
    (h : validateDefinition definition = .ok ()) : '.' ∉ definition.namespace_.toList := by
  obtain ⟨-, h⟩ := refuse_bind_ok h
  obtain ⟨hname, -⟩ := refuse_bind_ok h
  rw [not_or, not_not] at hname
  intro hdot
  rw [← hname.1] at hdot
  rcases sanitizeIdentifier_chars hdot with h | h <;> revert h <;> decide

end

theorem baseName_toList (namespace_ name : String) :
    (baseName namespace_ name).toList = namespace_.toList ++ '.' :: name.toList := by
  simp [baseName]

variable {namespace_ : String} {tools normalized : List ToolDescriptor}

theorem baseName_right {a b : String} (h : baseName namespace_ a = baseName namespace_ b) :
    a = b := by
  have hlist := congrArg String.toList h
  rw [baseName_toList, baseName_toList] at hlist
  exact String.toList_injective (List.cons.inj (append_cancel_left hlist)).2

/-- The namespace of a name is what stands before the first dot. -/
theorem baseName_left {other a b : String} (hdot : '.' ∉ namespace_.toList)
    (hother : '.' ∉ other.toList) (h : baseName namespace_ a = baseName other b) :
    namespace_ = other := by
  have htake {ns : String} (name : String) (hns : '.' ∉ ns.toList) :
      (baseName ns name).toList.takeWhile (· ≠ '.') = ns.toList := by
    rw [baseName_toList, takeWhile_append_of_pos]
    · simp
    · exact fun c hc => decide_eq_true fun hdot => hns (hdot ▸ hc)
  refine String.toList_injective ?_
  rw [← htake a hdot, ← htake b hother, h]

/-- Tools whose sanitized names are distinct and free get these names. -/
theorem normalizeTools_bases [CharCase] {taken : List String}
    (hdistinct : (tools.map fun tool => sanitizeIdentifier tool.name).Nodup)
    (hfree : ∀ tool ∈ tools, baseName namespace_ (sanitizeIdentifier tool.name) ∉ taken)
    (h : normalizeTools namespace_ tools taken = .ok normalized) :
    ∀ tool ∈ normalized,
      tool.resolvedName = baseName namespace_ (sanitizeIdentifier tool.name) := by
  induction tools generalizing taken normalized with
  | nil =>
    cases h
    exact nofun
  | cons tool tools ih =>
    obtain ⟨-, h⟩ := refuse_bind_ok h
    obtain ⟨rest, hrest, h⟩ := bind_ok_iff.mp h
    cases h
    rw [map_cons, nodup_cons] at hdistinct
    have hresolved : firstFree taken
        (nameCandidate (baseName namespace_ (sanitizeIdentifier tool.name))) =
          baseName namespace_ (sanitizeIdentifier tool.name) :=
      firstFree_of_not_mem (hfree tool mem_cons_self)
    intro t ht
    rcases mem_cons.mp ht with rfl | ht
    · exact hresolved
    · refine ih hdistinct.2 (fun other hother htaken => ?_) hrest t ht
      rw [hresolved] at htaken
      rcases mem_cons.mp htaken with hsame | htaken
      · refine hdistinct.1 ?_
        rw [← baseName_right hsame]
        exact mem_map_of_mem hother
      · exact hfree other (mem_cons_of_mem _ hother) htaken

theorem sanitized_of_normalized [CharCase] {taken : List String}
    (h : normalizeTools namespace_ tools taken = .ok normalized) :
    normalized.map (fun tool => sanitizeIdentifier tool.name) =
      tools.map fun tool => sanitizeIdentifier tool.name := by
  have hnames := congrArg (List.map sanitizeIdentifier) (normalizeTools_spec h).1
  rwa [map_map, map_map] at hnames

/-! ### Distinct names -/

namespace McpManager

/-- No resolved name stands for two tools, of one server or of two. -/
structure DistinctNames (m : McpManager) : Prop where
  within : ∀ (id : Uuid) (s : ManagedServer), m.servers[id]? = some s →
    (s.tools.map (·.resolvedName)).Nodup
  across : ∀ (id id' : Uuid) (s s' : ManagedServer), m.servers[id]? = some s →
    m.servers[id']? = some s' → id ≠ id' → ∀ tool ∈ s.tools, ∀ tool' ∈ s'.tools,
      tool.resolvedName ≠ tool'.resolvedName

theorem mem_catalogNamesExcluding {m : McpManager} {id : Uuid} {name : String} :
    name ∈ m.catalogNamesExcluding id ↔ ∃ (id' : Uuid) (s : ManagedServer), id' ≠ id ∧
      m.servers[id']? = some s ∧ ∃ tool ∈ s.tools, tool.resolvedName = name := by
  unfold catalogNamesExcluding
  rw [mem_flatMap]
  constructor
  · rintro ⟨⟨id', s⟩, hentry, hname⟩
    obtain ⟨hmem, hne⟩ := mem_filter.mp hentry
    obtain ⟨tool, htool, rfl⟩ := mem_map.mp hname
    exact ⟨id', s, of_decide_eq_true hne,
      Std.ExtTreeMap.mem_toList_iff_getElem?_eq_some.mp hmem, tool, htool, rfl⟩
  · rintro ⟨id', s, hne, hs, tool, htool, rfl⟩
    exact ⟨(id', s), mem_filter.mpr
      ⟨Std.ExtTreeMap.mem_toList_iff_getElem?_eq_some.mpr hs, decide_eq_true hne⟩,
      mem_map_of_mem htool⟩

end McpManager

section

variable [UrlLibrary] [CharCase] [ConsentDigest] {m : McpManager}

/-- Where a catalog comes from. -/
theorem apply_tools {op : ManagerOperation} {id : Uuid} {s : ManagedServer}
    (hs : (m.apply op).servers[id]? = some s) :
    s.tools = [] ∨ ∃ before, m.servers[id]? = some before ∧
      s.definition.namespace_ = before.definition.namespace_ ∧ (s.tools = before.tools ∨
      ∃ handshake, (op = .on id (.connect (.ok handshake)) ∨
        op = .on id (.restart (.ok handshake))) ∧
        normalizeTools before.definition.namespace_ handshake.tools (m.catalogNamesExcluding id) =
          .ok s.tools) := by
  rcases apply_origin hs with ⟨_, -, -, -, -, rfl⟩ | ⟨before, hbefore, hcase⟩
  · exact .inl rfl
  · rcases hcase with rfl | ⟨-, rfl⟩ | ⟨operation, hop, rfl⟩
    · exact .inr ⟨s, hbefore, rfl, .inl rfl⟩
    · obtain ⟨hdefinition, htools, -⟩ := before.recover_spec
      exact .inr ⟨before, hbefore, by rw [hdefinition], .inl htools⟩
    · have hchange := effect_change (m.catalogNamesExcluding id) before operation
      obtain ⟨_, _, hdefinition⟩ := hchange.definition
      have hnamespace : (operation.effect (m.catalogNamesExcluding id) before).definition.namespace_
          = before.definition.namespace_ := by rw [hdefinition]
      rcases hchange.catalog with ⟨htools, -⟩ |
        ⟨handshake, tools, hconnect, hnormal, htools, -⟩ | ⟨-, htools, -⟩ | ⟨_, -, -, htools, -⟩
      · exact .inr ⟨before, hbefore, hnamespace, .inl htools⟩
      · refine .inr ⟨before, hbefore, hnamespace, .inr ⟨handshake, ?_, htools ▸ hnormal⟩⟩
        rcases hconnect with rfl | rfl
        · exact .inl hop
        · exact .inr hop
      · exact .inl htools
      · exact .inr ⟨before, hbefore, hnamespace, .inl htools⟩

theorem apply_distinctNames (op : ManagerOperation) (h : m.DistinctNames) :
    (m.apply op).DistinctNames := by
  -- Against a server that connects, any other server still has the catalog it had.
  have hagainst {id id' : Uuid} {s s' before : ManagedServer} {handshake : RuntimeHandshake}
      (hne : id ≠ id') (hs' : (m.apply op).servers[id']? = some s')
      (hop : op = .on id (.connect (.ok handshake)) ∨ op = .on id (.restart (.ok handshake)))
      (hnormal : normalizeTools before.definition.namespace_ handshake.tools
        (m.catalogNamesExcluding id) = .ok s.tools) :
      ∀ tool ∈ s.tools, ∀ tool' ∈ s'.tools, tool.resolvedName ≠ tool'.resolvedName := by
    intro tool htool tool' htool' hsame
    refine (normalizeTools_spec hnormal).2.2 tool htool
      (McpManager.mem_catalogNamesExcluding.mpr ?_)
    rcases apply_tools hs' with hnil | ⟨before', hbefore', -, hkept | ⟨_, hop', -⟩⟩
    · rw [hnil] at htool'
      cases htool'
    · exact ⟨id', before', hne.symm, hbefore', tool', hkept ▸ htool', hsame.symm⟩
    · rcases hop with rfl | rfl <;> rcases hop' with hop' | hop' <;> cases hop' <;>
        exact absurd rfl hne
  refine ⟨fun id s hs => ?_, fun id id' s s' hs hs' hne => ?_⟩
  · rcases apply_tools hs with hnil | ⟨before, hbefore, -, hkept | ⟨_, -, hnormal⟩⟩
    · rw [hnil]
      exact nodup_nil
    · rw [hkept]
      exact h.within id before hbefore
    · exact (normalizeTools_spec hnormal).2.1
  · rcases apply_tools hs with hnil | ⟨before, hbefore, -, hkept | ⟨_, hop, hnormal⟩⟩
    · rw [hnil]
      exact nofun
    · rcases apply_tools hs' with hnil' | ⟨before', hbefore', -, hkept' | ⟨_, hop', hnormal'⟩⟩
      · rw [hnil']
        exact fun _ _ => nofun
      · rw [hkept, hkept']
        exact h.across id id' before before' hbefore hbefore' hne
      · exact fun tool htool tool' htool' hsame =>
          hagainst hne.symm hs hop' hnormal' tool' htool' tool htool hsame.symm
    · exact hagainst hne hs' hop hnormal

/-- **No resolved name stands for two tools**, in every run from the empty registry. -/
theorem run_distinctNames (ops : List ManagerOperation) :
    (run McpManager.apply {} ops).DistinctNames :=
  run_invariant McpManager.DistinctNames (fun _ op => apply_distinctNames op) ops
    ⟨fun _ _ hs => (McpManager.empty_servers hs).elim,
      fun _ _ _ _ hs => (McpManager.empty_servers hs).elim⟩

end

end PersonalAgent.Mcp
