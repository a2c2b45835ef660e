/-
# Tool names, permissions and arguments

`normalize_catalog`, `seed_conservative_permissions`, `resolve_permission` and
`validate_json_arguments` of `crates/mcp-manager/src/lib.rs`.

A server's tool is known to the rest of the program under a resolved name: the namespace
of the server, a dot, and what `sanitize_identifier` leaves of the name that the server
gave it, with a number behind it if that is taken.  The loop over the numbers is
`Lib.firstFree`; its counter is a `u32` in the source and is not bounded here, since a
catalog of four billion tools cannot be held.
-/

import PersonalAgent.Lib.FirstFree
import PersonalAgent.Mcp.Server

namespace PersonalAgent.Mcp

open Lib List

/-! ### Resolved names -/

/-- The names that are tried for a tool: `base`, `base_2`, `base_3` and so on. -/
def nameCandidate (base : String) : ℕ → String
  | 0 => base
  | n + 1 => base ++ "_" ++ (n + 2).repr

/-- `format!("{namespace}.{normalized}")`. -/
def baseName (namespace_ normalized : String) : String := namespace_ ++ "." ++ normalized

def Value.isObject (v : Value) : Bool := v.asObject.isSome

/-- The schema of a tool that gives none. -/
def emptySchema : Value := .object [("type", .ofStr "object"), ("properties", .object [])]

/-- The loop over the tools; `taken` are the occupied and the local names. -/
def normalizeTools [CharCase] (namespace_ : String) :
    List ToolDescriptor → List String → Except ManagerError (List ToolDescriptor)
  | [], _ => .ok []
  | tool :: rest, taken => do
    let normalized := sanitizeIdentifier tool.name
    refuse (normalized.isEmpty) (.invalidDefinition s!"tool name is invalid: {tool.name}")
    let resolved := firstFree taken (nameCandidate (baseName namespace_ normalized))
    let rest ← normalizeTools namespace_ rest (resolved :: taken)
    return { tool with
      resolvedName := resolved
      inputSchema := if Value.isObject tool.inputSchema then tool.inputSchema else emptySchema } ::
      rest

/-! ### Permissions -/

/-- What a tool without a rule is treated by. -/
def conservativeRule (tool : String) : ToolPermissionRule where
  tool := tool
  scope := .global
  decision := .ask
  executionZone := "mcp-restricted"
  maxCallsPerMinute := 30
  timeoutMs := 30000
  maxOutputBytes := 1048576

/-- A rule for every tool that has no global one; the rules that are there stay. -/
def seedConservativePermissions (permissions : List ToolPermissionRule)
    (tools : List ToolDescriptor) : List ToolPermissionRule :=
  permissions ++ (tools.filter fun tool =>
    !permissions.any fun rule => rule.tool = tool.resolvedName ∧ rule.scope = .global).map
      fun tool => conservativeRule tool.resolvedName

/-- Context supplied by the active profile and session. -/
structure InvocationContext where
  profileId : Option String := none
  workspaceId : Option String := none
  agentId : Option String := none
  userConfirmed : Bool := false
  deriving DecidableEq, Repr

/-- The scopes that apply, the most specific first. -/
def InvocationContext.scopes (context : InvocationContext) : List PermissionScope :=
  (context.agentId.map .agent).toList ++ (context.workspaceId.map .workspace).toList ++
    (context.profileId.map .profile).toList ++ [.global]

def findRule (rules : List ToolPermissionRule) (tool : String) :
    List PermissionScope → Option ToolPermissionRule
  | [] => none
  | scope :: rest =>
    match rules.find? fun rule => rule.tool = tool ∧ rule.scope = scope with
    | some rule => some rule
    | none => findRule rules tool rest

def resolvePermission (rules : List ToolPermissionRule) (tool : String)
    (context : InvocationContext) : ToolPermissionRule :=
  (findRule rules tool context.scopes).getD (conservativeRule tool)

/-! ### Arguments -/

def jsonTypeMatches (expected : String) (value : Value) : Bool :=
  match expected with
  | "string" => value.asStr.isSome
  | "number" => value.asF64.isSome
  | "integer" => match value with
    | .u64 _ | .i64 _ => true
    | _ => false
  | "boolean" => value.asBool.isSome
  | "object" => Value.isObject value
  | "array" => match value with
    | .array _ => true
    | _ => false
  | "null" => match value with
    | .null => true
    | _ => false
  | _ => true

/-- `value.get(name).and_then(Value::as_array)`. -/
def arrayAt (v : Value) (name : String) : Option (List Value) :=
  match v.get name with
  | some (.array items) => some items
  | _ => none

/-- `value.get(name).and_then(Value::as_object)`. -/
def objectAt (v : Value) (name : String) : Option (List (String × Value)) :=
  (v.get name).bind Value.asObject

/-- Lightweight JSON Schema validation for generated tool forms. -/
def validateJsonArguments (schema arguments : Value) : Except ManagerError Unit := do
  refuse (schema.strAt "type" = some (.plain "object") ∧ ¬Value.isObject arguments)
    (.invalidArguments "tool expects an object")
  match arguments.asObject with
  | none => .ok ()
  | some fields => do
    (((arrayAt schema "required").getD []).filterMap Value.asStr).forM fun field =>
      refuse ((fields.lookup field.spelling).isNone)
        (.invalidArguments s!"required field is missing: {field.spelling}")
    let properties := objectAt schema "properties"
    let unknown := if schema.boolAt "additionalProperties" = some false then
        properties.bind fun properties =>
          (fields.map (·.1)).find? fun field => (properties.lookup field).isNone
      else none
    refuse (unknown.isSome) (.invalidArguments s!"unknown field: {unknown.getD default}")
    fields.forM fun field =>
      let expected := ((properties.getD []).lookup field.1).bind (Value.strAt · "type")
      refuse (expected.any fun expected => !jsonTypeMatches expected.spelling field.2)
        (.invalidArguments s!"field {field.1} must be {(expected.map Text.spelling).getD default}")

/-! ### Lemmas -/

theorem nameCandidate_injective (base : String) : (nameCandidate base).Injective := by
  have hlength (n : ℕ) : base.length < (nameCandidate base (n + 1)).length := by
    rw [nameCandidate, String.length_append, String.length_append]
    have : "_".length = 1 := rfl
    omega
  intro a b h
  cases a with
  | zero =>
    cases b with
    | zero => rfl
    | succ b =>
      have hb := hlength b
      rw [← h, nameCandidate] at hb
      exact absurd hb (lt_irrefl _)
  | succ a =>
    cases b with
    | zero =>
      have ha := hlength a
      rw [h, nameCandidate] at ha
      exact absurd ha (lt_irrefl _)
    | succ b =>
      have hrepr : (a + 2).repr = (b + 2).repr := by
        have hlist := congrArg String.toList h
        simp only [nameCandidate, String.toList_append] at hlist
        exact String.toList_injective (append_cancel_left hlist)
      rw [Nat.add_right_cancel (Nat.repr_inj.mp hrepr)]

variable {tools : List ToolDescriptor} {permissions : List ToolPermissionRule}

/-- What a catalog is normalized to: a list of tools of the same names in the same order, under
resolved names that are distinct and were not taken. -/
theorem normalizeTools_spec [CharCase] {namespace_ : String} {taken : List String}
    {normalized : List ToolDescriptor}
    (h : normalizeTools namespace_ tools taken = .ok normalized) :
    normalized.map (·.name) = tools.map (·.name) ∧
      (normalized.map (·.resolvedName)).Nodup ∧
      ∀ tool ∈ normalized, tool.resolvedName ∉ taken := by
  induction tools generalizing taken normalized with
  | nil =>
    cases h
    exact ⟨rfl, nodup_nil, fun _ hmem => absurd hmem not_mem_nil⟩
  | cons tool tools ih =>
    obtain ⟨-, h⟩ := refuse_bind_ok h
    obtain ⟨rest, hrest, h⟩ := bind_ok_iff.mp h
    cases h
    obtain ⟨hnames, hnodup, hfree⟩ := ih hrest
    refine ⟨by rw [map_cons, map_cons, hnames], ?_, fun t hmem => ?_⟩
    · rw [map_cons, nodup_cons]
      refine ⟨fun hmem => ?_, hnodup⟩
      obtain ⟨t, ht, hresolved⟩ := mem_map.mp hmem
      exact hfree t ht (hresolved ▸ mem_cons_self)
    · rcases mem_cons.mp hmem with rfl | ht
      · exact firstFree_not_mem (nameCandidate_injective _)
      · exact fun htaken => hfree t ht (mem_cons_of_mem _ htaken)

/-- The rules that were there stay, and every tool has a global one. -/
theorem mem_seedConservativePermissions {rule : ToolPermissionRule} (h : rule ∈ permissions) :
    rule ∈ seedConservativePermissions permissions tools :=
  mem_append_left _ h

theorem seedConservativePermissions_covers {tool : ToolDescriptor} (h : tool ∈ tools) :
    ∃ rule ∈ seedConservativePermissions permissions tools,
      rule.tool = tool.resolvedName ∧ rule.scope = .global := by
  by_cases hrule : permissions.any fun rule => rule.tool = tool.resolvedName ∧ rule.scope = .global
  · obtain ⟨rule, hmem, heq⟩ := any_eq_true.mp hrule
    exact ⟨rule, mem_seedConservativePermissions hmem, of_decide_eq_true heq⟩
  · refine ⟨conservativeRule tool.resolvedName, mem_append_right _ (mem_map.mpr
      ⟨tool, mem_filter.mpr ⟨h, ?_⟩, rfl⟩), rfl, rfl⟩
    rw [Bool.not_eq_true] at hrule
    rw [hrule]
    rfl

end PersonalAgent.Mcp
