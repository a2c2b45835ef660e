/-
# A permission and the tool it was given for

A rule of the user names a tool by its resolved name, and the catalog that resolves the name
is computed anew at every connection.  `Grant` is the book-keeping of who gave which rule
for which tool: the server, the rule and the name under which the server itself knows the
tool, kept for as long as the manager keeps the rule (`step_rules`).

Resolved names are pairwise distinct over all catalogs in every run.  A name can be resolved
to another tool of the same server, though: if two names of the server are sanitized to one,
the order of its catalog decides which of the two gets it, and the rule stays with the name.
`permission_binds_tool` is about runs whose catalogs have no such names, also not beside a
tool that has a rule.
-/

import PersonalAgent.Mcp.Names
import PersonalAgent.Mcp.Routing
import PersonalAgent.Mcp.Usable

namespace PersonalAgent.Mcp

open Lib List McpManager

/-! ### Grants -/

/-- A rule that the user set, with the server it was set on and the server's own name of the
tool it was set for. -/
structure Grant where
  server : Uuid
  rule : ToolPermissionRule
  raw : String
  deriving DecidableEq, Repr

/-- The manager with the rules of the user. -/
structure GrantedManager where
  manager : McpManager := {}
  grants : List Grant := []

section

variable [UrlLibrary] [CharCase] [ConsentDigest]

namespace McpManager

/-- The server whose rules an operation deletes: one that is replaced by a draft, purged or
uninstalled. -/
def dropsRules (m : McpManager) : ManagerOperation → Option Uuid
  | .addServer definition => if (m.addServer definition).2.isOk then some definition.id else none
  | .purgeTombstone id => if (m.purgeTombstone id).2.isOk then some id else none
  | .on id (.uninstall consent outcome) =>
    if (m.uninstall id consent outcome).2.isOk then some id else none
  | _ => none

omit [UrlLibrary] [CharCase] [ConsentDigest] in
/-- The tool that a resolved name denotes, by the name of its server. -/
def rawTool (m : McpManager) (id : Uuid) (resolved : String) : Option String :=
  (m.servers[id]?.bind fun s => s.tools.find? (·.resolvedName = resolved)).map (·.name)

omit [UrlLibrary] [CharCase] [ConsentDigest] in
def gives (m : McpManager) : ManagerOperation → Option Grant
  | .on id (.setPermission rule) =>
    if (m.setPermission id rule).2.isOk then
      (m.rawTool id rule.tool).map fun raw => ⟨id, rule, raw⟩
    else none
  | _ => none

end McpManager

namespace GrantedManager

omit [UrlLibrary] [CharCase] [ConsentDigest] in
/-- The grants without those that a new one takes the place of. -/
def replace (grants : List Grant) : Option Grant → List Grant
  | none => grants
  | some new =>
    grants.filter (fun g => !(g.server = new.server ∧ g.rule.key = new.rule.key)) ++ [new]

omit [UrlLibrary] [CharCase] [ConsentDigest] in
/-- The grants without those of a server. -/
def dropServer (grants : List Grant) : Option Uuid → List Grant
  | none => grants
  | some id => grants.filter (·.server ≠ id)

/-- An operation of the manager, and what it means for the rules of the user. -/
def step (g : GrantedManager) (op : ManagerOperation) : GrantedManager where
  manager := g.manager.apply op
  grants := replace (dropServer g.grants (g.manager.dropsRules op)) (g.manager.gives op)

end GrantedManager

/-! ### What a step does to the rules -/

/-- A record after a step that neither drops its rules nor adds one: its catalog is the one it
had, or the one it connected with. -/
def Quiet (m : McpManager) (op : ManagerOperation) (id : Uuid) (before after : ManagedServer) :
    Prop :=
  after.definition.namespace_ = before.definition.namespace_ ∧
    ((after.tools = before.tools ∧ after.permissions = before.permissions) ∨
      ∃ handshake,
        (op = .on id (.connect (.ok handshake)) ∨ op = .on id (.restart (.ok handshake))) ∧
        normalizeTools before.definition.namespace_ handshake.tools (m.catalogNamesExcluding id) =
          .ok after.tools ∧
        after.permissions = seedConservativePermissions before.permissions after.tools)

/-- Every record is as before the step or changed without an effect on the rules of the user. -/
def AllQuiet (m : McpManager) (op : ManagerOperation) : Prop :=
  ∀ id, (m.servers[id]? = none ∧ (m.apply op).servers[id]? = none) ∨
    ∃ before after, m.servers[id]? = some before ∧ (m.apply op).servers[id]? = some after ∧
      Quiet m op id before after

theorem allQuiet_of_eq {m : McpManager} {op : ManagerOperation} (h : m.apply op = m) :
    AllQuiet m op := by
  intro id
  rw [h]
  cases hs : m.servers[id]? with
  | none => exact .inl ⟨rfl, rfl⟩
  | some s => exact .inr ⟨s, s, rfl, rfl, rfl, .inl ⟨rfl, rfl⟩⟩

theorem allQuiet_on {m : McpManager} {id : Uuid} {operation : ServerOperation}
    (huninstall : ∀ consent outcome, operation ≠ .uninstall consent outcome)
    (hset : ∀ rule, operation ≠ .setPermission rule) : AllQuiet m (.on id operation) := by
  rcases applyOn_cases m id operation with hsame | ⟨s, hs, heq⟩
  · exact allQuiet_of_eq hsame
  · intro id'
    have hread : (m.apply (.on id operation)).servers[id']? =
        if id' = id then some (operation.effect (m.catalogNamesExcluding id) s)
        else m.servers[id']? := by
      rw [apply, heq, getElem?_insert_eq]
    rw [hread]
    split_ifs with hid
    · subst hid
      refine .inr ⟨s, _, hs, rfl, ?_⟩
      have hchange := effect_change (m.catalogNamesExcluding id') s operation
      obtain ⟨_, _, hdefinition⟩ := hchange.definition
      refine ⟨by rw [hdefinition], ?_⟩
      rcases hchange.catalog with hkept | ⟨handshake, tools, hop, hnormal, htools, hpermissions⟩ |
        ⟨⟨consent, outcome, hop⟩, -⟩ | ⟨rule, hop, -⟩
      · exact .inl hkept
      · refine .inr ⟨handshake, ?_, htools ▸ hnormal, htools ▸ hpermissions⟩
        rcases hop with rfl | rfl
        · exact .inl rfl
        · exact .inr rfl
      · exact absurd hop (huninstall consent outcome)
      · exact absurd hop (hset rule)
    · cases hother : m.servers[id']? with
      | none => exact .inl ⟨rfl, rfl⟩
      | some other => exact .inr ⟨other, other, rfl, rfl, rfl, .inl ⟨rfl, rfl⟩⟩

/-- **A step and the rules.**  It drops the rules of one server, it gives one rule for a tool
of a catalog, or it does neither. -/
theorem step_rules (m : McpManager) (op : ManagerOperation) :
    (∃ id, m.dropsRules op = some id ∧ m.gives op = none ∧
      (∀ id', id' ≠ id → (m.apply op).servers[id']? = m.servers[id']?) ∧
      ∀ s, (m.apply op).servers[id]? = some s → s.tools = [] ∧ s.permissions = []) ∨
    (∃ id rule s tool, m.dropsRules op = none ∧ m.gives op = some ⟨id, rule, tool.name⟩ ∧
      m.servers[id]? = some s ∧ tool ∈ s.tools ∧ tool.resolvedName = rule.tool ∧
      m.apply op = ⟨m.servers.insert id { s with
        permissions := (s.permissions.filter fun existing =>
          !(existing.tool = rule.tool ∧ existing.scope = rule.scope)) ++ [rule] }⟩) ∨
    (m.dropsRules op = none ∧ m.gives op = none ∧ AllQuiet m op) := by
  cases op with
  | addServer definition =>
    rcases addServer_outcome m definition with ⟨e, hsame⟩ | ⟨-, -, heq⟩
    · refine .inr (.inr ⟨?_, rfl, allQuiet_of_eq ?_⟩)
      · rw [dropsRules, hsame]
        rfl
      · rw [apply, hsame]
    · refine .inl ⟨definition.id, ?_, rfl, fun id' hne => ?_, fun s hs => ?_⟩
      · rw [dropsRules, heq]
        rfl
      · rw [apply, heq, getElem?_insert_eq, if_neg hne]
      · rw [apply, heq, getElem?_insert_eq, if_pos rfl] at hs
        cases hs
        exact ⟨rfl, rfl⟩
  | purgeTombstone id =>
    rcases purgeTombstone_outcome m id with ⟨hok, hsame⟩ | ⟨hok, heq⟩
    · refine .inr (.inr ⟨?_, rfl, allQuiet_of_eq hsame⟩)
      rw [dropsRules, hok]
      rfl
    · refine .inl ⟨id, ?_, rfl, fun id' hne => ?_, fun s hs => ?_⟩
      · rw [dropsRules, hok]
        rfl
      · rw [apply, heq, getElem?_erase_eq, if_neg hne]
      · rw [apply, heq, getElem?_erase_eq, if_pos rfl] at hs
        cases hs
  | recoverAfterRestart =>
    refine .inr (.inr ⟨rfl, rfl, fun id => ?_⟩)
    have hread : (m.apply .recoverAfterRestart).servers[id]? =
        m.servers[id]?.map ManagedServer.recover := Std.ExtTreeMap.getElem?_map
    rw [hread]
    cases hs : m.servers[id]? with
    | none => exact .inl ⟨rfl, rfl⟩
    | some s =>
      obtain ⟨hdefinition, htools, hpermissions, -⟩ := s.recover_spec
      exact .inr ⟨s, s.recover, rfl, rfl, by rw [hdefinition], .inl ⟨htools, hpermissions⟩⟩
  | on id operation =>
    cases operation with
    | uninstall consent outcome =>
      rcases uninstall_outcome m id consent outcome with ⟨hok, hsame⟩ | ⟨hok, s, hs, heq⟩
      · refine .inr (.inr ⟨?_, rfl, allQuiet_of_eq hsame⟩)
        rw [dropsRules, hok]
        rfl
      · refine .inl ⟨id, ?_, rfl, fun id' hne => ?_, fun s' hs' => ?_⟩
        · rw [dropsRules, hok]
          rfl
        · rw [apply, applyOn, heq, getElem?_insert_eq, if_neg hne]
        · rw [apply, applyOn, heq, getElem?_insert_eq, if_pos rfl] at hs'
          cases hs'
          exact ⟨rfl, rfl⟩
    | setPermission rule =>
      rcases setPermission_outcome m id rule with ⟨hok, hsame⟩ | ⟨hok, s, tool, hs, hfound, heq⟩
      · refine .inr (.inr ⟨rfl, ?_, allQuiet_of_eq hsame⟩)
        rw [gives, hok]
        rfl
      · have hname := find?_some hfound
        refine .inr (.inl ⟨id, rule, s, tool, rfl, ?_, hs, mem_of_find?_eq_some hfound,
          of_decide_eq_true hname, heq⟩)
        rw [gives, hok, if_pos rfl, rawTool, hs, Option.bind_some, hfound]
        rfl
    | _ => exact .inr (.inr ⟨rfl, rfl, allQuiet_on (by intro _ _ h; cases h)
        (by intro _ h; cases h)⟩)

/-! ### The grants are the rules of the user -/

namespace GrantedManager

variable {grants : List Grant} {id : Uuid} {g : GrantedManager}

omit [UrlLibrary] [CharCase] [ConsentDigest] in
theorem mem_replace {new grant : Grant} :
    grant ∈ replace grants (some new) ↔
      (grant ∈ grants ∧ ¬(grant.server = new.server ∧ grant.rule.key = new.rule.key)) ∨
        grant = new := by
  rw [replace, mem_append, mem_filter, mem_singleton, Bool.not_eq_true',
    decide_eq_false_iff_not]

omit [UrlLibrary] [CharCase] [ConsentDigest] in
theorem mem_dropServer {grant : Grant} :
    grant ∈ dropServer grants (some id) ↔ grant ∈ grants ∧ grant.server ≠ id := by
  rw [dropServer, mem_filter, decide_eq_true_iff]

/-- Every rule is a conservative one that the manager made, or a grant. -/
def Recorded (g : GrantedManager) : Prop :=
  ∀ (id : Uuid) (s : ManagedServer) (rule : ToolPermissionRule),
    g.manager.servers[id]? = some s → rule ∈ s.permissions →
      rule = conservativeRule rule.tool ∨ ∃ grant ∈ g.grants, grant.server = id ∧ grant.rule = rule

theorem step_recorded (g : GrantedManager) (op : ManagerOperation) (h : g.Recorded) :
    (g.step op).Recorded := by
  intro id s rule hs hrule
  simp only [step] at hs ⊢
  rcases step_rules g.manager op with ⟨target, hdrops, hgives, hother, htarget⟩ |
    ⟨target, set, before, tool, hdrops, hgives, hbefore, -, -, heq⟩ | ⟨hdrops, hgives, hquiet⟩
  · by_cases hid : id = target
    · rw [hid] at hs
      rw [(htarget s hs).2] at hrule
      cases hrule
    · rw [hother id hid] at hs
      refine (h id s rule hs hrule).imp_right fun ⟨grant, hgrant, hserver, hsame⟩ => ?_
      rw [hdrops, hgives]
      exact ⟨grant, mem_dropServer.mpr ⟨hgrant, hserver ▸ hid⟩, hserver, hsame⟩
  · rw [heq, getElem?_insert_eq] at hs
    rw [hdrops, hgives]
    split_ifs at hs with hid
    · cases hs
      rcases mem_append.mp hrule with hold | hnew
      · obtain ⟨hold, hkey⟩ := mem_filter.mp hold
        rw [Bool.not_eq_true', decide_eq_false_iff_not] at hkey
        refine (h target before rule hbefore hold).imp_right
          fun ⟨grant, hgrant, hserver, hsame⟩ => ?_
        refine ⟨grant, mem_replace.mpr (.inl ⟨hgrant, fun ⟨_, hkeys⟩ => hkey ?_⟩),
          hserver.trans hid.symm, hsame⟩
        rw [hsame] at hkeys
        exact ⟨congrArg Prod.fst hkeys, congrArg Prod.snd hkeys⟩
      · rw [mem_singleton] at hnew
        exact .inr ⟨_, mem_replace.mpr (.inr rfl), hid.symm, hnew.symm⟩
    · refine (h id s rule hs hrule).imp_right fun ⟨grant, hgrant, hserver, hsame⟩ => ?_
      exact ⟨grant, mem_replace.mpr (.inl ⟨hgrant, fun ⟨htarget, _⟩ =>
        hid (hserver.symm.trans htarget)⟩), hserver, hsame⟩
  · rw [hdrops, hgives]
    rcases hquiet id with ⟨-, hnone⟩ | ⟨before, after, hbefore, hafter, -, hcase⟩
    · rw [hnone] at hs
      cases hs
    · cases hafter.symm.trans hs
      rcases hcase with ⟨-, hpermissions⟩ | ⟨_, -, -, hpermissions⟩
      · rw [hpermissions] at hrule
        exact h id before rule hbefore hrule
      · rw [hpermissions] at hrule
        rcases mem_append.mp hrule with hold | hseed
        · exact h id before rule hbefore hold
        · obtain ⟨tool, -, rfl⟩ := mem_map.mp hseed
          exact .inl rfl

/-! ### A grant stays with its tool -/

omit [UrlLibrary] [ConsentDigest] in
/-- A catalog in which no two names are sanitized to one, also not one of it and the name of
a tool with a rule. -/
def keepsNames (grants : List Grant) (id : Uuid) (tools : List ToolDescriptor) : Bool :=
  decide (tools.map fun tool => sanitizeIdentifier tool.name).Nodup &&
    tools.all fun tool => grants.all fun grant => decide (grant.server = id →
      sanitizeIdentifier tool.name = sanitizeIdentifier grant.raw → tool.name = grant.raw)

omit [UrlLibrary] [ConsentDigest] in
/-- The steps that leave a rule with its tool. -/
def keepsBindings (g : GrantedManager) : ManagerOperation → Bool
  | .on id (.connect (.ok handshake)) => keepsNames g.grants id handshake.tools
  | .on id (.restart (.ok handshake)) => keepsNames g.grants id handshake.tools
  | _ => true

omit [UrlLibrary] [ConsentDigest] in
theorem keepsNames_iff {tools : List ToolDescriptor} :
    keepsNames grants id tools = true ↔
      (tools.map fun tool => sanitizeIdentifier tool.name).Nodup ∧
        ∀ tool ∈ tools, ∀ grant ∈ grants, grant.server = id →
          sanitizeIdentifier tool.name = sanitizeIdentifier grant.raw → tool.name = grant.raw := by
  simp only [keepsNames, Bool.and_eq_true, decide_eq_true_eq, all_eq_true]

omit [UrlLibrary] [ConsentDigest] in
theorem keepsBindings_connect {op : ManagerOperation} {handshake : RuntimeHandshake}
    (h : g.keepsBindings op = true)
    (hop : op = .on id (.connect (.ok handshake)) ∨ op = .on id (.restart (.ok handshake))) :
    keepsNames g.grants id handshake.tools = true := by
  rcases hop with rfl | rfl <;> exact h

/-- Every name is the sanitized one, of one tool only, and every grant is for the tool of its
name. -/
structure Bound (g : GrantedManager) : Prop where
  dotFree : ∀ (id : Uuid) (s : ManagedServer), g.manager.servers[id]? = some s →
    '.' ∉ s.definition.namespace_.toList
  namespaces : g.manager.DistinctNamespaces
  bases : ∀ (id : Uuid) (s : ManagedServer), g.manager.servers[id]? = some s → ∀ tool ∈ s.tools,
    tool.resolvedName = baseName s.definition.namespace_ (sanitizeIdentifier tool.name)
  distinct : ∀ (id : Uuid) (s : ManagedServer), g.manager.servers[id]? = some s →
    (s.tools.map fun tool => sanitizeIdentifier tool.name).Nodup
  granted : ∀ grant ∈ g.grants, ∃ s, g.manager.servers[grant.server]? = some s ∧
    grant.rule.tool = baseName s.definition.namespace_ (sanitizeIdentifier grant.raw) ∧
    ∀ tool ∈ s.tools, sanitizeIdentifier tool.name = sanitizeIdentifier grant.raw →
      tool.name = grant.raw

omit [UrlLibrary] [ConsentDigest] in
theorem Bound.free (h : g.Bound) {s : ManagedServer} (hs : g.manager.servers[id]? = some s)
    (name : String) :
    baseName s.definition.namespace_ name ∉ g.manager.catalogNamesExcluding id := by
  intro htaken
  obtain ⟨id', s', hne, hs', tool, htool, hname⟩ :=
    mem_catalogNamesExcluding.mp htaken
  rw [h.bases id' s' hs' tool htool] at hname
  exact hne (h.namespaces id' id s' s hs' hs
    (baseName_left (h.dotFree id' s' hs') (h.dotFree id s hs) hname))

theorem step_bound {op : ManagerOperation} (hop : g.keepsBindings op = true) (h : g.Bound) :
    (g.step op).Bound where
  dotFree := apply_forall (P := fun _ s => '.' ∉ s.definition.namespace_.toList)
    (fun _ _ hvalid => namespace_dotFree hvalid)
    (fun _ s _ hs => by rw [s.recover_spec.1]; exact hs)
    (fun id operation s _ _ hs => by
      obtain ⟨_, _, hdefinition⟩ :=
        (effect_change (g.manager.catalogNamesExcluding id) s operation).definition
      rw [hdefinition]
      exact hs) h.dotFree
  namespaces := apply_distinctNamespaces op h.namespaces
  bases id s hs := by
    rcases apply_tools hs with hnil | ⟨before, hbefore, hnamespace, hkept | ⟨_, hconnect, hnormal⟩⟩
    · rw [hnil]
      exact nofun
    · rw [hkept, hnamespace]
      exact h.bases id before hbefore
    · have hcatalog := keepsNames_iff.mp (keepsBindings_connect hop hconnect)
      rw [hnamespace]
      exact normalizeTools_bases hcatalog.1 (fun _ _ => h.free hbefore _) hnormal
  distinct id s hs := by
    rcases apply_tools hs with hnil | ⟨before, hbefore, -, hkept | ⟨_, hconnect, hnormal⟩⟩
    · rw [hnil]
      exact nodup_nil
    · rw [hkept]
      exact h.distinct id before hbefore
    · rw [sanitized_of_normalized hnormal]
      exact (keepsNames_iff.mp (keepsBindings_connect hop hconnect)).1
  granted := by
    intro grant hgrant
    simp only [step] at hgrant ⊢
    rcases step_rules g.manager op with ⟨target, hdrops, hgives, hother, -⟩ |
      ⟨target, rule, before, tool, hdrops, hgives, hbefore, htool, hname, heq⟩ |
      ⟨hdrops, hgives, hquiet⟩ <;> rw [hdrops, hgives] at hgrant
    · obtain ⟨hgrant, hserver⟩ := mem_dropServer.mp hgrant
      rw [hother _ hserver]
      exact h.granted grant hgrant
    · rw [heq, getElem?_insert_eq]
      rcases mem_replace.mp hgrant with ⟨hold, -⟩ | rfl
      · obtain ⟨s, hs, hrule, htools⟩ := h.granted grant hold
        split_ifs with hserver
        · cases (hserver ▸ hs).symm.trans hbefore
          exact ⟨_, rfl, hrule, htools⟩
        · exact ⟨s, hs, hrule, htools⟩
      · rw [if_pos rfl]
        refine ⟨_, rfl, hname ▸ h.bases target before hbefore tool htool,
          fun other hmem hsame => ?_⟩
        rw [inj_on_of_nodup_map (h.distinct target before hbefore) hmem htool hsame]
    · obtain ⟨s, hs, hrule, htools⟩ := h.granted grant hgrant
      rcases hquiet grant.server with ⟨hnone, -⟩ | ⟨before, after, hbefore, hafter, hns, hcase⟩
      · rw [hnone] at hs
        cases hs
      · cases hbefore.symm.trans hs
        refine ⟨after, hafter, hns ▸ hrule, fun tool htool hsame => ?_⟩
        rcases hcase with ⟨hkept, -⟩ | ⟨handshake, hconnect, hnormal, -⟩
        · exact htools tool (hkept ▸ htool) hsame
        · have hnames := (normalizeTools_spec hnormal).1
          have hmem : tool.name ∈ handshake.tools.map (·.name) :=
            hnames ▸ mem_map_of_mem htool
          obtain ⟨original, horiginal, heq⟩ := mem_map.mp hmem
          rw [← heq] at hsame ⊢
          exact (keepsNames_iff.mp (keepsBindings_connect hop hconnect)).2 original horiginal grant
            hgrant rfl hsame

theorem run_manager (ops : List ManagerOperation) (g : GrantedManager) :
    (run step g ops).manager = run apply g.manager ops := by
  induction ops generalizing g with
  | nil => rfl
  | cons op ops ih => exact ih (g.step op)

end GrantedManager

open GrantedManager

/-- The rule of a server that decides a call, if one does. -/
def McpManager.decidingRule (m : McpManager) (id : Uuid) (tool : String)
    (context : InvocationContext) : Option ToolPermissionRule :=
  m.servers[id]?.bind fun s => findRule s.permissions tool context.scopes

/-- **A permission stays with its tool.**  In every run from the empty registry resolved names
are distinct, and every rule in force was made by the manager or is a grant of the user.
Along runs whose catalogs keep the names apart, a call that a grant decides is routed to the
tool the grant was given for, on its server. -/
theorem permission_binds_tool (ops : List ManagerOperation) :
    (run step {} ops).manager.DistinctNames ∧
    (run step {} ops).Recorded ∧
    (Along step (fun g op => g.keepsBindings op = true) {} ops →
      ∀ grant ∈ (run step {} ops).grants, ∀ arguments context route,
        (run step {} ops).manager.decidingRule grant.server grant.rule.tool context =
          some grant.rule →
        (run step {} ops).manager.prepareToolCall grant.server grant.rule.tool
          arguments context = .ok route →
        route.request.serverId = grant.server ∧ route.request.toolName = grant.raw) := by
  refine ⟨?_, ?_, fun halong grant hgrant arguments context route _ hroute => ?_⟩
  · rw [run_manager]
    exact run_distinctNames ops
  · exact run_invariant GrantedManager.Recorded step_recorded ops
      fun _ _ _ hs => (empty_servers hs).elim
  · have hbound := halong.invariant GrantedManager.Bound (fun _ _ => step_bound)
      ⟨fun _ _ hs => (empty_servers hs).elim,
        fun _ _ _ _ hs => (empty_servers hs).elim,
        fun _ _ hs => (empty_servers hs).elim,
        fun _ _ hs => (empty_servers hs).elim, nofun⟩
    obtain ⟨s, hs, hroute⟩ := prepareToolCall_ok hroute
    obtain ⟨-, -, tool, htool, hname, hserver, hraw, -⟩ := ManagedServer.prepareToolCall_ok hroute
    obtain ⟨s', hs', hrule, htools⟩ := hbound.granted grant hgrant
    cases hs.symm.trans hs'
    rw [hbound.bases _ s hs tool htool, hrule] at hname
    exact ⟨hserver, hraw.trans (htools tool htool (baseName_right hname))⟩

end

section Examples

attribute [local instance] Sample.asciiCase Sample.remoteUrl Sample.plainDigest

/-- The user allows a tool, and the server connects again with another one. -/
def allowedRun : List ManagerOperation :=
  [.addServer (Sample.server 1 "files" none),
    .on 1 (.connect (.ok (Sample.handshake ["read", "list"]))),
    .on 1 (.setPermission ⟨"files.read", .global, .allow, "local", 1, 1000, 1000⟩),
    .on 1 (.restart (.ok (Sample.handshake ["list", "read"])))]

/-- The request that a call of a tool comes to, without a confirmation. -/
def requestOf (m : McpManager) (tool : String) : Option GatewayToolRequest :=
  readyRequest (m.prepareToolCall 1 tool (.object []) {})

theorem requestOf_ok {m : McpManager} {tool : String} {request : GatewayToolRequest}
    (h : requestOf m tool = some request) :
    m.prepareToolCall 1 tool (.object []) {} = .ok (.ready request) :=
  readyRequest_some h

/-- A granted tool is called under the name the grant was made for. -/
theorem allowedRun_binds :
    Along GrantedManager.step (fun g op => g.keepsBindings op = true) {} allowedRun ∧
      ∃ grant ∈ (run GrantedManager.step {} allowedRun).grants, grant.raw = "read" ∧
        ∃ request, (run GrantedManager.step {} allowedRun).manager.prepareToolCall grant.server
          grant.rule.tool (.object []) {} = .ok (.ready request) ∧ request.toolName = "read" := by
  have halong : Along GrantedManager.step (fun g op => g.keepsBindings op = true)
      {} allowedRun := by
    decide +kernel
  have hgrants : (run GrantedManager.step {} allowedRun).grants =
      [⟨1, ⟨"files.read", .global, .allow, "local", 1, 1000, 1000⟩, "read"⟩] := by
    decide +kernel
  have hready : (requestOf (run GrantedManager.step {} allowedRun).manager
      "files.read").isSome = true := by
    decide +kernel
  obtain ⟨request, hrequest⟩ := Option.isSome_iff_exists.mp hready
  have hgrant : ⟨1, ⟨"files.read", .global, .allow, "local", 1, 1000, 1000⟩, "read"⟩ ∈
      (run GrantedManager.step {} allowedRun).grants := by
    rw [hgrants]
    exact mem_singleton.mpr rfl
  have hroute := requestOf_ok hrequest
  refine ⟨halong, _, hgrant, rfl, request, hroute, ?_⟩
  exact ((permission_binds_tool allowedRun).2.2 halong _ hgrant _ _ _ (by decide +kernel) hroute).2

/-- A server has two tools whose names are sanitized to one.  The user allows the first, and
the server connects again with the two in the other order. -/
def reorderedRun : List ManagerOperation :=
  [.addServer (Sample.server 1 "files" none),
    .on 1 (.connect (.ok (Sample.handshake ["read all", "read-all"]))),
    .on 1 (.setPermission ⟨"files.read_all", .global, .allow, "local", 1, 1000, 1000⟩),
    .on 1 (.restart (.ok (Sample.handshake ["read-all", "read all"])))]

/-- **A rule goes over to another tool.** -/
theorem reordered_rebinds :
    (run GrantedManager.step {} reorderedRun).grants =
        [⟨1, ⟨"files.read_all", .global, .allow, "local", 1, 1000, 1000⟩, "read all"⟩] ∧
      (run GrantedManager.step {} reorderedRun).manager.decidingRule 1 "files.read_all" {} =
        some ⟨"files.read_all", .global, .allow, "local", 1, 1000, 1000⟩ ∧
      ((requestOf (run GrantedManager.step {} reorderedRun).manager "files.read_all").map
        (·.toolName)) = some "read-all" := by
  decide +kernel

end Examples

end PersonalAgent.Mcp
