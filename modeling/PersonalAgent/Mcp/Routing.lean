/-
# Routing of tool calls

`prepare_tool_call` of `crates/mcp-manager/src/lib.rs` over runs of calls.  A route is decided
by the record of the server and by the call: the rule that decides is the most specific one
that applies, and without a confirmation only an `Allow` for a tool that reads a closed world
makes a call ready.

The limit `max_calls_per_minute` of a rule and the scopes of a definition are stored and
checked for their form; no function of the source reads them when a call is routed.  What a
call leaves behind is an audit event, and no later call looks at it.
-/

import PersonalAgent.Mcp.Runs

namespace PersonalAgent.Mcp

open Lib List McpManager

/-! ### The deciding rule -/

/-- How specific a scope is. -/
def PermissionScope.rank : PermissionScope → ℕ
  | global => 0
  | profile _ => 1
  | workspace _ => 2
  | agent _ => 3

/-- The rule is for the tool and for a scope of the call. -/
def InvocationContext.Applies (context : InvocationContext) (tool : String)
    (rule : ToolPermissionRule) : Prop :=
  rule.tool = tool ∧ rule.scope ∈ context.scopes

theorem scopes_pairwise (context : InvocationContext) :
    context.scopes.Pairwise fun a b => b.rank < a.rank := by
  obtain ⟨profile, workspace, agent, confirmed⟩ := context
  cases profile <;> cases workspace <;> cases agent <;>
    simp [InvocationContext.scopes, PermissionScope.rank]

variable {rules permissions : List ToolPermissionRule} {rule : ToolPermissionRule}
  {context : InvocationContext}

/-- The rule that is found belongs to the first scope that has one. -/
theorem findRule_some {tool : String} {scopes : List PermissionScope}
    (hsorted : scopes.Pairwise fun a b => b.rank < a.rank)
    (h : findRule rules tool scopes = some rule) :
    rule ∈ rules ∧ rule.tool = tool ∧ rule.scope ∈ scopes ∧
      ∀ other ∈ rules, other.tool = tool → other.scope ∈ scopes →
        other.scope = rule.scope ∨ other.scope.rank < rule.scope.rank := by
  induction scopes with
  | nil => cases h
  | cons scope scopes ih =>
    obtain ⟨hhead, hsorted⟩ := pairwise_cons.mp hsorted
    rw [findRule] at h
    split at h
    · rename_i found hfound
      cases h
      have hkey := find?_some hfound
      obtain ⟨htool, rfl⟩ := of_decide_eq_true hkey
      refine ⟨mem_of_find?_eq_some hfound, htool, mem_cons_self, ?_⟩
      intro other _ _ hscope
      rcases mem_cons.mp hscope with hsame | hlater
      · exact .inl hsame
      · exact .inr (hhead _ hlater)
    · rename_i hnone
      obtain ⟨hmem, htool, hscope, hbest⟩ := ih hsorted h
      refine ⟨hmem, htool, mem_cons_of_mem _ hscope, fun other hother htool' hscope' => ?_⟩
      rcases mem_cons.mp hscope' with hsame | hlater
      · have hnot := find?_eq_none.mp hnone other hother
        exact absurd (decide_eq_true (p := other.tool = tool ∧ other.scope = scope)
          ⟨htool', hsame⟩) hnot
      · exact hbest other hother htool' hlater

/-- **The deciding rule is the most specific one.**  Any other rule that applies is for the
same scope or for a less specific one. -/
theorem findRule_most_specific {tool : String}
    (h : findRule rules tool context.scopes = some rule) :
    rule ∈ rules ∧ context.Applies tool rule ∧ ∀ other ∈ rules, context.Applies tool other →
      other.scope = rule.scope ∨ other.scope.rank < rule.scope.rank := by
  obtain ⟨hmem, htool, hscope, hbest⟩ := findRule_some (scopes_pairwise context) h
  exact ⟨hmem, ⟨htool, hscope⟩, fun other hother happlies =>
    hbest other hother happlies.1 happlies.2⟩

/-! ### One call -/

/-- **What a route says of the call.** -/
theorem ManagedServer.prepareToolCall_ok {s : ManagedServer} {id : Uuid} {resolvedTool : String}
    {arguments : Value} {route : ToolRoute}
    (h : s.prepareToolCall id resolvedTool arguments context = .ok route) :
    s.state = .connected ∧ s.enabled = true ∧ ∃ tool ∈ s.tools, tool.resolvedName = resolvedTool ∧
      route.request.serverId = id ∧ route.request.toolName = tool.name ∧
      (resolvePermission s.permissions resolvedTool context).decision ≠ .deny ∧
      ∀ request, route = .ready request → context.userConfirmed = false →
        (resolvePermission s.permissions resolvedTool context).decision = .allow ∧
          tool.annotations.readOnly = true ∧ tool.annotations.destructive = false ∧
          tool.annotations.openWorld = false := by
  obtain ⟨hstate, h⟩ := refuse_bind_ok h
  push Not at hstate
  obtain ⟨hconnected, henabled⟩ := hstate
  rw [ne_eq, Bool.not_eq_false] at henabled
  split at h
  · rename_i tool hfound
    obtain ⟨-, h⟩ := unit_bind_ok h
    split at h
    · rename_i protocol hprotocol
      obtain ⟨hdecision, h⟩ := refuse_bind_ok h
      cases h
      have hname := find?_some hfound
      refine ⟨hconnected, henabled, tool, mem_of_find?_eq_some hfound,
        of_decide_eq_true hname, ?_, ?_, hdecision, ?_⟩
      · split_ifs <;> rfl
      · split_ifs <;> rfl
      · intro request hroute hconfirmed
        split_ifs at hroute with happroval
        rw [hconfirmed, Bool.not_false, Bool.and_true, Bool.not_eq_true] at happroval
        simp only [Bool.or_eq_false_iff, decide_eq_false_iff_not, Bool.not_eq_false'] at happroval
        obtain ⟨⟨⟨hask, hread⟩, hdestructive⟩, hopen⟩ := happroval
        refine ⟨?_, hread, hdestructive, hopen⟩
        cases hrule : (resolvePermission s.permissions resolvedTool context).decision with
        | allow => rfl
        | ask => exact absurd hrule hask
        | deny => exact absurd hrule hdecision
    · cases h
  · cases h

theorem McpManager.prepareToolCall_ok {m : McpManager} {id : Uuid} {resolvedTool : String}
    {arguments : Value} {route : ToolRoute}
    (h : m.prepareToolCall id resolvedTool arguments context = .ok route) :
    ∃ s, m.servers[id]? = some s ∧
      s.prepareToolCall id resolvedTool arguments context = .ok route := by
  obtain ⟨s, hs, h⟩ := bind_ok_iff.mp h
  unfold server at hs
  split at hs
  · cases hs
  · rename_i found hfound
    cases hs
    exact ⟨s, hfound, h⟩

/-! ### Runs of calls -/

/-- One call of `prepare_tool_call`, at a time in milliseconds. -/
structure RoutedCall where
  at_ : ℕ
  server : Uuid
  tool : String
  arguments : Value
  context : InvocationContext

/-- What a call adds to the audit trail. -/
structure RouteEvent where
  timestamp : ℕ
  serverId : Uuid
  eventType : String
  outcome : String
  tool : String
  deriving DecidableEq, Repr

/-- The manager with the audit trail of its routing. -/
structure Router where
  manager : McpManager
  audit : List RouteEvent := []

namespace Router

/-- `audit`: at most 500 events are kept. -/
def record (r : Router) (event : RouteEvent) : Router :=
  let events := r.audit ++ [event]
  { r with audit := events.drop (events.length - 500) }

@[simp] theorem record_manager (r : Router) (event : RouteEvent) :
    (r.record event).manager = r.manager := by
  simp only [record]

/-- The event that `prepare_tool_call` records with a route. -/
def event (call : RoutedCall) : Except ManagerError ToolRoute → Option RouteEvent
  | .error (.toolDenied _) =>
    some ⟨call.at_, call.server, "tool.route_denied", "denied", call.tool⟩
  | .error _ => none
  | .ok found =>
    let outcome := if found.request.requiresApproval then "approval_required" else "ready"
    some ⟨call.at_, call.server, "tool.routed_to_gateway", outcome, call.tool⟩

/-- `prepare_tool_call` with what it records. -/
def prepare (r : Router) (call : RoutedCall) : Router × Except ManagerError ToolRoute :=
  let route := r.manager.prepareToolCall call.server call.tool call.arguments call.context
  ((event call route).elim r r.record, route)

def routes (r : Router) : List RoutedCall → List (Except ManagerError ToolRoute)
  | [] => []
  | call :: calls => (r.prepare call).2 :: (r.prepare call).1.routes calls

theorem prepare_manager (r : Router) (call : RoutedCall) :
    (r.prepare call).1.manager = r.manager ∧
      (r.prepare call).2 =
        r.manager.prepareToolCall call.server call.tool call.arguments call.context := by
  have hkept (found : Option RouteEvent) : (found.elim r r.record).manager = r.manager := by
    cases found <;> simp
  exact ⟨hkept _, rfl⟩

/-- A call gets the route it would get without the calls before it. -/
theorem routes_eq (r : Router) (calls : List RoutedCall) :
    r.routes calls = calls.map fun call =>
      r.manager.prepareToolCall call.server call.tool call.arguments call.context := by
  induction calls generalizing r with
  | nil => rfl
  | cons call calls ih =>
    obtain ⟨hmanager, hroute⟩ := r.prepare_manager call
    rw [routes, ih, hmanager, hroute, map_cons]

end Router

/-- The scopes of a definition play no part in a route. -/
theorem prepareToolCall_setScopes (m : McpManager) (target : Uuid)
    (projectScopes agentScopes : Finset String) (id : Uuid) (tool : String) (arguments : Value)
    (context : InvocationContext) :
    (m.setScopes target projectScopes agentScopes).1.prepareToolCall id tool arguments context =
      m.prepareToolCall id tool arguments context := by
  unfold setScopes
  split_ifs with hinvalid
  · rfl
  · unfold onServer
    split
    · rfl
    · rename_i s hs
      simp only [prepareToolCall, server, getElem?_insert_eq]
      split_ifs with hid
      · rw [hid, hs]
        rfl
      · rfl

/-! ### One rule for a tool in a scope -/

/-- What a rule is found by. -/
def ToolPermissionRule.key (rule : ToolPermissionRule) : String × PermissionScope :=
  (rule.tool, rule.scope)

/-- No two rules are for one tool in one scope, and no two tools have one resolved name. -/
structure ManagedServer.UniqueRules (s : ManagedServer) : Prop where
  rules : (s.permissions.map (·.key)).Nodup
  names : (s.tools.map (·.resolvedName)).Nodup

theorem nodup_seed {tools : List ToolDescriptor} (hrules : (permissions.map (·.key)).Nodup)
    (hnames : (tools.map (·.resolvedName)).Nodup) :
    ((seedConservativePermissions permissions tools).map (·.key)).Nodup := by
  rw [seedConservativePermissions, map_append, map_map, nodup_append']
  refine ⟨hrules, ?_, ?_⟩
  · have hsub := List.Nodup.sublist (List.Sublist.map (·.resolvedName) (filter_sublist
      (l := tools) (p := fun tool => !permissions.any fun rule =>
        rule.tool = tool.resolvedName ∧ rule.scope = .global))) hnames
    have hmap := hsub.map (f := fun name => (name, PermissionScope.global))
      fun a b h => congrArg Prod.fst h
    rw [map_map] at hmap
    exact hmap
  · intro key hkey hseed
    obtain ⟨rule, hrule, rfl⟩ := mem_map.mp hkey
    obtain ⟨tool, htool, heq⟩ := mem_map.mp hseed
    have hnot := (mem_filter.mp htool).2
    rw [Bool.not_eq_true', any_eq_false] at hnot
    refine hnot rule hrule (decide_eq_true ?_)
    have hkeys : (tool.resolvedName, PermissionScope.global) = (rule.tool, rule.scope) := heq
    exact ⟨(congrArg Prod.fst hkeys).symm, (congrArg Prod.snd hkeys).symm⟩

theorem nodup_replace (rule : ToolPermissionRule) (hrules : (permissions.map (·.key)).Nodup) :
    (((permissions.filter fun existing =>
      !(existing.tool = rule.tool ∧ existing.scope = rule.scope)) ++ [rule]).map
        (·.key)).Nodup := by
  rw [map_append, nodup_append']
  refine ⟨List.Nodup.sublist (filter_sublist.map _) hrules, nodup_singleton _, ?_⟩
  intro key hkey hnew
  obtain ⟨existing, hexisting, rfl⟩ := mem_map.mp hkey
  have hnot := (mem_filter.mp hexisting).2
  rw [Bool.not_eq_true', decide_eq_false_iff_not] at hnot
  have hkeys : (existing.tool, existing.scope) = (rule.tool, rule.scope) :=
    mem_singleton.mp hnew
  exact hnot ⟨congrArg Prod.fst hkeys, congrArg Prod.snd hkeys⟩

theorem ServerChange.uniqueRules [CharCase] [ConsentDigest] {occupied : List String}
    {s s' : ManagedServer} {op : ServerOperation} (h : ServerChange occupied s op s')
    (hs : s.UniqueRules) : s'.UniqueRules := by
  rcases h.catalog with ⟨htools, hpermissions⟩ | ⟨_, tools, -, hnormal, htools, hpermissions⟩ |
    ⟨-, htools, hpermissions⟩ | ⟨rule, -, -, htools, hpermissions⟩
  · exact ⟨hpermissions ▸ hs.rules, htools ▸ hs.names⟩
  · have hnames := (normalizeTools_spec hnormal).2.1
    exact ⟨hpermissions ▸ nodup_seed hs.rules hnames, htools ▸ hnames⟩
  · exact ⟨hpermissions ▸ nodup_nil, htools ▸ nodup_nil⟩
  · exact ⟨hpermissions ▸ nodup_replace rule hs.rules, htools ▸ hs.names⟩

section

variable [UrlLibrary] [CharCase] [ConsentDigest]

theorem run_uniqueRules (ops : List ManagerOperation) (id : Uuid) (s : ManagedServer)
    (hs : (run apply {} ops).servers[id]? = some s) : s.UniqueRules := by
  refine run_invariant (fun m : McpManager => ∀ (id : Uuid) (s : ManagedServer),
    m.servers[id]? = some s → s.UniqueRules) (fun m op hm => ?_) ops
    (fun id s hs => (empty_servers hs).elim) id s hs
  refine apply_forall (P := fun _ s => s.UniqueRules)
    (fun _ _ _ => ⟨nodup_nil, nodup_nil⟩) (fun _ s _ hs => ?_)
    (fun id operation s _ _ hs => (effect_change _ s operation).uniqueRules hs) hm
  obtain ⟨-, htools, hpermissions, -⟩ := s.recover_spec
  exact ⟨hpermissions ▸ hs.rules, htools ▸ hs.names⟩

/-- **A route is decided by the call and the record of the server.**  For a manager that any
operations have produced and every run of calls: no call changes what a later one gets, nor
do the scopes of a definition; and a call is ready without a confirmation only if one rule
for the tool is for a more specific scope of the call than every other that applies, it
allows the call, and the tool reads a closed world and destroys nothing. -/
theorem routing_per_call (ops : List ManagerOperation) (audit : List RouteEvent)
    (calls : List RoutedCall) :
    let m := run apply {} ops
    (Router.routes ⟨m, audit⟩ calls = calls.map fun call =>
      m.prepareToolCall call.server call.tool call.arguments call.context) ∧
    (∀ target projectScopes agentScopes, Router.routes
      ⟨(m.setScopes target projectScopes agentScopes).1, audit⟩ calls =
        Router.routes ⟨m, audit⟩ calls) ∧
    ∀ (i : ℕ) (call : RoutedCall) (request : GatewayToolRequest), calls[i]? = some call →
      (Router.routes ⟨m, audit⟩ calls)[i]? = some (.ok (.ready request)) →
      call.context.userConfirmed = false →
      ∃ s tool rule, m.servers[call.server]? = some s ∧ tool ∈ s.tools ∧
        tool.resolvedName = call.tool ∧ rule ∈ s.permissions ∧
        call.context.Applies call.tool rule ∧
        (∀ other ∈ s.permissions, call.context.Applies call.tool other →
          other = rule ∨ other.scope.rank < rule.scope.rank) ∧
        rule.decision = .allow ∧ tool.annotations.readOnly = true ∧
        tool.annotations.destructive = false ∧ tool.annotations.openWorld = false := by
  intro m
  refine ⟨Router.routes_eq _ _, fun target projectScopes agentScopes => ?_, ?_⟩
  · rw [Router.routes_eq, Router.routes_eq]
    exact map_congr_left fun call _ => prepareToolCall_setScopes ..
  · intro i call request hcall hroute hconfirmed
    rw [Router.routes_eq, getElem?_map, hcall, Option.map_some, Option.some_inj] at hroute
    obtain ⟨s, hs, hroute⟩ := prepareToolCall_ok hroute
    obtain ⟨-, -, tool, htool, hname, -, -, -, hready⟩ := ManagedServer.prepareToolCall_ok hroute
    obtain ⟨hallow, hread, hdestructive, hopen⟩ := hready request rfl hconfirmed
    -- The rule for a tool without one asks, so the rule that allows is in the list.
    unfold resolvePermission at hallow
    cases hrule : findRule s.permissions call.tool call.context.scopes with
    | none =>
      rw [hrule] at hallow
      cases hallow
    | some rule =>
      rw [hrule] at hallow
      obtain ⟨hmem, happlies, hbest⟩ := findRule_most_specific hrule
      refine ⟨s, tool, rule, hs, htool, hname, hmem, happlies, fun other hother hother' => ?_,
        hallow, hread, hdestructive, hopen⟩
      rcases hbest other hother hother' with hscope | hless
      · left
        have hkey : other.key = rule.key := Prod.ext (hother'.1.trans happlies.1.symm) hscope
        exact inj_on_of_nodup_map (run_uniqueRules ops _ s hs).rules hother hmem hkey
      · exact .inr hless

end

section Examples

attribute [local instance] Sample.asciiCase Sample.remoteUrl Sample.plainDigest

/-- A server for one project, with a rule that allows one call a minute. -/
def limitedRun : List ManagerOperation :=
  [.addServer (Sample.server 1 "files" none),
    .on 1 (.connect (.ok (Sample.handshake ["read"]))),
    .on 1 (.setScopes {"house"} ∅),
    .on 1 (.setPermission ⟨"files.read", .global, .allow, "local", 1, 1000, 1000⟩)]

/-- A call from another project, at one instant. -/
def strayCall : RoutedCall :=
  ⟨0, 1, "files.read", .object [], { workspaceId := some "garden" }⟩

/-- The request of a call that is ready. -/
def readyRequest : Except ManagerError ToolRoute → Option GatewayToolRequest
  | .ok (.ready request) => some request
  | _ => none

theorem readyRequest_some {route : Except ManagerError ToolRoute} {request : GatewayToolRequest}
    (h : readyRequest route = some request) : route = .ok (.ready request) := by
  unfold readyRequest at h
  split at h
  · cases h
    rfl
  · cases h

/-- The call from another project is ready, by the rule that allows it. -/
theorem limitedRun_allows :
    ∃ s rule, (run apply {} limitedRun).servers[strayCall.server]? = some s ∧
      rule ∈ s.permissions ∧ strayCall.context.Applies strayCall.tool rule ∧
      rule.decision = .allow := by
  have hready : ((Router.routes ⟨run apply {} limitedRun, []⟩ [strayCall])[0]?.bind
      readyRequest).isSome = true := by
    decide +kernel
  obtain ⟨request, hrequest⟩ := Option.isSome_iff_exists.mp hready
  obtain ⟨route, hroute, hrequest⟩ := Option.bind_eq_some_iff.mp hrequest
  rw [readyRequest_some hrequest] at hroute
  obtain ⟨s, tool, rule, hs, -, -, hrule, happlies, -, hallow, -⟩ :=
    (routing_per_call limitedRun [] [strayCall]).2.2 0 strayCall request rfl hroute rfl
  exact ⟨s, rule, hs, hrule, happlies, hallow⟩

/-- **Neither limit binds.**  Two calls at one instant, from a project outside of the scopes of
the server, are ready under a rule that allows one a minute. -/
theorem limits_not_read :
    ((Router.routes ⟨run apply {} limitedRun, []⟩
        [strayCall, strayCall]).filterMap readyRequest).length = 2 ∧
      ((run apply {} limitedRun).servers[1]?.map fun s =>
        (decide ("garden" ∈ s.definition.projectScopes), s.definition.projectScopes.card,
          s.permissions.map (·.maxCallsPerMinute))) = some (false, 1, [1]) := by
  decide +kernel

end Examples

end PersonalAgent.Mcp
