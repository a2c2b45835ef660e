/-
# Runs of the MCP manager

The public operations of `McpManager` as one step function, with whatever the native
adapters return in each step, and what a step does to the record of a server:
`ServerOperation.effect` is the change of one record, `apply_forall` lifts a fact about
single records to the registry, and `effect_change` says once which operations touch a
definition, a catalog and the rules.
-/

import PersonalAgent.Lib.Run
import PersonalAgent.Mcp.Manager

namespace PersonalAgent.Mcp

open Lib Std.ExtTreeMap McpManager

/-- An operation on one server, with the outcome of its native part. -/
inductive ServerOperation where
  | install (consent : OperationConsent) (adapter : PackageAdapter)
  | connect (outcome : Except AdapterError RuntimeHandshake)
  | disable (outcome : Except AdapterError Unit)
  | restart (outcome : Except AdapterError RuntimeHandshake)
  | checkHealth (outcome : Except AdapterError ℕ)
  | offerUpdate (plan : UpdatePlan)
  | applyUpdate (consent : OperationConsent) (adapter : PackageAdapter)
  | rollback (consent : OperationConsent) (adapter : PackageAdapter)
  | uninstall (consent : OperationConsent) (outcome : Except AdapterError Unit)
  | setPermission (rule : ToolPermissionRule)
  | setScopes (projectScopes agentScopes : Finset String)
  | recordRestoreFailure

inductive ManagerOperation where
  | addServer (definition : ServerDefinition)
  | purgeTombstone (id : Uuid)
  | recoverAfterRestart
  | on (id : Uuid) (operation : ServerOperation)

section

variable [UrlLibrary] [CharCase] [ConsentDigest]

namespace McpManager

def applyOn (m : McpManager) (id : Uuid) : ServerOperation → McpManager
  | .install consent adapter => (m.install id consent adapter).1
  | .connect outcome => (m.connect id outcome).1
  | .disable outcome => (m.disable id outcome).1
  | .restart outcome => (m.restart id outcome).1
  | .checkHealth outcome => (m.checkHealth id outcome).1
  | .offerUpdate plan => (m.offerUpdate id plan).1
  | .applyUpdate consent adapter => (m.applyUpdate id consent adapter).1
  | .rollback consent adapter => (m.rollback id consent adapter).1
  | .uninstall consent outcome => (m.uninstall id consent outcome).1
  | .setPermission rule => (m.setPermission id rule).1
  | .setScopes projectScopes agentScopes => (m.setScopes id projectScopes agentScopes).1
  | .recordRestoreFailure => (m.recordRestoreFailure id).1

def apply (m : McpManager) : ManagerOperation → McpManager
  | .addServer definition => (m.addServer definition).1
  | .purgeTombstone id => (m.purgeTombstone id).1
  | .recoverAfterRestart => m.recoverAfterRestart
  | .on id operation => m.applyOn id operation

omit [UrlLibrary] [CharCase] [ConsentDigest] in
theorem empty_servers {id : Uuid} {s : ManagedServer}
    (h : ({} : McpManager).servers[id]? = some s) : False := by
  rw [getElem?_empty] at h
  cases h

end McpManager

omit [UrlLibrary] in
/-- What an operation makes of the record of its server. -/
def ServerOperation.effect (occupied : List String) (s : ManagedServer) :
    ServerOperation → ManagedServer
  | .install consent adapter => (s.install consent adapter).1
  | .connect outcome => (s.connect occupied outcome).1
  | .disable outcome => (s.disable outcome).1
  | .restart outcome => (s.restart occupied outcome).1
  | .checkHealth outcome => (s.checkHealth outcome).1
  | .offerUpdate plan => { s with pendingUpdate := some plan, state := .updateAvailable }
  | .applyUpdate consent adapter => (s.applyUpdate consent adapter).1
  | .rollback consent adapter => (s.rollback consent adapter).1
  | .uninstall consent outcome => (s.uninstall consent outcome).1
  | .setPermission rule => (s.setPermission rule).1
  | .setScopes projectScopes agentScopes =>
    { s with definition := { s.definition with projectScopes, agentScopes } }
  | .recordRestoreFailure => s.recordRestoreFailure

omit [UrlLibrary] [CharCase] [ConsentDigest] in
theorem onServer_fst {α : Type} (m : McpManager) (id : Uuid)
    (operation : ManagedServer → ManagedServer × Except ManagerError α) :
    (m.onServer id operation).1 = m ∨ ∃ s, m.servers[id]? = some s ∧
      (m.onServer id operation).1 = ⟨m.servers.insert id (operation s).1⟩ := by
  rw [onServer]
  cases hs : m.servers[id]? with
  | none => exact .inl rfl
  | some s => exact .inr ⟨s, rfl, rfl⟩

/-- An operation on a server changes its record, as `effect` says, or nothing. -/
theorem applyOn_cases (m : McpManager) (id : Uuid) (operation : ServerOperation) :
    m.applyOn id operation = m ∨ ∃ s, m.servers[id]? = some s ∧
      m.applyOn id operation =
        ⟨m.servers.insert id (operation.effect (m.catalogNamesExcluding id) s)⟩ := by
  cases operation with
  | offerUpdate plan =>
    simp only [applyOn, offerUpdate]
    split
    · exact .inl rfl
    · split_ifs
      · exact .inl rfl
      · exact onServer_fst ..
  | setPermission rule =>
    simp only [applyOn, setPermission]
    split
    · exact .inl rfl
    · exact onServer_fst ..
  | setScopes projectScopes agentScopes =>
    simp only [applyOn, setScopes]
    split_ifs
    · exact .inl rfl
    · exact onServer_fst ..
  | _ => exact onServer_fst ..

variable {m : McpManager} {op : ManagerOperation}

omit [UrlLibrary] [CharCase] [ConsentDigest] in
theorem insert_self {id : Uuid} {s : ManagedServer} (h : m.servers[id]? = some s) :
    (⟨m.servers.insert id s⟩ : McpManager) = m := by
  refine congrArg McpManager.mk (ext_getElem? fun a => ?_)
  rw [getElem?_insert_eq]
  split_ifs with ha
  · rw [ha, h]
  · rfl

omit [ConsentDigest] in
theorem addServer_outcome (m : McpManager) (definition : ServerDefinition) :
    (∃ e, m.addServer definition = (m, .error e)) ∨
      (validateDefinition definition = .ok () ∧
        (∀ (id : Uuid) (s : ManagedServer), m.servers[id]? = some s →
          s.definition.namespace_ ≠ definition.namespace_) ∧
        m.addServer definition = (⟨m.servers.insert definition.id (.ofDefinition definition)⟩,
          .ok definition.id)) := by
  unfold addServer
  split
  · exact .inl ⟨_, rfl⟩
  · rename_i hvalid
    split_ifs with hcollides
    · exact .inl ⟨_, rfl⟩
    · refine .inr ⟨hvalid, fun id s hs hname => hcollides ?_, rfl⟩
      exact List.any_eq_true.mpr ⟨(id, s),
        mem_toList_iff_getElem?_eq_some.mpr hs, decide_eq_true hname⟩

omit [UrlLibrary] [CharCase] [ConsentDigest] in
theorem purgeTombstone_outcome (m : McpManager) (id : Uuid) :
    ((m.purgeTombstone id).2.isOk = false ∧ (m.purgeTombstone id).1 = m) ∨
      ((m.purgeTombstone id).2.isOk = true ∧
        (m.purgeTombstone id).1 = ⟨m.servers.erase id⟩) := by
  unfold purgeTombstone
  split
  · exact .inl ⟨rfl, rfl⟩
  · split_ifs
    · exact .inr ⟨rfl, rfl⟩
    · exact .inl ⟨rfl, rfl⟩

/-- **Where a record comes from.**  After an operation a record is a draft whose namespace no
record had, or it is the record of the same server before, changed or not. -/
theorem apply_origin {id : Uuid} {s : ManagedServer} (hs : (m.apply op).servers[id]? = some s) :
    (∃ definition, op = .addServer definition ∧ validateDefinition definition = .ok () ∧
      (∀ (id' : Uuid) (s' : ManagedServer), m.servers[id']? = some s' →
        s'.definition.namespace_ ≠ definition.namespace_) ∧
      id = definition.id ∧ s = .ofDefinition definition) ∨
    ∃ before, m.servers[id]? = some before ∧
      (s = before ∨ (op = .recoverAfterRestart ∧ s = before.recover) ∨
        ∃ operation, op = .on id operation ∧
          s = operation.effect (m.catalogNamesExcluding id) before) := by
  cases op with
  | addServer definition =>
    rcases addServer_outcome m definition with ⟨e, hsame⟩ | ⟨hvalid, hfresh, heq⟩
    · rw [apply, hsame] at hs
      exact .inr ⟨s, hs, .inl rfl⟩
    · rw [apply, heq, getElem?_insert_eq] at hs
      split_ifs at hs with hid
      · cases hs
        exact .inl ⟨definition, rfl, hvalid, hfresh, hid, rfl⟩
      · exact .inr ⟨s, hs, .inl rfl⟩
  | purgeTombstone gone =>
    rcases purgeTombstone_outcome m gone with ⟨-, hsame⟩ | ⟨-, heq⟩
    · rw [apply, hsame] at hs
      exact .inr ⟨s, hs, .inl rfl⟩
    · rw [apply, heq, getElem?_erase_eq] at hs
      split_ifs at hs
      exact .inr ⟨s, hs, .inl rfl⟩
  | recoverAfterRestart =>
    simp only [apply, recoverAfterRestart,
      getElem?_map] at hs
    obtain ⟨before, hbefore, rfl⟩ := Option.map_eq_some_iff.mp hs
    exact .inr ⟨before, hbefore, .inr (.inl ⟨rfl, rfl⟩)⟩
  | on target operation =>
    rcases applyOn_cases m target operation with hsame | ⟨before, hbefore, hset⟩
    · rw [apply, hsame] at hs
      exact .inr ⟨s, hs, .inl rfl⟩
    · rw [apply, hset, getElem?_insert_eq] at hs
      split_ifs at hs with hid
      · cases hs
        subst hid
        exact .inr ⟨before, hbefore, .inr (.inr ⟨operation, rfl, rfl⟩)⟩
      · exact .inr ⟨s, hs, .inl rfl⟩

/-- **Facts about single records.**  What holds of every record holds of every record after
an operation, if it holds of drafts, after a recovery and after a change of one record. -/
theorem apply_forall {P : Uuid → ManagedServer → Prop}
    (hadd : ∀ definition, op = .addServer definition → validateDefinition definition = .ok () →
      P definition.id (.ofDefinition definition))
    (hrecover : ∀ id s, m.servers[id]? = some s → P id s → P id s.recover)
    (hon : ∀ id operation s, op = .on id operation → m.servers[id]? = some s → P id s →
      P id (operation.effect (m.catalogNamesExcluding id) s))
    (h : ∀ id s, m.servers[id]? = some s → P id s) (id : Uuid) (s : ManagedServer)
    (hs : (m.apply op).servers[id]? = some s) : P id s := by
  rcases apply_origin hs with ⟨definition, hop, hvalid, -, rfl, rfl⟩ | ⟨before, hbefore, hcase⟩
  · exact hadd definition hop hvalid
  · have hp := h id before hbefore
    rcases hcase with rfl | ⟨-, rfl⟩ | ⟨operation, hop, rfl⟩
    · exact hp
    · exact hrecover id before hbefore hp
    · exact hon id operation before hop hbefore hp

end

/-! ### What an operation does to a record -/

section

variable [CharCase]

namespace ManagedServer

variable (s : ManagedServer)

omit [CharCase] in
/-- A server with a session. -/
def connectedWith (handshake : RuntimeHandshake)
    (negotiated : ProtocolVersion) (tools : List ToolDescriptor) : ManagedServer :=
  { s with
    enabled := true
    state := .connected
    negotiatedProtocol := some negotiated
    tools := tools
    health := some ⟨true, some handshake.latencyMs, 0⟩
    permissions := seedConservativePermissions s.permissions tools }

omit [CharCase] in
/-- A server whose connection failed. -/
def failedIn (state : LifecycleState) : ManagedServer :=
  { s with state := state, enabled := true }

/-- What a connection comes to: nothing, a failure that is recorded, or a catalog. -/
theorem connect_cases (occupied : List String)
    (outcome : Except AdapterError RuntimeHandshake) :
    (s.state.refusesConnect = true ∧
        s.connect occupied outcome = (s, .error (.invalidState s.state))) ∨
      (s.state.refusesConnect = false ∧ ∃ state e,
        (state = .crashed ∨ state = .authenticationRequired) ∧
        s.connect occupied outcome = (s.failedIn state, .error e)) ∨
      (s.state.refusesConnect = false ∧ ∃ handshake negotiated tools,
        outcome = .ok handshake ∧
        negotiateProtocol s.definition.supportedProtocols handshake.serverProtocols =
          some negotiated ∧
        normalizeTools s.definition.namespace_ handshake.tools occupied = .ok tools ∧
        s.connect occupied outcome = (s.connectedWith handshake negotiated tools, .ok ())) := by
  unfold connect
  split_ifs with hrefuses
  · exact .inl ⟨hrefuses, rfl⟩
  · rw [Bool.not_eq_true] at hrefuses
    right
    cases outcome with
    | error e =>
      refine .inl ⟨hrefuses, _, _, ?_, rfl⟩
      cases e.authenticationRequired
      · exact .inl rfl
      · exact .inr rfl
    | ok handshake =>
      cases hnegotiated : negotiateProtocol s.definition.supportedProtocols
          handshake.serverProtocols with
      | none => exact .inl ⟨hrefuses, .crashed, _, .inl rfl, by simp only [hnegotiated]; rfl⟩
      | some negotiated =>
        cases htools : normalizeTools s.definition.namespace_ handshake.tools occupied with
        | error e =>
          exact .inl ⟨hrefuses, .crashed, _, .inl rfl, by simp only [hnegotiated, htools]; rfl⟩
        | ok tools =>
          exact .inr ⟨hrefuses, handshake, negotiated, tools, rfl, hnegotiated, htools,
            by simp only [hnegotiated, htools]; rfl⟩

/-- A server as `restart` leaves it before it connects. -/
def stopped : ManagedServer :=
  { s with state := .disabled, enabled := false, negotiatedProtocol := none }

theorem restart_eq (occupied : List String)
    (outcome : Except AdapterError RuntimeHandshake) :
    s.restart occupied outcome = s.stopped.connect occupied outcome := rfl

end ManagedServer
end

namespace ManagedServer

variable (s : ManagedServer)

section

variable [ConsentDigest] {consent : OperationConsent}

theorem installRecipe_ok {recipe : InstallRecipe} (h : s.installRecipe consent = .ok recipe) :
    s.definition.install = some recipe ∧
      verifyConsent consent recipe.digest recipe.displayCommand = .ok () := by
  unfold installRecipe at h
  split at h
  · cases h
  · rename_i found hfound
    obtain ⟨hconsent, h⟩ := unit_bind_ok h
    cases h
    exact ⟨hfound, hconsent⟩

theorem updateRecipe_ok {plan : UpdatePlan} (h : s.updateRecipe consent = .ok plan) :
    s.pendingUpdate = some plan ∧
      verifyConsent consent plan.recipe.digest plan.recipe.displayCommand = .ok () := by
  unfold updateRecipe at h
  split at h
  · cases h
  · rename_i found hfound
    obtain ⟨hconsent, h⟩ := unit_bind_ok h
    cases h
    exact ⟨hfound, hconsent⟩

theorem rollbackRecipe_ok {release : InstalledRelease} {recipe : InstallRecipe}
    (h : s.rollbackRecipe consent = .ok (release, recipe)) :
    s.releaseHistory.getLast? = some release ∧ release.recipe = some recipe ∧
      verifyConsent consent
        (ConsentDigest.sha256 (rollbackText s.definition.name release.version))
        (rollbackText s.definition.name release.version) = .ok () := by
  unfold rollbackRecipe rollbackConsentPreview at h
  cases hlast : s.releaseHistory.getLast? with
  | none =>
    rw [hlast] at h
    cases h
  | some last =>
    rw [hlast] at h
    obtain ⟨hconsent, h⟩ := unit_bind_ok h
    cases hrecipe : last.recipe with
    | none =>
      simp only [hrecipe] at h
      cases h
    | some found =>
      simp only [hrecipe] at h
      cases h
      exact ⟨rfl, hrecipe, hconsent⟩

theorem install_cases (consent : OperationConsent) (adapter : PackageAdapter) :
    (∃ e, s.install consent adapter = (s, .error e)) ∨
      (∃ recipe release, s.installRecipe consent = .ok recipe ∧ s.install consent adapter =
        ({ s with currentRelease := some release, state := .disabled, enabled := false },
          .ok ())) ∨
      ∃ e, s.install consent adapter = (s.adapterFailure .crashed, .error e) := by
  unfold install
  cases hrecipe : s.installRecipe consent with
  | error e => exact .inl ⟨e, rfl⟩
  | ok recipe =>
    cases hadapter : adapter recipe with
    | ok release => exact .inr (.inl ⟨recipe, release, rfl, by simp only [hadapter]⟩)
    | error e => exact .inr (.inr ⟨.adapter e.code, by simp only [hadapter]⟩)

def tombstone : ManagedServer :=
  { s with
    state := .uninstalled
    enabled := false
    negotiatedProtocol := none
    tools := []
    permissions := []
    currentRelease := none
    releaseHistory := []
    pendingUpdate := none }

theorem uninstall_cases (consent : OperationConsent) (outcome : Except AdapterError Unit) :
    (∃ e, s.uninstall consent outcome = (s, .error e)) ∨
      s.uninstall consent outcome = (s.tombstone, .ok ()) := by
  unfold uninstall
  split
  · exact .inl ⟨_, rfl⟩
  · cases outcome with
    | error e => exact .inl ⟨_, rfl⟩
    | ok => exact .inr rfl

end

theorem setPermission_cases (rule : ToolPermissionRule) :
    (∃ e, s.setPermission rule = (s, .error e)) ∨
      ((∃ tool ∈ s.tools, tool.resolvedName = rule.tool) ∧ s.setPermission rule =
        ({ s with permissions := (s.permissions.filter fun existing =>
            !(existing.tool = rule.tool ∧ existing.scope = rule.scope)) ++ [rule] }, .ok ())) := by
  unfold setPermission
  split_ifs with hany
  · obtain ⟨tool, hmem, hname⟩ := List.any_eq_true.mp hany
    exact .inr ⟨⟨tool, hmem, of_decide_eq_true hname⟩, rfl⟩
  · exact .inl ⟨_, rfl⟩

/-- A recovery touches what was bound to the process. -/
theorem recover_spec :
    s.recover.definition = s.definition ∧ s.recover.tools = s.tools ∧
      s.recover.permissions = s.permissions ∧
      (s.recover.negotiatedProtocol = s.negotiatedProtocol ∨ s.recover.negotiatedProtocol = none) ∧
      (s.recover.enabled = true → s.enabled = true ∧ s.recover.state = .connecting) ∧
      (s.recover.state = .connected ∨ s.recover.state = .degraded → s.recover = s ∧
        s.enabled = false) := by
  unfold recover
  split <;> (try split_ifs) <;> simp_all

end ManagedServer

/-! ### Outcomes -/

section

theorem uninstall_outcome [ConsentDigest] (m : McpManager) (id : Uuid) (consent : OperationConsent)
    (outcome : Except AdapterError Unit) :
    ((m.uninstall id consent outcome).2.isOk = false ∧ (m.uninstall id consent outcome).1 = m) ∨
      ((m.uninstall id consent outcome).2.isOk = true ∧ ∃ s, m.servers[id]? = some s ∧
        (m.uninstall id consent outcome).1 = ⟨m.servers.insert id s.tombstone⟩) := by
  unfold uninstall onServer
  cases hs : m.servers[id]? with
  | none => exact .inl ⟨rfl, rfl⟩
  | some s =>
    rcases s.uninstall_cases consent outcome with ⟨e, h⟩ | h
    · exact .inl ⟨by simp only [h]; rfl, by simp only [h]; exact insert_self hs⟩
    · exact .inr ⟨by simp only [h]; rfl, s, rfl, by simp only [h]⟩

theorem setPermission_outcome (m : McpManager) (id : Uuid) (rule : ToolPermissionRule) :
    ((m.setPermission id rule).2.isOk = false ∧ (m.setPermission id rule).1 = m) ∨
      ((m.setPermission id rule).2.isOk = true ∧ ∃ s tool, m.servers[id]? = some s ∧
        s.tools.find? (·.resolvedName = rule.tool) = some tool ∧
        (m.setPermission id rule).1 = ⟨m.servers.insert id { s with
          permissions := (s.permissions.filter fun existing =>
            !(existing.tool = rule.tool ∧ existing.scope = rule.scope)) ++ [rule] }⟩) := by
  unfold setPermission
  split
  · exact .inl ⟨rfl, rfl⟩
  · unfold onServer
    cases hs : m.servers[id]? with
    | none => exact .inl ⟨rfl, rfl⟩
    | some s =>
      rcases s.setPermission_cases rule with ⟨e, h⟩ | ⟨⟨tool, htool, hname⟩, h⟩
      · exact .inl ⟨by simp only [h]; rfl, by simp only [h]; exact insert_self hs⟩
      · have hfound : (s.tools.find? (·.resolvedName = rule.tool)).isSome = true :=
          List.find?_isSome.mpr ⟨tool, htool, decide_eq_true hname⟩
        obtain ⟨found, hfound⟩ := Option.isSome_iff_exists.mp hfound
        exact .inr ⟨by simp only [h]; rfl, s, found, rfl, hfound, by simp only [h]⟩

end

/-! ### One step, once and for all -/

section

variable [CharCase] [ConsentDigest]

/-- What an operation can make of a record. -/
inductive ServerChange (occupied : List String) (s : ManagedServer) :
    ServerOperation → ManagedServer → Prop where
  | refused (op : ServerOperation) : ServerChange occupied s op s
  | installed {consent : OperationConsent} {adapter : PackageAdapter} {recipe : InstallRecipe}
      {release : InstalledRelease} (hrecipe : s.installRecipe consent = .ok recipe) :
      ServerChange occupied s (.install consent adapter)
        { s with currentRelease := some release, state := .disabled, enabled := false }
  | installFailed {consent : OperationConsent} {adapter : PackageAdapter} :
      ServerChange occupied s (.install consent adapter) (s.adapterFailure .crashed)
  | connectFailed {outcome : Except AdapterError RuntimeHandshake} {state : LifecycleState}
      (hallowed : s.state.refusesConnect = false)
      (hstate : state = .crashed ∨ state = .authenticationRequired) :
      ServerChange occupied s (.connect outcome) (s.failedIn state)
  | connected {handshake : RuntimeHandshake} {negotiated : ProtocolVersion}
      {tools : List ToolDescriptor} (hallowed : s.state.refusesConnect = false)
      (hprotocol : negotiateProtocol s.definition.supportedProtocols handshake.serverProtocols =
        some negotiated)
      (htools : normalizeTools s.definition.namespace_ handshake.tools occupied = .ok tools) :
      ServerChange occupied s (.connect (.ok handshake))
        (s.connectedWith handshake negotiated tools)
  | restartFailed {outcome : Except AdapterError RuntimeHandshake} {state : LifecycleState}
      (hstate : state = .crashed ∨ state = .authenticationRequired) :
      ServerChange occupied s (.restart outcome) (s.stopped.failedIn state)
  | restarted {handshake : RuntimeHandshake} {negotiated : ProtocolVersion}
      {tools : List ToolDescriptor}
      (hprotocol : negotiateProtocol s.definition.supportedProtocols handshake.serverProtocols =
        some negotiated)
      (htools : normalizeTools s.definition.namespace_ handshake.tools occupied = .ok tools) :
      ServerChange occupied s (.restart (.ok handshake))
        (s.stopped.connectedWith handshake negotiated tools)
  | disableFailed {outcome : Except AdapterError Unit}
      (hallowed : s.state.allowsDisable = true) :
      ServerChange occupied s (.disable outcome) (s.adapterFailure .crashed)
  | disabled {outcome : Except AdapterError Unit} (hallowed : s.state.allowsDisable = true) :
      ServerChange occupied s (.disable outcome)
        { s with enabled := false, state := .disabled, health := none, negotiatedProtocol := none }
  | healthy {latencyMs : ℕ} {sample : HealthStatus}
      (hstate : s.state = .connected ∨ s.state = .degraded) (hsample : sample.healthy = true) :
      ServerChange occupied s (.checkHealth (.ok latencyMs))
        { s with state := .connected, health := some sample }
  | unhealthy {outcome : Except AdapterError ℕ} {sample : HealthStatus}
      (hstate : s.state = .connected ∨ s.state = .degraded) :
      ServerChange occupied s (.checkHealth outcome)
        { s with state := .degraded, health := some sample }
  | updateOffered {plan : UpdatePlan} :
      ServerChange occupied s (.offerUpdate plan)
        { s with pendingUpdate := some plan, state := .updateAvailable }
  | updated {consent : OperationConsent} {adapter : PackageAdapter} {plan : UpdatePlan}
      {release : InstalledRelease} (hplan : s.updateRecipe consent = .ok plan) :
      ServerChange occupied s (.applyUpdate consent adapter)
        { s with
          releaseHistory := s.retainRelease
          currentRelease := some { release with version := plan.targetVersion }
          pendingUpdate := none
          state := .rollbackAvailable }
  | updateFailed {consent : OperationConsent} {adapter : PackageAdapter} :
      ServerChange occupied s (.applyUpdate consent adapter) (s.adapterFailure .updateAvailable)
  | rolledBack {consent : OperationConsent} {adapter : PackageAdapter}
      {release installed : InstalledRelease} {recipe : InstallRecipe}
      (hrecipe : s.rollbackRecipe consent = .ok (release, recipe)) :
      ServerChange occupied s (.rollback consent adapter)
        { s with
          releaseHistory := s.releaseHistory.dropLast ++ s.currentRelease.toList
          currentRelease := some { installed with version := release.version }
          state := .disabled }
  | uninstalled {consent : OperationConsent} {outcome : Except AdapterError Unit} :
      ServerChange occupied s (.uninstall consent outcome) s.tombstone
  | permissionSet {rule : ToolPermissionRule}
      (htool : ∃ tool ∈ s.tools, tool.resolvedName = rule.tool) :
      ServerChange occupied s (.setPermission rule)
        { s with permissions := (s.permissions.filter fun existing =>
          !(existing.tool = rule.tool ∧ existing.scope = rule.scope)) ++ [rule] }
  | scopesSet {projectScopes agentScopes : Finset String} :
      ServerChange occupied s (.setScopes projectScopes agentScopes)
        { s with definition := { s.definition with projectScopes, agentScopes } }
  | restoreFailed : ServerChange occupied s .recordRestoreFailure s.recordRestoreFailure

theorem effect_change (occupied : List String) (s : ManagedServer) (op : ServerOperation) :
    ServerChange occupied s op (op.effect occupied s) := by
  cases op with
  | install consent adapter =>
    rw [ServerOperation.effect]
    obtain ⟨e, h⟩ | ⟨recipe, release, hrecipe, h⟩ | ⟨e, h⟩ := s.install_cases consent adapter
    · rw [h]; exact .refused _
    · rw [h]; exact .installed hrecipe
    · rw [h]; exact .installFailed
  | connect outcome =>
    rw [ServerOperation.effect]
    obtain ⟨-, h⟩ | ⟨hallowed, state, e, hstate, h⟩ |
      ⟨hallowed, handshake, negotiated, tools, rfl, hprotocol, htools, h⟩ :=
      s.connect_cases occupied outcome
    · rw [h]; exact .refused _
    · rw [h]; exact .connectFailed hallowed hstate
    · rw [h]; exact .connected hallowed hprotocol htools
  | restart outcome =>
    rw [ServerOperation.effect, ManagedServer.restart_eq]
    obtain ⟨hrefuses, -⟩ | ⟨-, state, e, hstate, h⟩ |
      ⟨-, handshake, negotiated, tools, rfl, hprotocol, htools, h⟩ :=
      s.stopped.connect_cases occupied outcome
    · cases hrefuses
    · rw [h]; exact .restartFailed hstate
    · rw [h]; exact .restarted hprotocol htools
  | disable outcome =>
    unfold ServerOperation.effect ManagedServer.disable
    split_ifs with hallowed
    · cases outcome with
      | error e => exact .disableFailed hallowed
      | ok => exact .disabled hallowed
    · exact .refused _
  | checkHealth outcome =>
    unfold ServerOperation.effect ManagedServer.checkHealth
    split_ifs with hstate
    · cases outcome with
      | ok latencyMs => exact .healthy hstate rfl
      | error e => exact .unhealthy hstate
    · exact .refused _
  | applyUpdate consent adapter =>
    rw [ServerOperation.effect, ManagedServer.applyUpdate]
    cases hplan : s.updateRecipe consent with
    | error e => exact .refused _
    | ok plan =>
      dsimp only
      cases adapter plan.recipe with
      | ok release => exact .updated hplan
      | error e => exact .updateFailed
  | rollback consent adapter =>
    rw [ServerOperation.effect, ManagedServer.rollback]
    cases hrecipe : s.rollbackRecipe consent with
    | error e => exact .refused _
    | ok found =>
      dsimp only
      cases adapter found.2 with
      | ok installed => exact .rolledBack hrecipe
      | error e => exact .refused _
  | uninstall consent outcome =>
    rw [ServerOperation.effect]
    obtain ⟨e, h⟩ | h := s.uninstall_cases consent outcome
    · rw [h]; exact .refused _
    · rw [h]; exact .uninstalled
  | setPermission rule =>
    rw [ServerOperation.effect]
    obtain ⟨e, h⟩ | ⟨htool, h⟩ := s.setPermission_cases rule
    · rw [h]; exact .refused _
    · rw [h]; exact .permissionSet htool
  | offerUpdate plan => exact .updateOffered
  | setScopes projectScopes agentScopes => exact .scopesSet
  | recordRestoreFailure => exact .restoreFailed

variable {occupied : List String} {s s' : ManagedServer} {op : ServerOperation}

theorem ServerChange.definition (h : ServerChange occupied s op s') :
    ∃ projectScopes agentScopes,
      s'.definition = { s.definition with projectScopes, agentScopes } := by
  cases h <;> exact ⟨_, _, rfl⟩

/-- Where a catalog and the rules can come from. -/
theorem ServerChange.catalog (h : ServerChange occupied s op s') :
    (s'.tools = s.tools ∧ s'.permissions = s.permissions) ∨
      (∃ handshake tools, (op = .connect (.ok handshake) ∨ op = .restart (.ok handshake)) ∧
        normalizeTools s.definition.namespace_ handshake.tools occupied = .ok tools ∧
        s'.tools = tools ∧ s'.permissions = seedConservativePermissions s.permissions tools) ∨
      ((∃ consent outcome, op = .uninstall consent outcome) ∧ s'.tools = [] ∧
        s'.permissions = []) ∨
      ∃ rule, op = .setPermission rule ∧ (∃ tool ∈ s.tools, tool.resolvedName = rule.tool) ∧
        s'.tools = s.tools ∧ s'.permissions = (s.permissions.filter fun existing =>
          !(existing.tool = rule.tool ∧ existing.scope = rule.scope)) ++ [rule] := by
  cases h with
  | connected _ _ htools => exact .inr (.inl ⟨_, _, .inl rfl, htools, rfl, rfl⟩)
  | restarted _ htools => exact .inr (.inl ⟨_, _, .inr rfl, htools, rfl, rfl⟩)
  | uninstalled => exact .inr (.inr (.inl ⟨⟨_, _, rfl⟩, rfl, rfl⟩))
  | permissionSet htool => exact .inr (.inr (.inr ⟨_, rfl, htool, rfl, rfl⟩))
  | _ => exact .inl ⟨rfl, rfl⟩

end

/-! ### Servers of the runs on fixed inputs -/

namespace Sample

/-- ASCII letters in lower case, each character by itself. -/
@[reducible] def asciiCase : CharCase :=
  ⟨fun c => if 65 ≤ c.toNat ∧ c.toNat ≤ 90 then [Char.ofNat (c.toNat + 32)] else [c]⟩

/-- Every text is the URL of a remote host. -/
@[reducible] def remoteUrl : UrlLibrary where
  Url := Unit
  Origin := Unit
  parse _ := .ok ()
  scheme _ := "https"
  hostStr _ := some "host"
  origin _ := ()
  join _ _ := .ok ()
  extendPairs _ _ := ()
  origin_extendPairs _ _ := rfl

/-- Bytes are their own digest, and a recipe is written word by word. -/
@[reducible] def plainDigest : ConsentDigest where
  digest := id
  recipeJson recipe := "\x7b" ++ " ".intercalate (recipe.program :: recipe.arguments)

/-- A stdio server. -/
def server (id : Uuid) (namespace_ : String) (install : Option InstallRecipe) :
    ServerDefinition where
  id := id
  name := "Files"
  namespace_ := namespace_
  transport := .stdio "files" [] none []
  supportedProtocols := .ofList ["2025-11-25"]
  preferredProtocol := "2025-11-25"
  install := install
  projectScopes := ∅
  agentScopes := ∅

/-- What a server answers that has the given tools. -/
def handshake (tools : List String) : RuntimeHandshake where
  serverProtocols := .ofList ["2025-11-25"]
  tools := tools.map fun name => ⟨name, .object [], { readOnly := true }, ""⟩
  latencyMs := 5

/-- `npm install` of a package. -/
def recipe (package : String) : InstallRecipe := ⟨"npm", ["install", package], none, none⟩

end Sample

end PersonalAgent.Mcp
