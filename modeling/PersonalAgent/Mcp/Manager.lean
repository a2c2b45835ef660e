/-
# The MCP manager

`McpManager` of `crates/mcp-manager/src/lib.rs`: the registry of servers and the operations
on one of them.  An operation looks its server up, works on that record and puts it back
(`McpManager.onServer`); only the connection of a server reads the others, for the names
they occupy.  What a native adapter returns is an argument: any handshake, any error, any
release, at every call.

The digest of a consent is SHA-256 over a text, the JSON of a recipe or a sentence
(`ConsentDigest`).  Logs and audit events are written and never read; they are left out.
-/

import PersonalAgent.Mcp.Catalog

namespace PersonalAgent.Mcp

open PersonalAgent.Core (trim)
open Memories (BTreeSet)
open Lib (refuse)

/-! ### Consent -/

/-- What a consent is bound with: SHA-256, and `serde_json::to_vec` of a recipe. -/
class ConsentDigest extends Sha256 where
  recipeJson : InstallRecipe → String

/-- The digest of a text, as the consents have it. -/
def ConsentDigest.sha256 [ConsentDigest] (text : String) : String :=
  Sha256.hexDigest (asBytes text)

/-- `shell_display_word`: quotes for display only. -/
def shellDisplayWord (value : String) : String :=
  let plain (c : Char) := isAsciiAlphanumeric c || "-._/:=@+".toList.contains c
  if !value.isEmpty && value.toList.all plain then value
  else
    let quoted := value.toList.flatMap fun c =>
      if c = Char.ofNat 39 then "\x27\\\x27\x27".toList else [c]
    "\x27" ++ String.ofList quoted ++ "\x27"

namespace InstallRecipe

def displayCommand (recipe : InstallRecipe) : String :=
  " ".intercalate ((recipe.program :: recipe.arguments).map shellDisplayWord)

def digest [ConsentDigest] (recipe : InstallRecipe) : String :=
  ConsentDigest.sha256 (ConsentDigest.recipeJson recipe)

end InstallRecipe

/-- Explicit consent bound to an operation digest. -/
structure OperationConsent where
  operationDigest : String
  displayedText : String
  userConfirmed : Bool
  deriving DecidableEq, Repr

def verifyConsent (consent : OperationConsent) (digest displayedText : String) :
    Except ManagerError Unit := do
  refuse (!consent.userConfirmed) .consentRequired
  refuse (consent.operationDigest ≠ digest ∨ consent.displayedText ≠ displayedText)
    .consentMismatch

/-! ### Operations on one server -/

/-- The newest revision supported by both peers. -/
def negotiateProtocol (client server : BTreeSet ProtocolVersion) : Option ProtocolVersion :=
  (client.toList.filter (server.contains ·)).getLast?

/-- The states from which `connect` refuses to start. -/
def LifecycleState.refusesConnect : LifecycleState → Bool
  | installConsentRequired | installing | uninstalling | uninstalled => true
  | _ => false

/-- The states from which `disable` starts. -/
def LifecycleState.allowsDisable : LifecycleState → Bool
  | connected | degraded | crashed | authenticationRequired | updateAvailable
  | rollbackAvailable => true
  | _ => false

/-- Native package operations: what comes of the installation of a recipe. -/
abbrev PackageAdapter := InstallRecipe → Except AdapterError InstalledRelease

/-- A routed call. -/
structure GatewayToolRequest where
  serverId : Uuid
  toolName : String
  resolvedName : String
  arguments : Value
  protocolVersion : ProtocolVersion
  executionZone : String
  timeoutMs : ℕ
  maxOutputBytes : ℕ
  requiresApproval : Bool
  destructive : Bool
  openWorld : Bool

inductive ToolRoute where
  | ready (request : GatewayToolRequest)
  | approvalRequired (request : GatewayToolRequest)

def ToolRoute.request : ToolRoute → GatewayToolRequest
  | ready request | approvalRequired request => request

namespace ManagedServer

/-- A draft: `add_server`. -/
def ofDefinition (definition : ServerDefinition) : ManagedServer where
  definition := definition
  state := if definition.install.isSome then .installConsentRequired else .disabled

variable (s : ManagedServer)

def adapterFailure (state : LifecycleState) : ManagedServer :=
  { s with state := state, enabled := false }

section

variable [ConsentDigest] (s : ManagedServer)

/-- What `install` hands to the package adapter. -/
def installRecipe (consent : OperationConsent) :
    Except ManagerError InstallRecipe :=
  match s.definition.install with
  | none => .error (.invalidDefinition "no install recipe")
  | some recipe => do
    verifyConsent consent recipe.digest recipe.displayCommand
    return recipe

/-- Installs a local server after exact-command consent. -/
def install (consent : OperationConsent) (adapter : PackageAdapter) :
    ManagedServer × Except ManagerError Unit :=
  match s.installRecipe consent with
  | .error e => (s, .error e)
  | .ok recipe =>
    match adapter recipe with
    | .ok release =>
      ({ s with currentRelease := some release, state := .disabled, enabled := false }, .ok ())
    | .error e => (s.adapterFailure .crashed, .error (.adapter e.code))

/-- What `apply_update` hands to the package adapter, in its plan. -/
def updateRecipe (consent : OperationConsent) :
    Except ManagerError UpdatePlan :=
  match s.pendingUpdate with
  | none => .error (.invalidState s.state)
  | some plan => do
    verifyConsent consent plan.recipe.digest plan.recipe.displayCommand
    return plan

/-- The releases that are retained once another one is installed; at most three. -/
def retainRelease : List InstalledRelease :=
  match s.currentRelease with
  | none => s.releaseHistory
  | some previous =>
    let history := s.releaseHistory ++ [previous]
    if history.length > 3 then history.tail else history

/-- Applies an update after exact-command consent and retains the old release. -/
def applyUpdate (consent : OperationConsent) (adapter : PackageAdapter) :
    ManagedServer × Except ManagerError Unit :=
  match s.updateRecipe consent with
  | .error e => (s, .error e)
  | .ok plan =>
    match adapter plan.recipe with
    | .ok release =>
      ({ s with
        releaseHistory := s.retainRelease
        currentRelease := some { release with version := plan.targetVersion }
        pendingUpdate := none
        state := .rollbackAvailable }, .ok ())
    | .error e => (s.adapterFailure .updateAvailable, .error (.adapter e.code))

/-- `format!("Rollback {} to {}", name, version)`. -/
def rollbackText (name version : String) : String := "Rollback " ++ name ++ " to " ++ version

def rollbackConsentPreview : Except ManagerError (String × String) :=
  match s.releaseHistory.getLast? with
  | none => .error .rollbackUnavailable
  | some release =>
    let text := rollbackText s.definition.name release.version
    .ok (ConsentDigest.sha256 text, text)

/-- What `rollback` hands to the package adapter, with the release it belongs to. -/
def rollbackRecipe (consent : OperationConsent) :
    Except ManagerError (InstalledRelease × InstallRecipe) := do
  let (digest, text) ← s.rollbackConsentPreview
  verifyConsent consent digest text
  match s.releaseHistory.getLast? with
  | none => .error .rollbackUnavailable
  | some release =>
    match release.recipe with
    | none => .error .rollbackUnavailable
    | some recipe => .ok (release, recipe)

/-- Restores the most recent retained release after operation-bound consent. -/
def rollback (consent : OperationConsent) (adapter : PackageAdapter) :
    ManagedServer × Except ManagerError Unit :=
  match s.rollbackRecipe consent with
  | .error e => (s, .error e)
  | .ok (release, recipe) =>
    match adapter recipe with
    | .error e => (s, .error (.adapter e.code))
    | .ok installed =>
      ({ s with
        releaseHistory := s.releaseHistory.dropLast ++ s.currentRelease.toList
        currentRelease := some { installed with version := release.version }
        state := .disabled }, .ok ())

def uninstallConsentPreview : String × String :=
  let text := "Uninstall MCP server " ++ s.definition.name ++
    " (" ++ s.definition.id.spelling ++ ")"
  (ConsentDigest.sha256 text, text)

/-- Uninstalls native artifacts; the tombstone remains. -/
def uninstall (consent : OperationConsent)
    (outcome : Except AdapterError Unit) : ManagedServer × Except ManagerError Unit :=
  match verifyConsent consent s.uninstallConsentPreview.1 s.uninstallConsentPreview.2 with
  | .error e => (s, .error e)
  | .ok () =>
    match outcome with
    | .error e => (s, .error (.adapter e.code))
    | .ok () =>
      ({ s with
        state := .uninstalled
        enabled := false
        negotiatedProtocol := none
        tools := []
        permissions := []
        currentRelease := none
        releaseHistory := []
        pendingUpdate := none }, .ok ())

end

/-- Enables and connects a server; `occupied` are the names of the other servers' tools. -/
def connect [CharCase] (s : ManagedServer) (occupied : List String)
    (outcome : Except AdapterError RuntimeHandshake) : ManagedServer × Except ManagerError Unit :=
  if s.state.refusesConnect then (s, .error (.invalidState s.state))
  else
    match outcome with
    | .error e =>
      let state := if e.authenticationRequired then .authenticationRequired else .crashed
      ({ s.adapterFailure state with enabled := true }, .error (.adapter e.code))
    | .ok handshake =>
      match negotiateProtocol s.definition.supportedProtocols handshake.serverProtocols with
      | none => ({ s.adapterFailure .crashed with enabled := true }, .error .protocolMismatch)
      | some negotiated =>
        match normalizeTools s.definition.namespace_ handshake.tools occupied with
        | .error e => ({ s.adapterFailure .crashed with enabled := true }, .error e)
        | .ok tools =>
          ({ s with
            enabled := true
            state := .connected
            negotiatedProtocol := some negotiated
            tools := tools
            health := some ⟨true, some handshake.latencyMs, 0⟩
            permissions := seedConservativePermissions s.permissions tools }, .ok ())

/-- Disconnects and disables a server without deleting configuration. -/
def disable (outcome : Except AdapterError Unit) :
    ManagedServer × Except ManagerError Unit :=
  if s.state.allowsDisable then
    match outcome with
    | .error e => (s.adapterFailure .crashed, .error (.adapter e.code))
    | .ok () =>
      ({ s with enabled := false, state := .disabled, health := none, negotiatedProtocol := none },
        .ok ())
  else (s, .error (.invalidState s.state))

/-- Reconnects a server, whatever comes of the disconnection. -/
def restart [CharCase] (s : ManagedServer) (occupied : List String)
    (outcome : Except AdapterError RuntimeHandshake) : ManagedServer × Except ManagerError Unit :=
  { s with state := .disabled, enabled := false, negotiatedProtocol := none }.connect occupied
    outcome

/-- `saturating_add` of a `u32`. -/
def oneMore (n : ℕ) : ℕ := min (n + 1) (2 ^ 32 - 1)

/-- The failures in a row once there is another one. -/
def failures : ℕ :=
  match s.health with
  | none => 1
  | some health => oneMore health.consecutiveFailures

/-- Samples runtime health. -/
def checkHealth (outcome : Except AdapterError ℕ) :
    ManagedServer × Except ManagerError HealthStatus :=
  if s.state = .connected ∨ s.state = .degraded then
    match outcome with
    | .ok latencyMs =>
      let sample : HealthStatus := ⟨true, some latencyMs, 0⟩
      ({ s with state := .connected, health := some sample }, .ok sample)
    | .error _ =>
      let sample : HealthStatus := ⟨false, none, s.failures⟩
      ({ s with state := .degraded, health := some sample }, .ok sample)
  else (s, .error (.invalidState s.state))

/-- Records a failed native restoration while preserving desired enablement. -/
def recordRestoreFailure : ManagedServer :=
  { s with
    enabled := true
    state := .degraded
    negotiatedProtocol := none
    health := some ⟨false, none, s.failures⟩ }

/-- What `recover_after_restart` does to one server. -/
def recover : ManagedServer :=
  match s.state with
  | .installing => { s with state := .installConsentRequired, enabled := false }
  | .updating =>
    { s with
      state := if s.pendingUpdate.isSome then .updateAvailable else .crashed
      enabled := false }
  | .uninstalling => { s with state := .crashed, enabled := false }
  | .draft | .installConsentRequired | .disabled | .uninstalled => { s with enabled := false }
  | _ =>
    if s.enabled then { s with state := .connecting, negotiatedProtocol := none, health := none }
    else s

def setPermission (rule : ToolPermissionRule) :
    ManagedServer × Except ManagerError Unit :=
  if s.tools.any (·.resolvedName = rule.tool) then
    ({ s with permissions := (s.permissions.filter fun existing =>
        !(existing.tool = rule.tool ∧ existing.scope = rule.scope)) ++ [rule] }, .ok ())
  else (s, .error (.missingTool rule.tool))

/-- Validates and normalizes a tool call for the native gateway. -/
def prepareToolCall (serverId : Uuid) (resolvedTool : String)
    (arguments : Value) (context : InvocationContext) : Except ManagerError ToolRoute := do
  refuse (s.state ≠ .connected ∨ s.enabled = false) (.invalidState s.state)
  let some tool := s.tools.find? (·.resolvedName = resolvedTool)
    | .error (.missingTool resolvedTool)
  validateJsonArguments tool.inputSchema arguments
  let some protocol := s.negotiatedProtocol | .error .protocolMismatch
  let rule := resolvePermission s.permissions resolvedTool context
  refuse (rule.decision = .deny) (.toolDenied resolvedTool)
  let requiresApproval := decide (rule.decision = .ask) || !tool.annotations.readOnly ||
    tool.annotations.destructive || tool.annotations.openWorld
  let request : GatewayToolRequest := {
    serverId := serverId
    toolName := tool.name
    resolvedName := tool.resolvedName
    arguments := arguments
    protocolVersion := protocol
    executionZone := rule.executionZone
    timeoutMs := rule.timeoutMs
    maxOutputBytes := rule.maxOutputBytes
    requiresApproval := requiresApproval
    destructive := tool.annotations.destructive
    openWorld := tool.annotations.openWorld }
  return if requiresApproval && !context.userConfirmed then .approvalRequired request
    else .ready request

end ManagedServer

/-! ### The registry -/

structure McpManager where
  servers : BTreeMap Uuid ManagedServer := ∅

namespace McpManager

def onServer {α : Type} (m : McpManager) (id : Uuid)
    (operation : ManagedServer → ManagedServer × Except ManagerError α) :
    McpManager × Except ManagerError α :=
  match m.servers[id]? with
  | none => (m, .error (.missingServer id))
  | some server => (⟨m.servers.insert id (operation server).1⟩, (operation server).2)

def server (m : McpManager) (id : Uuid) : Except ManagerError ManagedServer :=
  match m.servers[id]? with
  | none => .error (.missingServer id)
  | some server => .ok server

/-- Adds a validated draft. -/
def addServer [UrlLibrary] [CharCase] (m : McpManager) (definition : ServerDefinition) :
    McpManager × Except ManagerError Uuid :=
  match validateDefinition definition with
  | .error e => (m, .error e)
  | .ok () =>
    if m.servers.toList.any (·.2.definition.namespace_ = definition.namespace_) then
      (m, .error (.namespaceCollision definition.namespace_))
    else (⟨m.servers.insert definition.id (.ofDefinition definition)⟩, .ok definition.id)

/-- The names that the tools of the other servers occupy. -/
def catalogNamesExcluding (m : McpManager) (id : Uuid) : List String :=
  (m.servers.toList.filter (·.1 ≠ id)).flatMap fun entry => entry.2.tools.map (·.resolvedName)

section

variable [CharCase]

def connect (m : McpManager) (id : Uuid) (outcome : Except AdapterError RuntimeHandshake) :
    McpManager × Except ManagerError Unit :=
  m.onServer id fun s => s.connect (m.catalogNamesExcluding id) outcome

def restart (m : McpManager) (id : Uuid) (outcome : Except AdapterError RuntimeHandshake) :
    McpManager × Except ManagerError Unit :=
  m.onServer id fun s => s.restart (m.catalogNamesExcluding id) outcome

end

def disable (m : McpManager) (id : Uuid) (outcome : Except AdapterError Unit) :
    McpManager × Except ManagerError Unit :=
  m.onServer id (·.disable outcome)

def checkHealth (m : McpManager) (id : Uuid) (outcome : Except AdapterError ℕ) :
    McpManager × Except ManagerError HealthStatus :=
  m.onServer id (·.checkHealth outcome)

def recordRestoreFailure (m : McpManager) (id : Uuid) : McpManager × Except ManagerError Unit :=
  m.onServer id fun s => (s.recordRestoreFailure, .ok ())

/-- Records an available update without performing it. -/
def offerUpdate [UrlLibrary] (m : McpManager) (id : Uuid) (plan : UpdatePlan) :
    McpManager × Except ManagerError Unit :=
  match validateInstallRecipe plan.recipe with
  | .error e => (m, .error e)
  | .ok () =>
    if (trim plan.targetVersion).isEmpty then
      (m, .error (.invalidDefinition "target version is blank"))
    else m.onServer id fun s =>
      ({ s with pendingUpdate := some plan, state := .updateAvailable }, .ok ())

section

variable [ConsentDigest]

def install (m : McpManager) (id : Uuid) (consent : OperationConsent) (adapter : PackageAdapter) :
    McpManager × Except ManagerError Unit :=
  m.onServer id (·.install consent adapter)

def applyUpdate (m : McpManager) (id : Uuid) (consent : OperationConsent)
    (adapter : PackageAdapter) : McpManager × Except ManagerError Unit :=
  m.onServer id (·.applyUpdate consent adapter)

def rollback (m : McpManager) (id : Uuid) (consent : OperationConsent)
    (adapter : PackageAdapter) : McpManager × Except ManagerError Unit :=
  m.onServer id (·.rollback consent adapter)

def uninstall (m : McpManager) (id : Uuid) (consent : OperationConsent)
    (outcome : Except AdapterError Unit) : McpManager × Except ManagerError Unit :=
  m.onServer id (·.uninstall consent outcome)

end

/-- Permanently removes only an already-uninstalled tombstone. -/
def purgeTombstone (m : McpManager) (id : Uuid) : McpManager × Except ManagerError Unit :=
  match m.servers[id]? with
  | none => (m, .error (.missingServer id))
  | some server =>
    if server.state = .uninstalled then (⟨m.servers.erase id⟩, .ok ())
    else (m, .error (.invalidState server.state))

/-- Creates or replaces a per-tool rule. -/
def setPermission (m : McpManager) (id : Uuid) (rule : ToolPermissionRule) :
    McpManager × Except ManagerError Unit :=
  match validatePermission rule with
  | .error e => (m, .error e)
  | .ok () => m.onServer id (·.setPermission rule)

/-- A scope that may not be stored. -/
def invalidScope (scope : String) : Bool :=
  (trim scope).isEmpty || scope.utf8ByteSize > 512 || scope.toList.contains '\x00'

/-- Replaces the project and agent scopes selected in the GUI. -/
def setScopes (m : McpManager) (id : Uuid) (projectScopes agentScopes : Finset String) :
    McpManager × Except ManagerError Unit :=
  if ∃ scope ∈ projectScopes ∪ agentScopes, invalidScope scope = true then
    (m, .error (.invalidDefinition "scope identifiers must be non-empty and bounded"))
  else m.onServer id fun s =>
    ({ s with definition := { s.definition with projectScopes, agentScopes } }, .ok ())

/-- Normalizes process-bound lifecycle state after the desktop host starts. -/
def recoverAfterRestart (m : McpManager) : McpManager := ⟨m.servers.map fun _ s => s.recover⟩

def prepareToolCall (m : McpManager) (id : Uuid) (resolvedTool : String) (arguments : Value)
    (context : InvocationContext) : Except ManagerError ToolRoute := do
  (← m.server id).prepareToolCall id resolvedTool arguments context

end McpManager
end PersonalAgent.Mcp
