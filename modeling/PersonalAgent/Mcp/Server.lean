/-
# MCP servers

The data of `crates/mcp-manager/src/lib.rs`: server definitions with their install recipes,
the catalogs that servers advertise, the permission rules of the user, and the record the
manager keeps of each server; and the validators that stand in front of the registry.

URLs are a parameter (`UrlLibrary`), and so are the tables behind `char::to_lowercase`
(`CharCase`).
-/

import PersonalAgent.Contracts.Libraries
import PersonalAgent.Lib.Checks
import PersonalAgent.Lib.OrdMap
import PersonalAgent.Memories.Record

namespace PersonalAgent.Mcp

open PersonalAgent.Core (trim toAsciiLowercase containsText)
open Memories (BTreeSet)
open Lib (refuse)

/-- `char::to_lowercase`. -/
class CharCase where
  toLowercase : Char → List Char

/-! ### Definitions -/

/-- An MCP revision.  It is read from a document without being checked. -/
abbrev ProtocolVersion := String

structure KeychainReference where
  referenceId : String
  service : String
  accountHint : String
  deriving DecidableEq, Repr

inductive BindingValue where
  | nonSecret (value : String)
  | keychain (reference : KeychainReference)
  deriving DecidableEq, Repr

/-- An environment variable or a header. -/
structure Binding where
  name : String
  value : BindingValue
  deriving DecidableEq, Repr

inductive TransportDefinition where
  | stdio (executable : String) (arguments : List String) (workingDirectory : Option String)
      (environment : List Binding)
  | streamableHttp (endpoint : String) (stateless : Bool) (headers : List Binding)
  | legacySse (endpoint : String) (headers : List Binding)
  deriving DecidableEq, Repr

/-- Exact native installation command shown to the user before consent. -/
structure InstallRecipe where
  program : String
  arguments : List String
  expectedArtifactSha256 : Option String
  sourceUrl : Option String
  deriving DecidableEq, Repr

structure ServerDefinition where
  id : Uuid
  name : String
  namespace_ : String
  transport : TransportDefinition
  supportedProtocols : BTreeSet ProtocolVersion
  preferredProtocol : ProtocolVersion
  install : Option InstallRecipe
  projectScopes : Finset String
  agentScopes : Finset String

inductive LifecycleState where
  | draft
  | installConsentRequired
  | installing
  | disabled
  | connecting
  | connected
  | degraded
  | authenticationRequired
  | crashed
  | updateAvailable
  | updating
  | rollbackAvailable
  | uninstalling
  | uninstalled
  deriving DecidableEq, Repr

/-- Last health sample. -/
structure HealthStatus where
  healthy : Bool
  latencyMs : Option ℕ
  consecutiveFailures : ℕ
  deriving DecidableEq, Repr

/-- Release retained for safe update rollback. -/
structure InstalledRelease where
  version : String
  artifactSha256 : Option String
  recipe : Option InstallRecipe
  deriving DecidableEq, Repr

structure UpdatePlan where
  targetVersion : String
  recipe : InstallRecipe
  deriving DecidableEq, Repr

/-! ### Catalogs and rules -/

structure ToolAnnotations where
  readOnly : Bool := false
  destructive : Bool := false
  idempotent : Bool := false
  openWorld : Bool := false
  deriving DecidableEq, Repr

/-- A tool of a catalog, under the name of the server and under the one it is resolved to. -/
structure ToolDescriptor where
  name : String
  inputSchema : Value
  annotations : ToolAnnotations
  resolvedName : String

inductive PermissionDecision where
  | allow
  | ask
  | deny
  deriving DecidableEq, Repr

inductive PermissionScope where
  | global
  | profile (id : String)
  | workspace (id : String)
  | agent (id : String)
  deriving DecidableEq, Repr

/-- Per-tool policy rule consumed before the native gateway. -/
structure ToolPermissionRule where
  tool : String
  scope : PermissionScope
  decision : PermissionDecision
  executionZone : String
  maxCallsPerMinute : ℕ
  timeoutMs : ℕ
  maxOutputBytes : ℕ
  deriving DecidableEq, Repr

/-- The record of a server. -/
structure ManagedServer where
  definition : ServerDefinition
  state : LifecycleState
  enabled : Bool := false
  negotiatedProtocol : Option ProtocolVersion := none
  health : Option HealthStatus := none
  tools : List ToolDescriptor := []
  permissions : List ToolPermissionRule := []
  currentRelease : Option InstalledRelease := none
  releaseHistory : List InstalledRelease := []
  pendingUpdate : Option UpdatePlan := none

structure AdapterError where
  code : String
  message : String
  authenticationRequired : Bool := false
  deriving DecidableEq, Repr

/-- What a native adapter returns after initialization. -/
structure RuntimeHandshake where
  serverProtocols : BTreeSet ProtocolVersion
  tools : List ToolDescriptor
  latencyMs : ℕ

inductive ManagerError where
  | missingServer (id : Uuid)
  | namespaceCollision (namespace_ : String)
  | invalidDefinition (reason : String)
  | invalidTransport (reason : String)
  | protocolMismatch
  | consentRequired
  | consentMismatch
  | invalidState (state : LifecycleState)
  | missingTool (tool : String)
  | toolDenied (tool : String)
  | invalidArguments (reason : String)
  | adapter (code : String)
  | rollbackUnavailable
  deriving DecidableEq, Repr

/-! ### Identifiers -/

/-- `char::is_ascii_alphanumeric`. -/
def isAsciiAlphanumeric (c : Char) : Bool :=
  (48 ≤ c.toNat && c.toNat ≤ 57) || (65 ≤ c.toNat && c.toNat ≤ 90) ||
    (97 ≤ c.toNat && c.toNat ≤ 122)

/-- One turn of the loop of `sanitize_identifier`: the result, and whether it ends in a
separator. -/
def sanitizeChar (acc : List Char × Bool) (character : Char) : List Char × Bool :=
  if isAsciiAlphanumeric character then (acc.1 ++ [character], false)
  else if !acc.2 && !acc.1.isEmpty then (acc.1 ++ ['_'], true)
  else acc

def sanitizeIdentifier [CharCase] (value : String) : String :=
  let result := ((value.toList.flatMap CharCase.toLowercase).foldl sanitizeChar ([], false)).1
  String.ofList (result.reverse.dropWhile (· = '_')).reverse

/-! ### Validators -/

def isSensitiveName (name : String) : Bool :=
  ["authorization", "api_key", "apikey", "token", "secret", "password", "private_key",
    "client_secret", "cookie"].any (containsText (toAsciiLowercase name))

/-- `str::to_ascii_uppercase`. -/
def toAsciiUppercase (s : String) : String :=
  String.ofList (s.toList.map fun c =>
    if 97 ≤ c.toNat && c.toNat ≤ 122 then Char.ofNat (c.toNat - 32) else c)

def BindingValue.isNonSecret : BindingValue → Bool
  | nonSecret _ => true
  | keychain _ => false

def validateBinding (binding : Binding) (environment : Bool) : Except ManagerError Unit := do
  refuse ((trim binding.name).isEmpty ||
      binding.name.toList.any fun c => ['\r', '\n', '\x00'].contains c)
    (.invalidTransport "invalid binding name")
  let kind := if environment then "environment variable" else "header"
  refuse (isSensitiveName binding.name && binding.value.isNonSecret)
    (.invalidTransport
      s!"credential-like {kind} {binding.name} must use an OS-keychain reference")
  match binding.value with
  | .nonSecret value =>
    refuse (value.toList.contains '\x00') (.invalidTransport "binding contains a null byte")
  | .keychain reference =>
    refuse ((trim reference.referenceId).isEmpty || (trim reference.service).isEmpty)
      (.invalidTransport "keychain reference is incomplete")

/-- The bindings in order, each valid and none for a name that was seen; `fold` is the case
in which names are compared. -/
def validateBindings (fold : String → String) (label : String) (environment : Bool) :
    List Binding → List String → Except ManagerError Unit
  | [], _ => .ok ()
  | binding :: rest, seen => do
    validateBinding binding environment
    refuse (fold binding.name ∈ seen) (.invalidTransport s!"duplicate {label} {binding.name}")
    validateBindings fold label environment rest (fold binding.name :: seen)

section

variable [UrlLibrary]

def validateEndpoint (endpoint : String) (headers : List Binding) : Except ManagerError Unit := do
  let url ← (UrlLibrary.parse endpoint).mapError .invalidTransport
  let loopback := (UrlLibrary.hostStr url).any fun host =>
    ["localhost", "127.0.0.1", "::1"].contains host
  refuse (UrlLibrary.scheme url ≠ "https" ∧ ¬(UrlLibrary.scheme url = "http" ∧ loopback))
    (.invalidTransport "remote MCP endpoints must use HTTPS")
  validateBindings toAsciiLowercase "header" false headers []

def validateTransport : TransportDefinition → Except ManagerError Unit
  | .stdio executable _ _ environment => do
    refuse ((trim executable).isEmpty || executable.toList.contains '\x00')
      (.invalidTransport "stdio executable is blank or invalid")
    validateBindings toAsciiUppercase "environment binding" true environment []
  | .streamableHttp endpoint _ headers | .legacySse endpoint headers =>
    validateEndpoint endpoint headers

/-- `char::is_ascii_hexdigit`. -/
def isAsciiHexdigit (c : Char) : Bool :=
  (48 ≤ c.toNat && c.toNat ≤ 57) || (65 ≤ c.toNat && c.toNat ≤ 70) ||
    (97 ≤ c.toNat && c.toNat ≤ 102)

def validateInstallRecipe (recipe : InstallRecipe) : Except ManagerError Unit := do
  refuse ((trim recipe.program).isEmpty || recipe.program.toList.contains '\x00')
    (.invalidDefinition "install program is blank or invalid")
  refuse (recipe.arguments.any (·.toList.contains '\x00'))
    (.invalidDefinition "install argument contains a null byte")
  refuse (recipe.expectedArtifactSha256.any fun digest =>
      digest.utf8ByteSize ≠ 64 || !digest.toList.all isAsciiHexdigit)
    (.invalidDefinition "artifact SHA-256 is invalid")
  match recipe.sourceUrl with
  | none => .ok ()
  | some source => do
    let url ← (UrlLibrary.parse source).mapError .invalidDefinition
    refuse (UrlLibrary.scheme url ≠ "https") (.invalidDefinition "package source must use HTTPS")

variable [CharCase]

def validateDefinition (definition : ServerDefinition) : Except ManagerError Unit := do
  refuse ((trim definition.name).isEmpty) (.invalidDefinition "name is blank")
  refuse (sanitizeIdentifier definition.namespace_ ≠ definition.namespace_ ∨
      definition.namespace_.isEmpty)
    (.invalidDefinition "namespace must contain lowercase letters, numbers, and underscores")
  refuse (definition.supportedProtocols.isEmpty ∨
      definition.preferredProtocol ∉ definition.supportedProtocols)
    (.invalidDefinition "preferred protocol must be present in supported protocols")
  validateTransport definition.transport
  match definition.install with
  | none => .ok ()
  | some recipe => validateInstallRecipe recipe

end

def validatePermission (rule : ToolPermissionRule) : Except ManagerError Unit :=
  refuse ((trim rule.tool).isEmpty ∨ (trim rule.executionZone).isEmpty ∨
      rule.maxCallsPerMinute = 0 ∨ rule.timeoutMs = 0 ∨ rule.maxOutputBytes = 0)
    (.invalidDefinition "permission rule has an empty or zero limit")

end PersonalAgent.Mcp
