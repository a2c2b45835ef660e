/-
# Packs, connectors and pairing

`crates/plugins/src/lib.rs` from line 293 on: official packs and the runtime of their
connectors, and the one-time pairing of a remote client.

What the id and nonce generators draw is an argument.  An operation that fails leaves the state
alone, except where the source writes before it can fail (`install`).  HMAC-SHA-256 is the
parameter `Hmac`; a tag is a value of its own, compared as a whole.
-/

import PersonalAgent.Core.Usage
import PersonalAgent.Lib.Checks

namespace PersonalAgent.Plugins

open Lib (refuse)

/-- `BTreeSet<String>`. -/
abbrev Names := Std.ExtTreeSet String compare

instance : DecidableEq Names := fun names other =>
  decidable_of_iff (names.toList = other.toList) Std.ExtTreeSet.toList_inj

/-- `BTreeSet::is_subset`. -/
def Names.isSubset (names other : Names) : Bool := names.toList.all other.contains

inductive PluginError where
  | invalidPack (reason : String)
  | unknownCapability (capability : String)
  | alreadyInstalled (id : String)
  | missingConnector (id : String)
  | connectorDisabled (id : String)
  | connectorScope (scope : String)
  | connectorAuthorization
  | connectorCredential
  | connectorConsent
  | connectorUntrusted
  | connectorAdapter
  | invalidPairing
  | pairingCapability (capability : String)
  deriving DecidableEq, Repr

/-! ### Packs -/

/-- Connector entry in an official pack.  Credentials are referenced by alias only. -/
structure ConnectorDeclaration where
  id : String
  credentialAliases : Names := ∅
  scopes : Names
  enabledByDefault : Bool := false

/-- Installable official pack manifest and its deterministic evaluation cases. -/
structure PackManifest where
  schemaVersion : ℕ := 1
  id : String
  name : String
  version : String
  publisher : String := "Personal Agent"
  official : Bool := true
  capabilities : Names
  connectors : List ConnectorDeclaration
  evaluationIds : Names
  installDisabled : Bool := true

/-- A credential reference of the form `keychain://service/account`. -/
def isKeychainAlias (name : String) : Bool :=
  "keychain://".toList.isPrefixOf name.toList && (name.toList.splitOn '/').length = 4

/-- A connector that may be installed. -/
def ConnectorDeclaration.isValid (connector : ConnectorDeclaration) : Bool :=
  !connector.enabledByDefault && !(Core.trim connector.id).isEmpty && !connector.scopes.isEmpty &&
    connector.credentialAliases.toList.all isKeychainAlias

/-- Validate manifest safety and coverage before installation preview. -/
def PackManifest.validate (manifest : PackManifest) (known : Names) : Except PluginError Unit := do
  refuse (manifest.schemaVersion ≠ 1 ∨ (Core.trim manifest.id).isEmpty ∨
      (Core.trim manifest.name).isEmpty ∨ (Core.trim manifest.version).isEmpty ∨
      manifest.publisher ≠ "Personal Agent" ∨ !manifest.official ∨ !manifest.installDisabled ∨
      manifest.capabilities.isEmpty ∨ manifest.evaluationIds.isEmpty)
    (.invalidPack
      "identity, publisher, capabilities, evaluations, and disabled install are required")
  match manifest.capabilities.toList.find? (!known.contains ·) with
  | some capability => throw (.unknownCapability capability)
  | none => pure ()
  manifest.connectors.forM fun connector => refuse (!connector.isValid) (.invalidPack
    ("connector " ++ connector.id ++ " must be disabled and use keychain aliases"))

/-- Installed pack registry.  Installation never authorizes connectors. -/
structure PackRegistry where
  installed : BTreeMap String PackManifest := ∅

/-- Install a reviewed official pack in disabled state. -/
def PackRegistry.install (registry : PackRegistry) (manifest : PackManifest) (known : Names) :
    Except PluginError PackRegistry := do
  manifest.validate known
  refuse (manifest.id ∈ registry.installed) (.alreadyInstalled manifest.id)
  return { registry with installed := registry.installed.insert manifest.id manifest }

/-! ### Connectors -/

/-- Runtime state for an installed official connector. -/
inductive ConnectorState where
  | disabled
  | authorizationPending
  | enabled
  | revoked
  deriving DecidableEq, Repr

/-- Effect class used to preserve always-confirm boundaries across connectors. -/
inductive ConnectorEffect where
  | read
  | write
  | communication
  | commerce
  | security
  | power
  deriving DecidableEq, Repr

def ConnectorEffect.alwaysConfirms : ConnectorEffect → Bool
  | .communication | .commerce | .security | .power => true
  | .read | .write => false

/-- One-time authorization challenge.  It contains no token or credential value. -/
structure ConnectorAuthorization where
  connectorId : String
  state : Uuid
  requestedScopes : Names

/-- Complete invocation context entering the official-pack policy boundary. -/
structure ConnectorInvocation where
  connectorId : String
  scope : String
  effect : ConnectorEffect
  target : String
  fromUntrustedContent : Bool := false
  scopedConsent : Bool := false

/-- Content-free request handed to a service-specific adapter. -/
structure ConnectorDispatch where
  connectorId : String
  scope : String
  effect : ConnectorEffect
  target : String

structure ConnectorBinding where
  declaration : ConnectorDeclaration
  state : ConnectorState
  pendingState : Option Uuid

/-- Installed official-pack runtime. -/
structure OfficialPackRuntime where
  registry : PackRegistry := {}
  connectors : BTreeMap String ConnectorBinding := ∅
  sequence : ℕ := 0

namespace OfficialPackRuntime

/-- The binding of a connector that was just installed. -/
def fresh (connector : ConnectorDeclaration) : ConnectorBinding where
  declaration := connector
  state := .disabled
  pendingState := none

def bindAll (m : BTreeMap String ConnectorBinding) (connectors : List ConnectorDeclaration) :
    BTreeMap String ConnectorBinding :=
  connectors.foldl (fun m connector => m.insert connector.id (fresh connector)) m

def unbindAll (m : BTreeMap String ConnectorBinding) (connectors : List ConnectorDeclaration) :
    BTreeMap String ConnectorBinding :=
  connectors.foldl (fun m connector => m.erase connector.id) m

/-- Install a reviewed pack with every connector disabled.  The bindings are written before
the registry is asked, and taken back if it refuses. -/
def install (r : OfficialPackRuntime) (manifest : PackManifest) (known : Names) :
    OfficialPackRuntime × Except PluginError Unit :=
  match manifest.validate known with
  | .error e => (r, .error e)
  | .ok () =>
    match manifest.connectors.find? (·.id ∈ r.connectors) with
    | some connector =>
      (r, .error (.invalidPack ("duplicate connector id " ++ connector.id)))
    | none =>
      let r := { r with connectors := bindAll r.connectors manifest.connectors }
      match r.registry.install manifest known with
      | .error e =>
        ({ r with connectors := unbindAll r.connectors manifest.connectors }, .error e)
      | .ok registry => ({ r with registry }, .ok ())

def binding (r : OfficialPackRuntime) (id : String) : Except PluginError ConnectorBinding :=
  match r.connectors[id]? with
  | some binding => .ok binding
  | none => .error (.missingConnector id)

variable (r : OfficialPackRuntime)

/-- Begin a one-time OAuth/credential authorization with an exact scope subset. -/
def beginAuthorization (connectorId : String) (requestedScopes : Names)
    (state : Uuid) : Except PluginError (ConnectorAuthorization × OfficialPackRuntime) := do
  let binding ← r.binding connectorId
  refuse (requestedScopes.isEmpty ∨ !requestedScopes.isSubset binding.declaration.scopes)
    (.connectorScope connectorId)
  let binding := { binding with pendingState := some state, state := .authorizationPending }
  return ({ connectorId, state, requestedScopes },
    { r with connectors := r.connectors.insert connectorId binding })

def completeAuthorization (challenge : ConnectorAuthorization)
    (presentKeychainAliases : Names) (userConfirmed : Bool) :
    Except PluginError OfficialPackRuntime := do
  refuse (!userConfirmed) .connectorConsent
  let binding ← r.binding challenge.connectorId
  refuse (binding.state ≠ .authorizationPending ∨ binding.pendingState ≠ some challenge.state ∨
    !challenge.requestedScopes.isSubset binding.declaration.scopes) .connectorAuthorization
  refuse (!binding.declaration.credentialAliases.isSubset presentKeychainAliases)
    .connectorCredential
  let binding := { binding with
    pendingState := none
    declaration := { binding.declaration with scopes := challenge.requestedScopes }
    state := .enabled }
  return { r with connectors := r.connectors.insert challenge.connectorId binding }

/-- Revoke a connector locally; subsequent calls fail closed. -/
def revoke (connectorId : String) :
    Except PluginError OfficialPackRuntime := do
  let binding ← r.binding connectorId
  let binding := { binding with pendingState := none, state := .revoked }
  return { r with connectors := r.connectors.insert connectorId binding }

/-- The checks of `invoke`, and what the adapter is then given. -/
def dispatch (invocation : ConnectorInvocation) :
    Except PluginError ConnectorDispatch := do
  refuse invocation.fromUntrustedContent .connectorUntrusted
  let binding ← r.binding invocation.connectorId
  refuse (binding.state ≠ .enabled) (.connectorDisabled invocation.connectorId)
  refuse (invocation.scope ∉ binding.declaration.scopes) (.connectorScope invocation.scope)
  refuse (invocation.effect.alwaysConfirms ∧ !invocation.scopedConsent) .connectorConsent
  return { connectorId := invocation.connectorId, scope := invocation.scope,
           effect := invocation.effect, target := invocation.target }

/-- Invoke a connector after state, zone, scope, and consent checks: what the adapter was given,
whether it then succeeded, and the runtime, whose receipts are numbered. -/
def invoke (invocation : ConnectorInvocation)
    (adapter : ConnectorDispatch → Bool) :
    Option ConnectorDispatch × OfficialPackRuntime × Except PluginError ℕ :=
  match r.dispatch invocation with
  | .error e => (none, r, .error e)
  | .ok dispatch =>
    if !adapter dispatch then (some dispatch, r, .error .connectorAdapter)
    else
      let r := { r with sequence := min (r.sequence + 1) (2 ^ 64 - 1) }
      (some dispatch, r, .ok r.sequence)

end OfficialPackRuntime

/-! ### Pairing -/

/-- The bytes of a text. -/
def utf8 (s : String) : List UInt8 := s.toByteArray.data.toList

abbrev Nonce := { bytes : List UInt8 // bytes.length = 32 }

/-- HMAC-SHA-256 of a message under a key. -/
class Hmac (Tag : Type) where
  hmac : List UInt8 → List UInt8 → Tag

/-- Public pairing offer; the one-time code is displayed out of band.  Times are instants in
nanoseconds. -/
structure PairingOffer where
  id : Uuid
  serverNonce : Nonce
  expiresAt : ℤ
  offeredCapabilities : Names
  code : String

/-- Client proof for the versioned remote-control protocol. -/
structure PairingProof (Tag : Type) where
  protocolVersion : ℕ
  offerId : Uuid
  clientId : String
  clientNonce : Nonce
  requestedCapabilities : Names
  proof : Tag

/-- Paired client metadata; the session key as the tag it is spelled from. -/
structure PairedClient (Tag : Type) where
  clientId : String
  capabilities : Names
  pairedAt : ℤ
  sessionKey : Tag
  revoked : Bool := false

def pairingTranscript (offerId : Uuid) (clientId : String) (serverNonce clientNonce : Nonce)
    (capabilities : Names) : List UInt8 :=
  utf8 ("personal-agent-remote-v1\n" ++ offerId.spelling ++ "\n" ++ clientId ++ "\n") ++
    serverNonce.1 ++ clientNonce.1 ++ capabilities.toList.flatMap fun capability =>
      utf8 "\n" ++ utf8 capability

/-- Third-party client helper for protocol interoperability. -/
def createPairingProof {Tag : Type} [Hmac Tag] (offer : PairingOffer) (clientId : String)
    (clientNonce : Nonce) (requestedCapabilities : Names) : PairingProof Tag where
  protocolVersion := 1
  offerId := offer.id
  clientId := clientId
  clientNonce := clientNonce
  requestedCapabilities := requestedCapabilities
  proof := Hmac.hmac (utf8 offer.code)
    (pairingTranscript offer.id clientId offer.serverNonce clientNonce requestedCapabilities)

/-- One-time pairing server. -/
structure PairingServer where
  pending : BTreeMap Uuid PairingOffer := ∅

/-- What the generators draw for an offer. -/
structure Drawn where
  id : Uuid
  nonce : Nonce
  code : String

namespace PairingServer

/-- Create fresh nonce/code material and a short-lived offer. -/
def offer (s : PairingServer) (drawn : Drawn) (capabilities : Names) (now : ℤ) :
    PairingOffer × PairingServer :=
  match s.pending[drawn.id]? with
  | some offer => (offer, s)
  | none =>
    let offer : PairingOffer := {
      id := drawn.id
      serverNonce := drawn.nonce
      expiresAt := now + 5 * 60 * 10 ^ 9
      offeredCapabilities := capabilities
      code := drawn.code }
    (offer, { s with pending := s.pending.insert drawn.id offer })

variable {Tag : Type} [DecidableEq Tag] [Hmac Tag]

def verify (offer : PairingOffer) (proof : PairingProof Tag) (now : ℤ) :
    Except PluginError (PairedClient Tag) := do
  refuse (proof.protocolVersion ≠ 1 ∨ offer.expiresAt ≤ now ∨ (Core.trim proof.clientId).isEmpty)
    .invalidPairing
  match proof.requestedCapabilities.toList.find? (!offer.offeredCapabilities.contains ·) with
  | some capability => throw (.pairingCapability capability)
  | none => pure ()
  let transcript := pairingTranscript proof.offerId proof.clientId offer.serverNonce
    proof.clientNonce proof.requestedCapabilities
  refuse (Hmac.hmac (utf8 offer.code) transcript ≠ proof.proof) .invalidPairing
  return {
    clientId := proof.clientId
    capabilities := proof.requestedCapabilities
    pairedAt := now
    sessionKey := Hmac.hmac (utf8 offer.code) (utf8 "session" ++ transcript) }

/-- Verify and consume a client proof.  Unknown capability requests fail rather than being
silently narrowed. -/
def complete (s : PairingServer) (proof : PairingProof Tag) (now : ℤ) :
    Except PluginError (PairedClient Tag × PairingServer) :=
  match s.pending[proof.offerId]? with
  | none => .error .invalidPairing
  | some offer => do
    let client ← verify offer proof now
    return (client, { s with pending := s.pending.erase proof.offerId })

end PairingServer
end PersonalAgent.Plugins
