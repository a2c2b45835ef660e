/-
# The tool gateway

`crates/tools/src/lib.rs`: every call of a tool goes through validation, policy, checkpoint,
the effect, filtering of secrets, verification and the audit.  A tool is what its methods
answer in the call at hand.  `call` and `rollback` return the gateway and the result, and as
a trace the methods of the tool that were invoked, in order; `serde_json::to_vec` is a
parameter (`JsonText`).
-/

import PersonalAgent.Core.Usage
import PersonalAgent.Policy.Decide

namespace PersonalAgent.Tools

open Policy

/-! ### Secrets in a result -/

/-- `u8::is_ascii_alphanumeric`, of a character. -/
def isAsciiAlphanumeric (c : Char) : Bool :=
  (65 ≤ c.toNat && c.toNat ≤ 90) || (97 ≤ c.toNat && c.toNat ≤ 122) ||
    (48 ≤ c.toNat && c.toNat ≤ 57)

/-- `u8::is_ascii_whitespace`, of a character. -/
def isAsciiWhitespace (c : Char) : Bool := [32, 9, 10, 12, 13].contains c.toNat

def isBase64UrlByte (c : Char) : Bool := isAsciiAlphanumeric c || ['-', '_', '='].contains c

def isBase64Byte (c : Char) : Bool := isBase64UrlByte c || ['+', '/'].contains c

def afterLead (lead : String) (text : List Char) : Option (List Char) :=
  if lead.toList.isPrefixOf text then some (text.drop lead.length) else none

def containsPrefixedRun (text : String) (lead : String) (minimumLength : ℕ)
    (allowed : Char → Bool) : Bool :=
  text.toList.tails.any fun rest =>
    match afterLead lead rest with
    | none => false
    | some rest => minimumLength ≤ (rest.takeWhile allowed).length

/-- The characters after those of a base64 run. -/
def afterRun (text : List Char) : List Char := text.dropWhile isBase64UrlByte

def containsJwt (text : String) : Bool :=
  text.toList.tails.any fun rest =>
    match afterLead "eyJ" rest with
    | none => false
    | some header =>
      match afterRun header with
      | '.' :: payload =>
        match afterRun payload with
        | '.' :: signature =>
          (afterRun payload).length < payload.length &&
            (signature.head?.map isBase64UrlByte).getD false
        | _ => false
      | _ => false

/-- A quotation mark, if there is one, is skipped. -/
def skipQuote : List Char → List Char
  | '\'' :: rest | '"' :: rest => rest
  | text => text

def containsKeyedLongSecret (text : String) : Bool :=
  text.toList.tails.any fun rest =>
    ["token", "secret", "key", "password"].any fun key =>
      if Core.toAsciiLowercase (String.ofList (rest.take key.length)) != key then false
      else
        match (skipQuote (rest.drop key.length)).dropWhile isAsciiWhitespace with
        | ':' :: value | '=' :: value =>
          let value := skipQuote (value.dropWhile isAsciiWhitespace)
          32 ≤ (value.takeWhile isBase64Byte).length
        | _ => false

def containsSecretPattern (text : String) : Bool :=
  Core.containsText text "-----BEGIN" || Core.containsText text "Bearer " ||
    Core.containsText text "sk-" || Core.containsText text "ghp_" ||
    Core.containsText text "github_pat_" ||
    containsPrefixedRun text "AKIA" 16 (fun c =>
      (65 ≤ c.toNat && c.toNat ≤ 90) || (48 ≤ c.toNat && c.toNat ≤ 57)) ||
    containsPrefixedRun text "sk-" 20 (fun c => isAsciiAlphanumeric c || ['-', '_'].contains c) ||
    ["xoxb-", "xoxa-", "xoxp-", "xoxr-", "xoxs-"].any (Core.containsText text) ||
    containsJwt text || containsKeyedLongSecret text

def redactSecretText (text : Text) : Text :=
  if containsSecretPattern text.spelling then .plain "[REDACTED]" else text

/-- Names of fields whose values are secrets. -/
def secretName (name : String) : Bool :=
  ["secret", "password", "token", "api_key", "credential"].any
    (Core.containsText (Core.toAsciiLowercase name))

mutual

def redactSecrets : Value → Value
  | .object fields => .object (redactFields fields)
  | .array items => .array (redactItems items)
  | .string text => .string (redactSecretText text)
  | other => other

def redactItems : List Value → List Value
  | [] => []
  | item :: items => redactSecrets item :: redactItems items

def redactFields : List (String × Value) → List (String × Value)
  | [] => []
  | (name, item) :: fields =>
    (name, if secretName name then .string (.plain "[REDACTED]") else redactSecrets item) ::
      redactFields fields

end

/-! ### Calls and tools -/

/-- One requested tool invocation after plan assignment. -/
structure ToolCall where
  callId : Uuid
  goalId : Uuid
  taskId : Option Uuid
  toolId : String
  target : String
  input : Value
  inputZones : Finset DataZone
  grantedScopes : Finset String
  estimatedCostUsd : Double
  background : Bool
  userPresent : Bool
  checkpointAvailable : Bool

/-- Sanitized tool result returned to the runtime. -/
structure ToolOutput where
  value : Value
  rollbackId : Option String
  verified : Bool

/-- Result of a transactional rollback. -/
structure RollbackOutput where
  restoredCheckpointId : String
  rescueCheckpointId : String
  verified : Bool
  deriving DecidableEq

/-- Immutable audit record. -/
structure ToolAudit where
  callId : Uuid
  toolId : String
  target : String
  at_ : DateTime
  decision : String
  succeeded : Bool
  outputBytes : ℕ
  reason : String
  estimatedCostUsd : Double
  deriving DecidableEq

/-- Content-free outbound data record. -/
structure EgressRecord where
  callId : Uuid
  destination : String
  kind : String
  sizeBytes : ℕ
  reason : String
  deriving DecidableEq

/-- Gateway or implementation failure. -/
inductive ToolError where
  | unknownTool (id : String)
  | invalidInput (reason : String)
  | approvalRequired (reason : String)
  | denied (reason : String)
  | execution (reason : String)
  | postcondition (reason : String)
  | rollbackUnsupported
  | rollback (reason : String)
  deriving DecidableEq

/-- A tool, by the answers of its methods. -/
structure ToolImplementation where
  descriptor : ToolDescriptor
  validateInput : Value → Except ToolError Unit
  checkpoint : ToolCall → Except ToolError (Option String)
  execute : ToolCall → Except ToolError Value
  verify : ToolCall → Value → Except ToolError Unit
  snapshotCurrent : ToolCall → Except ToolError (Option String) := fun _ => .ok none
  rollback : ToolCall → String → Except ToolError Value := fun _ _ => .error .rollbackUnsupported
  verifyRollback : ToolCall → String → Value → Except ToolError Unit :=
    fun _ _ _ => .error .rollbackUnsupported

/-- The methods of a tool that act or look at the world. -/
inductive Invocation where
  | validateInput
  | checkpoint
  | execute
  | verify
  | snapshotCurrent
  | rollback
  | verifyRollback
  deriving DecidableEq

/-- `serde_json::to_vec`; the error as its text. -/
class JsonText where
  toVec : Value → Except String (List UInt8)

/-- Registered gateway with one fixed core policy engine. -/
structure ToolGateway where
  tools : String → Option ToolImplementation := fun _ => none
  audits : List ToolAudit := []
  egress : List EgressRecord := []
  maxOutputBytes : ℕ := 0

/-- How a call of the gateway ended, and which methods of the tool it had invoked. -/
structure Returned (α : Type) where
  gateway : ToolGateway
  result : Except ToolError α
  invoked : List Invocation

/-- `format!("{:?}", effect).to_lowercase()`. -/
def effectKind : Effect → String
  | .observe => "observe"
  | .localWrite => "localwrite"
  | .externalWrite => "externalwrite"
  | .communication => "communication"
  | .commerce => "commerce"
  | .security => "security"
  | .power => "power"

def leaves (effect : Effect) : Bool :=
  decide (effect ∈ [Effect.externalWrite, .communication, .commerce, .security, .power])

/-- What the policy is asked. -/
def ToolCall.context (call : ToolCall) (tool : ToolImplementation) : CallContext where
  goalId := call.goalId
  taskId := call.taskId
  tool := tool.descriptor
  target := call.target
  activeInputZones := call.inputZones
  grantedScopes := call.grantedScopes
  estimatedCostUsd := call.estimatedCostUsd
  background := call.background
  userPresent := call.userPresent
  checkpointAvailable := call.checkpointAvailable

def ToolCall.checkpointed (call : ToolCall) (rollbackId : Option String) : ToolCall :=
  if rollbackId.isSome then { call with checkpointAvailable := true } else call

def ToolCall.audit (call : ToolCall) (clock : DateTime) (decision reason : String)
    (succeeded : Bool) (outputBytes : ℕ) : ToolAudit where
  callId := call.callId
  toolId := call.toolId
  target := call.target
  at_ := clock
  decision := decision
  succeeded := succeeded
  outputBytes := outputBytes
  reason := reason
  estimatedCostUsd := call.estimatedCostUsd

namespace ToolGateway

def new (maxOutputBytes : ℕ) : ToolGateway where
  maxOutputBytes := maxOutputBytes

def register (g : ToolGateway) (tool : ToolImplementation) : ToolGateway :=
  { g with tools := Function.update g.tools tool.descriptor.id (some tool) }

/-- The last part of `call`: filtering, verification and the audit of an executed effect. -/
def conclude [JsonText] (g : ToolGateway) (tool : ToolImplementation) (call : ToolCall)
    (label : String) (rollbackId : Option String) (raw : Value) (clock : DateTime) :
    Returned ToolOutput :=
  let filtered := redactSecrets raw
  match JsonText.toVec filtered with
  | .error error => ⟨g, .error (.execution error), [.validateInput, .checkpoint, .execute]⟩
  | .ok encoded =>
    if g.maxOutputBytes < encoded.length then
      ⟨g, .error (.execution s!"tool output exceeds {g.maxOutputBytes} byte limit"),
        [.validateInput, .checkpoint, .execute]⟩
    else
      match tool.verify call filtered with
      | .error error => ⟨g, .error error, [.validateInput, .checkpoint, .execute, .verify]⟩
      | .ok () =>
        let egress : EgressRecord :=
          { callId := call.callId
            destination := call.target
            kind := effectKind tool.descriptor.effect
            sizeBytes := encoded.length
            reason := "declared tool effect" }
        ⟨{ g with
            audits := g.audits ++
              [call.audit clock label "postcondition verified" true encoded.length]
            egress := if leaves tool.descriptor.effect then g.egress ++ [egress] else g.egress },
          .ok ⟨filtered, rollbackId, true⟩, [.validateInput, .checkpoint, .execute, .verify]⟩

/-- The middle part of `call`: the checkpoint and the effect, once the policy has allowed it. -/
def perform [JsonText] (g : ToolGateway) (tool : ToolImplementation) (call : ToolCall)
    (label : String) (clock : DateTime) : Returned ToolOutput :=
  match tool.checkpoint call with
  | .error error => ⟨g, .error error, [.validateInput, .checkpoint]⟩
  | .ok rollbackId =>
    if tool.descriptor.reversible && tool.descriptor.effect != .observe && rollbackId.isNone then
      ⟨g, .error (.execution "required checkpoint implementation returned no checkpoint"),
        [.validateInput, .checkpoint]⟩
    else
      let call := call.checkpointed rollbackId
      match tool.execute call with
      | .error error =>
        ⟨{ g with audits := g.audits ++ [call.audit clock label
            "tool implementation returned an execution error" false 0] },
          .error error, [.validateInput, .checkpoint, .execute]⟩
      | .ok raw => g.conclude tool call label rollbackId raw clock

/-- `ToolGateway::call`, with the times the policy and the audit read. -/
def call [Instants] [JsonText] (g : ToolGateway) (call : ToolCall) (grants : List ConsentGrant)
    (now clock : DateTime) : Returned ToolOutput :=
  match g.tools call.toolId with
  | none => ⟨g, .error (.unknownTool call.toolId), []⟩
  | some tool =>
    match tool.validateInput call.input with
    | .error error => ⟨g, .error error, [.validateInput]⟩
    | .ok () =>
      match PolicyEngine.decide (call.context tool) grants now with
      | .ask reason => ⟨g, .error (.approvalRequired reason), [.validateInput]⟩
      | .deny reason => ⟨g, .error (.denied reason), [.validateInput]⟩
      | .allow label _ => g.perform tool call label clock

/-- The last part of `rollback`, once the tool has restored the checkpoint. -/
def concludeRollback [JsonText] (g : ToolGateway) (tool : ToolImplementation) (call : ToolCall)
    (checkpointId rescueId : String) (raw : Value) (clock : DateTime) :
    Returned RollbackOutput :=
  let filtered := redactSecrets raw
  match JsonText.toVec filtered with
  | .error error => ⟨g, .error (.rollback error), [.snapshotCurrent, .rollback]⟩
  | .ok encoded =>
    if g.maxOutputBytes < encoded.length then
      ⟨g, .error (.rollback s!"rollback output exceeds {g.maxOutputBytes} byte limit"),
        [.snapshotCurrent, .rollback]⟩
    else
      match tool.verifyRollback call checkpointId filtered with
      | .error error => ⟨g, .error error, [.snapshotCurrent, .rollback, .verifyRollback]⟩
      | .ok () =>
        ⟨{ g with audits := g.audits ++ [call.audit clock
            "rollback requested through native gateway"
            "current state snapshotted and prior checkpoint restored" true encoded.length] },
          .ok ⟨checkpointId, rescueId, true⟩, [.snapshotCurrent, .rollback, .verifyRollback]⟩

/-- `ToolGateway::rollback`. -/
def rollback [JsonText] (g : ToolGateway) (call : ToolCall) (checkpointId : String)
    (clock : DateTime) : Returned RollbackOutput :=
  match g.tools call.toolId with
  | none => ⟨g, .error (.unknownTool call.toolId), []⟩
  | some tool =>
    if !tool.descriptor.reversible then ⟨g, .error .rollbackUnsupported, []⟩
    else
      match tool.snapshotCurrent call with
      | .error error => ⟨g, .error error, [.snapshotCurrent]⟩
      | .ok none =>
        ⟨g, .error (.rollback "current state could not be checkpointed"), [.snapshotCurrent]⟩
      | .ok (some rescueId) =>
        match tool.rollback call checkpointId with
        | .error error => ⟨g, .error error, [.snapshotCurrent, .rollback]⟩
        | .ok raw => g.concludeRollback tool call checkpointId rescueId raw clock

end ToolGateway
end PersonalAgent.Tools
