/-
# Provider events

`crates/llm/src/event.rs`: the events of a native provider turn, and the envelopes in which
they are stored.  The types of the envelopes are those of the sidecar's events, so that a
native turn and a sidecar turn look the same to the store.
-/

import PersonalAgent.Core.Usage

namespace PersonalAgent.Llm

open PersonalAgent.Core (satAdd)

/-- Token and cost accounting for one turn; the counters are `u64`. -/
structure Usage where
  inputTokens : ℕ := 0
  outputTokens : ℕ := 0
  cacheReadInputTokens : ℕ := 0
  cacheCreationInputTokens : ℕ := 0
  reasoningTokens : ℕ := 0
  costUsd : Option F64 := none
  deriving DecidableEq, Repr

namespace Usage

/-- Every prompt token processed this turn, cached or not. -/
def totalInputTokens (u : Usage) : ℕ :=
  satAdd (satAdd u.inputTokens u.cacheReadInputTokens) u.cacheCreationInputTokens

/-- Prompt plus generated tokens. -/
def totalTokens (u : Usage) : ℕ := satAdd u.totalInputTokens u.outputTokens

def toPayload (u : Usage) : Value :=
  .object [("input_tokens", .u64 u.inputTokens), ("output_tokens", .u64 u.outputTokens),
    ("cache_read_input_tokens", .u64 u.cacheReadInputTokens),
    ("cache_creation_input_tokens", .u64 u.cacheCreationInputTokens),
    ("reasoning_tokens", .u64 u.reasoningTokens), ("total_tokens", .u64 u.totalTokens),
    ("cost_usd", .ofOption .f64 u.costUsd)]

end Usage

/-- Why the provider stopped generating. -/
inductive FinishReason where
  | stop
  | toolCalls
  | maxTokens
  | refusal
  | aborted
  | other (reason : String)
  deriving DecidableEq, Repr

/-- The wire spelling of a reason. -/
def FinishReason.asStr : FinishReason → String
  | .stop => "stop"
  | .toolCalls => "tool_calls"
  | .maxTokens => "max_tokens"
  | .refusal => "refusal"
  | .aborted => "aborted"
  | .other reason => reason

/-- One fully streamed tool call requested by the model. -/
structure ToolCall where
  callId : String
  tool : String
  arguments : Value

/-- The assistant turn assembled from the stream. -/
structure AssistantMessage where
  text : String := ""
  reasoning : String := ""
  toolCalls : List ToolCall := []

/-- A single normalized provider event. -/
inductive LlmEvent where
  | responseStarted (provider model : String) (responseId : Option String)
  | responseRetrying (attempt delayMs : ℕ) (reason : String)
  | responseDelta (text : String)
  | reasoningAvailable (text : String)
  | reasoningCompleted
  | toolCallStarted (index : ℕ) (callId tool : String)
  | toolCallProgress (index : ℕ) (callId tool argumentsDelta : String)
  | toolCallReady (index : ℕ) (call : ToolCall)
  | toolCallFailed (index : ℕ) (callId tool error : String)
  | responseStepCompleted (finishReason : FinishReason) (usage : Usage)
  | responseCompleted (finishReason : FinishReason) (usage : Usage) (message : AssistantMessage)
  | responseFailed (error : String) (usage : Usage)

namespace LlmEvent

/-- Normalized envelope type an event maps to. -/
def eventType : LlmEvent → String
  | .responseStarted .. => "response.started"
  | .responseRetrying .. => "response.retrying"
  | .responseDelta .. => "response.delta"
  | .reasoningAvailable .. => "reasoning.available"
  | .reasoningCompleted => "reasoning.completed"
  | .toolCallStarted .. => "tool.started"
  | .toolCallProgress .. => "tool.progress"
  | .toolCallReady .. => "tool.progress"
  | .toolCallFailed .. => "tool.failed"
  | .responseStepCompleted .. => "response.step_completed"
  | .responseCompleted .. => "response.completed"
  | .responseFailed .. => "response.failed"

/-- Whether an event ends the stream. -/
def isTerminal : LlmEvent → Bool
  | .responseCompleted .. => true
  | .responseFailed .. => true
  | _ => false

def payload : LlmEvent → Value
  | .responseStarted provider model responseId => .object [("provider", .ofStr provider),
      ("model", .ofStr model), ("responseID", .ofOption .ofStr responseId)]
  | .responseRetrying attempt delayMs reason => .object [("attempt", .u64 attempt),
      ("next", .u64 delayMs), ("message", .ofStr reason)]
  | .responseDelta text => .object [("delta", .ofStr text)]
  | .reasoningAvailable text => .object [("delta", .ofStr text), ("reasoning", .bool true)]
  | .reasoningCompleted => .object []
  | .toolCallStarted index callId tool => .object [("index", .u64 index),
      ("callID", .ofStr callId), ("tool", .ofStr tool)]
  | .toolCallProgress index callId tool argumentsDelta => .object [("index", .u64 index),
      ("callID", .ofStr callId), ("tool", .ofStr tool), ("status", .ofStr "input_delta"),
      ("bytes", .u64 argumentsDelta.utf8ByteSize)]
  | .toolCallReady index call => .object [("index", .u64 index), ("callID", .ofStr call.callId),
      ("tool", .ofStr call.tool), ("status", .ofStr "input_complete")]
  | .toolCallFailed index callId tool error => .object [("index", .u64 index),
      ("callID", .ofStr callId), ("tool", .ofStr tool), ("error", .ofStr error)]
  | .responseStepCompleted finishReason usage => .object [("finish", .ofStr finishReason.asStr),
      ("tokens", usage.toPayload)]
  | .responseCompleted finishReason usage message => .object [("terminal", .bool true),
      ("finish", .ofStr finishReason.asStr), ("tokens", usage.toPayload),
      ("toolCalls", .u64 message.toolCalls.length)]
  | .responseFailed error usage => .object [("terminal", .bool true), ("error", .ofStr error),
      ("tokens", usage.toPayload)]

/-- Convert into a persisted envelope.  Encoding a payload of finite numbers does not fail. -/
def toEnvelope (event : LlmEvent) (stamp : Stamp) (sequence : ℕ)
    (origin profileId sessionId : String) : EventEnvelope :=
  { EventEnvelope.new stamp sequence origin profileId event.eventType event.payload with
    sessionId := some sessionId }

end LlmEvent
end PersonalAgent.Llm
