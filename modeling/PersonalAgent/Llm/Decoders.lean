/-
# The two wire dialects

`crates/llm/src/anthropic.rs` and `crates/llm/src/openai.rs`, the decoders of the streams,
and the errors of `crates/llm/src/error.rs`.  A decoder classifies each frame and feeds the
turn it assembles (`Llm.Turn`).

`push_outcome` says for both what a frame of an open turn does: it fails to parse, it streams,
or it ends the turn, with an error only if the provider sent one (`frameError`).
-/

import PersonalAgent.Lib.Except
import PersonalAgent.Llm.Turn

namespace PersonalAgent.Llm

open Lib TurnState
open PersonalAgent.Core (textAt)

/-- Everything the provider layer can fail with. -/
inductive LlmError where
  | invalidKeyAlias
  | secret (error : String)
  | invalidBaseUrl
  | request (reason : String)
  | transport (reason : String)
  | status (code : ℕ) (message : String)
  | protocol (reason : String)
  | aborted
  deriving DecidableEq, Repr

/-- `Display`. -/
def LlmError.toString : LlmError → String
  | .invalidKeyAlias => "provider key must be a keychain://service/account alias"
  | .secret error => "provider credential is unavailable: " ++ error
  | .invalidBaseUrl => "provider base URL is not a usable HTTP endpoint"
  | .request reason => "provider request is invalid: " ++ reason
  | .transport reason => "provider transport failed: " ++ reason
  | .status code message => "provider returned HTTP " ++ Nat.repr code ++ ": " ++ message
  | .protocol reason => "provider stream is malformed: " ++ reason
  | .aborted => "turn aborted before completion"

/-- `value.get(first).and_then(|value| value.get(second)).and_then(Value::as_str)`. -/
def textWithin (value : Value) (first second : String) : Option String :=
  (value.get first).bind fun inner => textAt inner [second]

/-! ### Messages API -/

namespace Anthropic

inductive BlockKind where
  | text
  | thinking
  | toolUse
  | other
  deriving DecidableEq, Repr

/-- Incremental decoder for Messages API stream events. -/
structure Decoder where
  state : TurnState
  blocks : BTreeMap ℕ BlockKind := ∅

/-- A step of the turn a decoder assembles. -/
def onState (f : Emits TurnState LlmEvent) : Emits Decoder LlmEvent :=
  Emits.within Decoder.state (fun d state => { d with state }) f

def finishReason (reason : String) : FinishReason :=
  if reason = "end_turn" ∨ reason = "stop_sequence" then .stop
  else if reason = "tool_use" then .toolCalls
  else if reason = "max_tokens" then .maxTokens
  else if reason = "refusal" then .refusal
  else .other reason

def streamError (frame : Value) : String :=
  (textWithin frame "error" "message").getD "provider reported a stream error"

def messageStart (frame : Value) : Emits TurnState LlmEvent :=
  (start (textWithin frame "message" "model") (textWithin frame "message" "id")).andThen
    (Emits.ifSome ((frame.get "message").bind (·.get "usage")) fun usage =>
      let number (key : String) := (usage.u64At key).getD 0
      setUsage fun target => { target with
        inputTokens := number "input_tokens"
        cacheReadInputTokens := number "cache_read_input_tokens"
        cacheCreationInputTokens := number "cache_creation_input_tokens"
        outputTokens := number "output_tokens" })

def blockKind (frame : Value) : BlockKind :=
  let name := (textWithin frame "content_block" "type").getD ""
  if name = "text" then .text
  else if name = "thinking" ∨ name = "redacted_thinking" then .thinking
  else if name = "tool_use" then .toolUse
  else .other

def blockStart (index : ℕ) (frame : Value) : Emits Decoder LlmEvent :=
  let kind := blockKind frame
  (Emits.update fun d => { d with blocks := d.blocks.insert index kind }).andThen
    (if kind ≠ .toolUse then Emits.skip
    else onState (announce index (textWithin frame "content_block" "id")
      (textWithin frame "content_block" "name")))

def blockDelta (index : ℕ) (frame : Value) : Emits TurnState LlmEvent :=
  Emits.ifSome (frame.get "delta") fun delta =>
    let text (key : String) := (textAt delta [key]).getD ""
    let name := text "type"
    if name = "text_delta" then TurnState.text (text "text")
    else if name = "thinking_delta" then reasoning (text "thinking")
    else if name = "input_json_delta" then arguments index (text "partial_json")
    else Emits.skip

def blockStop [SerdeJson] (index : ℕ) : Emits Decoder LlmEvent := fun d =>
  match d.blocks[index]? with
  | some .toolUse => onState (settle index) d
  | some .thinking => ([.reasoningCompleted], d)
  | _ => ([], d)

def messageDelta (frame : Value) : Emits TurnState LlmEvent :=
  (Emits.ifSome (textWithin frame "delta" "stop_reason") fun reason =>
    setFinish (finishReason reason)).andThen
  (Emits.ifSome (frame.get "usage") fun usage => setUsage fun target => { target with
    outputTokens := (usage.u64At "output_tokens").getD target.outputTokens
    inputTokens := (usage.u64At "input_tokens").getD target.inputTokens })

/-- What a frame of a known type does. -/
def handle [SerdeJson] (frame : Value) : Emits Decoder LlmEvent :=
  let index := (frame.u64At "index").getD 0
  let name := (textAt frame ["type"]).getD ""
  if name = "message_start" then onState (messageStart frame)
  else if name = "content_block_start" then blockStart index frame
  else if name = "content_block_delta" then onState (blockDelta index frame)
  else if name = "content_block_stop" then blockStop index
  else if name = "message_delta" then onState (messageDelta frame)
  else if name = "message_stop" then onState complete
  else if name = "error" then onState (fail (streamError frame))
  else Emits.skip

/-- Consume one SSE frame.  The payload repeats the event name in `type`, which is what the
decoder switches on. -/
def push [SerdeJson] (data : String) (d : Decoder) : Except LlmError (List LlmEvent × Decoder) :=
  match SerdeJson.fromStr data with
  | .error error => .error (.protocol ("event is not JSON: " ++ error))
  | .ok frame => .ok (handle frame d)

def reported (frame : Value) : Option String :=
  if textAt frame ["type"] = some "error" then some (streamError frame) else none

def frameError [SerdeJson] (data : String) : Option String :=
  match SerdeJson.fromStr data with
  | .error _ => none
  | .ok frame => reported frame

end Anthropic

/-! ### Chat completions -/

namespace OpenAi

/-- Incremental decoder for `chat.completion.chunk` frames. -/
structure Decoder where
  state : TurnState

def finishReason (reason : String) : FinishReason :=
  if reason = "stop" ∨ reason = "end_turn" then .stop
  else if reason = "tool_calls" ∨ reason = "function_call" then .toolCalls
  else if reason = "length" ∨ reason = "max_tokens" then .maxTokens
  else if reason = "content_filter" ∨ reason = "refusal" then .refusal
  else .other reason

/-- Merge an OpenAI-shaped `usage` object, including the cache and reasoning extensions and
the provider-reported cost. -/
def mergeUsage (usage : Usage) (reported : Value) : Usage :=
  let number (path : List String) : Option ℕ :=
    (path.foldlM Value.get reported).bind Value.asU64
  let cached := (number ["prompt_tokens_details", "cached_tokens"]).getD 0
  let usage := match number ["prompt_tokens"] with
    | some value => { usage with inputTokens := value - cached, cacheReadInputTokens := cached }
    | none => usage
  { usage with
    outputTokens := (number ["completion_tokens"]).getD usage.outputTokens
    reasoningTokens :=
      (number ["completion_tokens_details", "reasoning_tokens"]).getD usage.reasoningTokens
    costUsd := ((reported.get "cost").bind Value.asF64).or usage.costUsd }

/-- `Value::as_array`. -/
def elementsAt (value : Value) (name : String) : Option (List Value) :=
  match value.get name with
  | some (.array items) => some items
  | _ => none

def toolCall (call : Value) (position : ℕ) : Emits TurnState LlmEvent :=
  let index := (call.u64At "index").getD position
  (announce index (textAt call ["id"]) (textWithin call "function" "name")).andThen
    (Emits.ifSome (textWithin call "function" "arguments") (arguments index))

def delta (delta : Value) : Emits TurnState LlmEvent :=
  (Emits.ifSome (textAt delta ["content"]) text).andThen
  ((Emits.each (fun field => Emits.ifSome (textAt delta [field]) reasoning)
    ["reasoning", "reasoning_content"]).andThen
  (Emits.each (fun entry => toolCall entry.1 entry.2)
    ((elementsAt delta "tool_calls").getD []).zipIdx))

/-- A chunk that reports no error. -/
def chunk (chunk : Value) : Emits TurnState LlmEvent :=
  (start (textAt chunk ["model"]) (textAt chunk ["id"])).andThen
  ((Emits.ifSome ((chunk.get "usage").bind Value.asObject) fun fields =>
    setUsage (mergeUsage · (.object fields))).andThen
  (Emits.ifSome ((elementsAt chunk "choices").bind List.head?) fun choice =>
    (Emits.ifSome (choice.get "delta") delta).andThen
    (Emits.ifSome (textAt choice ["finish_reason"]) fun reason =>
      setFinish (finishReason reason))))

def errorMessage (error : Value) : String :=
  (textAt error ["message"]).getD "provider reported a stream error"

/-- What a chunk does. -/
def handle (value : Value) : Emits TurnState LlmEvent :=
  match value.get "error" with
  | some error => fail (errorMessage error)
  | none => chunk value

/-- Consume one `data:` payload. -/
def push [SerdeJson] (data : String) (d : Decoder) : Except LlmError (List LlmEvent × Decoder) :=
  let onState (f : Emits TurnState LlmEvent) := ((f d.state).1, Decoder.mk (f d.state).2)
  if Core.trim data = "[DONE]" then .ok (onState complete)
  else
    match SerdeJson.fromStr data with
    | .error error => .error (.protocol ("chunk is not JSON: " ++ error))
    | .ok value => .ok (onState (handle value))

/-- The error a payload reports. -/
def frameError [SerdeJson] (data : String) : Option String :=
  if Core.trim data = "[DONE]" then none
  else
    match SerdeJson.fromStr data with
    | .error _ => none
    | .ok value => (value.get "error").map errorMessage

end OpenAi

/-! ### Either dialect -/

inductive ProviderKind where
  | anthropic
  | openAiCompatible
  deriving DecidableEq, Repr

/-- Wire dialect decoder selected by `ProviderKind`. -/
inductive Decoder where
  | anthropic (decoder : Anthropic.Decoder)
  | openAi (decoder : OpenAi.Decoder)

namespace Decoder

def new (kind : ProviderKind) (provider model : String) : Decoder :=
  match kind with
  | .anthropic => .anthropic { state := TurnState.new provider model }
  | .openAiCompatible => .openAi { state := TurnState.new provider model }

def state : Decoder → TurnState
  | .anthropic decoder => decoder.state
  | .openAi decoder => decoder.state

@[simp] theorem state_new (kind : ProviderKind) (provider model : String) :
    (new kind provider model).state = TurnState.new provider model := by
  cases kind <;> rfl

def push [SerdeJson] (data : String) : Decoder → Except LlmError (List LlmEvent × Decoder)
  | .anthropic decoder =>
    (Anthropic.push data decoder).map fun (events, d) => (events, .anthropic d)
  | .openAi decoder => (OpenAi.push data decoder).map fun (events, d) => (events, .openAi d)

def kind : Decoder → ProviderKind
  | .anthropic _ => .anthropic
  | .openAi _ => .openAiCompatible

@[simp] theorem kind_new (kind : ProviderKind) (provider model : String) :
    (new kind provider model).kind = kind := by
  cases kind <;> rfl

end Decoder

/-- The error a frame reports, in the provider's dialect. -/
def frameError [SerdeJson] (kind : ProviderKind) (data : String) : Option String :=
  match kind with
  | .anthropic => Anthropic.frameError data
  | .openAiCompatible => OpenAi.frameError data

/-! ### What a frame does -/

/-- What a frame does to an open turn. -/
inductive Outcome [SerdeJson] (s : TurnState) (reported : Option String) (events : List LlmEvent)
    (s' : TurnState) : Prop
  | streamed (h : Streamed s events s')
  | completed (h : Ending s none events)
  | failed (error : String) (hreported : reported = some error) (h : Ending s (some error) events)

section

variable [SerdeJson]

namespace Anthropic

/-- What a step does to the turn of a decoder. -/
def StreamedAt (d : Decoder) (events : List LlmEvent) (d' : Decoder) : Prop :=
  Streamed d.state events d'.state

theorem StreamedAt.chains : Chains StreamedAt where
  refl d := Streamed.chains.refl d.state
  trans h h' := Streamed.chains.trans h h'

theorem streamedAt_onState {f : Emits TurnState LlmEvent} (h : Keeps Streamed f) :
    Keeps StreamedAt (onState f) := fun d => h d.state

theorem streamed_messageStart (frame : Value) : Keeps Streamed (messageStart frame) :=
  .andThen Streamed.chains (streamed_start _ _)
    (.ifSome Streamed.chains (fun _ => streamed_setUsage _) _)

theorem streamedAt_blockStart (index : ℕ) (frame : Value) :
    Keeps StreamedAt (blockStart index frame) := by
  refine .andThen StreamedAt.chains (fun d => Streamed.chains.refl d.state) ?_
  split_ifs
  · exact .skip StreamedAt.chains
  · exact streamedAt_onState (streamed_announce _ _ _)

theorem streamed_blockDelta (index : ℕ) (frame : Value) :
    Keeps Streamed (blockDelta index frame) := by
  refine .ifSome Streamed.chains (fun delta => ?_) _
  dsimp only
  split_ifs
  · exact streamed_text _
  · exact streamed_reasoning _
  · exact streamed_arguments _ _
  · exact .skip Streamed.chains

theorem streamedAt_blockStop (index : ℕ) : Keeps StreamedAt (blockStop index) := by
  intro d
  unfold blockStop
  split
  · exact streamedAt_onState (streamed_settle index) d
  · exact .noted rfl rfl rfl ⟨rfl, rfl⟩ ⟨rfl, rfl, rfl⟩
  · exact StreamedAt.chains.refl d

theorem streamed_messageDelta (frame : Value) : Keeps Streamed (messageDelta frame) :=
  .andThen Streamed.chains
    (.ifSome Streamed.chains (fun _ => streamed_setFinish _) _)
    (.ifSome Streamed.chains (fun _ => streamed_setUsage _) _)

theorem handle_outcome {d : Decoder} (hopen : d.state.completed = false) (frame : Value) :
    Outcome d.state (reported frame) (handle frame d).1 (handle frame d).2.state := by
  unfold handle
  split_ifs with hstart hblock hdelta hstop hmessage hend hfailed
  · exact .streamed (streamedAt_onState (streamed_messageStart frame) d)
  · exact .streamed (streamedAt_blockStart _ frame d)
  · exact .streamed (streamedAt_onState (streamed_blockDelta _ frame) d)
  · exact .streamed (streamedAt_blockStop _ d)
  · exact .streamed (streamedAt_onState (streamed_messageDelta frame) d)
  · exact .completed (ending_complete hopen)
  · refine .failed _ (if_pos ?_) (ending_fail hopen _)
    cases hname : textAt frame ["type"] with
    | none => simp [hname] at hfailed
    | some name => simpa [hname] using hfailed
  · exact .streamed (StreamedAt.chains.refl d)

theorem push_outcome {data : String} {d d' : Decoder} {events : List LlmEvent}
    (hopen : d.state.completed = false) (h : push data d = .ok (events, d')) :
    Outcome d.state (frameError data) events d'.state := by
  unfold push at h
  unfold frameError
  split at h
  · cases h
  · rename_i frame _
    have houtcome := handle_outcome hopen frame
    rwa [Except.ok.inj h] at houtcome

end Anthropic

namespace OpenAi

theorem streamed_toolCall (call : Value) (position : ℕ) :
    Keeps Streamed (toolCall call position) :=
  .andThen Streamed.chains (streamed_announce _ _ _)
    (.ifSome Streamed.chains (streamed_arguments _) _)

theorem streamed_delta (value : Value) : Keeps Streamed (delta value) :=
  .andThen Streamed.chains (.ifSome Streamed.chains streamed_text _)
    (.andThen Streamed.chains
      (.each Streamed.chains (fun _ => .ifSome Streamed.chains streamed_reasoning _) _)
      (.each Streamed.chains (fun _ => streamed_toolCall _ _) _))

theorem streamed_chunk (value : Value) : Keeps Streamed (chunk value) := by
  refine .andThen Streamed.chains (streamed_start _ _) (.andThen Streamed.chains ?_ ?_)
  · exact .ifSome Streamed.chains (fun _ => streamed_setUsage _) _
  · refine .ifSome Streamed.chains (fun choice => .andThen Streamed.chains ?_ ?_) _
    · exact .ifSome Streamed.chains streamed_delta _
    · exact .ifSome Streamed.chains (fun _ => streamed_setFinish _) _

theorem handle_outcome {s : TurnState} (hopen : s.completed = false) (value : Value) :
    Outcome s ((value.get "error").map errorMessage) (handle value s).1 (handle value s).2 := by
  unfold handle
  cases value.get "error" with
  | some error => exact .failed _ rfl (ending_fail hopen _)
  | none => exact .streamed (streamed_chunk value s)

theorem push_outcome {data : String} {d d' : Decoder} {events : List LlmEvent}
    (hopen : d.state.completed = false) (h : push data d = .ok (events, d')) :
    Outcome d.state (frameError data) events d'.state := by
  unfold push at h
  unfold frameError
  dsimp only at h
  split_ifs at h ⊢
  · obtain ⟨rfl, rfl⟩ := Prod.mk.inj (Except.ok.inj h)
    exact .completed (ending_complete hopen)
  · split at h
    · cases h
    · rename_i value _
      obtain ⟨rfl, rfl⟩ := Prod.mk.inj (Except.ok.inj h)
      exact handle_outcome hopen value

end OpenAi

/-- **What a frame does.**  A frame of an open turn that parses streams, completes the turn,
or fails it with the error it reports; the dialect stays. -/
theorem Decoder.push_outcome {data : String} {d d' : Decoder} {events : List LlmEvent}
    (hopen : d.state.completed = false) (h : d.push data = .ok (events, d')) :
    d'.kind = d.kind ∧ Outcome d.state (frameError d.kind data) events d'.state := by
  cases d with
  | anthropic decoder =>
    obtain ⟨⟨more, decoder'⟩, hpush, hpair⟩ := map_ok_iff.mp h
    obtain ⟨rfl, rfl⟩ := Prod.mk.inj hpair
    exact ⟨rfl, Anthropic.push_outcome hopen hpush⟩
  | openAi decoder =>
    obtain ⟨⟨more, decoder'⟩, hpush, hpair⟩ := map_ok_iff.mp h
    obtain ⟨rfl, rfl⟩ := Prod.mk.inj hpair
    exact ⟨rfl, OpenAi.push_outcome hopen hpush⟩

end

end PersonalAgent.Llm
