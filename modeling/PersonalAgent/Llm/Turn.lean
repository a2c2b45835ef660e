/-
# One streamed turn

`crates/llm/src/turn.rs`, the accumulator shared by the provider decoders.  Text, reasoning
and the argument fragments of tool calls arrive interleaved; `TurnState` assembles them and
says with which events.  Its operations are steps that emit (`Lib.Emits`).

`Streamed` says once what a step before the end of the turn does: the assembled text and
reasoning grow by exactly the fragments handed out, no event ends the turn, and the only
error among the events is that of unreadable tool arguments.  `Ending` says with what a turn
ends.
-/

import PersonalAgent.Contracts.Json
import PersonalAgent.Lib.Emit
import PersonalAgent.Llm.Event

namespace PersonalAgent.Llm

open Lib List

/-- A tool call being assembled from argument fragments. -/
structure ToolCallBuilder where
  callId : String := ""
  tool : String := ""
  arguments : String := ""
  announced : Bool := false
  settled : Bool := false

/-- Streaming state for one turn. -/
structure TurnState where
  provider : String
  model : String
  started : Bool := false
  message : AssistantMessage := {}
  calls : List ToolCallBuilder := []
  usage : Usage := {}
  finish : Option FinishReason := none
  completed : Bool := false

/-- `u32::try_from(index).unwrap_or(u32::MAX)`. -/
def indexAsU32 (index : ℕ) : ℕ := min index (2 ^ 32 - 1)

/-- Parse streamed arguments, treating an empty stream as an empty object. -/
def parseArguments [SerdeJson] (raw : String) : Except String Value :=
  if (Core.trim raw).isEmpty then .ok (.object [])
  else (SerdeJson.fromStr raw).mapError ("tool arguments are not valid JSON: " ++ ·)

namespace TurnState

def new (provider model : String) : TurnState where
  provider := provider
  model := model

/-- A change through `usage_mut`. -/
def setUsage (f : Usage → Usage) : Emits TurnState LlmEvent :=
  Emits.update fun s => { s with usage := f s.usage }

def setFinish (reason : FinishReason) : Emits TurnState LlmEvent :=
  Emits.update fun s => { s with finish := some reason }

/-- Emit `response.started` exactly once, adopting the served model name. -/
def start (model responseId : Option String) : Emits TurnState LlmEvent := fun s =>
  if s.started then ([], s)
  else
    let s := { s with started := true, model := (model.filter (!·.isEmpty)).getD s.model }
    ([.responseStarted s.provider s.model responseId], s)

def text (delta : String) : Emits TurnState LlmEvent := fun s =>
  if delta.isEmpty then ([], s)
  else ([.responseDelta delta],
    { s with message := { s.message with text := s.message.text ++ delta } })

def reasoning (delta : String) : Emits TurnState LlmEvent := fun s =>
  if delta.isEmpty then ([], s)
  else ([.reasoningAvailable delta],
    { s with message := { s.message with reasoning := s.message.reasoning ++ delta } })

/-- The calls, with as many fresh ones behind them as it takes to reach the index, which the
provider chooses; their allocation is taken to succeed. -/
def slots (index : ℕ) (s : TurnState) : List ToolCallBuilder :=
  s.calls ++ List.replicate (index + 1 - s.calls.length) ({} : ToolCallBuilder)

/-- The call at an index, after `slots`. -/
def slot (index : ℕ) (s : TurnState) : ToolCallBuilder := (s.slots index).getD index {}

def setSlot (index : ℕ) (call : ToolCallBuilder) (s : TurnState) : TurnState :=
  { s with calls := (s.slots index).set index call }

/-- Record a call's identity, emitting `tool.started` once it is known. -/
def announce (index : ℕ) (callId tool : Option String) : Emits TurnState LlmEvent := fun s =>
  let slot := s.slot index
  let slot := { slot with
    callId := (callId.filter (!·.isEmpty)).getD slot.callId
    tool := (tool.filter (!·.isEmpty)).getD slot.tool }
  if slot.announced || slot.tool.isEmpty then ([], s.setSlot index slot)
  else ([.toolCallStarted (indexAsU32 index) slot.callId slot.tool],
    s.setSlot index { slot with announced := true })

/-- Append an argument fragment, emitting `tool.progress`. -/
def arguments (index : ℕ) (fragment : String) : Emits TurnState LlmEvent := fun s =>
  if fragment.isEmpty then ([], s)
  else
    let slot := s.slot index
    ([.toolCallProgress (indexAsU32 index) slot.callId slot.tool fragment],
      s.setSlot index { slot with arguments := slot.arguments ++ fragment })

/-- Close one call: parse its arguments and record it on the message. -/
def settle [SerdeJson] (index : ℕ) : Emits TurnState LlmEvent := fun s =>
  let slot := s.slot index
  if slot.settled || (slot.tool.isEmpty && slot.arguments.isEmpty) then ([], s.setSlot index slot)
  else
    let s := s.setSlot index { slot with settled := true }
    match parseArguments slot.arguments with
    | .ok arguments =>
      let call : ToolCall := { callId := slot.callId, tool := slot.tool, arguments }
      ([.toolCallReady (indexAsU32 index) call],
        { s with message := { s.message with toolCalls := s.message.toolCalls ++ [call] } })
    | .error error => ([.toolCallFailed (indexAsU32 index) slot.callId slot.tool error], s)

/-- Terminate the turn: settle every open call, then report the step and the terminal
completion. -/
def complete [SerdeJson] : Emits TurnState LlmEvent := fun s =>
  if s.completed then ([], s)
  else
    let (events, s) := Emits.each settle (List.range s.calls.length) { s with completed := true }
    let finish := match s.finish with
      | some finish => finish
      | none => if s.message.toolCalls.isEmpty then .stop else .toolCalls
    (events ++ [.responseStepCompleted finish s.usage, .responseCompleted finish s.usage s.message],
      s)

/-- Terminate the turn with a failure, preserving whatever was billed. -/
def fail (error : String) : Emits TurnState LlmEvent := fun s =>
  if s.completed then ([], s)
  else ([.responseFailed error s.usage], { s with completed := true })

end TurnState

/-! ### What an event carries -/

namespace LlmEvent

/-- The fragment of visible text. -/
def deltaText : LlmEvent → String
  | .responseDelta text => text
  | _ => ""

/-- The fragment of reasoning. -/
def reasoningText : LlmEvent → String
  | .reasoningAvailable text => text
  | _ => ""

def isRetrying : LlmEvent → Bool
  | .responseRetrying .. => true
  | _ => false

def errorText : LlmEvent → Option String
  | .responseRetrying _ _ reason => some reason
  | .toolCallFailed _ _ _ error => some error
  | .responseFailed error _ => some error
  | _ => none

end LlmEvent

/-- The visible text handed out. -/
def deltas (events : List LlmEvent) : String := (events.map (·.deltaText)).foldr (· ++ ·) ""

/-- The reasoning handed out. -/
def thoughts (events : List LlmEvent) : String := (events.map (·.reasoningText)).foldr (· ++ ·) ""

theorem foldr_append_append (l l' : List String) :
    (l ++ l').foldr (· ++ ·) "" = l.foldr (· ++ ·) "" ++ l'.foldr (· ++ ·) "" := by
  induction l with
  | nil => simp
  | cons text l ih => simp [ih, String.append_assoc]

theorem deltas_append (events more : List LlmEvent) :
    deltas (events ++ more) = deltas events ++ deltas more := by
  unfold deltas
  rw [map_append, foldr_append_append]

theorem thoughts_append (events more : List LlmEvent) :
    thoughts (events ++ more) = thoughts events ++ thoughts more := by
  unfold thoughts
  rw [map_append, foldr_append_append]

/-! ### What a step does -/

/-- The error of tool arguments that do not parse. -/
def ArgumentError [SerdeJson] (text : String) : Prop :=
  ∃ raw error, SerdeJson.fromStr raw = .error error ∧
    text = "tool arguments are not valid JSON: " ++ error

/-- What a step before the end of the turn does. -/
structure Streamed [SerdeJson] (s : TurnState) (events : List LlmEvent) (s' : TurnState) :
    Prop where
  text : s'.message.text = s.message.text ++ deltas events
  reasoning : s'.message.reasoning = s.message.reasoning ++ thoughts events
  completed : s'.completed = s.completed
  quiet : ∀ e ∈ events, e.isTerminal = false ∧ e.isRetrying = false
  errors : ∀ e ∈ events, ∀ text, e.errorText = some text → ArgumentError text

/-- A step that emits nothing and leaves the assembled text alone. -/
theorem Streamed.silent [SerdeJson] {s s' : TurnState} (htext : s'.message.text = s.message.text)
    (hreasoning : s'.message.reasoning = s.message.reasoning)
    (hcompleted : s'.completed = s.completed) : Streamed s [] s' where
  text := by rw [htext]; exact (String.append_empty).symm
  reasoning := by rw [hreasoning]; exact (String.append_empty).symm
  completed := hcompleted
  quiet := fun e he => absurd he not_mem_nil
  errors := fun e he => absurd he not_mem_nil

/-- A step that emits one event. -/
theorem Streamed.single [SerdeJson] {s s' : TurnState} {event : LlmEvent}
    (htext : s'.message.text = s.message.text ++ event.deltaText)
    (hreasoning : s'.message.reasoning = s.message.reasoning ++ event.reasoningText)
    (hcompleted : s'.completed = s.completed)
    (hquiet : event.isTerminal = false ∧ event.isRetrying = false)
    (herror : ∀ text, event.errorText = some text → ArgumentError text) :
    Streamed s [event] s' where
  text := by rw [htext]; exact congrArg _ (String.append_empty).symm
  reasoning := by rw [hreasoning]; exact congrArg _ (String.append_empty).symm
  completed := hcompleted
  quiet := fun e he => by rwa [mem_singleton.mp he]
  errors := fun e he => by rwa [mem_singleton.mp he]

theorem Streamed.noted [SerdeJson] {s s' : TurnState} {event : LlmEvent}
    (htext : s'.message.text = s.message.text)
    (hreasoning : s'.message.reasoning = s.message.reasoning)
    (hcompleted : s'.completed = s.completed)
    (hquiet : event.isTerminal = false ∧ event.isRetrying = false)
    (hplain : event.deltaText = "" ∧ event.reasoningText = "" ∧ event.errorText = none) :
    Streamed s [event] s' := by
  obtain ⟨hdelta, hthought, herror⟩ := hplain
  refine .single ?_ ?_ hcompleted hquiet fun text h => ?_
  · rw [hdelta, htext, String.append_empty]
  · rw [hthought, hreasoning, String.append_empty]
  · rw [herror] at h
    cases h

theorem Streamed.chains [SerdeJson] : Chains Streamed where
  refl _ := .silent rfl rfl rfl
  trans h h' := {
    text := by rw [h'.text, h.text, deltas_append, String.append_assoc]
    reasoning := by rw [h'.reasoning, h.reasoning, thoughts_append, String.append_assoc]
    completed := h'.completed.trans h.completed
    quiet := fun e he => (mem_append.mp he).elim (h.quiet e) (h'.quiet e)
    errors := fun e he => (mem_append.mp he).elim (h.errors e) (h'.errors e) }

namespace TurnState

variable [SerdeJson]

theorem streamed_setUsage (f : Usage → Usage) : Keeps Streamed (setUsage f) := fun _ =>
  .silent rfl rfl rfl

theorem streamed_setFinish (reason : FinishReason) : Keeps Streamed (setFinish reason) :=
  fun _ => .silent rfl rfl rfl

theorem streamed_start (model responseId : Option String) :
    Keeps Streamed (start model responseId) := by
  intro s
  unfold start
  split_ifs
  · exact .silent rfl rfl rfl
  · exact .noted rfl rfl rfl ⟨rfl, rfl⟩ ⟨rfl, rfl, rfl⟩

theorem streamed_text (delta : String) : Keeps Streamed (text delta) := by
  intro s
  unfold text
  split_ifs
  · exact .silent rfl rfl rfl
  · exact .single rfl (String.append_empty).symm rfl ⟨rfl, rfl⟩ nofun

theorem streamed_reasoning (delta : String) : Keeps Streamed (reasoning delta) := by
  intro s
  unfold reasoning
  split_ifs
  · exact .silent rfl rfl rfl
  · exact .single (String.append_empty).symm rfl rfl ⟨rfl, rfl⟩ nofun

theorem streamed_announce (index : ℕ) (callId tool : Option String) :
    Keeps Streamed (announce index callId tool) := by
  intro s
  unfold announce
  dsimp only
  split_ifs
  · exact .silent rfl rfl rfl
  · exact .noted rfl rfl rfl ⟨rfl, rfl⟩ ⟨rfl, rfl, rfl⟩

theorem streamed_arguments (index : ℕ) (fragment : String) :
    Keeps Streamed (arguments index fragment) := by
  intro s
  unfold arguments
  split_ifs
  · exact .silent rfl rfl rfl
  · exact .noted rfl rfl rfl ⟨rfl, rfl⟩ ⟨rfl, rfl, rfl⟩

theorem argumentError_of_parse {raw error : String} (h : parseArguments raw = .error error) :
    ArgumentError error := by
  unfold parseArguments at h
  split_ifs at h
  cases hread : SerdeJson.fromStr raw with
  | ok value => rw [hread] at h; cases h
  | error text =>
    rw [hread] at h
    obtain rfl := Except.error.inj h
    exact ⟨raw, text, hread, rfl⟩

theorem streamed_settle (index : ℕ) : Keeps Streamed (settle index) := by
  intro s
  unfold settle
  dsimp only
  split_ifs
  · exact .silent rfl rfl rfl
  · split
    · exact .noted rfl rfl rfl ⟨rfl, rfl⟩ ⟨rfl, rfl, rfl⟩
    · rename_i error herror
      refine .single (String.append_empty).symm (String.append_empty).symm rfl ⟨rfl, rfl⟩ ?_
      intro text htext
      obtain rfl := Option.some.inj htext
      exact argumentError_of_parse herror

end TurnState

/-- With what a turn ends, from a state: a completion with the assembled message, after the
calls that were still open and the report of the step, or a failure with its error. -/
inductive Ending [SerdeJson] (s : TurnState) : Option String → List LlmEvent → Prop
  | completed {body : List LlmEvent} {s' : TurnState} (finish : FinishReason) (usage : Usage)
      (h : Streamed { s with completed := true } body s') :
      Ending s none (body ++ [.responseCompleted finish usage s'.message])
  | failed (error : String) (usage : Usage) : Ending s (some error) [.responseFailed error usage]

namespace TurnState

variable [SerdeJson] {s : TurnState}

theorem ending_complete (hopen : s.completed = false) : Ending s none (complete s).1 := by
  unfold complete
  rw [if_neg (by rw [hopen]; exact Bool.false_ne_true)]
  have hcalls := Keeps.each Streamed.chains streamed_settle (List.range s.calls.length)
    { s with completed := true }
  have hreport (finish : FinishReason) (usage : Usage) (s' : TurnState) :
      Streamed s' [.responseStepCompleted finish usage] s' :=
    .noted rfl rfl rfl ⟨rfl, rfl⟩ ⟨rfl, rfl, rfl⟩
  dsimp only
  rw [append_cons]
  exact .completed _ _ (Streamed.chains.trans hcalls (hreport _ _ _))

theorem ending_fail (hopen : s.completed = false) (error : String) :
    Ending s (some error) (fail error s).1 := by
  unfold fail
  rw [if_neg (by rw [hopen]; exact Bool.false_ne_true)]
  exact .failed error s.usage

end TurnState
end PersonalAgent.Llm
