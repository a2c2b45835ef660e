/-
# Upstream events and their normalized form

`crates/runtime/src/lib.rs` (`selected_properties`, `normalize_upstream_event`,
`upstream_session_id`): an event of the sidecar is turned into one of the program's own
events.  Its payload holds the properties that are named for its kind and nothing else.

The kinds that only pick properties differ in the event type, in the names and in whether
the turn is over; they are the rows of `reviewedKinds`.  The events about message parts and
`session.status` look further into the event and have functions of their own.
-/

import PersonalAgent.Contracts.Event

namespace PersonalAgent.Runtime

/-! ### Reading an event -/

/-- `Value::pointer`, for paths of names. -/
def pointer (v : Value) : List String → Option Value
  | [] => some v
  | name :: path => (v.get name).bind fun field => pointer field path

/-- `v.and_then(Value::as_str)`. -/
def textOf (v : Option Value) : Option String := (v.bind Value.asStr).map Text.spelling

/-- `v.unwrap_or(&Value::Null)`. -/
def orNull (v : Option Value) : Value := v.getD .null

/-- The session an upstream event belongs to. -/
def upstreamSessionId (upstream : Value) : Option String :=
  textOf ((pointer upstream ["properties", "sessionID"]).or
    ((pointer upstream ["properties", "part", "sessionID"]).or
      (pointer upstream ["properties", "info", "sessionID"])))

/-- The named properties that are there. -/
def selectedProperties (properties : Value) (names : List String) : Value :=
  .object (names.filterMap fun name => (properties.get name).map fun value => (name, value))

/-! ### The kinds -/

/-- What an upstream event becomes: the type and the payload of the event, and whether it ends
the turn. -/
structure Normalized where
  eventType : String
  payload : Value
  terminal : Bool := false

/-- An upstream kind of which named properties are kept. -/
structure Reviewed where
  eventType : String
  names : List String
  terminal : Bool := false

def reviewedKinds : List (String × Reviewed) :=
  [("session.next.text.delta",
      ⟨"response.delta", ["assistantMessageID", "textID", "delta"], false⟩),
    ("session.next.reasoning.started",
      ⟨"reasoning.available", ["assistantMessageID", "reasoningID"], false⟩),
    ("session.next.reasoning.delta",
      ⟨"reasoning.available", ["assistantMessageID", "reasoningID"], false⟩),
    ("session.next.reasoning.ended",
      ⟨"reasoning.completed", ["assistantMessageID", "reasoningID"], false⟩),
    ("session.next.tool.called",
      ⟨"tool.started", ["assistantMessageID", "callID", "tool", "provider"], false⟩),
    ("session.next.tool.input.started",
      ⟨"tool.progress", ["assistantMessageID", "callID", "tool"], false⟩),
    ("session.next.tool.input.delta",
      ⟨"tool.progress", ["assistantMessageID", "callID", "tool"], false⟩),
    ("session.next.tool.input.ended",
      ⟨"tool.progress", ["assistantMessageID", "callID", "tool"], false⟩),
    ("session.next.tool.progress",
      ⟨"tool.progress", ["assistantMessageID", "callID", "tool"], false⟩),
    ("session.next.tool.success",
      ⟨"tool.completed", ["assistantMessageID", "callID", "outputPaths", "provider"], false⟩),
    ("session.next.tool.failed",
      ⟨"tool.failed", ["assistantMessageID", "callID", "tool"], false⟩),
    ("permission.v2.asked", ⟨"approval.requested",
      ["id", "action", "permission", "resources", "patterns", "save"], false⟩),
    ("permission.asked", ⟨"approval.requested",
      ["id", "action", "permission", "resources", "patterns", "save"], false⟩),
    ("question.v2.asked", ⟨"clarification.requested", ["id", "questions"], false⟩),
    ("question.asked", ⟨"clarification.requested", ["id", "questions"], false⟩),
    ("session.next.step.started", ⟨"response.started", ["assistantMessageID"], false⟩),
    ("session.next.step.ended", ⟨"response.step_completed",
      ["assistantMessageID", "finish", "cost", "tokens", "files"], false⟩),
    ("session.next.step.failed", ⟨"response.failed", ["assistantMessageID", "error"], true⟩),
    ("session.error", ⟨"response.failed", ["assistantMessageID", "error"], true⟩)]

/-- `message.part.delta`: shown as text, announced as reasoning or only counted, by the type of
its part as far as it is known. -/
def normalizeDelta (properties : Value) (knownPartType : Option String) : Normalized :=
  if knownPartType = some "text" then
    ⟨"response.delta", selectedProperties properties ["messageID", "partID", "delta"], false⟩
  else if knownPartType = some "reasoning" then
    ⟨"reasoning.available", selectedProperties properties ["messageID", "partID"], false⟩
  else
    ⟨"runtime.upstream_event", .object [("upstream_type", .ofStr "message.part.delta")], false⟩

def toolEventType (status : String) : String :=
  if status = "running" then "tool.started"
  else if status = "completed" then "tool.completed"
  else if status = "error" then "tool.failed"
  else "tool.progress"

/-- The part types of which named properties are kept. -/
def reviewedParts : List (String × Reviewed) :=
  [("reasoning", ⟨"reasoning.available", ["messageID", "id"], false⟩),
    ("step-start", ⟨"response.started", ["messageID", "id"], false⟩),
    ("step-finish", ⟨"response.step_completed", ["messageID", "reason", "cost", "tokens"], false⟩),
    ("text", ⟨"response.text_state", ["messageID", "id", "time"], false⟩)]

/-- `message.part.updated`. -/
def normalizePart (part : Value) : Normalized :=
  let partType := (textOf (part.get "type")).getD "unknown"
  if partType = "tool" then
    let status := (textOf (pointer part ["state", "status"])).getD "unknown"
    ⟨toolEventType status, .object [("assistantMessageID", orNull (part.get "messageID")),
      ("callID", orNull (part.get "callID")), ("tool", orNull (part.get "tool")),
      ("status", .ofStr status)], false⟩
  else match reviewedParts.lookup partType with
    | some kind => ⟨kind.eventType, selectedProperties part kind.names, kind.terminal⟩
    | none => ⟨"runtime.upstream_event", .object [("upstream_type", .ofStr "message.part.updated"),
        ("part_type", .ofStr partType)], false⟩

/-- `session.status`. -/
def normalizeStatus (properties : Value) : Normalized :=
  let status := (textOf (pointer properties ["status", "type"])).getD "unknown"
  if status = "idle" then
    ⟨"response.completed", .object [("terminal", .bool true), ("source", .ofStr "session.status")],
      true⟩
  else if status = "retry" then
    ⟨"response.retrying",
      selectedProperties (orNull (properties.get "status")) ["attempt", "message", "next"], false⟩
  else if status = "busy" then
    ⟨"response.started", .object [("source", .ofStr "session.status")], false⟩
  else
    ⟨"runtime.upstream_event", .object [("upstream_type", .ofStr "session.status"),
      ("status", .ofStr status)], false⟩

def upstreamType (upstream : Value) : String := (textOf (upstream.get "type")).getD "unknown"

/-- The `match` of `normalize_upstream_event`. -/
def normalizeKind (upstream : Value) (knownPartType : Option String) : Normalized :=
  let properties := orNull (upstream.get "properties")
  if upstreamType upstream = "message.part.delta" then normalizeDelta properties knownPartType
  else if upstreamType upstream = "message.part.updated" then
    normalizePart (orNull (properties.get "part"))
  else if upstreamType upstream = "session.status" then normalizeStatus properties
  else if upstreamType upstream = "session.idle" then
    ⟨"response.completed", .object [("terminal", .bool true)], true⟩
  else match reviewedKinds.lookup (upstreamType upstream) with
    | some kind => ⟨kind.eventType, selectedProperties properties kind.names, kind.terminal⟩
    | none => ⟨"runtime.upstream_event",
        .object [("upstream_type", .ofStr (upstreamType upstream))], false⟩

def runtimeEvent (stamp : Stamp) (sequence : ℕ) (sessionId eventType : String) (payload : Value) :
    EventEnvelope :=
  { EventEnvelope.new stamp sequence "opencode" "default" eventType payload with
    sessionId := some sessionId }

def normalizeUpstreamEvent (stamp : Stamp) (sequence : ℕ) (fallbackSessionId : String)
    (upstream : Value) (knownPartType : Option String) : EventEnvelope × Bool :=
  let sessionId := (textOf ((orNull (upstream.get "properties")).get "sessionID")).getD
    fallbackSessionId
  let kind := normalizeKind upstream knownPartType
  (runtimeEvent stamp sequence sessionId kind.eventType kind.payload, kind.terminal)

/-! ### Types and ends of turns -/

/-- The types of the events that end a turn. -/
def turnEnds : List String := ["response.completed", "response.failed"]

/-- The types of the events that end the stream without ending the turn. -/
def streamEnds : List String := ["runtime.stream_error", "runtime.stream_closed"]

/-- Whether an event type says what the flag says, that the turn is over or goes on, and is not
one of the types for the stream itself. -/
def tells (eventType : String) (terminal : Bool) : Bool :=
  terminal = turnEnds.contains eventType && !streamEnds.contains eventType

theorem tells_of_lookup {kinds : List (String × Reviewed)} {name : String} {kind : Reviewed}
    (hkind : kinds.lookup name = some kind)
    (h : ∀ kind ∈ kinds, tells kind.2.eventType kind.2.terminal = true) :
    tells kind.eventType kind.terminal = true := by
  obtain ⟨before, after, rfl, -⟩ := List.lookup_eq_some_iff.mp hkind
  exact h (name, kind) (by simp)

theorem tells_toolEventType (status : String) : tells (toolEventType status) false = true := by
  unfold toolEventType
  split_ifs
  all_goals decide

/-- **Types tell the ends.**  A normalized event ends the turn exactly when its type is
`response.completed` or `response.failed`, and it is never one of the stream's own events. -/
theorem tells_normalizeKind (upstream : Value) (known : Option String) :
    tells (normalizeKind upstream known).eventType (normalizeKind upstream known).terminal =
      true := by
  unfold normalizeKind
  dsimp only
  split_ifs
  · unfold normalizeDelta
    split_ifs
    all_goals rfl
  · unfold normalizePart
    dsimp only
    split_ifs
    · exact tells_toolEventType _
    · split
      · exact tells_of_lookup ‹_› (by decide)
      · rfl
  · unfold normalizeStatus
    dsimp only
    split_ifs
    all_goals rfl
  · rfl
  · split
    · exact tells_of_lookup ‹_› (by decide)
    · rfl

/-! ### Paths into an event -/

theorem pointer_singleton (v : Value) (name : String) : pointer v [name] = v.get name := by
  change (v.get name).bind some = v.get name
  cases v.get name with
  | none => rfl
  | some field => rfl

/-- A path below a value that may be missing. -/
theorem pointer_orNull (v : Value) (path : List String) (name : String) (rest : List String) :
    pointer (orNull (pointer v path)) (name :: rest) = pointer v (path ++ name :: rest) := by
  induction path generalizing v with
  | nil => rfl
  | cons first path ih =>
    rcases hget : v.get first with _ | field
    · simp only [pointer, List.cons_append, hget]
      rfl
    · simpa only [pointer, List.cons_append, hget, Option.bind_some] using ih field

theorem get_orNull (v : Value) (path : List String) (name : String) :
    (orNull (pointer v path)).get name = pointer v (path ++ [name]) := by
  rw [← pointer_singleton, pointer_orNull]

theorem normalizeUpstreamEvent_eq {sessionId : String} {upstream : Value}
    (h : upstreamSessionId upstream = some sessionId) (stamp : Stamp) (sequence : ℕ)
    (known : Option String) : normalizeUpstreamEvent stamp sequence sessionId upstream known =
      (runtimeEvent stamp sequence sessionId (normalizeKind upstream known).eventType
        (normalizeKind upstream known).payload, (normalizeKind upstream known).terminal) := by
  have hid : (textOf ((orNull (upstream.get "properties")).get "sessionID")).getD sessionId =
      sessionId := by
    rw [← pointer_singleton upstream, get_orNull]
    unfold upstreamSessionId at h
    rcases hpointer : pointer upstream (["properties"] ++ ["sessionID"]) with _ | id
    · rfl
    · rw [show pointer upstream ["properties", "sessionID"] = some id from hpointer,
        Option.some_or] at h
      rw [h]
      rfl
  unfold normalizeUpstreamEvent
  rw [hid]

end PersonalAgent.Runtime
