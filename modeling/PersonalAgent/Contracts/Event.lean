/-
# Event envelopes

`crates/contracts/src/lib.rs` and the message `EventEnvelope` of
`contracts/proto/events.proto`.  The payload of an envelope is a byte string that
should be JSON; the program only ever decodes it, so an envelope carries the document
the bytes decode to, or nothing when they do not decode.

The id and the time of a new envelope come from `Uuid::now_v7` and `Utc::now`; a
`Stamp` is what those returned.  Parsing a time is `chrono`'s, which the repository
does not contain: it is the parameter `Chrono`.
-/

import PersonalAgent.Contracts.Value

namespace PersonalAgent

def eventSchemaVersion : ℕ := 1

/-- `EventEnvelope` of the versioned protobuf source. -/
structure EventEnvelope where
  schemaVersion : ℕ
  eventId : String
  wallClockTimestamp : String
  monotonicSequence : ℕ
  origin : String
  profileId : String
  sessionId : Option String
  goalId : Option Text
  taskId : Option Text
  agentId : Option String
  type : String
  payloadJson : Option Value

/-- Failure to construct or inspect a domain event. -/
inductive EventError where
  | json
  | timestamp
  deriving DecidableEq, Repr

/-- What the id generator and the clock return for one event. -/
structure Stamp where
  eventId : String
  timestamp : String
  deriving DecidableEq, Repr

/-- `DateTime::parse_from_rfc3339(..)`, brought to UTC. -/
class Chrono where
  parseFromRfc3339 : String → Option DateTime

/-- `DateTime<Utc>` compares by the instant. -/
class Instants where
  nanos : DateTime → ℤ

namespace EventEnvelope

/-- Construct an event with stable metadata and a JSON payload. -/
def new (stamp : Stamp) (sequence : ℕ) (origin profileId eventType : String) (payload : Value) :
    EventEnvelope where
  schemaVersion := eventSchemaVersion
  eventId := stamp.eventId
  wallClockTimestamp := stamp.timestamp
  monotonicSequence := sequence
  origin := origin
  profileId := profileId
  sessionId := none
  goalId := none
  taskId := none
  agentId := none
  type := eventType
  payloadJson := some payload

/-- Decode the untrusted payload without interpreting the event type. -/
def payload (event : EventEnvelope) : Except EventError Value :=
  match event.payloadJson with
  | some v => .ok v
  | none => .error .json

/-- Parse the wall-clock timestamp for ordering and display. -/
def timestamp [Chrono] (event : EventEnvelope) : Except EventError DateTime :=
  match Chrono.parseFromRfc3339 event.wallClockTimestamp with
  | some at_ => .ok at_
  | none => .error .timestamp

end EventEnvelope
end PersonalAgent
