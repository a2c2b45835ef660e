/-
# The event stream of the sidecar

`crates/runtime/src/lib.rs` (`frame_delimiter`, `take_sse_frame`, `parse_sse_frame`,
`forward_sse_events`): the sidecar's events arrive as server-sent events in chunks of
bytes.  Complete frames are cut out of a buffer, parsed, and the events of one session are
normalized and sent on under consecutive numbers.

The loops are those of `Lib.Framing`: `consume` is the inner one over the frames of the
buffer, `feed` the outer one over the chunks.  A transport error is an `Ending` of the
stream.  The receiver of the events is taken to stay; the id and the time of an event come
from `stamps`.
-/

import PersonalAgent.Contracts.Json
import PersonalAgent.Core.Usage
import PersonalAgent.Lib.Framing
import PersonalAgent.Lib.Lines
import PersonalAgent.Runtime.Upstream

namespace PersonalAgent.Runtime

open Lib

/-! ### Frames -/

/-- `b"\n\n"` and `b"\r\n\r\n"`. -/
def lfDelimiter : List UInt8 := [10, 10]

def crlfDelimiter : List UInt8 := [13, 10, 13, 10]

/-- Where the first frame ends, and how long the delimiter after it is. -/
def frameDelimiter (buffer : List UInt8) : Option (ℕ × ℕ) :=
  match positionOf lfDelimiter buffer, positionOf crlfDelimiter buffer with
  | some lf, some crlf => if lf ≤ crlf then some (lf, 2) else some (crlf, 4)
  | some lf, none => some (lf, 2)
  | none, some crlf => some (crlf, 4)
  | none, none => none

def takeSseFrame (buffer : List UInt8) : Option (List UInt8 × List UInt8) :=
  (frameDelimiter buffer).map fun (at_, length) => (buffer.take at_, buffer.drop (at_ + length))

/-- The text after `data:` in a line. -/
def dataOf (line : String) : Option String :=
  (Core.stripped "data:" (String.ofList (line.toList.rdropWhile (· = '\x0d')))).map fun data =>
    String.ofList (data.toList.dropWhile Core.isWhitespace)

/-- The event in a frame; none in a comment, a keep-alive and the end mark. -/
def parseSseFrame [SerdeJson] (frame : List UInt8) : Except String (Option Value) :=
  match fromUtf8 frame with
  | none => .error "OpenCode event stream was not UTF-8"
  | some text =>
    let data := "\n".intercalate ((lines text).filterMap dataOf)
    if data = "" || data = "[DONE]" then .ok none
    else match SerdeJson.fromStr data with
      | .error _ => .error "OpenCode event frame was not JSON"
      | .ok outer =>
        match textOf (outer.get "data") with
        | none => .ok (some outer)
        | some inner =>
          match SerdeJson.fromStr inner with
          | .error _ => .error "OpenCode durable event was not JSON"
          | .ok event => .ok (some event)

/-! ### The forwarding loop -/

/-- What the loop carries from frame to frame. -/
structure Forwarder where
  partTypes : BTreeMap String String := {}
  sequence : ℕ

/-- A `message.part.updated` event tells the type of its part. -/
def learnPartType (partTypes : BTreeMap String String) (upstream : Value) :
    BTreeMap String String :=
  if textOf (upstream.get "type") = some "message.part.updated" then
    match textOf (pointer upstream ["properties", "part", "id"]),
        textOf (pointer upstream ["properties", "part", "type"]) with
    | some partId, some partType => partTypes.insert partId partType
    | _, _ => partTypes
  else partTypes

/-- The type of the part that an event is about. -/
def knownPartType (partTypes : BTreeMap String String) (upstream : Value) : Option String :=
  (textOf (pointer upstream ["properties", "partID"])).bind fun partId => partTypes[partId]?

/-- How the stream ends: the body is over, or the transport fails. -/
inductive Ending where
  | closed
  | failed
  deriving DecidableEq, Repr

section

variable [SerdeJson] (stamps : ℕ → Stamp) (sessionId : String)

def streamEvent (sequence : ℕ) (eventType : String) (payload : Value) : EventEnvelope :=
  runtimeEvent (stamps sequence) sequence sessionId eventType payload

/-- One round of the inner loop. -/
def forwardFrame : Framing.Machine Forwarder (List UInt8) EventEnvelope := fun st frame =>
  match parseSseFrame frame with
  | .error _ => ([streamEvent stamps sessionId st.sequence "runtime.stream_error"
      (.object [("reason", .ofStr "invalid event frame")])], none)
  | .ok none => ([], some st)
  | .ok (some upstream) =>
    if upstreamSessionId upstream ≠ some sessionId then ([], some st)
    else
      let partTypes := learnPartType st.partTypes upstream
      let normalized := normalizeUpstreamEvent (stamps st.sequence) st.sequence sessionId upstream
        (knownPartType partTypes upstream)
      ([normalized.1],
        if normalized.2 then none else some { partTypes, sequence := st.sequence + 1 })

/-- The event after the last chunk. -/
def endEvent (ending : Ending) (st : Forwarder) : EventEnvelope :=
  match ending with
  | .closed => streamEvent stamps sessionId st.sequence "runtime.stream_closed"
      (.object [("terminal", .bool true), ("completed", .bool false)])
  | .failed => streamEvent stamps sessionId st.sequence "runtime.stream_error"
      (.object [("recoverable", .bool true)])

/-- The event when the buffer has grown too large. -/
def overflowEvent (st : Forwarder) : EventEnvelope :=
  streamEvent stamps sessionId st.sequence "runtime.stream_error"
    (.object [("reason", .ofStr "frame exceeded 1 MiB")])

/-- One mebibyte. -/
def bufferLimit : ℕ := 1048576

def sseReader (ending : Ending) : Framing.Reader Forwarder (List UInt8) EventEnvelope where
  step := forwardFrame stamps sessionId
  limit := bufferLimit
  overflow st := [overflowEvent stamps sessionId st]
  finish st := [endEvent stamps sessionId ending st]

end

/-! ### The framing -/

theorem frameDelimiter_le {buffer : List UInt8} {at_ length : ℕ}
    (h : frameDelimiter buffer = some (at_, length)) :
    at_ + length ≤ buffer.length ∧ 0 < length := by
  unfold frameDelimiter at h
  have hlf {k : ℕ} (hk : positionOf lfDelimiter buffer = some k) : k + 2 ≤ buffer.length :=
    positionOf_le hk
  have hcrlf {k : ℕ} (hk : positionOf crlfDelimiter buffer = some k) : k + 4 ≤ buffer.length :=
    positionOf_le hk
  rcases hl : positionOf lfDelimiter buffer with _ | lf <;>
    rcases hc : positionOf crlfDelimiter buffer with _ | crlf <;>
    simp only [hl, hc] at h
  · cases h
  · cases h
    exact ⟨hcrlf hc, by omega⟩
  · cases h
    exact ⟨hlf hl, by omega⟩
  · split_ifs at h
    · cases h
      exact ⟨hlf hl, by omega⟩
    · cases h
      exact ⟨hcrlf hc, by omega⟩

/-- A delimiter that more bytes complete does not come before one that was complete. -/
theorem lf_le_crlf {buffer more : List UInt8} {lf crlf : ℕ}
    (hl : positionOf lfDelimiter buffer = some lf) (hc : positionOf crlfDelimiter buffer = none)
    (hmore : positionOf crlfDelimiter (buffer ++ more) = some crlf) : lf ≤ crlf := by
  have hnew : buffer.length < crlf + 4 := positionOf_new (by decide) hc hmore
  have hroom : lf + 2 ≤ buffer.length := positionOf_le hl
  by_contra hlt
  -- the two would overlap: a line feed of one is the carriage return of the other
  have heq : lf = crlf + 1 := by omega
  have hline := positionOf_spec hl
  have hreturn := positionOf_spec hmore
  obtain ⟨tail, htail⟩ := hline.trans ((List.prefix_append buffer more).drop lf)
  obtain ⟨tail', htail'⟩ := hreturn
  rw [heq, ← List.drop_drop, ← htail'] at htail
  simp [lfDelimiter, crlfDelimiter] at htail

/-- **A frame does not change with what comes after it.** -/
theorem frameDelimiter_append {buffer : List UInt8} {end_ : ℕ × ℕ}
    (h : frameDelimiter buffer = some end_) (more : List UInt8) :
    frameDelimiter (buffer ++ more) = some end_ := by
  unfold frameDelimiter at h ⊢
  rcases hl : positionOf lfDelimiter buffer with _ | lf
  · rcases hc : positionOf crlfDelimiter buffer with _ | crlf
    · simp only [hl, hc] at h
      cases h
    · simp only [hl, hc] at h
      rw [positionOf_append hc more]
      rcases hl' : positionOf lfDelimiter (buffer ++ more) with _ | lf
      · exact h
      · have hnew : buffer.length < lf + 2 := positionOf_new (by decide) hl hl'
        have hroom : crlf + 4 ≤ buffer.length := positionOf_le hc
        dsimp only
        rw [if_neg (by omega)]
        exact h
  · rw [positionOf_append hl more]
    rcases hc : positionOf crlfDelimiter buffer with _ | crlf
    · simp only [hl, hc] at h
      rcases hc' : positionOf crlfDelimiter (buffer ++ more) with _ | crlf
      · exact h
      · dsimp only
        rw [if_pos (lf_le_crlf hl hc hc')]
        exact h
    · simp only [hl, hc] at h
      rw [positionOf_append hc more]
      exact h

/-- Server-sent events as a framing. -/
def sseFraming : Framing UInt8 (List UInt8) where
  take := takeSseFrame
  extend {buffer frame rest} h more := by
    obtain ⟨⟨at_, length⟩, hdelimiter, heq⟩ := Option.map_eq_some_iff.mp h
    obtain ⟨hroom, -⟩ := frameDelimiter_le hdelimiter
    cases heq
    unfold takeSseFrame
    rw [frameDelimiter_append hdelimiter more, Option.map_some]
    dsimp only
    rw [List.take_append_of_le_length (by omega), List.drop_append_of_le_length hroom]
  shrink {buffer frame rest} h := by
    obtain ⟨⟨at_, length⟩, hdelimiter, heq⟩ := Option.map_eq_some_iff.mp h
    obtain ⟨hroom, hlength⟩ := frameDelimiter_le hdelimiter
    cases heq
    rw [List.length_drop]
    omega

/-- The events that `forward_sse_events` sends for a stream that arrives in `chunks`. -/
def forwardSseEvents [SerdeJson] (stamps : ℕ → Stamp) (sessionId : String) (sequence : ℕ)
    (chunks : List (List UInt8)) (ending : Ending) : List EventEnvelope :=
  sseFraming.feed (sseReader stamps sessionId ending) { sequence } [] chunks

end PersonalAgent.Runtime
