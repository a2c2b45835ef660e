/-
# The attempt loop of a turn

`crates/llm/src/transport.rs`, with the retry policy of `retry.rs` and the redaction of
`redact.rs`.  One attempt is in flight at a time; an attempt that failed before it streamed may
be retried.

What the surroundings do in one round of the loop is a `Round`: whether the turn was aborted
before it, what became of the request, and whether the turn was aborted during the delay after
it.  A response brings its status and, when it is a success, its frames, in the order in which
`select!` sees them; an abort shows among them as an arrival of its own.  The receiver of the
events stays.  The log of a turn has one entry for each round.
-/

import PersonalAgent.Automation.Scheduler
import PersonalAgent.Lib.Replace
import PersonalAgent.Llm.Decoders

namespace PersonalAgent.Llm

/-- Whether another attempt could plausibly succeed. -/
def isRetryableStatus (status : ℕ) : Bool := [408, 409, 425, 429].contains status || status ≥ 500

def LlmError.isRetryable : LlmError → Bool
  | .transport _ => true
  | .status code _ => isRetryableStatus code
  | _ => false

/-! ### Redaction -/

/-- Replacement written wherever key material would otherwise appear. -/
def redacted : String := "[redacted]"

/-- Upper bound on any provider-controlled string retained in an error. -/
def maxRetained : ℕ := 512

/-- Remove key material from provider-controlled text and bound its length. -/
def scrub (text : String) (key : Option String) : String :=
  let cleaned := match key with
    | some key =>
      if key.utf8ByteSize ≥ 4 then Lib.replaceAll key.toList redacted.toList text.toList
      else text.toList
    | none => text.toList
  if cleaned.length > maxRetained then String.ofList (cleaned.take maxRetained) ++ "…"
  else String.ofList cleaned

/-! ### Delays -/

/-- `Duration`, in nanoseconds. -/
abbrev Duration := ℕ

def Duration.ofSecs (n : ℕ) : Duration := n * 10 ^ 9

/-- `Duration::MAX`. -/
def Duration.max : Duration := 2 ^ 64 * 10 ^ 9 - 1

/-- Attempt count and backoff schedule. -/
structure RetryPolicy where
  maxAttempts : ℕ := 3
  initialBackoff : Duration := 250 * 10 ^ 6
  maxBackoff : Duration := Duration.ofSecs 8
  multiplier : ℕ := 2
  honorRetryAfter : Bool := true

namespace RetryPolicy

/-- Delay before the attempt following `attempt`. -/
def backoff (p : RetryPolicy) (attempt : ℕ) : Duration :=
  let exponent := min (attempt - 1) 16
  let factor := min (max p.multiplier 1 ^ exponent) (2 ^ 32 - 1)
  min (min (p.initialBackoff * factor) Duration.max) p.maxBackoff

/-- Delay to wait after `attempt`, preferring the provider's own advice. -/
def delayAfter (p : RetryPolicy) (attempt : ℕ) (retryAfter : Option Duration) : Duration :=
  match retryAfter with
  | some advice => if p.honorRetryAfter then min advice p.maxBackoff else p.backoff attempt
  | none => p.backoff attempt

end RetryPolicy

/-- What follows the last occurrence of a marker (`str::rfind`). -/
def afterLast (marker : String) (text : String) : Option (List Char) :=
  ((text.toList.tails.filter (marker.toList.isPrefixOf ·)).getLast?).map (·.drop marker.length)

/-- Recover a `retry-after` hint from a status error message. -/
def retryAfter : LlmError → Option Duration
  | .status _ message => do
    let tail ← afterLast "[retry-after: " message
    let seconds ← Automation.parseU64 (String.ofList (tail.takeWhile (· ≠ 's')))
    return Duration.ofSecs seconds
  | _ => none

/-! ### One attempt -/

/-- What `select!` sees next on a stream. -/
inductive Arrival where
  | aborted
  | frame (data : Option String)
  | broken (error : String)

/-- An HTTP response; the retry-after header if it is text. -/
structure Response where
  status : ℕ
  retryAfter : Option String := none
  body : String := ""
  arrivals : List Arrival := []

/-- What became of a request: it could not be built, it could not be sent, or it was
answered. -/
inductive Reply where
  | unbuilt (error : LlmError)
  | unsent (error : String)
  | answered (response : Response)

/-- What the surroundings do in one round of the loop. -/
structure Round where
  abortedBefore : Bool := false
  reply : Reply
  abortedAsleep : Bool := false

/-- One streamed turn, retried according to the provider's policy. -/
structure TurnDriver where
  provider : String
  kind : ProviderKind
  model : String
  retry : RetryPolicy := {}
  key : Option String := none

/-- One round of the loop: whether a request was sent, the events of its stream, and the
event of the loop itself. -/
structure Entry where
  requested : Bool := false
  streamed : List LlmEvent := []
  own : List LlmEvent := []

def Entry.events (entry : Entry) : List LlmEvent := entry.streamed ++ entry.own

/-- The events of a turn. -/
def eventsOf (log : List Entry) : List LlmEvent := log.flatMap Entry.events

/-- The requests of a turn. -/
def requestsOf (log : List Entry) : ℕ := log.countP (·.requested)

namespace TurnDriver

def clean (t : TurnDriver) (text : String) : String := scrub text t.key

def statusError (t : TurnDriver) (response : Response) : LlmError :=
  let advice := response.retryAfter.bind fun value => Automation.parseU64 (Core.trim value)
  let message := t.clean response.body
  .status response.status (match advice with
    | some seconds => message ++ " [retry-after: " ++ Nat.repr seconds ++ "s]"
    | none => message)

variable [SerdeJson]

/-- What one frame hands out, and the decoder then. -/
def arrive (t : TurnDriver) (data : String) (d : Decoder) : List LlmEvent × Decoder :=
  match d.push data with
  | .ok result => result
  | .error error => ((TurnState.fail (t.clean error.toString) d.state).1, d)

def readStream (t : TurnDriver) (d : Decoder) : List Arrival → List LlmEvent
  | [] =>
    if d.state.finish.isSome then (TurnState.complete d.state).1
    else (TurnState.fail "provider closed the stream before finishing the turn" d.state).1
  | .aborted :: _ => (TurnState.fail LlmError.aborted.toString d.state).1
  | .frame none :: rest => t.readStream d rest
  | .frame (some data) :: rest =>
    let (events, d) := t.arrive data d
    if events.any LlmEvent.isTerminal then events else events ++ t.readStream d rest
  | .broken error :: _ => (TurnState.fail (t.clean ("stream ended early: " ++ error)) d.state).1

/-- `StatusCode::is_success`. -/
def isSuccess (status : ℕ) : Bool := 200 ≤ status && status < 300

/-- One attempt: whether a request was sent, and the events of its stream or the error with
which it failed before streaming. -/
def attempt (t : TurnDriver) : Reply → Bool × (List LlmEvent ⊕ LlmError)
  | .unbuilt error => (false, .inr error)
  | .unsent error => (true, .inr (.transport (t.clean error)))
  | .answered response =>
    if !isSuccess response.status then (true, .inr (t.statusError response))
    else (true, .inl (t.readStream (Decoder.new t.kind t.provider t.model) response.arrivals))

theorem attempt_streamed {t : TurnDriver} {reply : Reply} {requested : Bool}
    {events : List LlmEvent} (h : t.attempt reply = (requested, .inl events)) :
    ∃ response, reply = .answered response ∧
      events = t.readStream (Decoder.new t.kind t.provider t.model) response.arrivals := by
  cases reply with
  | unbuilt error => cases h
  | unsent error => cases h
  | answered response =>
    dsimp only [attempt] at h
    split_ifs at h
    · cases h
    · exact ⟨response, rfl, (Sum.inl.inj (Prod.mk.inj h).2).symm⟩

/-- `emit_failure`. -/
def failure (error : LlmError) : LlmEvent := .responseFailed error.toString {}

def loop (t : TurnDriver) (rounds : ℕ → Round) (attempt : ℕ) : ℕ → List Entry
  | 0 => []
  | left + 1 =>
    let round := rounds attempt
    if round.abortedBefore then [{ own := [failure .aborted] }]
    else
      match t.attempt round.reply with
      | (requested, .inl events) => [{ requested, streamed := events }]
      | (requested, .inr error) =>
        if !(error.isRetryable && left > 0) then [{ requested, own := [failure error] }]
        else
          let delay := t.retry.delayAfter attempt (retryAfter error)
          let retrying := LlmEvent.responseRetrying attempt (min (delay / 10 ^ 6) (2 ^ 64 - 1))
            error.toString
          if round.abortedAsleep then [{ requested, own := [retrying, failure .aborted] }]
          else { requested, own := [retrying] } :: t.loop rounds (attempt + 1) left

/-- The whole turn. -/
def run (t : TurnDriver) (rounds : ℕ → Round) : List Entry :=
  t.loop rounds 1 (max t.retry.maxAttempts 1)

/-- What one round of the loop does: it ends the turn with an abort, a stream, a failure, or an
abort while it waits to retry, or it retries and leaves the rest to the next attempt. -/
inductive RoundOutcome (t : TurnDriver) (rounds : ℕ → Round) (attempt left : ℕ) :
    List Entry → Prop
  | aborted : RoundOutcome t rounds attempt left [{ own := [failure .aborted] }]
  | streamed {requested : Bool} {events : List LlmEvent}
      (h : t.attempt (rounds attempt).reply = (requested, .inl events)) :
      RoundOutcome t rounds attempt left [{ requested, streamed := events }]
  | failed {requested : Bool} {error : LlmError}
      (h : t.attempt (rounds attempt).reply = (requested, .inr error)) :
      RoundOutcome t rounds attempt left [{ requested, own := [failure error] }]
  | abortedAsleep {requested : Bool} {error : LlmError} (delay : ℕ)
      (h : t.attempt (rounds attempt).reply = (requested, .inr error)) :
      RoundOutcome t rounds attempt left [{ requested, own :=
        [.responseRetrying attempt delay error.toString, failure .aborted] }]
  | retried {requested : Bool} {error : LlmError} (delay : ℕ)
      (h : t.attempt (rounds attempt).reply = (requested, .inr error)) (hleft : 0 < left) :
      RoundOutcome t rounds attempt left
        ({ requested, own := [.responseRetrying attempt delay error.toString] } ::
          t.loop rounds (attempt + 1) left)

theorem loop_cases (t : TurnDriver) (rounds : ℕ → Round) (attempt left : ℕ) :
    RoundOutcome t rounds attempt left (t.loop rounds attempt (left + 1)) := by
  unfold loop
  dsimp only
  by_cases hbefore : (rounds attempt).abortedBefore = true
  · rw [if_pos hbefore]
    exact .aborted
  rw [if_neg hbefore]
  rcases hattempt : t.attempt (rounds attempt).reply with ⟨requested, result⟩
  cases result with
  | inl events => exact .streamed hattempt
  | inr error =>
    dsimp only
    split_ifs with hfinal hasleep
    · exact .failed hattempt
    · exact .abortedAsleep _ hattempt
    · refine .retried _ hattempt ?_
      simp only [Bool.not_eq_true', Bool.and_eq_false_iff, not_or] at hfinal
      exact Nat.pos_of_ne_zero (by simpa using hfinal.2)

end TurnDriver
end PersonalAgent.Llm
