/-
# What a turn delivers

Whatever the network, the provider and the user do, the events of a turn are some retries,
then the events of at most one stream, then one event that ends the turn (`turn_delivered`).
The end is decided in three places: the decoder sees the closing frame, the accumulator closes
only once, and the driver stops at the first event that ends the turn.  `Outcome` and `Ending`
say what the first two do; here the driver's two loops are put on top of them.

Between attempts it waits no longer than the policy says (`turn_waits`).
-/

import PersonalAgent.Llm.Driver

namespace PersonalAgent.Llm

open List

section

variable [SerdeJson]

/-- Events that continue the given text and reasoning and end the turn with their last one. -/
structure Concludes (text reasoning : String) (events body : List LlmEvent) (last : LlmEvent) :
    Prop where
  split : events = body ++ [last]
  quiet : ∀ e ∈ body, e.isTerminal = false ∧ e.isRetrying = false
  terminal : last.isTerminal = true
  message : ∀ finish usage message, last = .responseCompleted finish usage message →
    message.text = text ++ deltas body ∧ message.reasoning = reasoning ++ thoughts body

variable {s : TurnState} {events body : List LlmEvent} {last : LlmEvent} {attempts : ℕ}

/-- Any way to end a turn concludes it. -/
theorem Ending.concludes {report : Option String} (h : Ending s report events) :
    ∃ body last, Concludes s.message.text s.message.reasoning events body last := by
  cases h with
  | completed finish usage h =>
    refine ⟨_, _, rfl, h.quiet, rfl, fun _ _ message hlast => ?_⟩
    cases hlast
    exact ⟨h.text, h.reasoning⟩
  | failed error usage => exact ⟨[], _, rfl, nofun, rfl, nofun⟩

theorem Streamed.concludes {s' : TurnState} {rest : List LlmEvent} (h : Streamed s events s')
    (hrest : Concludes s'.message.text s'.message.reasoning rest body last) :
    Concludes s.message.text s.message.reasoning (events ++ rest) (events ++ body) last where
  split := by rw [hrest.split, append_assoc]
  quiet := fun e he => (mem_append.mp he).elim (h.quiet e) (hrest.quiet e)
  terminal := hrest.terminal
  message := fun finish usage message hlast => by
    obtain ⟨htext, hreasoning⟩ := hrest.message finish usage message hlast
    rw [htext, hreasoning, h.text, h.reasoning, deltas_append, thoughts_append]
    exact ⟨String.append_assoc, String.append_assoc⟩

theorem Streamed.any_terminal {s' : TurnState} (h : Streamed s events s') :
    events.any LlmEvent.isTerminal = false :=
  any_eq_false.mpr fun e he => by
    rw [(h.quiet e he).1]
    exact Bool.false_ne_true

omit [SerdeJson] in
theorem Concludes.any_terminal {text reasoning : String}
    (h : Concludes text reasoning events body last) : events.any LlmEvent.isTerminal = true := by
  rw [h.split, any_append, any_cons, h.terminal, Bool.true_or, Bool.or_true]

namespace TurnDriver

variable (t : TurnDriver)

/-- What one frame does: the stream goes on from an open turn, or it is concluded, and then
with no error, the one the frame reports, or scrubbed text. -/
theorem arrive_cases (data : String) {d : Decoder} (hopen : d.state.completed = false) :
    ((t.arrive data d).2.kind = d.kind ∧
      Streamed d.state (t.arrive data d).1 (t.arrive data d).2.state) ∨
    ∃ report, Ending d.state report (t.arrive data d).1 ∧
      ∀ text, report = some text →
        frameError d.kind data = some text ∨ ∃ raw, text = t.clean raw := by
  unfold arrive
  cases hpush : d.push data with
  | error error =>
    refine .inr ⟨_, TurnState.ending_fail hopen _, fun text htext => .inr ⟨error.toString, ?_⟩⟩
    exact (Option.some.inj htext).symm
  | ok result =>
    obtain ⟨events, d'⟩ := result
    obtain ⟨hkind, houtcome⟩ := Decoder.push_outcome hopen hpush
    rcases houtcome with h | h | ⟨error, hreported, h⟩
    · exact .inl ⟨hkind, h⟩
    · exact .inr ⟨none, h, nofun⟩
    · exact .inr ⟨some error, h, fun text htext => .inl (hreported.trans htext)⟩

theorem readStream_concludes (arrivals : List Arrival) {d : Decoder}
    (hopen : d.state.completed = false) :
    ∃ body last, Concludes d.state.message.text d.state.message.reasoning
      (t.readStream d arrivals) body last := by
  induction arrivals generalizing d with
  | nil =>
    unfold readStream
    split_ifs
    · exact (TurnState.ending_complete hopen).concludes
    · exact (TurnState.ending_fail hopen _).concludes
  | cons arrival rest ih =>
    cases arrival with
    | aborted => exact (TurnState.ending_fail hopen _).concludes
    | broken error => exact (TurnState.ending_fail hopen _).concludes
    | frame data =>
      cases data with
      | none => exact ih hopen
      | some data =>
        unfold readStream
        dsimp only
        rcases t.arrive_cases data hopen with ⟨-, h⟩ | ⟨report, h, -⟩
        · rw [if_neg (by rw [h.any_terminal]; exact Bool.false_ne_true)]
          obtain ⟨body, last, hrest⟩ := ih (h.completed.trans hopen)
          exact ⟨_, last, h.concludes hrest⟩
        · obtain ⟨body, last, hend⟩ := h.concludes
          rw [if_pos hend.any_terminal]
          exact ⟨body, last, hend⟩

theorem attempt_concludes {reply : Reply} {requested : Bool} {events : List LlmEvent}
    (h : t.attempt reply = (requested, .inl events)) :
    ∃ body last, Concludes "" "" events body last := by
  obtain ⟨response, -, rfl⟩ := attempt_streamed h
  have hopen : (Decoder.new t.kind t.provider t.model).state.completed = false := by
    rw [Decoder.state_new]
    rfl
  have hstream := t.readStream_concludes response.arrivals hopen
  rwa [Decoder.state_new] at hstream

end TurnDriver

/-- What the log of a turn has to look like: retries, the events of one stream, one event that
ends the turn. -/
structure Delivered (attempts : ℕ) (log : List Entry) (retries body : List LlmEvent)
    (last : LlmEvent) : Prop where
  events : eventsOf log = retries ++ (body ++ [last])
  retrying : ∀ e ∈ retries, e.isRetrying = true
  quiet : ∀ e ∈ body, e.isTerminal = false ∧ e.isRetrying = false
  terminal : last.isTerminal = true
  /-- What is streamed is the stream of the last attempt. -/
  oneStream : body = [] ∨ log.getLast?.map Entry.streamed = some (body ++ [last])
  /-- No attempt follows one that streamed. -/
  noRestart : ∀ entry ∈ log.dropLast, entry.streamed = []
  requests : requestsOf log ≤ attempts
  message : ∀ finish usage message, last = .responseCompleted finish usage message →
    message.text = deltas (eventsOf log) ∧ message.reasoning = thoughts (eventsOf log)

omit [SerdeJson] in
/-- A round that ends the turn with a failure of the loop, perhaps after a last retry. -/
theorem Delivered.failure {entry : Entry} {retries : List LlmEvent} (error : LlmError)
    (hstreamed : entry.streamed = []) (hown : entry.own = retries ++ [TurnDriver.failure error])
    (hretrying : ∀ e ∈ retries, e.isRetrying = true) :
    Delivered (attempts + 1) [entry] retries [] (TurnDriver.failure error) where
  events := by simp [eventsOf, Entry.events, hstreamed, hown]
  retrying := hretrying
  quiet := nofun
  terminal := rfl
  oneStream := .inl rfl
  noRestart := nofun
  requests := countP_le_length.trans (by simp)
  message := nofun

omit [SerdeJson] in
theorem Delivered.stream (requested : Bool) (h : Concludes "" "" events body last) :
    Delivered (attempts + 1) [{ requested, streamed := events }] [] body last where
  events := by simpa [eventsOf, Entry.events] using h.split
  retrying := nofun
  quiet := h.quiet
  terminal := h.terminal
  oneStream := .inr (by simp [h.split])
  noRestart := nofun
  requests := countP_le_length.trans (by simp)
  message := fun finish usage message hlast => by
    have hempty : deltas [last] = "" ∧ thoughts [last] = "" := by rw [hlast]; exact ⟨rfl, rfl⟩
    have hevents : eventsOf [{ requested, streamed := events }] = body ++ [last] := by
      simpa [eventsOf, Entry.events] using h.split
    rw [hevents, deltas_append, thoughts_append, hempty.1, hempty.2]
    simpa using h.message finish usage message hlast

omit [SerdeJson] in
theorem Delivered.retry {entry : Entry} {log : List Entry} {retries : List LlmEvent}
    {retrying : LlmEvent} (h : Delivered attempts log retries body last)
    (hstreamed : entry.streamed = []) (hown : entry.own = [retrying])
    (hretrying : retrying.isRetrying = true) :
    Delivered (attempts + 1) (entry :: log) (retrying :: retries) body last := by
  have hevents : eventsOf (entry :: log) = retrying :: eventsOf log := by
    simp [eventsOf, Entry.events, hstreamed, hown]
  have hne : log ≠ [] := by
    rintro rfl
    simpa [eventsOf] using h.events
  have hsilent : retrying.deltaText = "" ∧ retrying.reasoningText = "" := by
    cases retrying <;> first | exact ⟨rfl, rfl⟩ | cases hretrying
  refine { events := ?_, retrying := ?_, quiet := h.quiet, terminal := h.terminal, oneStream := ?_,
           noRestart := ?_, requests := ?_, message := ?_ }
  · rw [hevents, h.events, cons_append]
  · exact forall_mem_cons.mpr ⟨hretrying, h.retrying⟩
  · rw [getLast?_cons_of_ne_nil hne]
    exact h.oneStream
  · rw [dropLast_cons_of_ne_nil hne]
    exact forall_mem_cons.mpr ⟨hstreamed, h.noRestart⟩
  · have hrequests := h.requests
    unfold requestsOf at hrequests ⊢
    rw [countP_cons]
    split_ifs <;> omega
  · intro finish usage message hlast
    rw [hevents]
    simpa [deltas, thoughts, hsilent] using h.message finish usage message hlast

theorem TurnDriver.RoundOutcome.delivered {t : TurnDriver} {rounds : ℕ → Round}
    {attempt left : ℕ} {log : List Entry} (h : t.RoundOutcome rounds attempt left log)
    (hnext : 0 < left → ∃ retries body last,
      Delivered left (t.loop rounds (attempt + 1) left) retries body last) :
    ∃ retries body last, Delivered (left + 1) log retries body last := by
  rcases h with _ | h | h | ⟨delay, h⟩ | ⟨delay, h, hleft⟩
  · exact ⟨[], [], _, .failure .aborted rfl rfl nofun⟩
  · obtain ⟨body, last, hconcludes⟩ := t.attempt_concludes h
    exact ⟨[], body, last, .stream _ hconcludes⟩
  · exact ⟨[], [], _, .failure _ rfl rfl nofun⟩
  · exact ⟨[_], [], _, .failure .aborted rfl rfl (by simp [LlmEvent.isRetrying])⟩
  · obtain ⟨retries, body, last, hrest⟩ := hnext hleft
    exact ⟨_, body, last, hrest.retry rfl rfl rfl⟩

theorem TurnDriver.loop_delivered (t : TurnDriver) (rounds : ℕ → Round) (left attempt : ℕ) :
    ∃ retries body last,
      Delivered (left + 1) (t.loop rounds attempt (left + 1)) retries body last := by
  induction left generalizing attempt with
  | zero => exact (t.loop_cases rounds attempt 0).delivered (absurd · (Nat.lt_irrefl 0))
  | succ left ih => exact (t.loop_cases rounds attempt (left + 1)).delivered fun _ => ih _

/-- **What a turn delivers.**  For all that the surroundings can do: retries, then the events
of at most one stream, then exactly one event that ends the turn; no attempt after one that
streamed, no more requests than the policy allows (one, if it allows none), and a completed
message that is what was streamed. -/
theorem turn_delivered (t : TurnDriver) (rounds : ℕ → Round) :
    ∃ retries body last,
      Delivered (max t.retry.maxAttempts 1) (t.run rounds) retries body last := by
  obtain ⟨left, hleft⟩ := Nat.exists_eq_add_of_le (Nat.le_max_right t.retry.maxAttempts 1)
  unfold TurnDriver.run
  rw [hleft, Nat.add_comm]
  exact t.loop_delivered rounds left 1

/-- The attempt, and the milliseconds until the next one, that a retry announces. -/
def LlmEvent.wait : LlmEvent → Option (ℕ × ℕ)
  | .responseRetrying attempt delay _ => some (attempt, delay)
  | _ => none

/-- At most `left` waits, numbered from `attempt` on, none of them above the ceiling. -/
def RetryPolicy.Paced (p : RetryPolicy) (attempt left : ℕ) (log : List Entry) : Prop :=
  ∃ n ≤ left, ((eventsOf log).filterMap LlmEvent.wait).map (·.1) = range' attempt n ∧
    ∀ wait ∈ (eventsOf log).filterMap LlmEvent.wait, wait.2 * 10 ^ 6 ≤ p.maxBackoff

omit [SerdeJson] in
theorem RetryPolicy.paced_of_not_retrying {p : RetryPolicy} {attempt left : ℕ} {log : List Entry}
    (h : ∀ e ∈ eventsOf log, e.isRetrying = false) : p.Paced attempt left log := by
  have hnone : (eventsOf log).filterMap LlmEvent.wait = [] := by
    refine filterMap_eq_nil_iff.mpr fun e he => ?_
    have hquiet := h e he
    cases e <;> first | rfl | cases hquiet
  exact ⟨0, Nat.zero_le _, by rw [hnone]; rfl, by rw [hnone]; nofun⟩

omit [SerdeJson] in
theorem RetryPolicy.delay_le (p : RetryPolicy) (attempt : ℕ) (advice : Option Duration) :
    min (p.delayAfter attempt advice / 10 ^ 6) (2 ^ 64 - 1) * 10 ^ 6 ≤ p.maxBackoff := by
  have hdelay : p.delayAfter attempt advice ≤ p.maxBackoff := by
    unfold delayAfter
    cases advice with
    | none => exact min_le_right _ _
    | some advice =>
      dsimp only
      split_ifs
      · exact min_le_right _ _
      · exact min_le_right _ _
  calc min (p.delayAfter attempt advice / 10 ^ 6) (2 ^ 64 - 1) * 10 ^ 6
    _ ≤ p.delayAfter attempt advice / 10 ^ 6 * 10 ^ 6 := Nat.mul_le_mul_right _ (min_le_left _ _)
    _ ≤ p.delayAfter attempt advice := Nat.div_mul_le_self _ _
    _ ≤ p.maxBackoff := hdelay

theorem TurnDriver.loop_paced (t : TurnDriver) (rounds : ℕ → Round) (left attempt : ℕ) :
    t.retry.Paced attempt (left - 1) (t.loop rounds attempt left) := by
  induction left generalizing attempt with
  | zero => exact RetryPolicy.paced_of_not_retrying nofun
  | succ left ih =>
    unfold loop
    dsimp only
    by_cases hbefore : (rounds attempt).abortedBefore = true
    · rw [if_pos hbefore]
      exact RetryPolicy.paced_of_not_retrying (by simp [eventsOf, Entry.events, failure]; rfl)
    rw [if_neg hbefore]
    rcases hattempt : t.attempt (rounds attempt).reply with ⟨requested, events | error⟩
    · obtain ⟨body, last, h⟩ := t.attempt_concludes hattempt
      have hevents : eventsOf [{ requested, streamed := events }] = body ++ [last] := by
        simpa [eventsOf, Entry.events] using h.split
      refine RetryPolicy.paced_of_not_retrying fun e he => ?_
      rcases mem_append.mp (hevents ▸ he) with he | he
      · exact (h.quiet e he).2
      · have hterminal := h.terminal
        rw [mem_singleton.mp he]
        cases last <;> first | rfl | cases hterminal
    · have hdelay := t.retry.delay_le attempt (retryAfter error)
      have hleft (h : ¬(!(error.isRetryable && decide (left > 0))) = true) : 1 ≤ left := by
        simp at h
        omega
      dsimp only
      split_ifs with hfinal hasleep
      · exact RetryPolicy.paced_of_not_retrying (by simp [eventsOf, Entry.events, failure]; rfl)
      · exact ⟨1, hleft hfinal, rfl,
          by simpa [eventsOf, Entry.events, LlmEvent.wait, failure] using hdelay⟩
      · obtain ⟨n, hn, hnumbers, hdelays⟩ := ih (attempt + 1)
        have hcount : n + 1 ≤ left := by
          have := hleft hfinal
          omega
        exact ⟨n + 1, hcount, congrArg (attempt :: ·) hnumbers,
          forall_mem_cons.mpr ⟨hdelay, hdelays⟩⟩

/-- **What a turn waits for.**  The retries of a turn are announced as those of the attempts
1, 2, and so on, fewer than the attempts allowed, and none with a delay above the ceiling of
the policy, whatever the provider advises. -/
theorem turn_waits (t : TurnDriver) (rounds : ℕ → Round) :
    t.retry.Paced 1 (max t.retry.maxAttempts 1 - 1) (t.run rounds) :=
  t.loop_paced rounds _ 1

end

section

/-- A parser that reads nothing. -/
@[reducible] def deafJson : SerdeJson := ⟨fun _ => .error "expected value at line 1 column 1"⟩

attribute [local instance] deafJson

/-- A driver that may not make any attempt. -/
def idleDriver : TurnDriver where
  provider := "fixture"
  kind := .openAiCompatible
  model := "m"
  retry := { maxAttempts := 0 }

/-- A provider that refuses. -/
def refusingRounds : ℕ → Round := fun _ => { reply := .answered { status := 400 } }

/-- **No attempts, and yet a request.** -/
theorem idle_driver_asks :
    idleDriver.retry.maxAttempts = 0 ∧ requestsOf (idleDriver.run refusingRounds) = 1 :=
  ⟨rfl, by decide +kernel⟩

end

end PersonalAgent.Llm
