/-
# The credential in reported errors

`scrub` is meant to be the single choke point for provider text.  It does its part: a key that
shares no letter with the marker does not occur in what it returns (`not_shows_scrub`).  But
the message of an error frame does not pass through it: both decoders put it into the failure
of the turn as the provider sent it, so a provider that echoes the key in an error frame shows
it (`error_frame_shows_key`).

`Source` lists where the errors of a stream come from.  Without a key in an error frame, and
with a key that the driver's own words do not spell, no error of any turn shows the key
(`errors_hide_key`).
-/

import PersonalAgent.Llm.Delivery

namespace PersonalAgent.Llm

open Lib List

/-- The key occurs in a text. -/
def Shows (key text : String) : Prop := key.toList <:+: text.toList

instance (key text : String) : Decidable (Shows key text) :=
  inferInstanceAs (Decidable (key.toList <:+: text.toList))

/-! ### Scrubbed text -/

theorem length_le_utf8ByteSize (s : String) : s.length ≤ s.utf8ByteSize := by
  rw [← String.ofList_toList (s := s), String.utf8ByteSize_ofList, String.length_ofList]
  induction s.toList with
  | nil => exact Nat.le_refl 0
  | cons c cs ih =>
    have hpos := Char.utf8Size_pos c
    simp only [length_cons, String.utf8Len_cons]
    omega

theorem getLast?_append_of_getLast? (before : String) {after : String} {c : Char}
    (h : after.toList.getLast? = some c) : (before ++ after).toList.getLast? = some c := by
  rw [String.toList_append, getLast?_append, h]
  rfl

/-- Two texts that meet at a letter the key does not have show it together only if one of them
does. -/
theorem not_shows_append {key before after : String} {c : Char} (hc : c ∉ key.toList)
    (hedge : before.toList.getLast? = some c ∨ after.toList.head? = some c)
    (hbefore : ¬ Shows key before) (hafter : ¬ Shows key after) :
    ¬ Shows key (before ++ after) := by
  intro h
  unfold Shows at h hbefore hafter
  rw [String.toList_append] at h
  rcases hedge with hedge | hedge
  · obtain ⟨lead, hlead⟩ := getLast?_eq_some_iff.mp hedge
    rw [hlead, append_assoc, singleton_append] at h
    rcases (infix_gap_iff hc lead _).mp h with h | h
    · exact hbefore (hlead ▸ h.trans (prefix_append lead [c]).isInfix)
    · exact hafter h
  · obtain ⟨rest, hrest⟩ := head?_eq_some_iff.mp hedge
    rw [hrest] at h
    rcases (infix_gap_iff hc _ rest).mp h with h | h
    · exact hbefore h
    · exact hafter (hrest ▸ h.trans (suffix_cons c rest).isInfix)

/-- A key as the redaction expects it. -/
structure Redactable (key : String) : Prop where
  long : 4 ≤ key.length
  apart : ∀ c ∈ key.toList, c ∉ redacted.toList

theorem Redactable.ne_nil {key : String} (h : Redactable key) : key.toList ≠ [] := by
  intro hnil
  have hlength := h.long
  rw [← String.length_toList, hnil] at hlength
  cases hlength

/-- **Scrubbed text does not show the key.** -/
theorem not_shows_scrub {key : String} (hkey : Redactable key) (hcut : '…' ∉ key.toList)
    (text : String) : ¬ Shows key (scrub text (some key)) := by
  have hclean := not_infix_replaceAll hkey.ne_nil (by decide) hkey.apart text.toList
  have hsize : key.utf8ByteSize ≥ 4 := hkey.long.trans (length_le_utf8ByteSize key)
  unfold Shows scrub
  dsimp only
  rw [if_pos hsize]
  split_ifs with hlong
  · rw [String.toList_append, String.toList_ofList]
    intro h
    rcases (infix_gap_iff hcut _ []).mp h with h | h
    · exact hclean (h.trans <| IsPrefix.isInfix <| take_prefix _ _)
    · exact hkey.ne_nil (infix_nil.mp h)
  · rwa [String.toList_ofList]

/-! ### Where the errors of a stream come from -/

/-- The driver's own words, alone or around provider text. -/
def ownTexts : List String :=
  [LlmError.aborted.toString, "provider closed the stream before finishing the turn",
    "provider transport failed: ", "provider returned HTTP ", " [retry-after: "]

/-- Where an error of a stream comes from. -/
inductive Source [SerdeJson] (t : TurnDriver) (arrivals : List Arrival) (text : String) : Prop
  | arguments (h : ArgumentError text)
  | reported {data : String} (hmem : .frame (some data) ∈ arrivals)
      (h : frameError t.kind data = some text)
  | scrubbed (raw : String) (h : text = t.clean raw)
  | own (h : text ∈ ownTexts)

section

variable [SerdeJson] {t : TurnDriver} {arrivals : List Arrival} {s : TurnState}

theorem Source.later {arrival : Arrival} {text : String} (h : Source t arrivals text) :
    Source t (arrival :: arrivals) text := by
  cases h with
  | arguments h => exact .arguments h
  | reported hmem h => exact .reported (mem_cons_of_mem _ hmem) h
  | scrubbed raw h => exact .scrubbed raw h
  | own h => exact .own h

/-- The errors with which a turn ends are those of tool arguments and the one it is given. -/
theorem Ending.errors {report : Option String} {events : List LlmEvent}
    (h : Ending s report events) :
    ∀ e ∈ events, ∀ text, e.errorText = some text → ArgumentError text ∨ report = some text := by
  cases h with
  | completed finish usage h =>
    intro e he text htext
    rcases mem_append.mp he with he | he
    · exact .inl (h.errors e he text htext)
    · rw [mem_singleton.mp he] at htext
      cases htext
  | failed error usage =>
    intro e he text htext
    rw [mem_singleton.mp he] at htext
    exact .inr htext

theorem Ending.sources {report : Option String} {events : List LlmEvent}
    (h : Ending s report events) (hreport : ∀ text, report = some text → Source t arrivals text) :
    ∀ e ∈ events, ∀ text, e.errorText = some text → Source t arrivals text := fun e he text htext =>
  (h.errors e he text htext).elim .arguments (hreport text)

theorem fail_sources {error : String} (hopen : s.completed = false) (h : Source t arrivals error) :
    ∀ e ∈ (TurnState.fail error s).1, ∀ text, e.errorText = some text → Source t arrivals text :=
  (TurnState.ending_fail hopen error).sources fun _ htext => Option.some.inj htext ▸ h

/-- **Every error of a stream has a source.** -/
theorem readStream_errors (arrivals : List Arrival) {d : Decoder} (hkind : d.kind = t.kind)
    (hopen : d.state.completed = false) :
    ∀ e ∈ t.readStream d arrivals, ∀ text, e.errorText = some text → Source t arrivals text := by
  induction arrivals generalizing d with
  | nil =>
    unfold TurnDriver.readStream
    split_ifs
    · exact (TurnState.ending_complete hopen).sources fun text htext => by cases htext
    · exact fail_sources hopen (.own (by decide))
  | cons arrival rest ih =>
    cases arrival with
    | aborted => exact fail_sources hopen (.own (by decide))
    | broken error => exact fail_sources hopen (.scrubbed _ rfl)
    | frame data =>
      cases data with
      | none => exact fun e he text htext => (ih hkind hopen e he text htext).later
      | some data =>
        unfold TurnDriver.readStream
        dsimp only
        rcases t.arrive_cases data hopen with ⟨hkind', h⟩ | ⟨report, h, hreport⟩
        · rw [if_neg (by rw [h.any_terminal]; exact Bool.false_ne_true)]
          intro e he text htext
          rcases mem_append.mp he with he | he
          · exact .arguments (h.errors e he text htext)
          · exact (ih (hkind'.trans hkind) (h.completed.trans hopen) e he text htext).later
        · obtain ⟨body, last, hend⟩ := h.concludes
          rw [if_pos hend.any_terminal]
          refine h.sources fun text htext => ?_
          rcases hreport text htext with hframe | ⟨raw, hraw⟩
          · exact .reported mem_cons_self (hkind ▸ hframe)
          · exact .scrubbed raw hraw

/-! ### A whole turn -/

/-- What keeps the key out of the errors of one attempt: it is in no error of the build of the
request, in no number that is written next to scrubbed text, and in no message of an error
frame. -/
def GuardedReply (t : TurnDriver) (key : String) : Reply → Prop
  | .unbuilt error => ¬ Shows key error.toString
  | .unsent _ => True
  | .answered response =>
    ¬ Shows key (Nat.repr response.status ++ ": ") ∧
    (∀ seconds, response.retryAfter.bind (fun value => Automation.parseU64 (Core.trim value)) =
      some seconds → ¬ Shows key (Nat.repr seconds ++ "s]")) ∧
    ∀ data error, .frame (some data) ∈ response.arrivals → frameError t.kind data = some error →
      ¬ Shows key error

/-- What keeps the key out of the errors of a turn: it has no blank and no ellipsis, so that it
cannot be completed by the text around what was scrubbed, it is in none of the driver's own
words and in no error of the JSON parser, and every attempt is guarded. -/
structure Guarded (t : TurnDriver) (rounds : ℕ → Round) (key : String) : Prop where
  blank : ' ' ∉ key.toList
  ellipsis : '…' ∉ key.toList
  own : ∀ text ∈ ownTexts, ¬ Shows key text
  arguments : ∀ text, ArgumentError text → ¬ Shows key text
  rounds : ∀ attempt, GuardedReply t key (rounds attempt).reply

section

variable {rounds : ℕ → Round} {key : String}

omit [SerdeJson] in
theorem not_shows_clean (ht : t.key = some key) (hkey : Redactable key)
    (hcut : '…' ∉ key.toList) (text : String) : ¬ Shows key (t.clean text) := by
  unfold TurnDriver.clean
  rw [ht]
  exact not_shows_scrub hkey hcut text

theorem not_shows_statusError (ht : t.key = some key) (hkey : Redactable key)
    (hguard : Guarded t rounds key) {response : Response}
    (hreply : GuardedReply t key (.answered response)) :
    ¬ Shows key (t.statusError response).toString := by
  have hclean := not_shows_clean ht hkey hguard.ellipsis response.body
  obtain ⟨hcode, hadvice, -⟩ := hreply
  unfold TurnDriver.statusError LlmError.toString
  dsimp only
  rw [show "provider returned HTTP " ++ Nat.repr response.status ++ ": " =
    "provider returned HTTP " ++ (Nat.repr response.status ++ ": ") from String.append_assoc]
  refine not_shows_append hguard.blank
    (.inl (getLast?_append_of_getLast? _ (getLast?_append_of_getLast? _ rfl))) ?_ ?_
  · exact not_shows_append hguard.blank (.inl rfl) (hguard.own _ (by decide)) hcode
  · split
    · rename_i seconds hseconds
      rw [String.append_assoc]
      refine not_shows_append hguard.blank (.inl (getLast?_append_of_getLast? _ rfl)) ?_
        (hadvice seconds hseconds)
      exact not_shows_append hguard.blank (.inr rfl) hclean (hguard.own _ (by decide))
    · exact hclean

theorem not_shows_attempt (ht : t.key = some key) (hkey : Redactable key)
    (hguard : Guarded t rounds key) {reply : Reply} (hreply : GuardedReply t key reply)
    {requested : Bool} {error : LlmError} (h : t.attempt reply = (requested, .inr error)) :
    ¬ Shows key error.toString := by
  cases reply with
  | unbuilt error =>
    obtain ⟨-, h⟩ := Prod.mk.inj h
    rwa [← Sum.inr.inj h]
  | unsent reason =>
    obtain ⟨-, h⟩ := Prod.mk.inj h
    rw [← Sum.inr.inj h]
    exact not_shows_append hguard.blank (.inl rfl) (hguard.own _ (by decide))
      (not_shows_clean ht hkey hguard.ellipsis reason)
  | answered response =>
    dsimp only [TurnDriver.attempt] at h
    split_ifs at h
    · obtain ⟨-, h⟩ := Prod.mk.inj h
      rw [← Sum.inr.inj h]
      exact not_shows_statusError ht hkey hguard hreply
    · cases h

/-- No error among the events shows the key. -/
def Hides (key : String) (events : List LlmEvent) : Prop :=
  ∀ e ∈ events, ∀ text, e.errorText = some text → ¬ Shows key text

omit [SerdeJson] in
theorem Hides.append {events more : List LlmEvent} (h : Hides key events) (h' : Hides key more) :
    Hides key (events ++ more) := fun e he =>
  (mem_append.mp he).elim (h e) (h' e)

omit [SerdeJson] in
theorem hides_single {event : LlmEvent} {text : String} (hevent : event.errorText = some text)
    (h : ¬ Shows key text) : Hides key [event] := by
  intro e he text' htext
  rw [mem_singleton.mp he, hevent] at htext
  rwa [← Option.some.inj htext]

theorem hides_stream (ht : t.key = some key) (hkey : Redactable key)
    (hguard : Guarded t rounds key) {reply : Reply} (hreply : GuardedReply t key reply)
    {requested : Bool} {events : List LlmEvent} (h : t.attempt reply = (requested, .inl events)) :
    Hides key events := by
  obtain ⟨response, rfl, rfl⟩ := TurnDriver.attempt_streamed h
  intro e he text htext
  have hsource := readStream_errors response.arrivals (Decoder.kind_new _ _ _)
    (by rw [Decoder.state_new]; rfl) e he text htext
  cases hsource with
  | arguments h => exact hguard.arguments text h
  | reported hmem h => exact hreply.2.2 _ _ hmem h
  | scrubbed raw h => exact h ▸ not_shows_clean ht hkey hguard.ellipsis raw
  | own h => exact hguard.own text h

theorem hides_loop (ht : t.key = some key) (hkey : Redactable key)
    (hguard : Guarded t rounds key) (left attempt : ℕ) :
    Hides key (eventsOf (t.loop rounds attempt left)) := by
  induction left generalizing attempt with
  | zero => exact nofun
  | succ left ih =>
    have haborted : Hides key [TurnDriver.failure .aborted] :=
      hides_single rfl (hguard.own _ (by decide))
    have herror {requested : Bool} {error : LlmError}
        (h : t.attempt (rounds attempt).reply = (requested, .inr error)) :
        ¬ Shows key error.toString := not_shows_attempt ht hkey hguard (hguard.rounds attempt) h
    have hround := t.loop_cases rounds attempt left
    generalize t.loop rounds attempt (left + 1) = log at hround ⊢
    rcases hround with _ | h | h | ⟨delay, h⟩ | ⟨delay, h, -⟩
    · exact haborted
    · simpa [eventsOf, Entry.events] using
        hides_stream ht hkey hguard (hguard.rounds attempt) h
    · exact hides_single rfl (herror h)
    · exact (hides_single rfl (herror h)).append haborted
    · exact (hides_single rfl (herror h)).append (ih (attempt + 1))

/-- **When the errors hide the key.**  In every turn that is guarded, no error or reason shows
the key. -/
theorem errors_hide_key (ht : t.key = some key) (hkey : Redactable key)
    (hguard : Guarded t rounds key) :
    ∀ e ∈ eventsOf (t.run rounds), ∀ text, e.errorText = some text → ¬ Shows key text :=
  hides_loop ht hkey hguard _ _

end

end

/-- A turn with a key. -/
def keyedDriver : TurnDriver where
  provider := "anthropic"
  kind := .anthropic
  model := "m"
  key := some "SK_9X7Q"

theorem redactable_key : Redactable "SK_9X7Q" := ⟨by decide, by simp [redacted]⟩

section

attribute [local instance] deafJson

/-- A provider that echoes the key in the body of its refusal. -/
def echoRounds : ℕ → Round := fun _ =>
  { reply := .answered { status := 401, body := "bad key SK_9X7Q" } }

/-- The refusal hides the key. -/
theorem echo_hidden :
    Guarded keyedDriver echoRounds "SK_9X7Q" ∧
      ∀ e ∈ eventsOf (keyedDriver.run echoRounds), ∀ text, e.errorText = some text →
        ¬ Shows "SK_9X7Q" text := by
  have hguard : Guarded keyedDriver echoRounds "SK_9X7Q" := by
    refine ⟨by decide, by decide, by decide +kernel, ?_, ?_⟩
    · rintro text ⟨raw, error, herror, rfl⟩
      obtain rfl := Except.error.inj herror
      decide +kernel
    · exact fun _ => ⟨by decide +kernel, nofun, nofun⟩
  exact ⟨hguard, errors_hide_key rfl redactable_key hguard⟩

end

section

def errorFrameText : String :=
  "\x7b\"type\":\"error\",\"error\":\x7b\"message\":\"invalid x-api-key SK_9X7Q\"\x7d\x7d"

/-- A parser that reads the error frame. -/
@[reducible] def errorFrameJson : SerdeJson where
  fromStr text := if text = errorFrameText then .ok (.object [("type", .ofStr "error"),
      ("error", .object [("message", .ofStr "invalid x-api-key SK_9X7Q")])])
    else .error "expected value at line 1 column 1"

attribute [local instance] errorFrameJson

/-- A provider that streams the error frame. -/
def errorFrameRounds : ℕ → Round := fun _ =>
  { reply := .answered { status := 200, arrivals := [.frame (some errorFrameText)] } }

/-- **An error frame shows the key.**  The failure of the turn carries the message of the error
frame as it came. -/
theorem error_frame_shows_key :
    keyedDriver.key = some "SK_9X7Q" ∧ Redactable "SK_9X7Q" ∧
      (eventsOf (keyedDriver.run errorFrameRounds)).map LlmEvent.errorText =
        [some "invalid x-api-key SK_9X7Q"] ∧
      Shows "SK_9X7Q" "invalid x-api-key SK_9X7Q" :=
  ⟨rfl, redactable_key, by decide +kernel, by decide +kernel⟩

end

end PersonalAgent.Llm
