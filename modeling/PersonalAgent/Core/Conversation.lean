/-
# Conversation controls

`crates/core/src/conversation.rs`: the switches of a conversation (mute, sleep, quiet,
guest, stay open), the microphone that follows from them, and one context per project.
The microphone is a field of its own: eight operations recompute it and the others leave
it as it is, so that it agrees with the switches is an invariant and not a definition.

A context is reached only through the active project.  `turnsIn` and `attachedIn` read
from a run what was submitted and attached under a key, and the stored context agrees
with them (`conversation_agrees`); the counter of turns is a `u64` and wraps.
-/

import PersonalAgent.Core.Usage
import PersonalAgent.Lib.OrdMap
import PersonalAgent.Lib.Run

namespace PersonalAgent.Core

open Lib

inductive InputModality where
  | typed
  | voice
  deriving DecidableEq, Repr

/-- Visible microphone privacy state. -/
inductive MicrophonePrivacy where
  | inactive
  | wakeWordOnly
  | capturingSpeech
  deriving DecidableEq, Repr

inductive ListeningMode where
  | wakeOnly
  | hybrid
  | continuous
  deriving DecidableEq, Repr

structure ModelSelection where
  provider : String
  model : String
  effort : Option String
  deriving DecidableEq, Repr

/-- One preserved context, of a project or the general one. -/
structure ConversationContext where
  sessionId : Option String := none
  turns : ℕ := 0
  deriving DecidableEq, Repr

/-- Accepted dispatch parameters. -/
structure MessageDispatch where
  text : String
  modality : InputModality
  context : String
  historyScope : String
  speakResponse : Bool
  restrictedTools : Bool
  deriving DecidableEq, Repr

structure StopEffects where
  abortForeground : Bool
  stopPlayback : Bool
  clearFollowUpCapture : Bool
  deriving DecidableEq, Repr

inductive ConversationError where
  | blankMessage
  | muted
  | asleep
  | blankSelection
  deriving DecidableEq, Repr

/-- Durable control state; a control is enabled or not. -/
structure ConversationState where
  listeningMode : ListeningMode := .wakeOnly
  microphone : MicrophonePrivacy := .wakeWordOnly
  sleeping : Bool := false
  muted : Bool := false
  quiet : Bool := false
  guest : Bool := false
  stayOpen : Bool := false
  activeProject : Option String := none
  persona : String := "JARVIS"
  model : Option ModelSelection := none
  contexts : BTreeMap String ConversationContext :=
    (∅ : BTreeMap String ConversationContext).insert "general" {}

def nonblank (value : String) : Except ConversationError String :=
  if (trim value).isEmpty then .error .blankSelection else .ok (trim value)

namespace ConversationState

/-- The key of a project's context. -/
def projectKey (project : String) : String := "project:" ++ project

variable (s : ConversationState)

def contextKey : String := s.activeProject.elim "general" projectKey

def idleMicrophone : MicrophonePrivacy :=
  if s.muted then .inactive
  else if s.sleeping || s.listeningMode ≠ .continuous then .wakeWordOnly
  else .capturingSpeech

/-- `contexts.entry(key).or_default()`. -/
def context (key : String) : ConversationContext :=
  (s.contexts[key]?).getD {}

def setContext (key : String) (context : ConversationContext) :
    ConversationState :=
  { s with contexts := s.contexts.insert key context }

/-- `turns += 1` on a `u64`. -/
def countTurn (context : ConversationContext) : ConversationContext :=
  { context with turns := (context.turns + 1) % 2 ^ 64 }

def dispatch (text : String) (modality : InputModality) :
    ConversationState × Except ConversationError MessageDispatch :=
  if (trim text).isEmpty then (s, .error .blankMessage)
  else
    (s.setContext s.contextKey (countTurn (s.context s.contextKey)), .ok {
      text := trim text
      modality := modality
      context := s.contextKey
      historyScope := if s.guest then "guest" else "owner"
      speakResponse := decide (modality = .voice) && !s.quiet
      restrictedTools := s.guest })

/-- Submit typed input without opening the microphone or enabling speech. -/
def submitTyped (text : String) :
    ConversationState × Except ConversationError MessageDispatch :=
  s.dispatch text .typed

/-- Submit voice input only when the persistent privacy controls permit it. -/
def submitVoice (text : String) :
    ConversationState × Except ConversationError MessageDispatch :=
  if (trim text).isEmpty then (s, .error .blankMessage)
  else if s.muted then (s, .error .muted)
  else if s.sleeping then (s, .error .asleep)
  else { s with microphone := .capturingSpeech }.dispatch text .voice

/-- `self.microphone = self.idle_microphone()`. -/
def idle (s : ConversationState) : ConversationState := { s with microphone := s.idleMicrophone }

/-- Finish a response and either retain follow-up capture or return to idle. -/
def finishResponse : ConversationState :=
  if s.stayOpen && !s.muted && !s.sleeping then
    { s with microphone := .capturingSpeech }
  else
    s.idle

def setMuted (muted : Bool) : ConversationState :=
  { s with muted := muted }.idle

def setQuiet (quiet : Bool) : ConversationState := { s with quiet := quiet }

def sleep : ConversationState := { s with sleeping := true }.idle

def wake : ConversationState := { s with sleeping := false }.idle

def setGuest (guest : Bool) : ConversationState := { s with guest := guest }

def setStayOpen (stayOpen : Bool) : ConversationState :=
  if stayOpen then { s with stayOpen := true } else { s with stayOpen := false }.idle

/-- Stop the current foreground work without touching the switches. -/
def stop : ConversationState × StopEffects := (s.idle, ⟨true, true, true⟩)

/-- Select a project context without deleting any other context. -/
def switchProject (project : String) :
    ConversationState × Except ConversationError Unit :=
  match nonblank project with
  | .error e => (s, .error e)
  | .ok project =>
    ({ s.setContext (projectKey project) (s.context (projectKey project)) with
      activeProject := some project }, .ok ())

def closeProject : ConversationState := { s with activeProject := none }

def switchPersona (persona : String) :
    ConversationState × Except ConversationError Unit :=
  match nonblank persona with
  | .error e => (s, .error e)
  | .ok persona => ({ s with persona := persona }, .ok ())

def switchModel (provider model : String) (effort : Option String) :
    ConversationState × Except ConversationError Unit :=
  match nonblank provider, nonblank model with
  | .ok provider, .ok model => ({ s with model := some ⟨provider, model, effort⟩ }, .ok ())
  | .error e, _ => (s, .error e)
  | .ok _, .error e => (s, .error e)

/-- Associate the active context with a provider runtime session. -/
def attachSession (s : ConversationState) (sessionId : String) :
    ConversationState × Except ConversationError Unit :=
  match nonblank sessionId with
  | .error e => (s, .error e)
  | .ok sessionId =>
    (s.setContext s.contextKey { s.context s.contextKey with sessionId := some sessionId }, .ok ())

end ConversationState

/-! ### Runs -/

inductive ConversationOp where
  | submitTyped (text : String)
  | submitVoice (text : String)
  | finishResponse
  | setMuted (muted : Bool)
  | setQuiet (quiet : Bool)
  | sleep
  | wake
  | setGuest (guest : Bool)
  | setStayOpen (stayOpen : Bool)
  | stop
  | switchProject (project : String)
  | closeProject
  | switchPersona (persona : String)
  | switchModel (provider model : String) (effort : Option String)
  | attachSession (sessionId : String)

namespace ConversationState

def step (s : ConversationState) : ConversationOp → ConversationState
  | .submitTyped text => (s.submitTyped text).1
  | .submitVoice text => (s.submitVoice text).1
  | .finishResponse => s.finishResponse
  | .setMuted muted => s.setMuted muted
  | .setQuiet quiet => s.setQuiet quiet
  | .sleep => s.sleep
  | .wake => s.wake
  | .setGuest guest => s.setGuest guest
  | .setStayOpen stayOpen => s.setStayOpen stayOpen
  | .stop => s.stop.1
  | .switchProject project => (s.switchProject project).1
  | .closeProject => s.closeProject
  | .switchPersona persona => (s.switchPersona persona).1
  | .switchModel provider model effort => (s.switchModel provider model effort).1
  | .attachSession sessionId => (s.attachSession sessionId).1

def accepts (s : ConversationState) : ConversationOp → Bool
  | .submitTyped text => (s.submitTyped text).2.isOk
  | .submitVoice text => (s.submitVoice text).2.isOk
  | _ => false

def attaches : ConversationOp → Option String
  | .attachSession sessionId => (nonblank sessionId).toOption
  | _ => none

/-- How many submissions of a run were accepted while the context of `key` was active. -/
def turnsIn (key : String) : ConversationState → List ConversationOp → ℕ
  | _, [] => 0
  | s, op :: ops =>
    (if s.contextKey = key ∧ s.accepts op then 1 else 0) + turnsIn key (s.step op) ops

/-- The session that a run attached last while the context of `key` was active. -/
def attachedIn (key : String) : ConversationState → List ConversationOp → Option String
  | _, [] => none
  | s, op :: ops =>
    (attachedIn key (s.step op) ops).or (if s.contextKey = key then attaches op else none)

/-! ### The microphone -/

/-- The microphone keeps to the switches. -/
structure Private (s : ConversationState) : Prop where
  muted : s.muted = true → s.microphone = .inactive
  asleep : s.sleeping = true ∨ s.muted = true → s.microphone ≠ .capturingSpeech

theorem private_idle (s : ConversationState) : s.idle.Private := by
  have hmuted (h : s.muted = true) : s.idleMicrophone = .inactive := if_pos h
  refine ⟨hmuted, fun hoff => ?_⟩
  change s.sleeping = true ∨ s.muted = true at hoff
  change s.idleMicrophone ≠ _
  rcases hoff with hsleeping | hoff
  · rw [idleMicrophone, hsleeping, Bool.true_or, if_pos rfl]
    split_ifs <;> decide
  · rw [hmuted hoff]
    decide

variable {s : ConversationState}

/-- An operation that keeps the microphone and the two switches. -/
theorem Private.congr {s' : ConversationState} (h : s.Private) (hmic : s'.microphone = s.microphone)
    (hmuted : s'.muted = s.muted) (hsleeping : s'.sleeping = s.sleeping) : s'.Private := by
  constructor
  · rw [hmic, hmuted]
    exact h.muted
  · rw [hmic, hmuted, hsleeping]
    exact h.asleep

theorem private_of_awake (hmuted : s.muted = false) (hsleeping : s.sleeping = false) :
    s.Private := by
  constructor
  · intro h
    rw [hmuted] at h
    cases h
  · intro h
    rw [hmuted, hsleeping] at h
    exact absurd h (by decide)

theorem Private.dispatch (h : s.Private) (text : String) (modality : InputModality) :
    (s.dispatch text modality).1.Private := by
  rw [ConversationState.dispatch]
  by_cases hblank : (trim text).isEmpty = true
  · rwa [if_pos hblank]
  · rw [if_neg hblank]
    exact h.congr rfl rfl rfl

theorem Private.submitVoice (h : s.Private) (text : String) : (s.submitVoice text).1.Private := by
  rw [ConversationState.submitVoice]
  split_ifs with hblank hmuted hsleeping
  · exact h
  · exact h
  · exact h
  · rw [Bool.not_eq_true] at hmuted hsleeping
    exact (private_of_awake (s := { s with microphone := .capturingSpeech }) hmuted
      hsleeping).dispatch text .voice

theorem private_finishResponse (s : ConversationState) : s.finishResponse.Private := by
  rw [finishResponse]
  split_ifs with hopen
  · simp only [Bool.and_eq_true, Bool.not_eq_true'] at hopen
    exact private_of_awake hopen.1.2 hopen.2
  · exact private_idle s

/-- Every operation keeps the microphone within the switches. -/
theorem Private.step (h : s.Private) (op : ConversationOp) : (s.step op).Private := by
  cases op with
  | submitTyped text => exact h.dispatch text .typed
  | submitVoice text => exact h.submitVoice text
  | finishResponse => exact private_finishResponse s
  | setMuted _ | sleep | wake | stop => exact private_idle _
  | setQuiet _ | setGuest _ | closeProject => exact h.congr rfl rfl rfl
  | setStayOpen stayOpen =>
    cases stayOpen with
    | true => exact h.congr rfl rfl rfl
    | false => exact private_idle _
  | switchProject project =>
    rw [ConversationState.step, switchProject]
    cases nonblank project with
    | error _ => exact h
    | ok _ => exact h.congr rfl rfl rfl
  | switchPersona persona =>
    rw [ConversationState.step, switchPersona]
    cases nonblank persona with
    | error _ => exact h
    | ok _ => exact h.congr rfl rfl rfl
  | switchModel provider model effort =>
    rw [ConversationState.step, switchModel]
    cases nonblank provider with
    | error _ => exact h
    | ok _ =>
      cases nonblank model with
      | error _ => exact h
      | ok _ => exact h.congr rfl rfl rfl
  | attachSession sessionId =>
    rw [ConversationState.step, attachSession]
    cases nonblank sessionId with
    | error _ => exact h
    | ok _ => exact h.congr rfl rfl rfl

/-! ### The contexts -/

@[simp] theorem context_setContext (s : ConversationState) (key other : String)
    (context : ConversationContext) : (s.setContext key context).context other =
      if other = key then context else s.context other := by
  rw [ConversationState.context, setContext, getElem?_insert_eq]
  split_ifs <;> rfl

/-- What an operation can do to the contexts. -/
inductive ContextChange (s : ConversationState) (op : ConversationOp) (s' : ConversationState) :
    Prop where
  | kept (hcontexts : s'.contexts = s.contexts) (haccepts : s.accepts op = false)
      (hattaches : attaches op = none)
  | counted (hcontexts : s'.contexts =
        (s.setContext s.contextKey (countTurn (s.context s.contextKey))).contexts)
      (haccepts : s.accepts op = true) (hattaches : attaches op = none)
  | attached (sessionId : String) (hcontexts : s'.contexts = (s.setContext s.contextKey
        { s.context s.contextKey with sessionId := some sessionId }).contexts)
      (haccepts : s.accepts op = false) (hattaches : attaches op = some sessionId)
  | opened (key : String) (hcontexts : s'.contexts = (s.setContext key (s.context key)).contexts)
      (haccepts : s.accepts op = false) (hattaches : attaches op = none)

theorem contextChange_submitTyped (s : ConversationState) (text : String) :
    ContextChange s (.submitTyped text) (s.submitTyped text).1 := by
  by_cases hblank : (trim text).isEmpty = true
  · refine .kept ?_ ?_ rfl
    · rw [submitTyped, dispatch, if_pos hblank]
    · rw [accepts, submitTyped, dispatch, if_pos hblank]
      rfl
  · refine .counted ?_ ?_ rfl
    · rw [submitTyped, dispatch, if_neg hblank]
    · rw [accepts, submitTyped, dispatch, if_neg hblank]
      rfl

theorem contextChange_submitVoice (s : ConversationState) (text : String) :
    ContextChange s (.submitVoice text) (s.submitVoice text).1 := by
  by_cases hrefused : (trim text).isEmpty = true ∨ s.muted = true ∨ s.sleeping = true
  · have hkept : ∃ e, s.submitVoice text = (s, .error e) := by
      rw [submitVoice]
      split_ifs with hblank hmuted hsleeping
      · exact ⟨_, rfl⟩
      · exact ⟨_, rfl⟩
      · exact ⟨_, rfl⟩
      · simp_all
    obtain ⟨e, he⟩ := hkept
    exact .kept (by rw [he]) (by rw [accepts, he]; rfl) rfl
  · push Not at hrefused
    obtain ⟨hblank, hmuted, hsleeping⟩ := hrefused
    have hvoice : s.submitVoice text =
        { s with microphone := .capturingSpeech }.dispatch text .voice := by
      rw [submitVoice, if_neg hblank, if_neg hmuted, if_neg hsleeping]
    refine .counted ?_ ?_ rfl
    · rw [hvoice, dispatch, if_neg hblank]
      rfl
    · rw [accepts, hvoice, dispatch, if_neg hblank]
      rfl

theorem contextChange_step (s : ConversationState) (op : ConversationOp) :
    ContextChange s op (s.step op) := by
  cases op with
  | submitTyped text => exact contextChange_submitTyped s text
  | submitVoice text => exact contextChange_submitVoice s text
  | finishResponse =>
    refine .kept ?_ rfl rfl
    rw [step, finishResponse]
    split_ifs <;> rfl
  | setMuted _ | sleep | wake | stop | setQuiet _ | setGuest _ | closeProject =>
    exact .kept rfl rfl rfl
  | setStayOpen stayOpen => cases stayOpen <;> exact .kept rfl rfl rfl
  | switchProject project =>
    rw [step, switchProject]
    cases nonblank project with
    | error _ => exact .kept rfl rfl rfl
    | ok project => exact .opened (projectKey project) rfl rfl rfl
  | switchPersona persona =>
    rw [step, switchPersona]
    cases nonblank persona <;> exact .kept rfl rfl rfl
  | switchModel provider model effort =>
    rw [step, switchModel]
    cases nonblank provider with
    | error _ => exact .kept rfl rfl rfl
    | ok _ => cases nonblank model <;> exact .kept rfl rfl rfl
  | attachSession sessionId =>
    have hattaches : attaches (.attachSession sessionId) = (nonblank sessionId).toOption := rfl
    rw [step, attachSession]
    cases hid : nonblank sessionId with
    | error _ => exact .kept rfl rfl (by rw [hattaches, hid]; rfl)
    | ok sessionId' => exact .attached sessionId' rfl rfl (by rw [hattaches, hid]; rfl)

/-- **What an operation does to the context of a key**: it counts an accepted submission and
takes over a session, if the key is the active one, and nothing else. -/
theorem context_step (s : ConversationState) (op : ConversationOp) (key : String) :
    (s.step op).context key = {
      sessionId := (if s.contextKey = key then attaches op else none).or (s.context key).sessionId
      turns := if s.contextKey = key ∧ s.accepts op then ((s.context key).turns + 1) % 2 ^ 64
        else (s.context key).turns } := by
  have hcontext {s' : ConversationState} (h : (s.step op).contexts = s'.contexts) :
      (s.step op).context key = s'.context key := by
    rw [ConversationState.context, h, ConversationState.context]
  rcases contextChange_step s op with ⟨h, haccepts, hattaches⟩ | ⟨h, haccepts, hattaches⟩ |
    ⟨sessionId, h, haccepts, hattaches⟩ | ⟨opened, h, haccepts, hattaches⟩
  · rw [hcontext h, haccepts, hattaches]
    simp
  · rw [hcontext h, haccepts, hattaches, context_setContext]
    by_cases hkey : s.contextKey = key
    · simp [hkey, countTurn]
    · simp [hkey, Ne.symm hkey]
  · rw [hcontext h, haccepts, hattaches, context_setContext]
    by_cases hkey : s.contextKey = key
    · simp [hkey]
    · simp [hkey, Ne.symm hkey]
  · rw [hcontext h, haccepts, hattaches, context_setContext]
    by_cases hkey : key = opened
    · simp [hkey]
    · simp [hkey]

/-- No operation removes a context, and none but the active one is altered. -/
theorem contexts_step {key : String} {context : ConversationContext}
    (h : s.contexts[key]? = some context) (op : ConversationOp) :
    ∃ context', (s.step op).contexts[key]? = some context' ∧
      (key ≠ s.contextKey → context' = context) := by
  have hset {opened : String} {value : ConversationContext}
      (hcontexts : (s.step op).contexts = (s.setContext opened value).contexts) :
      (s.step op).contexts[key]? = some (if key = opened then value else context) := by
    rw [hcontexts, setContext, getElem?_insert_eq, h]
    split_ifs <;> rfl
  rcases contextChange_step s op with ⟨hcontexts, -, -⟩ | ⟨hcontexts, -, -⟩ |
    ⟨sessionId, hcontexts, -, -⟩ | ⟨opened, hcontexts, -, -⟩
  · exact ⟨context, by rw [hcontexts, h], fun _ => rfl⟩
  · exact ⟨_, hset hcontexts, fun hkey => if_neg hkey⟩
  · exact ⟨_, hset hcontexts, fun hkey => if_neg hkey⟩
  · refine ⟨_, hset hcontexts, fun _ => ?_⟩
    split_ifs with hkey
    · rw [ConversationState.context, ← hkey, h]
      rfl
    · rfl

/-- The turns of a run are counted from where it started, as a `u64` counts. -/
theorem turns_run (key : String) (ops : List ConversationOp) (hs : (s.context key).turns < 2 ^ 64) :
    ((run step s ops).context key).turns =
      ((s.context key).turns + turnsIn key s ops) % 2 ^ 64 := by
  induction ops generalizing s with
  | nil => rw [run_nil, turnsIn, Nat.add_zero, Nat.mod_eq_of_lt hs]
  | cons op ops ih =>
    have hstep := congrArg ConversationContext.turns (context_step s op key)
    rw [run_cons, turnsIn]
    by_cases hcounted : s.contextKey = key ∧ s.accepts op = true
    · rw [if_pos hcounted] at hstep ⊢
      dsimp only at hstep
      rw [ih (by rw [hstep]; exact Nat.mod_lt _ (by norm_num)), hstep, Nat.mod_add_mod,
        Nat.add_assoc]
    · rw [if_neg hcounted] at hstep ⊢
      dsimp only at hstep
      rw [ih (by rwa [hstep]), hstep, Nat.zero_add]

/-- The session is the last that was attached, or the one from the start. -/
theorem session_run (key : String) (ops : List ConversationOp) (s : ConversationState) :
    ((run step s ops).context key).sessionId =
      (attachedIn key s ops).or (s.context key).sessionId := by
  induction ops generalizing s with
  | nil => rfl
  | cons op ops ih =>
    have hstep := congrArg ConversationContext.sessionId (context_step s op key)
    rw [run_cons, ih, hstep, attachedIn, Option.or_assoc]

end ConversationState

open ConversationState

/-- **Conversations.**  From the default state in any listening mode, after any operations:
the microphone is inactive when muted and does not capture speech when muted or asleep;
typed input leaves it alone and is not spoken; under every key the context holds the number
of submissions that were accepted while it was active, as a `u64` counts them, and the
session that was attached last while it was active; and the next operation removes no
context and alters none but the active one. -/
theorem conversation_agrees (mode : ListeningMode) (ops : List ConversationOp) :
    let start : ConversationState := { listeningMode := mode }
    let s := run step start ops
    (s.muted = true → s.microphone = .inactive) ∧
      (s.sleeping = true ∨ s.muted = true → s.microphone ≠ .capturingSpeech) ∧
      (∀ text, (s.submitTyped text).1.microphone = s.microphone ∧
        ∀ dispatched, (s.submitTyped text).2 = .ok dispatched →
          dispatched.speakResponse = false) ∧
      (∀ key, (s.context key).turns = start.turnsIn key ops % 2 ^ 64 ∧
        (s.context key).sessionId = start.attachedIn key ops) ∧
      ∀ op key context, s.contexts[key]? = some context →
        ∃ context', (s.step op).contexts[key]? = some context' ∧
          (key ≠ s.contextKey → context' = context) := by
  intro start s
  have hprivate : s.Private :=
    run_invariant ConversationState.Private (fun _ op h => h.step op) ops
      (private_of_awake rfl rfl)
  have hstart (key : String) : start.context key = {} := by
    change (((∅ : BTreeMap String ConversationContext).insert "general" {})[key]?).getD {} = {}
    rw [getElem?_insert_eq, Std.ExtTreeMap.getElem?_empty]
    split_ifs <;> rfl
  refine ⟨hprivate.muted, hprivate.asleep, fun text => ?_, fun key => ⟨?_, ?_⟩,
    fun op key context h => contexts_step h op⟩
  · rw [submitTyped, dispatch]
    by_cases hblank : (trim text).isEmpty = true
    · rw [if_pos hblank]
      exact ⟨rfl, fun _ h => nomatch h⟩
    · rw [if_neg hblank]
      refine ⟨rfl, fun dispatched h => ?_⟩
      cases h
      rfl
  · rw [turns_run key ops (by rw [hstart]; norm_num), hstart, Nat.zero_add]
  · rw [session_run key ops start, hstart, Option.or_none]

/-! ### A long conversation -/

/-- Messages that are typed into one context are all counted there. -/
theorem ConversationState.turnsIn_replicate {text : String} (htext : (trim text).isEmpty = false)
    (n : ℕ) (s : ConversationState) :
    s.turnsIn s.contextKey (List.replicate n (.submitTyped text)) = n := by
  induction n generalizing s with
  | zero => rfl
  | succ n ih =>
    have hdispatch : ∃ d, s.submitTyped text =
        (s.setContext s.contextKey (countTurn (s.context s.contextKey)), .ok d) :=
      ⟨_, if_neg (by rw [htext]; decide)⟩
    obtain ⟨d, hd⟩ := hdispatch
    have haccepts : s.accepts (.submitTyped text) = true := by rw [accepts, hd]; rfl
    have hkey : (s.step (.submitTyped text)).contextKey = s.contextKey := by rw [step, hd]; rfl
    rw [List.replicate_succ, turnsIn, if_pos ⟨rfl, haccepts⟩, ← hkey, ih, Nat.add_comm]

/-- **The counter of turns wraps**: after `2 ^ 64` typed messages it is at zero. -/
theorem turns_wrap :
    let start : ConversationState := {}
    let ops := List.replicate (2 ^ 64) (ConversationOp.submitTyped "a")
    start.turnsIn "general" ops = 2 ^ 64 ∧
      ((run step start ops).context "general").turns = 0 := by
  intro start ops
  have hcount : start.turnsIn "general" ops = 2 ^ 64 :=
    turnsIn_replicate (by decide +kernel) (2 ^ 64) start
  refine ⟨hcount, ?_⟩
  have hstart : (start.context "general").turns = 0 := rfl
  rw [turns_run "general" ops (by rw [hstart]; norm_num), hstart, hcount,
    Nat.zero_add,
    Nat.mod_self]

end PersonalAgent.Core
