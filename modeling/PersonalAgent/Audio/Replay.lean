/-
# Replaying dictation

What a target sees of a dictation session: the operations of `ingest`, applied in order to a
buffer that starts empty.  The buffer is that of `apps/desktop/src/dictation.ts`, with its
undo history, except that an operation whose expectation does not hold fails: a revision must
cover the provisional tail, and a deletion must find the utterance at the end.

A partial transcript puts the separator of its utterance on screen, and a final `scratch that`
does not take it off again; the deletion then finds the separator where it expects the
utterance (`scratched_text_is_not_found`).  `replay_faithful` is about the other sessions.
-/

import PersonalAgent.Audio.Dictation
import PersonalAgent.Lib.Except
import PersonalAgent.Lib.Run

namespace PersonalAgent.Audio

open Lib List

open PersonalAgent.Core (trim)

/-! ### The buffer -/

/-- The text of a target in UTF-16 units, how much of it is committed, and the texts that
`Undo` goes back to, the latest first. -/
structure Buffer where
  text : List UInt16 := []
  committed : ℕ := 0
  past : List (List UInt16) := []
  deriving DecidableEq

inductive ReplayError where
  | outsideTail
  | unexpectedText
  | notSpeech
  deriving DecidableEq

namespace Buffer

/-- `rememberUndo`: the text is put on the history, once. -/
def remembered (b : Buffer) : List (List UInt16) :=
  if b.past.head? = some b.text then b.past else b.text :: b.past

/-- One operation.  Those that only other controls emit are not replayed. -/
def apply (b : Buffer) : EditOperation → Except ReplayError Buffer
  | .replaceProvisionalTail _ retainUtf16 deleteUtf16 insert _ =>
    if b.committed + retainUtf16 + deleteUtf16 = b.text.length then
      .ok { b with text := b.text.take (b.committed + retainUtf16) ++ encodeUtf16 insert }
    else .error .outsideTail
  | .commitTransaction _ =>
    .ok { b with
      committed := b.text.length
      past := if b.text.length = b.committed then b.past
        else b.text.take b.committed :: b.past }
  | .deleteLastUtterance expected utf16Len =>
    if utf16Len = (encodeUtf16 expected).length ∧ encodeUtf16 expected <:+ b.text then
      let text := b.text.take (b.text.length - utf16Len)
      .ok { text, committed := min b.committed text.length, past := b.remembered }
    else .error .unexpectedText
  | .undo =>
    match b.past with
    | [] => .ok b
    | prior :: past => .ok { text := prior, committed := prior.length, past }
  | .setMode _ => .ok b
  | _ => .error .notSpeech

def applyAll (b : Buffer) (operations : List EditOperation) : Except ReplayError Buffer :=
  operations.foldlM apply b

/-- The buffer holds the texts `committed`, and `provisional` after them. -/
structure Shows (b : Buffer) (committed : List String) (provisional : String) : Prop where
  text : b.text = encodeUtf16 (String.join committed) ++ encodeUtf16 provisional
  committed : b.committed = (encodeUtf16 (String.join committed)).length

end Buffer

/-! ### Texts -/

theorem join_concat (texts : List String) (last : String) :
    String.join (texts ++ [last]) = String.join texts ++ last := by
  rw [String.join, foldl_append]
  rfl

/-- Two texts agree on what they have in common. -/
theorem take_commonChars (before after : List Char) :
    before.take (commonChars before after) = after.take (commonChars before after) := by
  induction before generalizing after with
  | nil => simp [commonChars]
  | cons c before ih =>
    cases after with
    | nil => simp [commonChars]
    | cons d after =>
      by_cases h : c = d
      · subst h
        simpa [commonChars] using ih after
      · simp [commonChars, h]

/-- A text is its characters up to a place and those from there on. -/
theorem encodeUtf16_split (text : String) (place : ℕ) :
    encodeUtf16 text = encodeUtf16 (String.ofList (text.toList.take place)) ++
      encodeUtf16 (String.ofList (text.toList.drop place)) := by
  rw [← encodeUtf16_append, ← String.ofList_append, take_append_drop, String.ofList_toList]

namespace Buffer

variable {b : Buffer} {committed : List String} {provisional rendered : String}

/-- A revision from what is on screen leaves what it was made for. -/
theorem Shows.apply_diffOperation (h : b.Shows committed provisional) (id stable : ℕ) :
    ∃ b', b.apply (diffOperation id provisional rendered stable) = .ok b' ∧
      b'.Shows committed rendered ∧ b'.past = b.past := by
  have hcommon := take_commonChars provisional.toList rendered.toList
  have hbefore := encodeUtf16_split provisional (commonChars provisional.toList rendered.toList)
  have hafter := encodeUtf16_split rendered (commonChars provisional.toList rendered.toList)
  rw [hcommon] at hbefore
  generalize hkept : encodeUtf16 (String.ofList (rendered.toList.take
    (commonChars provisional.toList rendered.toList))) = kept at hbefore hafter
  refine ⟨{ b with text := encodeUtf16 (String.join committed) ++ encodeUtf16 rendered }, ?_,
    ⟨rfl, h.committed⟩, rfl⟩
  have hlength : b.text.length = b.committed + kept.length + (encodeUtf16 (String.ofList
      (provisional.toList.drop (commonChars provisional.toList rendered.toList)))).length := by
    rw [h.text, hbefore, h.committed]
    simp only [length_append]
    omega
  have htake : b.text.take (b.committed + kept.length) =
      encodeUtf16 (String.join committed) ++ kept := by
    rw [h.text, hbefore, h.committed, ← append_assoc]
    exact take_left' (length_append)
  rw [diffOperation, apply, hkept, if_pos hlength.symm, htake, append_assoc, ← hafter]

/-- Committing makes what is provisional an utterance. -/
theorem Shows.apply_commitTransaction (h : b.Shows committed provisional) (id : ℕ) :
    ∃ b', b.apply (.commitTransaction id) = .ok b' ∧
      b'.Shows (committed ++ [provisional]) "" := by
  refine ⟨_, rfl, ?_, ?_⟩
  · rw [join_concat, encodeUtf16_append, encodeUtf16_empty, append_nil]
    exact h.text
  · rw [join_concat, encodeUtf16_append]
    exact congrArg List.length h.text

/-- With nothing provisional on screen, the last utterance is at the end. -/
theorem Shows.apply_deleteLastUtterance {last : String} (h : b.Shows (committed ++ [last]) "") :
    ∃ b', b.apply (.deleteLastUtterance last (encodeUtf16 last).length) = .ok b' ∧
      b'.Shows committed "" := by
  have htext : b.text = encodeUtf16 (String.join committed) ++ encodeUtf16 last := by
    rw [h.text, join_concat, encodeUtf16_append, encodeUtf16_empty, append_nil]
  have htake : b.text.take (b.text.length - (encodeUtf16 last).length) =
      encodeUtf16 (String.join committed) := by
    rw [htext]
    exact take_left' (by rw [length_append, Nat.add_sub_cancel])
  refine ⟨_, if_pos ⟨rfl, htext ▸ suffix_append _ _⟩, ?_, ?_⟩
  · rw [encodeUtf16_empty, append_nil]
    exact htake
  · have hcommitted := h.committed
    rw [join_concat, encodeUtf16_append, length_append] at hcommitted
    simp only [htake]
    omega

/-- An `Undo` that goes back to no text, from no text. -/
theorem Shows.apply_undo (h : b.Shows [] "") (hpast : b.past.headD [] = []) :
    ∃ b', b.apply .undo = .ok b' ∧ b'.Shows [] "" := by
  cases hb : b.past with
  | nil => exact ⟨b, by rw [apply, hb], h⟩
  | cons prior past =>
    rw [hb] at hpast
    refine ⟨_, by rw [apply, hb], ?_⟩
    rw [headD_cons] at hpast
    exact ⟨hpast, by rw [hpast]; rfl⟩

theorem applyAll_singleton (b : Buffer) (operation : EditOperation) :
    b.applyAll [operation] = b.apply operation := by
  rw [applyAll, foldlM_cons]
  cases b.apply operation <;> rfl

theorem applyAll_append (b : Buffer) (first second : List EditOperation) :
    b.applyAll (first ++ second) = (b.applyAll first >>= (·.applyAll second)) :=
  foldlM_append

end Buffer

/-! ### What the engine keeps -/

namespace DictationEngine

variable [UnicodeTables]

omit [UnicodeTables] in
theorem separatorFor_fields (e : DictationEngine) (next : String) :
    (e.separatorFor next).1.committedUtterances = e.committedUtterances ∧
    (e.separatorFor next).1.priorRendered = e.priorRendered := by
  rw [separatorFor]
  split_ifs <;> exact ⟨rfl, rfl⟩

theorem committedUtterances_prepare (e : DictationEngine) (event : PartialTranscript) :
    (e.prepare event).committedUtterances = e.committedUtterances := by
  rw [prepare, updateStability, choosePrefix]
  split_ifs
  · exact (e.separatorFor_fields (e.displayText event)).1
  · rfl

variable {e : DictationEngine}

/-- A control shows no text of its own, after the separator that is already there. -/
theorem rendered_of_delete {event : PartialTranscript} (h : controlOf event = some deleteControl) :
    e.rendered event = e.transactionPrefix := by
  rw [rendered, prepare, displayText, h]
  exact String.append_empty

omit [UnicodeTables] in
theorem applyControl_delete_of_none (h : e.committedUtterances = []) :
    e.applyControl deleteControl = (e, [.undo]) := by
  simp [applyControl, deleteControl, ParsedControl.single, fillIn, noteOperation, isDelete, h]

omit [UnicodeTables] in
theorem applyControl_delete_of_concat {committed : List String} {last : String}
    (h : e.committedUtterances = committed ++ [last]) :
    e.applyControl deleteControl = ({ e with committedUtterances := committed },
      [.deleteLastUtterance last (encodeUtf16 last).length]) := by
  simp [applyControl, deleteControl, ParsedControl.single, fillIn, noteOperation, isDelete, h]

/-- The revision of `ingest`, which is left out when nothing changes. -/
theorem applyAll_revision {b : Buffer} {committed : List String}
    (h : b.Shows committed e.priorRendered) (event : PartialTranscript) (stable : ℕ) :
    ∃ b', b.applyAll (e.revision event stable) = .ok b' ∧
      b'.Shows committed (e.rendered event) ∧ b'.past = b.past := by
  rw [revision]
  split_ifs with hsame
  · exact ⟨b, rfl, hsame ▸ h, rfl⟩
  · rw [Buffer.applyAll_singleton]
    exact h.apply_diffOperation e.transactionId stable

omit [UnicodeTables] in
/-- The end of `ingest` takes a buffer that shows the rendering to one that shows what the
engine then remembers. -/
theorem applyAll_conclude {b : Buffer} {finalResult : Bool} {control : Option ParsedControl}
    {rendered : String} (words : List String) (h : b.Shows e.committedUtterances rendered)
    (hcontrol : finalResult = true → ∀ c, control = some c → c = deleteControl ∧ rendered = "" ∧
      (e.committedUtterances = [] → b.past.headD [] = [])) :
    ∃ b', b.applyAll (e.conclude finalResult control rendered words).2 = .ok b' ∧
      b'.Shows (e.conclude finalResult control rendered words).1.committedUtterances
        (e.conclude finalResult control rendered words).1.priorRendered := by
  cases finalResult with
  | false => exact ⟨b, rfl, h⟩
  | true =>
    cases control with
    | none =>
      by_cases hempty : rendered.isEmpty
      · have hconclude : e.conclude true none rendered words = (e.startNextTransaction, []) := by
          simp [conclude, hempty]
        rw [String.isEmpty_iff.mp hempty] at h
        rw [hconclude]
        exact ⟨b, rfl, h⟩
      · have hconclude : e.conclude true none rendered words =
            ({ e with committedUtterances := e.committedUtterances ++ [rendered]
              : DictationEngine }.startNextTransaction, [.commitTransaction e.transactionId]) := by
          simp [conclude, hempty]
        rw [hconclude, Buffer.applyAll_singleton]
        exact h.apply_commitTransaction e.transactionId
    | some control =>
      obtain ⟨rfl, rfl, hpast⟩ := hcontrol rfl control rfl
      rcases eq_nil_or_concat e.committedUtterances with hnone | ⟨committed, last, hlast⟩
      · rw [conclude, if_pos rfl, applyControl_delete_of_none hnone, Buffer.applyAll_singleton]
        rw [hnone] at h
        obtain ⟨b', hb', hshows⟩ := h.apply_undo (hpast hnone)
        exact ⟨b', hb', by rwa [← hnone] at hshows⟩
      · rw [concat_eq_append] at hlast
        rw [conclude, if_pos rfl, applyControl_delete_of_concat hlast, Buffer.applyAll_singleton]
        rw [hlast] at h
        exact h.apply_deleteLastUtterance

end DictationEngine

/-! ### A session -/

/-- The engine, and the buffer that its operations were applied to so far. -/
structure Dictation where
  engine : DictationEngine
  buffer : Except ReplayError Buffer

namespace Dictation

variable [UnicodeTables]

def start (mode : DictationMode) : Dictation :=
  { engine := .new mode, buffer := .ok {} }

/-- A transcript goes to the engine, and what the engine emits to the buffer. -/
def hear (d : Dictation) (event : PartialTranscript) : Dictation :=
  match d.engine.ingest event with
  | (engine, .ok update) => { engine, buffer := d.buffer >>= (·.applyAll update.operations) }
  | (engine, .error _) => { d with engine }

/-- What a session consists of here: no NUL, and final transcripts that are ordinary speech or
`scratch that`.  The last two conditions are on the state such a final transcript finds: no
separator is on screen, and if there is no utterance to delete, so that the control becomes an
`Undo`, then that `Undo` does not bring a text back. -/
def Spoken (d : Dictation) (event : PartialTranscript) : Prop :=
  '\x00' ∉ event.text.toList ∧
  (event.finalResult = true → ∀ control, parseControl (trim event.text) = some control →
    control = deleteControl ∧ d.engine.transactionPrefix = "" ∧
    (d.engine.committedUtterances = [] → ∀ b, d.buffer = .ok b → b.past.headD [] = []))

instance decidableSpoken (d : Dictation) (event : PartialTranscript) :
    Decidable (d.Spoken event) :=
  match hbuffer : d.buffer, hparsed : parseControl (trim event.text) with
  | .ok b, some control => decidable_of_iff ('\x00' ∉ event.text.toList ∧
      (event.finalResult = true → control = deleteControl ∧ d.engine.transactionPrefix = "" ∧
        (d.engine.committedUtterances = [] → b.past.headD [] = [])))
      (by simp [Spoken, hbuffer, hparsed])
  | .error _, some control => decidable_of_iff ('\x00' ∉ event.text.toList ∧
      (event.finalResult = true → control = deleteControl ∧ d.engine.transactionPrefix = ""))
      (by simp [Spoken, hbuffer, hparsed])
  | _, none => decidable_of_iff ('\x00' ∉ event.text.toList) (by simp [Spoken, hparsed])

/-- The buffer shows the committed utterances and what the engine last rendered. -/
def Mirrors (d : Dictation) : Prop :=
  ∃ b, d.buffer = .ok b ∧ b.Shows d.engine.committedUtterances d.engine.priorRendered

variable {d : Dictation} {event : PartialTranscript}

/-- What a transcript does that the engine accepts. -/
theorem hear_eq (h : '\x00' ∉ event.text.toList) :
    ∃ stable, d.hear event =
      let concluded := (d.engine.prepare event).conclude event.finalResult
        (DictationEngine.controlOf event) (d.engine.rendered event)
        (tokenize (d.engine.displayText event))
      { engine := concluded.1
        buffer := d.buffer >>= (·.applyAll (d.engine.revision event stable ++ concluded.2)) } := by
  refine ⟨(d.engine.prepare event).stablePrefix ((d.engine.prepare event).tokensOf
    (tokenize (d.engine.displayText event)) event.finalResult) (d.engine.rendered event), ?_⟩
  rw [hear, DictationEngine.ingest, if_neg (by simpa using h)]

/-- One transcript keeps the buffer and the engine in step. -/
theorem Mirrors.hear (hspoken : d.Spoken event) (h : d.Mirrors) : (d.hear event).Mirrors := by
  obtain ⟨b, hb, hshows⟩ := h
  obtain ⟨stable, heq⟩ := hear_eq (d := d) hspoken.1
  obtain ⟨b₁, hb₁, hshows₁, hpast⟩ := DictationEngine.applyAll_revision hshows event stable
  rw [← d.engine.committedUtterances_prepare event] at hshows₁
  have hcontrol : event.finalResult = true → ∀ c, DictationEngine.controlOf event = some c →
      c = deleteControl ∧ d.engine.rendered event = "" ∧
      ((d.engine.prepare event).committedUtterances = [] → b₁.past.headD [] = []) := by
    intro hfinal c hc
    have hparsed := hc
    rw [DictationEngine.controlOf, if_pos hfinal] at hparsed
    obtain ⟨rfl, hnothing, hundo⟩ := hspoken.2 hfinal c hparsed
    refine ⟨rfl, (DictationEngine.rendered_of_delete hc).trans hnothing, fun hnone => ?_⟩
    rw [hpast]
    exact hundo (d.engine.committedUtterances_prepare event ▸ hnone) b hb
  obtain ⟨b₂, hb₂, hshows₂⟩ := DictationEngine.applyAll_conclude
    (tokenize (d.engine.displayText event)) hshows₁ hcontrol
  rw [heq]
  refine ⟨b₂, ?_, hshows₂⟩
  rw [hb]
  change b.applyAll _ = _
  rw [Buffer.applyAll_append, hb₁]
  exact hb₂

/-- A final transcript leaves nothing provisional. -/
theorem priorRendered_hear (h : '\x00' ∉ event.text.toList) (hfinal : event.finalResult = true) :
    (d.hear event).engine.priorRendered = "" := by
  obtain ⟨stable, heq⟩ := hear_eq (d := d) h
  rw [heq, hfinal]
  rfl

/-- **Replayed dictation is the committed text.**  Along a session of ordinary speech and
`scratch that`, in which no such control finds its separator on screen, every operation finds
what it expects; and after a final transcript the buffer is the concatenation of the committed
utterances, all of it committed. -/
theorem replay_faithful (mode : DictationMode) (events : List PartialTranscript)
    (h : Along hear Spoken (start mode) events) :
    ∃ b, (run hear (start mode) events).buffer = .ok b ∧
      ∀ event, events.getLast? = some event → event.finalResult = true →
        b.text = encodeUtf16
          (String.join (run hear (start mode) events).engine.committedUtterances) ∧
        b.committed = b.text.length := by
  obtain ⟨b, hb, hshows⟩ := h.invariant Mirrors (fun _ _ => Mirrors.hear)
    ⟨{}, rfl, rfl, rfl⟩
  refine ⟨b, hb, fun event hlast hfinal => ?_⟩
  obtain ⟨events, rfl⟩ := getLast?_eq_some_iff.mp hlast
  have hspoken := ((along_append _ _ _).mp h).2.1
  have hnone : (run hear (start mode) (events ++ [event])).engine.priorRendered = "" := by
    rw [run_append]
    exact priorRendered_hear hspoken.1 hfinal
  have htext := hshows.text
  rw [hnone, encodeUtf16_empty, append_nil] at htext
  exact ⟨htext, by rw [htext]; exact hshows.committed⟩

end Dictation

section Examples

/-- The letters and digits of ASCII. -/
@[reducible]
def asciiTables : UnicodeTables where
  isAlphanumeric c := (48 ≤ c.toNat && c.toNat ≤ 57) || (65 ≤ c.toNat && c.toNat ≤ 90) ||
    (97 ≤ c.toNat && c.toNat ≤ 122)

attribute [local instance] asciiTables

namespace Dictation

/-- The partial transcript of a control comes after an utterance. -/
def scratchedInSteps : List PartialTranscript :=
  [⟨"hello", true⟩, ⟨"scratch", false⟩, ⟨"scratch that", true⟩]

/-- **The separator of a control stays.**  The control finds the separator of its partial
transcript on screen; the buffer is then the utterance and a blank, and the utterance is not
at its end. -/
theorem scratched_text_is_not_found :
    let d := run hear (start .natural) scratchedInSteps
    d.buffer = .error .unexpectedText ∧ d.engine.committedUtterances = [] ∧
    (run hear (start .natural) (scratchedInSteps.take 2)).engine.transactionPrefix = " " ∧
    scratchedInSteps.map (fun event => parseControl (trim event.text)) =
      [none, none, some deleteControl] := by
  decide +kernel

/-- Two utterances, the second of them scratched and the control heard at once. -/
def scratchedAtOnce : List PartialTranscript :=
  [⟨"hel", false⟩, ⟨"hello comma", false⟩, ⟨"hello", true⟩, ⟨"wor", false⟩, ⟨"world", true⟩,
    ⟨"Scratch that.", true⟩]

/-- The first utterance is left. -/
theorem replay_faithful_scratched :
    ∃ b, (run hear (start .natural) scratchedAtOnce).buffer = .ok b ∧
      b.text = encodeUtf16 "hello" ∧ b.committed = b.text.length := by
  obtain ⟨b, hb, hfinal⟩ := replay_faithful .natural scratchedAtOnce (by decide +kernel)
  obtain ⟨htext, hcommitted⟩ := hfinal ⟨"Scratch that.", true⟩ (by decide +kernel) rfl
  exact ⟨b, hb, htext.trans (by decide +kernel), hcommitted⟩

end Dictation
end Examples

end PersonalAgent.Audio
