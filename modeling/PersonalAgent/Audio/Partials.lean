/-
# What partial transcripts leave behind

A partial transcript is a guess that its final transcript replaces, and the finished document
should not depend on it.  The mode does not.  The committed utterances can: the separator of an
utterance is chosen for the first text that is shown of it, a pending suppression of the separator
is used up by that choice, and a control that follows uses neither.

`committed_independent` says when no guess leaves a trace.  The engine that hears all transcripts
is compared with the one that hears the final ones only.
-/

import PersonalAgent.Audio.Replay

namespace PersonalAgent.Audio

open Lib DictationEngine

namespace DictationEngine
open PersonalAgent.Core (trim)

/-! ### What an utterance leaves to the next -/

/-- Two engines agree on everything that outlasts an utterance. -/
structure Agree (e e' : DictationEngine) : Prop where
  mode : e.mode = e'.mode
  committed : e.committedUtterances = e'.committedUtterances
  suppress : e.suppressNextSeparator = e'.suppressNextSeparator

variable {e e' : DictationEngine}

/-- The choice of a separator uses up a pending suppression. -/
theorem separatorFor_fst (e : DictationEngine) (next : String) :
    (e.separatorFor next).1 = { e with suppressNextSeparator := false } := by
  rw [separatorFor]
  split_ifs with hsuppress
  · rfl
  · rw [Bool.not_eq_true] at hsuppress
    rw [← hsuppress]

theorem separatorFor_snd_congr (hsuppress : e.suppressNextSeparator = e'.suppressNextSeparator)
    (hcommitted : e.committedUtterances = e'.committedUtterances) (next : String) :
    (e.separatorFor next).2 = (e'.separatorFor next).2 := by
  rw [separatorFor, separatorFor, hsuppress, hcommitted]
  split_ifs <;> rfl

theorem Agree.noteOperation (h : Agree e e') (operation : EditOperation) :
    Agree (e.noteOperation operation) (e'.noteOperation operation) := by
  cases operation with
  | setMode mode => exact ⟨rfl, h.committed, h.suppress⟩
  | changeIndent => exact ⟨h.mode, h.committed, rfl⟩
  | insertText text =>
    simp only [DictationEngine.noteOperation]
    split_ifs
    · exact ⟨h.mode, h.committed, rfl⟩
    · exact h
  | _ => exact h

theorem Agree.noteOperations (h : Agree e e') (operations : List EditOperation) :
    Agree (operations.foldl DictationEngine.noteOperation e)
      (operations.foldl DictationEngine.noteOperation e') := by
  induction operations generalizing e e' with
  | nil => exact h
  | cons operation operations ih => exact ih (h.noteOperation operation)

theorem Agree.applyControl (h : Agree e e') (control : ParsedControl) :
    Agree (e.applyControl control).1 (e'.applyControl control).1 := by
  simp only [DictationEngine.applyControl, h.committed]
  have hnoted := h.noteOperations
    (control.operations.map (fillIn e'.committedUtterances.getLast?))
  split_ifs
  · exact ⟨hnoted.mode, congrArg List.dropLast hnoted.committed, hnoted.suppress⟩
  · exact hnoted

theorem Agree.startNextTransaction (h : Agree e e') :
    Agree e.startNextTransaction e'.startNextTransaction :=
  ⟨h.mode, h.committed, h.suppress⟩

/-! ### Transcripts -/

section Transcripts

variable {event : PartialTranscript} {rest : List PartialTranscript}

/-- A transcript that `ingest` refuses. -/
abbrev Refused (event : PartialTranscript) : Prop := event.text.toList.contains '\x00'

/-- The transcript that ends the utterance at hand. -/
def ending (rest : List PartialTranscript) : Option PartialTranscript :=
  rest.find? fun event => event.finalResult && !event.text.toList.contains '\x00'

theorem ending_skip (h : event.finalResult = false ∨ Refused event) :
    ending (event :: rest) = ending rest := by
  rw [ending, List.find?_cons_of_neg]
  · rfl
  · rcases h with h | h
    · simp [h]
    · rw [h, Bool.not_true, Bool.and_false]
      exact nofun

theorem ending_here (h : ¬Refused event) (hfinal : event.finalResult = true) :
    ending (event :: rest) = some event := by
  rw [ending, List.find?_cons_of_pos]
  simpa [Refused, hfinal] using h

theorem controlOf_guess (hguess : event.finalResult = false) : controlOf event = none := by
  rw [controlOf, hguess]
  rfl

end Transcripts

/-! ### One transcript -/

section Hear

variable [UnicodeTables] {event : PartialTranscript}

/-- The engine after a transcript; one that is refused changes nothing. -/
def hear (e : DictationEngine) (event : PartialTranscript) : DictationEngine := (e.ingest event).1

theorem hear_refused (h : Refused event) : e.hear event = e := by
  rw [hear, ingest, if_pos h]

theorem hear_accepted (h : ¬Refused event) :
    e.hear event = ((e.prepare event).conclude event.finalResult (controlOf event)
      (e.rendered event) (tokenize (e.displayText event))).1 := by
  rw [hear, ingest, if_neg h]

theorem hear_guess (h : ¬Refused event) (hguess : event.finalResult = false) :
    e.hear event = { e.prepare event with
      priorRendered := e.rendered event
      priorTokens := tokenize (e.displayText event) } := by
  rw [hear_accepted h, hguess]
  rfl

theorem hear_control {control : ParsedControl} (h : ¬Refused event)
    (hfinal : event.finalResult = true) (hcontrol : controlOf event = some control) :
    e.hear event = ((e.prepare event).applyControl control).1.startNextTransaction := by
  rw [hear_accepted h, hfinal, hcontrol]
  rfl

theorem hear_text (h : ¬Refused event) (hfinal : event.finalResult = true)
    (hcontrol : controlOf event = none) (htext : e.displayText event ≠ "") :
    e.hear event = { e.prepare event with
      committedUtterances := (e.prepare event).committedUtterances ++ [e.rendered event]
      : DictationEngine }.startNextTransaction := by
  have hrendered : e.rendered event ≠ "" := by
    rw [rendered]
    intro hempty
    exact htext (String.append_eq_empty_iff.mp hempty).2
  rw [hear_accepted h, hfinal, hcontrol]
  simp only [conclude, if_true]
  rw [if_neg (by simpa using hrendered)]

theorem hear_nothing (h : ¬Refused event) (hfinal : event.finalResult = true)
    (hcontrol : controlOf event = none) (hnothing : e.displayText event = "")
    (hlead : e.transactionPrefix = "") :
    e.hear event = (e.prepare event).startNextTransaction := by
  have hrendered : e.rendered event = "" := by
    rw [rendered, prepare, choosePrefix, hnothing]
    simpa [updateStability] using hlead
  rw [hear_accepted h, hfinal, hcontrol]
  simp only [conclude, if_true]
  rw [if_pos (by simpa using hrendered)]

/-- No separator is chosen for a control, nor for no text, nor a second time. -/
theorem prepare_of_not_first (h : (controlOf event).isSome ∨ e.priorRendered ≠ "" ∨
    e.displayText event = "") :
    e.prepare event = e.updateStability (tokenize (e.displayText event)) := by
  rw [prepare, choosePrefix, if_neg]
  rcases h with h | h | h
  · simp [Option.isSome_iff_ne_none.mp h]
  · simp [h]
  · simp [h]

theorem prepare_of_first (hcontrol : controlOf event = none) (hprior : e.priorRendered = "")
    (htext : e.displayText event ≠ "") :
    e.prepare event = { e with
      suppressNextSeparator := false
      transactionPrefix := (e.separatorFor (e.displayText event)).2
      : DictationEngine }.updateStability (tokenize (e.displayText event)) := by
  rw [prepare, choosePrefix, if_pos (by simp [hcontrol, hprior, htext])]
  simp only [separatorFor_fst]

theorem displayText_congr (h : e.mode = e'.mode) : e.displayText event = e'.displayText event := by
  rw [displayText, displayText, h]

/-! ### Guesses -/

/-- The end of an utterance of which `shown` is the first text on screen. -/
def EndsAs (e : DictationEngine) (shown : String) (final : PartialTranscript) : Prop :=
  if (controlOf final).isSome then e.suppressNextSeparator = false
  else e.displayText final ≠ "" ∧
    (e.separatorFor (e.displayText final)).2 = (e.separatorFor shown).2

instance (e : DictationEngine) (shown : String) (final : PartialTranscript) :
    Decidable (e.EndsAs shown final) := by
  unfold EndsAs
  infer_instance

/-- A partial transcript that will leave no trace.  It shows nothing and nothing of its utterance
was shown before; or it shows text, and if that is the first, the utterance ends with a text that
gets the same separator, or with a control and no suppression is pending. -/
def Foreseen (e : DictationEngine) (event : PartialTranscript) (rest : List PartialTranscript) :
    Prop :=
  if e.displayText event = "" then e.priorRendered = ""
  else e.priorRendered = "" →
    ∀ final ∈ ending rest, e.EndsAs (e.displayText event) final

instance (e : DictationEngine) (event : PartialTranscript) (rest : List PartialTranscript) :
    Decidable (e.Foreseen event rest) := by
  unfold Foreseen
  infer_instance

/-- Every partial transcript that is not refused is foreseen where it is heard. -/
def ForeseenAll : DictationEngine → List PartialTranscript → Prop
  | _, [] => True
  | e, event :: rest =>
    (event.finalResult = false → ¬Refused event → e.Foreseen event rest) ∧
      ForeseenAll (e.hear event) rest

instance ForeseenAll.decidable : ∀ (e : DictationEngine) (events : List PartialTranscript),
    Decidable (e.ForeseenAll events)
  | _, [] => inferInstanceAs (Decidable True)
  | e, event :: rest =>
    have := ForeseenAll.decidable (e.hear event) rest
    inferInstanceAs (Decidable ((event.finalResult = false → ¬Refused event →
      e.Foreseen event rest) ∧ ForeseenAll (e.hear event) rest))

/-! ### The engine without guesses -/

/-- `e` has heard guesses, `plain` has not.  Either nothing of the utterance at hand was shown and
they agree, or it was, and it will end so that this makes no difference. -/
structure Follows (e plain : DictationEngine) (rest : List PartialTranscript) : Prop where
  mode : e.mode = plain.mode
  committed : e.committedUtterances = plain.committedUtterances
  plainPrefix : plain.transactionPrefix = ""
  plainPrior : plain.priorRendered = ""
  shown : e.priorRendered = "" ∧ e.transactionPrefix = "" ∧
      e.suppressNextSeparator = plain.suppressNextSeparator ∨
    e.priorRendered ≠ "" ∧ e.suppressNextSeparator = false ∧
      ∀ final ∈ ending rest,
        if (controlOf final).isSome then plain.suppressNextSeparator = false
        else plain.displayText final ≠ "" ∧
          (plain.separatorFor (plain.displayText final)).2 = e.transactionPrefix

variable {plain : DictationEngine} {rest : List PartialTranscript}

/-- What is skipped does not end an utterance. -/
theorem Follows.skip (h : Follows e plain (event :: rest))
    (hskip : event.finalResult = false ∨ Refused event) : Follows e plain rest :=
  ⟨h.mode, h.committed, h.plainPrefix, h.plainPrior, by rw [← ending_skip hskip]; exact h.shown⟩

/-- A guess that is foreseen keeps the engines in step. -/
theorem Follows.hear_guess (h : Follows e plain (event :: rest)) (haccepted : ¬Refused event)
    (hguess : event.finalResult = false) (hforeseen : e.Foreseen event rest) :
    Follows (e.hear event) plain rest := by
  have hkept := h.skip (.inl hguess)
  have hcontrol := controlOf_guess hguess
  rw [DictationEngine.hear_guess haccepted hguess]
  rw [Foreseen] at hforeseen
  split_ifs at hforeseen with hnothing
  · -- nothing is shown, and nothing was shown before
    have hprepare := prepare_of_not_first (e := e) (.inr (.inr hnothing))
    rcases hkept.shown with ⟨-, hlead, hsuppress⟩ | ⟨hprior, -⟩
    · refine ⟨?_, ?_, hkept.plainPrefix, hkept.plainPrior, .inl ⟨?_, ?_, ?_⟩⟩
      · rw [hprepare]
        exact hkept.mode
      · rw [hprepare]
        exact hkept.committed
      · change e.rendered event = ""
        rw [rendered, hprepare, hnothing, String.append_empty]
        exact hlead
      · rw [hprepare]
        exact hlead
      · rw [hprepare]
        exact hsuppress
    · exact absurd hforeseen hprior
  · have hrendered : e.rendered event ≠ "" := fun hempty =>
      hnothing (String.append_eq_empty_iff.mp hempty).2
    rcases hkept.shown with ⟨hprior, -, hsuppress⟩ | ⟨hprior, hsuppress, hends⟩
    · -- the first text of the utterance chooses its separator
      have hprepare := prepare_of_first hcontrol hprior hnothing
      refine ⟨?_, ?_, hkept.plainPrefix, hkept.plainPrior, .inr ⟨hrendered, ?_, ?_⟩⟩
      · rw [hprepare]
        exact hkept.mode
      · rw [hprepare]
        exact hkept.committed
      · rw [hprepare]
        rfl
      · intro final hfinal
        have hend := hforeseen hprior final hfinal
        rw [EndsAs] at hend
        split_ifs at hend ⊢ with hsome
        · rw [← hsuppress]
          exact hend
        · rw [← displayText_congr hkept.mode,
            ← separatorFor_snd_congr hsuppress hkept.committed, hprepare]
          exact hend
    · -- the separator has been chosen
      have hprepare : e.prepare event = e.updateStability (tokenize (e.displayText event)) :=
        prepare_of_not_first (.inr (.inl hprior))
      refine ⟨?_, ?_, hkept.plainPrefix, hkept.plainPrior, .inr ⟨hrendered, ?_, ?_⟩⟩
      · rw [hprepare]
        exact hkept.mode
      · rw [hprepare]
        exact hkept.committed
      · rw [hprepare]
        exact hsuppress
      · rw [hprepare]
        exact hends

/-- Engines that agree between two utterances. -/
theorem Follows.of_agree (h : Agree e plain) (hprior : e.priorRendered = "")
    (hlead : e.transactionPrefix = "") (hplainPrior : plain.priorRendered = "")
    (hplainPrefix : plain.transactionPrefix = "") : Follows e plain rest :=
  ⟨h.mode, h.committed, hplainPrefix, hplainPrior, .inl ⟨hprior, hlead, h.suppress⟩⟩

theorem Follows.started (h : Agree e plain) :
    Follows e.startNextTransaction plain.startNextTransaction rest :=
  .of_agree h.startNextTransaction rfl rfl rfl rfl

/-- A final transcript ends the utterance in the same way for both engines. -/
theorem Follows.hear_final (h : Follows e plain (event :: rest)) (haccepted : ¬Refused event)
    (hfinal : event.finalResult = true) : Follows (e.hear event) (plain.hear event) rest := by
  have hdisplay : e.displayText event = plain.displayText event := displayText_congr h.mode
  cases hcontrol : controlOf event with
  | some control =>
    have hsome : (controlOf event).isSome := by rw [hcontrol]; rfl
    have hsuppress : e.suppressNextSeparator = plain.suppressNextSeparator := by
      rcases h.shown with ⟨-, -, hsame⟩ | ⟨-, hnone, hends⟩
      · exact hsame
      · have hend := hends event (by rw [ending_here haccepted hfinal]; exact rfl)
        rw [if_pos hsome] at hend
        exact hnone.trans hend.symm
    rw [hear_control haccepted hfinal hcontrol, hear_control haccepted hfinal hcontrol,
      prepare_of_not_first (.inl hsome), prepare_of_not_first (.inl hsome)]
    have hagree : Agree (e.updateStability (tokenize (e.displayText event)))
        (plain.updateStability (tokenize (plain.displayText event))) :=
      ⟨h.mode, h.committed, hsuppress⟩
    exact .started (hagree.applyControl control)
  | none =>
    by_cases hnothing : plain.displayText event = ""
    · -- there is nothing to commit, and nothing was shown
      have hsome : ¬(controlOf event).isSome := by rw [hcontrol]; exact nofun
      rcases h.shown with ⟨hprior, hlead, hsuppress⟩ | ⟨-, -, hends⟩
      · rw [hear_nothing haccepted hfinal hcontrol (hdisplay.trans hnothing) hlead,
          hear_nothing haccepted hfinal hcontrol hnothing h.plainPrefix,
          prepare_of_not_first (.inr (.inr (hdisplay.trans hnothing))),
          prepare_of_not_first (.inr (.inr hnothing))]
        exact .started ⟨h.mode, h.committed, hsuppress⟩
      · have hend := hends event (by rw [ending_here haccepted hfinal]; exact rfl)
        rw [if_neg hsome] at hend
        exact absurd hnothing hend.1
    · -- both commit the text, after the same separator
      have htext : e.displayText event ≠ "" := hdisplay ▸ hnothing
      have hsome : ¬(controlOf event).isSome := by rw [hcontrol]; exact nofun
      have hplain := prepare_of_first hcontrol h.plainPrior hnothing
      rw [hear_text haccepted hfinal hcontrol htext, hear_text haccepted hfinal hcontrol hnothing]
      have hboth : (e.prepare event).transactionPrefix = (plain.prepare event).transactionPrefix ∧
          Agree (e.prepare event) (plain.prepare event) := by
        rcases h.shown with ⟨hprior, -, hsuppress⟩ | ⟨hprior, hsuppress, hends⟩
        · rw [prepare_of_first hcontrol hprior htext, hplain]
          refine ⟨?_, h.mode, h.committed, rfl⟩
          change (e.separatorFor _).2 = (plain.separatorFor _).2
          rw [hdisplay, separatorFor_snd_congr hsuppress h.committed]
        · have hend := hends event (by rw [ending_here haccepted hfinal]; exact rfl)
          rw [if_neg hsome] at hend
          rw [prepare_of_not_first (.inr (.inl hprior)), hplain]
          exact ⟨hend.2.symm, h.mode, h.committed, hsuppress⟩
      have hrendered : e.rendered event = plain.rendered event := by
        rw [rendered, rendered, hboth.1, hdisplay]
      refine .started ⟨hboth.2.mode, ?_, hboth.2.suppress⟩
      rw [hrendered, hboth.2.committed]

theorem Follows.run {events : List PartialTranscript} (h : Follows e plain events)
    (hforeseen : e.ForeseenAll events) :
    Follows (run hear e events)
      (run hear plain (events.filter (·.finalResult))) [] := by
  induction events generalizing e plain with
  | nil => exact h
  | cons event rest ih =>
    obtain ⟨hhere, hrest⟩ := hforeseen
    cases hfinal : event.finalResult with
    | true =>
      rw [List.filter_cons_of_pos hfinal]
      by_cases hrefused : Refused event
      · refine ih ?_ hrest
        rw [hear_refused hrefused, hear_refused hrefused]
        exact h.skip (.inr hrefused)
      · exact ih (h.hear_final hrefused hfinal) hrest
    | false =>
      rw [List.filter_cons_of_neg (by rw [hfinal]; exact nofun)]
      by_cases hrefused : Refused event
      · refine ih ?_ hrest
        rw [hear_refused hrefused]
        exact h.skip (.inr hrefused)
      · exact ih (h.hear_guess hrefused hfinal (hhere hfinal hrefused)) hrest

theorem follows_new (mode : DictationMode) (events : List PartialTranscript) :
    Follows (new mode) (new mode) events :=
  .of_agree ⟨rfl, rfl, rfl⟩ rfl rfl rfl rfl

/-- **Guesses leave no trace.**  Two sequences of transcripts with the same final ones end with
the same committed utterances and the same mode, if every partial transcript of either is foreseen
by the end of its utterance. -/
theorem committed_independent (mode : DictationMode) (first second : List PartialTranscript)
    (hfinals : first.filter (·.finalResult) = second.filter (·.finalResult))
    (hfirst : (new mode).ForeseenAll first) (hsecond : (new mode).ForeseenAll second) :
    (run hear (new mode) first).committedUtterances
        = (run hear (new mode) second).committedUtterances ∧
      (run hear (new mode) first).mode
        = (run hear (new mode) second).mode := by
  have hone := (follows_new mode first).run hfirst
  have htwo := (follows_new mode second).run hsecond
  rw [hfinals] at hone
  exact ⟨hone.committed.trans htwo.committed.symm, hone.mode.trans htwo.mode.symm⟩

end Hear

section Examples

attribute [local instance] asciiTables

/-- Two utterances, the second after guesses of it and a control between them. -/
def guessed : List PartialTranscript :=
  [⟨"one", true⟩, ⟨"", false⟩, ⟨"bold", false⟩, ⟨"bold that", true⟩, ⟨"per", false⟩,
    ⟨"peri", false⟩, ⟨"periodic table", true⟩]

/-- The same without the guesses. -/
def unguessed : List PartialTranscript :=
  [⟨"one", true⟩, ⟨"bold that", true⟩, ⟨"periodic table", true⟩]

/-- The guesses do not change what is committed. -/
theorem committed_independent_guessed :
    (run hear (new .natural) guessed).committedUtterances
      = ["one", " periodic table"] :=
  (committed_independent .natural guessed unguessed (by decide) (by decide +kernel)
    (by decide +kernel)).1.trans (by decide +kernel)

/-- The recogniser has first taken the second utterance for a punctuation mark. -/
def misheard : List PartialTranscript :=
  [⟨"one", true⟩, ⟨"period", false⟩, ⟨"periodic table", true⟩]

/-- **A guess joins two words.**  The separator is chosen for the full stop that the first guess
shows, and kept for the text that replaces it. -/
theorem guess_joins_words :
    misheard.filter (·.finalResult) = [⟨"one", true⟩, ⟨"periodic table", true⟩] ∧
      (run hear (new .natural) misheard).committedUtterances
        = ["one", "periodic table"] ∧
      (run hear (new .natural)
        (misheard.filter (·.finalResult))).committedUtterances = ["one", " periodic table"] := by
  decide +kernel

end Examples

end DictationEngine
end PersonalAgent.Audio
