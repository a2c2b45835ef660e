/-
# A native edit is undone at most once

Every native Undo that a dictation session sends should take back the edit it
submitted last, in the window the edit went to.  The session keeps one record for
that, the last applied edit, and brings it up to date when an operation has ended
well.  A replacement is an Undo followed by typing: when the typing fails, the Undo
has gone out and the record still names the edit it took back.

`outstanding` reads off what was sent which edits are not yet undone, newest first;
the invariant ties its head to the session's record.
-/

import PersonalAgent.Lib.Except
import PersonalAgent.Lib.Run
import PersonalAgent.Desktop.NativeDictation

namespace PersonalAgent.Desktop

open Lib List NativeDictationSession

/-! ### What was sent -/

/-- The edits that are not yet undone, newest first, with their windows. -/
def outstanding (log : List Sent) : List (String × String) :=
  log.foldl (fun edits sent =>
    match sent with
    | .typed windowId text => (windowId, text) :: edits
    | .undone _ => edits.tail) []

/-- Every Undo took back the newest edit that was not yet undone, in its window. -/
def Matched (log : List Sent) : Prop :=
  ∀ before windowId after, log = before ++ .undone windowId :: after →
    ∃ text rest, outstanding before = (windowId, text) :: rest

theorem outstanding_typed (log : List Sent) (windowId text : String) :
    outstanding (log ++ [.typed windowId text]) = (windowId, text) :: outstanding log := by
  simp [outstanding]

theorem matched_nil : Matched [] := fun before windowId after h => by simp at h

/-- What one more entry has to meet. -/
theorem Matched.snoc {log : List Sent} {sent : Sent} (h : Matched log)
    (hnew : ∀ windowId, sent = .undone windowId →
      ∃ text rest, outstanding log = (windowId, text) :: rest) : Matched (log ++ [sent]) := by
  intro before windowId after hlog
  rcases eq_nil_or_concat after with rfl | ⟨middle, final, rfl⟩
  · obtain ⟨rfl, hsent⟩ := append_inj' hlog rfl
    exact hnew windowId (List.cons.inj hsent).1
  · rw [concat_eq_append, ← cons_append, ← append_assoc] at hlog
    obtain ⟨hold, -⟩ := append_inj' hlog rfl
    exact h before windowId middle hold

theorem Matched.typed {log : List Sent} (h : Matched log) (windowId text : String) :
    Matched (log ++ [.typed windowId text]) :=
  h.snoc fun _ heq => by cases heq

/-! ### The commands of an adapter -/

/-- The keys go to the given window: the adapter names it, or it has the focus. -/
def NativeInputAdapter.Reaches (adapter : NativeInputAdapter) (keys : Keys) (windowId : String) :
    Prop :=
  match adapter with
  | .wtype | .ydotool _ | .xdotool => keys.focused = windowId
  | .hyprlandClipboard | .contractOnly _ => True

instance NativeInputAdapter.decidableReaches (keys : Keys) (windowId : String) :
    (adapter : NativeInputAdapter) → Decidable (adapter.Reaches keys windowId)
  | .wtype | .ydotool _ | .xdotool => inferInstanceAs (Decidable (_ = _))
  | .hyprlandClipboard | .contractOnly _ => inferInstanceAs (Decidable True)

/-- Every command of the adapter's typing ends well. -/
def Keys.succeed (keys : Keys) : NativeInputAdapter → Bool
  | .hyprlandClipboard =>
    keys.capture.isOk && keys.copy.isOk && keys.send.isOk && keys.restore.isOk
  | _ => keys.send.isOk

def Keys.restored (keys : Keys) : NativeInputAdapter → Bool
  | .hyprlandClipboard =>
    !(keys.capture.isOk && keys.copy.isOk && keys.send.isOk) || keys.restore.isOk
  | _ => true

theorem isOk_unit {ε : Type} {x : Except ε Unit} (h : x.isOk = true) : x = .ok () := by
  cases x with
  | error e => cases h
  | ok u => rfl

variable {target : NativeDictationTarget} {keys : Keys}

/-- A tool that reports an error has sent nothing. -/
def failsQuietly : Except ToolError Unit → Bool
  | .error e => !e.sent
  | .ok () => true

theorem submitTo_cases {answer : Except ToolError Unit} (h : failsQuietly answer = true)
    (what : Sent) :
    ((submitTo answer what).sent = [] ∧ (submitTo answer what).result ≠ .ok ()) ∨
      answer = .ok () ∧ submitTo answer what = { sent := [what] } := by
  cases answer with
  | error e => exact .inl ⟨if_neg (by simpa [failsQuietly] using h), nofun⟩
  | ok u => exact .inr ⟨rfl, rfl⟩

theorem submitTo_ok {answer : Except ToolError Unit} {what : Sent}
    (h : (submitTo answer what).result = .ok ()) : answer = .ok () := by
  cases answer with
  | error e => cases h
  | ok u => rfl

theorem failsQuietly_sendHyprShortcut (h : failsQuietly keys.send = true)
    (target : NativeDictationTarget) :
    failsQuietly (sendHyprShortcut target keys) = true := by
  unfold sendHyprShortcut
  split_ifs
  · exact h
  · rfl

theorem sendHyprShortcut_ok (h : sendHyprShortcut target keys = .ok ()) :
    isHyprAddress target.windowId = true ∧ keys.send = .ok () := by
  unfold sendHyprShortcut at h
  split_ifs at h with haddress
  exact ⟨haddress, h⟩

theorem pasteResult_ok {paste : Except ToolError Unit} {restore : Except String Unit}
    (h : pasteResult paste restore = .ok ()) : paste = .ok () ∧ restore = .ok () := by
  cases paste <;> cases restore <;> first | exact ⟨rfl, rfl⟩ | cases h

theorem hyprlandPaste_cases (hquiet : failsQuietly keys.send = true) (text : String)
    (target : NativeDictationTarget) :
    ((hyprlandPaste text target keys).sent = [] ∧
      (hyprlandPaste text target keys).result ≠ .ok ()) ∨
    (hyprlandPaste text target keys).sent = [.typed target.windowId text] ∧
      ((hyprlandPaste text target keys).result = .ok () ∨
        keys.restored .hyprlandClipboard = false) := by
  unfold hyprlandPaste
  split
  · exact .inl ⟨rfl, nofun⟩
  · exact .inl ⟨rfl, nofun⟩
  · rename_i hcapture hcopy
    have hsent := submitTo_cases (failsQuietly_sendHyprShortcut hquiet target)
      (.typed target.windowId text)
    cases hpaste : sendHyprShortcut target keys with
    | error e =>
      rw [hpaste] at hsent
      refine .inl ⟨hsent.elim (·.1) fun h => (nomatch h.1), fun h => (nomatch (pasteResult_ok h).1)⟩
    | ok u =>
      refine .inr ⟨rfl, ?_⟩
      cases hrestore : keys.restore with
      | ok u => exact .inl rfl
      | error e =>
        have hsend := (sendHyprShortcut_ok hpaste).2
        simp [Keys.restored, hcapture, hcopy, hsend, hrestore, Except.isOk, Except.toBool]

namespace NativeInputAdapter

variable {adapter : NativeInputAdapter} {target : NativeDictationTarget} {keys undoKeys : Keys}
  {text : String}

/-- **What an Undo sends.** -/
theorem undo_cases (hquiet : failsQuietly keys.send = true) (adapter : NativeInputAdapter)
    (target : NativeDictationTarget) :
    ((adapter.undo target keys).sent = [] ∧ (adapter.undo target keys).result ≠ .ok ()) ∨
    (adapter.undo target keys).result = .ok () ∧ keys.send = .ok () ∧
      ∃ windowId, (adapter.undo target keys).sent = [.undone windowId] ∧
        (adapter.Reaches keys target.windowId → windowId = target.windowId) := by
  cases adapter with
  | hyprlandClipboard =>
    refine (submitTo_cases (failsQuietly_sendHyprShortcut hquiet target)
      (.undone target.windowId)).imp_right ?_
    rintro ⟨hsend, hsent⟩
    rw [undo, hsent]
    exact ⟨rfl, (sendHyprShortcut_ok hsend).2, _, rfl, fun _ => rfl⟩
  | wtype | ydotool socket | xdotool =>
    refine (submitTo_cases hquiet (.undone keys.focused)).imp_right ?_
    rintro ⟨hsend, hsent⟩
    rw [undo, hsent]
    exact ⟨rfl, hsend, _, rfl, id⟩
  | contractOnly contract => exact .inl ⟨rfl, nofun⟩

/-- **What typing sends**: the text to the target, or nothing when it fails, unless the clipboard
could not be restored. -/
theorem typeText_cases (hquiet : failsQuietly keys.send = true)
    (hreach : adapter.Reaches keys target.windowId) (text : String) :
    ((adapter.typeText text target keys).sent = [] ∧
      (adapter.typeText text target keys).result ≠ .ok ()) ∨
    (adapter.typeText text target keys).sent = [.typed target.windowId text] ∧
      ((adapter.typeText text target keys).result = .ok () ∨ keys.restored adapter = false) := by
  unfold typeText
  cases hvalid : validateNativeText text with
  | error e => exact .inl ⟨rfl, nofun⟩
  | ok u =>
    cases adapter with
    | hyprlandClipboard => exact hyprlandPaste_cases hquiet text target
    | wtype | ydotool socket | xdotool =>
      simp only [Reaches] at hreach
      rw [← hreach]
      refine (submitTo_cases hquiet (.typed keys.focused text)).imp_right ?_
      rintro ⟨-, hsent⟩
      dsimp only
      rw [hsent]
      exact ⟨rfl, .inl rfl⟩
    | contractOnly contract => exact .inl ⟨rfl, nofun⟩

/-- After an Undo that went out, typing that meets no error of the system succeeds: the text
was checked when it was staged, and the window's address when the Undo was sent. -/
theorem typeText_succeeds (hundo : (adapter.undo target undoKeys).result = .ok ())
    (hvalid : validateNativeText text = .ok ()) (hkeys : keys.succeed adapter = true) :
    (adapter.typeText text target keys).result = .ok () := by
  unfold typeText
  rw [hvalid]
  cases adapter with
  | hyprlandClipboard =>
    simp only [Keys.succeed, Bool.and_eq_true] at hkeys
    have haddress := (sendHyprShortcut_ok (submitTo_ok hundo)).1
    have hpaste : sendHyprShortcut target keys = .ok () := by
      rw [sendHyprShortcut, if_pos haddress]
      exact isOk_unit hkeys.1.2
    simp only [hyprlandPaste, isOk_unit hkeys.1.1.1, isOk_unit hkeys.1.1.2, hpaste,
      isOk_unit hkeys.2]
    rfl
  | wtype | ydotool socket | xdotool =>
    have hsend : keys.send = .ok () := isOk_unit hkeys
    simp only [hsend]
    rfl
  | contractOnly contract => cases hundo

end NativeInputAdapter

/-! ### What an operation sends -/

namespace NativeDictationSession

variable {s : NativeDictationSession} {answers : Answers} {target : NativeDictationTarget}

theorem requireSameFocusedTarget_ok {focus : Except NativeError NativeDictationTarget}
    (h : s.requireSameFocusedTarget focus = .ok target) :
    ∃ armed, s.armedTarget = some armed ∧ target.windowId = armed.windowId := by
  unfold requireSameFocusedTarget at h
  cases harmed : s.armedTarget with
  | none =>
    rw [harmed] at h
    cases h
  | some armed =>
    rw [harmed] at h
    obtain ⟨current, -, h⟩ := bind_ok_iff.1 h
    obtain ⟨-, -, h⟩ := bind_ok_iff.1 h
    split_ifs at h with hmoved
    rw [not_or, not_not, not_not] at hmoved
    cases h
    exact ⟨armed, rfl, hmoved.1⟩

theorem requireRecentLastEdit_ok {nowMs : ℕ} (h : s.requireRecentLastEdit target nowMs = .ok ()) :
    ∃ edit, s.lastApplied = some edit ∧ edit.target.windowId = target.windowId := by
  unfold requireRecentLastEdit at h
  cases hlast : s.lastApplied with
  | none =>
    rw [hlast] at h
    cases h
  | some edit =>
    rw [hlast] at h
    dsimp only at h
    split_ifs at h with hwindow
    exact ⟨edit, rfl, not_not.1 hwindow⟩

/-- An Undo that went out is one for the record, to the record's window. -/
theorem undoRecent_cases (hquiet : failsQuietly answers.undo.send = true)
    (s : NativeDictationSession) (target : NativeDictationTarget) :
    ((s.undoRecent target answers).sent = [] ∧ (s.undoRecent target answers).result ≠ .ok ()) ∨
    (s.undoRecent target answers).result = .ok () ∧ answers.undo.send = .ok () ∧
      (s.adapter.undo target answers.undo).result = .ok () ∧
      (∃ edit, s.lastApplied = some edit ∧ edit.target.windowId = target.windowId) ∧
      ∃ windowId, (s.undoRecent target answers).sent = [.undone windowId] ∧
        (s.adapter.Reaches answers.undo target.windowId → windowId = target.windowId) := by
  unfold undoRecent
  split
  · exact .inl ⟨rfl, nofun⟩
  · rename_i hrecent
    refine (s.adapter.undo_cases hquiet target).imp_right ?_
    rintro ⟨hresult, hsend, hsent⟩
    exact ⟨hresult, hsend, hresult, requireRecentLastEdit_ok hrecent, hsent⟩

theorem typed_mem_submit {pending : NativeDictationPending} {windowId text : String}
    (h : .typed windowId text ∈ (s.submit pending target answers).sent)
    (hundo : failsQuietly answers.undo.send = true)
    (htyping : failsQuietly answers.typing.send = true)
    (hreach : s.adapter.Reaches answers.typing target.windowId) :
    windowId = target.windowId ∧ text = pending.text := by
  have hundone : .typed windowId text ∉ (s.undoRecent target answers).sent := by
    rcases s.undoRecent_cases hundo target with ⟨hsent, -⟩ | ⟨-, -, -, -, other, hsent, -⟩
    · simp [hsent]
    · simp [hsent]
  have hmem : .typed windowId text ∈
      (s.adapter.typeText pending.text target answers.typing).sent := by
    unfold submit at h
    split at h
    · exact h
    · simp only [Submission.andThen] at h
      split at h
      · exact absurd h hundone
      · exact (mem_append.1 h).resolve_left hundone
    · exact absurd h hundone
  rcases NativeInputAdapter.typeText_cases htyping hreach pending.text with
    ⟨hsent, -⟩ | ⟨hsent, -⟩
  · simp [hsent] at hmem
  · simpa [hsent] using hmem

/-- An edit or an Undo that the user confirmed. -/
structure Submits (s : NativeDictationSession) (answers : Answers) (submission : Submission)
    (target : NativeDictationTarget) (record : Option AppliedEdit) (effect : Effect) : Prop where
  armed : ∃ armed, s.armedTarget = some armed ∧ target.windowId = armed.windowId
  sent : effect.sent = submission.sent
  failed : submission.result ≠ .ok () → effect.session = s
  done : submission.result = .ok () →
    effect.session = { s with lastApplied := record, pending := none }

/-- **What an operation does.** -/
inductive Performed (s : NativeDictationSession) : NativeOp → Effect → Prop
  | quiet {op : NativeOp} {effect : Effect} (hsent : effect.sent = [])
    (hlast : effect.session.lastApplied = s.lastApplied)
    (hpending : ∀ pending, effect.session.pending = some pending →
      s.pending = some pending ∨ ∃ update, s.staged update = .ok pending) : Performed s op effect
  | confirm {confirmed : Bool} {answers : Answers} {pending : NativeDictationPending}
    {target : NativeDictationTarget} {effect : Effect} (hpending : s.pending = some pending)
    (hfinal : pending.finalResult = true) (h : s.Submits answers (s.submit pending target answers)
      target (recorded pending target answers) effect) :
    Performed s (.confirm confirmed answers) effect
  | undo {confirmed : Bool} {answers : Answers} {target : NativeDictationTarget} {effect : Effect}
    (h : s.Submits answers (s.undoRecent target answers) target none effect) :
    Performed s (.undo confirmed answers) effect

theorem Performed.kept (op : NativeOp) {effect : Effect} (h : effect.session = s)
    (hsent : effect.sent = []) : s.Performed op effect := by
  subst h
  exact .quiet hsent rfl fun _ => .inl

/-- `status` may look for the adapter again; it keeps everything else. -/
theorem Performed.cleared (op : NativeOp) {session : NativeDictationSession}
    (discovered : NativeInputAdapter) (hlast : session.lastApplied = s.lastApplied)
    (hnone : session.pending = none) :
    s.Performed op { session := session.status discovered } := by
  unfold status
  split_ifs
  · exact .quiet rfl hlast fun _ h => (nomatch hnone.symm.trans h)
  · exact .quiet rfl hlast fun _ h => (nomatch hnone.symm.trans h)

theorem perform_spec (s : NativeDictationSession) (op : NativeOp) :
    s.Performed op (s.perform op) := by
  cases op with
  | arm discovered focus =>
    simp only [perform, arm]
    split
    · exact .quiet rfl rfl fun _ => .inl
    · split
      · exact .quiet rfl rfl fun _ => .inl
      · exact .quiet rfl rfl nofun
  | disarm discovered => exact .cleared _ discovered rfl rfl
  | stage update focus =>
    simp only [perform, stage]
    split
    · exact .kept _ rfl rfl
    · split
      · exact .quiet rfl rfl nofun
      · rename_i staged hstaged
        refine .quiet rfl rfl fun pending h => .inr ⟨update, ?_⟩
        rw [hstaged, Option.some.inj h]
  | discard discovered => exact .cleared _ discovered rfl rfl
  | confirm confirmed answers =>
    simp only [perform, confirm]
    split_ifs
    · exact .kept _ rfl rfl
    · split
      · exact .kept _ rfl rfl
      · rename_i pending hpending
        split_ifs with hfinal
        · exact .kept _ rfl rfl
        · split
          · exact .kept _ rfl rfl
          · rename_i target htarget
            refine .confirm hpending (by simpa using hfinal)
              ⟨requireSameFocusedTarget_ok htarget, ?_, ?_, ?_⟩ <;> split <;> simp_all
  | undo confirmed answers =>
    simp only [perform, undo]
    split_ifs
    · exact .kept _ rfl rfl
    · split
      · exact .kept _ rfl rfl
      · rename_i target htarget
        refine .undo ⟨requireSameFocusedTarget_ok htarget, ?_, ?_, ?_⟩ <;> split <;> simp_all

end NativeDictationSession

/-! ### The condition -/

/-- The focus stays on the armed window while the keys come, for the adapters that send them to
whatever has the focus. -/
def NativeDictationSession.Steady (s : NativeDictationSession) (keys : Keys) : Prop :=
  ∀ armed ∈ s.armedTarget, s.adapter.Reaches keys armed.windowId

/-- What an edit has begun to send it ends well: the clipboard is restored after a paste, and
the typing of a replacement succeeds once its Undo has gone out. -/
def NativeDictationSession.Whole (s : NativeDictationSession) (answers : Answers) : Prop :=
  answers.typing.restored s.adapter = true ∧
    ((∃ pending ∈ s.pending, pending.kind = .replaceLast) → answers.undo.send.isOk = true →
      answers.typing.succeed s.adapter = true)

instance (s : NativeDictationSession) (keys : Keys) : Decidable (s.Steady keys) :=
  inferInstanceAs (Decidable (∀ armed ∈ s.armedTarget, _))

instance (s : NativeDictationSession) (answers : Answers) : Decidable (s.Whole answers) :=
  inferInstanceAs (Decidable (_ ∧ _))

/-- What an operation asks of the system: tools that report an error have sent nothing, the
focus stays, and an edit that was begun ends well. -/
def Desk.Clean (desk : Desk) : NativeOp → Prop
  | .confirm _ answers =>
    (failsQuietly answers.undo.send = true ∧ failsQuietly answers.typing.send = true) ∧
      desk.session.Steady answers.undo ∧ desk.session.Steady answers.typing ∧
      desk.session.Whole answers
  | .undo _ answers => failsQuietly answers.undo.send = true ∧ desk.session.Steady answers.undo
  | _ => True

instance Desk.decidableClean (desk : Desk) : (op : NativeOp) → Decidable (desk.Clean op)
  | .confirm _ _ => inferInstanceAs (Decidable ((_ ∧ _) ∧ _ ∧ _ ∧ _))
  | .undo _ _ => inferInstanceAs (Decidable (_ ∧ _))
  | .arm _ _ | .disarm _ | .stage _ _ | .discard _ => inferInstanceAs (Decidable True)

/-! ### The record and what was sent -/

/-- The session's record is the newest edit that is not yet undone, and the text under review
may be typed. -/
structure Desk.Kept (desk : Desk) : Prop where
  matched : Matched desk.log
  record : ∀ edit, desk.session.lastApplied = some edit →
    ∃ text rest, outstanding desk.log = (edit.target.windowId, text) :: rest
  reviewed : ∀ pending, desk.session.pending = some pending →
    pending.kind ≠ .undoLast → validateNativeText pending.text = .ok ()

namespace Desk

variable {desk : Desk} {answers : Answers} {target : NativeDictationTarget}
  {pending : NativeDictationPending}

theorem kept_fresh (discovered : NativeInputAdapter) : (fresh discovered).Kept where
  matched := matched_nil
  record := by simp [fresh, discover]
  reviewed := by simp [fresh, discover]

/-- An operation that sends nothing and keeps the record. -/
theorem Kept.quiet (hk : desk.Kept) {session : NativeDictationSession} {sent : List Sent}
    (hsent : sent = []) (hlast : session.lastApplied = desk.session.lastApplied)
    (hpending : ∀ pending, session.pending = some pending →
      pending.kind ≠ .undoLast → validateNativeText pending.text = .ok ()) :
    Kept { session, log := desk.log ++ sent } := by
  subst hsent
  refine ⟨by rw [append_nil]; exact hk.matched, fun edit hedit => ?_, hpending⟩
  rw [append_nil]
  exact hk.record edit (hlast ▸ hedit)

/-- What was sent after an Undo of the record. -/
theorem Kept.undone (hk : desk.Kept) {edit : AppliedEdit} {windowId : String}
    (hedit : desk.session.lastApplied = some edit) (hwindow : edit.target.windowId = windowId) :
    Matched (desk.log ++ [.undone windowId]) := by
  refine hk.matched.snoc fun other heq => ?_
  cases heq
  rw [← hwindow]
  exact hk.record edit hedit

/-- The commands of a pending edit keep the record true. -/
theorem Kept.submit (hk : desk.Kept) (hpending : desk.session.pending = some pending)
    (hquiet : failsQuietly answers.undo.send = true ∧ failsQuietly answers.typing.send = true)
    (hundo : desk.session.adapter.Reaches answers.undo target.windowId)
    (htyping : desk.session.adapter.Reaches answers.typing target.windowId)
    (hwhole : desk.session.Whole answers) :
    ((desk.session.submit pending target answers).result ≠ .ok () →
      (desk.session.submit pending target answers).sent = []) ∧
    ((desk.session.submit pending target answers).result = .ok () →
      Matched (desk.log ++ (desk.session.submit pending target answers).sent) ∧
        (pending.kind ≠ .undoLast →
          ∃ rest, outstanding (desk.log ++ (desk.session.submit pending target answers).sent)
            = (target.windowId, pending.text) :: rest)) := by
  have hundone := desk.session.undoRecent_cases hquiet.1 target
  have htyped := NativeInputAdapter.typeText_cases hquiet.2 htyping pending.text
  rw [hwhole.1, Bool.true_eq_false, or_false] at htyped
  unfold NativeDictationSession.submit
  cases hkind : pending.kind with
  | insert =>
    rcases htyped with ⟨hsent, hfailed⟩ | ⟨hsent, hresult⟩
    · exact ⟨fun _ => hsent, fun h => absurd h hfailed⟩
    · dsimp only
      rw [hsent]
      exact ⟨absurd hresult, fun _ => ⟨hk.matched.typed _ _, fun _ => ⟨_, outstanding_typed _ _ _⟩⟩⟩
  | replaceLast =>
    rcases hundone with ⟨hsent, hfailed⟩ |
      ⟨hresult, hsend, hcommand, ⟨edit, hedit, hwindow⟩, windowId, hsent, haim⟩
    · simp only [Submission.andThen]
      split
      · exact ⟨fun _ => hsent, nofun⟩
      · exact absurd ‹_› hfailed
    · -- The Undo has gone out, so the typing has to succeed.
      have hvalid := hk.reviewed pending hpending (by rw [hkind]; exact fun h => by cases h)
      have hkeys := hwhole.2 ⟨pending, hpending, hkind⟩ (by rw [hsend]; rfl)
      have hends := NativeInputAdapter.typeText_succeeds hcommand hvalid hkeys
      obtain ⟨-, hfailed⟩ | ⟨hboth, -⟩ := htyped
      · exact absurd hends hfailed
      · rw [haim hundo] at hsent
        simp only [Submission.andThen, hresult, hends, hsent, hboth, ← append_assoc]
        exact ⟨fun h => absurd rfl h, fun _ =>
          ⟨(hk.undone hedit hwindow).typed _ _, fun _ => ⟨_, outstanding_typed _ _ _⟩⟩⟩
  | undoLast =>
    rcases hundone with ⟨hsent, hfailed⟩ | ⟨hresult, -, -, ⟨edit, hedit, hwindow⟩, _, hsent, haim⟩
    · exact ⟨fun _ => hsent, fun h => absurd h hfailed⟩
    · refine ⟨absurd hresult, fun _ => ⟨?_, fun hne => absurd rfl hne⟩⟩
      dsimp only
      rw [hsent, haim hundo]
      exact hk.undone hedit hwindow

/-- The text that `stage` keeps may be typed, unless it stands for an undo. -/
theorem staged_reviewed {s : NativeDictationSession} {update : Audio.DictationUpdate}
    (h : s.staged update = .ok pending) (hkind : pending.kind ≠ .undoLast) :
    validateNativeText pending.text = .ok () := by
  obtain ⟨revised, -, h⟩ := bind_ok_iff.1 h
  obtain ⟨u, hvalid, h⟩ := bind_ok_iff.1 h
  cases h
  simp only [validateNativeTextOrIntent] at hvalid
  rwa [if_neg hkind] at hvalid

theorem Kept.step (hk : desk.Kept) {op : NativeOp} (hok : desk.Clean op) :
    (desk.step op).Kept := by
  have hspec := desk.session.perform_spec op
  unfold Desk.step
  generalize desk.session.perform op = effect at hspec
  -- a submission that fails has sent nothing
  have hfails {answers : Answers} {submission : Submission} {target : NativeDictationTarget}
      {record : Option AppliedEdit}
      (h : desk.session.Submits answers submission target record effect)
      (hfailed : submission.result ≠ .ok ()) (hsent : submission.sent = []) :
      Kept { session := effect.session, log := desk.log ++ effect.sent } := by
    rw [h.failed hfailed, h.sent]
    exact hk.quiet hsent rfl hk.reviewed
  cases hspec with
  | quiet hsent hlast hpending =>
    refine hk.quiet hsent hlast fun pending h hkind => ?_
    rcases hpending pending h with hold | ⟨update, hstaged⟩
    · exact hk.reviewed pending hold hkind
    · exact staged_reviewed hstaged hkind
  | @confirm _ answers pending target _ hpending _ h =>
    obtain ⟨hquiet, hundo, htyping, hwhole⟩ := hok
    obtain ⟨armed, harmed, hwindow⟩ := h.armed
    obtain ⟨hfail, hdone⟩ := hk.submit hpending hquiet (hwindow ▸ hundo armed harmed)
      (hwindow ▸ htyping armed harmed) hwhole
    by_cases hresult : (desk.session.submit pending target answers).result = .ok ()
    · obtain ⟨hmatched, hnewest⟩ := hdone hresult
      rw [h.done hresult, h.sent]
      refine ⟨hmatched, fun edit hedit => ?_, nofun⟩
      simp only [recorded] at hedit
      split_ifs at hedit with hkind
      cases hedit
      obtain ⟨rest, hrest⟩ := hnewest hkind
      exact ⟨_, rest, hrest⟩
    · exact hfails h hresult (hfail hresult)
  | @undo _ answers target _ h =>
    obtain ⟨hquiet, hsteady⟩ := hok
    obtain ⟨armed, harmed, hwindow⟩ := h.armed
    rcases desk.session.undoRecent_cases hquiet target with ⟨hsent, hfailed⟩ |
      ⟨hresult, -, -, ⟨edit, hedit, hsame⟩, _, hsent, haim⟩
    · exact hfails h hfailed hsent
    · rw [h.done hresult, h.sent, hsent, haim (hwindow ▸ hsteady armed harmed)]
      exact ⟨hk.undone hedit hsame, nofun, nofun⟩

/-- Text goes out in `confirm` only: it is the text under review, which is final, and goes to
the armed window. -/
theorem typed_armed {op : NativeOp} {windowId text : String} (hok : desk.Clean op)
    (h : .typed windowId text ∈ (desk.session.perform op).sent) :
    ∃ armed pending, desk.session.armedTarget = some armed ∧ armed.windowId = windowId ∧
      desk.session.pending = some pending ∧ pending.finalResult = true ∧ pending.text = text := by
  have hspec := desk.session.perform_spec op
  generalize desk.session.perform op = effect at h hspec
  cases hspec with
  | quiet hsent =>
    rw [hsent] at h
    cases h
  | confirm hpending hfinal hsubmits =>
    obtain ⟨armed, harmed, hwindow⟩ := hsubmits.armed
    rw [hsubmits.sent] at h
    obtain ⟨⟨hundo, htyping⟩, -, hsteady, -⟩ := hok
    obtain ⟨rfl, rfl⟩ := typed_mem_submit h hundo htyping (hwindow ▸ hsteady armed harmed)
    exact ⟨armed, _, harmed, hwindow.symm, hpending, hfinal, rfl⟩
  | @undo _ answers target _ hsubmits =>
    rw [hsubmits.sent] at h
    rcases desk.session.undoRecent_cases hok.1 target with ⟨hsent, -⟩ |
      ⟨-, -, -, -, _, hsent, -⟩
    · simp [hsent] at h
    · simp [hsent] at h

/-- **A native edit is undone at most once.**  In every run in which tools that report an error
have sent nothing, confirmed edits end well once they have begun to send, and keys find the focus
where the check found it, each Undo took
back the newest edit that was not yet undone, in the window that edit went to; and text was only
typed into the armed window, the final text under review. -/
theorem undone_once (discovered : NativeInputAdapter) (ops : List NativeOp)
    (h : Along step Clean (fresh discovered) ops) :
    (∀ before windowId after,
      (run step (fresh discovered) ops).log = before ++ .undone windowId :: after →
        ∃ text rest, outstanding before = (windowId, text) :: rest) ∧
    ∀ before op after, ops = before ++ op :: after → ∀ windowId text,
      .typed windowId text ∈ ((run step (fresh discovered) before).session.perform op).sent →
        ∃ armed pending,
          (run step (fresh discovered) before).session.armedTarget = some armed ∧
            armed.windowId = windowId ∧
            (run step (fresh discovered) before).session.pending = some pending ∧
            pending.finalResult = true ∧ pending.text = text := by
  refine ⟨?_, ?_⟩
  · exact (h.invariant Kept (fun _ _ hok hk => hk.step hok) (kept_fresh discovered)).matched
  · rintro before op after rfl windowId text hsent
    exact typed_armed ((along_append _ _ _).1 h).2.1 hsent

/-! ### A replacement that fails half way -/

/-- A draft in an editor. -/
def draft : NativeDictationTarget :=
  { applicationId := "editor", title := "Draft", windowId := "7", secure := false }

/-- The answers when the draft has the focus and `typing` ends as given. -/
def onDraft (typing : Except ToolError Unit) : Answers :=
  { focus := .ok draft
    checkedAtMs := 2000
    undo := { focused := "7" }
    typing := { focused := "7", send := typing }
    appliedAtMs := 1000 }

def finalUpdate (transactionId : ℕ) (rendered : String) (operations : List Audio.EditOperation) :
    Audio.DictationUpdate :=
  { transactionId, mode := .natural, tokens := [], renderedText := rendered, finalResult := true
    operations }

/-- `hello` is dictated and typed, then corrected to `hallo`. -/
def corrected : List NativeOp :=
  [.arm .wtype (.ok draft),
    .stage (finalUpdate 1 "hello" [.replaceProvisionalTail 1 0 0 "hello" 5]) (.ok draft),
    .confirm true (onDraft (.ok ())),
    .stage (finalUpdate 2 "" [.replaceLiteral "hello" "hallo" .last]) (.ok draft)]

/-- The correction is applied and undone again: two Undos for two edits. -/
theorem undone_once_corrected :
    Along step Clean (fresh .wtype)
        (corrected ++ [.confirm true (onDraft (.ok ())), .undo true (onDraft (.ok ()))]) ∧
      ∃ text rest, outstanding [.typed "7" "hello", .undone "7", .typed "7" "hallo"]
        = ("7", text) :: rest :=
  have hok : Along step Clean (fresh .wtype)
      (corrected ++ [.confirm true (onDraft (.ok ())), .undo true (onDraft (.ok ()))]) := by
    decide +kernel
  ⟨hok, (undone_once .wtype _ hok).1 _ _ [] (by decide +kernel)⟩

/-- **A failed replacement is undone twice.**  The Undo of the correction goes out, the typing
fails, and the record still names `hello`: confirmed again, the correction sends a second Undo
for it, when every edit is undone already. -/
theorem replacement_undone_twice :
    ¬ ∀ before windowId after,
      (run step (fresh .wtype) (corrected ++
          [.confirm true (onDraft (.error { report := "wtype failed" })),
            .confirm true (onDraft (.ok ()))])).log
        = before ++ .undone windowId :: after →
      ∃ text rest, outstanding before = (windowId, text) :: rest := by
  intro h
  obtain ⟨text, rest, hnone⟩ :=
    h [.typed "7" "hello", .undone "7"] "7" [.typed "7" "hallo"] (by decide +kernel)
  cases hnone

/-! ### A revision that fails -/

/-- **A failed `stage` loses the review.**  `stage` takes the pending edit out of the session
before its operations and its validation, and only a success puts one back: whatever made it
fail, the pending edit, the armed target and the last edit are as they were exactly if no edit was
pending or the focus check had failed already.  The latter two, and the adapter, stay in any
case. -/
theorem stage_failed_iff (s : NativeDictationSession) (update : Audio.DictationUpdate)
    (focus : Except NativeError NativeDictationTarget) {e : NativeError}
    (h : (s.stage update focus).result = .error e) :
    ((s.stage update focus).session.pending = s.pending ∧
        (s.stage update focus).session.armedTarget = s.armedTarget ∧
        (s.stage update focus).session.lastApplied = s.lastApplied ↔
      s.pending = none ∨ ∃ refused, s.requireSameFocusedTarget focus = .error refused) ∧
    (s.stage update focus).session.armedTarget = s.armedTarget ∧
    (s.stage update focus).session.lastApplied = s.lastApplied ∧
    (s.stage update focus).session.adapter = s.adapter := by
  unfold stage at h ⊢
  cases hfocus : s.requireSameFocusedTarget focus with
  | error refused => simp
  | ok target =>
    rw [hfocus] at h
    cases hstaged : s.staged update with
    | ok pending =>
      rw [hstaged] at h
      cases h
    | error e =>
      simp [eq_comm]

/-- The draft is armed and `hello` is under review. -/
def reviewing : NativeDictationSession :=
  (run step (fresh .wtype) (corrected.take 2)).session

/-- A correction of a word that is not there. -/
def misheard : Audio.DictationUpdate := finalUpdate 1 "" [.replaceLiteral "help" "hallo" .last]

/-- While another window has the focus, `hello` stays under review. -/
theorem stage_failed_elsewhere :
    let failed := reviewing.stage misheard (.ok { draft with windowId := "8" })
    reviewing.pending.map (·.text) = some "hello" ∧
      failed.session.pending = reviewing.pending ∧
      failed.session.armedTarget = reviewing.armedTarget ∧
      failed.session.lastApplied = reviewing.lastApplied :=
  ⟨by decide +kernel, (stage_failed_iff reviewing misheard (.ok { draft with windowId := "8" })
    (by rfl)).1.mpr (.inr ⟨_, by rfl⟩)⟩

/-- The word is not found, and `hello` is gone with it. -/
theorem misheard_loses_review :
    (reviewing.stage misheard (.ok draft)).result.toBool = false ∧
      reviewing.pending.map (·.text) = some "hello" ∧
      (reviewing.stage misheard (.ok draft)).session.pending = none := by
  decide +kernel

end Desk

end PersonalAgent.Desktop
