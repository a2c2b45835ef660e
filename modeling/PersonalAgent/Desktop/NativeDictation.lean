/-
# Dictation into the focused application

`apps/desktop/src-tauri/src/native_dictation.rs`.  A session is armed on the window
that has the focus; dictated text is staged for review and, once confirmed, sent to
that window as keystrokes or as a paste.  The target cannot be read back.  The
session remembers the last edit it submitted, and an undo or a replacement of it
sends the window a native Undo.

What the system answers is an argument of each operation: the focused window, the
clock, and how each command of the adapter ends.  A tool that reports an error may have
sent its keys by then; the paste of the Hyprland adapter can also fail after it has
pasted, when the clipboard cannot be restored.  Three of the adapters send their keys to whatever
window has the focus when the keys come.  Status reports and latency metrics, which
no operation reads, are left out.
-/

import PersonalAgent.Lib.Lines
import PersonalAgent.Lib.Replace
import PersonalAgent.Audio.Dictation

namespace PersonalAgent.Desktop

open Lib
open PersonalAgent.Core (isWhitespace trim toAsciiLowercase containsText)
open Audio (EditOperation Formatting Occurrence DictationUpdate findText)

/-! ### Targets -/

structure NativeDictationTarget where
  applicationId : String
  title : String
  windowId : String
  secure : Bool
  deriving DecidableEq, Repr

/-- The errors of the session.  `notContained` stands for the text
`the reviewed text does not contain` and the debug form of the text searched for. -/
inductive NativeError where
  | message (text : String)
  | notContained (find : String)
  deriving DecidableEq, Repr

def validateTarget (target : NativeDictationTarget) : Except NativeError Unit :=
  let identity := toAsciiLowercase (target.applicationId ++ " " ++ target.title)
  if containsText identity "personal-agent" || containsText identity "personal agent" then
    .error (.message "the Personal Agent window cannot be armed as an external target; switch to the destination application during the countdown")
  else if target.secure then
    .error (.message "dictation is blocked on password, credential, authentication, and lock surfaces")
  else if (trim target.title).isEmpty then
    .error (.message "the focused target has no stable title; arming was blocked")
  else .ok ()

def targetLabel (target : NativeDictationTarget) : String :=
  target.title ++ " (" ++ target.applicationId ++ ")"

/-! ### Pending edits -/

inductive PendingEditKind where
  | insert
  | replaceLast
  | undoLast
  deriving DecidableEq, Repr

structure NativeDictationPending where
  transactionId : ℕ
  text : String := ""
  finalResult : Bool := false
  kind : PendingEditKind := .insert
  warning : Option String := none
  deriving DecidableEq, Repr

structure AppliedEdit where
  target : NativeDictationTarget
  text : String
  appliedAtMs : ℕ
  deriving DecidableEq, Repr

def maxNativeTextBytes : ℕ := 16 * 1024

def lastEditUndoWindowMs : ℕ := 30000

/-- `char::is_control`. -/
def isControl (c : Char) : Bool := c.toNat < 32 || (127 ≤ c.toNat && c.toNat ≤ 159)

def validateNativeText (text : String) : Except NativeError Unit :=
  if (trim text).isEmpty then .error (.message "the reviewed transcript is empty")
  else if text.utf8ByteSize > maxNativeTextBytes then
    .error (.message "one native dictation insertion is limited to 16 KiB")
  else if text.toList.any fun c => isControl c && !(c == '\n' || c == '\t') then
    .error (.message "the reviewed transcript contains unsupported control characters")
  else .ok ()

def validateNativeTextOrIntent (pending : NativeDictationPending) : Except NativeError Unit :=
  if pending.kind = .undoLast then .ok () else validateNativeText pending.text

/-- `str::rfind`, of a text: where its last occurrence starts. -/
def rfindText (needle text : List Char) : Option ℕ :=
  (findText needle.reverse text.reverse).map fun fromEnd => text.length - needle.length - fromEnd

/-- A text with the part from `start` on, as long as `find`, replaced. -/
def replaceAt (value find replacement : List Char) (start : ℕ) : List Char :=
  value.take start ++ replacement ++ value.drop (start + find.length)

/-- The text `replace_occurrence` compares with the one it was given. -/
def replaced (value find replacement : List Char) : Occurrence → List Char
  | .all => replaceAll find replacement value
  | .first => ((findText find value).map (replaceAt value find replacement)).getD value
  | .last => ((rfindText find value).map (replaceAt value find replacement)).getD value

def replaceOccurrence (value find replacement : String) (occurrence : Occurrence) :
    Except NativeError String :=
  if find.isEmpty then .error (.message "a correction target cannot be empty")
  else
    let result := String.ofList (replaced value.toList find.toList replacement.toList occurrence)
    if result = value then .error (.notContained find) else .ok result

def markdownFormat (value : String) : Formatting → String
  | .bold => "**" ++ value ++ "**"
  | .heading level =>
    String.ofList (List.replicate (max 1 (min level 6)) '#') ++ " "
      ++ String.ofList (value.toList.dropWhile isWhitespace)
  | .bulletedList => "\n".intercalate ((lines value).map fun line => "- " ++ line)
  | .numberedList =>
    "\n".intercalate ((lines value).mapIdx fun index line => toString (index + 1) ++ ". " ++ line)

def changeLastLineIndent (value : String) (levels : ℤ) : String :=
  let lineStart := ((rfindText ['\n'] value.toList).map (· + 1)).getD 0
  let lead := value.toList.take lineStart
  let line := value.toList.drop lineStart
  if levels > 0 then
    String.ofList (lead ++ List.replicate (4 * levels.natAbs) ' ' ++ line)
  else
    let remove := min (line.takeWhile (· == ' ')).length (levels.natAbs * 4)
    String.ofList (lead ++ line.drop remove)

def prepareLastEditIfNeeded (pending : NativeDictationPending) (lastApplied : Option AppliedEdit) :
    Except NativeError NativeDictationPending :=
  if pending.text.isEmpty then
    match lastApplied with
    | none =>
      .error (.message "this correction needs readable document text; only the most recent dictated insertion can be safely revised")
    | some last =>
      .ok { pending with
        text := last.text
        kind := .replaceLast
        warning := some "Apply will undo the last native insertion and type the reviewed correction. It is blocked if focus changed or the 30-second window expired." }
  else .ok pending

def applyReviewOperation (lastApplied : Option AppliedEdit) (pending : NativeDictationPending) :
    EditOperation → Except NativeError NativeDictationPending
  | .replaceProvisionalTail .. | .commitTransaction _ | .setMode _ => .ok pending
  | .insertText text => .ok { pending with text := pending.text ++ text }
  | .replaceLiteral find replacement occurrence => do
    let pending ← prepareLastEditIfNeeded pending lastApplied
    let text ← replaceOccurrence pending.text find replacement occurrence
    return { pending with text }
  | .insertRelative anchor text before occurrence => do
    let pending ← prepareLastEditIfNeeded pending lastApplied
    let replacement := if before then text ++ " " ++ anchor else anchor ++ " " ++ text
    let text ← replaceOccurrence pending.text anchor replacement occurrence
    return { pending with text }
  | .deleteLastUtterance .. | .undo =>
    match lastApplied with
    | none => .error (.message "there is no recent dictated insertion to undo")
    | some last =>
      .ok { pending with
        text := last.text
        kind := .undoLast
        warning := some "Apply will send one native Undo to the same window within 30 seconds." }
  | .formatLastUtterance expected formatting => do
    let pending ← prepareLastEditIfNeeded pending lastApplied
    let expected := expected.getD pending.text
    let text ← replaceOccurrence pending.text expected (markdownFormat expected formatting) .last
    return { pending with
      text
      warning := some "The focused-app fallback inserts plain-text Markdown formatting." }
  | .changeIndent levels => do
    let pending ← prepareLastEditIfNeeded pending lastApplied
    return { pending with text := changeLastLineIndent pending.text levels }

/-! ### Adapters -/

/-- The part of `NativeInputContract` that the operations read. -/
structure NativeInputContract where
  supportsTextInsertion : Bool := false
  detail : String
  remediation : Option String := none
  deriving DecidableEq, Repr

inductive NativeInputAdapter where
  | hyprlandClipboard
  | wtype
  | ydotool (socket : String)
  | xdotool
  | contractOnly (contract : NativeInputContract)
  deriving DecidableEq, Repr

/-- A key sequence or text that has reached a window. -/
inductive Sent where
  | typed (windowId text : String)
  | undone (windowId : String)
  deriving DecidableEq, Repr

/-- How a command of an adapter ends, and what has been sent by then. -/
structure Submission where
  sent : List Sent := []
  result : Except NativeError Unit := .ok ()

/-- One command after another, which is not run when the first fails. -/
def Submission.andThen (first second : Submission) : Submission :=
  match first.result with
  | .error e => { sent := first.sent, result := .error e }
  | .ok () => { sent := first.sent ++ second.sent, result := second.result }

/-- How a tool fails: its report, and whether the keys had gone out by then. -/
structure ToolError where
  report : String
  sent : Bool := false
  deriving DecidableEq, Repr

/-- What the system answers to one command: the window that has the focus when the keys come,
how the tool that sends them ends and, for a paste, how the clipboard commands end. -/
structure Keys where
  focused : String
  send : Except ToolError Unit := .ok ()
  capture : Except String Unit := .ok ()
  copy : Except String Unit := .ok ()
  restore : Except String Unit := .ok ()

/-- A tool that ends well has sent the keys. -/
def submitTo (answer : Except ToolError Unit) (what : Sent) : Submission :=
  match answer with
  | .error e => { sent := if e.sent then [what] else [], result := .error (.message e.report) }
  | .ok () => { sent := [what] }

/-- `char::is_ascii_hexdigit`. -/
def isAsciiHexdigit (c : Char) : Bool :=
  (48 ≤ c.toNat && c.toNat ≤ 57) || (65 ≤ c.toNat && c.toNat ≤ 70) ||
    (97 ≤ c.toNat && c.toNat ≤ 102)

/-- The address check of `send_hypr_shortcut`. -/
def isHyprAddress (windowId : String) : Bool :=
  match (trim windowId).toList with
  | '0' :: 'x' :: digits => !digits.isEmpty && digits.all isAsciiHexdigit
  | _ => false

/-- `send_hypr_shortcut`: the shortcut names its window. -/
def sendHyprShortcut (target : NativeDictationTarget) (keys : Keys) : Except ToolError Unit :=
  if isHyprAddress target.windowId then keys.send
  else .error { report := "Hyprland returned an invalid focused-window address" }

/-- The end of `hyprland_paste`. -/
def pasteResult : Except ToolError Unit → Except String Unit → Except NativeError Unit
  | .error paste, .error restoration =>
    .error (.message ("paste failed (" ++ paste.report ++
      ") and the clipboard could not be restored (" ++ restoration ++ ")"))
  | .error e, .ok () => .error (.message e.report)
  | .ok (), .error e => .error (.message e)
  | .ok (), .ok () => .ok ()

def hyprlandPaste (text : String) (target : NativeDictationTarget) (keys : Keys) : Submission :=
  match keys.capture, keys.copy with
  | .error e, _ | .ok (), .error e => { result := .error (.message e) }
  | .ok (), .ok () =>
    let paste := sendHyprShortcut target keys
    { sent := (submitTo paste (.typed target.windowId text)).sent
      result := pasteResult paste keys.restore }

namespace NativeInputAdapter

def typeText (adapter : NativeInputAdapter) (text : String) (target : NativeDictationTarget)
    (keys : Keys) : Submission :=
  match validateNativeText text with
  | .error e => { result := .error e }
  | .ok () =>
    match adapter with
    | .hyprlandClipboard => hyprlandPaste text target keys
    | .wtype | .ydotool _ | .xdotool => submitTo keys.send (.typed keys.focused text)
    | .contractOnly contract => { result := .error (.message contract.detail) }

/-- `NativeInputAdapter::undo`. -/
def undo (adapter : NativeInputAdapter) (target : NativeDictationTarget) (keys : Keys) :
    Submission :=
  match adapter with
  | .hyprlandClipboard => submitTo (sendHyprShortcut target keys) (.undone target.windowId)
  | .wtype | .ydotool _ | .xdotool => submitTo keys.send (.undone keys.focused)
  | .contractOnly contract => { result := .error (.message contract.detail) }

end NativeInputAdapter

/-! ### The session -/

structure NativeDictationSession where
  adapter : NativeInputAdapter
  armedTarget : Option NativeDictationTarget := none
  pending : Option NativeDictationPending := none
  lastApplied : Option AppliedEdit := none
  deriving DecidableEq, Repr

/-- What the system answers while an edit is applied. -/
structure Answers where
  focus : Except NativeError NativeDictationTarget
  checkedAtMs : ℕ
  undo : Keys
  typing : Keys
  appliedAtMs : ℕ

/-- The session after an operation, what the operation has sent and how it ended. -/
structure Effect where
  session : NativeDictationSession
  sent : List Sent := []
  result : Except NativeError Unit := .ok ()

variable (s : NativeDictationSession)

namespace NativeDictationSession

/-- `discover`, with the adapter that `discover_adapter` finds. -/
def discover (discovered : NativeInputAdapter) : NativeDictationSession := { adapter := discovered }

/-- What `status` changes: an unarmed session looks for its adapter again. -/
def status (discovered : NativeInputAdapter) :
    NativeDictationSession :=
  if s.armedTarget.isNone then { s with adapter := discovered } else s

def requireSameFocusedTarget
    (focus : Except NativeError NativeDictationTarget) :
    Except NativeError NativeDictationTarget :=
  match s.armedTarget with
  | none => .error (.message "arm a focused application before dictating")
  | some armed => do
    let current ← focus
    validateTarget current
    if current.windowId ≠ armed.windowId ∨ current.applicationId ≠ armed.applicationId then
      .error (.message ("focus changed from " ++ targetLabel armed ++ " to " ++ targetLabel current
        ++ "; re-arm the intended field before applying text"))
    else return current

def requireRecentLastEdit (target : NativeDictationTarget)
    (nowMs : ℕ) : Except NativeError Unit :=
  match s.lastApplied with
  | none => .error (.message "there is no recent native dictation edit to undo")
  | some edit =>
    if edit.target.windowId ≠ target.windowId then
      .error (.message "the last dictation belongs to a different window; undo was blocked")
    else if nowMs - edit.appliedAtMs > lastEditUndoWindowMs then
      .error (.message "the 30-second safe undo window expired")
    else .ok ()

/-- The target of `arm`, once the adapter can insert text. -/
def armTarget (focus : Except NativeError NativeDictationTarget) :
    Except NativeError NativeDictationTarget := do
  let target ← focus
  validateTarget target
  return target

def arm (discovered : NativeInputAdapter)
    (focus : Except NativeError NativeDictationTarget) : Effect :=
  match discovered with
  | .contractOnly ⟨false, detail, remediation⟩ =>
    { session := { s with adapter := discovered }
      result := .error (.message (remediation.getD detail)) }
  | _ =>
    match armTarget focus with
    | .error e => { session := { s with adapter := discovered }, result := .error e }
    | .ok target =>
      { session := { s with adapter := discovered, armedTarget := some target, pending := none } }

def disarm (discovered : NativeInputAdapter) : Effect :=
  { session := { s with armedTarget := none, pending := none }.status discovered }

def revisesTail (update : DictationUpdate) : Bool :=
  update.operations.any fun operation =>
    match operation with
    | .replaceProvisionalTail .. => true
    | _ => false

/-- The pending edit that the operations of an update are applied to. -/
def stagedBase (update : DictationUpdate) : NativeDictationPending :=
  let pending := s.pending.getD { transactionId := update.transactionId }
  let pending :=
    if pending.transactionId ≠ update.transactionId ∧ revisesTail update then
      { transactionId := update.transactionId }
    else pending
  if revisesTail update then { pending with text := update.renderedText, kind := .insert }
  else pending

/-- The pending edit that `stage` keeps. -/
def staged (update : DictationUpdate) :
    Except NativeError NativeDictationPending := do
  let pending ← update.operations.foldlM (applyReviewOperation s.lastApplied) (s.stagedBase update)
  let pending := { pending with
    transactionId := update.transactionId
    finalResult := update.finalResult }
  validateNativeTextOrIntent pending
  return pending

/-- `stage`: the pending edit is taken before it is revised, and is gone if that fails. -/
def stage (update : DictationUpdate)
    (focus : Except NativeError NativeDictationTarget) : Effect :=
  match s.requireSameFocusedTarget focus with
  | .error e => { session := s, result := .error e }
  | .ok _ =>
    match s.staged update with
    | .error e => { session := { s with pending := none }, result := .error e }
    | .ok pending => { session := { s with pending := some pending } }

def discard (discovered : NativeInputAdapter) : Effect :=
  { session := { s with pending := none }.status discovered }

/-- The native Undo, if the last edit may still be undone. -/
def undoRecent (target : NativeDictationTarget) (answers : Answers) :
    Submission :=
  match s.requireRecentLastEdit target answers.checkedAtMs with
  | .error e => { result := .error e }
  | .ok () => s.adapter.undo target answers.undo

/-- The `match` of `confirm`: the commands of the pending edit. -/
def submit (pending : NativeDictationPending)
    (target : NativeDictationTarget) (answers : Answers) : Submission :=
  match pending.kind with
  | .insert => s.adapter.typeText pending.text target answers.typing
  | .replaceLast =>
    (s.undoRecent target answers).andThen (s.adapter.typeText pending.text target answers.typing)
  | .undoLast => s.undoRecent target answers

/-- The record of the last edit, once the commands of a pending edit have ended well. -/
def recorded (pending : NativeDictationPending) (target : NativeDictationTarget)
    (answers : Answers) : Option AppliedEdit :=
  if pending.kind = .undoLast then none
  else some { target, text := pending.text, appliedAtMs := answers.appliedAtMs }

def confirm (confirmed : Bool) (answers : Answers) : Effect :=
  if !confirmed then
    { session := s
      result := .error
        (.message "focused-app dictation requires an explicit Apply confirmation") }
  else
    match s.pending with
    | none =>
      { session := s, result := .error (.message "there is no reviewed dictation to apply") }
    | some pending =>
      if !pending.finalResult then
        { session := s
          result := .error
            (.message "wait for the final English transcript before applying it") }
      else
        match s.requireSameFocusedTarget answers.focus with
        | .error e => { session := s, result := .error e }
        | .ok target =>
          let submission := s.submit pending target answers
          match submission.result with
          | .error e => { session := s, sent := submission.sent, result := .error e }
          | .ok () =>
            { session := { s with
                lastApplied := recorded pending target answers
                pending := none }
              sent := submission.sent }

def undo (s : NativeDictationSession) (confirmed : Bool) (answers : Answers) : Effect :=
  if !confirmed then
    { session := s, result := .error (.message "undo requires explicit confirmation") }
  else
    match s.requireSameFocusedTarget answers.focus with
    | .error e => { session := s, result := .error e }
    | .ok target =>
      let submission := s.undoRecent target answers
      match submission.result with
      | .error e => { session := s, sent := submission.sent, result := .error e }
      | .ok () =>
        { session := { s with lastApplied := none, pending := none }, sent := submission.sent }

end NativeDictationSession

/-! ### Operations on a session -/

/-- An operation with what the system answers to it. -/
inductive NativeOp where
  | arm (discovered : NativeInputAdapter) (focus : Except NativeError NativeDictationTarget)
  | disarm (discovered : NativeInputAdapter)
  | stage (update : DictationUpdate) (focus : Except NativeError NativeDictationTarget)
  | discard (discovered : NativeInputAdapter)
  | confirm (confirmed : Bool) (answers : Answers)
  | undo (confirmed : Bool) (answers : Answers)

/-- What an operation does to a session. -/
def NativeDictationSession.perform : NativeOp → Effect
  | .arm discovered focus => s.arm discovered focus
  | .disarm discovered => s.disarm discovered
  | .stage update focus => s.stage update focus
  | .discard discovered => s.discard discovered
  | .confirm confirmed answers => s.confirm confirmed answers
  | .undo confirmed answers => s.undo confirmed answers

/-- A session and everything it has sent, oldest first. -/
structure Desk where
  session : NativeDictationSession
  log : List Sent := []

/-- A session that was just discovered. -/
def Desk.fresh (discovered : NativeInputAdapter) : Desk := { session := .discover discovered }

def Desk.step (desk : Desk) (op : NativeOp) : Desk :=
  { session := (desk.session.perform op).session
    log := desk.log ++ (desk.session.perform op).sent }

end PersonalAgent.Desktop
