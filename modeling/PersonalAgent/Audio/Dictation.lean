/-
# The dictation engine

`crates/audio/src/dictation.rs`: `DictationEngine::ingest` turns partial and final transcripts
into edit operations on a document that the engine never sees.  The engine knows what it last
had on screen for the utterance at hand (`priorRendered`) and the utterances it committed.
A final transcript that `parse_control` knows is a control; it becomes operations of its own.
The latency metrics, which nothing here reads, are left out.
-/

import PersonalAgent.Audio.SpokenText

namespace PersonalAgent.Audio

open PersonalAgent.Core (isWhitespace trim toAsciiLowercase satAdd)

/-! ### Operations -/

/-- Which matching text occurrence a semantic correction should affect. -/
inductive Occurrence where
  | first
  | last
  | all
  deriving DecidableEq

/-- Rich or structural formatting requested by voice. -/
inductive Formatting where
  | bold
  | heading (level : ℕ)
  | bulletedList
  | numberedList
  deriving DecidableEq

/-- Operations applied to the focused editable target.  Counts are UTF-16 code units. -/
inductive EditOperation where
  | replaceProvisionalTail (transactionId retainUtf16 deleteUtf16 : ℕ) (insert : String)
      (stablePrefixUtf16 : ℕ)
  | commitTransaction (transactionId : ℕ)
  | deleteLastUtterance (expected : String) (utf16Len : ℕ)
  | undo
  | replaceLiteral (find replacement : String) (occurrence : Occurrence)
  | insertRelative (anchor text : String) (before : Bool) (occurrence : Occurrence)
  | insertText (text : String)
  | formatLastUtterance (expected : Option String) (formatting : Formatting)
  | changeIndent (levels : ℤ)
  | setMode (mode : DictationMode)
  deriving DecidableEq

inductive TokenStability where
  | stable
  | unstable
  deriving DecidableEq

structure DictationToken where
  text : String
  stability : TokenStability
  deriving DecidableEq

/-- A recognition event; its times are for the metrics. -/
structure PartialTranscript where
  text : String
  finalResult : Bool
  deriving DecidableEq

structure DictationUpdate where
  transactionId : ℕ
  mode : DictationMode
  tokens : List DictationToken
  renderedText : String
  finalResult : Bool
  operations : List EditOperation
  deriving DecidableEq

inductive DictationError where
  | invalidInput (message : String)
  deriving DecidableEq

/-! ### Text as a target counts it -/

/-- `char::encode_utf16`. -/
def encodeUtf16Char (c : Char) : List UInt16 :=
  if c.toNat < 0x10000 then [UInt16.ofNat c.toNat]
  else [UInt16.ofNat (0xD800 + (c.toNat - 0x10000) / 0x400),
    UInt16.ofNat (0xDC00 + (c.toNat - 0x10000) % 0x400)]

/-- `str::encode_utf16`. -/
def encodeUtf16 (text : String) : List UInt16 := text.toList.flatMap encodeUtf16Char

@[simp] theorem encodeUtf16_empty : encodeUtf16 "" = [] := rfl

@[simp] theorem encodeUtf16_append (a b : String) :
    encodeUtf16 (a ++ b) = encodeUtf16 a ++ encodeUtf16 b := by
  rw [encodeUtf16, String.toList_append, List.flatMap_append]
  rfl

/-- How many characters two texts start with in common. -/
def commonChars (before after : List Char) : ℕ :=
  ((before.zip after).takeWhile fun pair => pair.1 == pair.2).length

def diffOperation (transactionId : ℕ) (before after : String) (stablePrefixUtf16 : ℕ) :
    EditOperation :=
  let common := commonChars before.toList after.toList
  .replaceProvisionalTail transactionId
    (encodeUtf16 (String.ofList (after.toList.take common))).length
    (encodeUtf16 (String.ofList (before.toList.drop common))).length
    (String.ofList (after.toList.drop common)) stablePrefixUtf16

/-! ### Controls -/

structure ParsedControl where
  visibleText : Option String
  operations : List EditOperation
  deriving DecidableEq

/-- `char::is_ascii_punctuation`. -/
def isAsciiPunctuation (c : Char) : Bool :=
  (33 ≤ c.toNat && c.toNat ≤ 47) || (58 ≤ c.toNat && c.toNat ≤ 64) ||
    (91 ≤ c.toNat && c.toNat ≤ 96) || (123 ≤ c.toNat && c.toNat ≤ 126)

/-- `str::trim_matches`. -/
def trimMatches (p : Char → Bool) (text : String) : String :=
  String.ofList ((text.toList.dropWhile p).rdropWhile p)

def splitControl (source lead separator : String) : Option (String × String) :=
  let lowered := (toAsciiLowercase source).toList
  if lead.toList.isPrefixOf lowered then
    (findText separator.toList (lowered.drop lead.length)).map fun found =>
      let separatorStart := found + lead.length
      (trim (String.ofList ((source.toList.take separatorStart).drop lead.length)),
        trim (String.ofList (source.toList.drop (separatorStart + separator.length))))
  else none

/-- A control whose two parts both have text. -/
def bothGiven (parts : Option (String × String)) : Option (String × String) :=
  parts.filter fun (first, second) => !first.isEmpty && !second.isEmpty

/-- A control that is one operation and shows nothing. -/
def ParsedControl.single (operation : EditOperation) : ParsedControl :=
  { visibleText := none, operations := [operation] }

def relativeControl (text anchor : String) (before : Bool) : ParsedControl :=
  .single (.insertRelative anchor text before .last)

def insertControl (text : String) : ParsedControl := .single (.insertText text)

def indentControl (levels : ℤ) : ParsedControl := .single (.changeIndent levels)

def formatControl (formatting : Formatting) : ParsedControl :=
  .single (.formatLastUtterance none formatting)

/-- What `scratch that` and `delete that` are parsed to. -/
def deleteControl : ParsedControl := .single (.deleteLastUtterance "" 0)

def setModeOf (normalized : String) : Option DictationMode :=
  if normalized ∈ ["natural mode", "prose mode"] then some .natural
  else if normalized = "literal mode" then some .literal
  else if normalized ∈ ["code mode", "coding mode"] then some .code
  else none

/-- The last `match` of `parse_control`. -/
def layoutControl (normalized : String) : Option ParsedControl :=
  if normalized ∈ ["new line", "newline"] then some (insertControl "\n")
  else if normalized ∈ ["new paragraph", "paragraph break"] then some (insertControl "\n\n")
  else if normalized ∈ ["indent", "indent that"] then some (indentControl 1)
  else if normalized ∈ ["dedent", "outdent", "outdent that"] then some (indentControl (-1))
  else if normalized ∈ ["bold that", "make that bold"] then some (formatControl .bold)
  else if normalized ∈ ["make that a heading", "heading"] then
    some (formatControl (.heading 1))
  else if normalized ∈ ["make that heading two", "heading two"] then
    some (formatControl (.heading 2))
  else if normalized ∈ ["make that a bullet list", "bullet list", "bullet that", "bullets"] then
    some (formatControl .bulletedList)
  else if normalized ∈ ["make that a numbered list", "number that"] then
    some (formatControl .numberedList)
  else none

def parseControl (raw : String) : Option ParsedControl :=
  let command := trimMatches isAsciiPunctuation (trim raw)
  let normalized := toAsciiLowercase command
  match setModeOf normalized with
  | some mode => some (.single (.setMode mode))
  | none =>
    if normalized ∈ ["scratch that", "delete that"] then some deleteControl
    else if normalized ∈ ["undo", "undo that"] then some (.single .undo)
    else
      match bothGiven (splitControl command "replace " " with ") with
      | some (find, replacement) => some (.single (.replaceLiteral find replacement .last))
      | none =>
        match bothGiven (splitControl command "insert " " before ") with
        | some (text, anchor) => some (relativeControl text anchor true)
        | none =>
          match bothGiven (splitControl command "insert " " after ") with
          | some (text, anchor) => some (relativeControl text anchor false)
          | none => layoutControl normalized

/-! ### The engine -/

/-- Stateful streaming dictation diff and correction engine. -/
structure DictationEngine where
  mode : DictationMode := .natural
  transactionId : ℕ := 1
  transactionPrefix : String := ""
  priorRendered : String := ""
  priorTokens : List String := []
  stabilityRuns : List ℕ := []
  committedUtterances : List String := []
  stabilityObservations : ℕ := 2
  suppressNextSeparator : Bool := false
  deriving DecidableEq

namespace DictationEngine

def new (mode : DictationMode) : DictationEngine := { mode := mode }

variable (e : DictationEngine)

/-- The runs of the words; a run is a `u8`. -/
def updateStability (words : List String) : DictationEngine :=
  { e with
    stabilityRuns := words.mapIdx fun index word =>
      if e.priorTokens[index]? = some word then min (e.stabilityRuns[index]?.getD 1 + 1) 255
      else 1 }

/-- The utterance an operation expects, put in. -/
def fillIn (latest : Option String) : EditOperation → EditOperation
  | .deleteLastUtterance _ _ =>
    match latest with
    | some latest => .deleteLastUtterance latest (encodeUtf16 latest).length
    | none => .undo
  | .formatLastUtterance _ formatting => .formatLastUtterance latest formatting
  | operation => operation

/-- The session state an operation of a control changes. -/
def noteOperation : EditOperation → DictationEngine
  | .setMode mode => { e with mode }
  | .insertText text =>
    if text.toList.getLast? = some '\n' then { e with suppressNextSeparator := true } else e
  | .changeIndent _ => { e with suppressNextSeparator := true }
  | _ => e

def isDelete : EditOperation → Bool
  | .deleteLastUtterance _ _ => true
  | _ => false

def applyControl (control : ParsedControl) :
    DictationEngine × List EditOperation :=
  let operations := control.operations.map (fillIn e.committedUtterances.getLast?)
  let e := operations.foldl noteOperation e
  let e := if operations.any isDelete then
      { e with committedUtterances := e.committedUtterances.dropLast }
    else e
  (e, if operations.isEmpty && control.visibleText.isNone then [.undo] else operations)

def startNextTransaction : DictationEngine :=
  { e with
    transactionId := satAdd e.transactionId 1
    transactionPrefix := ""
    priorRendered := ""
    priorTokens := []
    stabilityRuns := [] }

/-- The separator before the next utterance, chosen from the last character of the one
before and the first of the next. -/
def separatorFor (next : String) : DictationEngine × String :=
  if e.suppressNextSeparator then ({ e with suppressNextSeparator := false }, "")
  else
    let prior := e.committedUtterances.getLast?.bind (·.toList.getLast?)
    let joined :=
      (prior.map fun character =>
        isWhitespace character || "([\x7b/'\"".toList.contains character).getD true ||
      (next.toList.head?.map fun character =>
        isWhitespace character || ".,?!:;)]\x7d".toList.contains character).getD false
    (e, if joined then "" else " ")

def tokensOf (words : List String) (finalResult : Bool) :
    List DictationToken :=
  words.mapIdx fun index text =>
    { text
      stability :=
        if finalResult || e.stabilityObservations ≤ e.stabilityRuns[index]?.getD 0 then .stable
        else .unstable }

def stablePrefix (tokens : List DictationToken) (rendered : String) : ℕ :=
  min (satAdd ((tokens.takeWhile (·.stability = .stable)).map
      fun token => (encodeUtf16 token.text).length + 1).sum
    (encodeUtf16 e.transactionPrefix).length) (encodeUtf16 rendered).length

section Ingest

variable [UnicodeTables] (e : DictationEngine)

/-- The separator of a transaction, chosen when its first text comes. -/
def choosePrefix (control : Option ParsedControl) (displayText : String) :
    DictationEngine :=
  if control.isNone && e.priorRendered.isEmpty && !displayText.isEmpty then
    let (e, separator) := e.separatorFor displayText
    { e with transactionPrefix := separator }
  else e

/-- Only a final transcript is read as a control. -/
def controlOf (event : PartialTranscript) : Option ParsedControl :=
  if event.finalResult then parseControl (trim event.text) else none

def displayText (event : PartialTranscript) : String :=
  match controlOf event with
  | none => renderSpoken (trim event.text) e.mode
  | some parsed => parsed.visibleText.getD ""

/-- The engine once `ingest` has chosen the separator and counted the runs. -/
def prepare (event : PartialTranscript) : DictationEngine :=
  (e.choosePrefix (controlOf event) (e.displayText event)).updateStability
    (tokenize (e.displayText event))

/-- What is to be on screen: the separator and the text. -/
def rendered (event : PartialTranscript) : String :=
  (e.prepare event).transactionPrefix ++ e.displayText event

def revision (event : PartialTranscript) (stablePrefixUtf16 : ℕ) :
    List EditOperation :=
  if e.rendered event = e.priorRendered then []
  else [diffOperation e.transactionId e.priorRendered (e.rendered event) stablePrefixUtf16]

/-- The end of `ingest`: a final transcript is a control or is committed, and the next
transaction starts; a partial one is remembered. -/
def conclude (finalResult : Bool) (control : Option ParsedControl)
    (rendered : String) (words : List String) : DictationEngine × List EditOperation :=
  if finalResult then
    let (e, operations) :=
      match control with
      | some control => e.applyControl control
      | none =>
        if rendered.isEmpty then (e, [])
        else
          ({ e with committedUtterances := e.committedUtterances ++ [rendered] },
            [.commitTransaction e.transactionId])
    (e.startNextTransaction, operations)
  else ({ e with priorRendered := rendered, priorTokens := words }, [])

def ingest (event : PartialTranscript) :
    DictationEngine × Except DictationError DictationUpdate :=
  if event.text.toList.contains '\x00' then
    (e, .error (.invalidInput "transcript contains a NUL character"))
  else
    let prepared := e.prepare event
    let tokens := prepared.tokensOf (tokenize (e.displayText event)) event.finalResult
    let (concluded, operations) := prepared.conclude event.finalResult (controlOf event)
      (e.rendered event) (tokenize (e.displayText event))
    (concluded, .ok
      { transactionId := e.transactionId
        mode := concluded.mode
        tokens
        renderedText := e.displayText event
        finalResult := event.finalResult
        operations :=
          e.revision event (prepared.stablePrefix tokens (e.rendered event)) ++ operations })

end Ingest

end DictationEngine
end PersonalAgent.Audio
