/-
# Spoken text

`crates/audio/src/dictation.rs`, `render_spoken` and below: how a transcript is shown in each
of the dictation modes.  A literal transcript is kept, apart from `spell`; the other modes
replace the phrases of a vocabulary and then clean up the spacing.  Offsets into a text are
counted in characters: every phrase is ASCII, and `to_ascii_lowercase` keeps the characters
of a text where they are.  `char::is_alphanumeric` is a parameter (`UnicodeTables`).
-/

import PersonalAgent.Core.Usage

namespace PersonalAgent.Audio

open PersonalAgent.Core (isWhitespace trim toAsciiLowercase)

/-- `char::is_alphanumeric`. -/
class UnicodeTables where
  isAlphanumeric : Char → Bool

/-- Dictation processing mode selected by a spoken or visible control. -/
inductive DictationMode where
  | natural
  | literal
  | code
  deriving DecidableEq

/-- `str::find`, of a text: where its first occurrence starts. -/
def findText (needle : List Char) : List Char → Option ℕ
  | [] => if needle.isEmpty then some 0 else none
  | c :: rest =>
    if needle.isPrefixOf (c :: rest) then some 0 else (findText needle rest).map (· + 1)

/-- `str::split_whitespace`. -/
def splitWhitespace (text : String) : List String :=
  ((text.toList.splitOnP isWhitespace).filter (! ·.isEmpty)).map String.ofList

def tokenize (text : String) : List String := splitWhitespace text

/-! ### Spelling -/

def renderLiteral (raw : String) : String :=
  let trimmed := trim raw
  if "spell ".toList.isPrefixOf (toAsciiLowercase trimmed).toList then
    let spelling := String.ofList (trimmed.toList.drop "spell ".length)
    let letters := (splitWhitespace spelling).filterMap fun part =>
      match part.toList with
      | [first] => some first
      | _ => none
    if letters.isEmpty then trimmed else String.ofList letters
  else trimmed

/-! ### Spacing -/

/-- What `cleanup_spacing` has written, and whether it ended with a space it chose to write. -/
structure Spacing where
  output : List Char := []
  priorSpace : Bool := false

def Spacing.push (s : Spacing) (character : Char) : Spacing :=
  if character = '\n' then
    { output := s.output.rdropWhile (· = ' ') ++ [character], priorSpace := false }
  else if isWhitespace character then
    if !s.priorSpace && s.output.getLast? != some '\n' then
      { output := s.output ++ [' '], priorSpace := true }
    else s
  else
    let output :=
      if ['.', ',', '?', '!', ':', ';'].contains character && s.output.getLast? == some ' ' then
        s.output.dropLast
      else s.output
    { output := output ++ [character], priorSpace := false }

def cleanupSpacing (input : String) : String :=
  trim (String.ofList (input.toList.foldl Spacing.push {}).output)

section Vocabulary

variable [UnicodeTables]

/-! ### Phrases -/

/-- No letter or digit stands at a place that bounds a phrase. -/
def isBoundary (character : Option Char) : Bool :=
  !(character.map UnicodeTables.isAlphanumeric).getD false

/-- The loop of `replace_whole_phrase` from `cursor` on.  Every turn passes a whole phrase, so
the length of the input bounds their number. -/
def replaceFrom (input phrase replacement : List Char) : ℕ → ℕ → List Char
  | 0, cursor => input.drop cursor
  | fuel + 1, cursor =>
    match findText phrase ((toAsciiLowercase (String.ofList input)).toList.drop cursor) with
    | none => input.drop cursor
    | some relative =>
      let start := cursor + relative
      let stop := start + phrase.length
      let written :=
        if isBoundary (input.take start).getLast? && isBoundary (input.drop stop).head? then
          (input.drop cursor).take relative ++ replacement
        else (input.drop cursor).take (relative + phrase.length)
      written ++ replaceFrom input phrase replacement fuel stop

def replaceWholePhrase (input phrase replacement : String) : String :=
  String.ofList (replaceFrom input.toList phrase.toList replacement.toList input.length 0)

def replacePhrases (input : String) (vocabulary : List (String × String)) : String :=
  cleanupSpacing (vocabulary.foldl
    (fun output entry => replaceWholePhrase output entry.1 (" " ++ entry.2 ++ " ")) input)

def codeVocabulary : List (String × String) :=
  [("open parenthesis", "("), ("close parenthesis", ")"), ("open bracket", "["),
    ("close bracket", "]"), ("open brace", "\x7b"), ("close brace", "\x7d"),
    ("double quote", "\""), ("single quote", "'"), ("equals", "="), ("plus", "+"),
    ("minus", "-"), ("slash", "/"), ("backslash", "\\"), ("semicolon", ";"), ("colon", ":"),
    ("comma", ","), ("dot", "."), ("new line", "\n"), ("newline", "\n"), ("indent", "    "),
    ("tab", "    ")]

def naturalVocabulary : List (String × String) :=
  [("new paragraph", "\n\n"), ("new line", "\n"), ("newline", "\n"), ("question mark", "?"),
    ("exclamation mark", "!"), ("full stop", "."), ("period", "."), ("comma", ","),
    ("semicolon", ";"), ("colon", ":")]

def renderVocabulary (raw : String) (code : Bool) : String :=
  let trimmed := trim raw
  let lower := toAsciiLowercase trimmed
  if code then
    if "spell ".toList.isPrefixOf lower.toList then renderLiteral trimmed
    else if lower = "indent" then "    "
    else if lower = "dedent" || lower = "outdent" then ""
    else replacePhrases trimmed codeVocabulary
  else replacePhrases trimmed naturalVocabulary

def renderSpoken (raw : String) : DictationMode → String
  | .literal => renderLiteral raw
  | .natural => renderVocabulary raw false
  | .code => renderVocabulary raw true

end Vocabulary

end PersonalAgent.Audio
