/-
# The command shown for consent

`display_command` shows the words of a recipe with blanks between them, and quotes a word that
has a character beside the safe ones.  A safe character is no blank and no quote, and inside
quotes a quote is followed by a backslash where the word goes on, and by a blank or nothing
where it ends.  So the first word can be read off (`readWord_shown`), and with it all of them.
-/

import PersonalAgent.Mcp.Manager

namespace PersonalAgent.Mcp

open List

/-- The characters that are shown as they are. -/
def SafeCharacter (c : Char) : Prop :=
  isAsciiAlphanumeric c = true ∨ "-._/:=@+".toList.contains c = true

/-- The word up to the closing quote, and what follows. -/
def readQuoted : List Char → List Char × List Char
  | '\'' :: '\\' :: '\'' :: '\'' :: rest => ('\'' :: (readQuoted rest).1, (readQuoted rest).2)
  | '\'' :: rest => ([], rest)
  | c :: rest => (c :: (readQuoted rest).1, (readQuoted rest).2)
  | [] => ([], [])

/-- The first word of a command that is shown, and what follows. -/
def readWord : List Char → List Char × List Char
  | '\'' :: rest => readQuoted rest
  | text => (text.takeWhile (· ≠ ' '), text.dropWhile (· ≠ ' '))

/-- The characters of a word between quotes. -/
def quotedBody (word : List Char) : List Char :=
  word.flatMap fun c => if c = Char.ofNat 39 then "\x27\\\x27\x27".toList else [c]

theorem shellDisplayWord_of_safe {word : String} (hne : word ≠ "")
    (h : ∀ c ∈ word.toList, SafeCharacter c) : shellDisplayWord word = word := by
  unfold shellDisplayWord
  refine if_pos ?_
  rw [Bool.and_eq_true, all_eq_true]
  exact ⟨by simpa using hne, fun c hc => Bool.or_eq_true_iff.mpr (h c hc)⟩

theorem shellDisplayWord_of_unsafe {word : String}
    (h : word = "" ∨ ∃ c ∈ word.toList, ¬SafeCharacter c) :
    (shellDisplayWord word).toList = '\'' :: (quotedBody word.toList ++ ['\'']) := by
  unfold shellDisplayWord
  rw [if_neg]
  · simp [quotedBody]
  · rw [Bool.and_eq_true, all_eq_true]
    rintro ⟨hne, hall⟩
    rcases h with rfl | ⟨c, hc, hunsafe⟩
    · cases hne
    · exact hunsafe (Bool.or_eq_true_iff.mp (hall c hc))

/-- What may follow a word. -/
def Boundary (rest : List Char) : Prop := ∀ c ∈ rest.head?, c = ' '

theorem readQuoted_quotedBody (word : List Char) {rest : List Char} (h : Boundary rest) :
    readQuoted (quotedBody word ++ '\'' :: rest) = (word, rest) := by
  induction word with
  | nil =>
    rcases rest with _ | ⟨c, rest⟩
    · rfl
    · obtain rfl := h c rfl
      rfl
  | cons c word ih =>
    by_cases hc : c = '\''
    · subst hc
      change readQuoted ('\'' :: '\\' :: '\'' :: '\'' :: (quotedBody word ++ '\'' :: rest)) = _
      rw [readQuoted, ih]
    · have hbody : quotedBody (c :: word) = c :: quotedBody word := by
        simp [quotedBody, hc]
      rw [hbody, cons_append]
      unfold readQuoted
      split <;> simp_all

theorem SafeCharacter.ne {c : Char} (h : SafeCharacter c) : c ≠ ' ' ∧ c ≠ '\'' := by
  refine ⟨?_, ?_⟩ <;> rintro rfl <;> revert h <;> unfold SafeCharacter <;> decide

/-- **A word can be read off.** -/
theorem readWord_shown (word : String) {rest : List Char} (h : Boundary rest) :
    readWord ((shellDisplayWord word).toList ++ rest) = (word.toList, rest) := by
  by_cases hsafe : word ≠ "" ∧ ∀ c ∈ word.toList, SafeCharacter c
  · obtain ⟨hne, hsafe⟩ := hsafe
    rw [shellDisplayWord_of_safe hne hsafe]
    have hend : rest.takeWhile (· ≠ ' ') = [] ∧ rest.dropWhile (· ≠ ' ') = rest := by
      rcases rest with _ | ⟨c, rest⟩
      · exact ⟨rfl, rfl⟩
      · obtain rfl := h c rfl
        exact ⟨rfl, rfl⟩
    have hword : ∀ c ∈ word.toList, decide (c ≠ ' ') = true :=
      fun c hc => decide_eq_true (hsafe c hc).ne.1
    obtain ⟨c, cs, hcs⟩ := exists_cons_of_ne_nil (mt String.toList_eq_nil_iff.mp hne)
    have hquote : c ≠ '\'' := (hsafe c (hcs ▸ mem_cons_self)).ne.2
    have hread : readWord (word.toList ++ rest) = ((word.toList ++ rest).takeWhile (· ≠ ' '),
        (word.toList ++ rest).dropWhile (· ≠ ' ')) := by
      rw [hcs, cons_append]
      unfold readWord
      split
      · simp_all
      · rfl
    rw [hread, takeWhile_append_of_pos hword, dropWhile_append_of_pos hword, hend.1,
      hend.2, append_nil]
  · have hunsafe : word = "" ∨ ∃ c ∈ word.toList, ¬SafeCharacter c := by
      rw [not_and_or, not_not] at hsafe
      exact hsafe.imp_right fun h => by simpa using h
    rw [ shellDisplayWord_of_unsafe hunsafe, cons_append, append_assoc]
    exact readQuoted_quotedBody _ h

def shown (words : List String) : List Char :=
  [' '].intercalate (words.map fun word => (shellDisplayWord word).toList)

theorem readWord_words (word : String) (words : List String) :
    readWord (shown (word :: words)) =
      (word.toList, if words = [] then [] else ' ' :: shown words) := by
  cases words with
  | nil =>
    have hshown : shown [word] = (shellDisplayWord word).toList ++ [] := by simp [shown]
    have hend : Boundary [] := fun c hc => nomatch hc
    rw [hshown, readWord_shown word hend, if_pos rfl]
  | cons next words =>
    have hshown : shown (word :: next :: words) =
        (shellDisplayWord word).toList ++ ' ' :: shown (next :: words) := by
      simp [shown]
    have hblank : Boundary (' ' :: shown (next :: words)) :=
      fun c hc => (Option.some.inj hc).symm
    rw [hshown, readWord_shown word hblank, if_neg (cons_ne_nil next words)]

theorem shown_injective {words words' : List String} (hne : words ≠ []) (hne' : words' ≠ [])
    (h : shown words = shown words') : words = words' := by
  induction words generalizing words' with
  | nil => exact absurd rfl hne
  | cons word words ih =>
    obtain ⟨word', words', rfl⟩ := exists_cons_of_ne_nil hne'
    have hread := congrArg readWord h
    rw [readWord_words, readWord_words, Prod.mk.injEq, String.toList_inj] at hread
    obtain ⟨rfl, hrest⟩ := hread
    split_ifs at hrest with hnil hnil' hnil'
    · rw [hnil, hnil']
    · rw [ih hnil hnil' (List.cons.inj hrest).2]

/-- **The command shown is unambiguous.**  It tells the program and the arguments; a word of safe
characters is shown as it is, and every other word between quotes; and either way the word and
what follows it can be read off. -/
theorem displayed_command_unambiguous :
    (∀ r₁ r₂ : InstallRecipe, r₁.displayCommand = r₂.displayCommand →
      r₁.program = r₂.program ∧ r₁.arguments = r₂.arguments) ∧
    (∀ word, word ≠ "" → (∀ c ∈ word.toList, SafeCharacter c) → shellDisplayWord word = word) ∧
    (∀ word, (word = "" ∨ ∃ c ∈ word.toList, ¬SafeCharacter c) →
      (shellDisplayWord word).toList = '\'' :: (quotedBody word.toList ++ ['\''])) ∧
    ∀ (word : String) (rest : List Char), Boundary rest →
      readWord ((shellDisplayWord word).toList ++ rest) = (word.toList, rest) := by
  refine ⟨fun r₁ r₂ h => ?_, fun word => shellDisplayWord_of_safe,
    fun word => shellDisplayWord_of_unsafe, fun word rest => readWord_shown word⟩
  have hlist := congrArg String.toList h
  unfold InstallRecipe.displayCommand at hlist
  rw [String.toList_intercalate, String.toList_intercalate, map_map, map_map] at hlist
  exact List.cons.inj (shown_injective (cons_ne_nil _ _) (cons_ne_nil _ _) hlist)

end PersonalAgent.Mcp
