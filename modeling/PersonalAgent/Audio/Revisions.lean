/-
# Revisions of provisional text

`diff_operation` counts characters, cuts at them and reports UTF-16 units; `stable_prefix_utf16`
is added up from the lengths of the stable words, with one unit for each gap.  A gap has at least
that many, so the sum stays before the first word that is not stable (`revision_exact`).
-/

import PersonalAgent.Audio.Replay

namespace PersonalAgent.Audio

open List

open PersonalAgent.Core (isWhitespace satAdd)

/-! ### Units -/

theorem encodeUtf16_ofList_cons (c : Char) (text : List Char) :
    encodeUtf16 (String.ofList (c :: text)) =
      encodeUtf16Char c ++ encodeUtf16 (String.ofList text) := by
  simp only [encodeUtf16, String.toList_ofList, flatMap_cons]

theorem length_encodeUtf16Char_pos (c : Char) : 0 < (encodeUtf16Char c).length := by
  unfold encodeUtf16Char
  split_ifs <;> simp

/-- The units tell the character they start with. -/
theorem encodeUtf16Char_append_inj {c d : Char} {x y : List UInt16}
    (h : encodeUtf16Char c ++ x = encodeUtf16Char d ++ y) : c = d := by
  have hvalid (c : Char) : c.toNat < 0xD800 ∨ 0xDFFF < c.toNat ∧ c.toNat < 0x110000 := c.valid
  have hc := hvalid c
  have hd := hvalid d
  have hunit {m n : ℕ} (hmn : UInt16.ofNat m = UInt16.ofNat n) : m % 65536 = n % 65536 := by
    simpa using congrArg UInt16.toNat hmn
  suffices hnat : c.toNat = d.toNat from Char.ext (UInt32.toNat_inj.mp hnat)
  -- a unit of its own is no surrogate, and a pair of them is decoded
  unfold encodeUtf16Char at h
  split_ifs at h <;> simp only [cons_append, nil_append, List.cons.injEq] at h
  · have hlow := hunit h.1
    omega
  · have hlow := hunit h.1
    omega
  · have hlow := hunit h.1
    omega
  · have hhigh := hunit h.1
    have hlow := hunit h.2.1
    omega

/-- A longer common part of two texts is none. -/
theorem le_commonChars {before after : List Char} {place : ℕ} {rest : List UInt16}
    (hplace : place ≤ before.length)
    (h : encodeUtf16 (String.ofList (before.take place)) ++ rest =
      encodeUtf16 (String.ofList after)) : place ≤ commonChars before after := by
  induction before generalizing after place with
  | nil => exact hplace.trans (Nat.zero_le _)
  | cons c before ih =>
    cases place with
    | zero => exact Nat.zero_le _
    | succ place =>
      rw [take_succ_cons, encodeUtf16_ofList_cons, append_assoc] at h
      cases after with
      | nil =>
        have hunits : encodeUtf16Char c = [] := (append_eq_nil_iff.mp h).1
        exact absurd hunits (ne_nil_of_length_pos (length_encodeUtf16Char_pos c))
      | cons d after =>
        rw [encodeUtf16_ofList_cons] at h
        obtain rfl := encodeUtf16Char_append_inj h
        have hrest := ih (by simpa using hplace) (append_cancel_left h)
        simpa [commonChars] using hrest

/-! ### Words -/

/-- The length of a text in UTF-16. -/
def units (text : List Char) : ℕ := (encodeUtf16 (String.ofList text)).length

theorem units_cons (c : Char) (text : List Char) :
    units (c :: text) = (encodeUtf16Char c).length + units text := by
  rw [units, encodeUtf16_ofList_cons, length_append, units]

def wordStarts (offset : ℕ) (inWord : Bool) : List Char → List ℕ
  | [] => []
  | c :: rest =>
    let next := offset + (encodeUtf16Char c).length
    if isWhitespace c then wordStarts next false rest
    else if inWord then wordStarts next true rest
    else offset :: wordStarts next true rest

/-- The words of a text, as characters. -/
def wordsOf (pieces : List (List Char)) : List (List Char) := pieces.filter (! ·.isEmpty)

/-- Each word starts at least one unit after the end of the one before. -/
def Spaced : ℕ → List (List Char) → List ℕ → Prop
  | _, [], [] => True
  | low, word :: words, start :: starts => low ≤ start ∧ Spaced (low + units word + 1) words starts
  | _, _, _ => False

theorem Spaced.mono {words : List (List Char)} {starts : List ℕ} {low low' : ℕ}
    (h : Spaced low words starts) (hle : low' ≤ low) : Spaced low' words starts := by
  induction words generalizing starts low low' with
  | nil => cases starts <;> exact h
  | cons word words ih =>
    cases starts with
    | nil => exact h
    | cons start starts => exact ⟨hle.trans h.1, ih h.2 (by omega)⟩

/-- Both ways to come to a place of a text: between words, and inside one. -/
theorem spaced_wordStarts (text : List Char) (offset : ℕ) :
    Spaced offset (wordsOf (text.splitOnP isWhitespace)) (wordStarts offset false text) ∧
    ∀ first rest, text.splitOnP isWhitespace = first :: rest →
      Spaced (offset + units first + 1) (wordsOf rest) (wordStarts offset true text) := by
  induction text generalizing offset with
  | nil =>
    refine ⟨trivial, fun first rest h => ?_⟩
    rw [splitOnP_nil] at h
    obtain ⟨rfl, rfl⟩ := List.cons.inj h
    trivial
  | cons c text ih =>
    obtain ⟨hbetween, hinside⟩ := ih (offset + (encodeUtf16Char c).length)
    have hpos := length_encodeUtf16Char_pos c
    obtain ⟨first, rest, hsplit⟩ := exists_cons_of_ne_nil
      (splitOnP_ne_nil isWhitespace text)
    have hinside := hinside first rest hsplit
    rw [splitOnP_cons_eq_if_modifyHead, hsplit]
    rw [hsplit] at hbetween
    by_cases hspace : isWhitespace c = true
    · simp only [wordStarts, hspace, if_true]
      refine ⟨hbetween.mono (by omega), ?_⟩
      rintro first' rest' h
      obtain ⟨rfl, rfl⟩ := List.cons.inj h
      exact hbetween.mono (by simp [units]; omega)
    · have hword : Spaced (offset + units (c :: first) + 1) (wordsOf rest)
          (wordStarts (offset + (encodeUtf16Char c).length) true text) := by
        rwa [units_cons, ← add_assoc]
      simp only [wordStarts, hspace, if_false, Bool.false_eq_true, modifyHead_cons, if_true]
      refine ⟨⟨le_rfl, hword⟩, ?_⟩
      rintro first' rest' h
      obtain ⟨rfl, rfl⟩ := List.cons.inj h
      exact hword

theorem Spaced.le_start {words : List (List Char)} {starts : List ℕ} {low k : ℕ}
    (h : Spaced low words starts) (hk : k < words.length) : ∃ start, starts[k]? = some start ∧
      low + ((words.take k).map fun word => units word + 1).sum ≤ start := by
  induction words generalizing starts low k with
  | nil => cases hk
  | cons word words ih =>
    cases starts with
    | nil => exact h.elim
    | cons start starts =>
      cases k with
      | zero => exact ⟨start, rfl, h.1⟩
      | succ k =>
        obtain ⟨found, hfound, hle⟩ := ih h.2 (Nat.lt_of_succ_lt_succ hk)
        refine ⟨found, hfound, ?_⟩
        rw [take_succ_cons, map_cons, sum_cons]
        omega

/-! ### Revisions -/

namespace DictationEngine

theorem map_text_tokensOf (e : DictationEngine) (words : List String) (finalResult : Bool) :
    (e.tokensOf words finalResult).map (·.text) = words := by
  refine ext_getElem? fun index => ?_
  simp only [tokensOf, getElem?_map, getElem?_mapIdx, Option.map_map]
  exact Option.map_id' (x := words[index]?)

/-- The stable words end before the first that is not. -/
theorem stablePrefix_le_start (e : DictationEngine) (display rendered : String) (finalResult : Bool)
    (hk : ((e.tokensOf (tokenize display) finalResult).takeWhile (·.stability = .stable)).length <
      (e.tokensOf (tokenize display) finalResult).length) :
    ∃ start, (wordStarts (encodeUtf16 e.transactionPrefix).length false display.toList)[
        ((e.tokensOf (tokenize display) finalResult).takeWhile (·.stability = .stable)).length]? =
          some start ∧
      e.stablePrefix (e.tokensOf (tokenize display) finalResult) rendered ≤ start := by
  have htexts := e.map_text_tokensOf (tokenize display) finalResult
  generalize e.tokensOf (tokenize display) finalResult = tokens at hk htexts ⊢
  have hwords : tokens.map (·.text) =
      (wordsOf (display.toList.splitOnP isWhitespace)).map String.ofList := htexts
  generalize hk' : (tokens.takeWhile (·.stability = .stable)).length = k at hk ⊢
  have htake : tokens.takeWhile (·.stability = .stable) = tokens.take k := by
    rw [← hk']
    exact prefix_iff_eq_take.mp <| takeWhile_prefix _
  obtain ⟨start, hstart, hle⟩ := (spaced_wordStarts display.toList
    (encodeUtf16 e.transactionPrefix).length).1.le_start (k := k) (by
      have hlength := congrArg List.length hwords
      simp only [length_map] at hlength
      omega)
  have hsum : (tokens.take k).map (fun token => (encodeUtf16 token.text).length + 1) =
      ((wordsOf (display.toList.splitOnP isWhitespace)).take k).map fun word => units word + 1 := by
    have hmap := congrArg (fun texts : List String =>
      (texts.take k).map fun text => (encodeUtf16 text).length + 1) hwords
    simp only [← map_take, map_map] at hmap
    exact hmap
  have hsat (a b : ℕ) : satAdd a b ≤ a + b := Nat.min_le_left _ _
  refine ⟨start, hstart, (Nat.min_le_left _ _).trans ((hsat _ _).trans ?_)⟩
  rw [htake, hsum]
  omega

/-- **Revisions are exact, and least.**  What a revision keeps and deletes is the whole text before;
what it keeps, and the text it inserts, is the text after; it cuts between two characters, and no
later such cut would do.  And in every update the stable part ends where the first word that is not
stable starts, or before. -/
theorem revision_exact [UnicodeTables] :
    (∀ (id : ℕ) (before after : String) (stable : ℕ), ∃ retain delete insert,
      diffOperation id before after stable =
        .replaceProvisionalTail id retain delete insert stable ∧
      retain + delete = (encodeUtf16 before).length ∧
      (encodeUtf16 before).take retain ++ encodeUtf16 insert = encodeUtf16 after ∧
      (∃ place ≤ before.toList.length, retain = units (before.toList.take place)) ∧
      ∀ place ≤ before.toList.length, ∀ rest,
        encodeUtf16 (String.ofList (before.toList.take place)) ++ rest = encodeUtf16 after →
        units (before.toList.take place) ≤ retain) ∧
    ∀ (e : DictationEngine) (event : PartialTranscript) (update : DictationUpdate),
      (e.ingest event).2 = .ok update → ∃ stable operations,
        update.operations = e.revision event stable ++ operations ∧
        ((update.tokens.takeWhile (·.stability = .stable)).length < update.tokens.length →
          ∃ start, (wordStarts (encodeUtf16 (e.prepare event).transactionPrefix).length false
              update.renderedText.toList)[
                (update.tokens.takeWhile (·.stability = .stable)).length]? = some start ∧
            stable ≤ start) := by
  refine ⟨fun id before after stable => ?_, ?_⟩
  · have hcommon := take_commonChars before.toList after.toList
    have hbefore := encodeUtf16_split before (commonChars before.toList after.toList)
    have hafter := encodeUtf16_split after (commonChars before.toList after.toList)
    have hle : commonChars before.toList after.toList ≤ before.toList.length :=
      (IsPrefix.length_le <| takeWhile_prefix _).trans
        (by rw [length_zip]; exact Nat.min_le_left _ _)
    refine ⟨_, _, _, rfl, ?_, ?_, ⟨_, hle, by rw [hcommon]; rfl⟩, fun place hplace rest h => ?_⟩
    · rw [← hcommon, hbefore, length_append]
    · rw [hbefore, hcommon, take_left, ← hafter]
    · have hplace' := le_commonChars hplace (h.trans (by rw [String.ofList_toList]))
      have hsplit := encodeUtf16_split (String.ofList (before.toList.take
        (commonChars before.toList after.toList))) place
      rw [String.toList_ofList, take_take, Nat.min_eq_left hplace', hcommon] at hsplit
      rw [hsplit, length_append]
      exact Nat.le_add_right _ _
  · intro e event update h
    unfold ingest at h
    split_ifs at h
    obtain rfl := Except.ok.inj h
    exact ⟨_, _, rfl, (e.prepare event).stablePrefix_le_start _ _ _⟩

section Examples

attribute [local instance] asciiTables

/-- A word that has come twice, and one that has come once: what is stable ends before the
second. -/
theorem revision_exact_hello :
    let e := (({} : DictationEngine).ingest ⟨"hello", false⟩).1
    ∃ update, (e.ingest ⟨"hello wor", false⟩).2 = .ok update ∧
      ∃ stable operations start,
        update.operations = e.revision ⟨"hello wor", false⟩ stable ++ operations ∧
        (wordStarts (encodeUtf16 (e.prepare ⟨"hello wor", false⟩).transactionPrefix).length false
          update.renderedText.toList)[1]? = some start ∧ stable ≤ start := by
  intro e
  obtain ⟨update, hupdate⟩ : ∃ update, (e.ingest ⟨"hello wor", false⟩).2 = .ok update := ⟨_, rfl⟩
  have hcounts : (e.ingest ⟨"hello wor", false⟩).2.toOption.map (fun update =>
      ((update.tokens.takeWhile (·.stability = .stable)).length, update.tokens.length)) =
      some (1, 2) := by decide +kernel
  rw [hupdate] at hcounts
  obtain ⟨hstable, hwords⟩ := Prod.mk.inj (Option.some.inj hcounts)
  obtain ⟨stable, operations, hoperations, hstart⟩ := revision_exact.2 e _ update hupdate
  rw [hstable, hwords] at hstart
  obtain ⟨start, hstart, hle⟩ := hstart (by decide)
  exact ⟨update, hupdate, stable, operations, start, hoperations, hstart, hle⟩

end Examples

end DictationEngine

end PersonalAgent.Audio
