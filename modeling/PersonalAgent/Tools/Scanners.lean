/-
# The scanners for secrets, with their cursors

`contains_prefixed_run`, `contains_jwt` and `contains_keyed_long_secret` move a cursor over the
bytes of a text.  Here they move it over a list of units, the bytes (each as the character with
its code) or the characters: every class and every lead is ASCII.  A slice that does not exist is
a panic, `none`.  No walk panics, and each finds what its scanner in the gateway finds, which
looks at the rest of the text from every position; those see a secret in any context.
-/

import PersonalAgent.Tools.Gateway

namespace PersonalAgent.Tools

open List

/-! ### Cursors -/

/-- `bytes[start..]`. -/
def sliceFrom (units : List Char) (start : ℕ) : Option (List Char) :=
  if start ≤ units.length then some (units.drop start) else none

/-- `while bytes.get(cursor).is_some_and(..) { cursor += 1 }`. -/
def skipWhile (accepts : Char → Bool) (units : List Char) (cursor : ℕ) : ℕ :=
  if h : cursor < units.length then
    if accepts units[cursor] then skipWhile accepts units (cursor + 1) else cursor
  else cursor
termination_by units.length - cursor

/-- A quotation mark under the cursor is passed. -/
def skipMark (units : List Char) (cursor : ℕ) : ℕ :=
  if units[cursor]?.any ['\'', '"'].contains then cursor + 1 else cursor

/-- `str::match_indices` from a position on: matches do not overlap. -/
def matchIndices (lead : List Char) (units : List Char) (start : ℕ) : List ℕ :=
  if start < units.length then
    if lead.isPrefixOf (units.drop start) then
      start :: matchIndices lead units (start + max 1 lead.length)
    else matchIndices lead units (start + 1)
  else []
termination_by units.length - start

def scanPrefixedRun (units : List Char) (lead : String) (minimumLength : ℕ)
    (allowed : Char → Bool) : Option Bool :=
  (matchIndices lead.toList units 0).anyM fun start => do
    let rest ← sliceFrom units (start + lead.length)
    return minimumLength ≤ (rest.takeWhile allowed).length

def jwtAt (units : List Char) (start : ℕ) : Option Bool := do
  let rest ← sliceFrom units start
  if !"eyJ".toList.isPrefixOf rest then return false
  let first := skipWhile isBase64UrlByte units (start + 3)
  if units[first]? != some '.' then return false
  let second := skipWhile isBase64UrlByte units (first + 1)
  if second == first + 1 || units[second]? != some '.' then return false
  return units[second + 1]?.any isBase64UrlByte

def scanJwt (units : List Char) : Option Bool := (List.range units.length).anyM (jwtAt units)

def keyedAt (units : List Char) (start : ℕ) (key : String) : Option Bool := do
  -- `bytes.get(start..start + key.len())`
  if units.length < start + key.length then return false
  let candidate := (units.drop start).take key.length
  if Core.toAsciiLowercase (String.ofList candidate) != key then return false
  let cursor := skipWhile isAsciiWhitespace units (skipMark units (start + key.length))
  if !units[cursor]?.any [':', '='].contains then return false
  let value ← sliceFrom units (skipMark units (skipWhile isAsciiWhitespace units (cursor + 1)))
  return 32 ≤ (value.takeWhile isBase64Byte).length

def scanKeyedLongSecret (units : List Char) : Option Bool :=
  (List.range units.length).anyM fun start =>
    ["token", "secret", "key", "password"].anyM (keyedAt units start)

variable {units : List Char} {cursor : ℕ} {accepts : Char → Bool} {test : List Char → Bool}

theorem drop_skipWhile (accepts : Char → Bool) (units : List Char) (cursor : ℕ) :
    units.drop (skipWhile accepts units cursor) = (units.drop cursor).dropWhile accepts := by
  fun_induction skipWhile with
  | case1 cursor h haccepts ih =>
    rw [ih, drop_eq_getElem_cons h, dropWhile_cons, if_pos haccepts]
  | case2 cursor h haccepts =>
    rw [drop_eq_getElem_cons h, dropWhile_cons, if_neg haccepts]
  | case3 cursor h => rw [drop_eq_nil_of_le (by omega), dropWhile_nil]

theorem skipWhile_mem (accepts : Char → Bool) (h : cursor ≤ units.length) :
    cursor ≤ skipWhile accepts units cursor ∧ skipWhile accepts units cursor ≤ units.length := by
  fun_induction skipWhile with
  | case1 cursor hlt haccepts ih => exact ⟨by have := (ih hlt).1; omega, (ih hlt).2⟩
  | case2 cursor hlt haccepts => exact ⟨le_rfl, h⟩
  | case3 cursor hlt => exact ⟨le_rfl, h⟩

theorem drop_skipMark (units : List Char) (cursor : ℕ) :
    units.drop (skipMark units cursor) = skipQuote (units.drop cursor) := by
  unfold skipMark
  rw [← head?_drop, apply_ite (units.drop ·), ← tail_drop]
  rcases units.drop cursor with _ | ⟨c, rest⟩
  · rfl
  · by_cases hmark : c = '\'' ∨ c = '"'
    · rcases hmark with rfl | rfl <;> rfl
    · rw [if_neg (by simpa using hmark)]
      unfold skipQuote
      split <;> simp_all

theorem skipMark_le (h : cursor ≤ units.length) : skipMark units cursor ≤ units.length := by
  unfold skipMark
  split_ifs with hmark
  · by_contra hlt
    rw [getElem?_eq_none (by omega)] at hmark
    cases hmark
  · exact h

theorem of_drop_cons {c : Char} {rest : List Char} (h : units.drop cursor = c :: rest) :
    units[cursor]? = some c ∧ units.drop (cursor + 1) = rest ∧
      units.length = cursor + rest.length + 1 := by
  refine ⟨by rw [← head?_drop, h, head?_cons], by rw [← tail_drop, h]; rfl, ?_⟩
  have hlength := congrArg List.length h
  rw [length_drop, length_cons] at hlength
  omega

/-! ### The walks and the scanners -/

theorem anyM_eq_any {α : Type} {l : List α} {f : α → Option Bool} {g : α → Bool}
    (h : ∀ a ∈ l, f a = some (g a)) : l.anyM f = some (l.any g) := by
  induction l with
  | nil => rfl
  | cons a l ih =>
    rw [anyM_cons, h a mem_cons_self, any_cons,
      ih fun b hb => h b (mem_cons_of_mem a hb)]
    cases g a <;> rfl

/-- A walk from every position is a test of every rest of the text. -/
theorem anyM_range_eq {walk : ℕ → Option Bool} (hnil : test [] = false)
    (h : ∀ start ≤ units.length, walk start = some (test (units.drop start))) :
    (List.range units.length).anyM walk = some (units.tails.any test) := by
  rw [anyM_eq_any fun start hstart => h start (mem_range.mp hstart).le, Option.some.injEq,
    Bool.eq_iff_iff, any_eq_true, any_eq_true]
  constructor
  · rintro ⟨start, -, hstart⟩
    exact ⟨_, (mem_tails _ _).mpr (drop_suffix start units), hstart⟩
  · rintro ⟨rest, hrest, htest⟩
    have hdrop := suffix_iff_eq_drop.mp ((mem_tails _ _).mp hrest)
    have hpos : rest ≠ [] := by rintro rfl; rw [hnil] at htest; cases htest
    have hlength := ((mem_tails _ _).mp hrest).length_le
    refine ⟨units.length - rest.length, mem_range.mpr ?_, by rwa [← hdrop]⟩
    have := length_pos_iff.mpr hpos
    omega

theorem scanJwt_eq (units : List Char) :
    scanJwt units = some (containsJwt (String.ofList units)) := by
  unfold scanJwt containsJwt
  rw [String.toList_ofList]
  refine anyM_range_eq rfl fun start hstart => ?_
  have hslice : sliceFrom units start = some (units.drop start) := if_pos hstart
  rw [jwtAt, hslice, afterLead, Option.bind_eq_bind, Option.bind_some]
  cases hlead : "eyJ".toList.isPrefixOf (units.drop start) with
  | false => rfl
  | true =>
    have hle : start + 3 ≤ units.length := by
      have hlength := IsPrefix.length_le <| isPrefixOf_iff_prefix.mp hlead
      rw [length_drop] at hlength
      change 3 ≤ _ at hlength
      omega
    have hfirst : units.drop (skipWhile isBase64UrlByte units (start + 3)) =
        afterRun ((units.drop start).drop "eyJ".length) := by
      rw [drop_skipWhile, drop_drop]
      rfl
    have hmem := (skipWhile_mem isBase64UrlByte hle).2
    generalize skipWhile isBase64UrlByte units (start + 3) = first at hfirst hmem
    simp only [Bool.not_true, Bool.false_eq_true, if_false, if_true, ← hfirst, ← head?_drop]
    rcases hrest : units.drop first with _ | ⟨c, payload⟩
    · rfl
    by_cases hc : c = '.'
    · subst hc
      obtain ⟨-, hnext, hlength⟩ := of_drop_cons hrest
      have hsecond := drop_skipWhile isBase64UrlByte units (first + 1)
      have hle : first + 1 ≤ units.length := by omega
      have hmem := skipWhile_mem isBase64UrlByte hle
      generalize skipWhile isBase64UrlByte units (first + 1) = second at hsecond hmem ⊢
      rw [hnext, ← afterRun] at hsecond
      simp only [hsecond]
      rcases hrest : afterRun payload with _ | ⟨c, signature⟩
      · simp
      obtain ⟨-, hlast, hlength'⟩ := of_drop_cons (hsecond.trans hrest)
      by_cases hc : c = '.'
      · subst hc
        -- the run is empty exactly if the cursor has not moved
        have hrun : second = first + 1 ↔ ¬signature.length + 1 < payload.length := by omega
        rw [hlast]
        by_cases hlt : signature.length + 1 < payload.length
        · simp [hrun, hlt]
          cases signature.head? <;> rfl
        · simp [hrun, hlt]
      · simp [hc]
    · simp [hc]

theorem length_of_candidate {key : String} {t : List Char}
    (h : Core.toAsciiLowercase (String.ofList (t.take key.length)) = key) :
    key.length ≤ t.length := by
  have hlength := congrArg String.length h
  simp [Core.toAsciiLowercase] at hlength
  exact hlength

theorem scanKeyedLongSecret_eq (units : List Char) :
    scanKeyedLongSecret units = some (containsKeyedLongSecret (String.ofList units)) := by
  unfold scanKeyedLongSecret containsKeyedLongSecret
  rw [String.toList_ofList]
  refine anyM_range_eq (by decide +kernel) fun start hstart => anyM_eq_any fun key hkey => ?_
  unfold keyedAt
  by_cases hcandidate : Core.toAsciiLowercase
      (String.ofList ((units.drop start).take key.length)) = key
  · have hlength := length_of_candidate hcandidate
    rw [length_drop] at hlength
    rw [if_neg (by omega)]
    simp only [hcandidate, bne_self_eq_false, Bool.false_eq_true, if_false]
    have hcursor := drop_skipWhile isAsciiWhitespace units (skipMark units (start + key.length))
    rw [drop_skipMark, ← drop_drop] at hcursor
    generalize skipWhile isAsciiWhitespace units (skipMark units (start + key.length)) = cursor
      at hcursor ⊢
    rw [← hcursor]
    rcases hrest : units.drop cursor with _ | ⟨c, value⟩
    · rw [← head?_drop, hrest]
      rfl
    obtain ⟨hc, hnext, hlength⟩ := of_drop_cons hrest
    have hnextle : cursor + 1 ≤ units.length := by omega
    have hmem := skipMark_le (skipWhile_mem isAsciiWhitespace hnextle).2
    have hvalue := drop_skipMark units (skipWhile isAsciiWhitespace units (cursor + 1))
    rw [drop_skipWhile, hnext] at hvalue
    by_cases hseparator : c = ':' ∨ c = '='
    · rw [hc, sliceFrom, if_pos hmem, hvalue]
      rcases hseparator with rfl | rfl <;> rfl
    · rw [not_or] at hseparator
      simp [hc, hseparator]
  · simp only [bne_iff_ne.mpr hcandidate, if_true]
    split_ifs <;> rfl

theorem of_mem_matchIndices {lead : List Char} {start i : ℕ}
    (h : i ∈ matchIndices lead units start) :
    i ≤ units.length ∧ lead.isPrefixOf (units.drop i) = true := by
  fun_induction matchIndices lead units start with
  | case1 start hlt hlead ih =>
    rcases mem_cons.mp h with rfl | h
    · exact ⟨hlt.le, hlead⟩
    · exact ih h
  | case2 start hlt hlead ih => exact ih h
  | case3 start hlt => cases h

theorem scanPrefixedRun_spec (units : List Char) (lead : String) (minimum : ℕ)
    (allowed : Char → Bool) : scanPrefixedRun units lead minimum allowed =
      some ((matchIndices lead.toList units 0).any fun i =>
        minimum ≤ ((units.drop (i + lead.length)).takeWhile allowed).length) := by
  refine anyM_eq_any fun i hi => ?_
  obtain ⟨hle, hlead⟩ := of_mem_matchIndices hi
  have hlength := IsPrefix.length_le <| isPrefixOf_iff_prefix.mp hlead
  rw [length_drop, String.length_toList] at hlength
  rw [sliceFrom, if_pos (by omega)]
  rfl

/-- A lead that stands across a match is passed over, but the run after the match goes through it:
it is made of characters of the run. -/
theorem exists_matchIndices {lead : List Char} (hne : lead ≠ []) (hlead : ∀ c ∈ lead, accepts c)
    {minimum start i : ℕ} (hi : start ≤ i) (hpre : lead.isPrefixOf (units.drop i) = true)
    (hrun : minimum ≤ ((units.drop (i + lead.length)).takeWhile accepts).length) :
    ∃ j ∈ matchIndices lead units start,
      minimum ≤ ((units.drop (j + lead.length)).takeWhile accepts).length := by
  obtain ⟨rest, hrest⟩ := isPrefixOf_iff_prefix.mp hpre
  have hpos := length_pos_iff.mpr hne
  fun_induction matchIndices lead units start with
  | case1 start hlt hmatch ih =>
    by_cases hover : start + lead.length ≤ i
    · obtain ⟨j, hj, hrun⟩ := ih (by omega)
      exact ⟨j, mem_cons_of_mem start hj, hrun⟩
    · refine ⟨start, mem_cons_self, hrun.trans ?_⟩
      have hacross : units.drop (start + lead.length) =
          lead.drop (start + lead.length - i) ++ units.drop (i + lead.length) := by
        rw [show start + lead.length = i + (start + lead.length - i) by omega, ← drop_drop,
          ← drop_drop, ← hrest, drop_append_of_le_length (by omega), drop_left]
        congr 2
        omega
      rw [hacross, takeWhile_append_of_pos fun c hc => hlead c (mem_of_mem_drop hc),
        length_append]
      exact Nat.le_add_left _ _
  | case2 start hlt hmatch ih =>
    have hother : start ≠ i := by rintro rfl; exact hmatch hpre
    exact ih (by omega)
  | case3 start hlt =>
    rw [drop_eq_nil_of_le (by omega), append_eq_nil_iff] at hrest
    exact absurd hrest.1 hne

theorem scanPrefixedRun_eq {lead : String} (hne : lead ≠ "") {minimum : ℕ}
    (hlead : ∀ c ∈ lead.toList, accepts c) (units : List Char) :
    scanPrefixedRun units lead minimum accepts =
      some (containsPrefixedRun (String.ofList units) lead minimum accepts) := by
  rw [scanPrefixedRun_spec, containsPrefixedRun, String.toList_ofList, Option.some.injEq,
    Bool.eq_iff_iff, any_eq_true, any_eq_true]
  constructor
  · rintro ⟨i, hi, hrun⟩
    refine ⟨units.drop i, (mem_tails _ _).mpr (drop_suffix i units), ?_⟩
    rw [afterLead, if_pos (of_mem_matchIndices hi).2]
    rwa [← drop_drop] at hrun
  · rintro ⟨rest, hrest, hrun⟩
    rw [suffix_iff_eq_drop.mp ((mem_tails _ _).mp hrest), afterLead] at hrun
    split_ifs at hrun with hpre
    · simp only [drop_drop, decide_eq_true_eq] at hrun
      have hne : lead.toList ≠ [] := fun h => hne (String.toList_eq_nil_iff.mp h)
      simpa [String.length_toList] using
        exists_matchIndices hne hlead (Nat.zero_le _) hpre (by rwa [String.length_toList])

/-! ### A secret in its context -/

theorem tails_any_context {f : String → Bool} (hf : ∀ s, f s = s.toList.tails.any test)
    (hmono : ∀ t q, test t = true → test (t ++ q) = true) {s : String} (h : f s = true)
    (p q : String) : f (p ++ s ++ q) = true := by
  rw [hf, any_eq_true] at h ⊢
  obtain ⟨t, ht, htest⟩ := h
  obtain ⟨a, ha⟩ := (mem_tails _ _).mp ht
  refine ⟨t ++ q.toList, (mem_tails _ _).mpr ⟨p.toList ++ a, ?_⟩, hmono t q.toList htest⟩
  simp [← ha]

theorem dropWhile_append_of_cons {c : Char} {t rest : List Char}
    (h : t.dropWhile accepts = c :: rest) (q : List Char) :
    (t ++ q).dropWhile accepts = c :: (rest ++ q) := by
  rw [dropWhile_append, h]
  rfl

theorem length_takeWhile_le (accepts : Char → Bool) (t q : List Char) :
    (t.takeWhile accepts).length ≤ ((t ++ q).takeWhile accepts).length := by
  rw [takeWhile_append]
  split_ifs with h
  · rw [h, length_append]
    exact Nat.le_add_right _ _
  · exact le_rfl

theorem afterLead_append {lead : String} {t rest : List Char} (h : afterLead lead t = some rest)
    (q : List Char) : afterLead lead (t ++ q) = some (rest ++ q) := by
  unfold afterLead at h ⊢
  split_ifs at h with hlead
  obtain ⟨rest', rfl⟩ := isPrefixOf_iff_prefix.mp hlead
  obtain rfl := Option.some.inj h
  rw [if_pos <| isPrefixOf_iff_prefix.mpr ⟨rest' ++ q, by simp⟩,
    ← drop_append_of_le_length (by simp [← String.length_toList])]

theorem skipQuote_append {t : List Char} (h : t ≠ []) (q : List Char) :
    skipQuote (t ++ q) = skipQuote t ++ q := by
  obtain ⟨c, rest, rfl⟩ := exists_cons_of_ne_nil h
  by_cases hc : c = '\'' ∨ c = '"'
  · rcases hc with rfl | rfl <;> rfl
  · rw [not_or] at hc
    simp [skipQuote, hc]

theorem containsText_context {s needle : String} (h : Core.containsText s needle = true)
    (p q : String) : Core.containsText (p ++ s ++ q) needle = true := by
  refine tails_any_context (fun _ => rfl) (fun t q h => ?_) h p q
  rw [ isPrefixOf_iff_prefix] at h ⊢
  exact h.trans (prefix_append t q)

theorem containsPrefixedRun_context {s lead : String} {minimum : ℕ}
    (h : containsPrefixedRun s lead minimum accepts = true) (p q : String) :
    containsPrefixedRun (p ++ s ++ q) lead minimum accepts = true := by
  refine tails_any_context (f := (containsPrefixedRun · lead minimum accepts)) (fun _ => rfl)
    (fun t q h => ?_) h p q
  split at h
  · cases h
  · rename_i rest hlead
    rw [afterLead_append hlead]
    rw [decide_eq_true_eq] at h ⊢
    exact h.trans (length_takeWhile_le accepts rest q)

theorem containsJwt_context {s : String} (h : containsJwt s = true) (p q : String) :
    containsJwt (p ++ s ++ q) = true := by
  refine tails_any_context (fun _ => rfl) (fun t q h => ?_) h p q
  split at h
  · cases h
  rename_i header hlead
  split at h
  · rename_i payload hfirst
    split at h
    · rename_i signature hsecond
      obtain ⟨hrun, hhead⟩ := Bool.and_eq_true_iff.mp h
      have hfirst' : afterRun (header ++ q) = '.' :: (payload ++ q) :=
        dropWhile_append_of_cons hfirst q
      have hsecond' : afterRun (payload ++ q) = '.' :: (signature ++ q) :=
        dropWhile_append_of_cons hsecond q
      rw [hsecond, length_cons, decide_eq_true_eq] at hrun
      rcases signature with _ | ⟨c, signature⟩
      · cases hhead
      · simp only [afterLead_append hlead, hfirst', hsecond', Bool.and_eq_true, decide_eq_true_eq,
          length_cons, length_append] at hrun ⊢
        exact ⟨by omega, hhead⟩
    · cases h
  · cases h

theorem value_append {value : List Char}
    (h : 32 ≤ ((skipQuote (value.dropWhile isAsciiWhitespace)).takeWhile isBase64Byte).length)
    (q : List Char) : 32 ≤ ((skipQuote ((value ++ q).dropWhile isAsciiWhitespace)).takeWhile
      isBase64Byte).length := by
  rcases hvalue : value.dropWhile isAsciiWhitespace with _ | ⟨c, rest⟩
  · rw [hvalue] at h
    cases h
  · rw [dropWhile_append_of_cons hvalue, ← cons_append,
      skipQuote_append (cons_ne_nil c rest)]
    rw [hvalue] at h
    exact h.trans (length_takeWhile_le isBase64Byte _ q)

theorem containsKeyedLongSecret_context {s : String} (h : containsKeyedLongSecret s = true)
    (p q : String) : containsKeyedLongSecret (p ++ s ++ q) = true := by
  refine tails_any_context (fun _ => rfl) (fun t q h => ?_) h p q
  rw [any_eq_true] at h ⊢
  obtain ⟨key, hkey, h⟩ := h
  refine ⟨key, hkey, ?_⟩
  split_ifs at h with hcandidate
  rw [bne_iff_ne, ne_eq, not_not] at hcandidate
  have hlength := length_of_candidate hcandidate
  rw [take_append_of_le_length hlength, drop_append_of_le_length hlength, hcandidate,
    if_neg (by simp)]
  rcases hcursor : (skipQuote (t.drop key.length)).dropWhile isAsciiWhitespace with _ | ⟨c, value⟩
  · simp [hcursor] at h
  have hne : t.drop key.length ≠ [] := by
    intro hnil
    rw [hnil] at hcursor
    cases hcursor
  rw [skipQuote_append hne, dropWhile_append_of_cons hcursor]
  rw [hcursor] at h
  by_cases hc : c = ':' ∨ c = '='
  · rcases hc with rfl | rfl <;> exact decide_eq_true (value_append (of_decide_eq_true h) q)
  · rw [not_or] at hc
    simp [hc] at h

/-- **Detection in any context, within bounds.**  A text around a secret does not hide it; and the
walks stay within the text, whatever its units, and find what the scanners find. -/
theorem secret_seen_in_context :
    (∀ p s q : String, containsSecretPattern s = true →
      containsSecretPattern (p ++ s ++ q) = true) ∧
    ∀ units : List Char,
      (∀ (lead : String) (minimum : ℕ) (allowed : Char → Bool),
        (scanPrefixedRun units lead minimum allowed).isSome ∧
        (lead ≠ "" → (∀ c ∈ lead.toList, allowed c) →
          scanPrefixedRun units lead minimum allowed =
            some (containsPrefixedRun (String.ofList units) lead minimum allowed))) ∧
      scanJwt units = some (containsJwt (String.ofList units)) ∧
      scanKeyedLongSecret units = some (containsKeyedLongSecret (String.ofList units)) := by
  refine ⟨fun p s q h => ?_, fun units => ⟨fun lead minimum allowed => ⟨?_, fun hne hlead =>
    scanPrefixedRun_eq hne hlead units⟩, scanJwt_eq units, scanKeyedLongSecret_eq units⟩⟩
  · have htext (needle : String) (h : Core.containsText s needle = true) :=
      containsText_context h p q
    simp only [containsSecretPattern, Bool.or_eq_true, any_eq_true] at h ⊢
    rcases h with ((((((((h | h) | h) | h) | h) | h) | h) | ⟨lead, hlead, h⟩) | h) | h
    · simp only [htext _ h, true_or]
    · simp only [htext _ h, true_or, or_true]
    · simp only [htext _ h, true_or, or_true]
    · simp only [htext _ h, true_or, or_true]
    · simp only [htext _ h, true_or, or_true]
    · simp only [containsPrefixedRun_context h p q, true_or, or_true]
    · simp only [containsPrefixedRun_context h p q, true_or, or_true]
    · exact .inl (.inl (.inr ⟨lead, hlead, htext lead h⟩))
    · exact .inl (.inr (containsJwt_context h p q))
    · exact .inr (containsKeyedLongSecret_context h p q)
  · rw [scanPrefixedRun_spec]
    rfl

end PersonalAgent.Tools
