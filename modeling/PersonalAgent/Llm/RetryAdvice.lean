/-
# Where the advice to wait comes from

`status_error` writes the seconds of the `retry-after` header behind the message, and
`retry_after` reads them off its end: a hint is the last marker of a text with a number behind
it (`Hint`).  With a header the hint of the message is the header's, whatever the body says.
Without one, the body of the provider is all there is to search, and a body that holds a hint
sets the delay (`body_sets_delay`).
-/

import PersonalAgent.Llm.Driver

namespace PersonalAgent.Llm

open Option

open List

/-- The text before the seconds. -/
def adviceMarker : String := "[retry-after: "

/-- The last marker of the text has a number behind it, up to an `s` or to the end. -/
def Hint (text : String) (seconds : ℕ) : Prop :=
  ∃ before tail : List Char, text.toList = before ++ adviceMarker.toList ++ tail ∧
    ¬adviceMarker.toList <:+: tail ∧
    Automation.parseU64 (String.ofList (tail.takeWhile (· ≠ 's'))) = some seconds

/-- The seconds in the header of a response. -/
def Response.advice (response : Response) : Option ℕ :=
  response.retryAfter.bind fun value => Automation.parseU64 (Core.trim value)

/-! ### The last marker -/

section

variable {c : Char} {marker text tail : List Char}

def lastMarked (marker text : List Char) : Option (List Char) :=
  (text.tails.filter (marker.isPrefixOf ·)).getLast?

theorem lastMarked_cons : lastMarked marker (c :: text) =
    (lastMarked marker text).or (if marker <+: c :: text then some (c :: text) else none) := by
  unfold lastMarked
  rw [tails_cons, filter_cons]
  by_cases h : marker <+: c :: text
  · rw [if_pos <| isPrefixOf_iff_prefix.mpr h, if_pos h, getLast?_cons]
    cases (text.tails.filter (marker.isPrefixOf ·)).getLast? <;> rfl
  · rw [if_neg (mt isPrefixOf_iff_prefix.mp h), if_neg h, or_none]

theorem lastMarked_eq_none_iff : lastMarked marker text = none ↔ ¬marker <:+: text := by
  unfold lastMarked
  rw [getLast?_eq_none_iff, filter_eq_nil_iff, infix_iff_prefix_suffix]
  simp only [mem_tails, isPrefixOf_iff_prefix, not_exists, not_and]
  exact forall_congr' fun rest => ⟨fun h hpre hsuf => h hsuf hpre, fun h hsuf hpre => h hpre hsuf⟩

/-- Where the first letter of a marker is in it once, none begins inside another. -/
theorem lastMarked_eq_some_iff (hc : c ∉ marker) :
    lastMarked (c :: marker) text = some (c :: marker ++ tail) ↔
      (∃ before, text = before ++ c :: marker ++ tail) ∧ ¬c :: marker <:+: tail := by
  induction text with
  | nil =>
    refine ⟨fun h => ?_, fun ⟨⟨before, h⟩, _⟩ => ?_⟩
    · cases h
    · simp at h
  | cons d text ih =>
    have hinside (h : d :: text = c :: marker ++ tail) (hin : c :: marker <:+: text) :
        c :: marker <:+: tail := by
      obtain ⟨-, rfl⟩ := List.cons.inj h
      exact Lib.infix_of_infix_append hc hin
    have hsplit : (∃ before, d :: text = before ++ c :: marker ++ tail) ↔
        d :: text = c :: marker ++ tail ∨ ∃ before, text = before ++ c :: marker ++ tail := by
      constructor
      · rintro ⟨_ | ⟨b, before⟩, h⟩
        · exact .inl h
        · exact .inr ⟨before, (List.cons.inj h).2⟩
      · rintro (h | ⟨before, h⟩)
        · exact ⟨[], h⟩
        · exact ⟨d :: before, by rw [h]; rfl⟩
    rw [lastMarked_cons, hsplit]
    cases hlast : lastMarked (c :: marker) text with
    | none =>
      have hnone := lastMarked_eq_none_iff.mp hlast
      rw [none_or]
      constructor
      · intro h
        split_ifs at h with hpre
        have htext := Option.some.inj h
        refine ⟨.inl htext, fun htail => hnone ?_⟩
        obtain ⟨-, rfl⟩ := List.cons.inj htext
        exact htail.trans (suffix_append _ _).isInfix
      · rintro ⟨htext | ⟨before, rfl⟩, -⟩
        · rw [if_pos ⟨tail, htext.symm⟩, htext]
        · exact absurd ⟨before, tail, rfl⟩ hnone
    | some rest =>
      have hinfix : c :: marker <:+: text := by
        by_contra hnone
        rw [lastMarked_eq_none_iff.mpr hnone] at hlast
        cases hlast
      rw [hlast] at ih
      rw [some_or, ih]
      refine and_congr_left fun hnot => ⟨.inr, fun h => h.resolve_left fun h => ?_⟩
      exact hnot (hinside h hinfix)

end

/-- **What `retry_after` reads.** -/
theorem retryAfter_eq_some_iff {code : ℕ} {message : String} {delay : Duration} :
    retryAfter (.status code message) = some delay ↔
      ∃ seconds, Hint message seconds ∧ delay = Duration.ofSecs seconds := by
  obtain ⟨marker, hmarker, hc⟩ : ∃ marker, adviceMarker.toList = '[' :: marker ∧ '[' ∉ marker :=
    ⟨_, rfl, by decide⟩
  have hlast : afterLast "[retry-after: " message =
      (lastMarked ('[' :: marker) message.toList).map (·.drop ('[' :: marker).length) := by
    rw [← hmarker]
    rfl
  unfold Hint
  simp only [retryAfter, hlast, hmarker, bind_eq_bind, bind_eq_some_iff,
    map_eq_some_iff]
  constructor
  · rintro ⟨-, ⟨rest, hrest, rfl⟩, seconds, hseconds, hdelay⟩
    have hmem := mem_filter.mp (mem_of_getLast? hrest)
    obtain ⟨tail, rfl⟩ := isPrefixOf_iff_prefix.mp hmem.2
    obtain ⟨⟨before, hbefore⟩, hnot⟩ := (lastMarked_eq_some_iff hc).mp hrest
    rw [drop_left] at hseconds
    exact ⟨seconds, ⟨before, tail, hbefore, hnot, hseconds⟩, (Option.some.inj hdelay).symm⟩
  · rintro ⟨seconds, ⟨before, tail, hbefore, hnot, hseconds⟩, rfl⟩
    refine ⟨tail, ⟨_, (lastMarked_eq_some_iff hc).mpr ⟨⟨before, hbefore⟩, hnot⟩, drop_left⟩,
      ?_⟩
    exact ⟨seconds, hseconds, rfl⟩

/-! ### The header -/

theorem isDigit_of_mem_repr {n : ℕ} {c : Char} (h : c ∈ (Nat.repr n).toList) :
    c.isDigit = true :=
  Nat.isDigit_of_mem_toDigits (by decide) (by decide) (Nat.toList_repr ▸ h)

theorem parseU64_repr {n : ℕ} (h : n < 2 ^ 64) : Automation.parseU64 (Nat.repr n) = some n := by
  have hvalue : (Nat.repr n).toList.foldl (fun n c => 10 * n + (c.toNat - '0'.toNat)) 0 = n := by
    rw [Nat.toList_repr, ← Nat.ofDigitChars_eq_foldl, Nat.ofDigitChars_ten_toDigits]
  have hdigits := all_eq_true.mpr fun c => isDigit_of_mem_repr (n := n) (c := c)
  have hne : (Nat.repr n).toList ≠ [] := mt String.toList_eq_nil_iff.mp Nat.repr_ne_empty
  unfold Automation.parseU64
  generalize (Nat.repr n).toList = chars at hvalue hdigits hne ⊢
  dsimp only
  split
  · cases hdigits
  · rw [if_neg (by simpa [hne] using hdigits), hvalue, if_pos h]

theorem parseU64_lt {s : String} {n : ℕ} (h : Automation.parseU64 s = some n) : n < 2 ^ 64 := by
  unfold Automation.parseU64 at h
  dsimp only at h
  split_ifs at h with hempty hlt
  exact Option.some.inj h ▸ hlt

theorem hint_advised (message : String) {seconds : ℕ} (h : seconds < 2 ^ 64) :
    Hint (message ++ " [retry-after: " ++ Nat.repr seconds ++ "s]") seconds := by
  refine ⟨message.toList ++ [' '], (Nat.repr seconds).toList ++ ['s', ']'], ?_, ?_, ?_⟩
  · have hblank : " [retry-after: ".toList = ' ' :: adviceMarker.toList := rfl
    simp only [String.toList_append, hblank, append_assoc, cons_append, nil_append]
    rfl
  · intro hinfix
    have hmem := hinfix.subset (show '[' ∈ adviceMarker.toList by decide)
    rcases mem_append.mp hmem with hmem | hmem
    · exact absurd (isDigit_of_mem_repr hmem) (by decide)
    · exact absurd hmem (by decide)
  · have hrepr : ((Nat.repr seconds).toList ++ ['s', ']']).takeWhile (· ≠ 's') =
        (Nat.repr seconds).toList := by
      have hne (c : Char) (hc : c ∈ (Nat.repr seconds).toList) : decide (c ≠ 's') = true := by
        refine decide_eq_true ?_
        rintro rfl
        exact absurd (isDigit_of_mem_repr hc) (by decide)
      rw [takeWhile_append_of_pos hne]
      simp
    rw [hrepr, String.ofList_toList]
    exact parseU64_repr h

/-- **The hint is the header's**, and the text of the provider does not matter, exactly if the
header has one or the text has none; and no delay is above the bound of the policy. -/
theorem retry_advice_iff (t : TurnDriver) (response : Response) :
    (retryAfter (t.statusError response) = response.advice.map Duration.ofSecs ↔
      response.advice.isSome ∨ ∀ seconds, ¬Hint (t.clean response.body) seconds) ∧
    ∀ (p : RetryPolicy) (attempt : ℕ),
      p.delayAfter attempt (retryAfter (t.statusError response)) ≤ p.maxBackoff := by
  constructor
  · cases hadvice : response.advice with
    | some seconds =>
      obtain ⟨value, -, hvalue⟩ := bind_eq_some_iff.mp hadvice
      have herror : t.statusError response = .status response.status
          (t.clean response.body ++ " [retry-after: " ++ Nat.repr seconds ++ "s]") := by
        unfold Response.advice at hadvice
        rw [TurnDriver.statusError, hadvice]
      rw [herror]
      exact iff_of_true (retryAfter_eq_some_iff.mpr
        ⟨seconds, hint_advised _ (parseU64_lt hvalue), rfl⟩) (.inl rfl)
    | none =>
      have herror : t.statusError response =
          .status response.status (t.clean response.body) := by
        unfold Response.advice at hadvice
        rw [TurnDriver.statusError, hadvice]
      rw [herror, map_none, eq_none_iff_forall_ne_some]
      simp only [ne_eq, retryAfter_eq_some_iff, isSome_none, Bool.false_eq_true, false_or]
      exact ⟨fun h seconds hhint => h _ ⟨seconds, hhint, rfl⟩,
        fun h delay ⟨seconds, hhint, _⟩ => h seconds hhint⟩
  · intro p attempt
    have hbackoff : p.backoff attempt ≤ p.maxBackoff := min_le_right _ _
    unfold RetryPolicy.delayAfter
    split
    · split_ifs
      · exact min_le_right _ _
      · exact hbackoff
    · exact hbackoff

/-- **The body sets the delay.**  Without a header, a body with a hint of seven seconds makes the
driver wait for seven seconds, not for the quarter of a second of the policy. -/
theorem body_sets_delay :
    let t : TurnDriver := { provider := "p", kind := .anthropic, model := "m" }
    let response : Response := { status := 429, body := "slow down [retry-after: 7s]" }
    response.advice = none ∧
      t.retry.delayAfter 1 (retryAfter (t.statusError response)) = Duration.ofSecs 7 ∧
      t.retry.delayAfter 1 none = 250 * 10 ^ 6 := by
  decide +kernel

end PersonalAgent.Llm
