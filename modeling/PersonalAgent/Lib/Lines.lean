/-
# Lines and bytes of a text

`str::lines`, `str::from_utf8` and the searches in a byte buffer, as the standard library
has them.
-/

import Mathlib.Data.List.Basic
import Mathlib.Order.Nat

namespace PersonalAgent.Lib

open Option

open List

/-- `str::lines`: a line ends at a line feed, with or without a carriage return before it. -/
def lines (text : String) : List String :=
  let pieces := text.toList.splitOn '\n'
  let ended := pieces.dropLast.map fun line =>
    if line.getLast? = some '\x0d' then line.dropLast else line
  let last := pieces.getLast?.toList.filter (· ≠ [])
  (ended ++ last).map String.ofList

/-- `str::from_utf8`. -/
def fromUtf8 (bytes : List UInt8) : Option String := String.fromUTF8? ⟨bytes.toArray⟩

/-- `buffer.windows(needle.len()).position(|window| window == needle)`. -/
def positionOf (needle : List UInt8) : List UInt8 → Option ℕ
  | [] => none
  | byte :: rest =>
    if needle <+: byte :: rest then some 0 else (positionOf needle rest).map (· + 1)

variable {needle : List UInt8} {buffer : List UInt8} {k : ℕ}

/-- What is found is there. -/
theorem positionOf_spec (h : positionOf needle buffer = some k) : needle <+: buffer.drop k := by
  induction buffer generalizing k with
  | nil => cases h
  | cons byte rest ih =>
    unfold positionOf at h
    split_ifs at h with hhere
    · cases h
      exact hhere
    · obtain ⟨j, hj, rfl⟩ := map_eq_some_iff.mp h
      exact ih hj

theorem positionOf_le (h : positionOf needle buffer = some k) :
    k + needle.length ≤ buffer.length := by
  induction buffer generalizing k with
  | nil => cases h
  | cons byte rest ih =>
    unfold positionOf at h
    split_ifs at h with hhere
    · cases h
      simpa using hhere.length_le
    · obtain ⟨j, hj, rfl⟩ := map_eq_some_iff.mp h
      have := ih hj
      rw [length_cons]
      omega

/-- An occurrence stays the first one when bytes are added behind it. -/
theorem positionOf_append (h : positionOf needle buffer = some k) (more : List UInt8) :
    positionOf needle (buffer ++ more) = some k := by
  induction buffer generalizing k with
  | nil => cases h
  | cons byte rest ih =>
    unfold positionOf at h
    rw [cons_append]
    unfold positionOf
    split_ifs at h with hhere
    · cases h
      have hmore : needle <+: byte :: (rest ++ more) := hhere.trans (prefix_append _ _)
      rw [if_pos hmore]
    · obtain ⟨j, hj, rfl⟩ := map_eq_some_iff.mp h
      have hroom := positionOf_le hj
      have hnot : ¬needle <+: byte :: (rest ++ more) := by
        intro hmore
        rw [← cons_append] at hmore
        refine hhere (prefix_of_prefix_length_le hmore (prefix_append _ _) ?_)
        rw [length_cons]
        omega
      rw [if_neg hnot, ih hj]
      rfl

/-- What is found only after bytes were added ends among them. -/
theorem positionOf_new {more : List UInt8} (hneedle : 0 < needle.length)
    (h : positionOf needle buffer = none) (hmore : positionOf needle (buffer ++ more) = some k) :
    buffer.length < k + needle.length := by
  induction buffer generalizing k with
  | nil =>
    rw [length_nil]
    omega
  | cons byte rest ih =>
    unfold positionOf at h
    split_ifs at h with hhere
    rw [map_eq_none_iff] at h
    rw [cons_append] at hmore
    unfold positionOf at hmore
    split_ifs at hmore with hthere
    · cases hmore
      by_contra hle
      refine hhere ?_
      rw [← cons_append] at hthere
      exact prefix_of_prefix_length_le hthere (prefix_append _ _) (by omega)
    · obtain ⟨j, hj, rfl⟩ := map_eq_some_iff.mp hmore
      have := ih h hj
      rw [length_cons]
      omega

/-- What begins with a byte that does not occur is not found. -/
theorem positionOf_eq_none {byte : UInt8} (h : byte ∉ buffer) :
    positionOf (byte :: needle) buffer = none := by
  induction buffer with
  | nil => rfl
  | cons b buffer ih =>
    obtain ⟨hb, hbuffer⟩ := not_or.mp (mem_cons.not.mp h)
    rw [positionOf, if_neg fun hprefix => hb (cons_prefix_cons.mp hprefix).1, ih hbuffer]
    rfl

/-- It is found where it is added. -/
theorem positionOf_append_self {byte : UInt8} (h : byte ∉ buffer) :
    positionOf (byte :: needle) (buffer ++ byte :: needle) = some buffer.length := by
  induction buffer with
  | nil => exact if_pos prefix_rfl
  | cons b buffer ih =>
    obtain ⟨hb, hbuffer⟩ := not_or.mp (mem_cons.not.mp h)
    rw [cons_append, positionOf, if_neg fun hprefix => hb (cons_prefix_cons.mp hprefix).1,
      ih hbuffer]
    rfl

/-- A text without a line feed is one line. -/
theorem lines_of_notMem {chars : List Char} (hne : chars ≠ []) (h : '\n' ∉ chars) :
    lines (String.ofList chars) = [String.ofList chars] := by
  have hsplit : chars.splitOn '\n' = [chars] := by
    have hjoined := @splitOn_intercalate _ [chars] _ _ '\n' (by simpa using h) (cons_ne_nil _ _)
    rwa [intercalate_singleton] at hjoined
  simp [lines, hsplit, hne]

end PersonalAgent.Lib
