/-
# The scrollback of a terminal

`apps/desktop/src-tauri/src/pty_host.rs`.  The reader thread of a pseudo terminal
pushes what the shell prints into a `TerminalBuffer`, which keeps the newest
mebibyte of it in chunks numbered by revision.  The window polls the buffer with
the revision it saw last: it appends what it gets, or starts over when the buffer
reports a reset, which it does when a chunk the window has not seen was evicted.

Eviction removes whole chunks, so the revision of the front chunk tells a reader
that something is gone.  Output longer than the whole scrollback loses its own
front instead, and no revision tells.
-/

import PersonalAgent.Lib.Run
import PersonalAgent.Core.Usage

namespace PersonalAgent.Desktop

open Lib List Option
open PersonalAgent.Core (satAdd)

/-! ### The buffer -/

def maxScrollbackBytes : ℕ := 1024 * 1024

/-- `text.len()`: the length of the UTF-8 encoding. -/
def byteSize (text : List Char) : ℕ := (text.map Char.utf8Size).sum

/-- `text.encode_utf16().count()`. -/
def utf16Count (text : List Char) : ℕ :=
  (text.map fun c => if c.toNat < 0x10000 then 1 else 2).sum

/-- The text without its first `start` bytes, `start` moved up to the next
character boundary. -/
def drained : ℕ → List Char → List Char
  | _, [] => []
  | start, c :: rest => if start = 0 then c :: rest else drained (start - c.utf8Size) rest

structure OutputChunk where
  revision : ℕ
  text : List Char
  deriving Repr, DecidableEq

structure TerminalBuffer where
  chunks : List OutputChunk := []
  bytes : ℕ := 0
  revision : ℕ := 0
  cursor : ℕ := 0
  deriving Repr, DecidableEq

/-- The eviction loop of `push`: whole chunks leave from the front. -/
def evicted : List OutputChunk → ℕ → List OutputChunk × ℕ
  | [], bytes => ([], bytes)
  | chunk :: chunks, bytes =>
    if bytes > maxScrollbackBytes then evicted chunks (bytes - byteSize chunk.text)
    else (chunk :: chunks, bytes)

namespace TerminalBuffer

variable (buffer : TerminalBuffer)

/-- `TerminalBuffer::push`. -/
def push (text : List Char) : TerminalBuffer :=
  let cursorAdvance := min (utf16Count text) (2 ^ 64 - 1)
  let oversized := byteSize text > maxScrollbackBytes
  let kept := if oversized then drained (byteSize text - maxScrollbackBytes) text else text
  let chunks := if oversized then [] else buffer.chunks
  let bytes := if oversized then 0 else buffer.bytes
  let revision := satAdd buffer.revision 1
  let room := evicted (chunks ++ [⟨revision, kept⟩]) (satAdd bytes (byteSize kept))
  { chunks := room.1
    bytes := room.2
    revision := revision
    cursor := satAdd buffer.cursor cursorAdvance }

/-- The revision of the oldest chunk that is still there. -/
def first : ℕ :=
  (buffer.chunks.head?.map OutputChunk.revision).getD buffer.revision

/-- `TerminalBuffer::read`: the text and whether it replaces what the reader has. -/
def read (afterRevision : Option ℕ) : List Char × Bool :=
  let after := afterRevision.getD 0
  let reset := afterRevision.isNone || decide (satAdd after 1 < buffer.first)
  ((buffer.chunks.filter fun chunk => reset || decide (chunk.revision > after)).flatMap
    OutputChunk.text, reset)

/-- The retained scrollback. -/
def scrollback : List Char := buffer.chunks.flatMap OutputChunk.text

/-- What a reader of revision `after` has not been given yet. -/
def unseen (after : ℕ) : List Char :=
  (buffer.chunks.filter fun chunk => decide (chunk.revision > after)).flatMap OutputChunk.text

end TerminalBuffer

/-! ### The retained bytes -/

@[simp] theorem byteSize_nil : byteSize [] = 0 := rfl

@[simp] theorem byteSize_cons (c : Char) (text : List Char) :
    byteSize (c :: text) = c.utf8Size + byteSize text := by
  simp [byteSize]

@[simp] theorem byteSize_append (a b : List Char) :
    byteSize (a ++ b) = byteSize a + byteSize b := by
  simp [byteSize]

theorem byteSize_drained_le (start : ℕ) (text : List Char) :
    byteSize (drained start text) ≤ byteSize text - start := by
  induction text generalizing start with
  | nil => simp [drained]
  | cons c rest ih =>
    unfold drained
    split_ifs with h
    · simp [h]
    · have hrest := ih (start - c.utf8Size)
      rw [byteSize_cons]
      omega

theorem drained_suffix (start : ℕ) (text : List Char) : drained start text <:+ text := by
  induction text generalizing start with
  | nil => exact suffix_refl _
  | cons c rest ih =>
    unfold drained
    split_ifs with h
    · exact suffix_refl _
    · exact (ih _).trans (suffix_cons c rest)

/-- The lengths of the chunks, summed. -/
def chunkBytes (chunks : List OutputChunk) : ℕ :=
  (chunks.map fun chunk => byteSize chunk.text).sum

/-- The eviction loop keeps a tail of the chunks, counts what is left and does
not stop above the limit. -/
theorem evicted_spec (chunks : List OutputChunk) :
    (evicted chunks (chunkBytes chunks)).1 <:+ chunks ∧
      (evicted chunks (chunkBytes chunks)).2 = chunkBytes (evicted chunks (chunkBytes chunks)).1 ∧
      (evicted chunks (chunkBytes chunks)).2 ≤ maxScrollbackBytes := by
  induction chunks with
  | nil => exact ⟨suffix_refl _, rfl, Nat.zero_le _⟩
  | cons chunk chunks ih =>
    have hrest : chunkBytes (chunk :: chunks) - byteSize chunk.text = chunkBytes chunks := by
      simp [chunkBytes]
    unfold evicted
    split_ifs with h
    · rw [hrest]
      exact ⟨ih.1.trans (suffix_cons _ _), ih.2⟩
    · exact ⟨suffix_refl _, rfl, Nat.le_of_not_lt h⟩

/-- A lone chunk that fits is not evicted. -/
theorem evicted_single (chunk : OutputChunk) (h : byteSize chunk.text ≤ maxScrollbackBytes) :
    evicted [chunk] (byteSize chunk.text) = ([chunk], byteSize chunk.text) := by
  unfold evicted
  rw [if_neg (Nat.not_lt.2 h)]

/-- The loop stops before it evicts a newest chunk that fits. -/
theorem evicted_ne_nil (chunks : List OutputChunk) (chunk : OutputChunk)
    (h : byteSize chunk.text ≤ maxScrollbackBytes) :
    (evicted (chunks ++ [chunk]) (chunkBytes (chunks ++ [chunk]))).1 ≠ [] := by
  induction chunks with
  | nil =>
    have hsum : chunkBytes [chunk] = byteSize chunk.text := by simp [chunkBytes]
    rw [nil_append, hsum, evicted_single chunk h]
    exact cons_ne_nil _ _
  | cons old chunks ih =>
    have hrest : chunkBytes (old :: (chunks ++ [chunk])) - byteSize old.text
        = chunkBytes (chunks ++ [chunk]) := by simp [chunkBytes]
    rw [cons_append]
    unfold evicted
    split_ifs with hover
    · rwa [hrest]
    · exact cons_ne_nil _ _

namespace TerminalBuffer

/-- `bytes` counts the chunks and stays within the scrollback. -/
structure Counted (buffer : TerminalBuffer) : Prop where
  bytes : buffer.bytes = chunkBytes buffer.chunks
  bound : buffer.bytes ≤ maxScrollbackBytes

theorem counted_empty : Counted {} := ⟨rfl, Nat.zero_le _⟩

variable {buffer : TerminalBuffer} {text : List Char}

theorem push_of_fits (hb : buffer.Counted) (h : byteSize text ≤ maxScrollbackBytes) :
    (buffer.push text).Counted ∧
      (buffer.push text).chunks <:+ buffer.chunks ++ [⟨satAdd buffer.revision 1, text⟩] ∧
      (buffer.push text).chunks ≠ [] := by
  have hcount : satAdd buffer.bytes (byteSize text)
      = chunkBytes (buffer.chunks ++ [⟨satAdd buffer.revision 1, text⟩]) := by
    have hbound := hb.bound
    have hsum : chunkBytes (buffer.chunks ++ [⟨satAdd buffer.revision 1, text⟩])
        = buffer.bytes + byteSize text := by simp [chunkBytes, hb.bytes]
    rw [hsum, satAdd]
    unfold maxScrollbackBytes at h hbound
    omega
  have hspec := evicted_spec (buffer.chunks ++ [⟨satAdd buffer.revision 1, text⟩])
  have hleft := evicted_ne_nil buffer.chunks ⟨satAdd buffer.revision 1, text⟩ h
  rw [← hcount] at hspec hleft
  simp only [push, if_neg (Nat.not_lt.2 h)]
  exact ⟨⟨hspec.2.1, hspec.2.2⟩, hspec.1, hleft⟩

/-- A push of text longer than the scrollback: a tail of the text is all that stays. -/
theorem push_of_oversized (buffer : TerminalBuffer) (h : byteSize text > maxScrollbackBytes) :
    (buffer.push text).Counted ∧
      (buffer.push text).chunks
        = [⟨satAdd buffer.revision 1, drained (byteSize text - maxScrollbackBytes) text⟩] := by
  have hfits : byteSize (drained (byteSize text - maxScrollbackBytes) text)
      ≤ maxScrollbackBytes := by
    have hle := byteSize_drained_le (byteSize text - maxScrollbackBytes) text
    omega
  have hcount : satAdd 0 (byteSize (drained (byteSize text - maxScrollbackBytes) text))
      = byteSize (drained (byteSize text - maxScrollbackBytes) text) := by
    rw [satAdd]
    unfold maxScrollbackBytes at hfits ⊢
    omega
  have hlone := evicted_single
    ⟨satAdd buffer.revision 1, drained (byteSize text - maxScrollbackBytes) text⟩ hfits
  simp only [push, if_pos h, nil_append, hcount, hlone, and_true]
  exact ⟨by simp [chunkBytes], hfits⟩

theorem Counted.push (hb : buffer.Counted) (text : List Char) : (buffer.push text).Counted := by
  rcases Nat.lt_or_ge maxScrollbackBytes (byteSize text) with h | h
  · exact (push_of_oversized buffer h).1
  · exact (push_of_fits hb h).1

@[simp] theorem push_revision (buffer : TerminalBuffer) (text : List Char) :
    (buffer.push text).revision = satAdd buffer.revision 1 := rfl

/-! ### The revisions -/

/-- The chunks are numbered upwards, up to the buffer's own revision. -/
structure Numbered (buffer : TerminalBuffer) : Prop where
  increasing : buffer.chunks.Pairwise fun a b => a.revision < b.revision
  latest : ∀ chunk ∈ buffer.chunks, chunk.revision ≤ buffer.revision

/-- The revision counter has not saturated. -/
def Countable (buffer : TerminalBuffer) : Prop := buffer.revision < 2 ^ 64 - 1

instance (buffer : TerminalBuffer) : Decidable buffer.Countable :=
  inferInstanceAs (Decidable (_ < _))

theorem Countable.next (h : buffer.Countable) : satAdd buffer.revision 1 = buffer.revision + 1 := by
  unfold Countable at h
  unfold satAdd
  omega

theorem Numbered.joined (hn : buffer.Numbered) (text : List Char) :
    List.Pairwise (fun a b : OutputChunk => a.revision < b.revision)
      (buffer.chunks ++ [⟨buffer.revision + 1, text⟩]) := by
  rw [pairwise_append]
  refine ⟨hn.increasing, pairwise_singleton _ _, fun a ha b hb => ?_⟩
  rw [mem_singleton.1 hb]
  exact Nat.lt_succ_of_le (hn.latest a ha)

theorem Numbered.push (hn : buffer.Numbered) (hb : buffer.Counted) (hc : buffer.Countable)
    (text : List Char) : (buffer.push text).Numbered := by
  have hrev : (buffer.push text).revision = buffer.revision + 1 := hc.next
  rcases Nat.lt_or_ge maxScrollbackBytes (byteSize text) with h | h
  · have hchunks := (push_of_oversized buffer h).2
    refine ⟨by rw [hchunks]; exact pairwise_singleton _ _, fun chunk hmem => ?_⟩
    rw [hchunks, mem_singleton] at hmem
    rw [hmem, push_revision]
  · have htail := (push_of_fits hb h).2.1
    rw [hc.next] at htail
    refine ⟨(hn.joined text).sublist htail.sublist, fun chunk hmem => ?_⟩
    rcases mem_append.1 (htail.subset hmem) with hold | hnew
    · have := hn.latest chunk hold
      omega
    · rw [mem_singleton.1 hnew, hrev]

theorem unseen_of_suffix {front kept : List OutputChunk} {after : ℕ}
    (hp : (front ++ kept).Pairwise fun a b => a.revision < b.revision)
    (hfirst : ∃ chunk ∈ kept.head?, chunk.revision ≤ after + 1) :
    ((front ++ kept).filter fun chunk => decide (chunk.revision > after))
      = kept.filter fun chunk => decide (chunk.revision > after) := by
  obtain ⟨chunk, hhead, hle⟩ := hfirst
  have hgone : front.filter (fun chunk => decide (chunk.revision > after)) = [] := by
    refine filter_eq_nil_iff.2 fun old hold => ?_
    have hlt := (pairwise_append.1 hp).2.2 old hold chunk (mem_of_mem_head? hhead)
    simp only [decide_eq_true_eq]
    omega
  rw [filter_append, hgone, nil_append]

/-- What is kept of a numbered deque shows all that a reader has not seen, unless
the front that stays is beyond the reader's next revision. -/
theorem unseen_push_of_fits (hn : buffer.Numbered) (hb : buffer.Counted) (hc : buffer.Countable)
    (h : byteSize text ≤ maxScrollbackBytes) {after : ℕ} (hafter : after ≤ buffer.revision)
    (hfirst : (buffer.push text).first ≤ after + 1) :
    buffer.first ≤ after + 1 ∧ (buffer.push text).unseen after = buffer.unseen after ++ text := by
  obtain ⟨-, ⟨front, htail⟩, hne⟩ := push_of_fits hb h
  rw [hc.next] at htail
  obtain ⟨head, rest, hkept⟩ := exists_cons_of_ne_nil hne
  have hhead : head.revision ≤ after + 1 := by
    simpa only [first, hkept, head?_cons, map_some, getD_some] using hfirst
  have hp := hn.joined text
  rw [← htail] at hp
  refine ⟨?_, ?_⟩
  · cases hchunks : buffer.chunks with
    | nil =>
      rw [hchunks, nil_append] at htail
      have hmem : head ∈ [(⟨buffer.revision + 1, text⟩ : OutputChunk)] := by
        rw [← htail, hkept]
        simp
      have hnew : head.revision = buffer.revision + 1 := by rw [mem_singleton.1 hmem]
      simp only [first, hchunks, head?_nil, map_none, getD_none]
      omega
    | cons old chunks =>
      simp only [first, hchunks, head?_cons, map_some, getD_some]
      rw [hchunks, hkept] at htail
      cases front with
      | nil =>
        rw [nil_append, cons_append] at htail
        rw [← (List.cons.inj htail).1]
        exact hhead
      | cons gone front =>
        rw [cons_append, cons_append] at htail
        rw [← (List.cons.inj htail).1]
        have hlt := (pairwise_append.1 hp).2.2 gone (by simp) head (by rw [hkept]; simp)
        omega
  · have hfilter := unseen_of_suffix hp ⟨head, by rw [hkept]; rfl, hhead⟩
    rw [htail, filter_append] at hfilter
    have hnew : ([⟨buffer.revision + 1, text⟩] : List OutputChunk).filter
        (fun chunk => decide (chunk.revision > after)) = [⟨buffer.revision + 1, text⟩] := by
      simp only [filter_cons, filter_nil, gt_iff_lt, Nat.lt_succ_of_le hafter,
        decide_true, if_true]
    rw [hnew] at hfilter
    rw [unseen, ← hfilter, flatMap_append, unseen]
    simp

theorem scrollback_push_of_fits (hb : buffer.Counted) (h : byteSize text ≤ maxScrollbackBytes) :
    (buffer.push text).scrollback <:+ buffer.scrollback ++ text := by
  obtain ⟨-, ⟨front, htail⟩, -⟩ := push_of_fits hb h
  refine ⟨front.flatMap OutputChunk.text, ?_⟩
  rw [scrollback, ← flatMap_append, htail, flatMap_append, scrollback]
  simp

theorem scrollback_push_of_oversized (buffer : TerminalBuffer)
    (h : byteSize text > maxScrollbackBytes) :
    (buffer.push text).scrollback = drained (byteSize text - maxScrollbackBytes) text := by
  rw [scrollback, (push_of_oversized buffer h).2]
  simp

theorem scrollback_push (hb : buffer.Counted) (text : List Char) :
    (buffer.push text).scrollback <:+ buffer.scrollback ++ text := by
  rcases Nat.lt_or_ge maxScrollbackBytes (byteSize text) with h | h
  · rw [scrollback_push_of_oversized buffer h]
    exact (drained_suffix _ _).trans (suffix_append _ _)
  · exact scrollback_push_of_fits hb h

theorem unseen_revision (hn : buffer.Numbered) : buffer.unseen buffer.revision = [] := by
  have hnone : buffer.chunks.filter (fun chunk => decide (chunk.revision > buffer.revision)) = [] :=
    filter_eq_nil_iff.2 fun chunk hmem => by
      simpa only [decide_eq_true_eq, gt_iff_lt, Nat.not_lt] using hn.latest chunk hmem
  rw [unseen, hnone, flatMap_nil]

/-- `read` after a reset gives the whole scrollback. -/
theorem read_of_reset {after : Option ℕ} (h : (buffer.read after).2 = true) :
    (buffer.read after).1 = buffer.scrollback := by
  simp only [read] at h
  simp only [read, h, Bool.true_or, filter_true, scrollback]

/-- Without one it gives what the reader has not seen. -/
theorem read_of_not_reset {after : Option ℕ} (h : (buffer.read after).2 = false) :
    ∃ last, after = some last ∧ buffer.first ≤ satAdd last 1 ∧
      (buffer.read after).1 = buffer.unseen last := by
  cases after with
  | none => simp [read] at h
  | some last =>
    simp only [read, isNone_some, Bool.false_or, getD_some] at h
    refine ⟨last, rfl, Nat.le_of_not_lt (of_decide_eq_false h), ?_⟩
    simp only [read, isNone_some, Bool.false_or, getD_some, h, unseen]

end TerminalBuffer

open TerminalBuffer

/-! ### A window that polls -/

/-- What the window shows, with the revision of its last poll. -/
structure Reader where
  text : List Char := []
  revision : Option ℕ := none
  deriving Repr, DecidableEq

/-- `pty_read` and what the window does with the answer: reset replaces the text,
anything else is appended. -/
def Reader.poll (reader : Reader) (buffer : TerminalBuffer) : Reader :=
  let answer := buffer.read reader.revision
  { text := if answer.2 then answer.1 else reader.text ++ answer.1
    revision := some buffer.revision }

/-- A terminal, one of its windows and everything the shell has printed. -/
structure Session where
  buffer : TerminalBuffer := {}
  reader : Reader := {}
  output : List Char := []
  deriving Repr, DecidableEq

/-- The process writes, or the window polls. -/
inductive Event where
  | push (text : List Char)
  | poll
  deriving Repr, DecidableEq

namespace Session

def step (session : Session) : Event → Session
  | .push text =>
    { session with buffer := session.buffer.push text, output := session.output ++ text }
  | .poll => { session with reader := session.reader.poll session.buffer }

/-- The window shows an end of the output, and the scrollback is an end of what it shows. -/
structure Gapless (session : Session) : Prop where
  suffix : session.reader.text <:+ session.output
  covers : session.buffer.scrollback <:+ session.reader.text

/-- No output longer than the scrollback reaches a window that shows something and
has seen everything so far, and the revision counter is not exhausted. -/
def Fits (session : Session) : Event → Prop
  | .push text =>
    session.buffer.Countable ∧
      (byteSize text ≤ maxScrollbackBytes ∨ session.reader.text = [] ∨
        session.reader.revision ≠ some session.buffer.revision)
  | .poll => True

instance (session : Session) : (event : Event) → Decidable (session.Fits event)
  | .push _ => inferInstanceAs (Decidable (_ ∧ _))
  | .poll => inferInstanceAs (Decidable True)

/-- The next poll will leave the window without a gap. -/
structure Sound (session : Session) : Prop where
  counted : session.buffer.Counted
  numbered : session.buffer.Numbered
  retained : session.buffer.scrollback <:+ session.output
  seen : ∀ last, session.reader.revision = some last → last ≤ session.buffer.revision
  next : ∀ last, session.reader.revision = some last → session.buffer.first ≤ last + 1 →
    session.reader.text ++ session.buffer.unseen last <:+ session.output ∧
      session.buffer.scrollback <:+ session.reader.text ++ session.buffer.unseen last

theorem sound_empty : Sound {} where
  counted := counted_empty
  numbered := ⟨List.Pairwise.nil, by simp⟩
  retained := suffix_refl _
  seen := by simp
  next := by simp

variable {session : Session} {text : List Char}

/-- An oversized push resets a window that has missed something, and starts the
text of one that shows nothing. -/
theorem Sound.next_oversized (hs : session.Sound) {last : ℕ} (hc : session.buffer.Countable)
    (hlast : session.reader.revision = some last) (h : byteSize text > maxScrollbackBytes)
    (hfirst : (session.step (.push text)).buffer.first ≤ last + 1)
    (hfit : session.reader.text = [] ∨ session.reader.revision ≠ some session.buffer.revision) :
    (session.step (.push text)).reader.text ++ (session.step (.push text)).buffer.unseen last
        <:+ (session.step (.push text)).output ∧
      (session.step (.push text)).buffer.scrollback
        <:+ (session.step (.push text)).reader.text
          ++ (session.step (.push text)).buffer.unseen last := by
  have hchunks := (push_of_oversized session.buffer h).2
  have hle := hs.seen last hlast
  rw [hc.next] at hchunks
  have hstart : session.buffer.revision ≤ last := by
    simp only [Session.step, first, hchunks, head?_cons, map_some,
      getD_some] at hfirst
    omega
  have hempty : session.reader.text = [] := by
    refine hfit.resolve_right fun hne => hne ?_
    rw [hlast, Nat.le_antisymm hle hstart]
  have hunseen : (session.buffer.push text).unseen last
      = drained (byteSize text - maxScrollbackBytes) text := by
    simp [unseen, hchunks, Nat.lt_succ_of_le hle]
  simp only [Session.step, hempty, nil_append, hunseen,
    scrollback_push_of_oversized session.buffer h]
  exact ⟨(drained_suffix _ _).trans (suffix_append _ _), suffix_refl _⟩

theorem Sound.push (hs : session.Sound) (hok : session.Fits (.push text)) :
    (session.step (.push text)).Sound := by
  obtain ⟨hc, hfit⟩ := hok
  have hrev : (session.buffer.push text).revision = session.buffer.revision + 1 := hc.next
  refine ⟨hs.counted.push text, hs.numbered.push hs.counted hc text, ?_, ?_, ?_⟩
  · exact (scrollback_push hs.counted text).trans
      (suffix_append_self_iff.2 hs.retained)
  · intro last hlast
    have := hs.seen last hlast
    simp only [step, hrev]
    omega
  · intro last hlast hfirst
    have hle := hs.seen last hlast
    rcases Nat.lt_or_ge maxScrollbackBytes (byteSize text) with h | h
    · exact hs.next_oversized hc hlast h hfirst
        (hfit.resolve_left (Nat.not_le.2 h))
    · obtain ⟨hold, hunseen⟩ := unseen_push_of_fits hs.numbered hs.counted hc h hle
        hfirst
      obtain ⟨hsuffix, hcovers⟩ := hs.next last hlast hold
      simp only [step, hunseen, ← append_assoc]
      exact ⟨suffix_append_self_iff.2 hsuffix,
        (scrollback_push_of_fits hs.counted h).trans
          (suffix_append_self_iff.2 hcovers)⟩

theorem Sound.poll (hs : session.Sound) :
    (session.step .poll).Sound ∧ (session.step .poll).Gapless := by
  have hgap : (session.step .poll).Gapless := by
    cases hreset : (session.buffer.read session.reader.revision).2 with
    | true =>
      have hread := read_of_reset hreset
      have htext : (session.reader.poll session.buffer).text = session.buffer.scrollback := by
        simp only [Reader.poll, hreset, if_true, hread]
      refine ⟨?_, ?_⟩
      · simp only [step, htext]
        exact hs.retained
      · simp only [step, htext]
        exact suffix_refl _
    | false =>
      obtain ⟨last, hlast, hfirst, hread⟩ := read_of_not_reset hreset
      have hnext : session.buffer.first ≤ last + 1 :=
        hfirst.trans (Nat.min_le_left _ _)
      have htext : (session.reader.poll session.buffer).text
          = session.reader.text ++ session.buffer.unseen last := by
        simp only [Reader.poll, hreset, Bool.false_eq_true, if_false, hread]
      obtain ⟨hsuffix, hcovers⟩ := hs.next last hlast hnext
      refine ⟨?_, ?_⟩
      · simp only [step, htext]
        exact hsuffix
      · simp only [step, htext]
        exact hcovers
  refine ⟨⟨hs.counted, hs.numbered, hs.retained, ?_, ?_⟩, hgap⟩
  · intro last hlast
    cases hlast
    exact Nat.le_refl _
  · intro last hlast _
    cases hlast
    simp only [step, unseen_revision hs.numbered, append_nil]
    exact ⟨hgap.suffix, hgap.covers⟩

theorem Sound.step (hs : session.Sound) {event : Event} (hok : session.Fits event) :
    (session.step event).Sound := by
  cases event with
  | push text => exact hs.push hok
  | poll => exact hs.poll.1

/-- The bytes are counted whatever is pushed. -/
theorem counted_run (events : List Event) : (run step {} events).buffer.Counted := by
  refine run_invariant (fun session : Session => session.buffer.Counted)
    (fun session event hb => ?_) events counted_empty
  cases event with
  | push text => exact hb.push text
  | poll => exact hb

/-- **A window shows an end of the output without a gap.**  The retained bytes are
the sum of the chunk lengths and at most one mebibyte after any events at all.
After each poll of a run in which no output longer than the scrollback reaches a
window that shows something and is up to date, what the window shows is a suffix
of the complete output, and the scrollback is a suffix of what it shows. -/
theorem polled_gapless (events : List Event) :
    ((run step {} events).buffer.bytes = chunkBytes (run step {} events).buffer.chunks ∧
      (run step {} events).buffer.bytes ≤ maxScrollbackBytes) ∧
    (Along step Fits {} (events ++ [.poll]) →
      (run step {} (events ++ [.poll])).reader.text <:+ (run step {} (events ++ [.poll])).output ∧
        (run step {} (events ++ [.poll])).buffer.scrollback
          <:+ (run step {} (events ++ [.poll])).reader.text) := by
  refine ⟨⟨(counted_run events).bytes, (counted_run events).bound⟩, fun hok => ?_⟩
  have hsound : (run step {} events).Sound :=
    ((along_append _ _ _).1 hok).1.invariant Sound (fun _ _ hfit hs => hs.step hfit) sound_empty
  rw [run_append]
  exact ⟨hsound.poll.2.suffix, hsound.poll.2.covers⟩

/-- The window polls between two prints and after them, and misses nothing. -/
theorem polled_gapless_two_prints :
    Along step Fits {} ([.poll, .push ['a', 'b'], .poll, .push ['c']] ++ [.poll]) ∧
      (run step {} ([.poll, .push ['a', 'b'], .poll, .push ['c']] ++ [.poll])).reader.text
        <:+ ['a', 'b', 'c'] :=
  have hok : Along step Fits {} ([.poll, .push ['a', 'b'], .poll, .push ['c']] ++ [.poll]) := by
    decide +kernel
  ⟨hok, ((polled_gapless _).2 hok).1⟩

/-- A window that is up to date appends the end of an oversized push. -/
theorem poll_after_oversized (hc : session.buffer.Countable)
    (hseen : session.reader.revision = some session.buffer.revision)
    (h : byteSize text > maxScrollbackBytes) :
    ((session.step (.push text)).step .poll).reader.text
      = session.reader.text ++ drained (byteSize text - maxScrollbackBytes) text := by
  have hchunks := (push_of_oversized session.buffer h).2
  rw [hc.next] at hchunks
  simp [step, Reader.poll, TerminalBuffer.read, TerminalBuffer.first, hchunks, hseen, hc.next]

theorem byteSize_replicate_x (n : ℕ) : byteSize (List.replicate n 'x') = n := by
  have hx : Char.utf8Size 'x' = 1 := rfl
  simp [byteSize, hx]

theorem drained_replicate_x (n : ℕ) :
    drained 1 (List.replicate (n + 1) 'x') = List.replicate n 'x' := by
  have hx : Char.utf8Size 'x' = 1 := rfl
  cases n with
  | zero => rfl
  | succ n => simp [replicate_succ, drained, hx]

/-- `old` before the end of a run of `x` is not the end of `old` and a longer run. -/
theorem not_suffix_old (n : ℕ) :
    ¬ ['o', 'l', 'd'] ++ List.replicate n 'x'
      <:+ ['o', 'l', 'd'] ++ List.replicate (n + 1) 'x' := by
  rintro ⟨front, h⟩
  have hlength : front.length = 1 := by
    have := congrArg List.length h
    simp at this
    omega
  obtain ⟨c, rfl⟩ := length_eq_one_iff.1 hlength
  simp at h

/-- **A flood leaves a gap.**  The window shows `old` and is up to date when more
than a mebibyte is printed at once: the next poll is no reset, and the window
appends the end of the flood to `old`, without the character that was cut. -/
theorem flood_leaves_gap :
    ¬ (run step {} [.push ['o', 'l', 'd'], .poll,
        .push (List.replicate (maxScrollbackBytes + 1) 'x'), .poll]).reader.text
      <:+ (run step {} [.push ['o', 'l', 'd'], .poll,
        .push (List.replicate (maxScrollbackBytes + 1) 'x'), .poll]).output := by
  have hsize := byteSize_replicate_x (maxScrollbackBytes + 1)
  have hover : byteSize (List.replicate (maxScrollbackBytes + 1) 'x') > maxScrollbackBytes := by
    rw [hsize]
    exact Nat.lt_succ_self _
  have hfloods : [Event.push ['o', 'l', 'd'], .poll,
        .push (List.replicate (maxScrollbackBytes + 1) 'x'), .poll]
      = [.push ['o', 'l', 'd'], .poll]
        ++ [.push (List.replicate (maxScrollbackBytes + 1) 'x'), .poll] := rfl
  have hbefore : (run step {} [.push ['o', 'l', 'd'], .poll]).buffer.Countable ∧
      (run step {} [.push ['o', 'l', 'd'], .poll]).reader = ⟨['o', 'l', 'd'], some 1⟩ ∧
      (run step {} [.push ['o', 'l', 'd'], .poll]).buffer.revision = 1 ∧
      (run step {} [.push ['o', 'l', 'd'], .poll]).output = ['o', 'l', 'd'] := by
    decide +kernel
  obtain ⟨hc, hreader, hrevision, houtput⟩ := hbefore
  rw [hfloods, run_append]
  generalize run step {} [.push ['o', 'l', 'd'], .poll] = session at hc hreader hrevision houtput ⊢
  have hseen : session.reader.revision = some session.buffer.revision := by
    rw [hreader, hrevision]
  rw [run_cons, run_cons, run_nil, poll_after_oversized hc hseen hover, hsize,
    Nat.add_sub_cancel_left, drained_replicate_x, hreader]
  have hall : ((session.step (.push (List.replicate (maxScrollbackBytes + 1) 'x'))).step
      .poll).output = ['o', 'l', 'd'] ++ List.replicate (maxScrollbackBytes + 1) 'x' := by
    rw [← houtput]
    rfl
  rw [hall]
  exact not_suffix_old _

end Session

end PersonalAgent.Desktop
