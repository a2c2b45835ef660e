/-
# Events of a stream and the chunks it arrives in

What `forward_sse_events` sends, for every way in which the bytes of the stream are cut.
The last event, and no other, closes: it ends the turn, or it says that the stream broke or
is over.

The limit of 1 MiB is on the buffer and is tested before the frames are taken off it.  So a
chunk that brings several short frames can exceed it, and then the stream is given up that
would have been read to its end in smaller chunks.
-/

import PersonalAgent.Runtime.EventStream

namespace PersonalAgent.Runtime

open Lib List

/-- The event after which nothing is sent. -/
def Closing (event : EventEnvelope) : Prop := event.type ∈ turnEnds ++ streamEnds

section

variable [SerdeJson] {stamps : ℕ → Stamp} {sessionId : String}

/-- The event of a frame of the session. -/
def OfSession (sessionId : String) (frame : List UInt8) (event : EventEnvelope) : Prop :=
  ∃ upstream stamp sequence known, parseSseFrame frame = .ok (some upstream) ∧
    upstreamSessionId upstream = some sessionId ∧
    event = (normalizeUpstreamEvent stamp sequence sessionId upstream known).1

/-- The event for a frame that cannot be read. -/
def invalidEvent (stamps : ℕ → Stamp) (sessionId : String) (sequence : ℕ) : EventEnvelope :=
  streamEvent stamps sessionId sequence "runtime.stream_error"
    (.object [("reason", .ofStr "invalid event frame")])

/-- **What a frame can do**: nothing, one event that does not close, or one that does. -/
theorem forwardFrame_cases (stamps : ℕ → Stamp) (sessionId : String) (st : Forwarder)
    (frame : List UInt8) :
    forwardFrame stamps sessionId st frame = ([], some st) ∨
    (∃ event partTypes, OfSession sessionId frame event ∧ ¬Closing event ∧
      event.monotonicSequence = st.sequence ∧
      forwardFrame stamps sessionId st frame = ([event], some ⟨partTypes, st.sequence + 1⟩)) ∨
    ∃ event, (OfSession sessionId frame event ∧ event.type ∈ turnEnds ∨
        event = invalidEvent stamps sessionId st.sequence) ∧
      event.monotonicSequence = st.sequence ∧
      forwardFrame stamps sessionId st frame = ([event], none) := by
  unfold forwardFrame
  rcases hparse : parseSseFrame frame with _ | _ | upstream
  · exact .inr (.inr ⟨_, .inr rfl, rfl, rfl⟩)
  · exact .inl rfl
  · dsimp only
    by_cases hsession : upstreamSessionId upstream = some sessionId
    · rw [if_neg (not_not.mpr hsession)]
      set known := knownPartType (learnPartType st.partTypes upstream) upstream
      have hsent : OfSession sessionId frame (normalizeUpstreamEvent (stamps st.sequence)
          st.sequence sessionId upstream known).1 :=
        ⟨upstream, _, _, _, hparse, hsession, rfl⟩
      have htells := tells_normalizeKind upstream known
      rcases hterminal : (normalizeKind upstream known).terminal with _ | _
      · refine .inr (.inl ⟨_, learnPartType st.partTypes upstream, hsent, ?_, rfl, ?_⟩)
        · intro hclosing
          rw [hterminal] at htells
          have htype : (normalizeKind upstream known).eventType ∈ turnEnds ++ streamEnds := hclosing
          simp [tells] at htells
          rcases mem_append.mp htype with h | h
          · exact htells.1 h
          · exact htells.2 h
        · exact congrArg _ (if_neg (by simpa [normalizeUpstreamEvent] using hterminal))
      · refine .inr (.inr ⟨_, .inl ⟨hsent, ?_⟩, rfl, ?_⟩)
        · rw [hterminal] at htells
          simp [tells] at htells
          exact htells.1
        · exact congrArg _ (if_pos hterminal)
    · rw [if_pos hsession]
      exact .inl rfl

/-- Events numbered from `sequence` on, all sent for the session or about its stream. -/
structure Numbered (sessionId : String) (frames : List (List UInt8)) (sequence : ℕ)
    (events : List EventEnvelope) : Prop where
  number : ∀ i event, events[i]? = some event → event.monotonicSequence = sequence + i
  session : ∀ event ∈ events, event.sessionId = some sessionId ∧
    (event.type ∈ streamEnds ∨ ∃ frame ∈ frames, OfSession sessionId frame event)

variable {frames : List (List UInt8)} {sequence : ℕ} {events : List EventEnvelope} {ending : Ending}
  {st : Forwarder}

theorem numbered_nil : Numbered sessionId frames sequence [] :=
  ⟨nofun, nofun⟩

theorem Numbered.cons {event : EventEnvelope} (hnumber : event.monotonicSequence = sequence)
    (hsession : event.sessionId = some sessionId ∧
      (event.type ∈ streamEnds ∨ ∃ frame ∈ frames, OfSession sessionId frame event))
    (h : Numbered sessionId frames (sequence + 1) events) :
    Numbered sessionId frames sequence (event :: events) := by
  refine ⟨fun i e hi => ?_, fun e he => ?_⟩
  · cases i with
    | zero =>
      cases hi
      exact hnumber
    | succ i =>
      rw [h.number i e hi]
      omega
  · rcases mem_cons.mp he with rfl | he
    · exact hsession
    · exact h.session e he

theorem Numbered.mono {more : List (List UInt8)} (h : Numbered sessionId frames sequence events)
    (hsub : frames ⊆ more) : Numbered sessionId more sequence events := by
  refine ⟨h.number, fun event he => ⟨(h.session event he).1, (h.session event he).2.imp_right ?_⟩⟩
  rintro ⟨frame, hframe, hsent⟩
  exact ⟨frame, hsub hframe, hsent⟩

theorem OfSession.sessionId_eq {frame : List UInt8} {event : EventEnvelope}
    (h : OfSession sessionId frame event) : event.sessionId = some sessionId := by
  obtain ⟨upstream, stamp, sequence, known, -, hsession, rfl⟩ := h
  rw [normalizeUpstreamEvent_eq hsession]
  rfl

/-- The events with which the loop over the frames closes. -/
def ClosesFrames (stamps : ℕ → Stamp) (sessionId : String) (event : EventEnvelope) : Prop :=
  event.type ∈ turnEnds ∨ ∃ sequence, event = invalidEvent stamps sessionId sequence

/-- **The loop over the frames.**  Until it closes, its events are numbered and none closes; when
it closes, the last one does. -/
theorem forward_run (stamps : ℕ → Stamp) (sessionId : String) (st : Forwarder)
    (frames : List (List UInt8)) :
    match (forwardFrame stamps sessionId).run st frames with
    | (events, none) => Numbered sessionId frames st.sequence events ∧
        ∃ before last, events = before ++ [last] ∧ ClosesFrames stamps sessionId last ∧
          ∀ event ∈ before, ¬Closing event
    | (events, some st') => Numbered sessionId frames st.sequence events ∧
        st'.sequence = st.sequence + events.length ∧ ∀ event ∈ events, ¬Closing event := by
  induction frames generalizing st with
  | nil => exact ⟨numbered_nil, rfl, nofun⟩
  | cons frame frames ih =>
    rcases forwardFrame_cases stamps sessionId st frame with
      hstep | ⟨event, partTypes, hsent, hopen, hnumber, hstep⟩ | ⟨event, hlast, hnumber, hstep⟩
    · have hrun : (forwardFrame stamps sessionId).run st (frame :: frames) =
          (forwardFrame stamps sessionId).run st frames := by
        simp [Framing.Machine.run, hstep]
      rw [hrun]
      have hrest := ih st
      rcases hout : (forwardFrame stamps sessionId).run st frames with ⟨events, _ | st'⟩
      · simp only [hout] at hrest
        exact ⟨hrest.1.mono (subset_cons_self _ _), hrest.2⟩
      · simp only [hout] at hrest
        exact ⟨hrest.1.mono (subset_cons_self _ _), hrest.2⟩
    · have hsession : event.sessionId = some sessionId ∧ (event.type ∈ streamEnds ∨
          ∃ f ∈ frame :: frames, OfSession sessionId f event) :=
        ⟨hsent.sessionId_eq, .inr ⟨frame, mem_cons_self, hsent⟩⟩
      have hrest := ih ⟨partTypes, st.sequence + 1⟩
      rcases hout : (forwardFrame stamps sessionId).run ⟨partTypes, st.sequence + 1⟩ frames with
        ⟨events, _ | st'⟩
      · simp only [hout] at hrest
        simp only [Framing.Machine.run, hstep, hout]
        obtain ⟨hnumbered, before, last, rfl, hlast, hbefore⟩ := hrest
        refine ⟨.cons hnumber hsession (hnumbered.mono (subset_cons_self _ _)),
          event :: before, last, rfl, hlast, fun e he => ?_⟩
        rcases mem_cons.mp he with rfl | he
        · exact hopen
        · exact hbefore e he
      · simp only [hout] at hrest
        simp only [Framing.Machine.run, hstep, hout]
        obtain ⟨hnumbered, hsequence, hevents⟩ := hrest
        refine ⟨.cons hnumber hsession (hnumbered.mono (subset_cons_self _ _)), ?_,
          fun e he => ?_⟩
        · rw [hsequence]
          simp
          omega
        · rcases mem_cons.mp he with rfl | he
          · exact hopen
          · exact hevents e he
    · simp only [Framing.Machine.run, hstep]
      refine ⟨.cons hnumber ?_ numbered_nil, [], event, rfl, ?_, nofun⟩
      · rcases hlast with ⟨hsent, -⟩ | rfl
        · exact ⟨hsent.sessionId_eq, .inr ⟨frame, mem_cons_self, hsent⟩⟩
        · exact ⟨rfl, .inl mem_cons_self⟩
      · exact hlast.imp (·.2) fun h => ⟨_, h⟩

/-- Numbered events of which the last one, and no other, closes. -/
structure Forwarded (sessionId : String) (frames : List (List UInt8)) (sequence : ℕ)
    (events : List EventEnvelope) : Prop extends Numbered sessionId frames sequence events where
  closed : ∃ before last, events = before ++ [last] ∧ Closing last ∧
    ∀ event ∈ before, ¬Closing event

theorem forwarded_concat (h : Numbered sessionId frames sequence events)
    (hopen : ∀ event ∈ events, ¬Closing event) {last : EventEnvelope}
    (hlast : last.type ∈ streamEnds) (hnumber : last.monotonicSequence = sequence + events.length)
    (hsession : last.sessionId = some sessionId) :
    Forwarded sessionId frames sequence (events ++ [last]) := by
  refine ⟨⟨fun i event hi => ?_, fun event he => ?_⟩, events, last, rfl,
    mem_append_right _ hlast, hopen⟩
  · rcases lt_or_ge i events.length with hlt | hge
    · rw [getElem?_append_left hlt] at hi
      exact h.number i event hi
    · rw [getElem?_append_right hge] at hi
      obtain ⟨hzero, rfl⟩ : i - events.length = 0 ∧ last = event := by
        rcases hk : i - events.length with _ | k
        · rw [hk] at hi
          exact ⟨rfl, Option.some.inj hi⟩
        · rw [hk] at hi
          cases hi
      rw [hnumber]
      omega
  · rcases mem_append.mp he with he | he
    · exact h.session event he
    · rw [mem_singleton.mp he]
      exact ⟨hsession, .inl hlast⟩

/-- The events of the stream `bytes`, read in one piece and without a limit. -/
def streamEvents (stamps : ℕ → Stamp) (sessionId : String) (sequence : ℕ) (bytes : List UInt8)
    (ending : Ending) : List EventEnvelope :=
  sseFraming.decode (sseReader stamps sessionId ending) { sequence } bytes

/-- Until the stream is closed, no chunk brings the bytes after the last complete frame above
1 MiB. -/
def StaysWithin (stamps : ℕ → Stamp) (sessionId : String) (sequence : ℕ)
    (chunks : List (List UInt8)) : Prop :=
  sseFraming.Fits (sseReader stamps sessionId .closed) { sequence } [] chunks

omit [SerdeJson] in
theorem take_nil : sseFraming.take [] = none := rfl

theorem fits_iff {buffer : List UInt8} {chunks : List (List UInt8)} :
    sseFraming.Fits (sseReader stamps sessionId ending) st buffer chunks ↔
      sseFraming.Fits (sseReader stamps sessionId .closed) st buffer chunks := by
  induction chunks generalizing st buffer with
  | nil => exact Iff.rfl
  | cons chunk chunks ih => exact and_congr Iff.rfl (forall₂_congr fun _ _ => ih)

theorem forwarded (stamps : ℕ → Stamp) (sessionId : String) (sequence : ℕ)
    (chunks : List (List UInt8)) (ending : Ending) :
    Forwarded sessionId (sseFraming.frames chunks.flatten) sequence
      (forwardSseEvents stamps sessionId sequence chunks ending) := by
  obtain ⟨fs, hfs, hfeed⟩ := Framing.feed_cases (F := sseFraming)
    (R := sseReader stamps sessionId ending) { sequence } [] chunks
  have hrun := forward_run stamps sessionId { sequence } fs
  rcases hout : (forwardFrame stamps sessionId).run { sequence } fs with ⟨events, _ | st⟩
  · simp only [hout] at hrun
    obtain ⟨hnumbered, before, last, rfl, hlast, hbefore⟩ := hrun
    rw [show (sseReader stamps sessionId ending).step.run _ fs = _ from hout] at hfeed
    refine ⟨?_, before, last, hfeed, ?_, hbefore⟩
    · rw [forwardSseEvents, hfeed]
      exact hnumbered.mono hfs.subset
    · rcases hlast with htype | ⟨n, rfl⟩
      · exact mem_append_left _ htype
      · exact mem_append_right _ mem_cons_self
  · simp only [hout] at hrun
    obtain ⟨hnumbered, hsequence, hopen⟩ := hrun
    rw [show (sseReader stamps sessionId ending).step.run _ fs = _ from hout] at hfeed
    have hnumbered := hnumbered.mono hfs.subset
    unfold forwardSseEvents
    rcases hfeed with hfeed | hfeed
    · rw [hfeed]
      exact forwarded_concat hnumbered hopen mem_cons_self hsequence rfl
    · rw [hfeed]
      cases ending with
      | closed =>
        exact forwarded_concat hnumbered hopen (mem_cons_of_mem _ mem_cons_self)
          hsequence rfl
      | failed => exact forwarded_concat hnumbered hopen mem_cons_self hsequence rfl

omit [SerdeJson] in
theorem overflow_not_closesFrames :
    ¬ClosesFrames stamps sessionId (overflowEvent stamps sessionId st) := by
  rintro (htype | ⟨n, heq⟩)
  · exact absurd htype (by decide : "runtime.stream_error" ∉ turnEnds)
  · have hpayload := congrArg EventEnvelope.payloadJson heq
    simp [overflowEvent, invalidEvent, streamEvent, runtimeEvent, EventEnvelope.new,
      Value.ofStr] at hpayload

/-- The overflow is not among the events of a stream read in one piece. -/
theorem overflow_not_mem {bytes : List UInt8} :
    overflowEvent stamps sessionId st ∉ streamEvents stamps sessionId sequence bytes ending := by
  have hclosing : Closing (overflowEvent stamps sessionId st) :=
    mem_append_right _ mem_cons_self
  have hrun := forward_run stamps sessionId { sequence } (sseFraming.frames bytes)
  unfold streamEvents Framing.decode
  rcases hout : (forwardFrame stamps sessionId).run { sequence } (sseFraming.frames bytes) with
    ⟨events, _ | st'⟩
  · simp only [hout] at hrun
    rw [show (sseReader stamps sessionId ending).step.run _ _ = _ from hout]
    obtain ⟨-, before, last, rfl, hlast, hbefore⟩ := hrun
    intro hmem
    rcases mem_append.mp hmem with hmem | hmem
    · exact hbefore _ hmem hclosing
    · rw [← mem_singleton.mp hmem] at hlast
      exact overflow_not_closesFrames hlast
  · simp only [hout] at hrun
    rw [show (sseReader stamps sessionId ending).step.run _ _ = _ from hout]
    intro hmem
    rcases mem_append.mp hmem with hmem | hmem
    · exact hrun.2.2 _ hmem hclosing
    · have heq : overflowEvent stamps sessionId st = endEvent stamps sessionId ending st' :=
        mem_singleton.mp hmem
      have hpayload := congrArg EventEnvelope.payloadJson heq
      cases ending with
      | closed =>
        simp [overflowEvent, endEvent, streamEvent, runtimeEvent, EventEnvelope.new] at hpayload
      | failed =>
        simp [overflowEvent, endEvent, streamEvent, runtimeEvent, EventEnvelope.new] at hpayload

/-- A cut gives the events of the whole stream exactly when it stays within the limit. -/
theorem forwardSseEvents_eq_iff {chunks : List (List UInt8)} :
    forwardSseEvents stamps sessionId sequence chunks ending =
        streamEvents stamps sessionId sequence chunks.flatten ending ↔
      StaysWithin stamps sessionId sequence chunks := by
  constructor
  · intro heq
    by_contra hnot
    obtain ⟨events, st, hfeed⟩ := Framing.feed_of_not_fits (mt fits_iff.mp hnot)
    have hmem : overflowEvent stamps sessionId st ∈
        forwardSseEvents stamps sessionId sequence chunks ending := by
      rw [forwardSseEvents, hfeed]
      exact mem_append_right _ mem_cons_self
    rw [heq] at hmem
    exact overflow_not_mem hmem
  · intro hwithin
    exact Framing.feed_of_fits take_nil (fits_iff.mpr hwithin)

/-- **Events and chunks.**  Whatever the chunks, the events are numbered one after the other from
the start value, belong to the session, and end in the one event that closes.  They are the
events of the stream as a whole exactly when no chunk brings the buffer above the limit; so two
cuts of one stream that stay within it give the same events. -/
theorem sse_chunking (stamps : ℕ → Stamp) (sessionId : String) (sequence : ℕ)
    (chunks : List (List UInt8)) (ending : Ending) :
    (forwardSseEvents stamps sessionId sequence chunks ending =
        streamEvents stamps sessionId sequence chunks.flatten ending ↔
      StaysWithin stamps sessionId sequence chunks) ∧
    (∀ chunks', chunks'.flatten = chunks.flatten →
      StaysWithin stamps sessionId sequence chunks → StaysWithin stamps sessionId sequence chunks' →
      forwardSseEvents stamps sessionId sequence chunks' ending =
        forwardSseEvents stamps sessionId sequence chunks ending) ∧
    Forwarded sessionId (sseFraming.frames chunks.flatten) sequence
      (forwardSseEvents stamps sessionId sequence chunks ending) := by
  refine ⟨forwardSseEvents_eq_iff, fun chunks' hsame hwithin hwithin' => ?_, forwarded ..⟩
  rw [forwardSseEvents_eq_iff.mpr hwithin, forwardSseEvents_eq_iff.mpr hwithin', hsame]

end

/-! ### A stream that depends on its chunks -/

namespace Sample

/-- `count` empty frames. -/
def keepAlives (count : ℕ) : List UInt8 := List.replicate (2 * count) 10

theorem take_keepAlives (count : ℕ) :
    sseFraming.take (keepAlives (count + 1)) = some ([], keepAlives count) := by
  have hlf : positionOf lfDelimiter (keepAlives (count + 1)) = some 0 := by
    change positionOf lfDelimiter (10 :: 10 :: keepAlives count) = some 0
    exact if_pos (prefix_append lfDelimiter _)
  have hdelimiter : frameDelimiter (keepAlives (count + 1)) = some (0, 2) := by
    unfold frameDelimiter
    rw [hlf]
    rcases positionOf crlfDelimiter (keepAlives (count + 1)) with _ | crlf
    · rfl
    · exact if_pos (Nat.zero_le _)
  change takeSseFrame _ = _
  rw [takeSseFrame, hdelimiter]
  rfl

theorem frames_keepAlives (count : ℕ) : sseFraming.frames (keepAlives count) =
    List.replicate count [] ∧ sseFraming.pending (keepAlives count) = [] := by
  induction count with
  | zero => exact Framing.frames_of_none rfl
  | succ count ih =>
    obtain ⟨hframes, hpending⟩ := Framing.frames_of_some (take_keepAlives count)
    rw [hframes, hpending, ih.1, ih.2]
    exact ⟨rfl, rfl⟩

/-- No document is JSON to this parser; keep-alives hold none. -/
@[reducible] def noJson : SerdeJson := ⟨fun _ => .error "expected value"⟩

def stamps : ℕ → Stamp := fun _ => ⟨"", ""⟩

theorem run_keepAlives [SerdeJson] (st : Forwarder) (count : ℕ) :
    (forwardFrame stamps "s").run st (List.replicate count []) = ([], some st) := by
  have hempty : parseSseFrame [] = .ok none := rfl
  have hstep : forwardFrame stamps "s" st [] = ([], some st) := by
    simp only [forwardFrame, hempty]
  induction count with
  | zero => rfl
  | succ count ih => simp [replicate_succ, Framing.Machine.run, hstep, ih]

theorem halves_change_events [SerdeJson] {half : ℕ} (hhalf : 2 * half ≤ bufferLimit)
    (hwhole : bufferLimit < 2 * (half + half)) :
    (∀ frame ∈ sseFraming.frames (keepAlives (half + half)), frame.length ≤ bufferLimit) ∧
    [keepAlives (half + half)].flatten = [keepAlives half, keepAlives half].flatten ∧
    forwardSseEvents stamps "s" 1 [keepAlives (half + half)] .closed =
      [overflowEvent stamps "s" { sequence := 1 }] ∧
    forwardSseEvents stamps "s" 1 [keepAlives half, keepAlives half] .closed =
      [endEvent stamps "s" .closed { sequence := 1 }] := by
  have hlength (count : ℕ) : (keepAlives count).length = 2 * count := length_replicate
  refine ⟨fun frame hframe => ?_, ?_, ?_, ?_⟩
  · rw [(frames_keepAlives _).1] at hframe
    rw [eq_of_mem_replicate hframe]
    exact Nat.zero_le _
  · simp [keepAlives, replicate_append_replicate, Nat.mul_add]
  · refine if_pos ?_
    rwa [nil_append, hlength]
  · have hfeed (chunks : List (List UInt8)) :
        sseFraming.feed (sseReader stamps "s" .closed) { sequence := 1 } []
            (keepAlives half :: chunks) =
          sseFraming.feed (sseReader stamps "s" .closed) { sequence := 1 } [] chunks := by
      rw [Framing.feed_cons (by rwa [nil_append, hlength]), nil_append,
        (frames_keepAlives _).1, (frames_keepAlives _).2]
      simp only [sseReader, run_keepAlives, nil_append]
    rw [forwardSseEvents, hfeed, hfeed]
    rfl

end Sample

section

attribute [local instance] Sample.noJson

/-- Half a million empty frames: read to the end of the stream when they come in two chunks,
given up for a frame of more than 1 MiB when they come in one. -/
theorem chunks_change_events :
    (∀ frame ∈ sseFraming.frames (Sample.keepAlives (262145 + 262145)),
      frame.length ≤ bufferLimit) ∧
    [Sample.keepAlives (262145 + 262145)].flatten =
      [Sample.keepAlives 262145, Sample.keepAlives 262145].flatten ∧
    forwardSseEvents Sample.stamps "s" 1 [Sample.keepAlives (262145 + 262145)] .closed =
      [overflowEvent Sample.stamps "s" { sequence := 1 }] ∧
    forwardSseEvents Sample.stamps "s" 1 [Sample.keepAlives 262145, Sample.keepAlives 262145]
        .closed = [endEvent Sample.stamps "s" .closed { sequence := 1 }] :=
  Sample.halves_change_events (by decide) (by decide)

end

end PersonalAgent.Runtime
