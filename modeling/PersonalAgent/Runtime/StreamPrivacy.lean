/-
# Private content stays out of the events

Which parts of an upstream event `forward_sse_events` looks at.  `reviewedPaths` lists them:
the type, the session and the part of the event, and the properties that are kept for its
kind.  Tool inputs and outputs, reasoning text and every other property are not among them;
the delta of a message part is, but only for a part that is known to be text.

Two streams whose frames agree on these paths give the same events.  The one other thing
about a frame that the code looks at is its length: the buffer may not exceed 1 MiB, so
private content that brings it over the limit does show, as the end of the stream.
-/

import PersonalAgent.Runtime.Chunking

namespace PersonalAgent.Runtime

open Lib List Sample

/-! ### What is reviewed -/

/-- The paths by which the session of an event is found. -/
def sessionPaths : List (List String) :=
  [["properties", "sessionID"], ["properties", "part", "sessionID"],
    ["properties", "info", "sessionID"]]

def below (path names : List String) : List (List String) := names.map fun name => path ++ [name]

/-- The paths of `message.part.delta`; the delta only of a text. -/
def deltaPaths (known : Option String) : List (List String) :=
  below ["properties"] (if known = some "text" then ["partID", "messageID", "delta"]
    else if known = some "reasoning" then ["partID", "messageID"] else ["partID"])

/-- The paths of `message.part.updated`, by the type of the part. -/
def partPaths (partType : String) : List (List String) :=
  below ["properties", "part"] ["id", "type"] ++
    if partType = "tool" then
      below ["properties", "part"] ["messageID", "callID", "tool"] ++
        [["properties", "part", "state", "status"]]
    else match reviewedParts.lookup partType with
      | some kind => below ["properties", "part"] kind.names
      | none => []

/-- The paths of `session.status`, by the status. -/
def statusPaths (status : String) : List (List String) :=
  ["properties", "status", "type"] ::
    if status = "retry" then below ["properties", "status"] ["attempt", "message", "next"] else []

/-- The paths that are reviewed for the kind of an event; `known` is the type of the part that
it is about. -/
def kindPaths (upstream : Value) (known : Option String) : List (List String) :=
  if upstreamType upstream = "message.part.delta" then deltaPaths known
  else if upstreamType upstream = "message.part.updated" then
    partPaths ((textOf (pointer upstream ["properties", "part", "type"])).getD "unknown")
  else if upstreamType upstream = "session.status" then
    statusPaths ((textOf (pointer upstream ["properties", "status", "type"])).getD "unknown")
  else match reviewedKinds.lookup (upstreamType upstream) with
    | some kind => below ["properties"] kind.names
    | none => []

/-- The paths of an event that are reviewed. -/
def reviewedPaths (upstream : Value) (known : Option String) : List (List String) :=
  ["type"] :: sessionPaths ++ kindPaths upstream known

/-- Two events that differ in nothing that is reviewed. -/
def SameReviewed (known : Option String) (u v : Value) : Prop :=
  ∀ path ∈ reviewedPaths u known, pointer u path = pointer v path

/-! ### One event -/

theorem selectedProperties_congr {p q : Value} {names : List String}
    (h : ∀ name ∈ names, p.get name = q.get name) :
    selectedProperties p names = selectedProperties q names := by
  unfold selectedProperties
  congr 1
  refine filterMap_congr fun name hname => ?_
  rw [h name hname]

theorem selected_below {u v : Value} {path names all : List String}
    (h : ∀ p ∈ below path all, pointer u p = pointer v p) (hnames : names ⊆ all) :
    selectedProperties (orNull (pointer u path)) names =
      selectedProperties (orNull (pointer v path)) names := by
  refine selectedProperties_congr fun name hname => ?_
  rw [get_orNull, get_orNull]
  exact h _ (mem_map_of_mem (hnames hname))

variable {u v : Value} {known : Option String}

theorem SameReviewed.type_eq (h : SameReviewed known u v) : u.get "type" = v.get "type" := by
  rw [← pointer_singleton, ← pointer_singleton]
  exact h _ mem_cons_self

theorem SameReviewed.kind (h : SameReviewed known u v) :
    ∀ path ∈ kindPaths u known, pointer u path = pointer v path :=
  fun _ hpath => h _ (mem_append_right _ hpath)

theorem SameReviewed.upstreamSessionId_eq (h : SameReviewed known u v) :
    upstreamSessionId u = upstreamSessionId v := by
  have hpath (path : List String) (hpath : path ∈ sessionPaths) : pointer u path = pointer v path :=
    h path (mem_cons_of_mem _ (mem_append_left _ hpath))
  unfold upstreamSessionId
  rw [hpath _ (by decide), hpath _ (by decide), hpath _ (by decide)]

theorem normalizeDelta_congr (h : ∀ path ∈ deltaPaths known, pointer u path = pointer v path) :
    normalizeDelta (orNull (pointer u ["properties"])) known =
      normalizeDelta (orNull (pointer v ["properties"])) known := by
  unfold deltaPaths at h
  unfold normalizeDelta
  by_cases htext : known = some "text"
  · rw [if_pos htext] at h
    rw [if_pos htext, if_pos htext, selected_below h (by decide)]
  · rw [if_neg htext] at h
    rw [if_neg htext, if_neg htext]
    by_cases hreasoning : known = some "reasoning"
    · rw [if_pos hreasoning] at h
      rw [if_pos hreasoning, if_pos hreasoning, selected_below h (by decide)]
    · rw [if_neg hreasoning, if_neg hreasoning]

theorem normalizePart_congr
    (h : ∀ path ∈ partPaths ((textOf (pointer u ["properties", "part", "type"])).getD "unknown"),
      pointer u path = pointer v path) :
    normalizePart (orNull (pointer u ["properties", "part"])) =
      normalizePart (orNull (pointer v ["properties", "part"])) := by
  have htype :
      pointer u ["properties", "part", "type"] = pointer v ["properties", "part", "type"] :=
    h _ (mem_append_left _ (mem_cons_of_mem _ mem_cons_self))
  unfold normalizePart
  simp only [get_orNull, pointer_orNull, cons_append, nil_append]
  rw [← htype]
  set partType := (textOf (pointer u ["properties", "part", "type"])).getD "unknown"
  unfold partPaths at h
  by_cases htool : partType = "tool"
  · rw [if_pos htool] at h
    have hpath (path : List String) (hpath : path ∈ below ["properties", "part"]
        ["messageID", "callID", "tool"] ++ [["properties", "part", "state", "status"]]) :
        pointer u path = pointer v path :=
      h path (mem_append_right _ hpath)
    rw [if_pos htool, if_pos htool, hpath _ (by decide : ["properties", "part", "messageID"] ∈ _),
      hpath _ (by decide : ["properties", "part", "callID"] ∈ _),
      hpath _ (by decide : ["properties", "part", "tool"] ∈ _),
      hpath _ (by decide : ["properties", "part", "state", "status"] ∈ _)]
  · rw [if_neg htool] at h
    rw [if_neg htool, if_neg htool]
    rcases hkind : reviewedParts.lookup partType with _ | kind
    · rfl
    · simp only [hkind] at h ⊢
      rw [selected_below (fun p hp => h p (mem_append_right _ hp)) (List.Subset.refl _)]

theorem normalizeStatus_congr
    (h : ∀ path ∈
      statusPaths ((textOf (pointer u ["properties", "status", "type"])).getD "unknown"),
      pointer u path = pointer v path) :
    normalizeStatus (orNull (pointer u ["properties"])) =
      normalizeStatus (orNull (pointer v ["properties"])) := by
  have htype : pointer u ["properties", "status", "type"] =
      pointer v ["properties", "status", "type"] := h _ mem_cons_self
  unfold normalizeStatus
  simp only [get_orNull, pointer_orNull, cons_append, nil_append]
  rw [← htype]
  set status := (textOf (pointer u ["properties", "status", "type"])).getD "unknown"
  unfold statusPaths at h
  by_cases hretry : status = "retry"
  · rw [if_pos hretry] at h
    rw [if_pos hretry, if_pos hretry,
      selected_below (fun p hp => h p (mem_cons_of_mem _ hp)) (List.Subset.refl _)]
  · rw [if_neg hretry, if_neg hretry]

/-- **What is not reviewed is not kept.** -/
theorem normalizeKind_congr (h : SameReviewed known u v) :
    normalizeKind u known = normalizeKind v known := by
  have htype : upstreamType u = upstreamType v := by
    unfold upstreamType
    rw [h.type_eq]
  have hkind := h.kind
  unfold kindPaths at hkind
  unfold normalizeKind
  rw [← htype, ← pointer_singleton u, ← pointer_singleton v]
  by_cases hdelta : upstreamType u = "message.part.delta"
  · rw [if_pos hdelta] at hkind
    simp only [if_pos hdelta]
    exact normalizeDelta_congr hkind
  · rw [if_neg hdelta] at hkind
    simp only [if_neg hdelta]
    by_cases hpart : upstreamType u = "message.part.updated"
    · rw [if_pos hpart] at hkind
      simp only [if_pos hpart, get_orNull, cons_append, nil_append]
      exact normalizePart_congr hkind
    · rw [if_neg hpart] at hkind
      simp only [if_neg hpart]
      by_cases hstatus : upstreamType u = "session.status"
      · rw [if_pos hstatus] at hkind
        simp only [if_pos hstatus]
        exact normalizeStatus_congr hkind
      · rw [if_neg hstatus] at hkind
        simp only [if_neg hstatus]
        rcases hlookup : reviewedKinds.lookup (upstreamType u) with _ | kind
        · rfl
        · simp only [hlookup] at hkind ⊢
          rw [selected_below hkind (List.Subset.refl _)]

theorem normalizeKind_known (h : upstreamType u ≠ "message.part.delta") (k k' : Option String) :
    normalizeKind u k = normalizeKind u k' := by
  simp only [normalizeKind, if_neg h]

theorem learnPartType_congr (partTypes : BTreeMap String String) (h : SameReviewed known u v) :
    learnPartType partTypes u = learnPartType partTypes v := by
  unfold learnPartType
  rw [← h.type_eq]
  by_cases htype : textOf (u.get "type") = some "message.part.updated"
  · have hpart (path : List String) (hpath : path ∈ below ["properties", "part"] ["id", "type"]) :
        pointer u path = pointer v path := by
      refine h.kind path ?_
      have hupdated : upstreamType u = "message.part.updated" := by
        unfold upstreamType
        rw [htype]
        rfl
      unfold kindPaths
      rw [if_neg (by rw [hupdated]; decide), if_pos hupdated]
      exact mem_append_left _ hpath
    rw [if_pos htype, if_pos htype, hpart ["properties", "part", "id"] (by decide),
      hpart ["properties", "part", "type"] (by decide)]
  · rw [if_neg htype, if_neg htype]

theorem knownPartType_congr (partTypes : BTreeMap String String) (h : SameReviewed known u v)
    (htype : upstreamType u = "message.part.delta") :
    knownPartType partTypes u = knownPartType partTypes v := by
  have hpart : pointer u ["properties", "partID"] = pointer v ["properties", "partID"] := by
    refine h.kind _ ?_
    unfold kindPaths deltaPaths
    rw [if_pos htype]
    split_ifs
    all_goals exact mem_cons_self
  unfold knownPartType
  rw [hpart]

/-! ### A whole stream -/

section

variable [SerdeJson] {stamps : ℕ → Stamp} {sessionId : String}

/-- Two sequences of frames that differ in nothing that is reviewed, after parts of the types
`partTypes` have been seen.  Nothing is read after a frame that is not an event. -/
def SameButPrivate (sessionId : String) :
    BTreeMap String String → List (List UInt8) → List (List UInt8) → Prop
  | _, [], [] => True
  | partTypes, f :: fs, g :: gs =>
    match parseSseFrame f, parseSseFrame g with
    | .error _, .error _ => True
    | .ok none, .ok none => SameButPrivate sessionId partTypes fs gs
    | .ok (some u), .ok (some v) =>
      SameReviewed (knownPartType (learnPartType partTypes u) u) u v ∧
        SameButPrivate sessionId (if upstreamSessionId u = some sessionId then
          learnPartType partTypes u else partTypes) fs gs
    | _, _ => False
  | _, _, _ => False

theorem forwardFrame_congr (stamps : ℕ → Stamp) (sessionId : String) {st : Forwarder}
    {f g : List UInt8} (hf : parseSseFrame f = .ok (some u))
    (hg : parseSseFrame g = .ok (some v))
    (h : SameReviewed (knownPartType (learnPartType st.partTypes u) u) u v) :
    forwardFrame stamps sessionId st f = forwardFrame stamps sessionId st g := by
  have hkind : normalizeKind u (knownPartType (learnPartType st.partTypes u) u) =
      normalizeKind v (knownPartType (learnPartType st.partTypes v) v) := by
    rw [normalizeKind_congr h, learnPartType_congr st.partTypes h]
    by_cases htype : upstreamType u = "message.part.delta"
    · rw [knownPartType_congr _ h htype]
    · refine normalizeKind_known ?_ _ _
      unfold upstreamType at htype ⊢
      rwa [← h.type_eq]
  simp only [forwardFrame, hf, hg]
  by_cases hsession : upstreamSessionId u = some sessionId
  · have hsession' : upstreamSessionId v = some sessionId := h.upstreamSessionId_eq ▸ hsession
    rw [if_neg (not_not.mpr hsession), if_neg (not_not.mpr hsession'),
      normalizeUpstreamEvent_eq hsession, normalizeUpstreamEvent_eq hsession', ← hkind,
      learnPartType_congr st.partTypes h]
  · rw [if_pos hsession, if_pos (h.upstreamSessionId_eq ▸ hsession)]

theorem forwardFrame_partTypes {st st' : Forwarder} {f : List UInt8} {events : List EventEnvelope}
    (hf : parseSseFrame f = .ok (some u))
    (h : forwardFrame stamps sessionId st f = (events, some st')) :
    st'.partTypes = if upstreamSessionId u = some sessionId then learnPartType st.partTypes u
      else st.partTypes := by
  simp only [forwardFrame, hf] at h
  by_cases hsession : upstreamSessionId u = some sessionId
  · rw [if_neg (not_not.mpr hsession)] at h
    rw [if_pos hsession]
    have hnext := (Prod.mk.inj h).2
    split_ifs at hnext
    rw [← Option.some.inj hnext]
  · rw [if_pos hsession] at h
    rw [if_neg hsession]
    rw [← Option.some.inj (Prod.mk.inj h).2]

/-- **The loop cannot tell them apart.** -/
theorem run_congr (stamps : ℕ → Stamp) (st : Forwarder) {fs gs : List (List UInt8)}
    (h : SameButPrivate sessionId st.partTypes fs gs) :
    (forwardFrame stamps sessionId).run st fs = (forwardFrame stamps sessionId).run st gs := by
  induction fs generalizing st gs with
  | nil =>
    cases gs with
    | nil => rfl
    | cons g gs => exact h.elim
  | cons f fs ih =>
    cases gs with
    | nil => exact h.elim
    | cons g gs =>
      unfold SameButPrivate at h
      rcases hf : parseSseFrame f with e | _ | u
      · rcases hg : parseSseFrame g with e' | _ | v <;> simp only [hf, hg] at h
        simp only [Framing.Machine.run, forwardFrame, hf, hg]
      · rcases hg : parseSseFrame g with e' | _ | v <;> simp only [hf, hg] at h
        simp only [Framing.Machine.run, forwardFrame, hf, hg]
        rw [← ih st h]
      · rcases hg : parseSseFrame g with e' | _ | v <;> simp only [hf, hg] at h
        obtain ⟨hsame, hrest⟩ := h
        have hstep := forwardFrame_congr stamps sessionId hf hg hsame
        simp only [Framing.Machine.run, ← hstep]
        rcases hout : forwardFrame stamps sessionId st f with ⟨events, _ | st'⟩
        · rfl
        · rw [← forwardFrame_partTypes hf hout] at hrest
          simp only [ih st' hrest]

end

/-! ### What is private -/

/-- A path to a tool's input, to the text, the structured result or the content of an event of the
newer dialect, into the state of a tool but not to its status, or to the text of a part. -/
def isContent (path : List String) : Bool :=
  (below ["properties"] ["input", "text", "structured", "content"]).contains path ||
    path = ["properties", "part", "text"] ||
    (["properties", "part", "state"].isPrefixOf path &&
      path ≠ ["properties", "part", "state", "status"])

/-- The path to the text that an event adds. -/
def deltaPath : List String := ["properties", "delta"]

/-- Whether an event adds text that is shown: in the newer dialect by its type, in the older one
by the type of its part. -/
def ShowsDelta (upstream : Value) (known : Option String) : Prop :=
  upstreamType upstream = "session.next.text.delta" ∨
    upstreamType upstream = "message.part.delta" ∧ known = some "text"

/-- What holds of the paths of every row of a table. -/
theorem path_of_lookup {kinds : List (String × Reviewed)} {name : String} {kind : Reviewed}
    {top path : List String} (P : String → List String → Prop)
    (hkind : kinds.lookup name = some kind) (hpath : path ∈ below top kind.names)
    (h : ∀ kind ∈ kinds, ∀ path ∈ below top kind.2.names, P kind.1 path) : P name path := by
  obtain ⟨before, after, rfl, -⟩ := lookup_eq_some_iff.mp hkind
  exact h (name, kind) (by simp) path hpath

/-- **Nothing private is reviewed**: no tool content and no part text, and a delta only where it
is shown. -/
theorem not_content_of_reviewed {u : Value} {known : Option String} {path : List String}
    (hpath : path ∈ reviewedPaths u known) :
    isContent path = false ∧ (path = deltaPath → ShowsDelta u known) := by
  have hclosed {paths : List (List String)} (hmem : path ∈ paths)
      (hpaths : ∀ p ∈ paths, isContent p = false ∧ p ≠ deltaPath) :
      isContent path = false ∧ (path = deltaPath → ShowsDelta u known) :=
    ⟨(hpaths path hmem).1, fun heq => absurd heq (hpaths path hmem).2⟩
  rcases mem_append.mp hpath with hpath | hpath
  · exact hclosed hpath (by decide)
  · unfold kindPaths at hpath
    split_ifs at hpath with hdelta hpart hstatus
    · unfold deltaPaths at hpath
      split_ifs at hpath with htext hreasoning
      · exact ⟨(by decide : ∀ p ∈ below ["properties"] ["partID", "messageID", "delta"],
          isContent p = false) path hpath, fun _ => .inr ⟨hdelta, htext⟩⟩
      · exact hclosed hpath (by decide)
      · exact hclosed hpath (by decide)
    · rcases mem_append.mp hpath with hpath | hpath
      · exact hclosed hpath (by decide)
      · split_ifs at hpath
        · exact hclosed hpath (by decide)
        · split at hpath
          · obtain ⟨hcontent, hne⟩ := path_of_lookup
              (fun _ path => isContent path = false ∧ path ≠ deltaPath) ‹_› hpath (by decide)
            exact ⟨hcontent, fun heq => absurd heq hne⟩
          · cases hpath
    · unfold statusPaths at hpath
      split_ifs at hpath
      · exact hclosed hpath (by decide)
      · exact hclosed hpath (by decide)
    · split at hpath
      · obtain ⟨hcontent, hname⟩ := path_of_lookup (fun name path => isContent path = false ∧
          (path = deltaPath → name = "session.next.text.delta")) ‹_› hpath (by decide)
        exact ⟨hcontent, fun heq => .inl (hname heq)⟩
      · cases hpath

/-- **Private content does not show.**  Nothing private is among the reviewed paths.  Two streams
whose frames agree on the reviewed paths give the same events, each in any chunks that keep the
buffer within its limit. -/
theorem private_content_hidden [SerdeJson] (stamps : ℕ → Stamp) (sessionId : String) (sequence : ℕ)
    (ending : Ending) (chunks chunks' : List (List UInt8))
    (hwithin : StaysWithin stamps sessionId sequence chunks)
    (hwithin' : StaysWithin stamps sessionId sequence chunks')
    (hsame : SameButPrivate sessionId {} (sseFraming.frames chunks.flatten)
      (sseFraming.frames chunks'.flatten)) :
    (∀ u known, ∀ path ∈ reviewedPaths u known,
      isContent path = false ∧ (path = deltaPath → ShowsDelta u known)) ∧
    forwardSseEvents stamps sessionId sequence chunks ending =
      forwardSseEvents stamps sessionId sequence chunks' ending := by
  refine ⟨fun u known path => not_content_of_reviewed, ?_⟩
  have hrun := run_congr stamps { sequence } hsame
  rw [forwardSseEvents_eq_iff.mpr hwithin, forwardSseEvents_eq_iff.mpr hwithin']
  unfold streamEvents Framing.decode
  rw [show (sseReader stamps sessionId ending).step = forwardFrame stamps sessionId from rfl, hrun]

/-! ### Content that shows by its length -/

namespace Sample

/-- The start of a call of a tool, behind its brace. -/
def calledHead : List Char :=
  ("\"type\":\"session.next.tool.called\",\"properties\":\x7b\"sessionID\":\"s\"," ++
    "\"callID\":\"c\",\"input\":\"").toList

/-- A call of a tool, with `n` characters of input. -/
def calledChars (n : ℕ) : List Char :=
  '\x7b' :: (calledHead ++ (replicate n 'x' ++ ['"', '\x7d', '\x7d']))

def frameChars (n : ℕ) : List Char := 'd' :: 'a' :: 't' :: 'a' :: ':' :: calledChars n

def called (n : ℕ) : Value :=
  .object [("type", .ofStr "session.next.tool.called"), ("properties", .object
    [("sessionID", .ofStr "s"), ("callID", .ofStr "c"),
      ("input", .ofStr (String.ofList (replicate n 'x')))])]

/-- A parser for such calls. -/
@[reducible] def calledJson : SerdeJson where
  fromStr text :=
    let n := text.length - 90
    if text = String.ofList (calledChars n) then .ok (called n) else .error "expected value"

attribute [local instance] calledJson

theorem length_calledChars (n : ℕ) : (calledChars n).length = n + 90 := by
  have hhead : calledHead.length = 86 := by decide +kernel
  simp only [calledChars, length_cons, length_append, hhead, length_replicate, length_nil]
  omega

theorem mem_frameChars {n : ℕ} {c : Char} (h : c ∈ frameChars n) :
    c ∈ ['d', 'a', 't', ':', '\x7b', 'x', '"', '\x7d'] ++ calledHead := by
  simp only [frameChars, calledChars, mem_append, mem_replicate, mem_cons, not_mem_nil,
    or_false] at h ⊢
  tauto

/-- The frame of a call. -/
def calledFrame (n : ℕ) : List UInt8 := (String.ofList (frameChars n)).toByteArray.data.toList

theorem calledFrame_eq (n : ℕ) :
    calledFrame n = (frameChars n).flatMap String.utf8EncodeChar := by
  rw [calledFrame, String.toByteArray_ofList, List.utf8Encode]
  simp

theorem dataOf_called (n : ℕ) :
    dataOf (String.ofList (frameChars n)) = some (String.ofList (calledChars n)) := by
  have hend : (frameChars n).rdropWhile (· = '\x0d') = frameChars n := by
    have hlast : frameChars n = 'd' :: 'a' :: 't' :: 'a' :: ':' :: '\x7b' :: (calledHead ++
        (replicate n 'x' ++ ['"', '\x7d'])) ++ ['\x7d'] := by
      simp [frameChars, calledChars]
    rw [hlast]
    exact rdropWhile_concat_neg _ _ _ (by decide)
  have hmark : "data:".toList = ['d', 'a', 't', 'a', ':'] := by decide +kernel
  have hlead : ['d', 'a', 't', 'a', ':'].isPrefixOf (frameChars n) = true :=
    isPrefixOf_iff_prefix.mpr ⟨calledChars n, rfl⟩
  simp only [dataOf, String.toList_ofList, hend, Core.stripped, hmark, hlead, if_true,
    Option.map_some]
  change some (String.ofList (dropWhile Core.isWhitespace (calledChars n))) = _
  rw [calledChars, dropWhile_cons_of_neg (by decide)]

theorem parse_calledFrame (n : ℕ) : parseSseFrame (calledFrame n) = .ok (some (called n)) := by
  have htext : fromUtf8 (calledFrame n) = some (String.ofList (frameChars n)) :=
    dif_pos (String.ofList (frameChars n)).isValidUTF8
  have hread : SerdeJson.fromStr (String.ofList (calledChars n)) = .ok (called n) := by
    change (if _ then _ else _) = _
    rw [String.length_ofList, length_calledChars, Nat.add_sub_cancel]
    exact if_pos rfl
  have hlines : lines (String.ofList (frameChars n)) = [String.ofList (frameChars n)] :=
    lines_of_notMem (cons_ne_nil _ _) fun h => absurd (mem_frameChars h) (by decide +kernel)
  have hdata : "\n".intercalate ((lines (String.ofList (frameChars n))).filterMap dataOf) =
      String.ofList (calledChars n) := by
    rw [hlines, filterMap_cons_some (dataOf_called n), filterMap_nil]
    rfl
  have hlong (text : String) (h : text.length < 90) : String.ofList (calledChars n) ≠ text := by
    rintro rfl
    rw [String.length_ofList, length_calledChars] at h
    omega
  have hsome : (String.ofList (calledChars n) = "" || String.ofList (calledChars n) = "[DONE]") =
      false := by
    simp [hlong "" (by decide), hlong "[DONE]" (by decide)]
  simp only [parseSseFrame, htext, hdata, hsome, hread]
  rfl

theorem take_calledFrame (n : ℕ) :
    sseFraming.take (calledFrame n ++ [10, 10]) = some (calledFrame n, []) := by
  have hbyte (byte : UInt8) (h : byte ∈ calledFrame n) : byte ≠ 10 ∧ byte ≠ 13 := by
    rw [calledFrame_eq] at h
    obtain ⟨c, hc, hbyte⟩ := mem_flatMap.mp h
    have hall : (['d', 'a', 't', ':', '\x7b', 'x', '"', '\x7d'] ++ calledHead).all (fun c =>
        (String.utf8EncodeChar c).all fun byte => byte ≠ 10 ∧ byte ≠ 13) = true := by
      decide +kernel
    exact of_decide_eq_true (all_eq_true.mp (all_eq_true.mp hall c (mem_frameChars hc)) byte hbyte)
  have hlf : positionOf lfDelimiter (calledFrame n ++ [10, 10]) = some (calledFrame n).length :=
    positionOf_append_self fun h => (hbyte 10 h).1 rfl
  have hcrlf : positionOf crlfDelimiter (calledFrame n ++ [10, 10]) = none :=
    positionOf_eq_none fun h => (mem_append.mp h).elim (fun h => (hbyte 13 h).2 rfl) (by decide)
  change (frameDelimiter _).map _ = _
  rw [frameDelimiter, hlf, hcrlf, Option.map_some]
  dsimp only
  rw [take_left, drop_eq_nil_of_le (by simp)]

theorem length_calledFrame (n : ℕ) : (calledFrame n).length = n + 95 := by
  have hhead : (calledHead.flatMap String.utf8EncodeChar).length = 86 := by decide +kernel
  have hone : ∀ c ∈ ['d', 'a', 't', ':', '\x7b', 'x', '"', '\x7d'], c.utf8Size = 1 := by
    simp [Char.utf8Size_eq_one_iff]
  simp only [mem_cons, not_mem_nil, or_false, forall_eq_or_imp, forall_eq] at hone
  simp only [calledFrame_eq, frameChars, calledChars, flatMap_cons, flatMap_append, flatMap_nil,
    flatMap_replicate, length_append, length_flatten, map_replicate, sum_replicate,
    String.length_utf8EncodeChar, hhead, hone, length_nil, smul_eq_mul]
  omega

/-- The call, as a stream. -/
def stream (n : ℕ) : List UInt8 := calledFrame n ++ [10, 10]

theorem frames_stream (n : ℕ) : sseFraming.frames (stream n) = [calledFrame n] := by
  rw [stream, (Framing.frames_of_some (take_calledFrame n)).1, (Framing.frames_of_none take_nil).1]

theorem sameReviewed_called (known : Option String) (n n' : ℕ) :
    SameReviewed known (called n) (called n') := by
  intro path hpath
  have hmem : path ∈ ["type"] :: sessionPaths ++
      below ["properties"] ["assistantMessageID", "callID", "tool", "provider"] := hpath
  simp only [sessionPaths, below, map_cons, map_nil, cons_append, nil_append,
    mem_cons, not_mem_nil, or_false] at hmem
  rcases hmem with rfl | rfl | rfl | rfl | rfl | rfl | rfl | rfl
  all_goals rfl

theorem sameButPrivate_stream (n n' : ℕ) :
    SameButPrivate "s" {} (sseFraming.frames (stream n)) (sseFraming.frames (stream n')) := by
  rw [frames_stream, frames_stream]
  simp only [SameButPrivate, parse_calledFrame]
  exact ⟨sameReviewed_called _ _ _, trivial⟩

theorem length_stream (n : ℕ) : (stream n).length = n + 97 := by
  rw [stream, length_append, length_calledFrame]
  rfl

theorem staysWithin_stream {n : ℕ} (h : n + 97 ≤ bufferLimit) :
    StaysWithin stamps "s" 1 [stream n] :=
  ⟨(length_stream n).trans_le h, fun _ _ => trivial⟩

/-- The same call with one more character of input, where the buffer has no room for it. -/
theorem events_ne_of_full {n : ℕ} (hfull : n + 97 = bufferLimit) :
    forwardSseEvents stamps "s" 1 [stream n] .closed ≠
      forwardSseEvents stamps "s" 1 [stream (n + 1)] .closed := by
  have hover : forwardSseEvents stamps "s" 1 [stream (n + 1)] .closed =
      [overflowEvent stamps "s" { sequence := 1 }] := by
    refine if_pos ?_
    rw [nil_append, length_stream]
    change bufferLimit < n + 1 + 97
    omega
  rw [hover, forwardSseEvents_eq_iff.mpr (staysWithin_stream hfull.le)]
  intro heq
  exact overflow_not_mem (heq ▸ mem_cons_self)

end Sample

section

attribute [local instance] calledJson

-- the streams below are closed terms, which elaboration would otherwise run
attribute [local irreducible] SameButPrivate stream

/-- A call of a tool with two different inputs. -/
theorem called_hidden :
    StaysWithin stamps "s" 1 [stream 1] ∧ StaysWithin stamps "s" 1 [stream 2] ∧
    SameButPrivate "s" {} (sseFraming.frames [stream 1].flatten)
      (sseFraming.frames [stream 2].flatten) ∧
    forwardSseEvents stamps "s" 1 [stream 1] .closed =
      forwardSseEvents stamps "s" 1 [stream 2] .closed := by
  have hone := @staysWithin_stream 1 (by decide)
  have htwo := @staysWithin_stream 2 (by decide)
  have hsame : SameButPrivate "s" {} (sseFraming.frames [stream 1].flatten)
      (sseFraming.frames [stream 2].flatten) := by
    rw [flatten_singleton, flatten_singleton]
    exact sameButPrivate_stream 1 2
  have hevents := private_content_hidden stamps "s" 1 .closed _ _ hone htwo hsame
  exact And.intro hone (And.intro htwo (And.intro hsame hevents.2))

/-- **The length of an input shows.**  A frame with a tool's input fills the buffer; with one more
character the stream ends. -/
theorem input_length_shows :
    (∀ frame ∈ sseFraming.frames (stream 1048479), frame.length ≤ bufferLimit) ∧
    SameButPrivate "s" {} (sseFraming.frames (stream 1048479))
      (sseFraming.frames (stream 1048480)) ∧
    forwardSseEvents stamps "s" 1 [stream 1048479] .closed ≠
      forwardSseEvents stamps "s" 1 [stream 1048480] .closed := by
  refine And.intro (fun frame hframe => ?_)
    (And.intro (sameButPrivate_stream _ _) (events_ne_of_full (by decide)))
  rw [frames_stream, mem_singleton] at hframe
  rw [hframe, length_calledFrame]
  decide

end

end PersonalAgent.Runtime
