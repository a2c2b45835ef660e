/-
# Native turns in the usage ledger

A native turn reports its usage under other names than the ledger reads (`cost_usd` for `cost`,
`total_tokens` for `total`).  So the ledger sees no cached token and no cost of a native turn,
and adds up a total of its own, which counts the reasoning tokens a second time.

`Booked` says what the ledger is meant to do with a step at one of its tables.
`step_accounted` says for which usages it does.
-/

import PersonalAgent.Lib.OrdMap
import PersonalAgent.Llm.Event

namespace PersonalAgent.Llm

open PersonalAgent.Core (satAdd usdToMicrousd normalizeTokens normalizeCost dayString atKey
  TokenUsage UsageAggregate UsageLedger UsageMutation ProviderUsageRecord)

/-- What a step of usage `u` is meant to add to an aggregate. -/
structure Adds (u : Usage) (before after : UsageAggregate) : Prop where
  input : after.tokens.input = satAdd before.tokens.input u.inputTokens
  output : after.tokens.output = satAdd before.tokens.output u.outputTokens
  cacheRead : after.tokens.cacheRead = satAdd before.tokens.cacheRead u.cacheReadInputTokens
  cacheWrite :
    after.tokens.cacheWrite = satAdd before.tokens.cacheWrite u.cacheCreationInputTokens
  reasoning : after.tokens.reasoning = satAdd before.tokens.reasoning u.reasoningTokens
  total : after.tokens.total = satAdd before.tokens.total u.totalTokens
  cost : ∀ usd, u.costUsd = some usd → ∃ micros, usdToMicrousd usd = some micros ∧
    after.reportedCostMicrousd = satAdd before.reportedCostMicrousd micros ∧
    after.unknownCostSteps = before.unknownCostSteps

/-- The step is added at one key of a table of aggregates, and nowhere else. -/
def Booked (u : Usage) (key : String) (before after : BTreeMap String UsageAggregate) : Prop :=
  Adds u ((before[key]?).getD {}) ((after[key]?).getD {}) ∧
    ∀ other, other ≠ key → after[other]? = before[other]?

/-- The envelope of a provider step of a native turn. -/
def stepEnvelope (u : Usage) (finish : FinishReason) (stamp : Stamp) (sequence : ℕ)
    (origin profileId sessionId : String) : EventEnvelope :=
  (LlmEvent.responseStepCompleted finish u).toEnvelope stamp sequence origin profileId sessionId

/-- The step is taken in, and added to the aggregates of its turn (the session's active one,
or one of its own), its session, its day and its scope. -/
def Accounted [Chrono] (l : UsageLedger) (u : Usage) (event : EventEnvelope) (sessionId : String)
    (at_ : DateTime) (egressId : Uuid) : Prop :=
  let context := l.activeTurns[sessionId]?
  ∃ l' mutation, l.ingestRuntimeEventDelta event egressId = (l', .ok mutation) ∧
    Booked u ((context.map (·.turnId)).getD event.eventId) l.turns l'.turns ∧
    Booked u sessionId l.sessions l'.sessions ∧
    Booked u (dayString at_) l.days l'.days ∧
    Booked u ((context.map (·.scopeKey)).getD ("session:" ++ sessionId)) l.scopes l'.scopes

/-! ### What the ledger reads -/

/-- The tokens the ledger finds in the payload of a step. -/
def seenTokens (u : Usage) : TokenUsage where
  input := u.inputTokens
  output := u.outputTokens
  reasoning := u.reasoningTokens
  total := satAdd (satAdd (satAdd (satAdd u.inputTokens u.outputTokens) u.reasoningTokens) 0) 0

/-- The record the ledger makes of a step. -/
def seenRecord (l : UsageLedger) (u : Usage) (event : EventEnvelope) (sessionId : String)
    (at_ : DateTime) : ProviderUsageRecord :=
  let context := l.activeTurns[sessionId]?
  { id := event.eventId
    at_ := at_
    dayUtc := dayString at_
    sessionId := sessionId
    turnId := (context.map (·.turnId)).getD event.eventId
    scopeKey := (context.map (·.scopeKey)).getD ("session:" ++ sessionId)
    providerId := context.bind (·.providerId)
    modelId := context.bind (·.modelId)
    tokens := seenTokens u
    cost := ⟨none, .unknown⟩ }

section

variable {l : UsageLedger} {u : Usage} {finish : FinishReason} {stamp : Stamp} {sequence : ℕ}
  {origin profileId sessionId : String} {at_ : DateTime} {egressId : Uuid}

theorem stepRecord_stepEnvelope :
    UsageLedger.stepRecord (stepEnvelope u finish stamp sequence origin profileId sessionId)
        (LlmEvent.responseStepCompleted finish u).payload l.activeTurns[sessionId]? at_
        (normalizeTokens u.toPayload) =
      seenRecord l u (stepEnvelope u finish stamp sequence origin profileId sessionId) sessionId
        at_ := by
  unfold UsageLedger.stepRecord seenRecord
  cases l.activeTurns[sessionId]? <;> rfl

theorem ingest_stepEnvelope [Chrono] (hat : Chrono.parseFromRfc3339 stamp.timestamp = some at_)
    (hvalid : l.validateSchema = .ok ()) (hfresh : stamp.eventId ∉ l.seenEventIds) :
    let event := stepEnvelope u finish stamp sequence origin profileId sessionId
    l.ingestRuntimeEventDelta event egressId =
      (l.recordStep (seenRecord l u event sessionId at_),
        .ok { fact := some (UsageLedger.providerFact (seenRecord l u event sessionId at_)) }) := by
  intro event
  have htime : event.timestamp = .ok at_ := by
    unfold EventEnvelope.timestamp
    rw [show event.wallClockTimestamp = stamp.timestamp from rfl, hat]
  unfold UsageLedger.ingestRuntimeEventDelta
  rw [hvalid, htime, ← stepRecord_stepEnvelope]
  exact if_neg hfresh

end

variable {u : Usage} {record : ProviderUsageRecord}

theorem booked_atKey {m : BTreeMap String UsageAggregate} {key : String} :
    Booked u key m (atKey m key (·.addUsage record)) ↔
      Adds u ((m[key]?).getD {}) (((m[key]?).getD {}).addUsage record) := by
  unfold Booked atKey
  rw [Lib.getElem?_insert_eq, if_pos rfl, Option.getD_some]
  refine and_iff_left fun other hne => ?_
  rw [Lib.getElem?_insert_eq, if_neg hne]

/-- The ledger's own total is the provider's when nothing was cached, and the reasoning
tokens, which it counts beside the output that holds them, make no difference. -/
theorem seenTokens_total (hread : u.cacheReadInputTokens = 0)
    (hwrite : u.cacheCreationInputTokens = 0) :
    (seenTokens u).total = u.totalTokens ↔
      u.reasoningTokens = 0 ∨ 2 ^ 64 - 1 ≤ u.inputTokens + u.outputTokens := by
  unfold seenTokens Usage.totalTokens Usage.totalInputTokens satAdd
  rw [hread, hwrite]
  simp only [Nat.add_zero]
  omega

/-- What the ledger has to be able to read of a usage. -/
structure Legible (u : Usage) : Prop where
  cacheRead : u.cacheReadInputTokens = 0
  cacheWrite : u.cacheCreationInputTokens = 0
  reasoning : u.reasoningTokens = 0 ∨ 2 ^ 64 - 1 ≤ u.inputTokens + u.outputTokens
  cost : u.costUsd = none

theorem Legible.adds (h : Legible u) (a : UsageAggregate) (htokens : record.tokens = seenTokens u) :
    Adds u a (a.addUsage record) := by
  have htotal := (seenTokens_total h.cacheRead h.cacheWrite).mpr h.reasoning
  refine ⟨?_, ?_, ?_, ?_, ?_, ?_, fun usd husd => ?_⟩
  all_goals try simp only [UsageAggregate.addUsage, TokenUsage.add, htokens]
  · rfl
  · rfl
  · rw [h.cacheRead]; rfl
  · rw [h.cacheWrite]; rfl
  · rfl
  · rw [htotal]
  · rw [h.cost] at husd
    cases husd

/-- The first step of a ledger already shows what the ledger cannot read. -/
theorem legible_of_adds (htokens : record.tokens = seenTokens u)
    (hcost : record.cost.microusd = none) (h : Adds u {} (UsageAggregate.addUsage {} record)) :
    Legible u := by
  have hread := h.cacheRead
  have hwrite := h.cacheWrite
  have htotal := h.total
  simp only [UsageAggregate.addUsage, TokenUsage.add, htokens, satAdd] at hread hwrite htotal
  have hread0 : u.cacheReadInputTokens = 0 := by
    simp only [seenTokens] at hread
    omega
  have hwrite0 : u.cacheCreationInputTokens = 0 := by
    simp only [seenTokens] at hwrite
    omega
  refine ⟨hread0, hwrite0, (seenTokens_total hread0 hwrite0).mp ?_, ?_⟩
  · have hle : (seenTokens u).total ≤ 2 ^ 64 - 1 := min_le_right _ _
    have hle' : u.totalTokens ≤ 2 ^ 64 - 1 := min_le_right _ _
    omega
  · cases hu : u.costUsd with
    | none => rfl
    | some usd =>
      obtain ⟨micros, -, -, hunknown⟩ := h.cost usd hu
      simp [UsageAggregate.addUsage, hcost, satAdd] at hunknown

/-- **Which native steps are accounted.**  Every ledger accounts a step as it should, exactly
when the step used no cache, reported no cost, and had no reasoning tokens, or so many others
that the total is at its bound. -/
theorem step_accounted [Chrono] {stamp : Stamp} {at_ : DateTime}
    (hat : Chrono.parseFromRfc3339 stamp.timestamp = some at_) (u : Usage) (finish : FinishReason)
    (sequence : ℕ) (origin profileId sessionId : String) (egressId : Uuid) :
    (∀ l : UsageLedger, l.validateSchema = .ok () → stamp.eventId ∉ l.seenEventIds →
      Accounted l u (stepEnvelope u finish stamp sequence origin profileId sessionId) sessionId at_
        egressId) ↔
    Legible u := by
  constructor
  · intro h
    have hempty : stamp.eventId ∉ ({} : UsageLedger).seenEventIds := by
      simp only [Finset.notMem_empty, not_false_eq_true]
    obtain ⟨l', mutation, hingest, -, hsession, -⟩ := h {} rfl hempty
    rw [ingest_stepEnvelope hat rfl hempty] at hingest
    obtain ⟨rfl, -⟩ := Prod.mk.inj hingest
    exact legible_of_adds rfl rfl (booked_atKey.mp hsession)
  · intro hu l hvalid hfresh
    exact ⟨_, _, ingest_stepEnvelope hat hvalid hfresh, booked_atKey.mpr (hu.adds _ rfl),
      booked_atKey.mpr (hu.adds _ rfl), booked_atKey.mpr (hu.adds _ rfl),
      booked_atKey.mpr (hu.adds _ rfl)⟩

section

/-- A clock that reads every time as it is written. -/
@[reducible] def plainTimes : Chrono := ⟨fun text => some ⟨text⟩⟩

attribute [local instance] plainTimes

/-- The id and the time of a first event. -/
def firstStamp : Stamp := ⟨"e1", "2026-01-01T00:00:00Z"⟩

theorem firstStamp_reads :
    Chrono.parseFromRfc3339 firstStamp.timestamp = some ⟨"2026-01-01T00:00:00Z"⟩ := rfl

/-- A step without cached tokens and cost. -/
theorem plain_step_accounted :
    (∀ l : UsageLedger, l.validateSchema = .ok () → firstStamp.eventId ∉ l.seenEventIds →
      Accounted l { inputTokens := 10, outputTokens := 20 }
        (stepEnvelope { inputTokens := 10, outputTokens := 20 } .stop firstStamp 1 "llm" "p" "s")
        "s" ⟨"2026-01-01T00:00:00Z"⟩ 0) ↔
    Legible { inputTokens := 10, outputTokens := 20 } :=
  step_accounted firstStamp_reads _ _ _ _ _ _ _

/-- A turn of 10 new and 1,000 cached prompt tokens that cost one cent. -/
def cachedUsage : Usage :=
  { inputTokens := 10, outputTokens := 20, cacheReadInputTokens := 1000, costUsd := some (1 / 100) }

/-- **Cached tokens and cost are lost.**  The empty ledger takes the step in, counts thirty
tokens and no cached one where the provider reported 1,030, and counts a step of unknown cost. -/
theorem cached_step_lost :
    let event := stepEnvelope cachedUsage .stop firstStamp 1 "llm" "p" "s"
    let after := ((({} : UsageLedger).ingestRuntimeEventDelta event 0).1.sessions["s"]?).getD {}
    cachedUsage.totalTokens = 1030 ∧ after.tokens.total = 30 ∧ after.tokens.cacheRead = 0 ∧
      after.reportedCostMicrousd = 0 ∧ after.unknownCostSteps = 1 ∧
      ¬ Accounted {} cachedUsage event "s" ⟨"2026-01-01T00:00:00Z"⟩ 0 := by
  intro event after
  refine ⟨rfl, by decide +kernel, by decide +kernel, by decide +kernel, by decide +kernel, ?_⟩
  rintro ⟨l', mutation, hingest, -, hsession, -⟩
  rw [ingest_stepEnvelope firstStamp_reads rfl (by decide +kernel)] at hingest
  obtain ⟨rfl, -⟩ := Prod.mk.inj hingest
  have hread := (legible_of_adds rfl rfl (booked_atKey.mp hsession)).cacheRead
  cases hread

end

end PersonalAgent.Llm
