/-
# A budget once exceeded stays exceeded

`check_budget` of `crates/core/src/usage.rs` (lines 504 to 543) goes through the
resources of a scope in a fixed order: tokens, tool calls, and a cost ceiling that cannot
be verified once a step came without a cost, or is reached by the costs reported.  Which
branch answers may change as the scope is used; that one of them answers is a disjunction
(`exceeded_iff`), each part of which only asks whether a counter has reached a bound.

The counters saturate and are never taken back, whether a call succeeds or fails half
way (`ingestTool` counts the call before its transfer is refused), so a verdict of
exceeded survives every further call and every tightening of the limits
(`exceeded_persists`).
-/

import PersonalAgent.Core.Accounting

namespace PersonalAgent.Core

open Lib

/-- The limits of one scope, in the source's integer types. -/
structure BudgetLimits where
  tokens : Option UInt64 := none
  costMicrousd : Option UInt64 := none
  toolCalls : Option UInt32 := none
  deriving DecidableEq

inductive BudgetResource where
  | tokens
  | costMicrousd
  | toolCalls
  deriving DecidableEq, Repr

inductive BudgetState where
  | withinLimits
  | exhausted (resource : BudgetResource) (used limit : ℕ)
  | costUnverifiable (unknownSteps limitMicrousd : ℕ)
  deriving DecidableEq, Repr

def BudgetState.exceeded : BudgetState → Bool
  | .withinLimits => false
  | _ => true

namespace UsageLedger

def scopeUsage (l : UsageLedger) (scopeKey : String) : UsageAggregate :=
  (l.scopes[scopeKey]?).getD {}

/-- The part of `check_budget` after the tokens and the tool calls. -/
def checkCost (usage : UsageAggregate) (limits : BudgetLimits) : BudgetState :=
  match limits.costMicrousd with
  | some limit =>
    if usage.unknownCostSteps > 0 then .costUnverifiable usage.unknownCostSteps limit.toNat
    else if usage.reportedCostMicrousd ≥ limit.toNat then
      .exhausted .costMicrousd usage.reportedCostMicrousd limit.toNat
    else .withinLimits
  | none => .withinLimits

/-- The part of `check_budget` after the tokens. -/
def checkToolCalls (usage : UsageAggregate) (limits : BudgetLimits) : BudgetState :=
  match limits.toolCalls with
  | some limit =>
    if usage.toolCalls ≥ limit.toNat then .exhausted .toolCalls usage.toolCalls limit.toNat
    else checkCost usage limits
  | none => checkCost usage limits

/-- Evaluate a durable scope after each normalized provider/tool event. -/
def checkBudget (l : UsageLedger) (scopeKey : String) (limits : BudgetLimits) : BudgetState :=
  let usage := l.scopeUsage scopeKey
  match limits.tokens with
  | some limit =>
    if usage.tokens.total ≥ limit.toNat then .exhausted .tokens usage.tokens.total limit.toNat
    else checkToolCalls usage limits
  | none => checkToolCalls usage limits

/-! ### The verdict as a disjunction -/

/-- One of the limits is reached, or the cost limit cannot be verified. -/
def Reached (usage : UsageAggregate) (limits : BudgetLimits) : Prop :=
  (∃ limit, limits.tokens = some limit ∧ limit.toNat ≤ usage.tokens.total) ∨
  (∃ limit, limits.toolCalls = some limit ∧ limit.toNat ≤ usage.toolCalls) ∨
  ∃ limit, limits.costMicrousd = some limit ∧
    (0 < usage.unknownCostSteps ∨ limit.toNat ≤ usage.reportedCostMicrousd)

theorem checkCost_exceeded_iff (usage : UsageAggregate) (limits : BudgetLimits) :
    (checkCost usage limits).exceeded = true ↔ ∃ limit, limits.costMicrousd = some limit ∧
      (0 < usage.unknownCostSteps ∨ limit.toNat ≤ usage.reportedCostMicrousd) := by
  unfold checkCost
  cases limits.costMicrousd with
  | none => simp [BudgetState.exceeded]
  | some limit =>
    dsimp only
    split_ifs with hunknown hcost
    · simp [BudgetState.exceeded, hunknown]
    · simp [BudgetState.exceeded, hcost]
    · simp [BudgetState.exceeded, hcost, hunknown]

theorem checkToolCalls_exceeded_iff (usage : UsageAggregate) (limits : BudgetLimits) :
    (checkToolCalls usage limits).exceeded = true ↔
      (∃ limit, limits.toolCalls = some limit ∧ limit.toNat ≤ usage.toolCalls) ∨
      ∃ limit, limits.costMicrousd = some limit ∧
        (0 < usage.unknownCostSteps ∨ limit.toNat ≤ usage.reportedCostMicrousd) := by
  rw [← checkCost_exceeded_iff]
  unfold checkToolCalls
  cases limits.toolCalls with
  | none => simp
  | some limit =>
    dsimp only
    split_ifs with hcalls
    · simp [BudgetState.exceeded, hcalls]
    · simp [hcalls]

/-- **Exceeded means that a limit is reached or cannot be verified**, whichever branch
answers. -/
theorem exceeded_iff (l : UsageLedger) (scopeKey : String) (limits : BudgetLimits) :
    (l.checkBudget scopeKey limits).exceeded = true ↔
      Reached (l.scopeUsage scopeKey) limits := by
  rw [Reached, ← checkToolCalls_exceeded_iff]
  unfold checkBudget
  cases limits.tokens with
  | none => simp
  | some limit =>
    dsimp only
    split_ifs with htokens
    · simp [BudgetState.exceeded, htokens]
    · simp [htokens]

/-! ### What moves the verdict only one way -/

/-- The counters of `b` are those of `a` or more, as far as a `u64` can tell. -/
structure Grown (a b : UsageAggregate) : Prop where
  tokens : min a.tokens.total (2 ^ 64 - 1) ≤ b.tokens.total
  toolCalls : min a.toolCalls (2 ^ 64 - 1) ≤ b.toolCalls
  unknownCost : min a.unknownCostSteps (2 ^ 64 - 1) ≤ b.unknownCostSteps
  reportedCost : min a.reportedCostMicrousd (2 ^ 64 - 1) ≤ b.reportedCostMicrousd

theorem Grown.refl (a : UsageAggregate) : Grown a a :=
  ⟨min_le_left _ _, min_le_left _ _, min_le_left _ _, min_le_left _ _⟩

theorem Grown.trans {a b c : UsageAggregate} (hab : Grown a b) (hbc : Grown b c) : Grown a c := by
  obtain ⟨h₁, h₂, h₃, h₄⟩ := hab
  obtain ⟨k₁, k₂, k₃, k₄⟩ := hbc
  exact ⟨by omega, by omega, by omega, by omega⟩

theorem min_le_satAdd (a b : ℕ) : min a (2 ^ 64 - 1) ≤ satAdd a b := by
  unfold satAdd
  omega

theorem grown_addUsage (a : UsageAggregate) (record : ProviderUsageRecord) :
    Grown a (a.addUsage record) := by
  refine ⟨min_le_satAdd _ _, min_le_left _ _, ?_, ?_⟩
  · dsimp only [UsageAggregate.addUsage]
    split_ifs
    · exact min_le_left _ _
    · exact min_le_satAdd _ _
  · dsimp only [UsageAggregate.addUsage]
    split
    · exact min_le_satAdd _ _
    · exact min_le_left _ _

theorem grown_addToolCall (a : UsageAggregate) : Grown a a.addToolCall :=
  ⟨min_le_left _ _, min_le_satAdd _ _, min_le_left _ _, min_le_left _ _⟩

theorem grown_addEgress (a : UsageAggregate) (record : EgressRecord) :
    Grown a (a.addEgress record) :=
  ⟨min_le_left _ _, min_le_left _ _, min_le_left _ _, min_le_left _ _⟩

/-- Each limit of `tight` is there where `limits` has one, and no higher. -/
structure Tightened (limits tight : BudgetLimits) : Prop where
  tokens : ∀ limit, limits.tokens = some limit → ∃ lower ≤ limit, tight.tokens = some lower
  costMicrousd : ∀ limit, limits.costMicrousd = some limit →
    ∃ lower ≤ limit, tight.costMicrousd = some lower
  toolCalls : ∀ limit, limits.toolCalls = some limit →
    ∃ lower ≤ limit, tight.toolCalls = some lower

theorem Reached.mono {a b : UsageAggregate} {limits tight : BudgetLimits}
    (h : Reached a limits) (hgrown : Grown a b) (htight : Tightened limits tight) :
    Reached b tight := by
  rcases h with ⟨limit, hlimit, hle⟩ | ⟨limit, hlimit, hle⟩ | ⟨limit, hlimit, hcost⟩
  · obtain ⟨lower, hlower, htokens⟩ := htight.tokens limit hlimit
    have hb := hgrown.tokens
    have hlow : lower.toNat ≤ limit.toNat := UInt64.le_iff_toNat_le.mp hlower
    have hmax := limit.toNat_lt
    exact .inl ⟨lower, htokens, by omega⟩
  · obtain ⟨lower, hlower, hcalls⟩ := htight.toolCalls limit hlimit
    have hb := hgrown.toolCalls
    have hlow : lower.toNat ≤ limit.toNat := UInt32.le_iff_toNat_le.mp hlower
    have hmax := limit.toNat_lt
    exact .inr (.inl ⟨lower, hcalls, by omega⟩)
  · obtain ⟨lower, hlower, hceiling⟩ := htight.costMicrousd limit hlimit
    have hlow : lower.toNat ≤ limit.toNat := UInt64.le_iff_toNat_le.mp hlower
    have hmax := limit.toNat_lt
    refine .inr (.inr ⟨lower, hceiling, hcost.imp (fun hunknown => ?_) fun hreported => ?_⟩)
    · have hb := hgrown.unknownCost
      omega
    · have hb := hgrown.reportedCost
      omega

/-! ### The calls -/

/-- The usage of `scopeKey` has grown from `l` to `l'`. -/
def Grows (scopeKey : String) (l l' : UsageLedger) : Prop :=
  Grown (l.scopeUsage scopeKey) (l'.scopeUsage scopeKey)

theorem grown_atKey {m : BTreeMap String UsageAggregate} {key : String}
    {update : UsageAggregate → UsageAggregate} (h : ∀ a, Grown a (update a)) (k : String) :
    Grown ((m[k]?).getD {}) (((atKey m key update)[k]?).getD {}) := by
  rw [atKey, getElem?_insert_eq]
  split_ifs with hk
  · subst hk
    exact h _
  · exact .refl _

theorem grows_atKeys (scopeKey : String) (l : UsageLedger) (turn session day scope : String)
    {update : UsageAggregate → UsageAggregate} (h : ∀ a, Grown a (update a)) :
    Grows scopeKey l (l.atKeys turn session day scope update) :=
  grown_atKey h scopeKey

theorem grows_recordEgress {scopeKey : String} {l l' : UsageLedger} {record : EgressRecord}
    (h : l.recordEgress record = .ok l') : Grows scopeKey l l' := by
  unfold recordEgress at h
  obtain ⟨⟨⟩, -, h⟩ := bind_ok_iff.mp h
  obtain ⟨⟨⟩, -, h⟩ := bind_ok_iff.mp h
  split_ifs at h with hseen
  · cases pure_ok_iff.mp h
    exact .refl _
  · cases pure_ok_iff.mp h
    rw [Grows, scopeUsage, scopeUsage]
    dsimp only
    split
    · exact grown_atKey (fun a => grown_addEgress a record) scopeKey
    · exact .refl _

/-- A tool call that is counted stays counted when its transfer is refused. -/
theorem grows_ingestTool (scopeKey : String) (l : UsageLedger) (event : EventEnvelope)
    (payload : Value) (at_ : DateTime) (egressId : Uuid) :
    Grows scopeKey l (l.ingestTool event payload at_ egressId).1 := by
  unfold ingestTool
  dsimp only
  generalize hcounted : l.addToolCall _ _ _ _ = counted
  have hgrown : Grows scopeKey l counted := by
    rw [← hcounted]
    exact grows_atKeys scopeKey l _ _ _ _ grown_addToolCall
  split
  · exact hgrown
  · rename_i l' hrecorded
    split at hrecorded
    · have hegress : Grows scopeKey counted l' := grows_recordEgress hrecorded
      exact hgrown.trans hegress
    · cases hrecorded
      exact hgrown

theorem grows_ingestStep (scopeKey : String) (l : UsageLedger) (event : EventEnvelope)
    (payload : Value) (at_ : DateTime) : Grows scopeKey l (l.ingestStep event payload at_).1 := by
  have hstep (record : ProviderUsageRecord) : Grows scopeKey l (l.recordStep record) :=
    grows_atKeys scopeKey l record.turnId record.sessionId record.dayUtc record.scopeKey
      fun a => grown_addUsage a record
  unfold ingestStep
  dsimp only
  split
  · exact hstep _
  · split_ifs
    · exact .refl _
    · exact hstep _

theorem grows_ingest [Chrono] (scopeKey : String) (l : UsageLedger) (event : EventEnvelope)
    (egressId : Uuid) : Grows scopeKey l (l.ingestRuntimeEventDelta event egressId).1 := by
  unfold ingestRuntimeEventDelta
  split
  · exact .refl _
  · by_cases hseen : event.eventId ∈ l.seenEventIds
    · rw [if_pos hseen]
      exact .refl _
    · rw [if_neg hseen]
      split
      · exact .refl _
      · exact .refl _
      · rename_i payload at_ _ _
        split_ifs
        · exact .refl _
        · exact grows_ingestTool scopeKey l event payload at_ egressId
        · exact .refl _
        · exact grows_ingestStep scopeKey l event payload at_

/-- One call on the ledger, with the id `Uuid::now_v7` draws for the transfer of a tool
call. -/
inductive LedgerCall where
  | ingestRuntimeEvent (event : EventEnvelope) (egressId : Uuid)
  | recordEgress (record : EgressRecord)

def called [Chrono] (l : UsageLedger) : LedgerCall → UsageLedger
  | .ingestRuntimeEvent event egressId => (l.ingestRuntimeEventDelta event egressId).1
  | .recordEgress record =>
    match l.recordEgress record with
    | .ok l' => l'
    | .error _ => l

theorem grows_called [Chrono] (scopeKey : String) (l : UsageLedger) (call : LedgerCall) :
    Grows scopeKey l (l.called call) := by
  cases call with
  | ingestRuntimeEvent event egressId => exact grows_ingest scopeKey l event egressId
  | recordEgress record =>
    rw [called]
    split
    · rename_i l' h
      exact grows_recordEgress h
    · exact .refl _

/-- **A budget once exceeded stays exceeded.**  For every ledger, scope and limits,
after any further calls, whether they return an error or not, and under any limits that
keep or lower those there were and may add others. -/
theorem exceeded_persists [Chrono] (l : UsageLedger) (scopeKey : String)
    (limits tight : BudgetLimits) (h : (l.checkBudget scopeKey limits).exceeded = true)
    (htight : Tightened limits tight) (calls : List LedgerCall) :
    ((run called l calls).checkBudget scopeKey tight).exceeded = true := by
  have hgrown : Grows scopeKey l (run called l calls) :=
    run_relates (fun _ => True) (Grows scopeKey) (fun _ => .refl _)
      (fun _ _ _ hab hbc => hab.trans hbc) (fun _ _ _ => trivial)
      (fun l call _ => grows_called scopeKey l call) calls trivial
  exact (exceeded_iff _ _ _).mpr (((exceeded_iff _ _ _).mp h).mono hgrown htight)

/-- A scope that has made one tool call. -/
def calledScope : UsageLedger :=
  { scopes := (∅ : BTreeMap String UsageAggregate).insert "goal:1" { toolCalls := 1 } }

/-- A limit of one call is reached, and stays so when a transfer is recorded and a token limit is
added. -/
theorem exceeded_persists_calls :
    let transfer : EgressRecord :=
      ⟨0, ⟨"2026-01-01T00:00:00Z"⟩, .web, "site", "get", "page", none, "read", none, some "goal:1"⟩
    letI := ProfileState.anyChrono
    ((run called calledScope [.recordEgress transfer]).checkBudget "goal:1"
      { toolCalls := some 1, tokens := some 5 }).exceeded = true :=
  @exceeded_persists ProfileState.anyChrono calledScope "goal:1" { toolCalls := some 1 }
    { toolCalls := some 1, tokens := some 5 } (by decide)
    ⟨fun _ h => (nomatch h), fun _ h => (nomatch h),
      fun limit h => ⟨limit, UInt32.le_refl limit, h⟩⟩ _

end UsageLedger
end PersonalAgent.Core
