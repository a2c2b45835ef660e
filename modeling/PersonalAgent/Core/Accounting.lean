/-
# The ledger and its rows

The accounting exists twice: as the ledger in memory, which every event and transfer
updates, and as rows of the store, from which `rebuildUsageFrom` groups it again.  Both
are compared with one definition: `UsageAggregate.plus` adds rows to an aggregate.
-/

import PersonalAgent.Core.ProfileState
import PersonalAgent.Lib.OrdMap
import PersonalAgent.Lib.Run

namespace PersonalAgent.Core

open Storage

/-! ### Adding rows to an aggregate -/

theorem satAdd_satAdd (a b c : ℕ) : satAdd (satAdd a b) c = satAdd a (b + c) := by
  unfold satAdd
  omega

theorem satAdd_zero_right {a : ℕ} (h : a < 2 ^ 64) : satAdd a 0 = a := by
  unfold satAdd
  omega

theorem satAdd_add_right (a b : ℕ) : satAdd a (satAdd 0 b) = satAdd a b := by
  unfold satAdd
  omega

theorem satAdd_eq_zero {a b : ℕ} : satAdd a b = 0 ↔ a = 0 ∧ b = 0 := by
  unfold satAdd
  omega

def stepsOf (facts : List UsageFact) : List UsageFact := facts.filter (·.kind = .provider)

def tokenSum (column : TokenUsage → ℕ) (steps : List UsageFact) : ℕ :=
  (steps.map fun fact => (fact.tokens.map column).getD 0).sum

def costSum (steps : List UsageFact) : ℕ :=
  (steps.map fun fact => (fact.cost.bind (·.microusd)).getD 0).sum

def unpriced (steps : List UsageFact) : List UsageFact :=
  steps.filter fun fact => (fact.cost.bind (·.microusd)).isNone

def toolCallsOf (facts : List UsageFact) : List UsageFact := facts.filter (·.kind = .toolCall)

def allReported (steps : List UsageFact) : Bool :=
  steps.all fun fact => (fact.tokens.map (·.totalWasReported)).getD false

def knownBytes (egress : List EgressRecord) : ℕ := (egress.map (·.sizeBytes.getD 0)).sum

theorem toFinset_filterMap_singleton {α : Type} (f : α → Option String) (a : α) :
    ([a].filterMap f).toFinset = (f a).toFinset := by
  cases h : f a <;> simp [h]

namespace UsageAggregate

def plus (a : UsageAggregate) (facts : List UsageFact) (egress : List EgressRecord) :
    UsageAggregate where
  providerSteps := satAdd a.providerSteps (stepsOf facts).length
  tokens := {
    input := satAdd a.tokens.input (tokenSum (·.input) (stepsOf facts))
    output := satAdd a.tokens.output (tokenSum (·.output) (stepsOf facts))
    reasoning := satAdd a.tokens.reasoning (tokenSum (·.reasoning) (stepsOf facts))
    cacheRead := satAdd a.tokens.cacheRead (tokenSum (·.cacheRead) (stepsOf facts))
    cacheWrite := satAdd a.tokens.cacheWrite (tokenSum (·.cacheWrite) (stepsOf facts))
    total := satAdd a.tokens.total (tokenSum (·.total) (stepsOf facts))
    totalWasReported :=
      if (stepsOf facts).isEmpty then a.tokens.totalWasReported
      else (a.providerSteps = 0 || a.tokens.totalWasReported) && allReported (stepsOf facts) }
  reportedCostMicrousd := satAdd a.reportedCostMicrousd (costSum (stepsOf facts))
  unknownCostSteps := satAdd a.unknownCostSteps (unpriced (stepsOf facts)).length
  toolCalls := satAdd a.toolCalls (toolCallsOf facts).length
  egressEvents := satAdd a.egressEvents egress.length
  knownEgressBytes := satAdd a.knownEgressBytes (knownBytes egress)
  unknownEgressSizes := satAdd a.unknownEgressSizes (egress.filter (·.sizeBytes.isNone)).length
  providers := a.providers ∪ ((stepsOf facts).filterMap (·.providerId)).toFinset
  models := a.models ∪ ((stepsOf facts).filterMap (·.modelId)).toFinset

/-- All numbers of an aggregate. -/
def counters (a : UsageAggregate) : List ℕ :=
  [a.providerSteps, a.tokens.input, a.tokens.output, a.tokens.reasoning, a.tokens.cacheRead,
    a.tokens.cacheWrite, a.tokens.total, a.reportedCostMicrousd, a.unknownCostSteps, a.toolCalls,
    a.egressEvents, a.knownEgressBytes, a.unknownEgressSizes]

/-- Counters are `u64`, and a total is reported by a provider step only. -/
structure Valid (a : UsageAggregate) : Prop where
  counters : ∀ n ∈ a.counters, n < 2 ^ 64
  reported : a.providerSteps = 0 → a.tokens.totalWasReported = false

theorem valid_empty : Valid {} := ⟨by decide, fun _ => rfl⟩

theorem plus_nil {a : UsageAggregate} (h : a.Valid) : a.plus [] [] = a := by
  have hzero (n : ℕ) (hn : n ∈ a.counters) : satAdd n 0 = n := satAdd_zero_right (h.counters n hn)
  simp only [counters, List.forall_mem_cons] at hzero
  simp [plus, stepsOf, tokenSum, costSum, unpriced, toolCallsOf, knownBytes, hzero]

/-- **One more provider step.** -/
theorem addUsage_plus (a : UsageAggregate) (facts : List UsageFact) (egress : List EgressRecord)
    (record : ProviderUsageRecord) :
    (a.plus facts egress).addUsage record =
      a.plus (facts ++ [UsageLedger.providerFact record]) egress := by
  have hsteps : stepsOf (facts ++ [UsageLedger.providerFact record]) =
      stepsOf facts ++ [UsageLedger.providerFact record] := by
    rw [stepsOf, List.filter_append]
    rfl
  have htools : toolCallsOf (facts ++ [UsageLedger.providerFact record]) = toolCallsOf facts := by
    rw [toolCallsOf, List.filter_append]
    exact List.append_nil _
  unfold plus addUsage
  rw [hsteps, htools]
  -- whether this is the first step decides what becomes of the reported total
  by_cases hfirst : stepsOf facts = [] <;> by_cases hbase : a.providerSteps = 0 <;>
    cases hmicros : record.cost.microusd <;>
    simp [UsageLedger.providerFact, TokenUsage.add, satAdd_satAdd, tokenSum, costSum, unpriced,
      allReported, hmicros, satAdd_eq_zero, hfirst, hbase, toFinset_filterMap_singleton,
      Bool.and_assoc]

/-- **One more tool call.** -/
theorem addToolCall_plus (a : UsageAggregate) (facts : List UsageFact)
    (egress : List EgressRecord) {fact : UsageFact} (hfact : fact.kind = .toolCall) :
    (a.plus facts egress).addToolCall = a.plus (facts ++ [fact]) egress := by
  have hsteps : stepsOf (facts ++ [fact]) = stepsOf facts := by
    simp [stepsOf, hfact]
  simp [plus, addToolCall, hsteps, toolCallsOf, hfact, satAdd_satAdd]

/-- **One more transfer.** -/
theorem addEgress_plus (a : UsageAggregate) (facts : List UsageFact) (egress : List EgressRecord)
    (record : EgressRecord) :
    (a.plus facts egress).addEgress record = a.plus facts (egress ++ [record]) := by
  cases hsize : record.sizeBytes <;>
    simp [plus, addEgress, hsize, knownBytes, satAdd_satAdd]

/-- Merging rows that were added up apart. -/
theorem merge_plus {a : UsageAggregate} (h : a.Valid) (facts : List UsageFact)
    (egress : List EgressRecord) :
    a.merge (plus {} facts egress) = a.plus facts egress := by
  have hsteps : 0 < satAdd 0 (stepsOf facts).length ↔ stepsOf facts ≠ [] := by
    rw [Nat.pos_iff_ne_zero, ne_eq, satAdd_eq_zero]
    simp
  unfold merge plus
  by_cases hnew : stepsOf facts = [] <;> by_cases hold : a.providerSteps = 0 <;>
    simp [TokenUsage.add, satAdd_add_right, satAdd_eq_zero, hsteps, hnew, hold, h.reported,
      Nat.pos_iff_ne_zero]

end UsageAggregate

end PersonalAgent.Core
