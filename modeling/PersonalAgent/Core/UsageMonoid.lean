/-
# Aggregates add up in any order

`UsageAggregate` is kept twice and put together again: the frozen ledger of an older
format, and the aggregates of the rows written since (`merge_append_only`).  That this
gives what one ledger would have held is an algebraic fact about `merge`: it is
associative and commutative, saturation at `u64::MAX` included, and folding records into
an aggregate is merging it with the aggregates of the single records
(`record_eq_merge`).  So aggregates of records are the values of a homomorphism from
multisets of records (`merge_collected`).

The default aggregate is neutral for what folding can make (`Valid`), not for every
value of the type: the flag `total_was_reported` has no meaning without a provider step,
and `merge` drops it (`merge_default_drops_flag`).
-/

import PersonalAgent.Core.Accounting

namespace PersonalAgent.Core

open UsageAggregate

open List

theorem satAdd_assoc (a b c : ℕ) : satAdd (satAdd a b) c = satAdd a (satAdd b c) := by
  unfold satAdd
  omega

theorem satAdd_comm (a b : ℕ) : satAdd a b = satAdd b a := by
  unfold satAdd
  omega

theorem satAdd_lt (a b : ℕ) : satAdd a b < 2 ^ 64 := by
  unfold satAdd
  omega

theorem satAdd_pos {a b : ℕ} : 0 < satAdd a b ↔ 0 < a ∨ 0 < b := by
  unfold satAdd
  omega

namespace UsageAggregate

/-! ### Merging -/

theorem merge_assoc (a b c : UsageAggregate) : (a.merge b).merge c = a.merge (b.merge c) := by
  -- the flag is a conjunction over the sides that have a provider step
  by_cases ha : 0 < a.providerSteps <;> by_cases hb : 0 < b.providerSteps <;>
    by_cases hc : 0 < c.providerSteps <;>
    simp [merge, TokenUsage.add, satAdd_assoc, satAdd_pos, ha, hb, hc, Bool.and_assoc]

theorem merge_comm (a b : UsageAggregate) : a.merge b = b.merge a := by
  by_cases ha : 0 < a.providerSteps <;> by_cases hb : 0 < b.providerSteps <;>
    simp [merge, TokenUsage.add, satAdd_comm, Finset.union_comm, ha, hb, Bool.and_comm]

/-- The default aggregate is neutral where the flag means something. -/
theorem merge_default {a : UsageAggregate} (h : a.Valid) : a.merge {} = a := by
  have hplus := merge_plus h [] []
  rwa [plus_nil h, plus_nil valid_empty] at hplus

theorem Valid.merge (a b : UsageAggregate) : (a.merge b).Valid := by
  refine ⟨?_, fun hzero => ?_⟩
  · simp only [UsageAggregate.counters, UsageAggregate.merge, TokenUsage.add,
      forall_mem_cons, satAdd_lt, not_mem_nil, IsEmpty.forall_iff, implies_true, and_self]
  · obtain ⟨ha, hb⟩ := satAdd_eq_zero.mp hzero
    simp [UsageAggregate.merge, ha, hb]

end UsageAggregate

/-- Aggregates as folding makes them. -/
def Totals : Type := { a : UsageAggregate // a.Valid }

instance : Add Totals := ⟨fun a b => ⟨a.1.merge b.1, .merge a.1 b.1⟩⟩

instance : Zero Totals := ⟨⟨{}, valid_empty⟩⟩

/-- **Aggregates are a commutative monoid** under `merge`. -/
instance : AddCommMonoid Totals where
  add_assoc a b c := Subtype.ext (merge_assoc a.1 b.1 c.1)
  add_comm a b := Subtype.ext (merge_comm a.1 b.1)
  zero_add a := Subtype.ext
    ((merge_comm _ _).trans (merge_default a.2))
  add_zero a := Subtype.ext (merge_default a.2)
  nsmul := nsmulRec

/-! ### Folding -/

/-- What an aggregate is folded from. -/
inductive Booking where
  | step (record : ProviderUsageRecord)
  | toolCall
  | egress (record : EgressRecord)

namespace Booking

/-- The increment the ledger makes for one booking. -/
def record (a : UsageAggregate) : Booking → UsageAggregate
  | .step record => a.addUsage record
  | .toolCall => a.addToolCall
  | .egress record => a.addEgress record

def single (booking : Booking) : UsageAggregate := record {} booking

/-- The aggregate of some bookings. -/
def collected (bookings : List Booking) : UsageAggregate := bookings.foldl record {}

/-- The fact of a tool call, as far as an aggregate reads it. -/
def callFact : UsageFact := ⟨.toolCall, "", ⟨""⟩, "", "", "", "", none, none, none, none⟩

def rows : Booking → List UsageFact × List EgressRecord
  | .step record => ([UsageLedger.providerFact record], [])
  | .toolCall => ([callFact], [])
  | .egress record => ([], [record])

theorem record_eq_plus {a : UsageAggregate} (h : a.Valid) (booking : Booking) :
    record a booking = a.plus booking.rows.1 booking.rows.2 := by
  have hnil := plus_nil h
  cases booking with
  | step r =>
    have hadd := addUsage_plus a [] [] r
    rwa [hnil] at hadd
  | toolCall =>
    have hadd := @UsageAggregate.addToolCall_plus a [] [] callFact rfl
    rwa [hnil] at hadd
  | egress r =>
    have hadd := addEgress_plus a [] [] r
    rwa [hnil] at hadd

/-- **Folding is merging**: one more booking is the merge with its own aggregate. -/
theorem record_eq_merge {a : UsageAggregate} (h : a.Valid) (booking : Booking) :
    record a booking = a.merge booking.single := by
  rw [single, record_eq_plus h, record_eq_plus valid_empty,
    merge_plus h]

theorem valid_record {a : UsageAggregate} (h : a.Valid) (booking : Booking) :
    (record a booking).Valid := by
  rw [record_eq_merge h]
  exact .merge _ _

/-- The aggregate of one booking, as an element of the monoid. -/
def total (booking : Booking) : Totals :=
  ⟨booking.single, valid_record valid_empty booking⟩

/-- The fold is a sum in the monoid. -/
theorem foldl_record (bookings : List Booking) (a : Totals) :
    bookings.foldl record a.1 = (a + (bookings.map total).sum).1 := by
  induction bookings generalizing a with
  | nil =>
    rw [map_nil, sum_nil, add_zero]
    rfl
  | cons booking bookings ih =>
    have hstep : record a.1 booking = (a + total booking).1 := record_eq_merge a.2 booking
    rw [foldl_cons, hstep, ih, map_cons, sum_cons, add_assoc]

theorem collected_eq_sum (bookings : List Booking) :
    collected bookings = ((bookings.map total).sum).1 := by
  have h := foldl_record bookings 0
  rwa [zero_add] at h

/-- **Aggregates of a split stream merge to the aggregate of the stream.**  However the
bookings `xs` and `ys` interleave, folding them is merging the two aggregates; `merge` is
associative and commutative on all aggregates, and the default is neutral for every
aggregate whose counters are `u64`s and which reports a total only with a provider
step, as all that are folded do. -/
theorem merge_collected :
    (∀ xs ys zs : List Booking, zs.Perm (xs ++ ys) →
      (collected xs).merge (collected ys) = collected zs) ∧
    (∀ a b c : UsageAggregate, (a.merge b).merge c = a.merge (b.merge c)) ∧
    (∀ a b : UsageAggregate, a.merge b = b.merge a) ∧
    (∀ a : UsageAggregate, (∀ n ∈ a.counters, n < 2 ^ 64) →
      (a.providerSteps = 0 → a.tokens.totalWasReported = false) →
      a.merge {} = a ∧ merge {} a = a) ∧
    ∀ xs : List Booking, (collected xs).providerSteps = 0 →
      (collected xs).tokens.totalWasReported = false := by
  refine ⟨fun xs ys zs hperm => ?_, merge_assoc, merge_comm,
    fun a hrange hflag => ?_, fun xs => ?_⟩
  · have hsum : (zs.map total).sum = (xs.map total).sum + (ys.map total).sum := by
      rw [(hperm.map total).sum_eq, map_append, sum_append]
    rw [collected_eq_sum xs, collected_eq_sum ys, collected_eq_sum zs, hsum]
    rfl
  · have hneutral := merge_default ⟨hrange, hflag⟩
    exact ⟨hneutral, (merge_comm _ _).trans hneutral⟩
  · rw [collected_eq_sum]
    exact ((xs.map total).sum).2.reported

/-- A provider step of closed runs that reports its total. -/
def reportedStep : ProviderUsageRecord where
  id := "step"
  at_ := ⟨"2026-01-01T00:00:00Z"⟩
  dayUtc := "2026-01-01"
  sessionId := "session"
  turnId := "turn"
  scopeKey := "session:session"
  providerId := some "provider"
  modelId := none
  tokens := { input := 2, total := 2, totalWasReported := true }
  cost := ⟨none, .unknown⟩

/-- A step and a tool call, in either order. -/
theorem merge_collected_pair :
    (collected [.step reportedStep]).merge (collected [.toolCall]) =
      collected [.toolCall, .step reportedStep] ∧
    (collected [.toolCall]).merge {} = collected [.toolCall] :=
  ⟨merge_collected.1 _ _ _ (List.Perm.swap _ _ _),
    (merge_collected.2.2.2.1 _ (by decide) (by decide)).1⟩

/-- **The default aggregate is not neutral for every value of the type**: an aggregate
without a provider step that carries the flag loses it. -/
theorem merge_default_drops_flag :
    let flagged : UsageAggregate := { tokens := { totalWasReported := true } }
    flagged.merge {} ≠ flagged := by decide

end Booking
end PersonalAgent.Core
