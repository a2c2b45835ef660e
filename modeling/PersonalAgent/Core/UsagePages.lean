/-
# Pages of the accounting

`usage_page` of the profile (`crates/core/src/lib.rs`, lines 692 to 769) and of the store
(`crates/storage/src/lib.rs`, lines 431 to 499).  A page shows stored and legacy records
together, newest first by time and id.  The store is asked for its first
`offset + limit` rows, and its order is by day and row id: of one day, what arrived last
comes first.

The pages are those of one list exactly if, for every page, the stored records that belong on it
or before it are among the rows that are fetched for it (`Fetched`,
`pages_show_every_record_iff`); a page that is as long as the list needs nothing.  A row that
arrives late is in the place of a newer one on the first page and comes again on a later one,
while the newer one is on none (`late_row_is_shown_twice`).
-/

import PersonalAgent.Core.ProfileState
import PersonalAgent.Lib.OrdMap
import PersonalAgent.Lib.SortedPages

namespace PersonalAgent

open Lib List

open PersonalAgent.Core

namespace Storage

/-- Which rows a page is made of. -/
structure UsagePageQuery where
  limit : ℕ
  offset : ℕ
  lower : Option String := none
  upper : Option String := none
  provider : Option String := none
  model : Option String := none
  session : Option String := none
  source : Option String := none

structure StoredUsagePage where
  usageFacts : List UsageFact
  egress : List EgressRecord
  usageTotal : ℕ
  egressTotal : ℕ

/-- `?n IS NULL OR instr(lower(value), lower(?n)) > 0`. -/
def instrLower (value : String) (needle : Option String) : Bool :=
  needle.all fun needle => containsText (toAsciiLowercase value) (toAsciiLowercase needle)

def egressSourceText : EgressSource → String
  | .web => "web"
  | .mcp => "mcp"
  | .connector => "connector"

/-- The conditions on a provider row. -/
def UsageFactRow.selected (profileId : String) (query : UsagePageQuery) (row : UsageFactRow) :
    Bool :=
  row.profileId = profileId && row.fact.kind = .provider &&
    dayWithin query.lower query.upper row.fact.dayUtc &&
    instrLower (row.fact.providerId.getD "") query.provider &&
    instrLower (row.fact.modelId.getD "") query.model &&
    instrLower row.fact.sessionId query.session

/-- The conditions on a transfer. -/
def EgressRow.selected (profileId : String) (query : UsagePageQuery) (row : EgressRow) : Bool :=
  row.profileId = profileId &&
    dayWithin query.lower query.upper (dayString row.record.at_) &&
    instrLower (row.record.sessionId.getD "") query.session &&
    query.source.all fun source =>
      toAsciiLowercase (egressSourceText row.record.source) = toAsciiLowercase source

/-- `ORDER BY day DESC, rowid DESC`; the table lists its rows by row id. -/
def byDayThenRow {α : Type} (day : α → String) (rows : List α) : List α :=
  stableSort (fun a b => day b ≤ day a) rows.reverse

/-- `i64::try_from(n).unwrap_or(i64::MAX)`. -/
def sqlLimit (n : ℕ) : ℕ := if n < 2 ^ 63 then n else 2 ^ 63 - 1

/-- `LIMIT limit OFFSET offset`. -/
def sqlSlice {α : Type} (limit offset : ℕ) (rows : List α) : List α :=
  (rows.drop (sqlLimit offset)).take (sqlLimit limit)

/-- One newest-first detail page and the filtered row counts. -/
def EventStore.usagePage {P : Type} (s : EventStore P) (profileId : String)
    (query : UsagePageQuery) : StoredUsagePage :=
  let usage := (s.providerUsage.filter (·.selected profileId query)).map (·.fact)
  let egress := (s.egress.filter (·.selected profileId query)).map (·.record)
  { usageFacts := sqlSlice query.limit query.offset (byDayThenRow (·.dayUtc) usage)
    egress := sqlSlice query.limit query.offset (byDayThenRow (dayString ·.at_) egress)
    usageTotal := usage.length
    egressTotal := egress.length }

end Storage

namespace Core

open Storage

/-! ### The page of a profile -/

/-- The record of a stored provider step. -/
def UsageFact.intoProviderRecord (fact : UsageFact) : Except UsageError ProviderUsageRecord :=
  if fact.kind ≠ .provider then .error .invalidStoredFact
  else
    match fact.tokens, fact.cost with
    | some tokens, some cost => .ok {
        id := fact.eventId
        at_ := fact.at_
        dayUtc := fact.dayUtc
        sessionId := fact.sessionId
        turnId := fact.turnId
        scopeKey := fact.scopeKey
        providerId := fact.providerId
        modelId := fact.modelId
        tokens
        cost }
    | _, _ => .error .invalidStoredFact

def optionalContains (value needle : Option String) : Bool :=
  needle.all fun needle => value.any fun value =>
    containsText (toAsciiLowercase value) (toAsciiLowercase needle)

def legacyUsageMatches (query : UsagePageQuery) (record : ProviderUsageRecord) : Bool :=
  dayWithin query.lower query.upper record.dayUtc &&
    optionalContains record.providerId query.provider &&
    optionalContains record.modelId query.model &&
    optionalContains (some record.sessionId) query.session

def legacyEgressMatches (query : UsagePageQuery) (record : EgressRecord) : Bool :=
  dayWithin query.lower query.upper (dayString record.at_) &&
    optionalContains record.sessionId query.session &&
    query.source.all fun source =>
      toAsciiLowercase (egressSourceText record.source) = toAsciiLowercase source

namespace UsageLedger

def aggregateSnapshot (l : UsageLedger) : UsageLedger where
  schemaVersion := l.schemaVersion
  turns := l.turns
  sessions := l.sessions
  days := l.days
  scopes := l.scopes

/-- The aggregates of the records kept of a range of days; those of the days themselves
are never lost. -/
def aggregatesInRange (l : UsageLedger) (lower upper : Option String) : UsageLedger :=
  if lower.isNone && upper.isNone then l.aggregateSnapshot
  else
    let steps := (l.records.filter fun record => dayWithin lower upper record.dayUtc).foldl
      (fun (filtered : UsageLedger) record =>
        filtered.atKeys record.turnId record.sessionId record.dayUtc record.scopeKey
          (·.addUsage record)) {}
    let filtered := (l.egress.filter fun record =>
        dayWithin lower upper (dayString record.at_)).foldl
      (fun (filtered : UsageLedger) record => { filtered with
        days := atKey filtered.days (dayString record.at_) (·.addEgress record)
        sessions := match record.sessionId with
          | some session => atKey filtered.sessions session (·.addEgress record)
          | none => filtered.sessions
        scopes := match record.scopeKey with
          | some scope => atKey filtered.scopes scope (·.addEgress record)
          | none => filtered.scopes }) steps
    { filtered with days := l.days.filter fun day _ => dayWithin lower upper day }

end UsageLedger

/-- A page, the totals it is part of, and what was asked for. -/
structure UsagePage where
  ledger : UsageLedger
  usageTotal : ℕ
  egressTotal : ℕ
  limit : ℕ
  offset : ℕ

section Pages

variable [Instants]

/-- Time and id of a record. -/
def ProviderUsageRecord.newness (record : ProviderUsageRecord) : ℤ ×ₗ String :=
  toLex (Instants.nanos record.at_, record.id)

def EgressRecord.newness (record : EgressRecord) : ℤ ×ₗ Uuid :=
  toLex (Instants.nanos record.at_, record.id)

/-- `sort_by(|left, right| right.cmp(left))`, by a key. -/
def newestFirst {α κ : Type} [LinearOrder κ] (key : α → κ) (rows : List α) : List α :=
  stableSort (fun left right => key right ≤ key left) rows

/-- `iter().skip(offset).take(limit)`. -/
def slice {α : Type} (limit offset : ℕ) (rows : List α) : List α := (rows.drop offset).take limit

/-- One bounded detail page, and the aggregates of the requested days. -/
def ProfileState.usagePage (p : ProfileState) (request : UsagePageQuery) :
    Except CoreError UsagePage := do
  let aggregates ←
    (p.store.usageAggregates p.profileId request.lower request.upper).mapError .storage
  let fetchLimit := satAdd request.offset request.limit
  let stored := p.store.usagePage p.profileId { request with limit := fetchLimit, offset := 0 }
  let ledger := (UsageLedger.fromStored aggregates []).mergeAggregatesFrom
    (p.legacyUsage.aggregatesInRange request.lower request.upper)
  let records ← (stored.usageFacts.mapM UsageFact.intoProviderRecord).mapError .usage
  let legacyRecords := p.legacyUsage.records.filter (legacyUsageMatches request)
  let legacyEgress := p.legacyUsage.egress.filter (legacyEgressMatches request)
  return {
    ledger := { ledger with
      records := slice request.limit request.offset
        (newestFirst (·.newness) (records ++ legacyRecords))
      egress := slice request.limit request.offset
        (newestFirst (·.newness) (stored.egress ++ legacyEgress)) }
    usageTotal := satAdd stored.usageTotal legacyRecords.length
    egressTotal := satAdd stored.egressTotal legacyEgress.length
    limit := request.limit
    offset := request.offset }

end Pages

/-! ### Orders -/

section Orders

variable {α κ : Type} [LinearOrder κ] {key : α → κ} {rows : List α}

/-- Newest first is by the key upside down. -/
theorem newestFirst_eq (key : α → κ) (rows : List α) : newestFirst key rows =
    stableSort (fun a b => OrderDual.toDual (key a) ≤ OrderDual.toDual (key b)) rows := rfl

/-- Of the newest `m` records, the stored ones are among the first `m` rows of the store. -/
def Fetched (key : α → κ) (stored legacy : List α) (m : ℕ) : Prop :=
  ∀ a ∈ (newestFirst key (stored ++ legacy)).take m, a ∈ stored → a ∈ stored.take m

/-- Nothing is missing once all rows are fetched. -/
theorem fetched_of_length_le {stored legacy : List α} {m : ℕ} (h : stored.length ≤ m) :
    Fetched key stored legacy m := by
  intro a _ ha
  rwa [take_of_length_le h]

/-- **When the pages are right.**  The pages show every record once, newest first, exactly if the
records up to the end of every page are fetched for it. -/
theorem shown_iff {stored legacy matching : List α} (hperm : (stored ++ legacy).Perm matching)
    (hkeys : (matching.map key).Nodup) (hsize : stored.length < 2 ^ 63) {limit n : ℕ}
    (hall : matching.length ≤ n * limit) :
    let shown := (List.range n).flatMap fun i => slice limit (i * limit) (newestFirst key
      (stored.take (sqlLimit (satAdd (i * limit) limit)) ++ legacy))
    (shown.Perm matching ∧ shown.Pairwise fun a b => key b ≤ key a) ↔
      ∀ i < n, Fetched key stored legacy (i * limit + limit) := by
  intro shown
  have hnodup : ((stored ++ legacy).map (OrderDual.toDual ∘ key)).Nodup := by
    rw [← map_map]
    exact ((hperm.map key).nodup_iff.mpr hkeys).map OrderDual.toDual.injective
  have htake (m : ℕ) : stored.take (sqlLimit (min m (2 ^ 64 - 1))) = stored.take m := by
    unfold sqlLimit
    by_cases hsmall : m < 2 ^ 63
    · rw [min_eq_left (by omega), if_pos hsmall]
    · rw [if_neg (by omega), take_of_length_le (by omega), take_of_length_le (by omega)]
  have hshown : shown = (List.range n).flatMap fun i => ((newestFirst key
      (stored.take (i * limit + limit) ++ legacy)).drop (i * limit)).take limit := by
    simp only [shown, slice, satAdd, htake]
  refine Iff.trans ?_ (pages_eq_iff hnodup (hperm.length_eq.trans_le hall))
  rw [hshown]
  have hsorted := strictSorted_stableSort (OrderDual.toDual ∘ key) hnodup
  constructor
  · rintro ⟨hpages, hle⟩
    refine eq_of_strictSorted (OrderDual.toDual ∘ key) ?_ hsorted fun a => ?_
    · refine (hle.and (pairwise_map.mp ((hpages.map key).nodup_iff.mpr hkeys))).imp ?_
      exact fun ⟨hle, hne⟩ => lt_of_le_of_ne (OrderDual.toDual_le_toDual.mpr hle) hne
    · exact hpages.mem_iff.trans (((stableSort_perm _).trans hperm).mem_iff).symm
  · intro heq
    refine ⟨heq ▸ (stableSort_perm _).trans hperm, ?_⟩
    exact heq ▸ hsorted.imp fun h => h.le

end Orders

/-! ### All pages -/

/-- The record of a provider fact that has its tokens and its cost. -/
def UsageFact.providerRecord (fact : UsageFact) : ProviderUsageRecord where
  id := fact.eventId
  at_ := fact.at_
  dayUtc := fact.dayUtc
  sessionId := fact.sessionId
  turnId := fact.turnId
  scopeKey := fact.scopeKey
  providerId := fact.providerId
  modelId := fact.modelId
  tokens := fact.tokens.getD {}
  cost := fact.cost.getD ⟨none, .unknown⟩

/-- Provider facts as the ledger writes them. -/
def UsageFact.Complete (fact : UsageFact) : Prop :=
  fact.kind = .provider → fact.tokens.isSome ∧ fact.cost.isSome

instance (fact : UsageFact) : Decidable fact.Complete :=
  inferInstanceAs (Decidable (_ → _))

theorem intoProviderRecord_ok {fact : UsageFact} (hkind : fact.kind = .provider)
    (hcomplete : fact.Complete) : fact.intoProviderRecord = .ok fact.providerRecord := by
  obtain ⟨tokens, htokens⟩ := Option.isSome_iff_exists.mp (hcomplete hkind).1
  obtain ⟨cost, hcost⟩ := Option.isSome_iff_exists.mp (hcomplete hkind).2
  simp [UsageFact.intoProviderRecord, UsageFact.providerRecord, hkind, htokens, hcost]

/-- The provider rows that a request selects, in the order of their arrival. -/
def selectedFacts (p : ProfileState) (request : UsagePageQuery) : List UsageFact :=
  (p.store.providerUsage.filter (·.selected p.profileId request)).map (·.fact)

def selectedEgress (p : ProfileState) (request : UsagePageQuery) : List EgressRecord :=
  (p.store.egress.filter (·.selected p.profileId request)).map (·.record)

/-- **Every matching provider record**, stored or legacy. -/
def matchingRecords (p : ProfileState) (request : UsagePageQuery) : List ProviderUsageRecord :=
  (selectedFacts p request).map (·.providerRecord) ++
    p.legacyUsage.records.filter (legacyUsageMatches request)

/-- **Every matching transfer**, stored or legacy. -/
def matchingEgress (p : ProfileState) (request : UsagePageQuery) : List EgressRecord :=
  selectedEgress p request ++ p.legacyUsage.egress.filter (legacyEgressMatches request)

/-- The first rows of the store, and how many there are. -/
theorem usagePage_stored (p : ProfileState) (request : UsagePageQuery) (limit : ℕ) :
    p.store.usagePage p.profileId { request with limit := limit, offset := 0 } = {
      usageFacts := (byDayThenRow (·.dayUtc) (selectedFacts p request)).take (sqlLimit limit)
      egress := (byDayThenRow (dayString ·.at_) (selectedEgress p request)).take (sqlLimit limit)
      usageTotal := (selectedFacts p request).length
      egressTotal := (selectedEgress p request).length } := rfl

theorem selectedFacts_length_le {p : ProfileState} {request : UsagePageQuery} :
    (selectedFacts p request).length ≤ p.store.providerUsage.length := by
  rw [selectedFacts, length_map]
  exact length_filter_le _ _

theorem selectedEgress_length_le {p : ProfileState} {request : UsagePageQuery} :
    (selectedEgress p request).length ≤ p.store.egress.length := by
  rw [selectedEgress, length_map]
  exact length_filter_le _ _

theorem byDayThenRow_perm {α : Type} (day : α → String) (rows : List α) :
    (byDayThenRow day rows).Perm rows :=
  (stableSort_perm _).trans rows.reverse_perm

/-! ### Sums that fit -/

/-- What is added up of the accounting facts. -/
def factColumns : List (UsageFact → ℕ) :=
  [fun _ => 1, fun fact => (fact.tokens.map (·.input)).getD 0,
    fun fact => (fact.tokens.map (·.output)).getD 0,
    fun fact => (fact.tokens.map (·.reasoning)).getD 0,
    fun fact => (fact.tokens.map (·.cacheRead)).getD 0,
    fun fact => (fact.tokens.map (·.cacheWrite)).getD 0,
    fun fact => (fact.tokens.map (·.total)).getD 0,
    fun fact => (fact.cost.bind (·.microusd)).getD 0]

/-- The sum of a part fits if that of the whole does. -/
theorem exists_sqlSum {α : Type} {rows part : List α} {column : α → ℕ}
    (h : (rows.map column).sum < 2 ^ 63) (hpart : part.Sublist rows) :
    ∃ sum, sqlSum (part.map column) = .ok sum :=
  ⟨_, if_pos (((hpart.map column).sum_le_sum fun _ _ => Nat.zero_le _).trans_lt h)⟩

theorem exists_bind_ok {ε α β : Type} {x : Except ε α} {f : α → Except ε β}
    (hx : ∃ a, x = .ok a) (hf : ∀ a, ∃ b, f a = .ok b) : ∃ b, (x >>= f) = .ok b := by
  obtain ⟨a, rfl⟩ := hx
  exact hf a

theorem exists_foldlM_ok {ε α β : Type} {f : β → α → Except ε β} {l : List α}
    (h : ∀ a ∈ l, ∀ b, ∃ b', f b a = .ok b') (b : β) : ∃ b', l.foldlM f b = .ok b' := by
  induction l generalizing b with
  | nil => exact ⟨b, rfl⟩
  | cons a l ih =>
    obtain ⟨ha, hl⟩ := forall_mem_cons.mp h
    rw [foldlM_cons]
    exact exists_bind_ok (ha b) (ih hl)

/-- A group is a part of the rows. -/
theorem groupBy_sublist {α : Type} {key : α → Option String} {rows : List α} {k : String}
    {group : List α} (h : (groupBy key rows)[k]? = some group) : group.Sublist rows := by
  induction rows using List.reverseRecOn generalizing k group with
  | nil => simp [groupBy] at h
  | append_singleton rows row ih =>
    rw [groupBy, foldl_append] at h
    change (match key row with
      | some k => (groupBy key rows).insert k (((groupBy key rows)[k]?).getD [] ++ [row])
      | none => groupBy key rows)[k]? = some group at h
    split at h
    · rename_i k' hk'
      rw [getElem?_insert_eq] at h
      split_ifs at h with hk
      · obtain rfl := Option.some.inj h
        refine List.Sublist.append ?_ (Sublist.refl _)
        cases hgroup : (groupBy key rows)[k']? with
        | none => exact nil_sublist _
        | some group => exact ih hgroup
      · exact (ih h).trans (sublist_append_left _ _)
    · exact (ih h).trans (sublist_append_left _ _)

theorem exists_usageAggregateOf {facts rows : List UsageFact}
    (hsums : ∀ column ∈ factColumns, (rows.map column).sum < 2 ^ 63) (hfacts : facts.Sublist rows) :
    ∃ aggregate, usageAggregateOf facts = .ok aggregate := by
  simp only [factColumns, forall_mem_cons] at hsums
  obtain ⟨hcount, hinput, houtput, hreasoning, hread, hwrite, htotal, hcost, -⟩ := hsums
  have hsteps := (@filter_sublist _ (·.kind = .provider) facts).trans hfacts
  refine exists_bind_ok (exists_sqlSum hcount hsteps) fun _ => ?_
  refine exists_bind_ok (exists_sqlSum hinput hsteps) fun _ => ?_
  refine exists_bind_ok (exists_sqlSum houtput hsteps) fun _ => ?_
  refine exists_bind_ok (exists_sqlSum hreasoning hsteps) fun _ => ?_
  refine exists_bind_ok (exists_sqlSum hread hsteps) fun _ => ?_
  refine exists_bind_ok (exists_sqlSum hwrite hsteps) fun _ => ?_
  refine exists_bind_ok (exists_sqlSum htotal hsteps) fun _ => ?_
  refine exists_bind_ok (exists_sqlSum hcost hsteps) fun _ => ?_
  refine exists_bind_ok (exists_sqlSum hcount (filter_sublist.trans hsteps)) fun _ => ?_
  exact exists_bind_ok (exists_sqlSum hcount (filter_sublist.trans hfacts)) fun _ => ⟨_, rfl⟩

theorem exists_groupedUsageFacts {rows : List UsageFactRow}
    (hsums : ∀ column ∈ factColumns, ((rows.map (·.fact)).map column).sum < 2 ^ 63)
    (profileId : String) (key : UsageFact → String) (lower upper : Option String) :
    ∃ aggregates, groupedUsageFacts rows profileId key lower upper = .ok aggregates := by
  refine exists_foldlM_ok (fun entry hentry _ => ?_) _
  have hgroup := groupBy_sublist (Std.ExtTreeMap.mem_toList_iff_getElem?_eq_some.mp hentry)
  refine exists_bind_ok (exists_usageAggregateOf hsums (hgroup.trans ?_)) fun _ => ⟨_, rfl⟩
  exact filter_sublist.trans (filter_sublist.map _)

theorem exists_mergeEgressAggregates {rows : List EgressRow}
    (hsum : (rows.map (·.sizeBytes.toNat)).sum < 2 ^ 63) (profileId : String)
    (key : EgressRecord → Option String) (lower upper : Option String)
    (target : BTreeMap String StoredUsageAggregate) :
    ∃ aggregates, mergeEgressAggregates rows profileId key lower upper target = .ok aggregates := by
  refine exists_foldlM_ok (fun entry hentry _ => ?_) _
  have hgroup := groupBy_sublist (Std.ExtTreeMap.mem_toList_iff_getElem?_eq_some.mp hentry)
  refine exists_bind_ok (exists_sqlSum hsum ?_) fun _ => ⟨_, rfl⟩
  exact filter_sublist.trans (hgroup.trans filter_sublist)

/-- No sum of the aggregates overflows if those of whole columns do not. -/
theorem exists_usageAggregates {P : Type} {s : EventStore P}
    (hfacts : ∀ column ∈ factColumns, ((s.providerUsage.map (·.fact)).map column).sum < 2 ^ 63)
    (hegress : (s.egress.map (·.sizeBytes.toNat)).sum < 2 ^ 63) (profileId : String)
    (lower upper : Option String) :
    ∃ aggregates, s.usageAggregates profileId lower upper = .ok aggregates := by
  have hgroups := exists_groupedUsageFacts hfacts profileId
  have hmerge := exists_mergeEgressAggregates hegress profileId
  refine exists_bind_ok (hgroups _ _ _) fun turns => ?_
  refine exists_bind_ok (hgroups _ _ _) fun sessions => ?_
  refine exists_bind_ok (hgroups _ _ _) fun days => ?_
  refine exists_bind_ok (hgroups _ _ _) fun scopes => ?_
  refine exists_bind_ok (hmerge _ _ _ days) fun days => ?_
  refine exists_bind_ok (hmerge _ _ _ sessions) fun sessions => ?_
  exact exists_bind_ok (hmerge _ _ _ scopes) fun scopes => ⟨_, rfl⟩

section AllPages

variable [Instants] {p : ProfileState} {request : UsagePageQuery}

/-- What the pages need of the tables: provider rows with their fields, fewer rows than there are
row ids, and sums of the columns that are `i64`. -/
structure Pageable (p : ProfileState) : Prop where
  complete : ∀ row ∈ p.store.providerUsage, row.fact.Complete
  usageSize : p.store.providerUsage.length < 2 ^ 63
  egressSize : p.store.egress.length < 2 ^ 63
  legacySize : p.legacyUsage.records.length < 2 ^ 63 ∧ p.legacyUsage.egress.length < 2 ^ 63
  factSums : ∀ column ∈ factColumns,
    ((p.store.providerUsage.map (·.fact)).map column).sum < 2 ^ 63
  egressSum : (p.store.egress.map (·.sizeBytes.toNat)).sum < 2 ^ 63

/-- The stored records of a request, in the order of the store. -/
def storedRecords (p : ProfileState) (request : UsagePageQuery) : List ProviderUsageRecord :=
  (byDayThenRow (·.dayUtc) (selectedFacts p request)).map (·.providerRecord)

def storedEgress (p : ProfileState) (request : UsagePageQuery) : List EgressRecord :=
  byDayThenRow (dayString ·.at_) (selectedEgress p request)

/-- **One page** is cut out of the first stored records and all legacy ones, and names how many
records there are. -/
theorem usagePage_slices (h : Pageable p) :
    ∃ page, p.usagePage request = .ok page ∧
      page.ledger.records = slice request.limit request.offset (newestFirst (·.newness)
        ((storedRecords p request).take (sqlLimit (satAdd request.offset request.limit)) ++
          p.legacyUsage.records.filter (legacyUsageMatches request))) ∧
      page.ledger.egress = slice request.limit request.offset (newestFirst (·.newness)
        ((storedEgress p request).take (sqlLimit (satAdd request.offset request.limit)) ++
          p.legacyUsage.egress.filter (legacyEgressMatches request))) ∧
      page.usageTotal = (matchingRecords p request).length ∧
      page.egressTotal = (matchingEgress p request).length := by
  have hrecords : ((byDayThenRow (·.dayUtc) (selectedFacts p request)).take
      (sqlLimit (satAdd request.offset request.limit))).mapM UsageFact.intoProviderRecord =
      .ok (((byDayThenRow (·.dayUtc) (selectedFacts p request)).take
        (sqlLimit (satAdd request.offset request.limit))).map (·.providerRecord)) := by
    refine mapM_ok fun fact hfact => ?_
    have hmem : fact ∈ selectedFacts p request :=
      (byDayThenRow_perm _ _).mem_iff.mp (mem_of_mem_take hfact)
    obtain ⟨row, hrow, rfl⟩ := mem_map.mp hmem
    obtain ⟨hstored, hselected⟩ := mem_filter.mp hrow
    unfold UsageFactRow.selected at hselected
    simp only [Bool.and_eq_true, decide_eq_true_eq] at hselected
    exact intoProviderRecord_ok hselected.1.1.1.1.2 (h.complete row hstored)
  obtain ⟨aggregates, haggregates⟩ := exists_usageAggregates h.factSums h.egressSum p.profileId
    request.lower request.upper
  have hbound {a b : ℕ} (ha : a < 2 ^ 63) (hb : b < 2 ^ 63) : satAdd a b = a + b := by
    unfold satAdd
    omega
  unfold ProfileState.usagePage
  rw [haggregates]
  dsimp only
  rw [usagePage_stored, hrecords, map_take]
  refine ⟨_, rfl, rfl, rfl, ?_, ?_⟩
  · dsimp only
    rw [matchingRecords, length_append, length_map]
    exact hbound (selectedFacts_length_le.trans_lt h.usageSize)
      ((length_filter_le _ _).trans_lt h.legacySize.1)
  · dsimp only
    rw [matchingEgress, length_append]
    exact hbound (selectedEgress_length_le.trans_lt h.egressSize)
      ((length_filter_le _ _).trans_lt h.legacySize.2)

/-- **When the pages show every matching record once, newest first.**  The pages at the offsets
0, L, 2L, ... up to the reported total, put together, are the matching records, stored and
legacy, sorted by time and id, exactly if for every page the stored ones among the newest records
up to its end are among as many first rows of the store; and the same for the transfers. -/
theorem pages_show_every_record_iff (h : Pageable p)
    (hrecords : ((matchingRecords p request).map (·.newness)).Nodup)
    (hegress : ((matchingEgress p request).map (·.newness)).Nodup) :
    ∃ page : ℕ → UsagePage,
      (∀ i, p.usagePage { request with offset := i * request.limit } = .ok (page i)) ∧
      (∀ i n, (page i).usageTotal ≤ n * request.limit →
        let shown := (List.range n).flatMap fun i => (page i).ledger.records
        (shown.Perm (matchingRecords p request) ∧
          shown.Pairwise fun a b => b.newness ≤ a.newness) ↔
        ∀ i < n, Fetched (·.newness) (storedRecords p request)
          (p.legacyUsage.records.filter (legacyUsageMatches request))
          (i * request.limit + request.limit)) ∧
      ∀ i n, (page i).egressTotal ≤ n * request.limit →
        let shown := (List.range n).flatMap fun i => (page i).ledger.egress
        (shown.Perm (matchingEgress p request) ∧
          shown.Pairwise fun a b => b.newness ≤ a.newness) ↔
        ∀ i < n, Fetched (·.newness) (storedEgress p request)
          (p.legacyUsage.egress.filter (legacyEgressMatches request))
          (i * request.limit + request.limit) := by
  choose page hpage hshown hsent husage htransfers using fun i =>
    @usagePage_slices _ _ { request with offset := i * request.limit } h
  refine ⟨page, hpage, fun i n hall => ?_, fun i n hall => ?_⟩
  · rw [husage i] at hall
    simp only [hshown]
    refine shown_iff (((byDayThenRow_perm _ _).map _).append_right _) hrecords ?_ hall
    rw [length_map, (byDayThenRow_perm _ _).length_eq]
    exact selectedFacts_length_le.trans_lt h.usageSize
  · rw [htransfers i] at hall
    simp only [hsent]
    refine shown_iff ((byDayThenRow_perm _ _).append_right _) hegress ?_ hall
    rw [(byDayThenRow_perm _ _).length_eq]
    exact selectedEgress_length_le.trans_lt h.egressSize

end AllPages

section Examples

/-- Times of whole seconds, by their digits. -/
@[reducible] def digitInstants : Instants :=
  ⟨fun time => (((time.rfc3339.toList.filter (·.isDigit)).foldl
    (fun n c => 10 * n + (c.toNat - 48)) 0 : ℕ) : ℤ)⟩

attribute [local instance] ProfileState.anyChrono digitInstants

/-- A provider step at the given hour of one day. -/
def stepAt (eventId hour : String) : EventEnvelope :=
  { ProfileState.runtimeEvent eventId "response.step_completed"
      (some (.object [("tokens", .object [("input", .u64 1)])])) with
    wallClockTimestamp := "2026-01-01T" ++ hour ++ ":00:00Z" }

/-- A profile after the steps, in the order of their arrival. -/
def afterSteps (steps : List EventEnvelope) : ProfileState :=
  steps.foldl (fun p event => (p.recordRuntimeEvent event 0 {}).1) { profileId := "default" }

/-- The ids on a page of one record, and the total it reports. -/
def pageIds (p : ProfileState) (offset : ℕ) : Except CoreError (List String × ℕ) :=
  (p.usagePage { limit := 1, offset := offset }).map fun page =>
    (page.ledger.records.map (·.id), page.usageTotal)

/-- **A late row is shown twice.**  The step of 9 o'clock arrives after the step of 10
o'clock.  It alone is fetched for the first page; for the second page both are, and the
sort puts it second.  The step of 10 o'clock is on neither page. -/
theorem late_row_is_shown_twice :
    let p := afterSteps [stepAt "ten" "10", stepAt "nine" "09"]
    pageIds p 0 = .ok (["nine"], 2) ∧ pageIds p 1 = .ok (["nine"], 2) := by
  decide +kernel

/-- The same rows on one page of two records: every one of them is fetched. -/
theorem pages_show_every_record_two :
    let p := afterSteps [stepAt "ten" "10", stepAt "nine" "09"]
    let request : UsagePageQuery := { limit := 2, offset := 0 }
    ∃ page, p.usagePage request = .ok page ∧
      page.ledger.records.Perm (matchingRecords p request) ∧
      page.ledger.records.Pairwise fun a b => b.newness ≤ a.newness := by
  intro p request
  obtain ⟨page, hpage, hshown, -⟩ := @pages_show_every_record_iff _ p request
    ⟨by decide +kernel, by decide +kernel, by decide +kernel, by decide +kernel,
      by decide +kernel, by decide +kernel⟩ (by decide +kernel) (by decide +kernel)
  have htotal : (p.usagePage request).map (·.usageTotal) = .ok 2 := by decide +kernel
  have hfetched : ∀ i < 1, Fetched (·.newness) (storedRecords p request)
      (p.legacyUsage.records.filter (legacyUsageMatches request)) (i * 2 + 2) := fun i _ =>
    fetched_of_length_le (le_add_left (by decide +kernel))
  rw [show p.usagePage request = .ok (page 0) from hpage 0] at htotal
  have h := (hshown 0 1 (Except.ok.inj htotal).le).mpr hfetched
  rw [show (List.range 1).flatMap (fun i => (page i).ledger.records) = (page 0).ledger.records
    from append_nil _] at h
  exact ⟨page 0, hpage 0, h⟩

end Examples

end Core
end PersonalAgent
