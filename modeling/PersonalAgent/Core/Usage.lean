/-
# The usage ledger

`crates/core/src/usage.rs`: provider steps, tool calls and outbound transfers, added up
per turn, session, day and scope.  `ingestRuntimeEventDelta` reads one runtime event
into the ledger and says which rows the store has to append for it; it takes
`&mut self` and can fail after it has written (a tool call is counted before its
outbound transfer is checked), so the model returns the ledger with the result.

Counters are `u64` and saturate.  The id of the transfer that a tool call makes is
drawn by `Uuid::now_v7` and is an argument here.
-/

import PersonalAgent.Contracts.Event

namespace PersonalAgent.Core

/-- `u64::saturating_add`. -/
def satAdd (a b : ℕ) : ℕ := min (a + b) (2 ^ 64 - 1)

/-! ### Text -/

/-- `char::is_whitespace`. -/
def isWhitespace (c : Char) : Bool :=
  (9 ≤ c.toNat && c.toNat ≤ 13) || (8192 ≤ c.toNat && c.toNat ≤ 8202) ||
    [32, 133, 160, 5760, 8232, 8233, 8239, 8287, 12288].contains c.toNat

/-- `str::trim`. -/
def trim (s : String) : String :=
  String.ofList ((s.toList.dropWhile isWhitespace).reverse.dropWhile isWhitespace).reverse

/-- `str::to_ascii_lowercase`. -/
def toAsciiLowercase (s : String) : String :=
  String.ofList (s.toList.map fun c =>
    if 65 ≤ c.toNat && c.toNat ≤ 90 then Char.ofNat (c.toNat + 32) else c)

/-- `str::contains`. -/
def containsText (s needle : String) : Bool :=
  s.toList.tails.any fun rest => needle.toList.isPrefixOf rest

/-- `str::strip_prefix`. -/
def stripped (lead s : String) : Option String :=
  if lead.toList.isPrefixOf s.toList then some (String.ofList (s.toList.drop lead.length)) else none

/-! ### Records -/

/-- Token categories reported by the provider. -/
structure TokenUsage where
  input : ℕ := 0
  output : ℕ := 0
  reasoning : ℕ := 0
  cacheRead : ℕ := 0
  cacheWrite : ℕ := 0
  total : ℕ := 0
  totalWasReported : Bool := false
  deriving DecidableEq, Repr

inductive CostStatus where
  | providerReported
  | unknown
  deriving DecidableEq, Repr

/-- Cost is never estimated; `none` means the provider did not report a usable one. -/
structure ReportedCost where
  microusd : Option ℕ
  status : CostStatus
  deriving DecidableEq, Repr

/-- One provider step. -/
structure ProviderUsageRecord where
  id : String
  at_ : DateTime
  dayUtc : String
  sessionId : String
  turnId : String
  scopeKey : String
  providerId : Option String
  modelId : Option String
  tokens : TokenUsage
  cost : ReportedCost
  deriving DecidableEq, Repr

inductive EgressSource where
  | web
  | mcp
  | connector
  deriving DecidableEq, Repr

/-- Content-free outbound transfer record; unknown byte counts remain `none`. -/
structure EgressRecord where
  id : Uuid
  at_ : DateTime
  source : EgressSource
  destination : String
  operation : String
  dataClass : String
  sizeBytes : Option ℕ
  purpose : String
  sessionId : Option String
  scopeKey : Option String
  deriving DecidableEq, Repr

/-- Additive aggregate kept for every turn, session, UTC day, and durable scope. -/
structure UsageAggregate where
  providerSteps : ℕ := 0
  tokens : TokenUsage := {}
  reportedCostMicrousd : ℕ := 0
  unknownCostSteps : ℕ := 0
  toolCalls : ℕ := 0
  egressEvents : ℕ := 0
  knownEgressBytes : ℕ := 0
  unknownEgressSizes : ℕ := 0
  providers : Finset String := ∅
  models : Finset String := ∅
  deriving DecidableEq

structure TurnContext where
  turnId : String
  providerId : Option String
  modelId : Option String
  scopeKey : String
  deriving DecidableEq, Repr

inductive UsageFactKind where
  | turnStarted
  | toolCall
  | provider
  deriving DecidableEq, Repr

/-- Flat append-only accounting fact. -/
structure UsageFact where
  kind : UsageFactKind
  eventId : String
  at_ : DateTime
  dayUtc : String
  sessionId : String
  turnId : String
  scopeKey : String
  providerId : Option String
  modelId : Option String
  tokens : Option TokenUsage
  cost : Option ReportedCost
  deriving DecidableEq, Repr

/-- The rows an event asks the store to append. -/
structure UsageMutation where
  fact : Option UsageFact := none
  egress : Option EgressRecord := none
  deriving DecidableEq, Repr

inductive UsageError where
  | event (error : EventError)
  | invalidStoredFact
  | unsupportedSchema (version : ℕ)
  | invalidEgress
  deriving DecidableEq, Repr

def ledgerSchemaVersion : ℕ := 1
def maxDetailRecords : ℕ := 50000
def maxEgressRecords : ℕ := 25000

/-- Accounting state; detail lists are bounded while aggregates are retained. -/
structure UsageLedger where
  schemaVersion : ℕ := ledgerSchemaVersion
  records : List ProviderUsageRecord := []
  egress : List EgressRecord := []
  turns : BTreeMap String UsageAggregate := ∅
  sessions : BTreeMap String UsageAggregate := ∅
  days : BTreeMap String UsageAggregate := ∅
  scopes : BTreeMap String UsageAggregate := ∅
  activeTurns : BTreeMap String TurnContext := ∅
  seenEventIds : Finset String := ∅
  seenEgressIds : Finset Uuid := ∅

/-! ### Reading a payload -/

/-- The first of the named fields that is a string. -/
def textAt (value : Value) (names : List String) : Option String :=
  (names.findSome? value.strAt).map Text.spelling

def unsignedAt (value : Value) (names : List String) : ℕ := (names.findSome? value.u64At).getD 0

/-- `value[first][second]` as an unsigned integer. -/
def unsignedAtPath (value : Value) (first second : String) : ℕ :=
  ((value.get first).bind (·.u64At second)).getD 0

def normalizeTokens (value : Value) : TokenUsage :=
  let input := unsignedAt value ["input", "input_tokens", "inputTokens"]
  let output := unsignedAt value ["output", "output_tokens", "outputTokens"]
  let reasoning := unsignedAt value ["reasoning", "reasoning_tokens", "reasoningTokens"]
  let cacheRead := max (unsignedAt value ["cache_read", "cacheRead"])
    (unsignedAtPath value "cache" "read")
  let cacheWrite := max (unsignedAt value ["cache_write", "cacheWrite"])
    (unsignedAtPath value "cache" "write")
  let sum := satAdd (satAdd (satAdd (satAdd input output) reasoning) cacheRead) cacheWrite
  let explicitTotal := value.u64At "total"
  { input, output, reasoning, cacheRead, cacheWrite
    total := explicitTotal.getD sum
    totalWasReported := explicitTotal.isSome }

/-- `format!("{cost:.6}")` read as micro-dollars: the nearest one, ties to even, if it
fits a `u64`.  A negative zero, which the source spells with a sign and then rejects,
has no value of its own here and counts as zero. -/
def usdToMicrousd (cost : F64) : Option ℕ :=
  let scaled := cost * 1000000
  let low := ⌊scaled⌋
  let rest := scaled - low
  let micros := if rest < 1 / 2 ∨ (rest = 1 / 2 ∧ low % 2 = 0) then low else low + 1
  if micros < 2 ^ 64 then some micros.toNat else none

def normalizeCost (value : Option Value) : ReportedCost :=
  let microusd := ((value.bind Value.asF64).filter (0 ≤ ·)).bind usdToMicrousd
  { microusd
    status := if microusd.isSome then .providerReported else .unknown }

/-- `at.format("%Y-%m-%d")` of a time in UTC. -/
def dayString (at_ : DateTime) : String := String.ofList (at_.rfc3339.toList.take 10)

def eventScopeKey (event : EventEnvelope) : String :=
  match event.goalId with
  | some goalId => "goal:" ++ goalId.spelling
  | none =>
    match event.agentId.bind (stripped "automation:") with
    | some agentId => "automation:" ++ agentId
    | none => "session:" ++ event.sessionId.getD "unknown"

def boundedLabel (value fallback : String) : String :=
  let trimmed := trim value
  String.ofList ((if trimmed.isEmpty then fallback else trimmed).toList.take 256)

def runtimeToolEgress (event : EventEnvelope) (payload : Value) (at_ : DateTime)
    (scopeKey : String) (id : Uuid) : Option EgressRecord := do
  let tool ← textAt payload ["tool"]
  let provider := textAt payload ["provider"]
  let lowercase := toAsciiLowercase tool
  let source ←
    if containsText lowercase "web" || containsText lowercase "browser" then some EgressSource.web
    else if provider.isSome then some .mcp
    else none
  return {
    id := id
    at_ := at_
    source := source
    destination := boundedLabel (provider.getD "runtime-managed web") "unknown"
    operation := boundedLabel tool "tool call"
    dataClass := "tool arguments"
    sizeBytes := none
    purpose := "agent tool invocation"
    sessionId := event.sessionId
    scopeKey := some scopeKey }

def validateEgress (record : EgressRecord) : Except UsageError Unit :=
  if [record.destination, record.operation, record.dataClass, record.purpose].any fun value =>
    (trim value).isEmpty || value.utf8ByteSize > 512 ||
    value.toList.any fun c => c = '\n' || c = '\r'
  then .error .invalidEgress
  else .ok ()

/-! ### Adding up -/

def TokenUsage.add (t value : TokenUsage) : TokenUsage := { t with
  input := satAdd t.input value.input
  output := satAdd t.output value.output
  reasoning := satAdd t.reasoning value.reasoning
  cacheRead := satAdd t.cacheRead value.cacheRead
  cacheWrite := satAdd t.cacheWrite value.cacheWrite
  total := satAdd t.total value.total }

namespace UsageAggregate

def addUsage (a : UsageAggregate) (record : ProviderUsageRecord) : UsageAggregate := { a with
  providerSteps := satAdd a.providerSteps 1
  tokens := { a.tokens.add record.tokens with
    totalWasReported :=
      if a.providerSteps = 0 then record.tokens.totalWasReported
      else a.tokens.totalWasReported && record.tokens.totalWasReported }
  reportedCostMicrousd := match record.cost.microusd with
    | some cost => satAdd a.reportedCostMicrousd cost
    | none => a.reportedCostMicrousd
  unknownCostSteps :=
    if record.cost.microusd.isSome then a.unknownCostSteps else satAdd a.unknownCostSteps 1
  providers := a.providers ∪ record.providerId.toFinset
  models := a.models ∪ record.modelId.toFinset }

def addEgress (a : UsageAggregate) (record : EgressRecord) : UsageAggregate := { a with
  egressEvents := satAdd a.egressEvents 1
  knownEgressBytes := match record.sizeBytes with
    | some size => satAdd a.knownEgressBytes size
    | none => a.knownEgressBytes
  unknownEgressSizes :=
    if record.sizeBytes.isSome then a.unknownEgressSizes else satAdd a.unknownEgressSizes 1 }

def addToolCall (a : UsageAggregate) : UsageAggregate :=
  { a with toolCalls := satAdd a.toolCalls 1 }

def merge (a other : UsageAggregate) : UsageAggregate where
  providerSteps := satAdd a.providerSteps other.providerSteps
  tokens := { a.tokens.add other.tokens with
    totalWasReported :=
      match decide (a.providerSteps > 0), decide (other.providerSteps > 0) with
      | true, true => a.tokens.totalWasReported && other.tokens.totalWasReported
      | false, true => other.tokens.totalWasReported
      | true, false => a.tokens.totalWasReported
      | false, false => false }
  reportedCostMicrousd := satAdd a.reportedCostMicrousd other.reportedCostMicrousd
  unknownCostSteps := satAdd a.unknownCostSteps other.unknownCostSteps
  toolCalls := satAdd a.toolCalls other.toolCalls
  egressEvents := satAdd a.egressEvents other.egressEvents
  knownEgressBytes := satAdd a.knownEgressBytes other.knownEgressBytes
  unknownEgressSizes := satAdd a.unknownEgressSizes other.unknownEgressSizes
  providers := a.providers ∪ other.providers
  models := a.models ∪ other.models

end UsageAggregate

/-- `map.entry(key).or_default()` updated in place. -/
def atKey (m : BTreeMap String UsageAggregate) (key : String)
    (update : UsageAggregate → UsageAggregate) : BTreeMap String UsageAggregate :=
  m.insert key (update ((m[key]?).getD {}))

def mergeAggregateMaps (target source : BTreeMap String UsageAggregate) :
    BTreeMap String UsageAggregate :=
  source.toList.foldl (fun m entry => atKey m entry.1 (·.merge entry.2)) target

/-- The last `limit` elements of a list that had one pushed. -/
def pushBounded {α : Type} (limit : ℕ) (l : List α) (a : α) : List α :=
  if (l ++ [a]).length > limit then (l ++ [a]).tail else l ++ [a]

namespace UsageLedger

variable (l : UsageLedger)

def validateSchema : Except UsageError Unit :=
  if l.schemaVersion = ledgerSchemaVersion then .ok ()
  else .error (.unsupportedSchema l.schemaVersion)

/-- Update the four aggregates an accounting record belongs to. -/
def atKeys (turn session day scope : String)
    (update : UsageAggregate → UsageAggregate) : UsageLedger := { l with
  turns := atKey l.turns turn update
  sessions := atKey l.sessions session update
  days := atKey l.days day update
  scopes := atKey l.scopes scope update }

def addToolCall (l : UsageLedger) (turn session day scope : String) : UsageLedger :=
  l.atKeys turn session day scope (·.addToolCall)

def clearDetailRecords : UsageLedger := { l with records := [], egress := [] }

def hasSeenEgress (id : Uuid) : Bool := id ∈ l.seenEgressIds

def markSeen (eventId : String) : UsageLedger :=
  { l with seenEventIds := insert eventId l.seenEventIds }

/-- Record a content-free outbound transfer idempotently; an error precedes every
write. -/
def recordEgress (record : EgressRecord) : Except UsageError UsageLedger := do
  l.validateSchema
  validateEgress record
  if record.id ∈ l.seenEgressIds then return l
  else return { l with
    seenEgressIds := insert record.id l.seenEgressIds
    days := atKey l.days (dayString record.at_) (·.addEgress record)
    sessions := match record.sessionId with
      | some session => atKey l.sessions session (·.addEgress record)
      | none => l.sessions
    scopes := match record.scopeKey with
      | some scope => atKey l.scopes scope (·.addEgress record)
      | none => l.scopes
    egress := pushBounded maxEgressRecords l.egress record }

def stepRecord (event : EventEnvelope) (payload : Value) (context : Option TurnContext)
    (at_ : DateTime) (tokens : TokenUsage) : ProviderUsageRecord where
  id := event.eventId
  at_ := at_
  dayUtc := dayString at_
  sessionId := event.sessionId.getD "unknown"
  turnId := ((context.map (·.turnId)).or
    (textAt payload ["assistantMessageID", "messageID", "message_id"])).getD event.eventId
  scopeKey := (context.map (·.scopeKey)).getD (eventScopeKey event)
  providerId := (textAt payload ["provider_id", "providerID", "provider"]).or
    (context.bind (·.providerId))
  modelId := (textAt payload ["model_id", "modelID", "model"]).or (context.bind (·.modelId))
  tokens := tokens
  cost := normalizeCost (payload.get "cost")

def recordStep (record : ProviderUsageRecord) : UsageLedger :=
  let l := l.atKeys record.turnId record.sessionId record.dayUtc record.scopeKey (·.addUsage record)
  { l with records := pushBounded maxDetailRecords l.records record }.markSeen record.id

def providerFact (record : ProviderUsageRecord) : UsageFact where
  kind := .provider
  eventId := record.id
  at_ := record.at_
  dayUtc := record.dayUtc
  sessionId := record.sessionId
  turnId := record.turnId
  scopeKey := record.scopeKey
  providerId := record.providerId
  modelId := record.modelId
  tokens := some record.tokens
  cost := some record.cost

/-- A turn is admitted: it becomes the session's active turn. -/
def ingestAdmitted (event : EventEnvelope) (payload : Value) (at_ : DateTime) :
    UsageLedger × UsageMutation :=
  let session := event.sessionId.getD "unknown"
  let context : TurnContext := {
    turnId := (textAt payload ["message_id", "messageID"]).getD event.eventId
    providerId := textAt payload ["provider_id", "providerID", "provider"]
    modelId := textAt payload ["model_id", "modelID", "model"]
    scopeKey := eventScopeKey event }
  ({ l with activeTurns := l.activeTurns.insert session context }.markSeen event.eventId,
    { fact := some {
        kind := .turnStarted
        eventId := event.eventId
        at_ := at_
        dayUtc := dayString at_
        sessionId := session
        turnId := context.turnId
        scopeKey := context.scopeKey
        providerId := context.providerId
        modelId := context.modelId
        tokens := none
        cost := none } })

/-- A tool call is counted; then its outbound transfer is recorded, and an invalid one
fails with the call already counted. -/
def ingestTool (event : EventEnvelope) (payload : Value) (at_ : DateTime)
    (egressId : Uuid) : UsageLedger × Except UsageError UsageMutation :=
  let session := event.sessionId.getD "unknown"
  let context := l.activeTurns[session]?
  let turnId := (context.map (·.turnId)).getD
    ((textAt payload ["assistantMessageID", "messageID", "message_id"]).getD event.eventId)
  let scopeKey := (context.map (·.scopeKey)).getD (eventScopeKey event)
  let l := l.addToolCall turnId session (dayString at_) scopeKey
  let egress := runtimeToolEgress event payload at_ scopeKey egressId
  let recorded := match egress with
    | some record => l.recordEgress record
    | none => .ok l
  match recorded with
  | .error e => (l, .error e)
  | .ok l => (l.markSeen event.eventId, .ok {
      fact := some {
        kind := .toolCall
        eventId := event.eventId
        at_ := at_
        dayUtc := dayString at_
        sessionId := session
        turnId := turnId
        scopeKey := scopeKey
        providerId := none
        modelId := none
        tokens := none
        cost := none }
      egress := egress })

/-- A provider step counts when it reports tokens or a cost. -/
def ingestStep (event : EventEnvelope) (payload : Value) (at_ : DateTime) :
    UsageLedger × UsageMutation :=
  let context := l.activeTurns[event.sessionId.getD "unknown"]?
  let counted (tokens : TokenUsage) :=
    let record := stepRecord event payload context at_ tokens
    (l.recordStep record, { fact := some (providerFact record) : UsageMutation })
  match payload.get "tokens" with
  | some tokens => counted (normalizeTokens tokens)
  | none => if (payload.get "cost").isNone then (l, {}) else counted {}

/-- Consume one normalized runtime event.  Non-accounting events are ignored;
replaying the same event id is idempotent, and looks at nothing else of the event. -/
def ingestRuntimeEventDelta [Chrono] (l : UsageLedger) (event : EventEnvelope) (egressId : Uuid) :
    UsageLedger × Except UsageError UsageMutation :=
  match l.validateSchema with
  | .error e => (l, .error e)
  | .ok () =>
    if event.eventId ∈ l.seenEventIds then (l, .ok {})
    else
      match event.payload, event.timestamp with
      | .error e, _ => (l, .error (.event e))
      | .ok _, .error e => (l, .error (.event e))
      | .ok payload, .ok at_ =>
        if event.type = "response.admitted" then
          let (l, mutation) := l.ingestAdmitted event payload at_
          (l, .ok mutation)
        else if event.type = "tool.started" then l.ingestTool event payload at_ egressId
        else if event.type ≠ "response.step_completed" then (l, .ok {})
        else
          let (l, mutation) := l.ingestStep event payload at_
          (l, .ok mutation)

def mergeAggregatesFrom (l other : UsageLedger) : UsageLedger := { l with
  turns := mergeAggregateMaps l.turns other.turns
  sessions := mergeAggregateMaps l.sessions other.sessions
  days := mergeAggregateMaps l.days other.days
  scopes := mergeAggregateMaps l.scopes other.scopes }

def mergeAppendOnly (l newer : UsageLedger) : Except UsageError UsageLedger := do
  l.validateSchema
  newer.validateSchema
  let merged := l.mergeAggregatesFrom newer
  return { merged with
    activeTurns := newer.activeTurns.toList.foldl (fun m entry => m.insert entry.1 entry.2)
      merged.activeTurns
    seenEventIds := merged.seenEventIds ∪ newer.seenEventIds
    seenEgressIds := merged.seenEgressIds ∪ newer.seenEgressIds }

theorem payload_of_ingest [Chrono] {l l' : UsageLedger} {event : EventEnvelope} {egressId : Uuid}
    {mutation : UsageMutation} (h : l.ingestRuntimeEventDelta event egressId = (l', .ok mutation))
    (hseen : event.eventId ∉ l.seenEventIds) : ∃ v, event.payloadJson = some v := by
  unfold ingestRuntimeEventDelta at h
  split at h
  · cases h
  · rw [if_neg hseen] at h
    unfold EventEnvelope.payload at h
    cases hp : event.payloadJson with
    | some v => exact ⟨v, rfl⟩
    | none => simp [hp] at h

end UsageLedger
end PersonalAgent.Core
