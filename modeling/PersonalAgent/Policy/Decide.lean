/-
# The policy of tool calls

`crates/policy/src/lib.rs`: a call of a tool is allowed, put to the user or denied by seven
gates in a fixed order (scopes, presence, checkpoint, data flow, consent, confirmation,
default).  `decide` is that order; the time at which a grant is compared is an argument.

More authority never gives a stricter answer, and untrusted content never controls a tool
that reads secrets or private memory, communicates, buys or changes security, whatever
consent there is (`decide_monotone`).
-/

import PersonalAgent.Contracts.Event

namespace PersonalAgent.Policy

/-- Trust label carried by every input and output. -/
inductive DataZone where
  | userInstruction
  | trustedLocalState
  | privateMemory
  | secret
  | connectorData
  | untrustedContent
  | agentGenerated
  deriving DecidableEq

/-- Consequence level independent of the tool's mechanism. -/
inductive Risk where
  | read
  | reversible
  | consequential
  | irreversible
  deriving DecidableEq

/-- Externally meaningful effect category. -/
inductive Effect where
  | observe
  | localWrite
  | externalWrite
  | communication
  | commerce
  | security
  | power
  deriving DecidableEq

/-- Policy-relevant tool declaration. -/
structure ToolDescriptor where
  id : String
  scopes : Finset String
  risk : Risk
  effect : Effect
  reversible : Bool
  zonesRead : Finset DataZone
  userPresence : Bool
  deriving DecidableEq

/-- An `f64`. -/
inductive Double where
  | finite (x : F64)
  | infinite (negative : Bool)
  | nan
  deriving DecidableEq

/-- `<=` of `f64`: nothing compares with a value that is not a number. -/
def Double.le : Double → Double → Bool
  | .nan, _ | _, .nan => false
  | .infinite true, _ | _, .infinite false => true
  | .finite x, .finite y => x ≤ y
  | _, _ => false

/-- Inputs used to make one decision. -/
structure CallContext where
  goalId : Uuid
  taskId : Option Uuid
  tool : ToolDescriptor
  target : String
  activeInputZones : Finset DataZone
  grantedScopes : Finset String
  estimatedCostUsd : Double
  background : Bool
  userPresent : Bool
  checkpointAvailable : Bool

/-- Scoped and revocable authorization. -/
structure ConsentGrant where
  id : Uuid
  goalId : Uuid
  taskId : Option Uuid
  toolIds : Finset String
  effects : Finset Effect
  targetPatterns : Finset String
  expiresAt : DateTime
  maximumCalls : ℕ
  callsUsed : ℕ
  costCeilingUsd : Option Double
  background : Bool
  revoked : Bool
  deriving DecidableEq

/-- A pattern that ends in `*` matches what starts with the rest of it. -/
def targetMatches (pattern target : String) : Bool :=
  pattern == target ||
    match pattern.toList.reverse with
    | '*' :: rest => rest.reverse.isPrefixOf target.toList
    | _ => false

/-- Return true only when every dimension of the grant covers the call. -/
def ConsentGrant.covers [Instants] (grant : ConsentGrant) (call : CallContext) (now : DateTime) :
    Bool :=
  !grant.revoked &&
    decide (Instants.nanos now < Instants.nanos grant.expiresAt) &&
    decide (grant.callsUsed < grant.maximumCalls) &&
    grant.goalId == call.goalId &&
    (grant.taskId.isNone || grant.taskId == call.taskId) &&
    decide (call.tool.id ∈ grant.toolIds) &&
    decide (call.tool.effect ∈ grant.effects) &&
    (!call.background || grant.background) &&
    (match grant.costCeilingUsd with
      | none => true
      | some ceiling => call.estimatedCostUsd.le ceiling) &&
    decide (∃ pattern ∈ grant.targetPatterns, targetMatches pattern call.target = true)

/-- Explainable policy outcome. -/
inductive PolicyDecision where
  | allow (reason : String) (consentId : Option Uuid)
  | ask (reason : String)
  | deny (reason : String)
  deriving DecidableEq

/-- The call is allowed. -/
def PolicyDecision.Allows : PolicyDecision → Prop
  | .allow _ _ => True
  | _ => False

/-- A tool that untrusted content must not control. -/
def ToolDescriptor.crossZoneEffect (tool : ToolDescriptor) : Bool :=
  decide (DataZone.secret ∈ tool.zonesRead) || decide (DataZone.privateMemory ∈ tool.zonesRead) ||
    decide (tool.effect ∈ [Effect.communication, .commerce, .security])

/-- A tool that needs consent. -/
def ToolDescriptor.alwaysConfirm (tool : ToolDescriptor) : Bool :=
  decide (tool.effect ∈ [Effect.communication, .commerce, .security, .power]) ||
    decide (tool.risk ∈ [Risk.consequential, .irreversible]) ||
    (tool.effect == .externalWrite && !tool.reversible)

/-- A mutation that must be preceded by a checkpoint. -/
def ToolDescriptor.needsCheckpoint (tool : ToolDescriptor) : Bool :=
  decide (tool.risk ∈ [Risk.reversible, .consequential, .irreversible]) &&
    tool.effect != .observe && tool.reversible

/-- `PolicyEngine::decide`: capability, presence, checkpoint, trust-zone and consent gates. -/
def PolicyEngine.decide [Instants] (call : CallContext) (grants : List ConsentGrant)
    (now : DateTime) : PolicyDecision :=
  if ¬ call.tool.scopes ⊆ call.grantedScopes then
    .deny "tool requires capability scopes not granted to this task"
  else if call.tool.userPresence && !call.userPresent then
    .deny "this tool requires the user to be present"
  else if call.tool.needsCheckpoint && !call.checkpointAvailable then
    .deny "a checkpoint is required before the first reversible mutation"
  else if DataZone.untrustedContent ∈ call.activeInputZones ∧ call.tool.crossZoneEffect then
    .ask "untrusted content is controlling a cross-zone action"
  else
    match grants.find? (·.covers call now) with
    | some grant => .allow "covered by scoped consent" (some grant.id)
    | none =>
      if call.tool.alwaysConfirm then
        .ask "consequential effects require explicit scoped consent"
      else .allow "bounded policy permits read-only or reversible local work" none

/-! ### What is allowed -/

section

variable [Instants] {call call' : CallContext} {grants grants' : List ConsentGrant} {now : DateTime}

/-- A call is allowed if it passes the four gates that deny or ask, and has consent or does
not need it. -/
theorem decide_allows_iff : (PolicyEngine.decide call grants now).Allows ↔
    call.tool.scopes ⊆ call.grantedScopes ∧
    (call.tool.userPresence = true → call.userPresent = true) ∧
    (call.tool.needsCheckpoint = true → call.checkpointAvailable = true) ∧
    ¬ (DataZone.untrustedContent ∈ call.activeInputZones ∧ call.tool.crossZoneEffect = true) ∧
    ((∃ grant ∈ grants, grant.covers call now = true) ∨ call.tool.alwaysConfirm = false) := by
  have hfind : (∃ grant ∈ grants, grant.covers call now = true) ↔
      (grants.find? (·.covers call now)).isSome = true := List.find?_isSome.symm
  rw [hfind]
  unfold PolicyEngine.decide
  by_cases hscopes : call.tool.scopes ⊆ call.grantedScopes
  swap
  · rw [if_pos hscopes]
    exact ⟨False.elim, fun h => absurd h.1 hscopes⟩
  rw [if_neg (not_not.mpr hscopes)]
  by_cases hpresence : (call.tool.userPresence && !call.userPresent) = true
  · rw [if_pos hpresence]
    rw [Bool.and_eq_true, Bool.not_eq_true'] at hpresence
    exact ⟨False.elim, fun h => Bool.noConfusion (hpresence.2.symm.trans (h.2.1 hpresence.1))⟩
  rw [if_neg hpresence]
  by_cases hcheckpoint : (call.tool.needsCheckpoint && !call.checkpointAvailable) = true
  · rw [if_pos hcheckpoint]
    rw [Bool.and_eq_true, Bool.not_eq_true'] at hcheckpoint
    exact ⟨False.elim, fun h => Bool.noConfusion (hcheckpoint.2.symm.trans (h.2.2.1 hcheckpoint.1))⟩
  rw [if_neg hcheckpoint]
  by_cases hzones : DataZone.untrustedContent ∈ call.activeInputZones ∧
      call.tool.crossZoneEffect = true
  · rw [if_pos hzones]
    exact ⟨False.elim, fun h => absurd hzones h.2.2.2.1⟩
  rw [if_neg hzones]
  have hpresent : call.tool.userPresence = true → call.userPresent = true := by
    simpa using hpresence
  have havailable : call.tool.needsCheckpoint = true → call.checkpointAvailable = true := by
    simpa using hcheckpoint
  cases grants.find? (·.covers call now) with
  | some grant =>
    exact ⟨fun _ => ⟨hscopes, hpresent, havailable, hzones, .inl rfl⟩, fun _ => trivial⟩
  | none =>
    by_cases hconfirm : call.tool.alwaysConfirm = true
    · dsimp only
      rw [if_pos hconfirm]
      refine ⟨False.elim, fun h => ?_⟩
      rcases h.2.2.2.2 with hnone | hfalse
      · cases hnone
      · rw [hconfirm] at hfalse
        cases hfalse
    · dsimp only
      rw [if_neg hconfirm]
      exact ⟨fun _ => ⟨hscopes, hpresent, havailable, hzones, .inr (by simpa using hconfirm)⟩,
        fun _ => trivial⟩

theorem exists_grant_of_consent {reason : String} {id : Uuid}
    (h : PolicyEngine.decide call grants now = .allow reason (some id)) :
    ∃ grant ∈ grants, grant.covers call now = true ∧ grant.id = id := by
  unfold PolicyEngine.decide at h
  cases hfind : grants.find? (·.covers call now) with
  | none =>
    simp only [hfind] at h
    split_ifs at h
    cases h
  | some grant =>
    simp only [hfind] at h
    split_ifs at h
    cases h
    have hcovers := List.find?_some hfind
    exact ⟨grant, List.mem_of_find?_eq_some hfind, hcovers, rfl⟩

/-- The second call is the first one with more authority. -/
structure MoreAuthority (call call' : CallContext) : Prop where
  goalId : call'.goalId = call.goalId
  taskId : call'.taskId = call.taskId
  tool : call'.tool = call.tool
  target : call'.target = call.target
  estimatedCostUsd : call'.estimatedCostUsd = call.estimatedCostUsd
  grantedScopes : call.grantedScopes ⊆ call'.grantedScopes
  activeInputZones : call'.activeInputZones ⊆ call.activeInputZones
  userPresent : call.userPresent = true → call'.userPresent = true
  checkpointAvailable : call.checkpointAvailable = true → call'.checkpointAvailable = true
  background : call.background = false → call'.background = false

theorem MoreAuthority.covers (h : MoreAuthority call call') {grant : ConsentGrant}
    (hcovers : grant.covers call now = true) : grant.covers call' now = true := by
  unfold ConsentGrant.covers at hcovers ⊢
  rw [h.goalId, h.taskId, h.tool, h.target, h.estimatedCostUsd]
  simp only [Bool.and_eq_true] at hcovers ⊢
  obtain ⟨⟨⟨hbefore, hbackground⟩, hcost⟩, htarget⟩ := hcovers
  refine ⟨⟨⟨hbefore, ?_⟩, hcost⟩, htarget⟩
  cases hcall : call.background with
  | false => rw [h.background hcall, Bool.not_false, Bool.true_or]
  | true =>
    rw [hcall, Bool.not_true, Bool.false_or] at hbackground
    rw [hbackground, Bool.or_true]

end

/-- **Policy is monotone in authority.**  A call that is allowed stays allowed with more
scopes, fewer input zones, a present user, a checkpoint, in the foreground, or with more
consent.  And untrusted content never gets a tool allowed that reads secrets or private
memory, communicates, buys or changes security. -/
theorem decide_monotone [Instants] :
    (∀ (call call' : CallContext) (grants grants' : List ConsentGrant) (now : DateTime),
      MoreAuthority call call' → grants ⊆ grants' →
      (PolicyEngine.decide call grants now).Allows →
      (PolicyEngine.decide call' grants' now).Allows) ∧
    ∀ (call : CallContext) (grants : List ConsentGrant) (now : DateTime),
      DataZone.untrustedContent ∈ call.activeInputZones →
      (DataZone.secret ∈ call.tool.zonesRead ∨ DataZone.privateMemory ∈ call.tool.zonesRead ∨
        call.tool.effect ∈ [Effect.communication, .commerce, .security]) →
      ¬ (PolicyEngine.decide call grants now).Allows := by
  constructor
  · intro call call' grants grants' now h hgrants hallows
    obtain ⟨hscopes, hpresence, hcheckpoint, hzones, hconsent⟩ := decide_allows_iff.mp hallows
    refine decide_allows_iff.mpr ⟨?_, ?_, ?_, ?_, ?_⟩
    · rw [h.tool]
      exact hscopes.trans h.grantedScopes
    · rw [h.tool]
      exact fun hneeded => h.userPresent (hpresence hneeded)
    · rw [h.tool]
      exact fun hneeded => h.checkpointAvailable (hcheckpoint hneeded)
    · rw [h.tool]
      exact fun hcross => hzones ⟨h.activeInputZones hcross.1, hcross.2⟩
    · rw [h.tool]
      rcases hconsent with ⟨grant, hgrant, hcovers⟩ | hdefault
      · exact .inl ⟨grant, hgrants hgrant, h.covers hcovers⟩
      · exact .inr hdefault
  · intro call grants now huntrusted htool hallows
    obtain ⟨-, -, -, hzones, -⟩ := decide_allows_iff.mp hallows
    refine hzones ⟨huntrusted, ?_⟩
    simpa only [ToolDescriptor.crossZoneEffect, Bool.or_eq_true, decide_eq_true_eq, or_assoc]
      using htool

/-! ### A mail with consent -/

section Examples

/-- Times by the length of their spelling. -/
@[reducible] def spelledTime : Instants := ⟨fun time => time.rfc3339.length⟩

attribute [local instance] spelledTime

def mailSend : ToolDescriptor where
  id := "mail.send"
  scopes := {"mail.send"}
  risk := .consequential
  effect := .communication
  reversible := false
  zonesRead := {.userInstruction}
  userPresence := false

/-- A mail in the background. -/
def mailCall : CallContext where
  goalId := 1
  taskId := some 2
  tool := mailSend
  target := "alice@example.com"
  activeInputZones := {.userInstruction, .connectorData}
  grantedScopes := {"mail.send"}
  estimatedCostUsd := .finite 0
  background := true
  userPresent := false
  checkpointAvailable := false

def mailConsent : ConsentGrant where
  id := 3
  goalId := 1
  taskId := none
  toolIds := {"mail.send"}
  effects := {.communication}
  targetPatterns := {"alice@*"}
  expiresAt := ⟨"later"⟩
  maximumCalls := 1
  callsUsed := 0
  costCeilingUsd := some (.finite 1)
  background := true
  revoked := false

/-- The mail is allowed, also in the foreground and with more input kept out; and no consent
lets untrusted content send it. -/
theorem decide_monotone_mail :
    PolicyEngine.decide mailCall [mailConsent] ⟨""⟩ =
      .allow "covered by scoped consent" (some 3) ∧
    (PolicyEngine.decide { mailCall with background := false, activeInputZones := ∅ }
      [{ mailConsent with revoked := true }, mailConsent] ⟨""⟩).Allows ∧
    ¬ (PolicyEngine.decide { mailCall with activeInputZones := {.untrustedContent} }
      [mailConsent] ⟨""⟩).Allows := by
  have hallowed : PolicyEngine.decide mailCall [mailConsent] ⟨""⟩ =
      .allow "covered by scoped consent" (some 3) := by decide +kernel
  refine ⟨hallowed, decide_monotone.1 mailCall _ [mailConsent] _ ⟨""⟩ ?_ ?_ ?_,
    decide_monotone.2 _ _ _ ?_ ?_⟩
  · exact ⟨rfl, rfl, rfl, rfl, rfl, fun _ h => h, Finset.empty_subset _, nofun, nofun, fun _ => rfl⟩
  · exact List.subset_cons_self _ _
  · rw [hallowed]
    trivial
  · exact Finset.mem_singleton_self _
  · exact .inr (.inr (by decide))

end Examples

end PersonalAgent.Policy
