/-
# Effects and their audits

A call whose effect fails is audited, and so is one whose effect succeeds and is verified.
Between the two there are exits that leave nothing behind: a result that is too large or
cannot be encoded, and a postcondition that fails, end the call after the effect has happened
and before the audit is written; `rollback` is audited on success alone
(`unverified_effect_is_not_audited`).  These exits are the only ones: an effect has its audit,
and its egress record if it leaves the machine, exactly where they are not taken
(`effects_audited`).
-/

import PersonalAgent.Tools.Gateway

namespace PersonalAgent.Tools
namespace ToolGateway

open Policy

section Results

@[simp] theorem callId_checkpointed (call : ToolCall) (rollbackId : Option String) :
    (call.checkpointed rollbackId).callId = call.callId := by
  unfold ToolCall.checkpointed
  split_ifs <;> rfl

/-- One audit of the call, and nothing else. -/
def AuditsOnce (g g' : ToolGateway) (callId : Uuid) : Prop :=
  ∃ audit, g'.audits = g.audits ++ [audit] ∧ audit.callId = callId

/-- One egress record of the call, and nothing else. -/
def RecordsEgress (g g' : ToolGateway) (callId : Uuid) : Prop :=
  ∃ record, g'.egress = g.egress ++ [record] ∧ record.callId = callId

/-- An exit that leaves the gateway as it was has audited nothing. -/
theorem not_auditsOnce_self {g : ToolGateway} {callId : Uuid} : ¬AuditsOnce g g callId := by
  rintro ⟨audit, haudits, -⟩
  simp at haudits

variable [JsonText] {g : ToolGateway} {tool : ToolImplementation} {call : ToolCall}

/-- The result passes the checks between an effect and its audit. -/
def Passes (g : ToolGateway) (raw : Value) (verify : Value → Except ToolError Unit) : Prop :=
  ∃ encoded, JsonText.toVec (redactSecrets raw) = .ok encoded ∧
    encoded.length ≤ g.maxOutputBytes ∧ verify (redactSecrets raw) = .ok ()

/-- If the effect of the call succeeds, its result passes. -/
def ResultPasses (g : ToolGateway) (tool : ToolImplementation) (call : ToolCall) : Prop :=
  ∀ rollbackId raw, tool.checkpoint call = .ok rollbackId →
    tool.execute (call.checkpointed rollbackId) = .ok raw →
    g.Passes raw (tool.verify (call.checkpointed rollbackId))

/-- The rollback succeeds, and its result passes. -/
def RollbackPasses (g : ToolGateway) (tool : ToolImplementation) (call : ToolCall)
    (checkpointId : String) : Prop :=
  ∃ raw, tool.rollback call checkpointId = .ok raw ∧
    g.Passes raw (tool.verifyRollback call checkpointId)

/-- The effect of the call is on record: one audit, and one egress record if the effect
succeeded and leaves the machine. -/
def OnRecord (g g' : ToolGateway) (tool : ToolImplementation) (call : ToolCall) : Prop :=
  AuditsOnce g g' call.callId ∧
  ∀ rollbackId raw, tool.checkpoint call = .ok rollbackId →
    tool.execute (call.checkpointed rollbackId) = .ok raw →
    leaves tool.descriptor.effect = true → RecordsEgress g g' call.callId

/-- A result that passes is audited. -/
theorem conclude_audits (label : String) (rollbackId : Option String) {raw : Value}
    (clock : DateTime) (h : g.Passes raw (tool.verify call)) :
    AuditsOnce g (g.conclude tool call label rollbackId raw clock).gateway call.callId ∧
    (leaves tool.descriptor.effect = true →
      RecordsEgress g (g.conclude tool call label rollbackId raw clock).gateway call.callId) := by
  obtain ⟨encoded, hencoded, hsize, hverify⟩ := h
  unfold conclude
  simp only [hencoded, if_neg (not_lt.mpr hsize), hverify]
  refine ⟨⟨_, rfl, rfl⟩, fun hleaves => ?_⟩
  rw [RecordsEgress, if_pos hleaves]
  exact ⟨_, rfl, rfl⟩

/-- And a result that is audited has passed. -/
theorem passes_of_conclude {label : String} {rollbackId : Option String} {raw : Value}
    {clock : DateTime} {callId : Uuid}
    (h : AuditsOnce g (g.conclude tool call label rollbackId raw clock).gateway callId) :
    g.Passes raw (tool.verify call) := by
  unfold conclude at h
  cases hencoded : JsonText.toVec (redactSecrets raw) with
  | error error => exact absurd (by simpa only [hencoded] using h) not_auditsOnce_self
  | ok encoded =>
    simp only [hencoded] at h
    by_cases hsize : g.maxOutputBytes < encoded.length
    · rw [if_pos hsize] at h
      exact absurd h not_auditsOnce_self
    · rw [if_neg hsize] at h
      cases hverify : tool.verify call (redactSecrets raw) with
      | error error => exact absurd (by simpa only [hverify] using h) not_auditsOnce_self
      | ok _ => exact ⟨encoded, hencoded, not_lt.mp hsize, hverify⟩

/-- Likewise for a rollback. -/
theorem concludeRollback_audits_iff {checkpointId rescueId : String} {raw : Value}
    {clock : DateTime} :
    AuditsOnce g (g.concludeRollback tool call checkpointId rescueId raw clock).gateway
      call.callId ↔ g.Passes raw (tool.verifyRollback call checkpointId) := by
  unfold concludeRollback
  constructor
  · intro haudits
    cases hencoded : JsonText.toVec (redactSecrets raw) with
    | error error => exact absurd (by simpa only [hencoded] using haudits) not_auditsOnce_self
    | ok encoded =>
      simp only [hencoded] at haudits
      split_ifs at haudits with hsize
      · exact absurd haudits not_auditsOnce_self
      · cases hverify : tool.verifyRollback call checkpointId (redactSecrets raw) with
        | error error => exact absurd (by simpa only [hverify] using haudits) not_auditsOnce_self
        | ok _ => exact ⟨encoded, hencoded, not_lt.mp hsize, hverify⟩
  · rintro ⟨encoded, hencoded, hsize, hverify⟩
    simp only [hencoded, if_neg (not_lt.mpr hsize), hverify]
    exact ⟨_, rfl, rfl⟩

/-- Once the effect has been invoked, it is on record exactly if its result passes. -/
theorem perform_onRecord_iff {label : String} {clock : DateTime}
    (hexecuted : .execute ∈ (g.perform tool call label clock).invoked) :
    g.OnRecord (g.perform tool call label clock).gateway tool call ↔ g.ResultPasses tool call := by
  unfold perform at hexecuted ⊢
  cases hcheckpoint : tool.checkpoint call with
  | error error => simp [hcheckpoint] at hexecuted
  | ok rollbackId =>
    simp only [hcheckpoint] at hexecuted ⊢
    split_ifs at hexecuted ⊢ with hrequired
    · simp at hexecuted
    · cases hexecute : tool.execute (call.checkpointed rollbackId) with
      | error error =>
        -- a failed effect is audited, and has no result to check
        have hnone : ∀ id raw, tool.checkpoint call = .ok id →
            tool.execute (call.checkpointed id) ≠ .ok raw := by
          rintro id raw hid hraw
          obtain rfl := Except.ok.inj (hcheckpoint.symm.trans hid)
          cases hexecute.symm.trans hraw
        exact iff_of_true
          ⟨⟨_, rfl, callId_checkpointed call rollbackId⟩,
            fun id raw hid hraw => absurd hraw (hnone id raw hid)⟩
          fun id raw hid hraw => absurd hraw (hnone id raw hid)
      | ok raw =>
        constructor
        · rintro ⟨haudits, -⟩ id result hid hresult
          obtain rfl := Except.ok.inj (hcheckpoint.symm.trans hid)
          obtain rfl := Except.ok.inj (hexecute.symm.trans hresult)
          exact passes_of_conclude haudits
        · intro hpasses
          obtain ⟨haudits, hegress⟩ := conclude_audits label rollbackId clock
            (hpasses rollbackId raw hcheckpoint hexecute)
          rw [callId_checkpointed] at haudits hegress
          exact ⟨haudits, fun _ _ _ _ hleaves => hegress hleaves⟩

/-- Once the tool's rollback has been invoked, it is audited exactly if it succeeds and its
result passes. -/
theorem rollback_audits_iff {checkpointId : String} {clock : DateTime}
    (htool : g.tools call.toolId = some tool)
    (hexecuted : .rollback ∈ (g.rollback call checkpointId clock).invoked) :
    AuditsOnce g (g.rollback call checkpointId clock).gateway call.callId ↔
      g.RollbackPasses tool call checkpointId := by
  unfold rollback at hexecuted ⊢
  simp only [htool] at hexecuted ⊢
  split_ifs at hexecuted ⊢ with hreversible
  · simp at hexecuted
  · cases hsnapshot : tool.snapshotCurrent call with
    | error error => simp [hsnapshot] at hexecuted
    | ok rescueId =>
      cases rescueId with
      | none => simp [hsnapshot] at hexecuted
      | some rescueId =>
        unfold RollbackPasses
        cases hraw : tool.rollback call checkpointId with
        | error error => exact iff_of_false not_auditsOnce_self (by simp)
        | ok raw => simpa using concludeRollback_audits_iff

/-- **An effect is on record exactly if its result passes the checks that follow it.**  A call
of the gateway that invoked `execute` has appended one audit of the call, and if the effect
succeeded and leaves the machine, one egress record, if and only if a result of the effect can
be encoded, is small enough and is verified; a rollback that invoked the tool's has appended one
audit if and only if that succeeded, with a result that passes. -/
theorem effects_audited [Instants] (g : ToolGateway) (tool : ToolImplementation) (call : ToolCall)
    (htool : g.tools call.toolId = some tool) :
    (∀ (grants : List ConsentGrant) (now clock : DateTime),
      .execute ∈ (g.call call grants now clock).invoked →
      (g.OnRecord (g.call call grants now clock).gateway tool call ↔ g.ResultPasses tool call)) ∧
    ∀ (checkpointId : String) (clock : DateTime),
      .rollback ∈ (g.rollback call checkpointId clock).invoked →
      (AuditsOnce g (g.rollback call checkpointId clock).gateway call.callId ↔
        g.RollbackPasses tool call checkpointId) := by
  refine ⟨fun grants now clock hexecuted => ?_, fun checkpointId clock => rollback_audits_iff htool⟩
  unfold ToolGateway.call at hexecuted ⊢
  cases hinput : tool.validateInput call.input with
  | error error => simp [htool, hinput] at hexecuted
  | ok _ =>
    cases hdecision : PolicyEngine.decide (call.context tool) grants now with
    | ask reason => simp [htool, hinput, hdecision] at hexecuted
    | deny reason => simp [htool, hinput, hdecision] at hexecuted
    | allow label consentId =>
      simp only [htool, hinput, hdecision] at hexecuted ⊢
      exact perform_onRecord_iff hexecuted

end Results

/-! ### An effect without an audit -/

section Examples

/-- Everything is encoded as two bytes. -/
@[reducible] def twoBytes : JsonText := ⟨fun _ => .ok [123, 125]⟩

attribute [local instance] spelledTime twoBytes

/-- A tool that sends mail and answers `verify` as told. -/
def mailTool (verified : Except ToolError Unit) : ToolImplementation where
  descriptor := mailSend
  validateInput := fun _ => .ok ()
  checkpoint := fun _ => .ok none
  execute := fun _ => .ok .null
  verify := fun _ _ => verified

/-- A tool that edits a file and restores it. -/
def editTool (verified : Except ToolError Unit) : ToolImplementation where
  descriptor := { mailSend with id := "edit", effect := .localWrite, reversible := true }
  validateInput := fun _ => .ok ()
  checkpoint := fun _ => .ok (some "before")
  execute := fun _ => .ok .null
  verify := fun _ _ => .ok ()
  snapshotCurrent := fun _ => .ok (some "rescue")
  rollback := fun _ _ => .ok .null
  verifyRollback := fun _ _ _ => verified

/-- A call to one address. -/
def sampleCall (toolId : String) : ToolCall where
  callId := 7
  goalId := 1
  taskId := some 2
  toolId := toolId
  target := "alice@example.com"
  input := .null
  inputZones := {.userInstruction}
  grantedScopes := {"mail.send"}
  estimatedCostUsd := .finite 0
  background := false
  userPresent := true
  checkpointAvailable := true

def sampleGateway (verified : Except ToolError Unit) : ToolGateway :=
  ((new 100).register (mailTool verified)).register (editTool verified)

/-- **A failed verification leaves no trace.**  The mail has been sent and the file restored,
and neither an audit nor an egress record says so. -/
theorem unverified_effect_is_not_audited :
    let g := sampleGateway (.error (.postcondition "not delivered"))
    let sent := g.call (sampleCall "mail.send") [mailConsent] ⟨""⟩ ⟨""⟩
    let restored := g.rollback (sampleCall "edit") "before" ⟨""⟩
    .execute ∈ sent.invoked ∧ sent.gateway.audits = [] ∧ sent.gateway.egress = [] ∧
    .rollback ∈ restored.invoked ∧ restored.gateway.audits = [] := by
  decide +kernel

/-- With results that verify, the mail and the rollback are audited; without, the mail is not. -/
theorem effects_audited_verified :
    let g := sampleGateway (.ok ())
    let failing := sampleGateway (.error (.postcondition "not delivered"))
    g.OnRecord (g.call (sampleCall "mail.send") [mailConsent] ⟨""⟩ ⟨""⟩).gateway
      (mailTool (.ok ())) (sampleCall "mail.send") ∧
    AuditsOnce g (g.rollback (sampleCall "edit") "before" ⟨""⟩).gateway 7 ∧
    ¬failing.OnRecord (failing.call (sampleCall "mail.send") [mailConsent] ⟨""⟩ ⟨""⟩).gateway
      (mailTool (.error (.postcondition "not delivered"))) (sampleCall "mail.send") := by
  intro g failing
  have hmail := (effects_audited g (mailTool (.ok ())) (sampleCall "mail.send") rfl).1
    [mailConsent] ⟨""⟩ ⟨""⟩ (by decide +kernel)
  have hedit := (effects_audited g (editTool (.ok ())) (sampleCall "edit") rfl).2 "before" ⟨""⟩
    (by decide +kernel)
  have hfailing := (effects_audited failing _ (sampleCall "mail.send") rfl).1
    [mailConsent] ⟨""⟩ ⟨""⟩ (by decide +kernel)
  refine ⟨hmail.mpr ?_, hedit.mpr ⟨_, rfl, _, rfl, by decide, rfl⟩, fun honRecord => ?_⟩
  · rintro rollbackId raw ⟨⟩ ⟨⟩
    exact ⟨_, rfl, by decide, rfl⟩
  · obtain ⟨_, _, _, hverified⟩ := hfailing.mp honRecord none .null rfl rfl
    cases hverified

end Examples

end ToolGateway
end PersonalAgent.Tools
