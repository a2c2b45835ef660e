/-
# Verified desktop actions

What `DesktopCoordinator::execute` does to the desktop, for every backend: at most one
native call, behind all checks, and a success only after a fresh snapshot has shown every
postcondition (`execute_verified`).

The actions that only observe never reach `execute_native`.  For the others the trace is
the status (unless something is launched), the native call, and the calls of the snapshot
that follows it.
-/

import PersonalAgent.Context.Traces

namespace PersonalAgent.Context

open Lib List DesktopCoordinator Desk

open DesktopCoordinator (TakenFrom requirePermission_ok_iff)

section

variable [UnicodeCase]

/-! ### What is verified -/

/-- A condition holds of a snapshot. -/
def DesktopCondition.HoldsOn (snapshot : ActiveViewSnapshot) : DesktopCondition → Prop
  | nodeExists target => ∃ node, findNode target snapshot = .ok node
  | nodeFocused target => ∃ node, findNode target snapshot = .ok node ∧ .focused ∈ node.states
  | nodeValueContains target text => ∃ node value, findNode target snapshot = .ok node ∧
      node.value = some value ∧ Core.containsText value text = true
  | nodeValueEquals target text => ∃ node, findNode target snapshot = .ok node ∧
      node.value = some text
  | applicationActive applicationId =>
    eqIgnoreAsciiCase snapshot.view.applicationId applicationId = true
  | windowTitleContains text =>
    Core.containsText (UnicodeCase.toLowercase snapshot.view.title)
      (UnicodeCase.toLowercase text) = true
  | windowExists windowId => snapshot.view.windowId = windowId

/-- A postcondition holds across an action. -/
def Postcondition.HoldsAcross (before after : ActiveViewSnapshot) : Postcondition → Prop
  | .condition expected => expected.HoldsOn after
  | generationAdvanced => before.generation.before after.generation = true
  | applicationLaunched applicationId =>
    (DesktopCondition.applicationActive applicationId).HoldsOn after

variable {snapshot before : ActiveViewSnapshot}

omit [UnicodeCase] in
theorem findNode_test_iff {target : NodeSelector} {test : AccessibilityNode → Bool} :
    (do let node ← findNode target snapshot; return test node) = .ok true ↔
      ∃ node, findNode target snapshot = .ok node ∧ test node = true := by
  rw [bind_ok_iff]
  simp only [pure_ok_iff]

variable {condition : DesktopCondition} {after : ActiveViewSnapshot}

theorem satisfied_true_iff :
    satisfied condition snapshot = .ok true ↔ condition.HoldsOn snapshot := by
  cases condition with
  | nodeExists target =>
    rw [satisfied, DesktopCondition.HoldsOn]
    cases findNode target snapshot <;> simp [Except.isOk, Except.toBool]
  | nodeFocused target =>
    rw [satisfied, findNode_test_iff]
    simp [DesktopCondition.HoldsOn]
  | nodeValueContains target text =>
    rw [satisfied, findNode_test_iff]
    simp [DesktopCondition.HoldsOn, Option.any_eq_true]
  | nodeValueEquals target text =>
    rw [satisfied, findNode_test_iff]
    simp [DesktopCondition.HoldsOn]
  | applicationActive applicationId => simp [satisfied, DesktopCondition.HoldsOn]
  | windowTitleContains text => simp [satisfied, DesktopCondition.HoldsOn]
  | windowExists windowId => simp [satisfied, DesktopCondition.HoldsOn]

theorem verifyCondition_ok_iff :
    verifyCondition condition snapshot = .ok () ↔ condition.HoldsOn snapshot := by
  rw [verifyCondition, bind_ok_iff, ← satisfied_true_iff]
  constructor
  · rintro ⟨met, hmet, hrefuse⟩
    rwa [not_not.mp (refuse_ok_iff.mp hrefuse)] at hmet
  · exact fun h => ⟨true, h, refuse_ok_iff.mpr (not_not.mpr rfl)⟩

theorem verifyPostcondition_ok_iff {postcondition : Postcondition} :
    verifyPostcondition before after postcondition = .ok () ↔
      postcondition.HoldsAcross before after := by
  cases postcondition with
  | condition condition => exact verifyCondition_ok_iff
  | generationAdvanced => exact refuse_ok_iff.trans not_not
  | applicationLaunched applicationId => exact verifyCondition_ok_iff

theorem verifyPostconditions_ok_iff {postconditions : List Postcondition} :
    verifyPostconditions postconditions before after = .ok () ↔
      ∀ postcondition ∈ postconditions, postcondition.HoldsAcross before after := by
  rw [verifyPostconditions, forM_ok_iff]
  exact forall₂_congr fun _ _ => verifyPostcondition_ok_iff

/-! ### The checks in front -/

/-- What the checks in front of an action establish. -/
structure Preflighted (policy : ScreenPrivacyPolicy) (request : DesktopActionRequest)
    (before : ActiveViewSnapshot) : Prop where
  validated : request.validate = .ok ()
  granted : request.Granted
  snapshot : before.validate = .ok ()
  allowed : policy.authorize .activeWindow before.view = .ok ()
  resolved : ∀ handle ∈ request.action.targetHandles, ∃ node, before.resolve handle = .ok node
  offered : ∀ target required label,
    requiredAction request.action = some (target, required, label) →
    ∃ node, before.resolve target = .ok node ∧ required ∈ node.actions ∧
      (request.action.isTypeText = true → .editable ∈ node.states ∧ .password ∉ node.states)

omit [UnicodeCase] in
theorem preflightSemanticAction_ok {action : DesktopAction}
    (h : preflightSemanticAction action snapshot = .ok ()) {target : NodeHandle}
    {required : NodeAction} {label : String}
    (haction : requiredAction action = some (target, required, label)) :
    ∃ node, snapshot.resolve target = .ok node ∧ required ∈ node.actions ∧
      (action.isTypeText = true → .editable ∈ node.states ∧ .password ∉ node.states) := by
  rw [preflightSemanticAction, haction] at h
  obtain ⟨node, hnode, h⟩ := bind_ok_iff.mp h
  obtain ⟨hrequired, h⟩ := refuse_bind_ok h
  have htype := refuse_ok_iff.mp h
  refine ⟨node, mapError_ok_iff.mp hnode, not_not.mp hrequired, fun htext => ?_⟩
  simpa [htext, AccessibilityNode.isSensitive] using htype

theorem preflighted_of_ok {σ : Type} {c : DesktopCoordinator σ} {request : DesktopActionRequest}
    (h : c.preflight request before = .ok ()) : Preflighted c.privacy request before := by
  obtain ⟨hrequest, h⟩ := unit_bind_ok h
  obtain ⟨hsnapshot, h⟩ := unit_bind_ok h
  obtain ⟨hallowed, h⟩ := unit_bind_ok h
  obtain ⟨hhandles, h⟩ := unit_bind_ok h
  have hvalidated := mapError_ok_iff.mp hrequest
  refine ⟨hvalidated, DesktopActionRequest.granted_of_validate hvalidated,
    mapError_ok_iff.mp hsnapshot, mapError_ok_iff.mp hallowed, fun handle hmem => ?_,
    fun target required label haction => preflightSemanticAction_ok h haction⟩
  obtain ⟨node, hnode, -⟩ := bind_ok_iff.mp (forM_ok_iff.mp hhandles handle hmem)
  exact ⟨node, mapError_ok_iff.mp hnode⟩

/-! ### Native calls -/

variable {σ : Type} {c : DesktopCoordinator σ}

/-- The call is not one of `execute_native`. -/
abbrev Quiet (call : BackendCall) : Prop := call.isNative = false

theorem asks_quiet_snapshot (scope : CaptureScope) : Desk.Asks Quiet (c.snapshot scope) :=
  asks_snapshot scope (fun _ => rfl) (fun _ => rfl) fun _ _ _ => rfl

omit [UnicodeCase] in
theorem asks_quiet_status : Desk.Asks Quiet c.status := asks_call fun _ => rfl

omit [UnicodeCase] in
theorem asks_quiet_now : Desk.Asks Quiet c.now :=
  fun _ => ⟨[], (append_nil _).symm, fun _ h => absurd h not_mem_nil⟩

omit [UnicodeCase] in
theorem asks_quiet_sleep (ms : ℕ) : Desk.Asks Quiet (c.sleep ms) :=
  fun _ => ⟨[], (append_nil _).symm, fun _ h => absurd h not_mem_nil⟩

theorem asks_quiet_waitLoop (condition : DesktopCondition) (timeoutMs pollIntervalMs deadline : ℕ)
    (turns : ℕ) :
    Desk.Asks Quiet (c.waitLoop condition timeoutMs pollIntervalMs deadline turns) := by
  induction turns with
  | zero => exact asks_check _ _
  | succ turns ih =>
    refine asks_quiet_now.bind fun now => (asks_check _ _).bind fun _ => ?_
    refine (asks_quiet_sleep _).bind fun _ => (asks_quiet_snapshot _).bind fun snapshot => ?_
    cases verifyCondition condition snapshot with
    | ok _ => exact asks_pure snapshot
    | error _ => exact ih

theorem asks_quiet_waitFor (condition : DesktopCondition) (timeoutMs pollIntervalMs : ℕ)
    (initial : ActiveViewSnapshot) :
    Desk.Asks Quiet (c.waitFor condition timeoutMs pollIntervalMs initial) := by
  rw [waitFor]
  cases verifyCondition condition initial with
  | ok _ => exact asks_pure initial
  | error _ => exact asks_quiet_now.bind fun now => asks_quiet_waitLoop _ _ _ _ _

theorem asks_quiet_capture (scope : CaptureScope) (snapshot : ActiveViewSnapshot) :
    Desk.Asks Quiet (c.capture scope snapshot) := by
  refine (asks_check _ _).bind fun _ => (asks_check _ _).bind fun _ => ?_
  refine asks_quiet_status.bind fun _ => (asks_check _ _).bind fun _ => ?_
  refine (asks_tryCall (P := Quiet) fun _ => rfl).bind fun _ => ?_
  exact (asks_check _ _).bind fun _ => asks_pure _

omit [UnicodeCase] in
theorem asks_quiet_requireInputControl (action : DesktopAction) :
    Desk.Asks Quiet (c.requireInputControl action) := by
  rw [requireInputControl]
  split_ifs
  · exact asks_pure ()
  · exact asks_quiet_status.bind fun _ => asks_check _ _

omit [UnicodeCase] in
/-- Input is permitted by the last status that was read, unless something is launched. -/
theorem requireInputControl_ok {action : DesktopAction} {d d' : Desktop σ}
    (h : c.requireInputControl action d = (.ok (), d')) (hlaunch : action.isLaunch = false) :
    ∃ status, d'.calls = d.calls ++ [.status status] ∧ status.inputControl = .granted := by
  rw [requireInputControl, if_neg (by rw [hlaunch]; decide)] at h
  obtain ⟨status, d₁, hstatus, hcheck⟩ := bind_ok_inv h
  obtain ⟨hgranted, rfl⟩ := check_ok_inv hcheck
  cases hstatus
  exact ⟨_, rfl, requirePermission_ok_iff.mp hgranted⟩

/-- What came of a native call: its own error, a success that was verified on a snapshot
taken after it, or an unverified effect with its evidence. -/
def Accounted (policy : ScreenPrivacyPolicy) (request : DesktopActionRequest)
    (before : ActiveViewSnapshot) (post : List BackendCall)
    (result : Except CoordinatorError DesktopActionOutcome) :
    Except BackendError NativeActionEvidence → Prop
  | .error error => result = .error (.backend error)
  | .ok evidence =>
    (∃ outcome, result = .ok outcome ∧ outcome.receipt.nativeEvidence = some evidence ∧
      TakenFrom policy .activeWindow post outcome.snapshot ∧
      ∀ postcondition ∈ request.postconditions,
        postcondition.HoldsAcross before outcome.snapshot) ∨
    ∃ reason, result = .error (.unverifiedEffect request.requestId evidence reason)

/-- The trace and the result of a request that reached the backend's input. -/
structure Effected (policy : ScreenPrivacyPolicy) (request : DesktopActionRequest)
    (before : ActiveViewSnapshot) (calls : List BackendCall)
    (result : Except CoordinatorError DesktopActionOutcome) : Prop where
  trace : ∃ pre reply post,
    calls = pre ++ .executeNative request.action before.generation reply :: post ∧
    (∀ call ∈ pre ++ post, Quiet call) ∧
    (request.action.isLaunch = false → ∃ status, pre.getLast? = some (.status status) ∧
      status.inputControl = .granted) ∧
    Accounted policy request before post result reply

/-- **After the native call** the desktop is only read, and the result is accounted for. -/
theorem verifyEffect_spec (request : DesktopActionRequest) (before : ActiveViewSnapshot)
    (evidence : NativeActionEvidence) (d : Desktop σ) :
    ∃ post, (c.verifyEffect request before evidence d).2.calls = d.calls ++ post ∧
      (∀ call ∈ post, Quiet call) ∧
      Accounted c.privacy request before post (c.verifyEffect request before evidence d).1
        (.ok evidence) := by
  obtain ⟨post, hpost, hquiet⟩ := asks_quiet_snapshot (c := c) .activeWindow d
  have hattempt : attempt (c.snapshot .activeWindow) d =
      (.ok (c.snapshot .activeWindow d).1, (c.snapshot .activeWindow d).2) := rfl
  rw [verifyEffect, bind_of_ok hattempt]
  rcases hsnapshot : c.snapshot .activeWindow d with ⟨error | after, d₁⟩
  · rw [hsnapshot] at hpost
    exact ⟨post, hpost, hquiet, .inr ⟨error, rfl⟩⟩
  rw [hsnapshot] at hpost
  obtain ⟨calls, hcalls, htaken⟩ := snapshot_ok hsnapshot
  obtain rfl : calls = post := append_cancel_left (hcalls.symm.trans hpost)
  dsimp only
  cases hverified : verifyPostconditions request.postconditions before after with
  | error error => exact ⟨calls, hpost, hquiet, .inr ⟨error, rfl⟩⟩
  | ok _ =>
    dsimp only
    rw [bind_of_ok (status_apply d₁)]
    refine ⟨calls ++ [.status (c.backend.status d₁.world).1], ?_, fun call hmem => ?_,
      .inl ⟨_, rfl, rfl, htaken.mono (subset_append_left _ _),
        verifyPostconditions_ok_iff.mp hverified⟩⟩
    · rw [← append_assoc, ← hpost]
      rfl
    · rcases mem_append.mp hmem with hcall | hcall
      · exact hquiet call hcall
      · rw [mem_singleton.mp hcall]
        rfl

/-- **An effect reaches the backend at most once**, and what comes of it is accounted
for. -/
theorem executeEffect_spec (request : DesktopActionRequest) (before : ActiveViewSnapshot)
    (world : σ) :
    (∀ call ∈ (c.executeEffect request before ⟨world, []⟩).2.calls, Quiet call) ∨
      Effected c.privacy request before (c.executeEffect request before ⟨world, []⟩).2.calls
        (c.executeEffect request before ⟨world, []⟩).1 := by
  obtain ⟨pre, hpre, hquiet⟩ := asks_quiet_requireInputControl (c := c) request.action ⟨world, []⟩
  rw [nil_append] at hpre
  rw [executeEffect]
  rcases hinput : c.requireInputControl request.action ⟨world, []⟩ with ⟨error | ⟨⟩, d⟩
  · rw [hinput] at hpre
    rw [bind_of_error hinput, hpre]
    exact .inl hquiet
  rw [hinput] at hpre
  dsimp only at hpre
  have hpermitted : request.action.isLaunch = false →
      ∃ status, pre.getLast? = some (.status status) ∧ status.inputControl = .granted := by
    intro hlaunch
    obtain ⟨status, hcalls, hgranted⟩ := requireInputControl_ok hinput hlaunch
    rw [nil_append, hpre] at hcalls
    exact ⟨status, by rw [hcalls]; rfl, hgranted⟩
  rw [bind_of_ok hinput]
  right
  cases hreply : (c.backend.executeNative request.action before.generation d.world).1 with
  | error error =>
    rw [bind_of_error (tryCall_of_error hreply)]
    refine ⟨pre, .error error, [], by rw [hpre], ?_, hpermitted, rfl⟩
    rwa [append_nil]
  | ok evidence =>
    rw [bind_of_ok (tryCall_of_ok hreply)]
    obtain ⟨post, hpost, hquiet', haccounted⟩ := verifyEffect_spec (c := c) request before evidence
      ⟨(c.backend.executeNative request.action before.generation d.world).2,
        d.calls ++ [.executeNative request.action before.generation (.ok evidence)]⟩
    refine ⟨pre, .ok evidence, post, ?_, fun call hmem => ?_, hpermitted, haccounted⟩
    · rw [hpost, hpre, append_assoc]
      rfl
    · exact (mem_append.mp hmem).elim (hquiet call) (hquiet' call)

theorem perform_cases (request : DesktopActionRequest) (before : ActiveViewSnapshot) :
    Desk.Asks Quiet (c.perform request before) ∨
      c.perform request before = c.executeEffect request before := by
  rw [perform]
  cases request.action with
  | inspect _ => exact .inl (asks_pure _)
  | capture scope => exact .inl ((asks_quiet_capture _ _).bind fun _ => asks_pure _)
  | assert _ => exact .inl ((asks_check _ _).bind fun _ => asks_pure _)
  | waitFor _ _ _ => exact .inl ((asks_quiet_waitFor _ _ _ _).bind fun _ => asks_pure _)
  | click _ _ _ | typeText _ _ _ | scroll _ _ _ | focus _ | launch _ | drag _ _ => exact .inr rfl

/-- **Verified actions.**  Whatever the backend answers, a request makes at most one native
call.  If it makes one, every check in front of it had passed and the last status that was
read permitted input, unless something is launched.  The error of a native call is the
result.  A native call that answers with evidence ends in success only if a snapshot taken
after it, and allowed by the privacy policy, shows every postcondition; otherwise it ends
in an unverified effect with that evidence. -/
theorem execute_verified (c : DesktopCoordinator σ) (world : σ) (request : DesktopActionRequest)
    (before : ActiveViewSnapshot) :
    let run := c.execute request before ⟨world, []⟩
    (∀ call ∈ run.2.calls, Quiet call) ∨
      Preflighted c.privacy request before ∧
        Effected c.privacy request before run.2.calls run.1 := by
  intro run
  cases hpreflight : c.preflight request before with
  | error error =>
    have hrun : run = (.error error, ⟨world, []⟩) :=
      bind_of_error (check_error hpreflight _)
    rw [hrun]
    exact .inl fun _ hmem => absurd hmem not_mem_nil
  | ok _ =>
    have hrun : run = c.perform request before ⟨world, []⟩ :=
      bind_of_ok (check_ok hpreflight _)
    rw [hrun]
    rcases perform_cases (c := c) request before with hobserves | heffect
    · obtain ⟨calls, hcalls, hquiet⟩ := hobserves ⟨world, []⟩
      rw [hcalls, nil_append]
      exact .inl hquiet
    · rw [heffect]
      exact (executeEffect_spec request before world).imp_right fun h =>
        ⟨preflighted_of_ok hpreflight, h⟩

end

section Examples

attribute [local instance] asciiCase

/-- The handle of a button in the mail window. -/
def sendButton : NodeHandle := ⟨⟨"inbox"⟩, ⟨1, 1⟩, "send"⟩

def mailWithButton : ActiveViewSnapshot :=
  { mailSnapshot with
    nodes := [{ handle := sendButton, role := .button, name := "Send", actions := {.press} }] }

def clickSend : DesktopActionRequest where
  requestId := "r1"
  action := .click sendButton .primary 1
  authorization := ⟨true, {.interact}, false⟩
  postconditions := [.generationAdvanced]

/-- **A native call that fails is not reported as an unverified effect**: the click reaches
the backend, which refuses it, and the request ends in the backend's error. -/
theorem native_failure_returned :
    let run := execute ⟨grantingBackend, vaultPolicy⟩ clickSend mailWithButton
      ⟨(), []⟩
    (∃ call ∈ run.2.calls, call.isNative = true) ∧ (∀ outcome, run.1 ≠ .ok outcome) ∧
      ∀ requestId evidence reason,
        run.1 ≠ .error (.unverifiedEffect requestId evidence reason) := by
  intro run
  have hrun : run = (.error (.backend (.operation "no input")),
      ⟨(), [.status ⟨.granted, .granted, .granted, "", ""⟩,
        .executeNative clickSend.action ⟨1, 1⟩ (.error (.operation "no input"))]⟩) := rfl
  rw [hrun]
  refine ⟨⟨_, mem_cons_of_mem _ mem_cons_self, rfl⟩, fun _ h => ?_, fun _ _ _ h => ?_⟩
  · cases h
  · cases h

end Examples

end PersonalAgent.Context
