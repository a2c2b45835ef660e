/-
# The desktop coordinator

`crates/context/src/coordinator.rs` over the traits of `backend.rs`.  The backend is any
machine that answers calls, and every call is kept with its answer (`Desktop.calls`), so
that a statement about all traces is one about this list.  Methods that return `Result`
are computations in `Desk`.

`wait_for` polls until its deadline.  A sleep takes at least as long as it is asked to,
so the number of polls is bounded, and the loop is given that many turns
(`waitTurns`).

An error that is reported as text inside another one (`error.to_string()`, and the debug
form of a condition) is kept as the value the text is made of.
-/

import PersonalAgent.Context.Privacy

namespace PersonalAgent.Context

open Lib

open PersonalAgent.Core (containsText)

/-! ### The backend -/

inductive PermissionState where
  | granted
  | denied (guidance : String)
  | notDetermined (guidance : String)
  | unavailable (reason : String)
  deriving DecidableEq, Repr

/-- What the coordinator reads of the backend's status. -/
structure DesktopBackendStatus where
  screenCapture : PermissionState
  accessibility : PermissionState
  inputControl : PermissionState
  accessibilityBackend : String
  inputBackend : String
  deriving DecidableEq, Repr

inductive BackendError where
  | unavailable (reason : String)
  | permissionDenied (reason : String)
  | disconnected (reason : String)
  | invalidData (reason : String)
  | operation (reason : String)
  deriving DecidableEq, Repr

structure ActiveViewObservation where
  generation : SnapshotGeneration
  observedAtUnixMs : ℕ
  view : ActiveView

/-- Evidence emitted by a native action. -/
structure NativeActionEvidence where
  backendOperation : String
  nativeTargetId : Option String
  changed : Bool
  deriving DecidableEq, Repr

/-- A backend and the clock beside it, as a machine with states `σ`. -/
structure DesktopBackend (σ : Type) where
  status : σ → DesktopBackendStatus × σ
  activeView : σ → Except BackendError ActiveViewObservation × σ
  accessibilityNodes : ActiveView → SnapshotGeneration → σ →
    Except BackendError (List AccessibilityNode) × σ
  captureFrame : CaptureScope → SnapshotGeneration → List Rect → σ →
    Except BackendError CapturedFrame × σ
  executeNative : DesktopAction → SnapshotGeneration → σ →
    Except BackendError NativeActionEvidence × σ
  now : σ → ℕ
  sleep : ℕ → σ → σ

/-- A call of the backend with its answer. -/
inductive BackendCall where
  | status (reply : DesktopBackendStatus)
  | activeView (reply : Except BackendError ActiveViewObservation)
  | accessibilityNodes (view : ActiveView) (generation : SnapshotGeneration)
      (reply : Except BackendError (List AccessibilityNode))
  | captureFrame (scope : CaptureScope) (generation : SnapshotGeneration)
      (redactedRegions : List Rect) (reply : Except BackendError CapturedFrame)
  | executeNative (action : DesktopAction) (generation : SnapshotGeneration)
      (reply : Except BackendError NativeActionEvidence)

def BackendCall.isNative : BackendCall → Bool
  | executeNative .. => true
  | _ => false

/-! ### Computations -/

/-- Why a condition failed. -/
inductive ConditionFailure where
  | nodeDoesNotExist
  | generationDidNotAdvance
  | unmet (condition : DesktopCondition)
  deriving DecidableEq, Repr

/-- Context and control coordination failure. -/
inductive CoordinatorError where
  | validation (error : ActionValidationError)
  | privacy (error : PrivacyError)
  | backend (error : BackendError)
  | model (error : ContextModelError)
  | unsupportedNodeAction (label : String)
  | conditionFailed (failure : ConditionFailure)
  | waitTimeout (timeoutMs : ℕ)
  | unverifiedEffect (requestId : String) (evidence : NativeActionEvidence)
      (reason : CoordinatorError)
  deriving DecidableEq, Repr

/-- The world and the calls that were made in it. -/
structure Desktop (σ : Type) where
  world : σ
  calls : List BackendCall := []

/-- A computation that calls the backend. -/
def Desk (σ α : Type) : Type := Desktop σ → Except CoordinatorError α × Desktop σ

namespace Desk

variable {σ α β : Type}

instance : Monad (Desk σ) where
  pure a := fun d => (.ok a, d)
  bind x f := fun d =>
    match x d with
    | (.ok a, d) => f a d
    | (.error e, d) => (.error e, d)

/-- A step that does not call the backend. -/
def check {ε : Type} (embed : ε → CoordinatorError) (x : Except ε α) : Desk σ α :=
  fun d => (x.mapError embed, d)

def call (answer : σ → α × σ) (record : α → BackendCall) : Desk σ α := fun d =>
  let (reply, world) := answer d.world
  (.ok reply, ⟨world, d.calls ++ [record reply]⟩)

/-- A call that can fail. -/
def tryCall (answer : σ → Except BackendError α × σ)
    (record : Except BackendError α → BackendCall) : Desk σ α := do
  let reply ← call answer record
  check .backend reply

/-- The result of a computation, as a value. -/
def attempt (x : Desk σ α) : Desk σ (Except CoordinatorError α) := fun d =>
  (.ok (x d).1, (x d).2)

end Desk

/-! ### Outcomes -/

structure DesktopActionReceipt where
  requestId : String
  effect : DesktopEffect
  backend : String
  beforeGeneration : SnapshotGeneration
  afterGeneration : SnapshotGeneration
  nativeEvidence : Option NativeActionEvidence
  verifiedPostconditions : ℕ
  verified : Bool
  deriving DecidableEq, Repr

structure DesktopActionOutcome where
  receipt : DesktopActionReceipt
  snapshot : ActiveViewSnapshot
  capturedFrame : Option CapturedFrame

def observeOutcome (request : DesktopActionRequest) (snapshot : ActiveViewSnapshot)
    (capturedFrame : Option CapturedFrame) : DesktopActionOutcome where
  receipt := {
    requestId := request.requestId
    effect := .observe
    backend := snapshot.backend
    beforeGeneration := snapshot.generation
    afterGeneration := snapshot.generation
    nativeEvidence := none
    verifiedPostconditions := request.postconditions.length
    verified := true }
  snapshot := snapshot
  capturedFrame := capturedFrame

/-! ### Checks -/

def requirePermission (permission : PermissionState) (capability : String) :
    Except CoordinatorError Unit :=
  let refused (reason : String) : Except CoordinatorError Unit :=
    .error (.backend (.permissionDenied s!"{capability}: {reason}"))
  match permission with
  | .granted => .ok ()
  | .denied guidance | .notDetermined guidance => refused guidance
  | .unavailable reason => refused reason

def redactNode (node : AccessibilityNode) : AccessibilityNode :=
  { node with name := "", description := none, value := none, properties := [] }

/-- The node an action is about, what it has to offer, and the label of the refusal. -/
def requiredAction : DesktopAction → Option (NodeHandle × NodeAction × String)
  | .click target _ _ => some (target, .press, "press")
  | .typeText target _ replaceSelection =>
    some (target, if replaceSelection then .replaceSelection else .setValue, "edit text")
  | .scroll (some target) _ _ => some (target, .scroll, "scroll")
  | .focus target => some (target, .focus, "focus")
  | .drag target _ => some (target, .drag, "drag")
  | _ => none

def preflightSemanticAction (action : DesktopAction) (snapshot : ActiveViewSnapshot) :
    Except CoordinatorError Unit :=
  match requiredAction action with
  | none => .ok ()
  | some (target, required, label) => do
    let node ← (snapshot.resolve target).mapError .model
    refuse (required ∉ node.actions) (.unsupportedNodeAction label)
    refuse (action.isTypeText && (.editable ∉ node.states || node.isSensitive))
      (.unsupportedNodeAction "edit a non-editable or password field")

def findNode (selector : NodeSelector) (snapshot : ActiveViewSnapshot) :
    Except CoordinatorError AccessibilityNode :=
  match selector with
  | .handle target => (snapshot.resolve target).mapError .model
  | .semantic windowId role name =>
    match snapshot.nodes.find? fun node =>
        windowId.all (· = node.handle.windowId) && role.all (· = node.role) &&
          (name.isEmpty || eqIgnoreAsciiCase node.name name) with
    | some node => .ok node
    | none => .error (.conditionFailed .nodeDoesNotExist)

section

variable [UnicodeCase]

/-- Whether a condition is satisfied, as far as its node can be found. -/
def satisfied (condition : DesktopCondition) (snapshot : ActiveViewSnapshot) :
    Except CoordinatorError Bool :=
  match condition with
  | .nodeExists target => .ok (findNode target snapshot).isOk
  | .nodeFocused target => do
    let node ← findNode target snapshot
    return decide (.focused ∈ node.states)
  | .nodeValueContains target text => do
    let node ← findNode target snapshot
    return node.value.any (containsText · text)
  | .nodeValueEquals target text => do
    let node ← findNode target snapshot
    return decide (node.value = some text)
  | .applicationActive applicationId =>
    .ok (eqIgnoreAsciiCase snapshot.view.applicationId applicationId)
  | .windowTitleContains text =>
    .ok (containsText (UnicodeCase.toLowercase snapshot.view.title) (UnicodeCase.toLowercase text))
  | .windowExists windowId => .ok (decide (snapshot.view.windowId = windowId))

def verifyCondition (condition : DesktopCondition) (snapshot : ActiveViewSnapshot) :
    Except CoordinatorError Unit := do
  let met ← satisfied condition snapshot
  refuse (¬met) (.conditionFailed (.unmet condition))

def verifyPostcondition (before after : ActiveViewSnapshot) :
    Postcondition → Except CoordinatorError Unit
  | .condition condition => verifyCondition condition after
  | .generationAdvanced =>
    refuse (¬before.generation.before after.generation)
      (.conditionFailed .generationDidNotAdvance)
  | .applicationLaunched applicationId => verifyCondition (.applicationActive applicationId) after

def verifyPostconditions (postconditions : List Postcondition)
    (before after : ActiveViewSnapshot) : Except CoordinatorError Unit :=
  postconditions.forM (verifyPostcondition before after)

/-! ### The coordinator -/

structure DesktopCoordinator (σ : Type) where
  backend : DesktopBackend σ
  privacy : ScreenPrivacyPolicy

namespace DesktopCoordinator

variable {σ : Type} (c : DesktopCoordinator σ)

def status : Desk σ DesktopBackendStatus := .call c.backend.status .status

/-- The snapshot that is put together from what the backend answered. -/
def assemble (observation : ActiveViewObservation) (nodes : List AccessibilityNode)
    (status : DesktopBackendStatus) : ActiveViewSnapshot where
  generation := observation.generation
  observedAtUnixMs := observation.observedAtUnixMs
  view := observation.view
  nodes := if c.privacy.redactSemantics observation.view.applicationId then nodes.map redactNode
    else nodes
  frame := none
  backend := status.accessibilityBackend
  degradedReasons := []

/-- Collect semantic context only after active-window privacy evaluation. -/
def snapshot (scope : CaptureScope) : Desk σ ActiveViewSnapshot := do
  let status ← c.status
  Desk.check id (requirePermission status.accessibility "accessibility")
  let observation ← Desk.tryCall c.backend.activeView .activeView
  Desk.check .privacy (c.privacy.authorize scope observation.view)
  let nodes ← Desk.tryCall
    (c.backend.accessibilityNodes observation.view observation.generation)
    (.accessibilityNodes observation.view observation.generation)
  let status ← c.status
  Desk.check .model (c.assemble observation nodes status).validate
  return c.assemble observation nodes status

/-- The checks on a frame that was returned. -/
def checkFrame (snapshot : ActiveViewSnapshot) (frame : CapturedFrame) :
    Except CoordinatorError Unit := do
  (frame.validate snapshot.generation).mapError .model
  refuse (2 ^ 32 ≤ c.privacy.redactedRegions.length)
    (.backend (.invalidData "too many privacy redactions"))
  refuse (frame.descriptor.redactedRegions < c.privacy.redactedRegions.length)
    (.backend (.invalidData "native capture did not attest every requested redaction"))

/-- Capture one frame after privacy and generation checks. -/
def capture (scope : CaptureScope) (snapshot : ActiveViewSnapshot) : Desk σ CapturedFrame := do
  Desk.check .model snapshot.validate
  Desk.check .privacy (c.privacy.authorize scope snapshot.view)
  let status ← c.status
  Desk.check id (requirePermission status.screenCapture "screen capture")
  let frame ← Desk.tryCall
    (c.backend.captureFrame scope snapshot.generation c.privacy.redactedRegions)
    (.captureFrame scope snapshot.generation c.privacy.redactedRegions)
  Desk.check id (c.checkFrame snapshot frame)
  return frame

def now : Desk σ ℕ := fun d => (.ok (c.backend.now d.world), d)

def sleep (ms : ℕ) : Desk σ Unit := fun d =>
  (.ok (), { d with world := c.backend.sleep ms d.world })

/-- The turns of the loop of `wait_for`. -/
def waitLoop (condition : DesktopCondition) (timeoutMs pollIntervalMs deadline : ℕ) :
    ℕ → Desk σ ActiveViewSnapshot
  | 0 => Desk.check id (.error (.waitTimeout timeoutMs))
  | turns + 1 => do
    let now ← c.now
    Desk.check id (refuse (now ≥ deadline) (.waitTimeout timeoutMs))
    c.sleep pollIntervalMs
    let snapshot ← c.snapshot .activeWindow
    match verifyCondition condition snapshot with
    | .ok () => return snapshot
    | .error _ => waitLoop condition timeoutMs pollIntervalMs deadline turns

/-- Polls that fit before the deadline, with the one that finds it past. -/
def waitTurns (timeoutMs pollIntervalMs : ℕ) : ℕ := timeoutMs / pollIntervalMs + 2

def waitFor (condition : DesktopCondition) (timeoutMs pollIntervalMs : ℕ)
    (initial : ActiveViewSnapshot) : Desk σ ActiveViewSnapshot :=
  match verifyCondition condition initial with
  | .ok () => return initial
  | .error _ => do
    let now ← c.now
    c.waitLoop condition timeoutMs pollIntervalMs (now + timeoutMs)
      (waitTurns timeoutMs pollIntervalMs)

/-- Everything but a launch needs the permission to control input. -/
def requireInputControl (action : DesktopAction) : Desk σ Unit :=
  if action.isLaunch then return ()
  else do
    let status ← c.status
    Desk.check id (requirePermission status.inputControl "input control")

/-- What `execute_effect` does once the native call has answered with evidence. -/
def verifyEffect (request : DesktopActionRequest) (before : ActiveViewSnapshot)
    (evidence : NativeActionEvidence) : Desk σ DesktopActionOutcome := do
  match ← Desk.attempt (c.snapshot .activeWindow) with
  | .error error => Desk.check id (.error (.unverifiedEffect request.requestId evidence error))
  | .ok after =>
    match verifyPostconditions request.postconditions before after with
    | .error error => Desk.check id (.error (.unverifiedEffect request.requestId evidence error))
    | .ok () =>
      let status ← c.status
      return {
        receipt := {
          requestId := request.requestId
          effect := request.action.effect
          backend := status.inputBackend
          beforeGeneration := before.generation
          afterGeneration := after.generation
          nativeEvidence := some evidence
          verifiedPostconditions := request.postconditions.length
          verified := true }
        snapshot := after
        capturedFrame := none }

def executeEffect (request : DesktopActionRequest) (before : ActiveViewSnapshot) :
    Desk σ DesktopActionOutcome := do
  c.requireInputControl request.action
  let evidence ← Desk.tryCall (c.backend.executeNative request.action before.generation)
    (.executeNative request.action before.generation)
  c.verifyEffect request before evidence

/-- The checks in front of every action. -/
def preflight (request : DesktopActionRequest) (before : ActiveViewSnapshot) :
    Except CoordinatorError Unit := do
  request.validate.mapError .validation
  before.validate.mapError .model
  (c.privacy.authorize .activeWindow before.view).mapError .privacy
  request.action.targetHandles.forM fun handle => do
    let _ ← (before.resolve handle).mapError .model
  preflightSemanticAction request.action before

/-- What each action does once it has passed the checks. -/
def perform (request : DesktopActionRequest) (before : ActiveViewSnapshot) :
    Desk σ DesktopActionOutcome :=
  match request.action with
  | .inspect _ => return observeOutcome request before none
  | .capture scope => do
    let frame ← c.capture scope before
    return observeOutcome request { before with frame := some frame.descriptor } (some frame)
  | .assert condition => do
    Desk.check id (verifyCondition condition before)
    return observeOutcome request before none
  | .waitFor condition timeoutMs pollIntervalMs => do
    let snapshot ← c.waitFor condition timeoutMs pollIntervalMs before
    return observeOutcome request snapshot none
  | _ => c.executeEffect request before

/-- Execute or observe one request and report success only after verification. -/
def execute (request : DesktopActionRequest) (before : ActiveViewSnapshot) :
    Desk σ DesktopActionOutcome := do
  Desk.check id (c.preflight request before)
  c.perform request before

end DesktopCoordinator

end

end PersonalAgent.Context
