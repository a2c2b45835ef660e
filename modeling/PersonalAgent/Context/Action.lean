/-
# Desktop actions

`crates/context/src/action.rs`: the ten actions of the desktop language, the effect each
has, the grants a caller presents for it and the postconditions it asks to have
verified.  `DesktopActionRequest.validate` refuses a request before anything native sees
it.
-/

import PersonalAgent.Context.Snapshot

namespace PersonalAgent.Context

open Lib

/-- Scope requested from the native capture session (`privacy.rs`). -/
inductive CaptureScope where
  | activeWindow
  | window (id : WindowId)
  | display (id : String)
  deriving DecidableEq, Repr

inductive InspectScope where
  | activeView
  | window (id : WindowId)
  | node (target : NodeHandle)
  deriving DecidableEq, Repr

inductive MouseButton where
  | primary
  | secondary
  | middle
  deriving DecidableEq, Repr

structure ApplicationTarget where
  stableId : String
  arguments : List String
  deriving DecidableEq, Repr

/-- Coarse effect category, evaluated outside all native adapters. -/
inductive DesktopEffect where
  | observe
  | navigate
  | interact
  | writeText
  | launchApplication
  deriving DecidableEq, Repr

inductive AuthorizationError where
  | effectNotApproved (effect : DesktopEffect)
  | userPresenceRequired
  | textApprovalRequired
  deriving DecidableEq, Repr

inductive ActionValidationError where
  | invalidRequestId
  | invalidApplicationId
  | invalidArguments
  | invalidClickCount
  | emptyText
  | emptyScroll
  | invalidDestination
  | invalidWait
  | invalidCondition
  | missingPostcondition
  | authorization (error : AuthorizationError)
  deriving DecidableEq, Repr

def ApplicationTarget.validate (application : ApplicationTarget) :
    Except ActionValidationError Unit :=
  if isBlank application.stableId || application.stableId.contains '\x00' then
    .error .invalidApplicationId
  else if application.arguments.length > 128 || application.arguments.any fun argument =>
      argument.contains '\x00' || argument.utf8ByteSize > 16384 then
    .error .invalidArguments
  else .ok ()

/-- Node lookup used by waits and postconditions. -/
inductive NodeSelector where
  | handle (handle : NodeHandle)
  | semantic (windowId : Option WindowId) (role : Option SemanticRole) (name : String)
  deriving DecidableEq, Repr

/-- Observable desktop state. -/
inductive DesktopCondition where
  | nodeExists (target : NodeSelector)
  | nodeFocused (target : NodeSelector)
  | nodeValueContains (target : NodeSelector) (text : String)
  | nodeValueEquals (target : NodeSelector) (text : String)
  | applicationActive (applicationId : String)
  | windowTitleContains (text : String)
  | windowExists (windowId : WindowId)
  deriving DecidableEq, Repr

def NodeSelector.targetHandle : NodeSelector → Option NodeHandle
  | .handle target => some target
  | .semantic .. => none

def NodeSelector.valid : NodeSelector → Bool
  | .handle target => !isBlank target.opaqueId
  | .semantic _ role name => role.isSome || !isBlank name

namespace DesktopCondition

def targetHandle : DesktopCondition → Option NodeHandle
  | nodeExists target | nodeFocused target | nodeValueContains target _
  | nodeValueEquals target _ => target.targetHandle
  | applicationActive _ | windowTitleContains _ | windowExists _ => none

def valid : DesktopCondition → Bool
  | nodeExists target | nodeFocused target => target.valid
  | nodeValueContains target text | nodeValueEquals target text => target.valid && !isBlank text
  | applicationActive text | windowTitleContains text => !isBlank text
  | windowExists windowId => !isBlank windowId.text

/-- `validate_condition`. -/
def validate (condition : DesktopCondition) : Except ActionValidationError Unit :=
  if condition.valid then .ok () else .error .invalidCondition

end DesktopCondition

/-- Cross-platform desktop action language. -/
inductive DesktopAction where
  | inspect (scope : InspectScope)
  | capture (scope : CaptureScope)
  | click (target : NodeHandle) (button : MouseButton) (clickCount : ℕ)
  | typeText (target : NodeHandle) (text : String) (replaceSelection : Bool)
  | scroll (target : Option NodeHandle) (deltaX deltaY : ℤ)
  | focus (target : NodeHandle)
  | launch (application : ApplicationTarget)
  | drag (target : NodeHandle) (destination : Rect)
  | waitFor (condition : DesktopCondition) (timeoutMs pollIntervalMs : ℕ)
  | assert (condition : DesktopCondition)
  deriving DecidableEq, Repr

namespace DesktopAction

def effect : DesktopAction → DesktopEffect
  | inspect _ | capture _ | waitFor .. | assert _ => .observe
  | focus _ | scroll .. => .navigate
  | click .. | drag .. => .interact
  | typeText .. => .writeText
  | launch _ => .launchApplication

def targetHandles : DesktopAction → List NodeHandle
  | inspect (.node target) | click target _ _ | typeText target _ _ | focus target
  | drag target _ | scroll (some target) _ _ => [target]
  | waitFor condition _ _ | assert condition => condition.targetHandle.toList
  | inspect _ | capture _ | scroll none _ _ | launch _ => []

def isLaunch : DesktopAction → Bool
  | launch _ => true
  | _ => false

def isTypeText : DesktopAction → Bool
  | typeText .. => true
  | _ => false

/-- Validate bounded values before policy evaluation or adapter dispatch. -/
def validate : DesktopAction → Except ActionValidationError Unit
  | click _ _ clickCount =>
    if 1 ≤ clickCount ∧ clickCount ≤ 3 then .ok () else .error .invalidClickCount
  | typeText _ text _ => if text.isEmpty then .error .emptyText else .ok ()
  | scroll _ deltaX deltaY => if deltaX = 0 ∧ deltaY = 0 then .error .emptyScroll else .ok ()
  | drag _ destination => if destination.isValid then .ok () else .error .invalidDestination
  | launch application => application.validate
  | waitFor condition timeoutMs pollIntervalMs =>
    if timeoutMs = 0 ∨ timeoutMs > 300000 ∨ pollIntervalMs < 25 ∨ pollIntervalMs > timeoutMs then
      .error .invalidWait
    else condition.validate
  | assert condition => condition.validate
  | inspect _ | capture _ | focus _ => .ok ()

end DesktopAction

/-- Call-scoped authorization from the approval layer. -/
structure ActionAuthorization where
  userPresent : Bool
  approvedEffects : Finset DesktopEffect
  sensitiveTextApproved : Bool

/-- Check a desktop effect before any backend receives it. -/
def ActionAuthorization.authorize (authorization : ActionAuthorization) (action : DesktopAction) :
    Except AuthorizationError Unit :=
  if action.effect ∉ authorization.approvedEffects then .error (.effectNotApproved action.effect)
  else if action.effect ≠ .observe ∧ !authorization.userPresent then .error .userPresenceRequired
  else if action.isTypeText && !authorization.sensitiveTextApproved then
    .error .textApprovalRequired
  else .ok ()

/-- Postcondition that must be observable in a fresh snapshot. -/
inductive Postcondition where
  | condition (condition : DesktopCondition)
  | generationAdvanced
  | applicationLaunched (applicationId : String)
  deriving DecidableEq, Repr

/-- One action request after policy planning. -/
structure DesktopActionRequest where
  requestId : String
  action : DesktopAction
  authorization : ActionAuthorization
  postconditions : List Postcondition

/-- Require identity, valid action input, authorization, and verification for effects. -/
def DesktopActionRequest.validate (request : DesktopActionRequest) :
    Except ActionValidationError Unit := do
  refuse (isBlank request.requestId || request.requestId.utf8ByteSize > 256) .invalidRequestId
  request.action.validate
  (request.authorization.authorize request.action).mapError .authorization
  refuse (request.action.effect ≠ .observe ∧ request.postconditions = []) .missingPostcondition

/-- What a request that validates was granted: its effect, in the presence of the user if
it is one, and the text if it types; and its effect is to be verified. -/
structure DesktopActionRequest.Granted (request : DesktopActionRequest) : Prop where
  approved : request.action.effect ∈ request.authorization.approvedEffects
  present : request.action.effect ≠ .observe → request.authorization.userPresent = true
  text : request.action.isTypeText = true → request.authorization.sensitiveTextApproved = true
  verifiable : request.action.effect ≠ .observe → request.postconditions ≠ []

theorem ActionAuthorization.authorize_ok {authorization : ActionAuthorization}
    {action : DesktopAction} (h : authorization.authorize action = .ok ()) :
    action.effect ∈ authorization.approvedEffects ∧
      (action.effect ≠ .observe → authorization.userPresent = true) ∧
      (action.isTypeText = true → authorization.sensitiveTextApproved = true) := by
  unfold authorize at h
  split_ifs at h with happroved hpresent htext
  refine ⟨happroved, fun heffect => ?_, fun htype => ?_⟩
  · simpa [heffect] using hpresent
  · simpa [htype] using htext

theorem DesktopActionRequest.granted_of_validate {request : DesktopActionRequest}
    (h : request.validate = .ok ()) : request.Granted := by
  obtain ⟨-, h⟩ := refuse_bind_ok h
  obtain ⟨-, h⟩ := unit_bind_ok h
  obtain ⟨hauthorize, h⟩ := unit_bind_ok h
  obtain ⟨happroved, hpresent, htext⟩ :=
    ActionAuthorization.authorize_ok (mapError_ok_iff.mp hauthorize)
  exact ⟨happroved, hpresent, htext, fun heffect hnone =>
    refuse_ok_iff.mp h ⟨heffect, hnone⟩⟩

end PersonalAgent.Context
