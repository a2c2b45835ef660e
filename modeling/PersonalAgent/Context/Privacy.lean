/-
# Capture privacy

`crates/context/src/privacy.rs`: the user's rules, evaluated on the active view before
the desktop is read or captured.  `authorize` takes the scope of the request as well, but
asks of it only whether it is a display: a scope may name any window, and the exclusions
are compared with the window of the view.  `authorize_guarantees_iff` is the exact line
between the requests for which the exclusions bind and the others.

How `str::to_lowercase` maps the characters of Unicode is left open (`UnicodeCase`).
-/

import PersonalAgent.Context.Action

namespace PersonalAgent.Context

open Lib

open PersonalAgent.Core (toAsciiLowercase containsText)
/-- The lowercase mapping of the standard library. -/
class UnicodeCase where
  toLowercase : String → String

/-- `str::eq_ignore_ascii_case`. -/
def eqIgnoreAsciiCase (a b : String) : Bool := toAsciiLowercase a = toAsciiLowercase b

inductive PrivacyExclusion where
  | application (applicationId : String)
  | window (windowId : WindowId)
  | titleContains (text : String)
  deriving DecidableEq, Repr

/-- User-controlled capture rules. -/
structure ScreenPrivacyPolicy where
  captureEnabled : Bool := false
  allowFullDisplayCapture : Bool := false
  denySecureSurfaces : Bool := true
  exclusions : List PrivacyExclusion := []
  redactedRegions : List Rect := []
  redactSemanticsForApplications : List String := []

inductive PrivacyError where
  | captureDisabled
  | displayCaptureNotAllowed
  | secureSurface
  | excluded
  | invalidRedactionRegion
  deriving DecidableEq, Repr

def CaptureScope.isDisplay : CaptureScope → Bool
  | display _ => true
  | _ => false

section

variable [UnicodeCase]

def PrivacyExclusion.appliesTo (view : ActiveView) : PrivacyExclusion → Bool
  | application applicationId => eqIgnoreAsciiCase applicationId view.applicationId
  | window windowId => windowId = view.windowId
  | titleContains text => !isBlank text &&
      containsText (UnicodeCase.toLowercase view.title) (UnicodeCase.toLowercase text)

namespace ScreenPrivacyPolicy

variable (policy : ScreenPrivacyPolicy) (scope : CaptureScope) (view : ActiveView)

/-- Check capture access before invoking an operating-system picker or API. -/
def authorize : Except PrivacyError Unit := do
  refuse (!policy.captureEnabled) .captureDisabled
  refuse (scope.isDisplay && !policy.allowFullDisplayCapture) .displayCaptureNotAllowed
  refuse (policy.denySecureSurfaces && view.secureSurface) .secureSurface
  policy.exclusions.forM fun exclusion => refuse (exclusion.appliesTo view) .excluded
  refuse (policy.redactedRegions.any (!·.isValid)) .invalidRedactionRegion

def redactSemantics (policy : ScreenPrivacyPolicy) (applicationId : String) : Bool :=
  policy.redactSemanticsForApplications.any (eqIgnoreAsciiCase · applicationId)

/-! ### What an authorization guarantees -/

/-- A window exclusion names this window. -/
def excludesWindow (policy : ScreenPrivacyPolicy) (windowId : WindowId) : Prop :=
  .window windowId ∈ policy.exclusions

instance (policy : ScreenPrivacyPolicy) (windowId : WindowId) :
    Decidable (policy.excludesWindow windowId) :=
  inferInstanceAs (Decidable (_ ∈ _))

/-- The rules of the policy, for the view and for what the scope names. -/
structure Guarantees (policy : ScreenPrivacyPolicy) (scope : CaptureScope) (view : ActiveView) :
    Prop where
  enabled : policy.captureEnabled = true
  display : scope.isDisplay = true → policy.allowFullDisplayCapture = true
  secure : policy.denySecureSurfaces = true → view.secureSurface = false
  active : ¬policy.excludesWindow view.windowId
  named : ∀ windowId, scope = .window windowId → ¬policy.excludesWindow windowId

/-- The view is denied whatever is asked of it. -/
def deniesView : Bool :=
  !policy.captureEnabled || (policy.denySecureSurfaces && view.secureSurface) ||
    policy.exclusions.any (·.appliesTo view) || policy.redactedRegions.any (!·.isValid)

/-- The scope names an excluded window only where the view is denied anyway. -/
def ScopeRespected : Prop :=
  ∀ windowId, scope = .window windowId → policy.excludesWindow windowId →
    policy.deniesView view = true

variable {policy scope view}

/-- A request is authorized when no rule speaks against it. -/
theorem authorize_ok_iff : policy.authorize scope view = .ok () ↔
    policy.deniesView view = false ∧
      ¬(scope.isDisplay = true ∧ policy.allowFullDisplayCapture = false) := by
  constructor
  · intro h
    obtain ⟨henabled, h⟩ := refuse_bind_ok h
    obtain ⟨hdisplay, h⟩ := refuse_bind_ok h
    obtain ⟨hsecure, h⟩ := refuse_bind_ok h
    obtain ⟨hexcluded, h⟩ := unit_bind_ok h
    have hregions := refuse_ok_iff.mp h
    have hany : policy.exclusions.any (·.appliesTo view) = false := by
      rw [List.any_eq_false]
      exact fun exclusion hmem =>
        refuse_ok_iff.mp (forM_ok_iff.mp hexcluded exclusion hmem)
    refine ⟨?_, fun ⟨hscope, hallow⟩ => hdisplay (by rw [hscope, hallow]; rfl)⟩
    rw [Bool.not_eq_true] at henabled hsecure hregions
    rw [deniesView, henabled, hsecure, hany, hregions]
    rfl
  · rintro ⟨hdenied, hdisplay⟩
    simp only [deniesView, Bool.or_eq_false_iff] at hdenied
    obtain ⟨⟨⟨henabled, hsecure⟩, hexcluded⟩, hregions⟩ := hdenied
    have hdisplay : ¬(scope.isDisplay && !policy.allowFullDisplayCapture) = true := by
      simpa using hdisplay
    have hall : (policy.exclusions.forM fun exclusion =>
        refuse (exclusion.appliesTo view) PrivacyError.excluded) = .ok () :=
      forM_ok_iff.mpr fun exclusion hmem =>
        refuse_ok_iff.mpr (List.any_eq_false.mp hexcluded exclusion hmem)
    rw [authorize, refuse_neg (by rw [henabled]; decide), refuse_neg hdisplay,
      refuse_neg (by rw [hsecure]; decide), hall, refuse_neg (by rw [hregions]; decide)]
    rfl

/-- What holds of the view, and of a scope that is a display. -/
theorem guarantees_of_authorize (h : policy.authorize scope view = .ok ())
    (hnamed : ∀ windowId, scope = .window windowId → ¬policy.excludesWindow windowId) :
    policy.Guarantees scope view := by
  obtain ⟨hdenied, hdisplay⟩ := authorize_ok_iff.mp h
  simp only [deniesView, Bool.or_eq_false_iff] at hdenied
  obtain ⟨⟨⟨henabled, hsecure⟩, hexcluded⟩, -⟩ := hdenied
  refine ⟨by simpa using henabled, fun hscope => ?_, fun hdeny => ?_, fun hwindow => ?_, hnamed⟩
  · simpa [hscope] using hdisplay
  · simpa [hdeny] using hsecure
  · refine List.any_eq_false.mp hexcluded _ hwindow ?_
    exact decide_eq_true rfl

/-- **When an authorization binds what is captured**: exactly when the scope does not name
an excluded window beside a view that is allowed. -/
theorem authorize_guarantees_iff :
    (policy.authorize scope view = .ok () → policy.Guarantees scope view) ↔
      policy.ScopeRespected scope view := by
  constructor
  · rintro h windowId rfl hexcluded
    by_contra hallowed
    rw [Bool.not_eq_true] at hallowed
    have hok : policy.authorize (.window windowId) view = .ok () :=
      authorize_ok_iff.mpr ⟨hallowed, fun hdisplay => Bool.false_ne_true hdisplay.1⟩
    exact (h hok).named windowId rfl hexcluded
  · intro h hok
    refine guarantees_of_authorize hok fun windowId hscope hexcluded => ?_
    have hdenied := (authorize_ok_iff.mp hok).1
    rw [h windowId hscope hexcluded] at hdenied
    cases hdenied

end ScreenPrivacyPolicy

end

end PersonalAgent.Context
