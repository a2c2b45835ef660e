/-
# Traces of the coordinator

What each method of the coordinator asks of the backend, whatever the backend answers.
`Desk.Asks P x` says that every call a computation makes satisfies `P`; it is closed
under sequencing, so that the methods are read off one line at a time.

The exclusions of windows reach the backend through `capture` alone
(`exclusions_bind_capture`).
-/

import PersonalAgent.Context.Coordinator

namespace PersonalAgent.Context

open Desk

open List

namespace Desk

variable {σ α β ε : Type}

variable {x : Desk σ α} {f : α → Desk σ β} {d d' : Desktop σ} {a : α} {embed : ε → CoordinatorError}
  {answer : σ → Except BackendError α × σ} {record : Except BackendError α → BackendCall}

theorem bind_of_ok (h : x d = (.ok a, d')) : (x >>= f) d = f a d' := by
  simp only [bind, h]

theorem bind_of_error {e : CoordinatorError} (h : x d = (.error e, d')) :
    (x >>= f) d = (.error e, d') := by
  simp only [bind, h]

theorem check_ok {x : Except ε α} (h : x = .ok a) (d : Desktop σ) :
    check embed x d = (.ok a, d) := by
  rw [h]
  rfl

theorem check_error {x : Except ε α} {e : ε} (h : x = .error e) (d : Desktop σ) :
    check (σ := σ) embed x d = (.error (embed e), d) := by
  rw [h]
  rfl

/-- A sequence that returns returned in both parts. -/
theorem bind_ok_inv {b : β} (h : (x >>= f) d = (.ok b, d')) :
    ∃ a d₁, x d = (.ok a, d₁) ∧ f a d₁ = (.ok b, d') := by
  rcases hx : x d with ⟨_ | a, d₁⟩
  · rw [bind_of_error hx] at h
    cases h
  · rw [bind_of_ok hx] at h
    exact ⟨a, d₁, rfl, h⟩

theorem check_ok_inv {x : Except ε α} (h : check embed x d = (.ok a, d')) : x = .ok a ∧ d' = d := by
  rcases x with e | a'
  · cases h
  · cases h
    exact ⟨rfl, rfl⟩

/-- A check in front of a sequence that returns. -/
theorem check_bind_ok_inv {x : Except ε α} {b : β} (h : (check embed x >>= f) d = (.ok b, d')) :
    ∃ a, x = .ok a ∧ f a d = (.ok b, d') := by
  obtain ⟨a, d₁, hcheck, hrest⟩ := bind_ok_inv h
  obtain ⟨hx, rfl⟩ := check_ok_inv hcheck
  exact ⟨a, hx, hrest⟩

theorem tryCall_ok_inv (h : tryCall answer record d = (.ok a, d')) :
    d'.calls = d.calls ++ [record (.ok a)] := by
  obtain ⟨reply, d₁, hcall, hcheck⟩ := bind_ok_inv h
  obtain ⟨hreply, rfl⟩ := check_ok_inv hcheck
  cases hcall
  rw [← hreply]

/-- Every call that `x` makes satisfies `P`. -/
def Asks (P : BackendCall → Prop) (x : Desk σ α) : Prop :=
  ∀ d, ∃ calls, (x d).2.calls = d.calls ++ calls ∧ ∀ call ∈ calls, P call

variable {P : BackendCall → Prop}

theorem asks_pure (a : α) : Asks P (pure a : Desk σ α) :=
  fun _ => ⟨[], (append_nil _).symm, fun _ h => absurd h not_mem_nil⟩

theorem asks_check (embed : ε → CoordinatorError) (x : Except ε α) :
    Asks P (check embed x : Desk σ α) :=
  fun _ => ⟨[], (append_nil _).symm, fun _ h => absurd h not_mem_nil⟩

theorem asks_call {answer : σ → α × σ} {record : α → BackendCall} (h : ∀ reply, P (record reply)) :
    Asks P (call answer record) :=
  fun d => ⟨[record (answer d.world).1], rfl, fun _ hmem => mem_singleton.mp hmem ▸ h _⟩

theorem Asks.bind (hx : Asks P x) (hf : ∀ a, Asks P (f a)) : Asks P (x >>= f) := by
  intro d
  obtain ⟨calls, hcalls, hP⟩ := hx d
  rcases hd : x d with ⟨_ | a, d₁⟩
  · rw [bind_of_error hd]
    rw [hd] at hcalls
    exact ⟨calls, hcalls, hP⟩
  · rw [bind_of_ok hd]
    rw [hd] at hcalls
    obtain ⟨calls', hcalls', hP'⟩ := hf a d₁
    refine ⟨calls ++ calls', ?_, fun call hmem =>
      (mem_append.mp hmem).elim (hP call) (hP' call)⟩
    rw [hcalls', hcalls, append_assoc]

/-- A computation that may ask nothing makes no call. -/
theorem Asks.calls_eq (hx : Asks (fun _ => False) x) (d : Desktop σ) : (x d).2.calls = d.calls := by
  obtain ⟨calls, hcalls, hnone⟩ := hx d
  rw [hcalls, eq_nil_iff_forall_not_mem.mpr hnone, append_nil]

/-- What follows adds nothing to the trace. -/
theorem calls_bind_of_silent (hf : ∀ a, Asks (fun _ => False) (f a)) (d : Desktop σ) :
    ((x >>= f) d).2.calls = (x d).2.calls := by
  rcases hd : x d with ⟨_ | a, d₁⟩
  · rw [bind_of_error hd]
  · rw [bind_of_ok hd, (hf a).calls_eq]

theorem calls_tryCall (answer : σ → Except BackendError α × σ)
    (record : Except BackendError α → BackendCall) (d : Desktop σ) :
    (tryCall answer record d).2.calls = d.calls ++ [record (answer d.world).1] :=
  calls_bind_of_silent (fun _ => asks_check _ _) d

theorem tryCall_of_ok (h : (answer d.world).1 = .ok a) : tryCall answer record d =
      (.ok a, ⟨(answer d.world).2, d.calls ++ [record (.ok a)]⟩) := by
  have hcall : call answer record d = (.ok (answer d.world).1,
      ⟨(answer d.world).2, d.calls ++ [record (answer d.world).1]⟩) := rfl
  rw [← h]
  exact (bind_of_ok hcall).trans (check_ok h _)

theorem tryCall_of_error {e : BackendError} (h : (answer d.world).1 = .error e) :
    tryCall answer record d =
      (.error (.backend e), ⟨(answer d.world).2, d.calls ++ [record (.error e)]⟩) := by
  have hcall : call answer record d = (.ok (answer d.world).1,
      ⟨(answer d.world).2, d.calls ++ [record (answer d.world).1]⟩) := rfl
  rw [← h]
  exact (bind_of_ok hcall).trans (check_error h _)

theorem asks_tryCall (h : ∀ reply, P (record reply)) : Asks P (tryCall answer record) :=
  (asks_call h).bind fun _ => asks_check _ _

end Desk

namespace DesktopCoordinator

variable [UnicodeCase] {σ : Type} {c : DesktopCoordinator σ} {P : BackendCall → Prop}

/-- The desktop after the backend was asked for its status. -/
def afterStatus (c : DesktopCoordinator σ) (d : Desktop σ) : Desktop σ where
  world := (c.backend.status d.world).2
  calls := d.calls ++ [.status (c.backend.status d.world).1]

omit [UnicodeCase] in
theorem status_apply (d : Desktop σ) :
    c.status d = (.ok (c.backend.status d.world).1, c.afterStatus d) := rfl

/-! ### Snapshots -/

theorem asks_snapshot (scope : CaptureScope) (hstatus : ∀ reply, P (.status reply))
    (hview : ∀ reply, P (.activeView reply))
    (hnodes : ∀ view generation reply, P (.accessibilityNodes view generation reply)) :
    Desk.Asks P (c.snapshot scope) := by
  refine (asks_call hstatus).bind fun _ => (asks_check _ _).bind fun _ => ?_
  refine (asks_tryCall hview).bind fun observation => (asks_check _ _).bind fun _ => ?_
  refine (asks_tryCall (hnodes _ _)).bind fun nodes =>
    (asks_call hstatus).bind fun _ => ?_
  exact (asks_check _ _).bind fun _ => asks_pure _

/-- The snapshot was put together from answers among `calls`, after the privacy policy had
allowed the view, and is valid. -/
structure TakenFrom (policy : ScreenPrivacyPolicy) (scope : CaptureScope)
    (calls : List BackendCall) (snapshot : ActiveViewSnapshot) : Prop where
  answered : ∃ observation nodes, .activeView (.ok observation) ∈ calls ∧
    .accessibilityNodes observation.view observation.generation (.ok nodes) ∈ calls ∧
    snapshot.view = observation.view ∧ snapshot.generation = observation.generation ∧
    snapshot.nodes = if policy.redactSemantics observation.view.applicationId then
      nodes.map redactNode else nodes
  allowed : policy.authorize scope snapshot.view = .ok ()
  valid : snapshot.validate = .ok ()

theorem TakenFrom.mono {policy : ScreenPrivacyPolicy} {scope : CaptureScope}
    {calls calls' : List BackendCall} {snapshot : ActiveViewSnapshot}
    (h : TakenFrom policy scope calls snapshot) (hsub : calls ⊆ calls') :
    TakenFrom policy scope calls' snapshot := by
  obtain ⟨observation, nodes, hview, hnodes, hrest⟩ := h.answered
  exact ⟨⟨observation, nodes, hsub hview, hsub hnodes, hrest⟩, h.allowed, h.valid⟩

/-- **A snapshot that is returned was taken now**, from answers to the calls it made. -/
theorem snapshot_ok {scope : CaptureScope} {d d' : Desktop σ} {s : ActiveViewSnapshot}
    (h : c.snapshot scope d = (.ok s, d')) :
    ∃ calls, d'.calls = d.calls ++ calls ∧ TakenFrom c.privacy scope calls s := by
  obtain ⟨status, d₁, hstatus, h⟩ := bind_ok_inv h
  obtain ⟨_, -, h⟩ := check_bind_ok_inv h
  obtain ⟨observation, d₂, hview, h⟩ := bind_ok_inv h
  obtain ⟨_, hallowed, h⟩ := check_bind_ok_inv h
  obtain ⟨nodes, d₃, hnodes, h⟩ := bind_ok_inv h
  obtain ⟨status', d₄, hstatus', h⟩ := bind_ok_inv h
  obtain ⟨_, hvalid, h⟩ := check_bind_ok_inv h
  cases h
  refine ⟨[.status status, .activeView (.ok observation), .accessibilityNodes observation.view
    observation.generation (.ok nodes), .status status'], ?_,
    ⟨observation, nodes, by simp, by simp, rfl, rfl, rfl⟩, hallowed, hvalid⟩
  cases hstatus
  cases hstatus'
  rw [tryCall_ok_inv hnodes, tryCall_ok_inv hview]
  simp only [append_assoc, cons_append, nil_append]

/-! ### Captures -/

omit [UnicodeCase] in
theorem requirePermission_ok_iff {permission : PermissionState} {capability : String} :
    requirePermission permission capability = .ok () ↔ permission = .granted := by
  cases permission <;> simp [requirePermission]

/-- What is asked once the checks in front of a capture have passed. -/
def captureCalls (c : DesktopCoordinator σ) (scope : CaptureScope) (snapshot : ActiveViewSnapshot)
    (world : σ) : List BackendCall :=
  .status (c.backend.status world).1 ::
    if (c.backend.status world).1.screenCapture = .granted then
      [.captureFrame scope snapshot.generation c.privacy.redactedRegions
        (c.backend.captureFrame scope snapshot.generation c.privacy.redactedRegions
          (c.backend.status world).2).1]
    else []

/-- **The trace of a capture.** -/
theorem calls_capture (scope : CaptureScope) (snapshot : ActiveViewSnapshot) (d : Desktop σ) :
    (c.capture scope snapshot d).2.calls = d.calls ++
      if snapshot.validate = .ok () ∧ c.privacy.authorize scope snapshot.view = .ok () then
        c.captureCalls scope snapshot d.world
      else [] := by
  rw [capture]
  rcases hvalid : snapshot.validate with e | ⟨⟩
  · rw [bind_of_error (check_error rfl d), if_neg (fun h => nomatch h.1), append_nil]
  rw [bind_of_ok (check_ok rfl d)]
  rcases hallowed : c.privacy.authorize scope snapshot.view with e | ⟨⟩
  · rw [bind_of_error (check_error rfl d), if_neg (fun h => nomatch h.2), append_nil]
  rw [bind_of_ok (check_ok rfl d), if_pos ⟨rfl, rfl⟩, captureCalls]
  rw [bind_of_ok (status_apply d)]
  by_cases hgranted : (c.backend.status d.world).1.screenCapture = .granted
  · rw [bind_of_ok (check_ok (requirePermission_ok_iff.mpr hgranted) _), if_pos hgranted,
      calls_bind_of_silent fun _ => (asks_check _ _).bind fun _ => asks_pure _,
      calls_tryCall, afterStatus, append_assoc]
    rfl
  · have hrefused : requirePermission (c.backend.status d.world).1.screenCapture "screen capture" ≠
        .ok () := fun h => hgranted (requirePermission_ok_iff.mp h)
    rcases hresult : requirePermission (c.backend.status d.world).1.screenCapture
        "screen capture" with e | ⟨⟩
    · rw [bind_of_error (check_error rfl _), if_neg hgranted]
      rfl
    · exact absurd hresult hrefused

end DesktopCoordinator

/-! ### Exclusions -/

def CaptureScope.windowOf (view : ActiveView) : CaptureScope → Option WindowId
  | activeWindow => some view.windowId
  | window windowId => some windowId
  | display _ => none

/-- The backend is asked to capture an excluded window. -/
def BackendCall.AsksExcluded (policy : ScreenPrivacyPolicy) (view : ActiveView) :
    BackendCall → Prop
  | captureFrame scope _ _ _ => ∃ windowId ∈ scope.windowOf view, policy.excludesWindow windowId
  | _ => False

section

variable [UnicodeCase] {σ : Type} {policy : ScreenPrivacyPolicy} {scope : CaptureScope}

theorem excluded_iff_of_authorize {view : ActiveView} (h : policy.authorize scope view = .ok ()) :
    (∃ windowId ∈ scope.windowOf view, policy.excludesWindow windowId) ↔
      ¬policy.ScopeRespected scope view := by
  have hallowed := (ScreenPrivacyPolicy.authorize_ok_iff.mp h).1
  constructor
  · rintro ⟨windowId, hwindow, hexcluded⟩ hrespected
    have hguarantees := ScreenPrivacyPolicy.authorize_guarantees_iff.mpr hrespected h
    cases scope with
    | activeWindow =>
      cases hwindow
      exact hguarantees.active hexcluded
    | window named =>
      cases hwindow
      exact hguarantees.named windowId rfl hexcluded
    | display _ => cases hwindow
  · intro hnot
    rw [ScreenPrivacyPolicy.ScopeRespected] at hnot
    push Not at hnot
    obtain ⟨windowId, rfl, hexcluded, -⟩ := hnot
    exact ⟨windowId, rfl, hexcluded⟩

omit [UnicodeCase] in
theorem asksExcluded_captureCalls_iff (c : DesktopCoordinator σ) (snapshot : ActiveViewSnapshot)
    (world : σ) : (∃ call ∈ c.captureCalls scope snapshot world,
        call.AsksExcluded policy snapshot.view) ↔
      (c.backend.status world).1.screenCapture = .granted ∧
        ∃ windowId ∈ scope.windowOf snapshot.view, policy.excludesWindow windowId := by
  rw [DesktopCoordinator.captureCalls]
  split_ifs with hgranted
  · simp [hgranted, BackendCall.AsksExcluded]
  · simp [hgranted, BackendCall.AsksExcluded]

/-- **The exclusions bind what is captured exactly where the scope respects them.**  An
authorization guarantees the rules of the policy unless the scope names an excluded window
beside a view that is allowed.  A capture then asks for a frame of that window, as soon as
the snapshot is valid and the screen may be captured at all; no other capture asks for a
frame of an excluded window. -/
theorem exclusions_bind_capture (policy : ScreenPrivacyPolicy) :
    (∀ scope view, (policy.authorize scope view = .ok () → policy.Guarantees scope view) ↔
      policy.ScopeRespected scope view) ∧
    ∀ (backend : DesktopBackend σ) (world : σ) (scope : CaptureScope)
      (snapshot : ActiveViewSnapshot),
      (∀ call ∈ (DesktopCoordinator.capture ⟨backend, policy⟩ scope snapshot ⟨world, []⟩).2.calls,
        ¬call.AsksExcluded policy snapshot.view) ↔
      policy.ScopeRespected scope snapshot.view ∨ snapshot.validate ≠ .ok () ∨
        (backend.status world).1.screenCapture ≠ .granted := by
  refine ⟨fun _ _ => ScreenPrivacyPolicy.authorize_guarantees_iff, fun b world scope snapshot => ?_⟩
  rw [DesktopCoordinator.calls_capture, nil_append]
  by_cases hallowed : policy.authorize scope snapshot.view = .ok ()
  · by_cases hvalid : snapshot.validate = .ok ()
    · rw [if_pos ⟨hvalid, hallowed⟩, ← not_iff_not]
      simp only [not_forall, not_not, not_or, exists_prop]
      rw [asksExcluded_captureCalls_iff, excluded_iff_of_authorize hallowed]
      tauto
    · rw [if_neg fun h => hvalid h.1]
      exact iff_of_true (fun _ hmem => absurd hmem not_mem_nil) (.inr (.inl hvalid))
  · rw [if_neg fun h => hallowed h.2]
    refine iff_of_true (fun _ hmem => absurd hmem not_mem_nil) (.inl ?_)
    exact ScreenPrivacyPolicy.authorize_guarantees_iff.mp fun h => absurd h hallowed

end

section Examples

open PersonalAgent.Core (toAsciiLowercase)

@[reducible] def asciiCase : UnicodeCase := ⟨toAsciiLowercase⟩

attribute [local instance] asciiCase

/-- A user who lets screens be captured, but not the window `vault`. -/
def vaultPolicy : ScreenPrivacyPolicy where
  captureEnabled := true
  exclusions := [.window ⟨"vault"⟩]

/-- The mail window is the active one. -/
def mailSnapshot : ActiveViewSnapshot where
  generation := ⟨1, 1⟩
  view := {
    applicationId := "mail"
    applicationName := "Mail"
    windowId := ⟨"inbox"⟩
    title := "Inbox" }

/-- A backend that grants everything and fails at everything else. -/
def grantingBackend : DesktopBackend Unit where
  status w := (⟨.granted, .granted, .granted, "", ""⟩, w)
  activeView w := (.error (.operation "no view"), w)
  accessibilityNodes _ _ w := (.error (.operation "no nodes"), w)
  captureFrame _ _ _ w := (.error (.operation "no frame"), w)
  executeNative _ _ w := (.error (.operation "no input"), w)
  now _ := 0
  sleep _ w := w

/-- **The scope can name an excluded window.**  The mail window is active, so the policy
allows the request, and the backend is asked for a frame of `vault`. -/
theorem scope_names_excluded_window :
    vaultPolicy.authorize (.window ⟨"vault"⟩) mailSnapshot.view = .ok () ∧
      ¬vaultPolicy.Guarantees (.window ⟨"vault"⟩) mailSnapshot.view ∧
      ∃ call ∈ (DesktopCoordinator.capture ⟨grantingBackend, vaultPolicy⟩ (.window ⟨"vault"⟩)
        mailSnapshot ⟨(), []⟩).2.calls, call.AsksExcluded vaultPolicy mailSnapshot.view := by
  have hexcluded : vaultPolicy.excludesWindow ⟨"vault"⟩ := by decide
  have hallowed : vaultPolicy.authorize (.window ⟨"vault"⟩) mailSnapshot.view = .ok () := by
    decide +kernel
  refine ⟨hallowed, fun h => h.named _ rfl hexcluded, .captureFrame (.window ⟨"vault"⟩) ⟨1, 1⟩ []
    (.error (.operation "no frame")), ?_, ⟨"vault"⟩, rfl, hexcluded⟩
  rw [DesktopCoordinator.calls_capture, if_pos ⟨by decide +kernel, hallowed⟩]
  exact mem_cons_of_mem _ mem_cons_self

end Examples

end PersonalAgent.Context
