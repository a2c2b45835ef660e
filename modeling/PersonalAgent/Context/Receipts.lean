/-
# What a receipt says

A receipt that is marked verified counts the postconditions of its request.  For an effect they
have been checked on the snapshot taken after it.  The actions that only observe return through
`observe_outcome`, which counts the postconditions and checks none, and `validate` lets an
observing request carry some.  So such a receipt is right exactly when the postconditions happen
to hold on what was observed: the snapshot that was given, or the one a wait has ended with
(`receipt_verified_iff`).

And what an effect has verified can be nothing: the conditions of waits and assertions are
validated, those among the postconditions are not (`effect_verified_iff`).
-/

import PersonalAgent.Context.Verified

namespace PersonalAgent.Context

open DesktopCoordinator

open List

section

variable [UnicodeCase] {σ : Type} {c : DesktopCoordinator σ} {request : DesktopActionRequest}
  {before : ActiveViewSnapshot}

/-- The receipt counts the postconditions of the request, and they hold. -/
def DesktopActionOutcome.Verifies (outcome : DesktopActionOutcome) (request : DesktopActionRequest)
    (before : ActiveViewSnapshot) : Prop :=
  outcome.receipt.verifiedPostconditions = request.postconditions.length ∧
    ∀ postcondition ∈ request.postconditions, postcondition.HoldsAcross before outcome.snapshot

/-- What the backend shows at one poll after another, each after a pause. -/
def polls (c : DesktopCoordinator σ) (pollIntervalMs : ℕ) : ℕ → Desktop σ → List ActiveViewSnapshot
  | 0, _ => []
  | turns + 1, d =>
    match c.snapshot .activeWindow { d with world := c.backend.sleep pollIntervalMs d.world } with
    | (.ok snapshot, d') => snapshot :: polls c pollIntervalMs turns d'
    | (.error _, _) => []

/-- The snapshot that an observing action is about: the one that was given or, for a wait, the
first of it and the polled ones in which the condition holds. -/
def observed (c : DesktopCoordinator σ) (request : DesktopActionRequest)
    (before : ActiveViewSnapshot) (d : Desktop σ) : ActiveViewSnapshot :=
  match request.action with
  | .waitFor condition timeoutMs pollIntervalMs =>
    ((before :: polls c pollIntervalMs (waitTurns timeoutMs pollIntervalMs) d).find?
      fun snapshot => (verifyCondition condition snapshot).isOk).getD before
  | _ => before

/-- The action is an effect, or the postconditions hold on what it observes. -/
def Backed (c : DesktopCoordinator σ) (request : DesktopActionRequest)
    (before : ActiveViewSnapshot) (d : Desktop σ) : Prop :=
  request.action.effect ≠ .observe ∨
    verifyPostconditions request.postconditions before (observed c request before d) = .ok ()

theorem holdsAcross_frame (frame : Option ScreenFrameDescriptor) (after : ActiveViewSnapshot)
    (postcondition : Postcondition) :
    postcondition.HoldsAcross before { after with frame := frame } ↔
      postcondition.HoldsAcross before after := by
  cases postcondition with
  | condition condition => cases condition <;> rfl
  | generationAdvanced => rfl
  | applicationLaunched applicationId => rfl

/-! ### Effects -/

variable {d d' : Desktop σ} {outcome : DesktopActionOutcome}

/-- The success of an effect has been verified. -/
theorem verifyEffect_verifies {evidence : NativeActionEvidence}
    (h : c.verifyEffect request before evidence d = (.ok outcome, d')) :
    outcome.Verifies request before := by
  obtain ⟨result, d₁, -, hrest⟩ := Desk.bind_ok_inv h
  cases result with
  | error error => cases hrest
  | ok after =>
    dsimp only at hrest
    cases hverified : verifyPostconditions request.postconditions before after with
    | error error =>
      rw [hverified] at hrest
      cases hrest
    | ok _ =>
      rw [hverified] at hrest
      obtain ⟨status, d₂, -, hpure⟩ := Desk.bind_ok_inv hrest
      cases hpure
      exact ⟨rfl, verifyPostconditions_ok_iff.mp hverified⟩

theorem executeEffect_verifies (h : c.executeEffect request before d = (.ok outcome, d')) :
    outcome.Verifies request before := by
  obtain ⟨-, d₁, -, hrest⟩ := Desk.bind_ok_inv h
  obtain ⟨evidence, d₂, -, hverify⟩ := Desk.bind_ok_inv hrest
  exact verifyEffect_verifies hverify

/-! ### Observations -/

/-- An observation counts the postconditions; whether they hold is a matter of the snapshot. -/
theorem observeOutcome_verifies_iff {snapshot : ActiveViewSnapshot} {frame : Option CapturedFrame} :
    (observeOutcome request snapshot frame).Verifies request before ↔
      verifyPostconditions request.postconditions before snapshot = .ok () := by
  rw [verifyPostconditions_ok_iff]
  exact and_iff_right rfl

/-- A wait returns the first poll in which its condition holds. -/
theorem find_polls_of_waitLoop {condition : DesktopCondition}
    {timeoutMs pollIntervalMs deadline turns : ℕ} {snapshot : ActiveViewSnapshot}
    (h : c.waitLoop condition timeoutMs pollIntervalMs deadline turns d = (.ok snapshot, d')) :
    (polls c pollIntervalMs turns d).find? (fun snapshot =>
      (verifyCondition condition snapshot).isOk) = some snapshot := by
  induction turns generalizing d with
  | zero => cases h
  | succ turns ih =>
    obtain ⟨now, d₁, hnow, h⟩ := Desk.bind_ok_inv h
    cases hnow
    obtain ⟨-, -, h⟩ := Desk.check_bind_ok_inv h
    obtain ⟨_, d₂, hsleep, h⟩ := Desk.bind_ok_inv h
    cases hsleep
    obtain ⟨polled, d₃, hpolled, h⟩ := Desk.bind_ok_inv h
    rw [polls, hpolled]
    dsimp only
    cases hcondition : verifyCondition condition polled with
    | ok u =>
      rw [hcondition] at h
      cases h
      rw [find?_cons_of_pos (by rw [hcondition]; rfl)]
    | error e =>
      rw [hcondition] at h
      rw [find?_cons_of_neg (by rw [hcondition]; exact Bool.false_ne_true), ih h]

theorem find_of_waitFor {condition : DesktopCondition} {timeoutMs pollIntervalMs : ℕ}
    {snapshot : ActiveViewSnapshot}
    (h : c.waitFor condition timeoutMs pollIntervalMs before d = (.ok snapshot, d')) :
    (before :: polls c pollIntervalMs (waitTurns timeoutMs pollIntervalMs) d).find?
      (fun snapshot => (verifyCondition condition snapshot).isOk) = some snapshot := by
  unfold waitFor at h
  cases hcondition : verifyCondition condition before with
  | ok u =>
    rw [hcondition] at h
    cases h
    rw [find?_cons_of_pos (by rw [hcondition]; rfl)]
  | error e =>
    rw [hcondition] at h
    obtain ⟨now, d₁, hnow, h⟩ := Desk.bind_ok_inv h
    cases hnow
    rw [find?_cons_of_neg (by rw [hcondition]; exact Bool.false_ne_true), find_polls_of_waitLoop h]

/-- An action ends in an observation of the snapshot it is about, or is an effect. -/
theorem perform_ok_cases (h : c.perform request before d = (.ok outcome, d')) :
    (request.action.effect = .observe ∧ outcome.receipt.verified = true ∧
        (outcome.Verifies request before ↔
          verifyPostconditions request.postconditions before (observed c request before d) =
            .ok ())) ∨
      request.action.effect ≠ .observe ∧ c.executeEffect request before d = (.ok outcome, d') := by
  rw [perform] at h
  rw [observed]
  cases haction : request.action with
  | inspect scope =>
    rw [haction] at h
    cases h
    exact .inl ⟨rfl, rfl, observeOutcome_verifies_iff⟩
  | capture scope =>
    rw [haction] at h
    obtain ⟨frame, d₁, -, hpure⟩ := Desk.bind_ok_inv h
    cases hpure
    refine .inl ⟨rfl, rfl, observeOutcome_verifies_iff.trans ?_⟩
    simp only [verifyPostconditions_ok_iff, holdsAcross_frame]
  | assert condition =>
    rw [haction] at h
    obtain ⟨-, d₁, -, hpure⟩ := Desk.bind_ok_inv h
    cases hpure
    exact .inl ⟨rfl, rfl, observeOutcome_verifies_iff⟩
  | waitFor condition timeoutMs pollIntervalMs =>
    rw [haction] at h
    obtain ⟨snapshot, d₁, hwait, hpure⟩ := Desk.bind_ok_inv h
    cases hpure
    refine .inl ⟨rfl, rfl, observeOutcome_verifies_iff.trans ?_⟩
    simp only [find_of_waitFor hwait, Option.getD_some]
  | click _ _ _ | typeText _ _ _ | scroll _ _ _ | focus _ | launch _ | drag _ _ =>
    rw [haction] at h
    exact .inr ⟨(by intro heffect; cases heffect), h⟩

/-- **A verified receipt, and when it is one.**  Whatever the backend answers: if a request
succeeds with a receipt that is marked verified, the receipt counts the postconditions of the
request and each of them holds between the given and the returned snapshot, exactly when the
action is an effect or the postconditions hold on what it has observed. -/
theorem receipt_verified_iff (c : DesktopCoordinator σ) (request : DesktopActionRequest)
    (before : ActiveViewSnapshot) (d d' : Desktop σ) (outcome : DesktopActionOutcome)
    (h : c.execute request before d = (.ok outcome, d')) :
    (outcome.receipt.verified = true → outcome.Verifies request before) ↔
      Backed c request before d := by
  obtain ⟨-, -, hperform⟩ := Desk.check_bind_ok_inv h
  rcases perform_ok_cases hperform with ⟨hobserve, hverified, hiff⟩ | ⟨heffect, hexecute⟩
  · rw [Backed, ← hiff]
    refine ⟨fun hmeans => .inr (hmeans hverified), fun hbacked _ => ?_⟩
    exact hbacked.resolve_left fun hne => hne hobserve
  · exact ⟨fun _ => .inl heffect, fun _ _ => executeEffect_verifies hexecute⟩

end

/-! ### Conditions that say nothing -/

/-- A selector that gives neither an id nor a role or a name. -/
def NodeSelector.NamesNothing : NodeSelector → Prop
  | .handle target => isBlank target.opaqueId
  | .semantic _ role name => role = none ∧ isBlank name

/-- A condition with such a selector, or with a blank text. -/
def DesktopCondition.NamesNothing : DesktopCondition → Prop
  | nodeExists target | nodeFocused target => target.NamesNothing
  | nodeValueContains target text | nodeValueEquals target text =>
    target.NamesNothing ∨ isBlank text
  | applicationActive text | windowTitleContains text => isBlank text
  | windowExists windowId => isBlank windowId.text

/-- The conditions that a postcondition has verified. -/
def Postcondition.conditions : Postcondition → List DesktopCondition
  | condition expected => [expected]
  | generationAdvanced => []
  | applicationLaunched applicationId => [.applicationActive applicationId]

theorem NodeSelector.valid_iff {target : NodeSelector} :
    target.valid = true ↔ ¬target.NamesNothing := by
  cases target with
  | handle target => simp [valid, NamesNothing]
  | semantic windowId role name => cases role <;> simp [valid, NamesNothing]

theorem DesktopCondition.validate_ok_iff {condition : DesktopCondition} :
    condition.validate = .ok () ↔ ¬condition.NamesNothing := by
  have hvalid : condition.valid = true ↔ ¬condition.NamesNothing := by
    cases condition <;> simp [valid, NamesNothing, NodeSelector.valid_iff]
  rw [← hvalid, validate]
  split_ifs with h <;> simp [h]

/-- A window without nodes and without a title. -/
def bareSnapshot (name : String) : ActiveViewSnapshot where
  generation := {}
  view := { applicationId := name, applicationName := name, windowId := ⟨name⟩, title := "" }

theorem findNode_bareSnapshot (name : String) (target : NodeSelector) (node : AccessibilityNode) :
    findNode target (bareSnapshot name) ≠ .ok node := by
  intro hfound
  cases target with
  | handle target =>
    obtain ⟨-, hfind⟩ := Lib.unit_bind_ok (Lib.mapError_ok_iff.mp hfound)
    cases hfind
  | semantic windowId role name => cases hfound

section

variable [UnicodeCase]

theorem DesktopCondition.exists_refuted
    (hcase : ∀ text, UnicodeCase.toLowercase text = "" ↔ text = "")
    {condition : DesktopCondition} (h : ¬condition.NamesNothing) :
    ∃ snapshot : ActiveViewSnapshot, snapshot.validate = .ok () ∧
      verifyCondition condition snapshot ≠ .ok () := by
  -- one of two windows is not the one asked for
  have hname (ask : String → Prop) (hask : ¬(ask "a" ∧ ask "b")) :
      ∃ name : String, (bareSnapshot name).validate = .ok () ∧ ¬ask name := by
    by_cases ha : ask "a"
    · exact ⟨"b", by decide +kernel, fun hb => hask ⟨ha, hb⟩⟩
    · exact ⟨"a", by decide +kernel, ha⟩
  simp only [ne_eq, verifyCondition_ok_iff]
  cases condition with
  | nodeExists _ | nodeFocused _ | nodeValueContains _ _ | nodeValueEquals _ _ =>
    refine ⟨bareSnapshot "a", by decide +kernel, fun hholds => ?_⟩
    simp [HoldsOn, findNode_bareSnapshot] at hholds
  | applicationActive text =>
    obtain ⟨name, hvalid, hother⟩ := hname (fun name => eqIgnoreAsciiCase name text = true) (by
      simp only [eqIgnoreAsciiCase, decide_eq_true_eq]
      rintro ⟨ha, hb⟩
      exact absurd (ha.trans hb.symm) (by decide +kernel))
    exact ⟨bareSnapshot name, hvalid, hother⟩
  | windowTitleContains text =>
    refine ⟨bareSnapshot "a", by decide +kernel, fun hcontains => h ?_⟩
    have htitle : UnicodeCase.toLowercase "" = "" := (hcase "").mpr rfl
    change Core.containsText (UnicodeCase.toLowercase "") _ = true at hcontains
    rw [htitle] at hcontains
    have hempty : UnicodeCase.toLowercase text = "" := by
      simpa [Core.containsText] using hcontains
    rw [(hcase text).mp hempty]
    exact (by decide : isBlank "" = true)
  | windowExists windowId =>
    obtain ⟨name, hvalid, hother⟩ := hname (fun name => ⟨name⟩ = windowId) (by
      rintro ⟨ha, hb⟩
      exact absurd (ha.trans hb.symm) (by decide))
    exact ⟨bareSnapshot name, hvalid, hother⟩

/-- **What the effects that pass have verified.**  A request for an effect that validates has
postconditions; each condition in them passes the check of waits and assertions and is refuted by
some valid snapshot, exactly if none of them is one that names nothing: `validate` reads the
conditions of waits and assertions only. -/
theorem effect_verified_iff (hcase : ∀ text, UnicodeCase.toLowercase text = "" ↔ text = "")
    (request : DesktopActionRequest) (hvalid : request.validate = .ok ())
    (heffect : request.action.effect ≠ .observe) :
    (request.postconditions ≠ [] ∧
      ∀ condition ∈ request.postconditions.flatMap Postcondition.conditions,
        condition.validate = .ok () ∧ ∃ snapshot : ActiveViewSnapshot,
          snapshot.validate = .ok () ∧ verifyCondition condition snapshot ≠ .ok ()) ↔
    ∀ condition ∈ request.postconditions.flatMap Postcondition.conditions,
      ¬condition.NamesNothing := by
  have hne := (request.granted_of_validate hvalid).verifiable heffect
  refine ⟨fun h condition hmem => DesktopCondition.validate_ok_iff.mp (h.2 condition hmem).1,
    fun h => ⟨hne, fun condition hmem => ⟨?_, ?_⟩⟩⟩
  · exact DesktopCondition.validate_ok_iff.mpr (h condition hmem)
  · exact DesktopCondition.exists_refuted hcase (h condition hmem)

end

section Examples

attribute [local instance] asciiCase

/-- An assertion whose postcondition is what it asserts. -/
def assertMail : DesktopActionRequest where
  requestId := "r2"
  action := .assert (.applicationActive "mail")
  authorization := ⟨true, {.observe}, false⟩
  postconditions := [.condition (.applicationActive "Mail")]

/-- The assertion has been observed, and its postcondition holds. -/
theorem receipt_verified_iff_assert :
    ∃ outcome d', execute ⟨grantingBackend, vaultPolicy⟩ assertMail mailSnapshot
        ⟨(), []⟩ = (.ok outcome, d') ∧ outcome.Verifies assertMail mailSnapshot := by
  have hrun : execute ⟨grantingBackend, vaultPolicy⟩ assertMail mailSnapshot
      ⟨(), []⟩ = (.ok (observeOutcome assertMail mailSnapshot none), ⟨(), []⟩) := by
    have hpreflight : preflight ⟨grantingBackend, vaultPolicy⟩ assertMail
        mailSnapshot = .ok () := by decide +kernel
    have hcondition : verifyCondition (.applicationActive "mail") mailSnapshot = .ok () := by
      decide +kernel
    rw [execute, Desk.bind_of_ok (Desk.check_ok hpreflight _)]
    exact Desk.bind_of_ok (Desk.check_ok hcondition _)
  refine ⟨_, _, hrun, (receipt_verified_iff _ _ _ _ _ _ hrun).mpr (.inr ?_) rfl⟩
  decide +kernel

/-- An inspection that asks for a change of the desktop. -/
def inspectMail : DesktopActionRequest where
  requestId := "r3"
  action := .inspect .activeView
  authorization := ⟨true, {.observe}, false⟩
  postconditions := [.generationAdvanced]

/-- **An observation is marked verified and was not.**  The receipt counts one verified
postcondition, that the generation has advanced, and the returned snapshot is the given one. -/
theorem observation_not_verified :
    ∃ outcome d', execute ⟨grantingBackend, vaultPolicy⟩ inspectMail
        mailSnapshot ⟨(), []⟩ = (.ok outcome, d') ∧
      outcome.receipt.verified = true ∧ outcome.receipt.verifiedPostconditions = 1 ∧
      ¬outcome.Verifies inspectMail mailSnapshot := by
  refine ⟨observeOutcome inspectMail mailSnapshot none, ⟨(), []⟩, ?_, rfl, rfl, fun hverifies => ?_⟩
  · have hpreflight : preflight ⟨grantingBackend, vaultPolicy⟩ inspectMail
        mailSnapshot = .ok () := by decide +kernel
    rw [execute, Desk.bind_of_ok (Desk.check_ok hpreflight _)]
    rfl
  · have hadvanced : mailSnapshot.generation.before mailSnapshot.generation = true :=
      hverifies.2 .generationAdvanced mem_cons_self
    exact absurd hadvanced (by decide)

/-- A click that is to be followed by a title that contains nothing. -/
def clickAnywhere : DesktopActionRequest :=
  { clickSend with postconditions := [.condition (.windowTitleContains "")] }

/-- **An effect verified by nothing.**  The click validates, its postcondition would not pass as
an assertion, and every snapshot satisfies it. -/
theorem effect_verified_vacuously :
    clickAnywhere.validate = .ok () ∧ clickAnywhere.action.effect ≠ .observe ∧
      (DesktopAction.assert (.windowTitleContains "")).validate = .error .invalidCondition ∧
      ∀ before after, verifyPostconditions clickAnywhere.postconditions before after = .ok () := by
  refine ⟨by decide +kernel, by decide, by decide +kernel, fun before after => ?_⟩
  rw [verifyPostconditions_ok_iff]
  intro postcondition hmem
  obtain rfl := mem_singleton.mp hmem
  exact any_eq_true.mpr ⟨_, (mem_tails _ _).mpr suffix_rfl, rfl⟩

/-- A click that is to open the drafts. -/
def clickDrafts : DesktopActionRequest :=
  { clickSend with postconditions := [.condition (.windowTitleContains "Drafts")] }

/-- A title has to contain "Drafts": some valid snapshot fails it. -/
theorem effect_verified_drafts :
    ∃ snapshot : ActiveViewSnapshot, snapshot.validate = .ok () ∧
      verifyCondition (.windowTitleContains "Drafts") snapshot ≠ .ok () := by
  have hcase (text : String) : UnicodeCase.toLowercase text = "" ↔ text = "" := by
    change Core.toAsciiLowercase text = "" ↔ text = ""
    rw [← String.toList_inj, ← String.toList_inj, Core.toAsciiLowercase, String.toList_ofList]
    exact map_eq_nil_iff
  have hnames : ∀ condition ∈ clickDrafts.postconditions.flatMap Postcondition.conditions,
      ¬condition.NamesNothing := by
    intro condition hmem
    obtain rfl := mem_singleton.mp hmem
    exact (by decide +kernel : ¬isBlank "Drafts" = true)
  exact (((effect_verified_iff hcase clickDrafts (by decide +kernel) (by decide)).mpr hnames).2
    _ (mem_singleton.mpr rfl)).2

end Examples

end PersonalAgent.Context
