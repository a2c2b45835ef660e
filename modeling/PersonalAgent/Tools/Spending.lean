/-
# How often a consent is used

A grant covers a call while `calls_used` is below `maximum_calls`.  Neither the policy nor the
gateway counts: both only read the grants, so the same grant covers every call that is made
with it (`unaccounted_grant_is_overspent`).  If whoever makes the calls adds one to
`calls_used` for each call that was executed on a grant, before the next call, no grant is
used more often than it allows (`accounted_grants_hold`).
-/

import PersonalAgent.Tools.Audits

namespace PersonalAgent.Tools
namespace ToolGateway

open Policy

/-- A call of the gateway: the call, the grants given with it, the tools as they answer in
it, and the times it reads. -/
structure Request where
  tools : String → Option ToolImplementation
  call : ToolCall
  grants : List ConsentGrant
  now : DateTime
  clock : DateTime

section Results

variable [Instants] [JsonText]

def answer (g : ToolGateway) (r : Request) : Returned ToolOutput :=
  { g with tools := r.tools }.call r.call r.grants r.now r.clock

/-- The consent by which the policy allows a request. -/
def Request.consent (r : Request) : Option Uuid :=
  match r.tools r.call.toolId with
  | none => none
  | some tool =>
    match PolicyEngine.decide (r.call.context tool) r.grants r.now with
    | .allow _ consentId => consentId
    | _ => none

/-- The grant on which a request is executed. -/
def spends (g : ToolGateway) (r : Request) : Option Uuid :=
  if .execute ∈ (g.answer r).invoked then r.consent else none

/-- The grants on which the requests of a sequence are executed, in order. -/
def spending : ToolGateway → List Request → List (Option Uuid)
  | _, [] => []
  | g, r :: rs => g.spends r :: spending (g.answer r).gateway rs

/-- The grants of a request, when the one before has been accounted for. -/
def AccountedFor (g : ToolGateway) (r r' : Request) : Prop :=
  ∀ grant' ∈ r'.grants, ∃ grant ∈ r.grants, grant'.id = grant.id ∧
    grant'.maximumCalls = grant.maximumCalls ∧
    grant.callsUsed + (if g.spends r = some grant.id then 1 else 0) ≤ grant'.callsUsed

/-- Each request of a sequence has been accounted for before the next. -/
def Accounted : ToolGateway → List Request → Prop
  | g, r :: r' :: rs => g.AccountedFor r r' ∧ Accounted (g.answer r).gateway (r' :: rs)
  | _, _ => True

variable {g : ToolGateway} {r : Request}

/-- A request is executed on a grant with calls left. -/
theorem exists_grant_of_spends {id : Uuid} (h : g.spends r = some id) :
    ∃ grant ∈ r.grants, grant.id = id ∧ grant.callsUsed < grant.maximumCalls := by
  unfold spends Request.consent at h
  split_ifs at h
  cases htool : r.tools r.call.toolId with
  | none => simp [htool] at h
  | some tool =>
    cases hdecision : PolicyEngine.decide (r.call.context tool) r.grants r.now with
    | ask reason => simp [htool, hdecision] at h
    | deny reason => simp [htool, hdecision] at h
    | allow reason consentId =>
      simp only [htool, hdecision] at h
      obtain ⟨grant, hgrant, hcovers, hid⟩ := exists_grant_of_consent (h ▸ hdecision)
      simp only [ConsentGrant.covers, Bool.and_eq_true, decide_eq_true_eq] at hcovers
      exact ⟨grant, hgrant, hid, by tauto⟩

theorem count_spending_le (rs : List Request) (id : Uuid) (left : ℕ)
    (hleft : ∀ grant ∈ r.grants, grant.id = id → grant.maximumCalls ≤ grant.callsUsed + left)
    (h : Accounted g (r :: rs)) : (spending g (r :: rs)).count (some id) ≤ left := by
  induction rs generalizing g r left with
  | nil =>
    rw [spending, spending, List.count_singleton]
    split_ifs with hspends
    · obtain ⟨grant, hgrant, hid, hlt⟩ := exists_grant_of_spends (beq_iff_eq.mp hspends)
      have := hleft grant hgrant hid
      omega
    · exact Nat.zero_le left
  | cons r' rs ih =>
    obtain ⟨haccounted, hrest⟩ := h
    rw [spending, List.count_cons]
    by_cases hspends : g.spends r = some id
    · -- one call less is left for the rest
      obtain ⟨grant, hgrant, hid, hlt⟩ := exists_grant_of_spends hspends
      have hpositive := hleft grant hgrant hid
      have hcount := ih (left - 1) (fun grant' hgrant' hid' => by
        obtain ⟨grant₀, hgrant₀, hid₀, hmax₀, hused₀⟩ := haccounted grant' hgrant'
        rw [hspends, if_pos (by rw [← hid₀, hid'])] at hused₀
        have := hleft grant₀ hgrant₀ (hid₀.symm.trans hid')
        omega) hrest
      rw [hspends, beq_self_eq_true, if_pos rfl]
      omega
    · have hcount := ih left (fun grant' hgrant' hid' => by
        obtain ⟨grant₀, hgrant₀, hid₀, hmax₀, hused₀⟩ := haccounted grant' hgrant'
        have := hleft grant₀ hgrant₀ (hid₀.symm.trans hid')
        omega) hrest
      rw [if_neg (by simpa using hspends), Nat.add_zero]
      exact hcount

/-- **Accounted grants hold.**  In a sequence of calls in which each call that was executed
on a grant has been added to its `calls_used` before the next one, no more calls are executed
on a grant than it had left at the start. -/
theorem accounted_grants_hold (g : ToolGateway) (r : Request) (rs : List Request)
    (hids : (r.grants.map (·.id)).Nodup) (h : Accounted g (r :: rs)) :
    ∀ grant ∈ r.grants, (spending g (r :: rs)).count (some grant.id) ≤
      grant.maximumCalls - grant.callsUsed := by
  intro grant hgrant
  refine count_spending_le rs grant.id _ (fun grant' hgrant' hid => ?_) h
  obtain rfl := List.inj_on_of_nodup_map hids hgrant' hgrant hid
  omega

/-! ### What a sequence of calls records -/

/-- The calls of a sequence that return a result, in order. -/
def returned : ToolGateway → List Request → List Uuid
  | _, [] => []
  | g, r :: rs => (if (g.answer r).result.isOk then [r.call.callId] else []) ++
      returned (g.answer r).gateway rs

/-- The gateway after a sequence. -/
def after (g : ToolGateway) (rs : List Request) : ToolGateway :=
  rs.foldl (fun g r => (g.answer r).gateway) g

/-- What one call adds to the logs: an audit of success exactly if it returns a result, and a
transfer only then. -/
def Records (g : ToolGateway) (callId : Uuid) (x : Returned ToolOutput) : Prop :=
  ∃ audits egress, x.gateway.audits = g.audits ++ audits ∧ x.gateway.egress = g.egress ++ egress ∧
    (audits.filter (·.succeeded)).map (·.callId) = (if x.result.isOk then [callId] else []) ∧
    (egress.map (·.callId)).Sublist (if x.result.isOk then [callId] else [])

theorem answer_records (g : ToolGateway) (r : Request) : g.Records r.call.callId (g.answer r) := by
  have hnone (error : ToolError) (invoked : List Invocation) :
      g.Records r.call.callId ⟨{ g with tools := r.tools }, .error error, invoked⟩ :=
    ⟨[], [], by simp [Except.isOk, Except.toBool]⟩
  unfold answer ToolGateway.call perform conclude
  dsimp only
  repeat' split
  all_goals try exact hnone _ _
  · exact ⟨[_], [], rfl, by simp, rfl, List.Sublist.refl _⟩
  · exact ⟨[_], [_], rfl, rfl, by simp [ToolCall.audit, Except.isOk, Except.toBool],
      by simp [Except.isOk, Except.toBool]⟩
  · exact ⟨[_], [], rfl, by simp, by simp [ToolCall.audit, Except.isOk, Except.toBool],
      List.nil_sublist _⟩

/-- **The audit log is the log of the results.**  After any sequence of calls, whatever tools,
grants and policy decide: the audits of success that were added are those of the calls that
returned a result, one each and in order, and transfers are recorded of no other calls. -/
theorem successes_audited (g : ToolGateway) (rs : List Request) :
    ∃ audits egress, (g.after rs).audits = g.audits ++ audits ∧
      (g.after rs).egress = g.egress ++ egress ∧
      (audits.filter (·.succeeded)).map (·.callId) = g.returned rs ∧
      (egress.map (·.callId)).Sublist (g.returned rs) := by
  induction rs generalizing g with
  | nil => exact ⟨[], [], by simp [after, returned]⟩
  | cons r rs ih =>
    obtain ⟨audits, egress, haudits, hegress, hsucceeded, hsent⟩ := g.answer_records r
    obtain ⟨audits', egress', haudits', hegress', hsucceeded', hsent'⟩ := ih (g.answer r).gateway
    refine ⟨audits ++ audits', egress ++ egress', ?_, ?_, ?_, ?_⟩
    · rw [← List.append_assoc, ← haudits]
      exact haudits'
    · rw [← List.append_assoc, ← hegress]
      exact hegress'
    · rw [List.filter_append, List.map_append, hsucceeded, hsucceeded', returned]
    · rw [List.map_append, returned]
      exact hsent.append hsent'

end Results

/-! ### A grant that nobody counts -/

section Examples

attribute [local instance] spelledTime twoBytes

def mailRequest (grant : ConsentGrant) : Request where
  tools := (sampleGateway (.ok ())).tools
  call := sampleCall "mail.send"
  grants := [grant]
  now := ⟨""⟩
  clock := ⟨""⟩

/-- **The gateway does not count.**  Two mails are sent on a consent to one. -/
theorem unaccounted_grant_is_overspent :
    (spending (new 100) [mailRequest mailConsent, mailRequest mailConsent]).count
      (some mailConsent.id) = 2 ∧
    mailConsent.maximumCalls - mailConsent.callsUsed = 1 := by
  decide +kernel

/-- With the first mail accounted for, the second is not sent. -/
theorem accounted_grants_hold_mail :
    let rs := [mailRequest { mailConsent with callsUsed := 1 }]
    spending (new 100) (mailRequest mailConsent :: rs) = [some 3, none] ∧
    (spending (new 100) (mailRequest mailConsent :: rs)).count (some 3) ≤ 1 := by
  intro rs
  refine ⟨by decide +kernel, accounted_grants_hold (new 100) (mailRequest mailConsent) rs
    (List.nodup_singleton _) ⟨?_, trivial⟩ mailConsent (List.mem_singleton_self _)⟩
  intro grant' hgrant'
  obtain rfl := List.mem_singleton.mp hgrant'
  exact ⟨mailConsent, List.mem_singleton_self _, rfl, rfl, by decide +kernel⟩

end Examples

end ToolGateway
end PersonalAgent.Tools
