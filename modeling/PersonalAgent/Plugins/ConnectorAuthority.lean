/-
# What a connector may do

A session is the runtime of the official packs together with the authorizations it has answered.
What was asked for and confirmed for a connector is read off that log (`standing`); the runtime
keeps its own account in the table of bindings.

The two agree on runs in which every challenge comes back with the scopes it went out with
(`authority_bounded`).  The runtime does not check that: `complete_authorization` takes the
scopes of the challenge it is given, and a caller can widen them (`challenge_widened`).
-/

import PersonalAgent.Lib.OrdMap
import PersonalAgent.Lib.Run
import PersonalAgent.Plugins.Model

namespace PersonalAgent.Plugins

open Lib List Std.ExtTreeMap OfficialPackRuntime Option

/-! ### Sessions -/

/-- A step of an authorization that the runtime has taken. -/
inductive AuthorizationEvent where
  | began (connectorId : String) (requestedScopes : Names)
  | completed (connectorId : String) (userConfirmed : Bool)
  | revoked (connectorId : String)

/-- What the user has granted to a connector. -/
inductive Standing where
  | nothing
  | requested (scopes : Names)
  | granted (scopes : Names)
  deriving DecidableEq

/-- What an event makes of the standing of a connector. -/
def Standing.after (id : String) (standing : Standing) : AuthorizationEvent → Standing
  | .began connectorId scopes => if connectorId = id then .requested scopes else standing
  | .completed connectorId userConfirmed =>
    match standing with
    | .requested scopes =>
      if connectorId = id ∧ userConfirmed = true then .granted scopes else standing
    | _ => standing
  | .revoked connectorId => if connectorId = id then .nothing else standing

/-- The standing of a connector: what its latest authorization asked for, confirmed or not, and
nothing once it is revoked. -/
def standing (id : String) (log : List AuthorizationEvent) : Standing :=
  log.foldl (Standing.after id) .nothing

theorem standing_concat (id : String) (log : List AuthorizationEvent) (e : AuthorizationEvent) :
    standing id (log ++ [e]) = (standing id log).after id e := foldl_concat ..

/-- The runtime, with the steps of authorizations it has taken. -/
structure Session where
  runtime : OfficialPackRuntime := {}
  log : List AuthorizationEvent := []

/-- A call to the runtime. -/
inductive RuntimeCall where
  | install (manifest : PackManifest) (known : Names)
  | beginAuthorization (connectorId : String) (requestedScopes : Names) (state : Uuid)
  | completeAuthorization (challenge : ConnectorAuthorization) (presentKeychainAliases : Names)
      (userConfirmed : Bool)
  | revoke (connectorId : String)
  | invoke (invocation : ConnectorInvocation) (adapter : ConnectorDispatch → Bool)

namespace Session

/-- The session after a call that may be refused. -/
def answer (s : Session) (e : AuthorizationEvent) :
    Except PluginError OfficialPackRuntime → Session
  | .ok runtime => { runtime, log := s.log ++ [e] }
  | .error _ => s

def step (s : Session) : RuntimeCall → Session
  | .install manifest known => { s with runtime := (s.runtime.install manifest known).1 }
  | .beginAuthorization connectorId requestedScopes state =>
    s.answer (.began connectorId requestedScopes)
      ((s.runtime.beginAuthorization connectorId requestedScopes state).map Prod.snd)
  | .completeAuthorization challenge presentKeychainAliases userConfirmed =>
    s.answer (.completed challenge.connectorId userConfirmed)
      (s.runtime.completeAuthorization challenge presentKeychainAliases userConfirmed)
  | .revoke connectorId => s.answer (.revoked connectorId) (s.runtime.revoke connectorId)
  | .invoke invocation adapter =>
    { s with runtime := (s.runtime.invoke invocation adapter).2.1 }

/-- A challenge that is waited for comes back with the scopes that were requested. -/
def Faithful (s : Session) : RuntimeCall → Prop
  | .completeAuthorization challenge _ _ =>
    ∀ scopes, standing challenge.connectorId s.log = .requested scopes →
      challenge.requestedScopes = scopes
  | _ => True

end Session

/-! ### Installation -/

namespace OfficialPackRuntime

theorem bindAll_cons (m : BTreeMap String ConnectorBinding) (c : ConnectorDeclaration)
    (cs : List ConnectorDeclaration) : bindAll m (c :: cs) = bindAll (m.insert c.id (fresh c)) cs :=
  rfl

theorem unbindAll_cons (m : BTreeMap String ConnectorBinding) (c : ConnectorDeclaration)
    (cs : List ConnectorDeclaration) : unbindAll m (c :: cs) = unbindAll (m.erase c.id) cs := rfl

/-- The last declaration of an id is bound. -/
theorem getElem?_bindAll (m : BTreeMap String ConnectorBinding)
    (connectors : List ConnectorDeclaration) (id : String) : (bindAll m connectors)[id]? =
      ((connectors.reverse.find? (·.id = id)).map fresh).or m[id]? := by
  induction connectors generalizing m with
  | nil => rfl
  | cons c connectors ih =>
    rw [bindAll_cons, ih, getElem?_insert_eq, reverse_cons, find?_append,
      Option.map_or, Option.or_assoc]
    congr 1
    by_cases hid : c.id = id
    · simp [hid]
    · simp [hid, Ne.symm hid]

theorem getElem?_unbindAll (m : BTreeMap String ConnectorBinding)
    (connectors : List ConnectorDeclaration) (id : String) :
    (unbindAll m connectors)[id]? =
      if connectors.find? (·.id = id) = none then m[id]? else none := by
  induction connectors generalizing m with
  | nil => rfl
  | cons c connectors ih =>
    rw [unbindAll_cons, ih, getElem?_erase_eq]
    by_cases hid : c.id = id
    · simp [hid]
    · simp [hid, Ne.symm hid]

variable {m : BTreeMap String ConnectorBinding} {connectors : List ConnectorDeclaration}
  {id : String} {r r' : OfficialPackRuntime} {b : ConnectorBinding}
  {invocation : ConnectorInvocation} {dispatch : ConnectorDispatch}

/-- A binding after an installation was there or is fresh. -/
theorem bound_of_bindAll (h : (bindAll m connectors)[id]? = some b) :
    m[id]? = some b ∨ ∃ c, b = fresh c := by
  rw [getElem?_bindAll] at h
  rcases or_eq_some_iff.mp h with h | ⟨-, h⟩
  · obtain ⟨c, -, rfl⟩ := map_eq_some_iff.mp h
    exact .inr ⟨c, rfl⟩
  · exact .inl h

/-- The ids bound after an installation. -/
theorem mem_bindAll : id ∈ bindAll m connectors ↔ id ∈ m ∨ ∃ c ∈ connectors, c.id = id := by
  rw [mem_iff_isSome_getElem?, getElem?_bindAll, isSome_or,
    mem_iff_isSome_getElem?, isSome_map, Bool.or_eq_true, or_comm,
    find?_isSome]
  simp

/-- Bindings that are taken back leave the table as it was. -/
theorem unbindAll_bindAll (hnew : ∀ c ∈ connectors, c.id ∉ m) :
    unbindAll (bindAll m connectors) connectors = m := by
  refine ext_getElem? fun id => ?_
  rw [getElem?_unbindAll]
  split_ifs with hnone
  · have hlast : connectors.reverse.find? (·.id = id) = none := by
      rw [find?_eq_none] at hnone ⊢
      exact fun c hc => hnone c (mem_reverse.mp hc)
    rw [getElem?_bindAll, hlast]
    rfl
  · obtain ⟨c, hc⟩ := ne_none_iff_exists'.mp hnone
    have hid : c.id = id := by simpa using find?_some hc
    have hmem := hnew c (mem_of_find?_eq_some hc)
    rw [hid, mem_iff_isSome_getElem?, not_isSome_iff_eq_none] at hmem
    exact hmem.symm

/-- **A failed installation changes nothing.**  Either it is refused before anything is written,
or every binding that was written is new and taken back. -/
theorem install_cases (r : OfficialPackRuntime) (manifest : PackManifest) (known : Names) :
    (∃ e, r.install manifest known = (r, .error e)) ∨
      manifest.id ∉ r.registry.installed ∧ r.install manifest known = ({ r with
        connectors := bindAll r.connectors manifest.connectors
        registry := ⟨r.registry.installed.insert manifest.id manifest⟩ }, .ok ()) := by
  unfold install
  split
  · exact .inl ⟨_, rfl⟩
  · split
    · exact .inl ⟨_, rfl⟩
    · rename_i hfind
      have hnew : ∀ c ∈ manifest.connectors, c.id ∉ r.connectors := fun c hc hmem =>
        find?_eq_none.mp hfind c hc (decide_eq_true hmem)
      dsimp only
      split
      · rw [unbindAll_bindAll hnew]
        exact .inl ⟨_, rfl⟩
      · rename_i registry hregistry
        unfold PackRegistry.install at hregistry
        obtain ⟨-, hregistry⟩ := unit_bind_ok hregistry
        obtain ⟨hpack, hregistry⟩ := refuse_bind_ok hregistry
        obtain rfl := Except.ok.inj hregistry
        exact .inr ⟨hpack, rfl⟩

/-! ### Authorization -/

def rebind (r : OfficialPackRuntime) (id : String) (b : ConnectorBinding) : OfficialPackRuntime :=
  { r with connectors := r.connectors.insert id b }

theorem binding_ok (h : r.binding id = .ok b) : r.connectors[id]? = some b := by
  unfold binding at h
  split at h
  · rename_i hb
    rw [hb, Except.ok.inj h]
  · exact (nomatch h)

theorem beginAuthorization_ok {scopes : Names} {state : Uuid}
    (h : (r.beginAuthorization id scopes state).map Prod.snd = .ok r') :
    ∃ b, r.connectors[id]? = some b ∧ r' = r.rebind id
      { b with pendingState := some state, state := .authorizationPending } := by
  obtain ⟨answer, hbegin, rfl⟩ := map_ok_iff.mp h
  obtain ⟨b, hb, h⟩ := bind_ok_iff.mp hbegin
  obtain ⟨-, h⟩ := refuse_bind_ok h
  obtain rfl := Except.ok.inj h
  exact ⟨b, binding_ok hb, rfl⟩

theorem completeAuthorization_ok {challenge : ConnectorAuthorization} {present : Names}
    {confirmed : Bool} (h : r.completeAuthorization challenge present confirmed = .ok r') :
    ∃ b, r.connectors[challenge.connectorId]? = some b ∧ confirmed = true ∧
      b.state = .authorizationPending ∧
      r' = r.rebind challenge.connectorId { b with
        pendingState := none
        declaration := { b.declaration with scopes := challenge.requestedScopes }
        state := .enabled } := by
  obtain ⟨hconfirmed, h⟩ := refuse_bind_ok h
  obtain ⟨b, hb, h⟩ := bind_ok_iff.mp h
  obtain ⟨hpending, h⟩ := refuse_bind_ok h
  obtain ⟨-, h⟩ := refuse_bind_ok h
  obtain rfl := Except.ok.inj h
  rw [not_or, not_not] at hpending
  exact ⟨b, binding_ok hb, by simpa using hconfirmed, hpending.1, rfl⟩

theorem revoke_ok (h : r.revoke id = .ok r') :
    ∃ b, r.connectors[id]? = some b ∧ r' = r.rebind id
      { b with pendingState := none, state := .revoked } := by
  obtain ⟨b, hb, h⟩ := bind_ok_iff.mp h
  obtain rfl := Except.ok.inj h
  exact ⟨b, binding_ok hb, rfl⟩

/-- What the adapter is given has passed every check. -/
theorem dispatch_ok (h : r.dispatch invocation = .ok dispatch) :
    invocation.fromUntrustedContent = false ∧
      (∃ b, r.connectors[dispatch.connectorId]? = some b ∧ b.state = .enabled ∧
        dispatch.scope ∈ b.declaration.scopes) ∧
      (dispatch.effect.alwaysConfirms = true → invocation.scopedConsent = true) := by
  obtain ⟨htrusted, h⟩ := refuse_bind_ok h
  obtain ⟨b, hb, h⟩ := bind_ok_iff.mp h
  obtain ⟨henabled, h⟩ := refuse_bind_ok h
  obtain ⟨hscope, h⟩ := refuse_bind_ok h
  obtain ⟨hconsent, h⟩ := refuse_bind_ok h
  obtain rfl := Except.ok.inj h
  refine ⟨by simpa using htrusted, ⟨b, binding_ok hb, not_not.mp henabled, not_not.mp hscope⟩, ?_⟩
  intro heffect
  by_contra hnone
  exact hconsent ⟨heffect, by simpa using hnone⟩

/-- An invocation counts its receipts. -/
theorem invoke_runtime (r : OfficialPackRuntime) (invocation : ConnectorInvocation)
    (adapter : ConnectorDispatch → Bool) :
    ∃ sequence, (r.invoke invocation adapter).2.1 = { r with sequence } := by
  unfold invoke
  split
  · exact ⟨r.sequence, rfl⟩
  · split_ifs
    · exact ⟨r.sequence, rfl⟩
    · exact ⟨_, rfl⟩

/-- The adapter is asked for what was checked. -/
theorem dispatch_of_invoke {adapter : ConnectorDispatch → Bool}
    (h : (r.invoke invocation adapter).1 = some dispatch) :
    r.dispatch invocation = .ok dispatch := by
  unfold invoke at h
  split at h
  · exact (nomatch h)
  · rename_i hdispatch
    split_ifs at h <;> exact Option.some.inj h ▸ hdispatch

end OfficialPackRuntime

/-! ### What a call can do -/

namespace Session

open OfficialPackRuntime (bindAll)

/-- What a call can do to a session. -/
inductive Took (s : Session) : RuntimeCall → Session → Prop
  | refused (call : RuntimeCall) : Took s call s
  | installed (manifest : PackManifest) (known : Names)
      (hnew : manifest.id ∉ s.runtime.registry.installed) :
      Took s (.install manifest known) { s with runtime := { s.runtime with
        connectors := bindAll s.runtime.connectors manifest.connectors
        registry := ⟨s.runtime.registry.installed.insert manifest.id manifest⟩ } }
  | began {id : String} (scopes : Names) (state : Uuid) {b : ConnectorBinding}
      (hb : s.runtime.connectors[id]? = some b) :
      Took s (.beginAuthorization id scopes state)
        { runtime := s.runtime.rebind id
            { b with pendingState := some state, state := .authorizationPending }
          log := s.log ++ [.began id scopes] }
  | completed (challenge : ConnectorAuthorization) (present : Names) {b : ConnectorBinding}
      (hb : s.runtime.connectors[challenge.connectorId]? = some b)
      (hpending : b.state = .authorizationPending) :
      Took s (.completeAuthorization challenge present true)
        { runtime := s.runtime.rebind challenge.connectorId { b with
            pendingState := none
            declaration := { b.declaration with scopes := challenge.requestedScopes }
            state := .enabled }
          log := s.log ++ [.completed challenge.connectorId true] }
  | revoked {id : String} {b : ConnectorBinding} (hb : s.runtime.connectors[id]? = some b) :
      Took s (.revoke id)
        { runtime := s.runtime.rebind id { b with pendingState := none, state := .revoked }
          log := s.log ++ [.revoked id] }
  | invoked (invocation : ConnectorInvocation) (adapter : ConnectorDispatch → Bool)
      (sequence : ℕ) :
      Took s (.invoke invocation adapter) { s with runtime := { s.runtime with sequence } }

theorem took_step (s : Session) (call : RuntimeCall) : Took s call (s.step call) := by
  cases call with
  | install manifest known =>
    dsimp only [step]
    rcases s.runtime.install_cases manifest known with ⟨e, h⟩ | ⟨hnew, h⟩
    · rw [h]
      exact .refused _
    · rw [h]
      exact .installed manifest known hnew
  | beginAuthorization id scopes state =>
    dsimp only [step]
    cases h : (s.runtime.beginAuthorization id scopes state).map Prod.snd with
    | error e => exact .refused _
    | ok r =>
      obtain ⟨b, hb, rfl⟩ := beginAuthorization_ok h
      exact .began scopes state hb
  | completeAuthorization challenge present confirmed =>
    dsimp only [step]
    cases h : s.runtime.completeAuthorization challenge present confirmed with
    | error e => exact .refused _
    | ok r =>
      obtain ⟨b, hb, rfl, hpending, rfl⟩ := completeAuthorization_ok h
      exact .completed challenge present hb hpending
  | revoke id =>
    dsimp only [step]
    cases h : s.runtime.revoke id with
    | error e => exact .refused _
    | ok r =>
      obtain ⟨b, hb, rfl⟩ := revoke_ok h
      exact .revoked hb
  | invoke invocation adapter =>
    dsimp only [step]
    obtain ⟨sequence, hruntime⟩ := s.runtime.invoke_runtime invocation adapter
    rw [hruntime]
    exact .invoked invocation adapter sequence

/-! ### Authority -/

/-- The table agrees with what was asked for and confirmed. -/
structure Agrees (s : Session) : Prop where
  enabled : ∀ (id : String) b, s.runtime.connectors[id]? = some b → b.state = .enabled →
    standing id s.log = .granted b.declaration.scopes
  pending : ∀ (id : String) b, s.runtime.connectors[id]? = some b →
    b.state = .authorizationPending → ∃ scopes, standing id s.log = .requested scopes

/-- The table holds the connectors of the installed packs. -/
def Covers (r : OfficialPackRuntime) : Prop :=
  ∀ id, id ∈ r.connectors ↔ ∃ (pack : String) (manifest : PackManifest),
    r.registry.installed[pack]? = some manifest ∧ ∃ c ∈ manifest.connectors, c.id = id

theorem covers_rebind {r : OfficialPackRuntime} {id : String} {b b' : ConnectorBinding}
    (hb : r.connectors[id]? = some b) (h : Covers r) : Covers (r.rebind id b') := by
  intro id'
  refine Iff.trans ?_ (h id')
  unfold rebind
  rw [mem_insert, Std.LawfulEqCmp.compare_eq_iff_eq]
  refine or_iff_right_of_imp ?_
  rintro rfl
  rw [mem_iff_isSome_getElem?, hb]
  rfl

theorem covers_step {s : Session} (call : RuntimeCall) (h : Covers s.runtime) :
    Covers (s.step call).runtime := by
  have htook := took_step s call
  generalize s.step call = s' at htook ⊢
  cases htook with
  | refused => exact h
  | installed manifest known hnew =>
    intro id
    rw [mem_bindAll, h id]
    constructor
    · rintro (⟨pack, m, hm, hc⟩ | hc)
      · have hpack : pack ≠ manifest.id := by
          rintro rfl
          rw [mem_iff_isSome_getElem?, hm] at hnew
          exact hnew rfl
        exact ⟨pack, m, by rw [getElem?_insert_eq, if_neg hpack, hm], hc⟩
      · exact ⟨manifest.id, manifest, by rw [getElem?_insert_eq, if_pos rfl], hc⟩
    · rintro ⟨pack, m, hm, hc⟩
      rw [getElem?_insert_eq] at hm
      split_ifs at hm with hpack
      · exact .inr (Option.some.inj hm ▸ hc)
      · exact .inl ⟨pack, m, hm, hc⟩
  | began scopes state hb => exact covers_rebind hb h
  | completed challenge present hb _ => exact covers_rebind hb h
  | revoked hb => exact covers_rebind hb h
  | invoked _ _ _ => exact h

/-- A step of an authorization that is entered in the table as it is in the log. -/
theorem agrees_rebind {s : Session} {id : String} {b : ConnectorBinding} {e : AuthorizationEvent}
    (h : Agrees s)
    (hother : ∀ id', id' ≠ id → (standing id' s.log).after id' e = standing id' s.log)
    (henabled : b.state = .enabled → (standing id s.log).after id e = .granted b.declaration.scopes)
    (hpending : b.state = .authorizationPending →
      ∃ scopes, (standing id s.log).after id e = .requested scopes) :
    Agrees { runtime := s.runtime.rebind id b, log := s.log ++ [e] } := by
  constructor
  · intro id' b' hb' hstate
    rw [rebind, getElem?_insert_eq] at hb'
    rw [standing_concat]
    split_ifs at hb' with hid
    · obtain rfl := Option.some.inj hb'
      exact hid ▸ henabled hstate
    · rw [hother id' hid]
      exact h.enabled id' b' hb' hstate
  · intro id' b' hb' hstate
    rw [rebind, getElem?_insert_eq] at hb'
    rw [standing_concat]
    split_ifs at hb' with hid
    · obtain rfl := Option.some.inj hb'
      exact hid ▸ hpending hstate
    · rw [hother id' hid]
      exact h.pending id' b' hb' hstate

theorem agrees_step {s : Session} {call : RuntimeCall} (hok : s.Faithful call) (h : Agrees s) :
    Agrees (s.step call) := by
  have htook := took_step s call
  generalize s.step call = s' at htook ⊢
  cases htook with
  | refused => exact h
  | installed manifest known hnew =>
    constructor
    · intro id b hb hstate
      rcases bound_of_bindAll hb with hb | ⟨c, rfl⟩
      · exact h.enabled id b hb hstate
      · exact (nomatch hstate)
    · intro id b hb hstate
      rcases bound_of_bindAll hb with hb | ⟨c, rfl⟩
      · exact h.pending id b hb hstate
      · exact (nomatch hstate)
  | began scopes state hb =>
    refine agrees_rebind h (fun id' hid => if_neg hid.symm) (fun hstate => (nomatch hstate)) ?_
    exact fun _ => ⟨scopes, if_pos rfl⟩
  | @completed challenge present b hb hpending =>
    obtain ⟨scopes, hscopes⟩ := h.pending _ b hb hpending
    obtain rfl := hok scopes hscopes
    refine agrees_rebind h (fun id' hid => ?_) (fun _ => ?_) (fun hstate => (nomatch hstate))
    · unfold Standing.after
      cases standing id' s.log with
      | requested scopes => exact if_neg fun heq => hid heq.1.symm
      | nothing => rfl
      | granted scopes => rfl
    · rw [hscopes]
      exact if_pos ⟨rfl, rfl⟩
  | revoked hb =>
    refine agrees_rebind h (fun id' hid => if_neg hid.symm) (fun hstate => (nomatch hstate)) ?_
    exact fun hstate => (nomatch hstate)
  | invoked _ _ _ => exact ⟨h.enabled, h.pending⟩

/-- What holds of a session in which the authority of connectors is bounded. -/
structure Authority (s : Session) : Prop where
  /-- An enabled connector has the scopes its latest authorization asked for, which was confirmed
  and not revoked since. -/
  enabled : ∀ (id : String) b, s.runtime.connectors[id]? = some b → b.state = .enabled →
    standing id s.log = .granted b.declaration.scopes
  /-- The adapter is called for an enabled connector and a scope that was granted to it, not for
  untrusted content, and with consent where the effect asks for it. -/
  executed : ∀ invocation adapter dispatch,
    (s.runtime.invoke invocation adapter).1 = some dispatch →
      (∃ b, s.runtime.connectors[dispatch.connectorId]? = some b ∧ b.state = .enabled) ∧
      (∃ scopes, standing dispatch.connectorId s.log = .granted scopes ∧
        dispatch.scope ∈ scopes) ∧
      invocation.fromUntrustedContent = false ∧
      (dispatch.effect.alwaysConfirms = true → invocation.scopedConsent = true)
  /-- The table has one binding for each connector of the installed packs, and no other. -/
  table : ∀ id, id ∈ s.runtime.connectors ↔ ∃ (pack : String) (manifest : PackManifest),
    s.runtime.registry.installed[pack]? = some manifest ∧ ∃ c ∈ manifest.connectors, c.id = id
  /-- An installation that fails changes nothing. -/
  undone : ∀ manifest known e, (s.runtime.install manifest known).2 = .error e →
    (s.runtime.install manifest known).1 = s.runtime

/-- **Authority is bounded by what was requested and confirmed**, on runs in which every
challenge comes back with the scopes that were requested. -/
theorem authority_bounded {calls : List RuntimeCall}
    (h : Along step Faithful ({} : Session) calls) :
    Authority (run step ({} : Session) calls) := by
  have hagrees : Agrees (run step {} calls) := by
    refine h.invariant Agrees (fun s call hok hs => agrees_step hok hs) ?_
    constructor <;> exact fun id b hb => absurd hb (by simp)
  have hcovers : Covers (run step ({} : Session) calls).runtime := by
    refine run_invariant (fun s : Session => Covers s.runtime)
      (fun _ call => covers_step call) calls ?_
    intro id
    simp
  refine ⟨hagrees.enabled, ?_, hcovers, ?_⟩
  · intro invocation adapter dispatch hinvoke
    obtain ⟨htrusted, ⟨b, hb, henabled, hscope⟩, hconsent⟩ :=
      dispatch_ok (dispatch_of_invoke hinvoke)
    exact ⟨⟨b, hb, henabled⟩, ⟨_, hagrees.enabled _ b hb henabled, hscope⟩, htrusted, hconsent⟩
  · intro manifest known e herror
    rcases install_cases _ manifest known with ⟨e', hinstall⟩ | ⟨-, hinstall⟩
    · rw [hinstall]
    · rw [hinstall] at herror
      exact (nomatch herror)

/-! ### A widened challenge -/

def mailConnector : ConnectorDeclaration where
  id := "mail"
  scopes := Std.ExtTreeSet.ofList ["read", "send"]

def mailPack : PackManifest where
  id := "office"
  name := "Office"
  version := "1"
  capabilities := Std.ExtTreeSet.ofList ["mail"]
  connectors := [mailConnector]
  evaluationIds := Std.ExtTreeSet.ofList ["mail-1"]

/-- A pack is installed, authority to read is requested, and the challenge comes back with the
given scopes. -/
def askToRead (scopes : List String) : List RuntimeCall :=
  [.install mailPack (Std.ExtTreeSet.ofList ["mail"]),
    .beginAuthorization "mail" (Std.ExtTreeSet.ofList ["read"]) 7,
    .completeAuthorization ⟨"mail", 7, Std.ExtTreeSet.ofList scopes⟩ ∅ true]

def readMail : ConnectorInvocation where
  connectorId := "mail"
  scope := "read"
  effect := .read
  target := "inbox"

/-- Authority to read was requested and confirmed, and a read is dispatched. -/
theorem read_authority_bounded :
    ((run step {} (askToRead ["read"])).runtime.invoke readMail fun _ => true).1.isSome ∧
      Authority (run step {} (askToRead ["read"])) := by
  refine ⟨by decide +kernel, authority_bounded ⟨trivial, trivial, ?_, trivial⟩⟩
  intro scopes h
  have hlog : standing "mail" (step (step {} (.install mailPack (Std.ExtTreeSet.ofList ["mail"])))
      (.beginAuthorization "mail" (Std.ExtTreeSet.ofList ["read"]) 7)).log =
        .requested (Std.ExtTreeSet.ofList ["read"]) := by decide +kernel
  exact Standing.requested.inj (hlog.symm.trans h)

/-- **A challenge can be widened.**  Authority to read was requested and confirmed, and the
connector may send. -/
theorem challenge_widened :
    standing "mail" (run step {} (askToRead ["read", "send"])).log =
        .granted (Std.ExtTreeSet.ofList ["read"]) ∧
      ((run step {} (askToRead ["read", "send"])).runtime.connectors["mail"]?.map fun b =>
        (b.state, b.declaration.scopes)) =
          some (ConnectorState.enabled, Std.ExtTreeSet.ofList ["read", "send"]) ∧
      ((run step {} (askToRead ["read", "send"])).runtime.invoke
        { readMail with scope := "send", effect := .write } fun _ => true).1.isSome :=
  ⟨by decide +kernel, by decide +kernel, by decide +kernel⟩

end Session

end PersonalAgent.Plugins
