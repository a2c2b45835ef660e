/-
# Connected means usable

A server in state `Connected` should be one that calls can be sent to: enabled, with a
protocol that was negotiated from what its definition supports, with a healthy last sample
and with a rule for every tool.

A health probe promotes any `Degraded` server, also one that `record_restore_failure`
degraded; that took the negotiated protocol away, and nothing gave it back.  And a definition
is entered under the id it brings, whether or not a server is there: only namespaces are
compared.  Runs in which no probe succeeds without a protocol and no id comes twice keep the
promise (`connected_usable`).
-/

import PersonalAgent.Mcp.Runs

namespace PersonalAgent.Mcp

open Lib McpManager

open Memories (BTreeSet)

theorem negotiateProtocol_mem {client server : BTreeSet ProtocolVersion} {p : ProtocolVersion}
    (h : negotiateProtocol client server = some p) : p ∈ client :=
  Std.ExtTreeSet.mem_toList.mp (List.mem_of_mem_filter (List.mem_of_getLast? h))

namespace ManagedServer

/-- Calls can be sent to the server. -/
structure Usable (s : ManagedServer) : Prop where
  enabled : s.enabled = true
  negotiated : ∃ p, s.negotiatedProtocol = some p ∧ p ∈ s.definition.supportedProtocols
  healthy : ∃ sample, s.health = some sample ∧ sample.healthy = true
  covered : ∀ tool ∈ s.tools, ∃ rule ∈ s.permissions, rule.tool = tool.resolvedName

/-- What every operation keeps of a record. -/
structure Coherent (s : ManagedServer) : Prop where
  active : s.state = .connected ∨ s.state = .degraded → s.enabled = true
  supported : ∀ p, s.negotiatedProtocol = some p → p ∈ s.definition.supportedProtocols
  covered : ∀ tool ∈ s.tools, ∃ rule ∈ s.permissions, rule.tool = tool.resolvedName
  connected : s.state = .connected → s.negotiatedProtocol.isSome ∧
    ∃ sample, s.health = some sample ∧ sample.healthy = true

theorem Coherent.usable {s : ManagedServer} (h : s.Coherent) (hstate : s.state = .connected) :
    s.Usable where
  enabled := h.active (.inl hstate)
  negotiated := by
    obtain ⟨p, hp⟩ := Option.isSome_iff_exists.mp (h.connected hstate).1
    exact ⟨p, hp, h.supported p hp⟩
  healthy := (h.connected hstate).2
  covered := h.covered

/-- A server without a session. -/
theorem Coherent.of_inactive {s : ManagedServer}
    (hstate : ¬(s.state = .connected ∨ s.state = .degraded))
    (hsupported : ∀ p, s.negotiatedProtocol = some p → p ∈ s.definition.supportedProtocols)
    (hcovered : ∀ tool ∈ s.tools, ∃ rule ∈ s.permissions, rule.tool = tool.resolvedName) :
    s.Coherent :=
  ⟨fun h => absurd h hstate, hsupported, hcovered, fun h => absurd (.inl h) hstate⟩

theorem Coherent.of_definition (definition : ServerDefinition) :
    (ofDefinition definition).Coherent := by
  refine .of_inactive ?_ nofun nofun
  cases hinstall : definition.install <;> simp [ofDefinition, hinstall]

theorem Coherent.recover {s : ManagedServer} (h : s.Coherent) : s.recover.Coherent := by
  obtain ⟨hdefinition, htools, hpermissions, hprotocol, -, hstate⟩ := s.recover_spec
  -- A record that stays connected or degraded was not enabled, which there is none of.
  have hleft (hactive : s.recover.state = .connected ∨ s.recover.state = .degraded) : False := by
    obtain ⟨hsame, hdisabled⟩ := hstate hactive
    rw [hsame] at hactive
    exact Bool.false_ne_true (hdisabled.symm.trans (h.active hactive))
  refine .of_inactive hleft (fun p hp => ?_) ?_
  · rw [hdefinition]
    rcases hprotocol with hsame | hnone
    · exact h.supported p (hsame ▸ hp)
    · rw [hnone] at hp
      cases hp
  · rw [htools, hpermissions]
    exact h.covered

end ManagedServer

/-- A rule for every tool, whatever became of the catalog and of the rules. -/
theorem ServerChange.covered [CharCase] [ConsentDigest] {occupied : List String}
    {s s' : ManagedServer} {op : ServerOperation} (h : ServerChange occupied s op s')
    (hs : ∀ tool ∈ s.tools, ∃ rule ∈ s.permissions, rule.tool = tool.resolvedName) :
    ∀ tool ∈ s'.tools, ∃ rule ∈ s'.permissions, rule.tool = tool.resolvedName := by
  rcases h.catalog with ⟨htools, hpermissions⟩ | ⟨_, tools, -, -, htools, hpermissions⟩ |
    ⟨-, htools, hpermissions⟩ | ⟨rule, -, -, htools, hpermissions⟩ <;>
    rw [htools, hpermissions] <;> intro tool hmem
  · exact hs tool hmem
  · obtain ⟨rule, hrule, hname, -⟩ := seedConservativePermissions_covers hmem
    exact ⟨rule, hrule, hname⟩
  · cases hmem
  · obtain ⟨existing, hexisting, hname⟩ := hs tool hmem
    by_cases hreplaced : existing.tool = rule.tool ∧ existing.scope = rule.scope
    · exact ⟨rule, List.mem_append_right _ List.mem_cons_self, hreplaced.1 ▸ hname⟩
    · refine ⟨existing, List.mem_append_left _ (List.mem_filter.mpr ⟨hexisting, ?_⟩), hname⟩
      rw [Bool.not_eq_true', decide_eq_false_iff_not]
      exact hreplaced

/-- The operations that keep the promise on a server: a probe that succeeds finds a
negotiated protocol. -/
def ServerOperation.keepsUsable (s : ManagedServer) : ServerOperation → Bool
  | .checkHealth (.ok _) => s.negotiatedProtocol.isSome
  | _ => true

theorem ServerChange.coherent [CharCase] [ConsentDigest] {occupied : List String}
    {s s' : ManagedServer} {op : ServerOperation} (h : ServerChange occupied s op s')
    (hop : op.keepsUsable s = true) (hs : s.Coherent) : s'.Coherent := by
  have hcovered := h.covered hs.covered
  cases h with
  | refused => exact hs
  | connected _ hprotocol _ | restarted hprotocol _ =>
    exact ⟨fun _ => rfl, fun p hp => Option.some.inj hp ▸ negotiateProtocol_mem hprotocol, hcovered,
      fun _ => ⟨rfl, _, rfl, rfl⟩⟩
  | healthy hstate hsample =>
    exact ⟨fun _ => hs.active hstate, hs.supported, hcovered, fun _ => ⟨hop, _, rfl, hsample⟩⟩
  | unhealthy hstate =>
    exact ⟨fun _ => hs.active hstate, hs.supported, hcovered, nofun⟩
  | restoreFailed => exact ⟨fun _ => rfl, nofun, hcovered, nofun⟩
  | connectFailed _ hstate =>
    refine .of_inactive ?_ hs.supported hcovered
    rcases hstate with rfl | rfl <;> simp [ManagedServer.failedIn]
  | restartFailed hstate =>
    refine .of_inactive ?_ nofun hcovered
    rcases hstate with rfl | rfl <;> simp [ManagedServer.failedIn]
  | permissionSet | scopesSet => exact ⟨hs.active, hs.supported, hcovered, hs.connected⟩
  | disabled | uninstalled =>
    exact .of_inactive (by rintro (hstate | hstate) <;> cases hstate) nofun hcovered
  | _ => exact .of_inactive (by rintro (hstate | hstate) <;> cases hstate) hs.supported hcovered

namespace McpManager

/-- No two servers have one namespace. -/
def DistinctNamespaces (m : McpManager) : Prop :=
  ∀ (id id' : Uuid) (s s' : ManagedServer), m.servers[id]? = some s → m.servers[id']? = some s' →
    s.definition.namespace_ = s'.definition.namespace_ → id = id'

end McpManager

section

variable [UrlLibrary] [CharCase] [ConsentDigest] {m : McpManager}

/-- A record that is not a draft has the namespace it had. -/
theorem apply_namespace {op : ManagerOperation} {id : Uuid} {s : ManagedServer}
    (hs : (m.apply op).servers[id]? = some s) :
    (∃ definition, op = .addServer definition ∧
      (∀ (id' : Uuid) (s' : ManagedServer), m.servers[id']? = some s' →
        s'.definition.namespace_ ≠ definition.namespace_) ∧
      id = definition.id ∧ s.definition.namespace_ = definition.namespace_) ∨
    ∃ before, m.servers[id]? = some before ∧
      s.definition.namespace_ = before.definition.namespace_ := by
  rcases apply_origin hs with ⟨definition, hop, -, hfresh, hid, rfl⟩ | ⟨before, hbefore, hcase⟩
  · exact .inl ⟨definition, hop, hfresh, hid, rfl⟩
  · refine .inr ⟨before, hbefore, ?_⟩
    rcases hcase with rfl | ⟨-, rfl⟩ | ⟨operation, -, rfl⟩
    · rfl
    · rw [before.recover_spec.1]
    · obtain ⟨_, _, hdefinition⟩ := (effect_change (m.catalogNamesExcluding id) before
        operation).definition
      rw [hdefinition]

theorem apply_distinctNamespaces (op : ManagerOperation) (h : m.DistinctNamespaces) :
    (m.apply op).DistinctNamespaces := by
  intro id id' s s' hs hs' hname
  rcases apply_namespace hs with ⟨d, hop, hfresh, rfl, hnew⟩ | ⟨before, hbefore, hkept⟩
  · rcases apply_namespace hs' with ⟨d', hop', -, rfl, -⟩ | ⟨before', hbefore', hkept'⟩
    · cases hop.symm.trans hop'
      rfl
    · exact absurd (hkept'.symm.trans (hname.symm.trans hnew)) (hfresh id' before' hbefore')
  · rcases apply_namespace hs' with ⟨d', hop', hfresh', rfl, hnew'⟩ | ⟨before', hbefore', hkept'⟩
    · exact absurd (hkept.symm.trans (hname.trans hnew')) (hfresh' id before hbefore)
    · exact h id id' before before' hbefore hbefore' (hkept.symm.trans (hname.trans hkept'))

/-- The operations that keep the promise: a definition brings a new id, and a probe that
succeeds finds a negotiated protocol. -/
def ManagerOperation.keepsUsable (m : McpManager) : ManagerOperation → Bool
  | .addServer definition => !m.servers.contains definition.id
  | .on id operation => m.servers[id]?.all operation.keepsUsable
  | _ => true

/-- Every record is coherent. -/
def McpManager.Coherent (m : McpManager) : Prop :=
  ∀ (id : Uuid) (s : ManagedServer), m.servers[id]? = some s → s.Coherent

theorem apply_coherent {op : ManagerOperation} (hop : op.keepsUsable m = true) (h : m.Coherent) :
    (m.apply op).Coherent := by
  refine apply_forall (P := fun _ s => s.Coherent) (fun d _ _ => .of_definition d)
    (fun _ _ _ hs => hs.recover) (fun id operation s heq hs hcoherent => ?_) h
  subst heq
  rw [ManagerOperation.keepsUsable, hs] at hop
  exact (effect_change _ s operation).coherent hop hcoherent

/-- A definition with a new id leaves every server as it is. -/
theorem addServer_keeps {definition : ServerDefinition}
    (hnew : ManagerOperation.keepsUsable m (.addServer definition) = true)
    {id : Uuid} {s : ManagedServer} (hs : m.servers[id]? = some s) :
    (m.apply (.addServer definition)).servers[id]? = some s := by
  rw [apply]
  rcases addServer_outcome m definition with ⟨e, hsame⟩ | ⟨-, -, heq⟩
  · rw [hsame]
    exact hs
  · rw [heq, getElem?_insert_eq, if_neg]
    · exact hs
    · rintro rfl
      rw [ManagerOperation.keepsUsable, Std.ExtTreeMap.contains_eq_isSome_getElem?, hs] at hnew
      cases hnew

/-- **Connected means usable.**  From the empty registry, along every run whose definitions
bring new ids and whose successful probes find a protocol, a `Connected` server is usable,
namespaces are distinct, and no definition touches a server that is there. -/
theorem connected_usable {ops : List ManagerOperation}
    (h : Along apply (fun m op => op.keepsUsable m = true) {} ops) :
    (∀ (id : Uuid) (s : ManagedServer), (run apply {} ops).servers[id]? = some s →
      s.state = .connected → s.Usable) ∧
    (run apply {} ops).DistinctNamespaces ∧
    ∀ before definition after, ops = before ++ .addServer definition :: after →
      ∀ (id : Uuid) (s : ManagedServer),
        (run apply {} before).servers[id]? = some s →
        (run apply {} (before ++ [.addServer definition])).servers[id]? = some s := by
  refine ⟨fun id s hs hstate => ?_, ?_, fun before definition after hops id s hs => ?_⟩
  · have hinv : (run apply {} ops).Coherent :=
      h.invariant McpManager.Coherent (fun m op hop => apply_coherent hop)
        fun id s hs => (empty_servers hs).elim
    exact (hinv id s hs).usable hstate
  · exact run_invariant McpManager.DistinctNamespaces
      (fun m op => apply_distinctNamespaces op) ops
      fun _ _ _ _ hs => (empty_servers hs).elim
  · subst hops
    have hnew := ((along_append _ _ _).mp h).2.1
    rw [run_append, run_cons, run_nil]
    exact addServer_keeps hnew hs

end

section Examples

attribute [local instance] Sample.asciiCase Sample.remoteUrl Sample.plainDigest

/-- A server that connects, fails a probe and passes the next one. -/
def probedRun : List ManagerOperation :=
  [.addServer (Sample.server 1 "files" none),
    .on 1 (.connect (.ok (Sample.handshake ["read"]))),
    .on 1 (.checkHealth (.error ⟨"timeout", "no answer", false⟩)),
    .on 1 (.checkHealth (.ok 5))]

/-- The server is connected again, and usable. -/
theorem probedRun_usable :
    Along apply (fun m op => op.keepsUsable m = true) {} probedRun ∧
      ((run apply {} probedRun).servers[1]?.map (·.state) = some .connected) ∧
      ∀ s, (run apply {} probedRun).servers[1]? = some s → s.state = .connected →
        s.Usable := by
  have halong : Along apply (fun m op => op.keepsUsable m = true) {} probedRun := by
    decide +kernel
  exact ⟨halong, by decide +kernel, (connected_usable halong).1 1⟩

/-- **Two ways in which the promise breaks.**  A probe succeeds after a failure to restore the
connection: the server is `Connected` without a protocol.  A definition comes with the id of
a server: that server is gone. -/
theorem probe_without_protocol :
    ((run apply {} [.addServer (Sample.server 1 "files" none),
        .on 1 (.connect (.ok (Sample.handshake ["read"]))), .on 1 .recordRestoreFailure,
        .on 1 (.checkHealth (.ok 5))]).servers[1]?.map fun s =>
      (s.state, s.negotiatedProtocol)) = some (.connected, none) ∧
    ((run apply {} [.addServer (Sample.server 1 "files" none)]).servers[1]?.map
      (·.definition.namespace_)) = some "files" ∧
    ((run apply {} [.addServer (Sample.server 1 "files" none),
        .addServer (Sample.server 1 "mail" none)]).servers[1]?.map
      (·.definition.namespace_)) = some "mail" := by
  decide +kernel

end Examples

end PersonalAgent.Mcp
