/-
# What a consent stands for

`install`, `apply_update` and `rollback` of `crates/mcp-manager/src/lib.rs` run a recipe
through the package adapter after a consent: a digest and a text that the user saw.
`installCall` is the call of the adapter that an operation makes, and `installCalls` are those
of a run.

The consent to an installation or an update holds the digest of the recipe.  The consent to a
rollback holds the digest of a sentence with the name of the server and a version, and
neither says which recipe the release was installed with: two servers of one name that were
updated from the same version roll back to different recipes under one consent.
-/

import PersonalAgent.Core.ReleaseHashes
import PersonalAgent.Mcp.Runs

namespace PersonalAgent.Mcp

open Lib Sample Option

/-- A call of `PackageAdapter::install`, with the consent it was made under. -/
structure InstallCall where
  consent : OperationConsent
  rollback : Bool
  recipe : InstallRecipe
  deriving DecidableEq, Repr

section

variable [ConsentDigest]

/-- The call of the adapter that an operation makes. -/
def ManagedServer.installCall (s : ManagedServer) : ServerOperation → Option InstallCall
  | .install consent _ => (s.installRecipe consent).toOption.map (⟨consent, false, ·⟩)
  | .applyUpdate consent _ => (s.updateRecipe consent).toOption.map (⟨consent, false, ·.recipe⟩)
  | .rollback consent _ => (s.rollbackRecipe consent).toOption.map (⟨consent, true, ·.2⟩)
  | _ => none

/-- The operation, with another package adapter. -/
def ServerOperation.withAdapter (adapter : PackageAdapter) : ServerOperation → ServerOperation
  | .install consent _ => .install consent adapter
  | .applyUpdate consent _ => .applyUpdate consent adapter
  | .rollback consent _ => .rollback consent adapter
  | operation => operation

/-- **An operation calls the adapter with the recipe of its call, or not at all**: it does the
same with two adapters that answer that recipe alike. -/
theorem effect_withAdapter [UrlLibrary] [CharCase] {s : ManagedServer}
    {operation : ServerOperation} {adapter adapter' : PackageAdapter}
    (h : ∀ call, s.installCall operation = some call →
      adapter call.recipe = adapter' call.recipe) (occupied : List String) :
    (operation.withAdapter adapter).effect occupied s =
      (operation.withAdapter adapter').effect occupied s := by
  cases operation with
  | install consent _ =>
    simp only [ServerOperation.withAdapter, ServerOperation.effect, ManagedServer.install]
    cases hrecipe : s.installRecipe consent with
    | error e => rfl
    | ok recipe =>
      have hsame : adapter recipe = adapter' recipe :=
        h ⟨consent, false, recipe⟩ (by rw [ManagedServer.installCall, hrecipe]; rfl)
      simp only [hsame]
  | applyUpdate consent _ =>
    simp only [ServerOperation.withAdapter, ServerOperation.effect, ManagedServer.applyUpdate]
    cases hplan : s.updateRecipe consent with
    | error e => rfl
    | ok plan =>
      have hsame : adapter plan.recipe = adapter' plan.recipe :=
        h ⟨consent, false, plan.recipe⟩ (by rw [ManagedServer.installCall, hplan]; rfl)
      simp only [hsame]
  | rollback consent _ =>
    simp only [ServerOperation.withAdapter, ServerOperation.effect, ManagedServer.rollback]
    cases hrecipe : s.rollbackRecipe consent with
    | error e => rfl
    | ok found =>
      have hsame : adapter found.2 = adapter' found.2 :=
        h ⟨consent, true, found.2⟩ (by rw [ManagedServer.installCall, hrecipe]; rfl)
      simp only [hsame]
  | _ => rfl

/-- The call of the adapter that an operation of the manager makes. -/
def McpManager.installCall (m : McpManager) : ManagerOperation → Option InstallCall
  | .on id operation => m.servers[id]?.bind (·.installCall operation)
  | _ => none

/-- The calls of a run. -/
def installCalls [UrlLibrary] [CharCase] : McpManager → List ManagerOperation → List InstallCall
  | _, [] => []
  | m, op :: ops => (m.installCall op).toList ++ installCalls (m.apply op) ops

omit [ConsentDigest] in
theorem verifyConsent_ok {consent : OperationConsent} {digest text : String}
    (h : verifyConsent consent digest text = .ok ()) :
    consent.operationDigest = digest ∧ consent.displayedText = text := by
  obtain ⟨-, h⟩ := refuse_bind_ok h
  have hmatch := refuse_ok_iff.mp h
  push Not at hmatch
  exact hmatch

/-- What an accepted consent holds. -/
theorem installCall_consent {s : ManagedServer} {operation : ServerOperation} {call : InstallCall}
    (h : s.installCall operation = some call) :
    (call.rollback = false ∧ call.consent.operationDigest = call.recipe.digest) ∨
      (call.rollback = true ∧ ∃ name version, call.consent.operationDigest =
        ConsentDigest.sha256 (ManagedServer.rollbackText name version)) := by
  cases operation with
  | install consent adapter =>
    obtain ⟨recipe, hrecipe, rfl⟩ := map_eq_some_iff.mp h
    have hok := s.installRecipe_ok (toOption_eq_some.mp hrecipe)
    exact .inl ⟨rfl, (verifyConsent_ok hok.2).1⟩
  | applyUpdate consent adapter =>
    obtain ⟨plan, hplan, rfl⟩ := map_eq_some_iff.mp h
    have hok := s.updateRecipe_ok (toOption_eq_some.mp hplan)
    exact .inl ⟨rfl, (verifyConsent_ok hok.2).1⟩
  | rollback consent adapter =>
    obtain ⟨⟨release, recipe⟩, hrecipe, rfl⟩ := map_eq_some_iff.mp h
    have hok := s.rollbackRecipe_ok (toOption_eq_some.mp hrecipe)
    exact .inr ⟨rfl, _, _, (verifyConsent_ok hok.2.2).1⟩
  | _ => cases h

theorem mem_installCalls [UrlLibrary] [CharCase] {m : McpManager} {ops : List ManagerOperation}
    {call : InstallCall} (h : call ∈ installCalls m ops) :
    ∃ (s : ManagedServer) (operation : ServerOperation), s.installCall operation = some call := by
  induction ops generalizing m with
  | nil => cases h
  | cons op ops ih =>
    rcases List.mem_append.mp h with hnow | hlater
    · rw [mem_toList] at hnow
      cases op with
      | on id operation =>
        obtain ⟨s, -, hcall⟩ := bind_eq_some_iff.mp hnow
        exact ⟨s, operation, hcall⟩
      | _ => cases hnow
    · exact ih hlater

/-- SHA-256 has no collisions, and the JSON of a recipe is an object that determines it. -/
structure CollisionFree : Prop where
  sha256 : ConsentDigest.sha256.Injective
  recipeJson : ConsentDigest.recipeJson.Injective
  object : ∀ recipe, (ConsentDigest.recipeJson recipe).toList.head? = some '\x7b'

theorem CollisionFree.digest_ne_rollback (h : CollisionFree) (recipe : InstallRecipe)
    (name version : String) :
    recipe.digest ≠ ConsentDigest.sha256 (ManagedServer.rollbackText name version) := by
  intro heq
  have hjson := h.object recipe
  rw [h.sha256 heq, ManagedServer.rollbackText] at hjson
  simp at hjson

/-- **A consent determines the recipe**, of any two calls in any two runs that are not both
rollbacks. -/
theorem consent_binds_recipe [UrlLibrary] [CharCase] (h : CollisionFree) {m m' : McpManager}
    {ops ops' : List ManagerOperation} {call call' : InstallCall}
    (hcall : call ∈ installCalls m ops) (hcall' : call' ∈ installCalls m' ops')
    (hdigest : call.consent.operationDigest = call'.consent.operationDigest)
    (hrollback : ¬(call.rollback = true ∧ call'.rollback = true)) :
    call.recipe = call'.recipe := by
  obtain ⟨s, operation, hs⟩ := mem_installCalls hcall
  obtain ⟨s', operation', hs'⟩ := mem_installCalls hcall'
  rcases installCall_consent hs with ⟨-, hrecipe⟩ | ⟨hback, name, version, hrecipe⟩
  · rcases installCall_consent hs' with ⟨-, hrecipe'⟩ | ⟨-, name, version, hrecipe'⟩
    · rw [hrecipe, hrecipe'] at hdigest
      exact h.recipeJson (h.sha256 hdigest)
    · rw [hrecipe, hrecipe'] at hdigest
      exact absurd hdigest (h.digest_ne_rollback call.recipe name version)
  · rcases installCall_consent hs' with ⟨-, hrecipe'⟩ | ⟨hback', -⟩
    · rw [hrecipe, hrecipe'] at hdigest
      exact absurd hdigest.symm (h.digest_ne_rollback call'.recipe name version)
    · exact absurd ⟨hback, hback'⟩ hrollback

end

section Examples

/-- The adapter of the desktop host, when the installer succeeds. -/
def nativeInstall : PackageAdapter :=
  fun recipe => .ok ⟨"installed", recipe.expectedArtifactSha256, some recipe⟩

def consentTo [ConsentDigest] (recipe : InstallRecipe) : OperationConsent :=
  ⟨recipe.digest, recipe.displayCommand, true⟩

/-- A server is added, installed and updated. -/
def updatedServer [ConsentDigest] (id : Uuid) (namespace_ package : String) :
    List ManagerOperation :=
  [.addServer (server id namespace_ (some (recipe package))),
    .on id (.install (consentTo (recipe package)) nativeInstall),
    .on id (.offerUpdate ⟨"2", recipe (package ++ "@2")⟩),
    .on id (.applyUpdate (consentTo (recipe (package ++ "@2"))) nativeInstall)]

section

attribute [local instance] asciiCase remoteUrl plainDigest

/-- The consent to a rollback of either server below. -/
def rollbackConsent : OperationConsent :=
  ⟨ConsentDigest.sha256 "Rollback Files to installed", "Rollback Files to installed", true⟩

/-- **One consent, two recipes.**  Two servers with the name "Files", each rolled back under the
same consent. -/
theorem rollback_two_recipes :
    let calls := installCalls {} (updatedServer 1 "files" "files" ++
      updatedServer 2 "mail" "mail" ++
      [.on 1 (.rollback rollbackConsent nativeInstall),
        .on 2 (.rollback rollbackConsent nativeInstall)])
    ⟨rollbackConsent, true, recipe "files"⟩ ∈ calls ∧
      ⟨rollbackConsent, true, recipe "mail"⟩ ∈ calls ∧
      recipe "files" ≠ recipe "mail" := by
  decide +kernel

end

/-- The characters of a text as numbers. -/
def codes (text : String) : List ℕ := text.toList.map Char.toNat

def recipeNumber (recipe : InstallRecipe) : ℕ :=
  Encodable.encode (codes recipe.program, recipe.arguments.map codes,
    recipe.expectedArtifactSha256.map codes, recipe.sourceUrl.map codes)

/-- Bytes are their own digest, and a recipe is written as its number. -/
@[reducible] def numberedDigest : ConsentDigest where
  digest := id
  recipeJson recipe := "\x7b" ++ (recipeNumber recipe).repr

theorem codes_injective : codes.Injective := by
  intro a b h
  refine String.toList_injective (List.map_injective_iff.mpr ?_ h)
  exact fun c d hcd => Char.toNat_inj.mp hcd

theorem recipeNumber_injective : recipeNumber.Injective := by
  intro r r' h
  have hcode := Encodable.encode_injective h
  simp only [Prod.mk.injEq] at hcode
  obtain ⟨hprogram, harguments, hsha, hsource⟩ := hcode
  cases r
  cases r'
  rw [InstallRecipe.mk.injEq]
  exact ⟨codes_injective hprogram, List.map_injective_iff.mpr codes_injective harguments,
    map_injective codes_injective hsha, map_injective codes_injective hsource⟩

attribute [local instance] asciiCase remoteUrl numberedDigest

theorem numberedDigest_collisionFree : CollisionFree where
  sha256 _ _ h := String.toByteArray_inj.mp <| ByteArray.ext <| Array.toList_inj.mp <|
    Core.hex_injective h
  recipeJson r r' h := by
    have htext : "\x7b" ++ (recipeNumber r).repr = "\x7b" ++ (recipeNumber r').repr := h
    have hlist := congrArg String.toList htext
    rw [String.toList_append, String.toList_append] at hlist
    have hrepr := String.toList_injective (List.append_cancel_left hlist)
    exact recipeNumber_injective (Nat.repr_inj.mp hrepr)
  object recipe := by
    have htext : ConsentDigest.recipeJson recipe = "\x7b" ++ (recipeNumber recipe).repr := rfl
    rw [htext, String.toList_append]
    rfl

/-- A registry with one server that can be installed. -/
def installable (id : Uuid) : McpManager :=
  ⟨(∅ : BTreeMap Uuid ManagedServer).insert id
    (.ofDefinition (server id "files" (some (recipe "files"))))⟩

theorem installable_call (id : Uuid) :
    ⟨consentTo (recipe "files"), false, recipe "files"⟩ ∈
      installCalls (installable id)
        [.on id (.install (consentTo (recipe "files")) nativeInstall)] := by
  have hs : (installable id).servers[id]? =
      some (.ofDefinition (server id "files" (some (recipe "files")))) := by
    rw [installable, getElem?_insert_eq, if_pos rfl]
  have hrecipe : (ManagedServer.ofDefinition
      (server id "files" (some (recipe "files")))).installRecipe
        (consentTo (recipe "files")) = .ok (recipe "files") := by
    simp [ManagedServer.installRecipe, ManagedServer.ofDefinition, server, verifyConsent,
      consentTo]
    rfl
  rw [installCalls, List.mem_append]
  left
  rw [mem_toList, McpManager.installCall, hs, bind_some, ManagedServer.installCall,
    hrecipe]
  rfl

/-- Two servers are installed from one recipe under one consent. -/
theorem installable_binds :
    CollisionFree ∧
      ∃ call ∈ installCalls (installable 1)
          [.on 1 (.install (consentTo (recipe "files")) nativeInstall)],
        ∃ call' ∈ installCalls (installable 2)
            [.on 2 (.install (consentTo (recipe "files")) nativeInstall)],
          call.consent.operationDigest = call'.consent.operationDigest ∧
            call.recipe = call'.recipe :=
  ⟨numberedDigest_collisionFree, _, installable_call 1, _, installable_call 2, rfl,
    consent_binds_recipe numberedDigest_collisionFree (installable_call 1) (installable_call 2) rfl
      fun h => Bool.false_ne_true h.1⟩

end Examples

end PersonalAgent.Mcp
