/-
# Signed updates

`crates/core/src/release.rs`: the manifest of a release, its verification, and the update
transaction that goes from an available update to an installed and healthy one.  SHA-256,
Ed25519 and the serialisation that is signed are parameters (`ReleaseCrypto`).

`downloaded` matches the bytes with a manifest and `verified` checks the signature of a
manifest, and nothing makes the two the same: bytes that only an unsigned manifest lists go
through with a signed manifest of something else (`unsigned_bytes_are_verified`).
`Session` is the transaction together with what its calls accepted.
-/

import PersonalAgent.Contracts.Libraries
import PersonalAgent.Core.Usage
import PersonalAgent.Lib.Run

namespace PersonalAgent.Core

open Lib

/-! ### The manifest -/

inductive ReleaseChannel where
  | stable
  | beta
  deriving DecidableEq

/-- `url::Url`, as its scheme and the rest. -/
structure Url where
  scheme : String
  rest : String
  deriving DecidableEq

structure ReleaseArtifact where
  target : String
  installerKind : String
  url : Url
  sha256 : String
  byteLength : ℕ
  deriving DecidableEq

structure SignedReleaseManifest where
  schemaVersion : ℕ
  product : String
  version : String
  channel : ReleaseChannel
  artifacts : List ReleaseArtifact
  signatureHex : String
  deriving DecidableEq

inductive UpdateState where
  | available
  | downloaded
  | verified
  | backupCreated
  | installedPendingHealth
  | healthy
  | rolledBack
  deriving DecidableEq

inductive ReleaseError where
  | invalidManifest (reason : String)
  | invalidSignature
  | missingTarget (target : String)
  | artifactMismatch
  | invalidTransition (state : UpdateState)
  deriving DecidableEq

/-- What the release code takes from its libraries. -/
class ReleaseCrypto extends Sha256 where
  /-- `VerifyingKey::from_bytes(..).is_ok()`. -/
  isKey : List UInt8 → Bool
  /-- `VerifyingKey::verify_strict`, of a key, a message and a signature. -/
  verifyStrict : List UInt8 → List UInt8 → List UInt8 → Bool
  /-- `serde_json::to_vec`; the error as its text. -/
  toVec : SignedReleaseManifest → Except String (List UInt8)

def nibble (c : Char) : Option ℕ :=
  if 48 ≤ c.toNat ∧ c.toNat ≤ 57 then some (c.toNat - 48)
  else if 97 ≤ c.toNat ∧ c.toNat ≤ 102 then some (c.toNat - 97 + 10)
  else if 65 ≤ c.toNat ∧ c.toNat ≤ 70 then some (c.toNat - 65 + 10)
  else none

/-- The bytes that pairs of digits stand for. -/
def decodePairs : List Char → Option (List UInt8)
  | [] => some []
  | [_] => none
  | high :: low :: rest => do
    let high ← nibble high
    let low ← nibble low
    let bytes ← decodePairs rest
    return UInt8.ofNat (high * 16 + low) :: bytes

/-- `decode_hex::<N>`. -/
def decodeHex (n : ℕ) (value : String) : Option (List UInt8) :=
  if value.utf8ByteSize ≠ n * 2 then none else decodePairs value.toList

namespace SignedReleaseManifest

section Verification

variable [ReleaseCrypto]

def signingBytes (manifest : SignedReleaseManifest) : Except ReleaseError (List UInt8) :=
  match ReleaseCrypto.toVec { manifest with signatureHex := "" } with
  | .ok bytes => .ok bytes
  | .error error => .error (.invalidManifest error)

/-- The check of one artifact in `verify`. -/
def validArtifact (artifact : ReleaseArtifact) : Bool :=
  !(trim artifact.target).isEmpty && !(trim artifact.installerKind).isEmpty &&
    artifact.url.scheme == "https" && artifact.byteLength != 0 &&
    (decodeHex 32 artifact.sha256).isSome

def verify (manifest : SignedReleaseManifest) (publicKey : List UInt8) :
    Except ReleaseError Unit :=
  if manifest.schemaVersion ≠ 1 ∨ manifest.product ≠ "Personal Agent" ∨
      (trim manifest.version).isEmpty ∨ manifest.artifacts = [] then
    .error (.invalidManifest "identity fields are missing")
  else
    match manifest.artifacts.find? (fun artifact => !validArtifact artifact) with
    | some artifact => .error (.invalidManifest s!"invalid artifact for {artifact.target}")
    | none =>
      if !ReleaseCrypto.isKey publicKey then .error .invalidSignature
      else
        match decodeHex 64 manifest.signatureHex with
        | none => .error .invalidSignature
        | some signature =>
          match manifest.signingBytes with
          | .error error => .error error
          | .ok message =>
            if ReleaseCrypto.verifyStrict publicKey message signature then .ok ()
            else .error .invalidSignature

def verifyArtifact (manifest : SignedReleaseManifest) (target : String) (bytes : List UInt8) :
    Except ReleaseError ReleaseArtifact :=
  match manifest.artifacts.find? (·.target == target) with
  | none => .error (.missingTarget target)
  | some artifact =>
    if bytes.length ≠ artifact.byteLength ∨ Sha256.hexDigest bytes ≠ artifact.sha256 then
      .error .artifactMismatch
    else .ok artifact

/-- The manifest lists the bytes for a target, by length and hash. -/
def Lists (manifest : SignedReleaseManifest) (target : String) (bytes : List UInt8) : Prop :=
  ∃ artifact ∈ manifest.artifacts, artifact.target = target ∧
    artifact.byteLength = bytes.length ∧ artifact.sha256 = Sha256.hexDigest bytes

theorem lists_of_verifyArtifact {manifest : SignedReleaseManifest} {target : String}
    {bytes : List UInt8} {artifact : ReleaseArtifact}
    (h : manifest.verifyArtifact target bytes = .ok artifact) : manifest.Lists target bytes := by
  unfold verifyArtifact at h
  cases hfind : manifest.artifacts.find? (·.target == target) with
  | none =>
    rw [hfind] at h
    cases h
  | some found =>
    rw [hfind] at h
    dsimp only at h
    split_ifs at h with hmatch
    rw [not_or, not_not, not_not] at hmatch
    have htarget := List.find?_some hfind
    exact ⟨found, List.mem_of_find?_eq_some hfind, by simpa using htarget, hmatch.1.symm,
      hmatch.2.symm⟩

end Verification

end SignedReleaseManifest

/-! ### The transaction -/

structure UpdateTransaction where
  fromVersion : String
  toVersion : String
  target : String
  state : UpdateState
  backupId : Option String
  deriving DecidableEq

namespace UpdateTransaction

def new (fromVersion toVersion target : String) : UpdateTransaction where
  fromVersion := fromVersion
  toVersion := toVersion
  target := target
  state := .available
  backupId := none

variable [ReleaseCrypto] (t : UpdateTransaction)

def downloaded (manifest : SignedReleaseManifest) (bytes : List UInt8) :
    Except ReleaseError UpdateTransaction :=
  if t.state ≠ .available then .error (.invalidTransition t.state)
  else
    match manifest.verifyArtifact t.target bytes with
    | .error error => .error error
    | .ok _ => .ok { t with state := .downloaded }

def verified (manifest : SignedReleaseManifest) (publicKey : List UInt8) :
    Except ReleaseError UpdateTransaction :=
  if t.state ≠ .downloaded then .error (.invalidTransition t.state)
  else
    match manifest.verify publicKey with
    | .error error => .error error
    | .ok () => .ok { t with state := .verified }

omit [ReleaseCrypto] in
def backupCreated (backupId : String) : Except ReleaseError UpdateTransaction :=
  if t.state ≠ .verified ∨ (trim backupId).isEmpty then .error (.invalidTransition t.state)
  else .ok { t with backupId := some backupId, state := .backupCreated }

omit [ReleaseCrypto] in
def installed : Except ReleaseError UpdateTransaction :=
  if t.state ≠ .backupCreated ∨ t.backupId.isNone then .error (.invalidTransition t.state)
  else .ok { t with state := .installedPendingHealth }

omit [ReleaseCrypto] in
def healthResult (healthy : Bool) : Except ReleaseError UpdateTransaction :=
  if t.state ≠ .installedPendingHealth then .error (.invalidTransition t.state)
  else .ok { t with state := if healthy then .healthy else .rolledBack }

end UpdateTransaction

/-- A call of the transaction. -/
inductive UpdateOp where
  | downloaded (manifest : SignedReleaseManifest) (bytes : List UInt8)
  | verified (manifest : SignedReleaseManifest) (publicKey : List UInt8)
  | backupCreated (backupId : String)
  | installed
  | healthResult (healthy : Bool)

/-- A transaction, with the arguments of the calls of `downloaded` and `verified` that
succeeded. -/
structure Session where
  transaction : UpdateTransaction
  download : Option (SignedReleaseManifest × List UInt8) := none
  verification : Option (SignedReleaseManifest × List UInt8) := none

namespace Session

section Results

variable [ReleaseCrypto]

/-- One call; a call that fails changes nothing. -/
def step (s : Session) : UpdateOp → Session
  | .downloaded manifest bytes =>
    match s.transaction.downloaded manifest bytes with
    | .ok t => { s with transaction := t, download := some (manifest, bytes) }
    | .error _ => s
  | .verified manifest publicKey =>
    match s.transaction.verified manifest publicKey with
    | .ok t => { s with transaction := t, verification := some (manifest, publicKey) }
    | .error _ => s
  | .backupCreated backupId =>
    match s.transaction.backupCreated backupId with
    | .ok t => { s with transaction := t }
    | .error _ => s
  | .installed =>
    match s.transaction.installed with
    | .ok t => { s with transaction := t }
    | .error _ => s
  | .healthResult healthy =>
    match s.transaction.healthResult healthy with
    | .ok t => { s with transaction := t }
    | .error _ => s

/-- A `verified` call in state `Downloaded` is given the manifest of the download. -/
def SameManifest (s : Session) : UpdateOp → Prop
  | .verified manifest _ =>
    s.transaction.state = .downloaded → ∀ d ∈ s.download, manifest = d.1
  | _ => True

instance decidableSameManifest (s : Session) : ∀ op, Decidable (s.SameManifest op)
  | .verified manifest _ => inferInstanceAs
    (Decidable (s.transaction.state = .downloaded → ∀ d ∈ s.download, manifest = d.1))
  | .downloaded _ _ | .backupCreated _ | .installed | .healthResult _ =>
    inferInstanceAs (Decidable True)

/-- The bytes that were downloaded are listed in the manifest they were matched with. -/
def DownloadListed (s : Session) : Prop :=
  ∃ manifest bytes, s.download = some (manifest, bytes) ∧
    manifest.Lists s.transaction.target bytes

/-- The bytes that were downloaded are listed in a manifest with a valid signature. -/
def DownloadSigned (s : Session) : Prop :=
  ∃ manifest bytes publicKey, s.download = some (manifest, bytes) ∧
    s.verification = some (manifest, publicKey) ∧ manifest.verify publicKey = .ok () ∧
    manifest.Lists s.transaction.target bytes

/-- A backup that can be named. -/
def BackedUp (s : Session) : Prop :=
  ∃ backupId, s.transaction.backupId = some backupId ∧ (trim backupId).isEmpty = false

/-- What a call can do. -/
inductive Stepped (s : Session) : UpdateOp → Session → Prop
  | refused (op : UpdateOp) : Stepped s op s
  | downloaded {manifest : SignedReleaseManifest} {bytes : List UInt8}
    (hstate : s.transaction.state = .available)
    (hlists : manifest.Lists s.transaction.target bytes) :
    Stepped s (.downloaded manifest bytes)
      { s with
        transaction := { s.transaction with state := .downloaded }
        download := some (manifest, bytes) }
  | verified {manifest : SignedReleaseManifest} {publicKey : List UInt8}
    (hstate : s.transaction.state = .downloaded) (hverify : manifest.verify publicKey = .ok ()) :
    Stepped s (.verified manifest publicKey)
      { s with
        transaction := { s.transaction with state := .verified }
        verification := some (manifest, publicKey) }
  | backupCreated {backupId : String} (hstate : s.transaction.state = .verified)
    (hname : (trim backupId).isEmpty = false) :
    Stepped s (.backupCreated backupId)
      { s with
        transaction := { s.transaction with backupId := some backupId, state := .backupCreated } }
  | installed (hstate : s.transaction.state = .backupCreated) :
    Stepped s .installed
      { s with transaction := { s.transaction with state := .installedPendingHealth } }
  | healthResult (healthy : Bool) (hstate : s.transaction.state = .installedPendingHealth) :
    Stepped s (.healthResult healthy)
      { s with
        transaction := { s.transaction with state := if healthy then .healthy else .rolledBack } }

theorem step_spec (s : Session) (op : UpdateOp) : Stepped s op (s.step op) := by
  cases op with
  | downloaded manifest bytes =>
    rw [step, UpdateTransaction.downloaded]
    by_cases hstate : s.transaction.state = .available
    · rw [if_neg (not_not.mpr hstate)]
      cases hmatch : manifest.verifyArtifact s.transaction.target bytes with
      | error error => exact .refused _
      | ok artifact =>
        exact .downloaded hstate (SignedReleaseManifest.lists_of_verifyArtifact hmatch)
    · rw [if_pos hstate]
      exact .refused _
  | verified manifest publicKey =>
    rw [step, UpdateTransaction.verified]
    by_cases hstate : s.transaction.state = .downloaded
    · rw [if_neg (not_not.mpr hstate)]
      cases hverify : manifest.verify publicKey with
      | error error => exact .refused _
      | ok _ => exact .verified hstate hverify
    · rw [if_pos hstate]
      exact .refused _
  | backupCreated backupId =>
    rw [step, UpdateTransaction.backupCreated]
    by_cases hrefused : s.transaction.state ≠ .verified ∨ (trim backupId).isEmpty = true
    · rw [if_pos hrefused]
      exact .refused _
    · rw [if_neg hrefused]
      rw [not_or, not_not, Bool.not_eq_true] at hrefused
      exact .backupCreated hrefused.1 hrefused.2
  | installed =>
    rw [step, UpdateTransaction.installed]
    by_cases hrefused : s.transaction.state ≠ .backupCreated ∨
        s.transaction.backupId.isNone = true
    · rw [if_pos hrefused]
      exact .refused _
    · rw [if_neg hrefused]
      rw [not_or, not_not] at hrefused
      exact .installed hrefused.1
  | healthResult healthy =>
    rw [step, UpdateTransaction.healthResult]
    by_cases hstate : s.transaction.state = .installedPendingHealth
    · rw [if_neg (not_not.mpr hstate)]
      exact .healthResult healthy hstate
    · rw [if_pos hstate]
      exact .refused _

/-- From `Verified` on, the download is signed; before, it is listed. -/
structure Signed (s : Session) : Prop where
  listed : s.transaction.state = .downloaded → s.DownloadListed
  signed : s.transaction.state ∉ [UpdateState.available, .downloaded] → s.DownloadSigned

variable {s : Session} {op : UpdateOp}

theorem signed_step (hsame : s.SameManifest op) (h : s.Signed) : (s.step op).Signed := by
  have hspec := s.step_spec op
  generalize s.step op = s' at hspec
  cases hspec with
  | refused => exact h
  | downloaded hstate hlists =>
    exact ⟨fun _ => ⟨_, _, rfl, hlists⟩, fun hnot => absurd (List.mem_cons_of_mem _
      (List.mem_singleton_self _)) hnot⟩
  | verified hstate hverify =>
    refine ⟨nofun, fun _ => ?_⟩
    obtain ⟨listed, bytes, hdownload, hlists⟩ := h.listed hstate
    obtain rfl := hsame hstate _ hdownload
    exact ⟨_, bytes, _, hdownload, rfl, hverify, hlists⟩
  | backupCreated hstate hname =>
    exact ⟨nofun, fun _ => h.signed (by rw [hstate]; decide)⟩
  | installed hstate => exact ⟨nofun, fun _ => h.signed (by rw [hstate]; decide)⟩
  | healthResult healthy hstate =>
    refine ⟨fun hdownloaded => ?_, fun _ => h.signed (by rw [hstate]; decide)⟩
    cases healthy <;> cases hdownloaded

theorem target_step : (s.step op).transaction.target = s.transaction.target := by
  have hspec := s.step_spec op
  generalize s.step op = s' at hspec
  cases hspec <;> rfl

/-- Once a backup is made, it stays. -/
theorem backedUp_step
    (h : s.transaction.state ∉ [UpdateState.available, .downloaded, .verified] → s.BackedUp) :
    (s.step op).transaction.state ∉ [UpdateState.available, .downloaded, .verified] →
      (s.step op).BackedUp := by
  have hspec := s.step_spec op
  generalize s.step op = s' at hspec
  cases hspec with
  | refused => exact h
  | downloaded hstate hlists => exact fun hnot => absurd (by simp) hnot
  | verified hstate hverify => exact fun hnot => absurd (by simp) hnot
  | backupCreated hstate hname => exact fun _ => ⟨_, rfl, hname⟩
  | installed hstate => exact fun _ => h (by rw [hstate]; decide)
  | healthResult healthy hstate => exact fun _ => h (by rw [hstate]; decide)

/-- **Only signed bytes are installed,** in any sequence of calls in which `verified` is given
the manifest that the download was matched with: from `Verified` on, the downloaded bytes are
listed for the target, by length and hash, in a manifest that passed `verify` under the key
given to `verified`.  And whatever manifests are given, a transaction that was installed has
a backup with a name that is not blank. -/
theorem only_signed_bytes (fromVersion toVersion target : String) (ops : List UpdateOp) :
    let start : Session := { transaction := .new fromVersion toVersion target }
    let s := run step start ops
    (Along step SameManifest start ops →
      s.transaction.state ∉ [UpdateState.available, .downloaded] →
      ∃ manifest bytes publicKey, s.download = some (manifest, bytes) ∧
        s.verification = some (manifest, publicKey) ∧ manifest.verify publicKey = .ok () ∧
        manifest.Lists target bytes) ∧
    (s.transaction.state ∈ [UpdateState.installedPendingHealth, .healthy, .rolledBack] →
      ∃ backupId, s.transaction.backupId = some backupId ∧ (trim backupId).isEmpty = false) := by
  intro start s
  refine ⟨fun hsame hstate => ?_, fun hinstalled => ?_⟩
  · have hsigned : s.Signed := hsame.invariant Signed (fun _ _ hop h => signed_step hop h)
      ⟨nofun, fun hnot => absurd List.mem_cons_self hnot⟩
    have htarget : s.transaction.target = target :=
      run_invariant (fun s : Session => s.transaction.target = target)
        (fun _ _ h => target_step.trans h) ops rfl
    rw [← htarget]
    exact hsigned.signed hstate
  · have hbackedUp : s.transaction.state ∉ [UpdateState.available, .downloaded, .verified] →
        s.BackedUp :=
      run_invariant (fun s : Session =>
        s.transaction.state ∉ [UpdateState.available, .downloaded, .verified] → s.BackedUp)
        (fun s op h => backedUp_step h) ops (fun hnot => absurd List.mem_cons_self hnot)
    refine hbackedUp fun hbefore => ?_
    generalize s.transaction.state = state at hinstalled hbefore
    cases state <;> simp at hinstalled hbefore

end Results

/-! ### Unsigned bytes -/

section Examples

/-- Hashes are the bytes themselves, and a signature is right if it starts like the key. -/
@[reducible] def toyCrypto : ReleaseCrypto where
  digest := fun bytes => bytes
  isKey := fun _ => true
  verifyStrict := fun key _ signature => key.head? == signature.head?
  toVec := fun _ => .ok []

attribute [local instance] toyCrypto

/-- A manifest of one artifact. -/
def sampleManifest (bytes : List UInt8) (signature : String) : SignedReleaseManifest where
  schemaVersion := 1
  product := "Personal Agent"
  version := "0.2.0"
  channel := .beta
  artifacts := [{
    target := "linux"
    installerKind := "deb"
    url := ⟨"https", "//releases.example.test/app.deb"⟩
    sha256 := hex bytes
    byteLength := bytes.length }]
  signatureHex := signature

/-- Thirty-two bytes, as a hash has. -/
def installer (byte : UInt8) : List UInt8 := List.replicate 32 byte

def signedManifest : SignedReleaseManifest :=
  sampleManifest (installer 1) (hex (List.replicate 64 7))

/-- A download of other bytes, by a manifest without a signature. -/
def unsignedDownload : List UpdateOp :=
  [.downloaded (sampleManifest (installer 2) "") (installer 2), .verified signedManifest [7]]

/-- **The manifests need not be the same.**  The transaction is `Verified` with bytes that the
signed manifest does not list, and that no key has signed. -/
theorem unsigned_bytes_are_verified :
    let s := run step { transaction := .new "0.1.0" "0.2.0" "linux" } unsignedDownload
    s.transaction.state = .verified ∧ s.download.map Prod.snd = some (installer 2) ∧
    s.verification = some (signedManifest, [7]) ∧
    (signedManifest.verifyArtifact "linux" (installer 2)).toBool = false := by
  decide +kernel

/-- The signed manifest in both places. -/
def signedUpdate : List UpdateOp :=
  [.downloaded signedManifest (installer 1), .verified signedManifest [7], .backupCreated "backup",
    .installed, .healthResult true]

/-- A signed update that goes through. -/
theorem only_signed_bytes_installed :
    let s := run step { transaction := .new "0.1.0" "0.2.0" "linux" } signedUpdate
    s.transaction.state = .healthy ∧
    (∃ manifest bytes publicKey, s.download = some (manifest, bytes) ∧
      s.verification = some (manifest, publicKey) ∧ manifest.verify publicKey = .ok () ∧
      manifest.Lists "linux" bytes) ∧
    ∃ backupId, s.transaction.backupId = some backupId ∧ (trim backupId).isEmpty = false := by
  have hsigned := only_signed_bytes "0.1.0" "0.2.0" "linux" signedUpdate
  exact ⟨by decide +kernel, hsigned.1 (by decide +kernel) (by decide +kernel),
    hsigned.2 (by decide +kernel)⟩

end Examples

end Session
end PersonalAgent.Core
