/-
# The legacy profile on disk

What `crates/migration/src/lib.rs` reads: the roots of a profile, the metadata and the bytes of
its files, and the records and report rows that are made of them.

A source is a map from paths to what stands there, ordered as `Path` is, component by component,
so the files below a directory come out of it sorted.  It does not change while it is read, so
the checks of `read_limited` before and after reading always agree; files that cannot be opened
are left out, links are not followed, and names are Unicode.  SHA-256 and the TOML parser are
parameters.
-/

import PersonalAgent.Contracts.Json
import PersonalAgent.Contracts.Libraries
import PersonalAgent.Core.Usage
import PersonalAgent.Lib.OrdMap
import PersonalAgent.Migration.Migrate

namespace PersonalAgent.Migration

/-- An absolute path, by its components. -/
abbrev PathBuf := List String

/-- `Path::to_string_lossy` of a relative path. -/
def relativeText (path : PathBuf) : String := "/".intercalate path

/-- `Path::strip_prefix`. -/
def strippedPath (root path : PathBuf) : Option PathBuf :=
  if root <+: path then some (path.drop root.length) else none

/-- `toml::Value`. -/
inductive TomlValue where
  | string (text : String)
  | integer (n : ℤ)
  | float (x : F64)
  | boolean (b : Bool)
  | datetime (text : String)
  | array (items : List TomlValue)
  | table (fields : List (String × TomlValue))

namespace TomlValue

/-- `Value::get`. -/
def get (v : TomlValue) (name : String) : Option TomlValue :=
  match v with
  | .table fields => fields.lookup name
  | _ => none

def asStr : TomlValue → Option String
  | .string text => some text
  | _ => none

def asBool : TomlValue → Option Bool
  | .boolean b => some b
  | _ => none

def asArray : TomlValue → Option (List TomlValue)
  | .array items => some items
  | _ => none

def isTable : TomlValue → Bool
  | .table _ => true
  | _ => false

end TomlValue

/-- `toml::from_str::<toml::Value>`; its error is never looked at. -/
class Toml where
  fromStr : String → Option TomlValue

/-! ### Text -/

/-- How far into a character a decoder is: the bytes that are missing, what the others have
given, and the range the next one has to be in. -/
structure Partial8 where
  missing : ℕ
  value : ℕ
  low : ℕ := 0x80
  high : ℕ := 0xbf

def startChar (byte : ℕ) : List Char × Option Partial8 :=
  if byte < 0x80 then ([Char.ofNat byte], none)
  else if 0xc2 ≤ byte ∧ byte ≤ 0xdf then ([], some ⟨1, byte - 0xc0, 0x80, 0xbf⟩)
  else if 0xe0 ≤ byte ∧ byte ≤ 0xef then
    ([], some ⟨2, byte - 0xe0, if byte = 0xe0 then 0xa0 else 0x80,
      if byte = 0xed then 0x9f else 0xbf⟩)
  else if 0xf0 ≤ byte ∧ byte ≤ 0xf4 then
    ([], some ⟨3, byte - 0xf0, if byte = 0xf0 then 0x90 else 0x80,
      if byte = 0xf4 then 0x8f else 0xbf⟩)
  else (['�'], none)

def decodeByte (pending : Option Partial8) (byte : ℕ) : List Char × Option Partial8 :=
  match pending with
  | none => startChar byte
  | some p =>
    if p.low ≤ byte ∧ byte ≤ p.high then
      if p.missing = 1 then ([Char.ofNat (p.value * 64 + (byte - 0x80))], none)
      else ([], some { missing := p.missing - 1, value := p.value * 64 + (byte - 0x80) })
    else
      let (chars, pending) := startChar byte
      ('�' :: chars, pending)

/-- The characters of a stream of bytes. -/
def decodeBytes : Option Partial8 → List UInt8 → List Char
  | none, [] => []
  | some _, [] => ['�']
  | pending, byte :: bytes =>
    let (chars, pending) := decodeByte pending byte.toNat
    chars ++ decodeBytes pending bytes

/-- `String::from_utf8_lossy`: each maximal piece of a character that does not go on is replaced
by one replacement character. -/
def fromUtf8Lossy (bytes : List UInt8) : String := String.ofList (decodeBytes none bytes)

/-! ### Files -/

/-- What stands at a path. -/
inductive Content where
  | file (bytes : List UInt8)
  | directory
  | symlink
  | other
  deriving DecidableEq, Repr

/-- What stands at a path, and when it was last modified (in RFC 3339, if the system says so). -/
structure Node where
  content : Content
  modifiedAt : Option String := none
  deriving DecidableEq, Repr

/-- The kind of a file. -/
inductive FileType where
  | file
  | directory
  | symlink
  | other
  deriving DecidableEq, Repr

/-- `fs::Metadata`; the length is that of a regular file. -/
structure Metadata where
  fileType : FileType
  len : ℕ
  modifiedAt : Option String
  deriving DecidableEq, Repr

def Node.metadata (node : Node) : Metadata :=
  match node.content with
  | .file bytes => ⟨.file, bytes.length, node.modifiedAt⟩
  | .directory => ⟨.directory, 0, node.modifiedAt⟩
  | .symlink => ⟨.symlink, 0, node.modifiedAt⟩
  | .other => ⟨.other, 0, node.modifiedAt⟩

/-- A profile on disk: what stands below something stands in a directory. -/
structure LegacySource where
  nodes : BTreeMap PathBuf Node
  inDirectory : ∀ path ∈ nodes.keys, path.dropLast ≠ [] →
    nodes[path.dropLast]?.map (·.metadata.fileType) = some .directory

namespace LegacySource

variable (source : LegacySource)

/-- `fs::symlink_metadata`. -/
def symlinkMetadata (path : PathBuf) : Except MigrationError Metadata :=
  match source.nodes[path]? with
  | some node => .ok node.metadata
  | none => .error .io

/-- The regular files below a directory, in order.  The walk does not enter links, and nothing
stands below anything but a directory. -/
def filesBelow (root : PathBuf) : List PathBuf :=
  (source.nodes.toList.filter fun entry =>
    root <+: entry.1 ∧ entry.2.metadata.fileType = .file).map Prod.fst

def regularFiles (root : PathBuf) (limit : ℕ) :
    Except MigrationError (List PathBuf) := do
  let metadata ← source.symlinkMetadata root
  match metadata.fileType with
  | .symlink => return []
  | .file => return [root]
  | .other => throw .io
  | .directory =>
    let files := source.filesBelow root
    if limit < files.length then throw .tooManyFiles else return files

def maxFileBytes : ℕ := 8 * 1024 * 1024

/-- The bytes of a regular file that is not too large. -/
def readLimited (path : PathBuf) : Except MigrationError (List UInt8) :=
  match source.nodes[path]? with
  | none => .error .io
  | some ⟨.file bytes, _⟩ => if maxFileBytes < bytes.length then .error .fileTooLarge else .ok bytes
  | some _ => .error .fileTooLarge

/-- When the file at a path was last modified. -/
def modifiedAt (source : LegacySource) (path : PathBuf) : Option String :=
  (source.nodes[path]?).bind (·.metadata.modifiedAt)

end LegacySource

/-! ### Plans -/

/-- The independently located legacy configuration, data, and optional auth roots. -/
structure LegacyRoots where
  configRoot : PathBuf
  dataRoot : PathBuf
  opencodeAuth : Option PathBuf := none
  deriving DecidableEq, Repr

/-- What a dry run intends to do with a legacy input. -/
inductive PlannedAction where
  | importData
  | convert
  | quarantineDisabled
  | metadataOnly
  | skipSecretBearing
  deriving DecidableEq, Repr

/-- One legacy input found without opening or changing personal content. -/
structure DiscoveredInput where
  kind : String
  path : PathBuf
  bytes : ℕ
  entries : ℕ
  containsPossibleSecrets : Bool
  action : PlannedAction
  modifiedAt : Option String
  deriving DecidableEq, Repr

/-- Dry-run report that must precede any personal-data copy. -/
structure MigrationPlan where
  schemaVersion : ℕ := 1
  roots : LegacyRoots
  sourceFingerprint : String
  inputs : List DiscoveredInput
  requiresConfirmation : Bool := true
  remoteDevicesRequireRepairing : Bool := true
  plaintextSecretsWillBeSkipped : Bool := true
  deriving DecidableEq, Repr

/-! ### Records and report rows -/

section

variable [Sha256]

def hashText (text : String) : String := Sha256.hexDigest (asBytes text)

def sourceLocator (plan : MigrationPlan) (path : PathBuf) (suffix : Option String) : String :=
  let located := match strippedPath plan.roots.configRoot path with
    | some relative => "config/" ++ relativeText relative
    | none => match strippedPath plan.roots.dataRoot path with
      | some relative => "data/" ++ relativeText relative
      | none =>
        if plan.roots.opencodeAuth = some path then "opencode-auth/auth"
        else "external//" ++ relativeText path
  match suffix with
  | some suffix => located ++ "#" ++ suffix
  | none => located

def fileNotice (source : LegacySource) (plan : MigrationPlan) (kind : String) (path : PathBuf)
    (status : ImportStatus) (detail : String) (secretMaterialSkipped : Bool) :
    ImportItemReport where
  id := hashText
    ("notice\x00" ++ kind ++ "\x00" ++ sourceLocator plan path none ++ "\x00" ++ detail)
  kind := kind
  sourceLocator := sourceLocator plan path none
  sourceModifiedAt := source.modifiedAt path
  contentSha256 := none
  destination := none
  status := status
  enabled := false
  bytes := 0
  detail := detail
  secretMaterialSkipped := secretMaterialSkipped

def notice (source : LegacySource) (plan : MigrationPlan) (input : DiscoveredInput)
    (status : ImportStatus) (detail : String) (secretMaterialSkipped : Bool) : ImportItemReport :=
  fileNotice source plan input.kind input.path status detail secretMaterialSkipped

variable [JsonBytes]

/-- The record of a payload.  Its id depends on the kind, the place in the source and the
content. -/
def makeRecord (source : LegacySource) (plan : MigrationPlan) (kind : String)
    (sourcePath : PathBuf) (suffix : Option String) (destination : String)
    (enabled containsPersonalData : Bool) (payload : List UInt8) :
    Except MigrationError PreparedRecord :=
  if LegacySource.maxFileBytes < payload.length then .error .fileTooLarge
  else
    let locator := sourceLocator plan sourcePath suffix
    let contentSha256 := Sha256.hexDigest payload
    .ok {
      id := hashText ("personal-agent-migration-record-v1\x00" ++ kind ++ "\x00" ++ locator ++
        "\x00" ++ contentSha256)
      kind := kind
      sourceLocator := locator
      sourceModifiedAt := source.modifiedAt sourcePath
      contentSha256 := contentSha256
      destination := destination
      enabled := enabled
      containsPersonalData := containsPersonalData
      payload := (JsonBytes.fromSlice payload).toOption
      payloadLength := payload.length
      payloadBytes := payload }

end

end PersonalAgent.Migration
