/-
# Preparing the inputs of a profile

`discover_profile`, `prepare_input` and its ten preparers, lines 356 to 1253 of
`crates/migration/src/lib.rs`.  All of them are functions of the source, so the inputs of a run
(`preparedInputs`) are the same each time the source is the same.
-/

import PersonalAgent.Audio.Dictation
import PersonalAgent.Lib.Lines
import PersonalAgent.Migration.Source

namespace PersonalAgent.Migration

open LegacySource (maxFileBytes)

def maxDiscoveredFiles : ℕ := 100000

def maxHistoryLineBytes : ℕ := 1048576

def maxExtensionFiles : ℕ := 256

def joinBatches (batches : List PreparedBatch) : PreparedBatch where
  records := batches.flatMap (·.records)
  notices := batches.flatMap (·.notices)

/-! ### File names -/

/-- `Path::file_name`, in lower case where it is compared so. -/
def fileName (path : PathBuf) : String := path.getLast?.getD ""

/-- A file name before and after its last dot; a name with no other dot than its first character
has no extension. -/
def splitName (name : String) : String × Option String :=
  let after := name.toList.reverse.takeWhile (· ≠ '.')
  let before := name.toList.reverse.dropWhile (· ≠ '.')
  if name = ".." then (name, none)
  else match before with
    | [] => (name, none)
    | [_] => (name, none)
    | _ :: stem => (String.ofList stem.reverse, some (String.ofList after.reverse))

def fileStem (path : PathBuf) : String := (splitName (fileName path)).1

def extension (path : PathBuf) : Option String := (splitName (fileName path)).2

section

variable [Sha256] [JsonBytes] [Toml]

/-! ### Discovery -/

structure PathStats where
  bytes : ℕ
  entries : ℕ
  modifiedAt : Option String

/-- The order of `Option<String>`. -/
def newer : Option String → Option String → Bool
  | none, _ => false
  | some _, none => true
  | some candidate, some newest => newest < candidate

/-- The path goes on below a file, which the system does not report as a missing one. -/
def belowFile (source : LegacySource) (path : PathBuf) : Bool :=
  path.inits.any fun above =>
    (source.nodes[above]?.map Node.metadata).any (·.fileType ∈ [.file, .other])

/-- What stands at a path, if it is a file or a directory. -/
def inspectPath (source : LegacySource) (path : PathBuf) :
    Except MigrationError (Option PathStats) :=
  match source.nodes[path]? with
  | none => if belowFile source path then .error .io else .ok none
  | some node =>
    match node.metadata.fileType with
    | .symlink | .other => .ok none
    | .file => .ok (some ⟨node.metadata.len, 1, node.metadata.modifiedAt⟩)
    | .directory => do
      let files ← source.regularFiles path maxDiscoveredFiles
      let children ← files.mapM source.symlinkMetadata
      let stats := children.foldl (fun (stats : PathStats) child =>
        { stats with
          bytes := Core.satAdd stats.bytes child.len
          modifiedAt :=
            if newer child.modifiedAt stats.modifiedAt then child.modifiedAt
            else stats.modifiedAt }) ⟨0, files.length, none⟩
      return some stats

/-- What discovery looks for: the kind, the path below its root, whether it may hold secrets and
what is done with it. -/
structure Candidate where
  kind : String
  relative : PathBuf
  secrets : Bool
  action : PlannedAction

def configCandidates : List Candidate :=
  [⟨"config", ["config.toml"], true, .convert⟩,
    ⟨"environment", ["env"], true, .skipSecretBearing⟩,
    ⟨"schedules", ["schedule.toml"], false, .convert⟩,
    ⟨"skills", ["skills"], false, .quarantineDisabled⟩,
    ⟨"skills", [".opencode", "skills"], false, .quarantineDisabled⟩,
    ⟨"skills", [".claude", "skills"], false, .quarantineDisabled⟩,
    ⟨"skills", [".agents", "skills"], false, .quarantineDisabled⟩,
    ⟨"experts", ["experts"], false, .quarantineDisabled⟩,
    ⟨"experts", [".opencode", "agent"], false, .quarantineDisabled⟩,
    ⟨"experts", [".claude", "agents"], false, .quarantineDisabled⟩,
    ⟨"experts", [".agents", "experts"], false, .quarantineDisabled⟩,
    ⟨"themes", ["themes"], false, .quarantineDisabled⟩,
    ⟨"mcp", ["mcp.json"], true, .metadataOnly⟩]

def dataCandidates : List Candidate :=
  [⟨"state", ["state.json"], false, .convert⟩,
    ⟨"history", ["history"], false, .importData⟩,
    ⟨"history", ["history.jsonl"], false, .importData⟩,
    ⟨"memory", ["memory"], false, .importData⟩,
    ⟨"traces", ["traces"], true, .skipSecretBearing⟩,
    ⟨"projects", ["projects.json"], false, .convert⟩,
    ⟨"remote-devices", ["devices.json"], true, .metadataOnly⟩]

/-- The inputs found so far, and the paths looked at. -/
structure Discovery where
  inputs : List DiscoveredInput := []
  seen : List PathBuf := []

def pushCandidate (source : LegacySource) (d : Discovery) (kind : String) (path : PathBuf)
    (secrets : Bool) (action : PlannedAction) : Except MigrationError Discovery :=
  if path ∈ d.seen then .ok d
  else do
    let seen := d.seen ++ [path]
    match ← inspectPath source path with
    | none => return { d with seen }
    | some stats =>
      let input : DiscoveredInput := {
        kind, path
        bytes := stats.bytes
        entries := stats.entries
        containsPossibleSecrets := secrets
        action
        modifiedAt := stats.modifiedAt }
      return { inputs := d.inputs ++ [input], seen }

/-- The auth file, if there is a root for it. -/
def pushAuth (source : LegacySource) (roots : LegacyRoots) (d : Discovery) :
    Except MigrationError Discovery :=
  match roots.opencodeAuth with
  | some auth => pushCandidate source d "opencode-auth" auth true .skipSecretBearing
  | none => .ok d

/-- `u64::to_le_bytes`. -/
def toLeBytes (n : ℕ) : List UInt8 := (List.range 8).map fun i => UInt8.ofNat (n / 256 ^ i)

def planFingerprint (roots : LegacyRoots) (inputs : List DiscoveredInput) : String :=
  Sha256.hexDigest (asBytes "personal-agent-migration-plan-v1\x00" ++
    asBytes ("/" ++ relativeText roots.configRoot) ++ [0] ++
    asBytes ("/" ++ relativeText roots.dataRoot) ++
    inputs.flatMap fun input =>
      [0] ++ asBytes input.kind ++ [0] ++ asBytes ("/" ++ relativeText input.path) ++
        toLeBytes input.bytes ++ toLeBytes input.entries ++ asBytes (input.modifiedAt.getD ""))

def isDirectory (source : LegacySource) (path : PathBuf) : Bool :=
  (source.nodes[path]?).any (·.metadata.fileType = .directory)

/-- Discover configuration and data roots without opening personal payloads. -/
def discoverProfile (source : LegacySource) (roots : LegacyRoots) :
    Except MigrationError MigrationPlan :=
  if !isDirectory source roots.configRoot || !isDirectory source roots.dataRoot then
    .error .invalidSource
  else do
    let d ← configCandidates.foldlM (fun d c =>
      pushCandidate source d c.kind (roots.configRoot ++ c.relative) c.secrets c.action) {}
    let d ← dataCandidates.foldlM (fun d c =>
      pushCandidate source d c.kind (roots.dataRoot ++ c.relative) c.secrets c.action) d
    let d ← pushAuth source roots d
    let inputs := d.inputs.insertionSort fun a b =>
      a.kind < b.kind ∨ (a.kind = b.kind ∧ (compare a.path b.path).isLE)
    return { roots, sourceFingerprint := planFingerprint roots inputs, inputs }

/-! ### Preparers -/

variable (source : LegacySource) (plan : MigrationPlan) (input : DiscoveredInput)

def skippedSecret (detail : String) : PreparedBatch where
  notices := [notice source plan input .skipped detail true]

def invalidBatch (detail : String) : PreparedBatch where
  notices := [notice source plan input .invalid detail false]

def singleRecordBatch (record : PreparedRecord) : PreparedBatch where
  records := [record]

/-- The fields of a configuration that are kept. -/
def mappedConfig (parsed : TomlValue) : Value :=
  let persona := parsed.get "persona"
  let projects := (((parsed.get "integrations").bind (·.get "projects")).bind
    TomlValue.asArray).getD []
  .object [
    ("mapping_version", .u64 1),
    ("source", .ofStr "jarvis-config-v1"),
    ("persona", .object [
      ("name", .ofStr (((persona.bind (·.get "name")).bind TomlValue.asStr).getD "JARVIS")),
      ("style", .ofOption .ofStr ((persona.bind (·.get "style")).bind TomlValue.asStr))]),
    ("privacy", .object [
      ("record_transcripts", .bool ((((parsed.get "history").bind (·.get "enabled")).bind
        TomlValue.asBool).getD true)),
      ("record_tool_arguments", .bool ((((parsed.get "trace").bind (·.get "record_arguments")).bind
        TomlValue.asBool).getD false))]),
    ("projects", .array ((projects.filterMap TomlValue.asStr).map .ofStr)),
    ("secret_values_imported", .bool false)]

def prepareConfig : Except MigrationError PreparedBatch := do
  let bytes ← source.readLimited input.path
  match Toml.fromStr (fromUtf8Lossy bytes) with
  | none =>
    return invalidBatch source plan input
      "configuration is invalid TOML; parser excerpts are omitted from the content-free report"
  | some parsed =>
    let record ← makeRecord source plan "settings" input.path none "settings/legacy-v1" false true
      (JsonBytes.toVec (mappedConfig parsed))
    let omitted := notice source plan input .skipped
      "secret-bearing configuration fields omitted" true
    return {
      records := [record]
      notices := [{ omitted with
        detail := "only persona, history privacy, trace privacy, and registered project paths " ++
          "use the explicit v1 mapping; all credential-like and unknown fields were omitted"
        secretMaterialSkipped := true }] }

def stateKeys : List String :=
  ["muted", "asleep", "asleep_since", "guest", "guest_since", "quiet_until", "project", "expert"]

/-- The fields of a conversation state that are kept. -/
def mappedState (parsed : Value) : Value :=
  .object ((stateKeys.filterMap fun key => (parsed.get key).map fun value => (key, value)) ++
    [("mapping_version", .u64 1), ("legacy_sessions_resumed", .bool false)])

def prepareState : Except MigrationError PreparedBatch := do
  let bytes ← source.readLimited input.path
  match JsonBytes.fromSlice bytes with
  | .error error => return invalidBatch source plan input ("state is invalid JSON: " ++ error)
  | .ok parsed =>
    let record ← makeRecord source plan "conversation-state" input.path none
      "settings/legacy-conversation-state" false true (JsonBytes.toVec (mappedState parsed))
    return singleRecordBatch record

/-- The event in a line of history, if it holds one. -/
def historyPayload (line : List UInt8) : Option Value := do
  guard (line.length ≤ maxHistoryLineBytes)
  let raw ← (JsonBytes.fromSlice line).toOption
  let text ← raw.strAt "text"
  let role ← raw.strAt "role"
  guard (role.spelling ∈ ["user", "assistant", "note"])
  return .object [
    ("schema_version", .u64 1),
    ("origin", .ofStr "legacy-jarvis"),
    ("role", .string role),
    ("text", .string text),
    ("timestamp", .ofOption id (raw.get "ts")),
    ("context", .ofOption id (raw.get "context")),
    ("source", .ofOption id (raw.get "source")),
    ("turn", .ofOption id (raw.get "turn"))]

/-- The lines of a file that are not empty, with their numbers. -/
def numberedLines (bytes : List UInt8) : List (List UInt8 × ℕ) :=
  ((bytes.splitOn 10).zipIdx 1).filter (·.1 ≠ [])

def prepareHistoryFile (path : PathBuf) : Except MigrationError PreparedBatch := do
  let bytes ← source.readLimited path
  let events := (numberedLines bytes).map fun (line, number) => (historyPayload line, number)
  let records ← (events.filterMap fun (payload, number) => payload.map (·, number)).mapM
    fun (payload, number) => makeRecord source plan "history-event" path
      (some ("line " ++ toString number)) "events/legacy-history" true true
      (JsonBytes.toVec payload)
  let invalid := events.countP (·.1.isNone)
  return {
    records
    notices :=
      if 0 < invalid then [fileNotice source plan "history" path .invalid
        (toString invalid ++ " malformed or unsupported JSONL entries skipped") false]
      else [] }

def prepareHistory : Except MigrationError PreparedBatch := do
  let files ← source.regularFiles input.path maxDiscoveredFiles
  let batches ← (files.filter (extension · = some "jsonl")).mapM (prepareHistoryFile source plan)
  return joinBatches batches

/-- A file that is copied as it is. -/
def copiedFile (kind : String) (path : PathBuf) (destination : String)
    (enabled containsPersonalData : Bool) : Except MigrationError PreparedRecord := do
  let bytes ← source.readLimited path
  makeRecord source plan kind path none destination enabled containsPersonalData bytes

/-- The text of a path below another one. -/
def pathBelow (root path : PathBuf) : String :=
  match strippedPath root path with
  | some relative => relativeText relative
  | none => "/" ++ relativeText path

def prepareMemory : Except MigrationError PreparedBatch := do
  let files ← source.regularFiles input.path maxDiscoveredFiles
  let notes := files.filter fun path => (extension path).map Core.toAsciiLowercase = some "md"
  let records ← notes.mapM fun path => copiedFile source plan "memory" path
    ("memories/legacy/" ++ pathBelow input.path path) true true
  return { records }

/-- A task of a schedule, or what is wrong with it. -/
def taskPayload (task : TomlValue) : Except String Value :=
  if !task.isTable then .error " is not a table"
  else
    let deliver := ((task.get "deliver").bind TomlValue.asStr).getD "notify"
    match (task.get "name").bind TomlValue.asStr, (task.get "cron").bind TomlValue.asStr,
      (task.get "prompt").bind TomlValue.asStr with
    | some name, some cron, some prompt =>
      if deliver ∉ ["speak", "notify", "silent"] then .error " has unsupported delivery mode"
      else .ok (.object [
        ("mapping_version", .u64 1),
        ("name", .ofStr name),
        ("cron", .ofStr cron),
        ("prompt", .ofStr prompt),
        ("deliver", .ofStr deliver),
        ("enabled", .bool false)])
    | _, _, _ => .error " is missing name, cron, or prompt"

def prepareTask (task : TomlValue) (number : ℕ) :
    Except MigrationError PreparedBatch :=
  match taskPayload task with
  | .error problem => .ok {
      notices := [fileNotice source plan "automation" input.path .invalid
        ("task " ++ toString number ++ problem) false] }
  | .ok payload => do
    let record ← makeRecord source plan "automation" input.path
      (some ("task " ++ toString number)) "automations/legacy" false true
      (JsonBytes.toVec payload)
    return singleRecordBatch record

def prepareSchedule : Except MigrationError PreparedBatch := do
  let bytes ← source.readLimited input.path
  match Toml.fromStr (fromUtf8Lossy bytes) with
  | none =>
    return invalidBatch source plan input
      "schedule is invalid TOML; parser excerpts are omitted from the content-free report"
  | some parsed =>
    match (parsed.get "task").bind TomlValue.asArray with
    | none => return invalidBatch source plan input "schedule has no [[task]] entries"
    | some tasks =>
      let batches ← (tasks.zipIdx 1).mapM fun (task, number) =>
        prepareTask source plan input task number
      return joinBatches batches

def isManifest (kind : String) (path : PathBuf) : Bool :=
  let name := Core.toAsciiLowercase (fileName path)
  if kind = "skills" then name = "skill.md"
  else name = "expert.md" ||
    ((splitName name).2 = some "md" && name ≠ "readme.md" && name ≠ "skill.md")

def validExtensionName (name : String) : Bool :=
  name.toList.head? ≠ some '-' && name.toList.getLast? ≠ some '-' &&
    !Core.containsText name "--" &&
    name.toList.all fun c => ('a' ≤ c && c ≤ 'z') || ('0' ≤ c && c ≤ '9') || c = '-'

/-- A field of the head of a manifest: the text before the first colon and the trimmed text
behind it. -/
def headField (line : String) : Option (String × String) :=
  match line.toList.span (· ≠ ':') with
  | (_, []) => none
  | (key, _ :: value) => some (Core.trim (String.ofList key),
      Audio.trimMatches (fun c => c = '\x27' || c = '"') (Core.trim (String.ofList value)))

/-- The value of a field, given last. -/
def lastField (head : List String) (key : String) : String :=
  ((head.filterMap headField).filter (·.1 = key)).getLast?.elim "" Prod.snd

/-- The name in a manifest that is well formed and stands where its name says. -/
def validateExtensionManifest (kind : String) (path : PathBuf) (text : String) : Option String :=
  let lines := (Lib.lines text).tail
  let head := lines.takeWhile fun line => Core.trim line ∉ ["---", "..."]
  let body := "".intercalate ((lines.drop (head.length + 1)).map (· ++ "\n"))
  let name := lastField head "name"
  let description := lastField head "description"
  if maxFileBytes < text.utf8ByteSize || !("---".toList.isPrefixOf text.toList) then none
  else if head.length = lines.length || name = "" || description = "" ||
      1024 < description.utf8ByteSize || Core.trim body = "" || 64 < name.utf8ByteSize ||
      !validExtensionName name then none
  else if Core.toAsciiLowercase (fileName path) ∈ ["skill.md", "expert.md"] then
    if path.dropLast.getLast? = some name then some name else none
  else if kind = "experts" && fileStem path ≠ name then none
  else some name

/-- The files of a bundle and what they are called in it: those below the folder of the manifest,
or the manifest alone. -/
def bundleFiles (manifest : PathBuf) : Except MigrationError (List (PathBuf × String)) :=
  if Core.toAsciiLowercase (fileName manifest) ∈ ["skill.md", "expert.md"] then do
    let files ← source.regularFiles manifest.dropLast maxExtensionFiles
    return files.map fun path => (path, pathBelow manifest.dropLast path)
  else .ok [(manifest, fileName manifest)]

def prepareManifest (manifest : PathBuf) :
    Except MigrationError PreparedBatch := do
  let bytes ← source.readLimited manifest
  match validateExtensionManifest input.kind manifest (fromUtf8Lossy bytes) with
  | none => return {
      notices := [fileNotice source plan input.kind manifest .invalid
        "manifest failed conservative name, description, body, or folder validation" false] }
  | some name =>
    let files ← bundleFiles source manifest
    let kind := String.ofList (input.kind.toList.rdropWhile (· = 's')) ++ "-file"
    let records ← files.mapM fun (path, relative) =>
      copiedFile source plan kind path
        ("extensions/quarantine/" ++ input.kind ++ "/" ++ name ++ "/" ++ relative) false true
    return { records }

def prepareExtensions : Except MigrationError PreparedBatch := do
  let files ← source.regularFiles input.path maxDiscoveredFiles
  let batches ← (files.filter (isManifest input.kind)).mapM (prepareManifest source plan input)
  return joinBatches batches

def prepareThemes : Except MigrationError PreparedBatch := do
  let files ← source.regularFiles input.path maxExtensionFiles
  let records ← files.mapM fun path => copiedFile source plan "theme" path
    ("themes/quarantine/" ++ pathBelow input.path path) false false
  return { records }

/-- The names of the servers: the keys of the section, or of the whole document if there is no
section that is an object. -/
def serverNames (parsed : Value) : List String :=
  let servers := ((parsed.get "mcpServers").or (parsed.get "mcp")).bind Value.asObject
  let fields := (servers.or parsed.asObject).getD []
  (Std.ExtTreeSet.ofList (fields.map Prod.fst) compare).toList

def prepareMcpMetadata : Except MigrationError PreparedBatch := do
  let bytes ← source.readLimited input.path
  match JsonBytes.fromSlice bytes with
  | .error error =>
    return invalidBatch source plan input ("MCP configuration is invalid JSON: " ++ error)
  | .ok parsed =>
    let record ← makeRecord source plan "connector-metadata" input.path none
      "connectors/legacy-mcp" false false (JsonBytes.toVec (.object [
        ("mapping_version", .u64 1),
        ("server_names", .array ((serverNames parsed).map .ofStr)),
        ("enabled", .bool false),
        ("arguments_imported", .bool false),
        ("environment_imported", .bool false),
        ("headers_imported", .bool false)]))
    return {
      records := [record]
      notices := [notice source plan input .skipped
        "MCP arguments, environment, URLs, headers, and auth were omitted" true] }

def jsonStringValues : Value → List Text
  | .array values => values.filterMap Value.asStr
  | .object fields => fields.filterMap fun (_, value) => value.asStr.or (value.strAt "path")
  | _ => []

def prepareProjects : Except MigrationError PreparedBatch := do
  let bytes ← source.readLimited input.path
  match JsonBytes.fromSlice bytes with
  | .error error =>
    return invalidBatch source plan input ("project registry is invalid JSON: " ++ error)
  | .ok parsed =>
    let record ← makeRecord source plan "projects" input.path none "settings/legacy-projects"
      false true (JsonBytes.toVec (.object [
        ("mapping_version", .u64 1),
        ("paths", .array ((jsonStringValues parsed).map .string)),
        ("verified", .bool false)]))
    return singleRecordBatch record

/-- The name and the platform of a device. -/
structure Device where
  name : Option Text
  platform : Option Text
  deriving DecidableEq, Repr

def Device.toJson (device : Device) : Value :=
  .object [("name", .ofOption .string device.name),
    ("platform", .ofOption .string device.platform)]

mutual

/-- The devices in a document: its arrays are searched, an object with a name or a platform is a
device, and in any other object the values that are objects are, named by their keys if they have
no name. -/
def collectDeviceMetadata : Value → List Device
  | .array values => collectDevices values
  | .object fields =>
    if (fields.lookup "name").isSome || (fields.lookup "platform").isSome then
      [⟨(Value.object fields).strAt "name", (Value.object fields).strAt "platform"⟩]
    else fields.filterMap fun (name, value) => value.asObject.map fun child =>
      ⟨some (((Value.object child).strAt "name").getD (.plain name)),
        (Value.object child).strAt "platform"⟩
  | _ => []

/-- The devices in the items of an array. -/
def collectDevices : List Value → List Device
  | [] => []
  | value :: values => collectDeviceMetadata value ++ collectDevices values

end

def prepareRemoteMetadata : Except MigrationError PreparedBatch := do
  let bytes ← source.readLimited input.path
  match JsonBytes.fromSlice bytes with
  | .error error =>
    return invalidBatch source plan input ("device registry is invalid JSON: " ++ error)
  | .ok parsed =>
    let record ← makeRecord source plan "remote-device-metadata" input.path none
      "settings/legacy-remote-devices" false false (JsonBytes.toVec (.object [
        ("mapping_version", .u64 1),
        ("devices", .array ((collectDeviceMetadata parsed).map Device.toJson)),
        ("pairing_keys_imported", .bool false),
        ("repair_required", .bool true)]))
    return {
      records := [record]
      notices := [notice source plan input .skipped
        ("cryptographic pairing material and remote grants were omitted; " ++
          "every device must pair again") true] }

def prepareInput (consent : MigrationConsent) (input : DiscoveredInput) :
    Except MigrationError PreparedBatch :=
  match input.kind with
  | "config" => prepareConfig source plan input
  | "state" => prepareState source plan input
  | "history" => prepareHistory source plan input
  | "memory" => prepareMemory source plan input
  | "schedules" => prepareSchedule source plan input
  | "skills" | "experts" => prepareExtensions source plan input
  | "themes" => prepareThemes source plan input
  | "mcp" => prepareMcpMetadata source plan input
  | "projects" => prepareProjects source plan input
  | "remote-devices" => prepareRemoteMetadata source plan input
  | "opencode-auth" => .ok (skippedSecret source plan input
      (if consent.adoptOpencodeAuth then
        "OpenCode auth adoption requires the interactive OS-keychain flow; " ++
          "no plaintext auth was copied"
      else "OpenCode auth was not adopted because separate consent was absent"))
  | "environment" => .ok (skippedSecret source plan input
      "legacy environment files may contain provider credentials and are never copied")
  | "traces" => .ok (skippedSecret source plan input
      ("legacy traces may contain prompts, tool arguments, results, and credentials and are " ++
        "never copied"))
  | _ => .ok { notices := [notice source plan input .skipped "unrecognized legacy input" false] }

def preparedInputs (consent : MigrationConsent) : Prepared :=
  plan.inputs.map (prepareInput source plan consent)

variable {σ ε : Type}

/-- Execute a reviewed plan on a source. -/
def migrateSource (sink : MigrationSink σ ε) (s : σ) (consent : MigrationConsent)
    (runId : String) : σ × Except (MigrationRunError ε) MigrationReport :=
  migrate sink s (preparedInputs source plan consent) consent runId plan.sourceFingerprint

end

end PersonalAgent.Migration
