/-
# What of a profile crosses the boundary

Two profiles with the same names, sizes and times, equal but for their secrets
(`SameButSecrets`): whatever the environment, the traces and the auth file hold, whatever else
the configuration says, and whatever the server and the device registry hold beside the names of
servers, and the names and platforms of devices (`SameServers`, `SameDevices`).  As long as no
secret file lies in a folder that is imported (`Apart`), a migration cannot tell them apart
(`secrets_stay`).

The importer takes more for names than names (`secrets_cross`): a section that is missing or
is no object makes it take the keys of the whole registry for server names, a device without a
name gets the key it is filed under, and a registry that does not parse is reported with the
place where it stops to.
-/

import PersonalAgent.Lib.Except
import PersonalAgent.Migration.Prepare

namespace PersonalAgent.Migration

open Lib List Std.ExtTreeMap LegacySource

/-! ### Registries that differ in their secrets -/

/-- Both are objects with the same keys, or neither is an object. -/
def SameKeys (v w : Value) : Prop :=
  v.asObject.map (·.map Prod.fst) = w.asObject.map (·.map Prod.fst)

/-- The section of the servers in a registry. -/
def serverSection (v : Value) : Option Value := (v.get "mcpServers").or (v.get "mcp")

/-- Server registries with the same names and anything else: their sections have the same keys,
and so have the documents where the section is missing or no object. -/
structure SameServers (v w : Value) : Prop where
  sections : Option.Rel SameKeys (serverSection v) (serverSection w)
  documents : (serverSection v).bind Value.asObject = none → SameKeys v w

theorem serverNames_congr {v w : Value} (h : SameServers v w) : serverNames v = serverNames w := by
  have hkeys : (((serverSection v).bind Value.asObject).or v.asObject).map (·.map Prod.fst) =
      (((serverSection w).bind Value.asObject).or w.asObject).map (·.map Prod.fst) := by
    obtain ⟨hsections, hdocuments⟩ := h
    generalize serverSection v = s, serverSection w = s' at hsections hdocuments
    cases hsections with
    | none => exact hdocuments rfl
    | some hsame =>
      rename_i a b
      rw [Option.bind_some] at hdocuments
      rw [Option.bind_some, Option.bind_some]
      unfold SameKeys at hsame
      cases ha : a.asObject with
      | none =>
        rw [ha, Option.map_none, eq_comm, Option.map_eq_none_iff] at hsame
        rw [hsame]
        exact hdocuments ha
      | some fields =>
        rw [ha, Option.map_some, eq_comm] at hsame
        obtain ⟨fields', hb, hnames⟩ := Option.map_eq_some_iff.mp hsame
        rw [hb, Option.some_or, Option.some_or, Option.map_some, Option.map_some, hnames]
  have hlist (o : Option (List (String × Value))) :
      (o.getD []).map Prod.fst = (o.map (·.map Prod.fst)).getD [] := by
    cases o <;> rfl
  change (Std.ExtTreeSet.ofList (((((serverSection v).bind Value.asObject).or
    v.asObject).getD []).map Prod.fst) compare).toList = (Std.ExtTreeSet.ofList
    (((((serverSection w).bind Value.asObject).or w.asObject).getD []).map Prod.fst)
      compare).toList
  rw [hlist, hlist, hkeys]

/-- Devices with the same name and platform, and anything else. -/
def SameDevice (fields fields' : List (String × Value)) : Prop :=
  fields.lookup "name" = fields'.lookup "name" ∧
    fields.lookup "platform" = fields'.lookup "platform"

/-- The fields of an object that are objects. -/
def objectFields (fields : List (String × Value)) : List (String × List (String × Value)) :=
  fields.filterMap fun field => field.2.asObject.map (field.1, ·)

/-- No array and no object. -/
def isLeaf : Value → Bool
  | .array _ | .object _ => false
  | _ => true

/-- Device registries of one shape whose devices have the same names and platforms, and, where
devices are filed under keys, the same keys. -/
inductive SameDevices : Value → Value → Prop
  | array {values values' : List Value} (hlength : values.length = values'.length)
      (hitems : ∀ (i : ℕ) v w, values[i]? = some v → values'[i]? = some w → SameDevices v w) :
      SameDevices (.array values) (.array values')
  | object {fields fields' : List (String × Value)} (hdevice : SameDevice fields fields')
      (hfiled : fields.lookup "name" = none → fields.lookup "platform" = none →
        Forall₂ (fun a b => a.1 = b.1 ∧ SameDevice a.2 b.2) (objectFields fields)
          (objectFields fields')) :
      SameDevices (.object fields) (.object fields')
  | leaf {v w : Value} (hv : isLeaf v = true) (hw : isLeaf w = true) : SameDevices v w

theorem collectDeviceMetadata_congr {v w : Value} (h : SameDevices v w) :
    collectDeviceMetadata v = collectDeviceMetadata w := by
  have hleaf {v : Value} (hv : isLeaf v = true) : collectDeviceMetadata v = [] := by
    cases v with
    | array values | object fields => cases hv
    | _ => rfl
  have harray (values : List Value) : collectDevices values =
      (values.map collectDeviceMetadata).flatten := by
    induction values with
    | nil => rfl
    | cons value values ih => rw [collectDevices, ih, map_cons, flatten_cons]
  induction h with
  | leaf hv hw => rw [hleaf hv, hleaf hw]
  | array hlength hitems ih =>
    rename_i values values'
    rw [collectDeviceMetadata, collectDeviceMetadata, harray, harray]
    refine congrArg flatten (ext_getElem (by simpa using hlength) fun i hi hi' => ?_)
    rw [length_map] at hi hi'
    simpa using ih i values[i] values'[i] (getElem?_eq_getElem hi) (getElem?_eq_getElem hi')
  | object hdevice hfiled =>
    rename_i fields fields'
    obtain ⟨hname, hplatform⟩ := hdevice
    rw [collectDeviceMetadata, collectDeviceMetadata]
    unfold Value.strAt Value.get
    dsimp only
    rw [hname, hplatform]
    split_ifs with hnamed
    · rfl
    · rw [Bool.or_eq_true, not_or, Option.not_isSome_iff_eq_none,
        Option.not_isSome_iff_eq_none] at hnamed
      have hsame := hfiled (hname.trans hnamed.1) (hplatform.trans hnamed.2)
      let device (field : String × List (String × Value)) : Device :=
        ⟨some (((field.2.lookup "name").bind Value.asStr).getD (.plain field.1)),
          (field.2.lookup "platform").bind Value.asStr⟩
      have hdevices : (objectFields fields).map device = (objectFields fields').map device := by
        rw [← forall₂_eq_eq_eq, forall₂_map_left_iff, forall₂_map_right_iff]
        exact hsame.imp fun a b hab => by simp only [device, hab.1, hab.2.1, hab.2.2]
      simpa [objectFields, map_filterMap, device, Function.comp_def] using hdevices

/-! ### Equal metadata -/

/-- The same names, sizes and times. -/
def SameMetadata (p q : LegacySource) : Prop :=
  ∀ path : PathBuf, p.nodes[path]?.map Node.metadata = q.nodes[path]?.map Node.metadata

namespace LegacySource

variable {p q : LegacySource}

theorem symlinkMetadata_eq (source : LegacySource) (path : PathBuf) :
    source.symlinkMetadata path =
      (source.nodes[path]?.map Node.metadata).elim (.error .io) .ok := by
  unfold symlinkMetadata
  cases source.nodes[path]? <;> rfl

theorem symlinkMetadata_congr (h : SameMetadata p q) (path : PathBuf) :
    p.symlinkMetadata path = q.symlinkMetadata path := by
  rw [symlinkMetadata_eq, symlinkMetadata_eq, h path]

theorem modifiedAt_congr (h : SameMetadata p q) (path : PathBuf) :
    p.modifiedAt path = q.modifiedAt path := by
  have heq (source : LegacySource) : source.modifiedAt path =
      (source.nodes[path]?.map Node.metadata).bind (·.modifiedAt) := by
    unfold modifiedAt
    cases source.nodes[path]? <;> rfl
  rw [heq, heq, h path]

theorem filesBelow_eq (source : LegacySource) (root : PathBuf) :
    source.filesBelow root = source.nodes.keys.filter fun path =>
      root <+: path ∧ (source.nodes[path]?.map Node.metadata).any (·.fileType = .file) := by
  unfold filesBelow
  rw [← map_fst_toList_eq_keys, filter_map]
  refine congrArg _ (filter_congr fun entry hentry => ?_)
  have hread := mem_toList_iff_getElem?_eq_some.mp hentry
  simp only [Function.comp_apply, hread, Option.map_some, Option.any_some, decide_eq_true_eq]

theorem filesBelow_congr (h : SameMetadata p q) (root : PathBuf) :
    p.filesBelow root = q.filesBelow root := by
  have hkeys : p.nodes.keys = q.nodes.keys := keys_eq_of_mem_iff fun path => by
    rw [mem_iff_isSome_getElem?, mem_iff_isSome_getElem?,
      ← Option.isSome_map (f := Node.metadata), h path, Option.isSome_map]
  rw [filesBelow_eq, filesBelow_eq, hkeys]
  refine filter_congr fun path _ => ?_
  rw [h path]

theorem regularFiles_congr (h : SameMetadata p q) (root : PathBuf) (limit : ℕ) :
    p.regularFiles root limit = q.regularFiles root limit := by
  unfold regularFiles
  rw [symlinkMetadata_congr h, filesBelow_congr h]

theorem prefix_of_mem_regularFiles {source : LegacySource} {root : PathBuf} {limit : ℕ}
    {files : List PathBuf} (h : source.regularFiles root limit = .ok files) {path : PathBuf}
    (hpath : path ∈ files) : root <+: path := by
  obtain ⟨metadata, -, h⟩ := bind_ok_iff.mp h
  split at h
  · obtain rfl := Except.ok.inj h
    exact (nomatch hpath)
  · obtain rfl := Except.ok.inj h
    exact mem_singleton.mp hpath ▸ prefix_rfl
  · exact (nomatch h)
  · dsimp only at h
    split_ifs at h
    obtain rfl := Except.ok.inj h
    obtain ⟨entry, hentry, rfl⟩ := mem_map.mp hpath
    have hbelow := (mem_filter.mp hentry).2
    exact (of_decide_eq_true hbelow).1

theorem readLimited_congr {path : PathBuf} (h : p.nodes[path]? = q.nodes[path]?) :
    p.readLimited path = q.readLimited path := by
  unfold readLimited
  rw [h]

end LegacySource

/-! ### Discovery looks at metadata alone -/

section

variable {p q : LegacySource}

theorem inspectPath_congr (h : SameMetadata p q) (path : PathBuf) :
    inspectPath p path = inspectPath q path := by
  have hpath := h path
  unfold inspectPath
  cases hp : p.nodes[path]? with
  | none =>
    rw [hp, Option.map_none, eq_comm, Option.map_eq_none_iff] at hpath
    have hbelow : belowFile p path = belowFile q path := by simp only [belowFile, h _]
    simp only [hpath, hbelow]
  | some node =>
    rw [hp, Option.map_some, eq_comm] at hpath
    obtain ⟨node', hq, hmetadata⟩ := Option.map_eq_some_iff.mp hpath
    have hchildren : p.symlinkMetadata = q.symlinkMetadata :=
      funext (symlinkMetadata_congr h)
    simp only [hq, hmetadata, regularFiles_congr h, hchildren]

theorem isDirectory_congr (h : SameMetadata p q) (path : PathBuf) :
    isDirectory p path = isDirectory q path := by
  have heq (source : LegacySource) : isDirectory source path =
      (source.nodes[path]?.map Node.metadata).any (·.fileType = .directory) := by
    unfold isDirectory
    cases source.nodes[path]? <;> rfl
  rw [heq, heq, h path]

theorem pushCandidate_congr (h : SameMetadata p q) : pushCandidate p = pushCandidate q := by
  funext d kind path secrets action
  unfold pushCandidate
  rw [inspectPath_congr h]

/-- A loop over some of the files below a path. -/
theorem mapM_files_congr {α β : Type} (h : SameMetadata p q) {root : PathBuf} {limit : ℕ}
    {keep : PathBuf → Bool} {f g : PathBuf → Except MigrationError α}
    {k : List α → Except MigrationError β}
    (hfg : ∀ path, root <+: path → keep path = true → f path = g path) :
    (p.regularFiles root limit >>= fun files => (files.filter keep).mapM f >>= k) =
      (q.regularFiles root limit >>= fun files => (files.filter keep).mapM g >>= k) := by
  rw [← regularFiles_congr h]
  cases hfiles : p.regularFiles root limit with
  | error e => rfl
  | ok files =>
    refine congrArg (· >>= k) (mapM_congr fun path hpath => ?_)
    obtain ⟨hmem, hkeep⟩ := mem_filter.mp hpath
    exact hfg path (prefix_of_mem_regularFiles hfiles hmem) hkeep

theorem mem_bundleFiles {source : LegacySource} {manifest : PathBuf}
    {files : List (PathBuf × String)} (h : bundleFiles source manifest = .ok files)
    {file : PathBuf × String} (hfile : file ∈ files) :
    file.1 = manifest ∨ manifest.dropLast <+: file.1 := by
  unfold bundleFiles at h
  split_ifs at h
  · obtain ⟨paths, hpaths, h⟩ := bind_ok_iff.mp h
    obtain rfl := Except.ok.inj h
    obtain ⟨path, hpath, rfl⟩ := mem_map.mp hfile
    exact .inr (prefix_of_mem_regularFiles hpaths hpath)
  · obtain rfl := Except.ok.inj h
    obtain rfl := mem_singleton.mp hfile
    exact .inl rfl

theorem bundleFiles_congr (h : SameMetadata p q) (manifest : PathBuf) :
    bundleFiles p manifest = bundleFiles q manifest := by
  unfold bundleFiles
  rw [regularFiles_congr h]

variable [Sha256]

theorem discoverProfile_congr (h : SameMetadata p q) (roots : LegacyRoots) :
    discoverProfile p roots = discoverProfile q roots := by
  unfold discoverProfile pushAuth
  rw [isDirectory_congr h, isDirectory_congr h, pushCandidate_congr h]

/-! ### Preparers -/

theorem fileNotice_congr (h : SameMetadata p q) : fileNotice p = fileNotice q := by
  funext plan kind path status detail secret
  unfold fileNotice
  rw [modifiedAt_congr h]

theorem notice_congr (h : SameMetadata p q) : notice p = notice q := by
  unfold notice
  rw [fileNotice_congr h]

theorem invalidBatch_congr (h : SameMetadata p q) : invalidBatch p = invalidBatch q := by
  unfold invalidBatch
  rw [notice_congr h]

theorem skippedSecret_congr (h : SameMetadata p q) : skippedSecret p = skippedSecret q := by
  unfold skippedSecret
  rw [notice_congr h]

variable [JsonBytes]

theorem makeRecord_congr (h : SameMetadata p q) : makeRecord p = makeRecord q := by
  funext plan kind path suffix destination enabled personal payload
  unfold makeRecord
  rw [modifiedAt_congr h]

/-- A file that is read in both profiles. -/
theorem copiedFile_congr (h : SameMetadata p q) {path : PathBuf}
    (hpath : p.nodes[path]? = q.nodes[path]?) (plan : MigrationPlan) (kind destination : String)
    (enabled personal : Bool) : copiedFile p plan kind path destination enabled personal =
      copiedFile q plan kind path destination enabled personal := by
  unfold copiedFile
  rw [readLimited_congr hpath, makeRecord_congr h]

/-- The profiles hold the same below a path. -/
def SameBelow (p q : LegacySource) (root : PathBuf) : Prop :=
  ∀ path : PathBuf, root <+: path → p.nodes[path]? = q.nodes[path]?

section Imported

variable (h : SameMetadata p q) {input : DiscoveredInput} (hbelow : SameBelow p q input.path)
  (plan : MigrationPlan)

include h hbelow

theorem prepareState_congr : prepareState p plan input = prepareState q plan input := by
  unfold prepareState
  rw [readLimited_congr (hbelow _ prefix_rfl), makeRecord_congr h,
    invalidBatch_congr h]

theorem prepareProjects_congr : prepareProjects p plan input = prepareProjects q plan input := by
  unfold prepareProjects
  rw [readLimited_congr (hbelow _ prefix_rfl), makeRecord_congr h,
    invalidBatch_congr h]

theorem prepareSchedule_congr [Toml] :
    prepareSchedule p plan input = prepareSchedule q plan input := by
  unfold prepareSchedule prepareTask
  rw [readLimited_congr (hbelow _ prefix_rfl), makeRecord_congr h,
    invalidBatch_congr h, fileNotice_congr h]

theorem prepareHistory_congr : prepareHistory p plan input = prepareHistory q plan input := by
  refine mapM_files_congr h fun path hpath _ => ?_
  unfold prepareHistoryFile
  rw [readLimited_congr (hbelow path hpath), makeRecord_congr h, fileNotice_congr h]

theorem prepareMemory_congr : prepareMemory p plan input = prepareMemory q plan input :=
  mapM_files_congr h fun path hpath _ => copiedFile_congr h (hbelow path hpath) ..

theorem prepareThemes_congr : prepareThemes p plan input = prepareThemes q plan input := by
  have hall (source : LegacySource) : prepareThemes source plan input =
      (source.regularFiles input.path maxExtensionFiles >>= fun files =>
        (files.filter fun _ => true).mapM (fun path => copiedFile source plan "theme" path
          ("themes/quarantine/" ++ pathBelow input.path path) false false) >>= fun records =>
            pure { records }) := by
    simp only [filter_true]
    rfl
  rw [hall, hall]
  exact mapM_files_congr h fun path hpath _ => copiedFile_congr h (hbelow path hpath) ..

/-- The folder of a manifest is searched too, and lies below the path of the input unless the
input is the manifest itself. -/
theorem prepareManifest_congr {manifest : PathBuf} (hmanifest : input.path <+: manifest)
    (hne : input.path ≠ manifest) :
    prepareManifest p plan input manifest = prepareManifest q plan input manifest := by
  have hfolder : input.path <+: manifest.dropLast := by
    obtain ⟨rest, rfl⟩ := hmanifest
    have hrest : rest ≠ [] := fun hnil => hne (by rw [hnil, append_nil])
    rw [dropLast_append_of_ne_nil hrest]
    exact prefix_append _ _
  unfold prepareManifest
  rw [readLimited_congr (hbelow manifest hmanifest), fileNotice_congr h,
    ← bundleFiles_congr h]
  refine bind_congr fun bytes => ?_
  split
  · rfl
  · cases hfiles : bundleFiles p manifest with
    | error e => rfl
    | ok files =>
      refine congrArg (fun copied : Except MigrationError (List PreparedRecord) =>
        copied >>= fun records => pure ({ records := records } : PreparedBatch))
        (mapM_congr fun file hfile => ?_)
      have hplace : input.path <+: file.1 := by
        rcases mem_bundleFiles hfiles hfile with heq | hin
        · exact heq ▸ hmanifest
        · exact hfolder.trans hin
      exact copiedFile_congr h (hbelow _ hplace) ..

theorem prepareExtensions_congr (hpath : isManifest input.kind input.path = false) :
    prepareExtensions p plan input = prepareExtensions q plan input := by
  refine mapM_files_congr h fun path hprefix hmanifest => ?_
  refine prepareManifest_congr h hbelow plan hprefix ?_
  rintro rfl
  rw [hpath] at hmanifest
  exact Bool.false_ne_true hmanifest

end Imported

/-! ### What is read out of the secret-bearing files -/

omit [Sha256] [JsonBytes] in
/-- Files of the same size are read in both profiles or in neither. -/
theorem readLimited_cases (h : SameMetadata p q) (path : PathBuf) :
    (∃ e, p.readLimited path = .error e ∧ q.readLimited path = .error e) ∨
      ∃ bytes bytes', p.readLimited path = .ok bytes ∧ q.readLimited path = .ok bytes' := by
  have hpath := h path
  unfold readLimited
  rcases hp : p.nodes[path]? with _ | ⟨content, modified⟩
  · rw [hp, Option.map_none, eq_comm, Option.map_eq_none_iff] at hpath
    rw [hpath]
    exact .inl ⟨_, rfl, rfl⟩
  · rw [hp, Option.map_some, eq_comm] at hpath
    obtain ⟨⟨content', modified'⟩, hq, hmetadata⟩ := Option.map_eq_some_iff.mp hpath
    rw [hq]
    have hkind := congrArg Metadata.fileType hmetadata
    cases content <;> cases content' <;> simp only [Node.metadata, reduceCtorEq] at hkind
    · obtain ⟨-, hlen, -⟩ := Metadata.mk.inj hmetadata
      dsimp only
      rw [hlen]
      split_ifs
      · exact .inl ⟨_, rfl, rfl⟩
      · exact .inr ⟨_, _, rfl, rfl⟩
    all_goals exact .inl ⟨_, rfl, rfl⟩

omit [Sha256] [JsonBytes] in
/-- What is made of such a file is the same if it is so for what the two of them hold. -/
theorem readLimited_bind_congr (h : SameMetadata p q) {path : PathBuf} {α : Type}
    {k : List UInt8 → Except MigrationError α}
    (hk : ∀ bytes bytes', p.readLimited path = .ok bytes → q.readLimited path = .ok bytes' →
      k bytes = k bytes') : (p.readLimited path >>= k) = (q.readLimited path >>= k) := by
  rcases readLimited_cases h path with ⟨e, hp, hq⟩ | ⟨bytes, bytes', hp, hq⟩
  · rw [hp, hq]
  · rw [hp, hq]
    exact hk bytes bytes' hp hq

/-- The fields of a configuration that the importer asks for. -/
structure Settings where
  personaName : Option TomlValue
  personaStyle : Option TomlValue
  historyEnabled : Option TomlValue
  traceRecordArguments : Option TomlValue
  integrationsProjects : Option TomlValue

def settings (parsed : TomlValue) : Settings where
  personaName := (parsed.get "persona").bind (·.get "name")
  personaStyle := (parsed.get "persona").bind (·.get "style")
  historyEnabled := (parsed.get "history").bind (·.get "enabled")
  traceRecordArguments := (parsed.get "trace").bind (·.get "record_arguments")
  integrationsProjects := (parsed.get "integrations").bind (·.get "projects")

omit [Sha256] [JsonBytes] in
theorem mappedConfig_congr {v w : TomlValue} (h : settings v = settings w) :
    mappedConfig v = mappedConfig w := by
  obtain ⟨hname, hstyle, hhistory, htrace, hprojects⟩ := Settings.mk.inj h
  unfold mappedConfig
  dsimp only
  rw [hname, hstyle, hhistory, htrace, hprojects]

/-- Both configurations are TOML and agree on the fields the importer asks for, or neither is. -/
def SameSettings [Toml] (p q : LegacySource) (path : PathBuf) : Prop :=
  ∀ bytes bytes', p.readLimited path = .ok bytes → q.readLimited path = .ok bytes' →
    (Toml.fromStr (fromUtf8Lossy bytes)).map settings =
      (Toml.fromStr (fromUtf8Lossy bytes')).map settings

/-- Both registries parse, into related documents, or the parser stops with the same error. -/
def SameRegistry (related : Value → Value → Prop) (p q : LegacySource) (path : PathBuf) : Prop :=
  ∀ bytes bytes', p.readLimited path = .ok bytes → q.readLimited path = .ok bytes' →
    (∃ e, JsonBytes.fromSlice bytes = .error e ∧ JsonBytes.fromSlice bytes' = .error e) ∨
      ∃ v w, JsonBytes.fromSlice bytes = .ok v ∧ JsonBytes.fromSlice bytes' = .ok w ∧ related v w

variable (h : SameMetadata p q) (plan : MigrationPlan) {input : DiscoveredInput}

include h

theorem prepareConfig_congr [Toml] (hsettings : SameSettings p q input.path) :
    prepareConfig p plan input = prepareConfig q plan input := by
  unfold prepareConfig
  rw [makeRecord_congr h, invalidBatch_congr h, notice_congr h]
  refine readLimited_bind_congr h fun bytes bytes' hp hq => ?_
  have hparsed := hsettings bytes bytes' hp hq
  cases hv : Toml.fromStr (fromUtf8Lossy bytes) with
  | none =>
    rw [hv, Option.map_none, eq_comm, Option.map_eq_none_iff] at hparsed
    simp only [hparsed]
  | some v =>
    rw [hv, Option.map_some, eq_comm] at hparsed
    obtain ⟨w, hw, hsame⟩ := Option.map_eq_some_iff.mp hparsed
    simp only [hw, mappedConfig_congr hsame]

theorem prepareMcpMetadata_congr (hsame : SameRegistry SameServers p q input.path) :
    prepareMcpMetadata p plan input = prepareMcpMetadata q plan input := by
  unfold prepareMcpMetadata
  rw [makeRecord_congr h, invalidBatch_congr h, notice_congr h]
  refine readLimited_bind_congr h fun bytes bytes' hp hq => ?_
  rcases hsame bytes bytes' hp hq with ⟨e, hv, hw⟩ | ⟨v, w, hv, hw, hrelated⟩
  · simp only [hv, hw]
  · simp only [hv, hw, serverNames_congr hrelated]

theorem prepareRemoteMetadata_congr (hsame : SameRegistry SameDevices p q input.path) :
    prepareRemoteMetadata p plan input = prepareRemoteMetadata q plan input := by
  unfold prepareRemoteMetadata
  rw [makeRecord_congr h, invalidBatch_congr h, notice_congr h]
  refine readLimited_bind_congr h fun bytes bytes' hp hq => ?_
  rcases hsame bytes bytes' hp hq with ⟨e, hv, hw⟩ | ⟨v, w, hv, hw, hrelated⟩
  · simp only [hv, hw]
  · simp only [hv, hw, collectDeviceMetadata_congr hrelated]

end

/-! ### Profiles that differ in their secrets -/

/-- What discovery looks for, and where. -/
def inputPaths (roots : LegacyRoots) : List (String × PathBuf) :=
  configCandidates.map (fun c => (c.kind, roots.configRoot ++ c.relative)) ++
    dataCandidates.map (fun c => (c.kind, roots.dataRoot ++ c.relative)) ++
    roots.opencodeAuth.toList.map (fun auth => ("opencode-auth", auth))

/-- The kinds whose files are imported as they are, or whole but for their form. -/
def importedKinds : List String :=
  ["state", "history", "memory", "schedules", "skills", "experts", "themes", "projects"]

/-- Where files are that are imported. -/
def importedPaths (roots : LegacyRoots) : List PathBuf :=
  ((inputPaths roots).filter (·.1 ∈ importedKinds)).map Prod.snd

/-- Where the files are that may hold secrets. -/
def secretPaths (roots : LegacyRoots) : List PathBuf :=
  ((inputPaths roots).filter (·.1 ∉ importedKinds)).map Prod.snd

/-- No file that may hold secrets lies in a folder that is imported, nor the other way round. -/
def Apart (roots : LegacyRoots) : Prop :=
  ∀ path ∈ importedPaths roots, ∀ secret ∈ secretPaths roots,
    ¬path <+: secret ∧ ¬secret <+: path

instance (roots : LegacyRoots) : Decidable (Apart roots) :=
  inferInstanceAs (Decidable (∀ path ∈ importedPaths roots, ∀ secret ∈ secretPaths roots,
    ¬path <+: secret ∧ ¬secret <+: path))

/-! ### Where inputs come from -/

variable {source : LegacySource} {kind : String} {path : PathBuf} {roots : LegacyRoots}

theorem mem_pushCandidate {d d' : Discovery} {secrets : Bool} {action : PlannedAction}
    (h : pushCandidate source d kind path secrets action = .ok d') :
    ∀ input ∈ d'.inputs, input ∈ d.inputs ∨ (input.kind = kind ∧ input.path = path) := by
  unfold pushCandidate at h
  split_ifs at h
  · obtain rfl := Except.ok.inj h
    exact fun input hinput => .inl hinput
  · obtain ⟨stats, -, h⟩ := bind_ok_iff.mp h
    cases stats with
    | none =>
      obtain rfl := Except.ok.inj h
      exact fun input hinput => .inl hinput
    | some stats =>
      obtain rfl := Except.ok.inj h
      intro input hinput
      rcases mem_append.mp hinput with hinput | hinput
      · exact .inl hinput
      · obtain rfl := mem_singleton.mp hinput
        exact .inr ⟨rfl, rfl⟩

/-- A pass over candidates finds them where they belong. -/
theorem mem_foldlM_pushCandidate {root : PathBuf} {cs : List Candidate} {d d' : Discovery}
    (h : cs.foldlM (fun d c =>
      pushCandidate source d c.kind (root ++ c.relative) c.secrets c.action) d = .ok d') :
    ∀ input ∈ d'.inputs, input ∈ d.inputs ∨
      (input.kind, input.path) ∈ cs.map fun c => (c.kind, root ++ c.relative) := by
  induction cs generalizing d with
  | nil =>
    obtain rfl := Except.ok.inj h
    exact fun input hinput => .inl hinput
  | cons c cs ih =>
    rw [foldlM_cons] at h
    obtain ⟨d₁, hpush, h⟩ := bind_ok_iff.mp h
    intro input hinput
    rcases ih h input hinput with hinput | hinput
    · rcases mem_pushCandidate hpush input hinput with hinput | ⟨hkind, hpath⟩
      · exact .inl hinput
      · exact .inr (mem_cons.mpr (.inl (Prod.ext hkind hpath)))
    · exact .inr (mem_cons_of_mem _ hinput)

theorem mem_inputPaths [Sha256] {plan : MigrationPlan} (h : discoverProfile source roots = .ok plan)
    {input : DiscoveredInput} (hinput : input ∈ plan.inputs) :
    (input.kind, input.path) ∈ inputPaths roots := by
  unfold discoverProfile at h
  split_ifs at h
  obtain ⟨d₁, hconfig, h⟩ := bind_ok_iff.mp h
  obtain ⟨d₂, hdata, h⟩ := bind_ok_iff.mp h
  obtain ⟨d₃, hauth, h⟩ := bind_ok_iff.mp h
  obtain rfl := Except.ok.inj h
  have hd₃ : input ∈ d₃.inputs := (perm_insertionSort _ _).mem_iff.mp hinput
  have hd₂ : input ∈ d₂.inputs ∨
      (input.kind, input.path) ∈ roots.opencodeAuth.toList.map fun a => ("opencode-auth", a) := by
    unfold pushAuth at hauth
    cases hroots : roots.opencodeAuth with
    | none =>
      rw [hroots] at hauth
      exact .inl (Except.ok.inj hauth ▸ hd₃)
    | some auth =>
      rw [hroots] at hauth
      rcases mem_pushCandidate hauth input hd₃ with hinput | ⟨hkind, hpath⟩
      · exact .inl hinput
      · exact .inr (mem_singleton.mpr (Prod.ext hkind hpath))
  unfold inputPaths
  rw [mem_append, mem_append]
  rcases hd₂ with hd₂ | hd₂
  · rcases mem_foldlM_pushCandidate hdata input hd₂ with hd₁ | hd₁
    · rcases mem_foldlM_pushCandidate hconfig input hd₁ with hd₀ | hd₀
      · exact (nomatch hd₀)
      · exact .inl (.inl hd₀)
    · exact .inl (.inr hd₁)
  · exact .inr hd₂

/-- Files of a kind of their own are in one place. -/
theorem path_of_kind (h : (kind, path) ∈ inputPaths roots) :
    (kind = "config" → path = roots.configRoot ++ ["config.toml"]) ∧
      (kind = "mcp" → path = roots.configRoot ++ ["mcp.json"]) ∧
      (kind = "remote-devices" → path = roots.dataRoot ++ ["devices.json"]) := by
  simp only [inputPaths, configCandidates, dataCandidates, mem_append, mem_map,
    map_cons, map_nil, mem_cons, Prod.mk.injEq, not_mem_nil, or_false] at h
  refine ⟨?_, ?_, ?_⟩ <;> rintro rfl <;> simpa using h

/-- The folders of extensions are not called as manifests are. -/
theorem not_isManifest (h : (kind, path) ∈ inputPaths roots)
    (hkind : kind = "skills" ∨ kind = "experts") : isManifest kind path = false := by
  have hname : fileName path ∈ ["skills", "experts", "agent", "agents"] := by
    simp only [inputPaths, configCandidates, dataCandidates, mem_append, mem_map,
      map_cons, map_nil, mem_cons, Prod.mk.injEq, not_mem_nil, or_false] at h
    rcases hkind with rfl | rfl <;> obtain rfl | rfl | rfl | rfl := by simpa using h
    all_goals simp [fileName]
  unfold isManifest
  generalize fileName path = name at hname
  simp only [mem_cons, not_mem_nil, or_false] at hname
  rcases hkind with rfl | rfl <;> rcases hname with rfl | rfl | rfl | rfl <;> decide

section

variable [JsonBytes] [Toml]

/-- **Profiles that differ in their secrets alone.** -/
structure SameButSecrets (roots : LegacyRoots) (p q : LegacySource) : Prop where
  metadata : SameMetadata p q
  config : SameSettings p q (roots.configRoot ++ ["config.toml"])
  servers : SameRegistry SameServers p q (roots.configRoot ++ ["mcp.json"])
  devices : SameRegistry SameDevices p q (roots.dataRoot ++ ["devices.json"])
  others : ∀ path : PathBuf, (∀ secret ∈ secretPaths roots, ¬secret <+: path) →
    p.nodes[path]? = q.nodes[path]?

variable {roots : LegacyRoots} {p q : LegacySource}

theorem sameBelow_of_imported (hroots : Apart roots) (h : SameButSecrets roots p q)
    {kind : String} {root : PathBuf} (hroot : (kind, root) ∈ inputPaths roots)
    (hkind : kind ∈ importedKinds) : SameBelow p q root := by
  have hmem : root ∈ importedPaths roots :=
    mem_map.mpr ⟨(kind, root), mem_filter.mpr ⟨hroot, decide_eq_true hkind⟩, rfl⟩
  intro path hpath
  refine h.others path fun secret hsecret hbelow => ?_
  obtain ⟨hleft, hright⟩ := hroots root hmem secret hsecret
  rcases prefix_or_prefix_of_prefix hpath hbelow with hsecret | hpath
  · exact hleft hsecret
  · exact hright hpath

variable [Sha256]

theorem prepareInput_congr (hroots : Apart roots) (h : SameButSecrets roots p q)
    (plan : MigrationPlan) (consent : MigrationConsent) {input : DiscoveredInput}
    (hinput : (input.kind, input.path) ∈ inputPaths roots) :
    prepareInput p plan consent input = prepareInput q plan consent input := by
  have hm := h.metadata
  have hbelow (hkind : input.kind ∈ importedKinds) : SameBelow p q input.path :=
    sameBelow_of_imported hroots h hinput hkind
  obtain ⟨hconfig, hmcp, hdevices⟩ := path_of_kind hinput
  unfold prepareInput
  split
  · rename_i hkind
    exact prepareConfig_congr hm plan (hconfig hkind ▸ h.config)
  · rename_i hkind
    exact prepareState_congr hm (hbelow (hkind ▸ by decide)) plan
  · rename_i hkind
    exact prepareHistory_congr hm (hbelow (hkind ▸ by decide)) plan
  · rename_i hkind
    exact prepareMemory_congr hm (hbelow (hkind ▸ by decide)) plan
  · rename_i hkind
    exact prepareSchedule_congr hm (hbelow (hkind ▸ by decide)) plan
  · rename_i hkind
    exact prepareExtensions_congr hm (hbelow (hkind ▸ by decide)) plan
      (not_isManifest hinput (.inl hkind))
  · rename_i hkind
    exact prepareExtensions_congr hm (hbelow (hkind ▸ by decide)) plan
      (not_isManifest hinput (.inr hkind))
  · rename_i hkind
    exact prepareThemes_congr hm (hbelow (hkind ▸ by decide)) plan
  · rename_i hkind
    exact prepareMcpMetadata_congr hm plan (hmcp hkind ▸ h.servers)
  · rename_i hkind
    exact prepareProjects_congr hm (hbelow (hkind ▸ by decide)) plan
  · rename_i hkind
    exact prepareRemoteMetadata_congr hm plan (hdevices hkind ▸ h.devices)
  · rw [skippedSecret_congr hm]
  · rw [skippedSecret_congr hm]
  · rw [skippedSecret_congr hm]
  · rw [notice_congr hm]

/-- **Secrets stay behind.**  Profiles that differ in their secrets alone have the same plan, and
a migration does the same with both: it leaves every sink in the same state and returns the same
report. -/
theorem secrets_stay (hroots : Apart roots) (h : SameButSecrets roots p q) :
    discoverProfile p roots = discoverProfile q roots ∧
      ∀ plan, discoverProfile p roots = .ok plan →
        ∀ {σ ε : Type} (sink : MigrationSink σ ε) (s : σ) (consent : MigrationConsent)
          (runId : String), migrateSource p plan sink s consent runId =
            migrateSource q plan sink s consent runId := by
  refine ⟨discoverProfile_congr h.metadata roots, ?_⟩
  intro plan hplan σ ε sink s consent runId
  have hprepared : preparedInputs p plan consent = preparedInputs q plan consent :=
    map_congr_left fun input hinput =>
      prepareInput_congr hroots h plan consent (mem_inputPaths hplan hinput)
  unfold migrateSource
  rw [hprepared]

end

/-! ### Two profiles, and what crosses -/

mutual

/-- A spelling of a document that tells different ones apart. -/
def spellValue : Value → String
  | .null => "null"
  | .bool b => if b then "true" else "false"
  | .u64 n => toString n
  | .i64 n => toString n
  | .f64 _ => "0.0"
  | .string text => "\"" ++ text.spelling ++ "\""
  | .array items => "[" ++ spellItems items ++ "]"
  | .object fields => "\x7b" ++ spellFields fields ++ "\x7d"

def spellItems : List Value → String
  | [] => ""
  | item :: items => spellValue item ++ "," ++ spellItems items

def spellFields : List (String × Value) → String
  | [] => ""
  | field :: fields => spellField field ++ "," ++ spellFields fields

def spellField : String × Value → String
  | (name, value) => "\"" ++ name ++ "\":" ++ spellValue value

end

/-- A registry of one server, and one of one device. -/
def serverText (token : String) : String :=
  "\x7b\"mcpServers\":\x7b\"files\":\x7b\"token\":\"" ++ token ++ "\"\x7d\x7d\x7d"

def serverValue (token : String) : Value :=
  .object [("mcpServers", .object [("files", .object [("token", .ofStr token)])])]

def deviceText (key : String) : String :=
  "[\x7b\"key\":\"" ++ key ++ "\",\"name\":\"phone\"\x7d]"

def deviceValue (key : String) : Value :=
  .array [.object [("key", .ofStr key), ("name", .ofStr "phone")]]

/-- What the parser makes of some registries. -/
def registryTexts : List (String × Except String Value) :=
  [(serverText "A", .ok (serverValue "A")), (serverText "B", .ok (serverValue "B")),
    (deviceText "1", .ok (deviceValue "1")), (deviceText "2", .ok (deviceValue "2")),
    ("[\x7d", .error "expected value at line 1 column 2"),
    ("\x7b]", .error "key must be a string at line 1 column 2"),
    ("\x7b\"mcpServers\":[],\"k1\":0\x7d",
      .ok (.object [("mcpServers", .array []), ("k1", .u64 0)])),
    ("\x7b\"mcpServers\":[],\"k2\":0\x7d",
      .ok (.object [("mcpServers", .array []), ("k2", .u64 0)])),
    ("\x7b\"k1\":\x7b\x7d\x7d", .ok (.object [("k1", .object [])])),
    ("\x7b\"k2\":\x7b\x7d\x7d", .ok (.object [("k2", .object [])]))]

@[reducible] def registryJson : JsonBytes where
  fromSlice bytes := ((registryTexts.find? fun entry => asBytes entry.1 = bytes).map
    Prod.snd).getD (.error "expected value at line 1 column 1")
  toVec value := asBytes (spellValue value)

@[reducible] def lengthSha256 : Sha256 := ⟨fun bytes => [.ofNat bytes.length]⟩

@[reducible] def noToml : Toml := ⟨fun _ => none⟩

/-- A sink that never fails. -/
def listSink : MigrationSink (List PreparedRecord) Empty where
  contains s id := (s, .ok (s.any (·.id = id)))
  store s record := (record :: s, .ok ())

section

attribute [local instance] registryJson lengthSha256 noToml

/-- A profile with one file besides its directories. -/
def oneFile (directories : List PathBuf) (path : PathBuf) (text : String) :
    BTreeMap PathBuf Node :=
  let folders : BTreeMap PathBuf Node :=
    Std.ExtTreeMap.ofList (directories.map fun path => (path, Node.mk .directory none))
  folders.insert path { content := .file (asBytes text) }

def homeRoots : LegacyRoots := ⟨["home"], ["home"], none⟩

/-- What a migration stores and reports. -/
def outcome (source : LegacySource) (roots : LegacyRoots) : List (List UInt8) × List String :=
  match discoverProfile source roots with
  | .error _ => ([], [])
  | .ok plan =>
    let run := migrateSource source plan listSink [] ⟨true, false⟩ "run"
    (run.1.map (·.payloadBytes), run.2.toOption.elim [] (·.items.map (·.detail)))

/-- An environment, the token of a server and the pairing key of a device. -/
def secretNodes (environment token key : String) : BTreeMap PathBuf Node :=
  ((oneFile [["home"]] ["home", "env"] environment).insert ["home", "mcp.json"]
    { content := .file (asBytes (serverText token)) }).insert ["home", "devices.json"]
    { content := .file (asBytes (deviceText key)) }

def profile1 : LegacySource := ⟨secretNodes "A=1" "A" "1", by decide +kernel⟩

def profile2 : LegacySource := ⟨secretNodes "A=2" "B" "2", by decide +kernel⟩

theorem sameButSecrets_profiles : SameButSecrets homeRoots profile1 profile2 where
  metadata path := by
    unfold profile1 profile2 secretNodes oneFile
    simp only [getElem?_insert_eq]
    split_ifs
    · decide +kernel
    · decide +kernel
    · decide +kernel
    · rfl
  config bytes _ hread := by
    have hmissing : profile1.readLimited ["home", "config.toml"] = .error .io := by decide +kernel
    cases hmissing.symm.trans hread
  servers bytes bytes' hread hread' := by
    have h : profile1.readLimited ["home", "mcp.json"] = .ok (asBytes (serverText "A")) := by
      decide +kernel
    have h' : profile2.readLimited ["home", "mcp.json"] = .ok (asBytes (serverText "B")) := by
      decide +kernel
    cases h.symm.trans hread
    cases h'.symm.trans hread'
    exact .inr ⟨serverValue "A", serverValue "B", rfl, rfl, .some rfl, fun h => by cases h⟩
  devices bytes bytes' hread hread' := by
    have h : profile1.readLimited ["home", "devices.json"] = .ok (asBytes (deviceText "1")) := by
      decide +kernel
    have h' : profile2.readLimited ["home", "devices.json"] = .ok (asBytes (deviceText "2")) := by
      decide +kernel
    cases h.symm.trans hread
    cases h'.symm.trans hread'
    refine .inr ⟨deviceValue "1", deviceValue "2", rfl, rfl, .array rfl fun i v w hv hw => ?_⟩
    cases i with
    | succ i => cases hv
    | zero =>
      cases hv
      cases hw
      exact .object ⟨rfl, rfl⟩ fun hnone => by cases hnone
  others path hpath := by
    have hne : ∀ secret ∈ secretPaths homeRoots, path ≠ secret := by
      rintro secret hsecret rfl
      exact hpath path hsecret prefix_rfl
    unfold profile1 profile2 secretNodes oneFile
    simp only [getElem?_insert_eq]
    rw [if_neg (hne _ (by decide +kernel)), if_neg (hne _ (by decide +kernel)),
      if_neg (hne _ (by decide +kernel)), if_neg (hne _ (by decide +kernel)),
      if_neg (hne _ (by decide +kernel)), if_neg (hne _ (by decide +kernel))]

/-- The environment, the token and the pairing key stay, and a record of each registry is
stored. -/
theorem profiles_stay :
    (outcome profile1 homeRoots).1.length = 2 ∧
    discoverProfile profile1 homeRoots = discoverProfile profile2 homeRoots ∧
      ∀ plan, discoverProfile profile1 homeRoots = .ok plan →
        ∀ {σ ε : Type} (sink : MigrationSink σ ε) (s : σ) (consent : MigrationConsent)
          (runId : String), migrateSource profile1 plan sink s consent runId =
            migrateSource profile2 plan sink s consent runId :=
  ⟨by decide +kernel, secrets_stay (by decide +kernel) sameButSecrets_profiles⟩

/-- **What crosses.**  Two server registries that do not parse are reported with different
places; two without an object of servers have other keys stored as server names; two devices
without a name are stored under the keys they are filed under; and an auth file in a folder of
themes is copied with them. -/
theorem secrets_cross :
    (outcome ⟨oneFile [["home"]] ["home", "mcp.json"] "[\x7d", by decide +kernel⟩ homeRoots).2 ≠
      (outcome ⟨oneFile [["home"]] ["home", "mcp.json"] "\x7b]", by decide +kernel⟩ homeRoots).2 ∧
    (outcome ⟨oneFile [["home"]] ["home", "mcp.json"] "\x7b\"mcpServers\":[],\"k1\":0\x7d",
        by decide +kernel⟩ homeRoots).1 ≠
      (outcome ⟨oneFile [["home"]] ["home", "mcp.json"] "\x7b\"mcpServers\":[],\"k2\":0\x7d",
        by decide +kernel⟩ homeRoots).1 ∧
    (outcome ⟨oneFile [["home"]] ["home", "devices.json"] "\x7b\"k1\":\x7b\x7d\x7d",
        by decide +kernel⟩ homeRoots).1 ≠
      (outcome ⟨oneFile [["home"]] ["home", "devices.json"] "\x7b\"k2\":\x7b\x7d\x7d",
        by decide +kernel⟩ homeRoots).1 ∧
    (outcome ⟨oneFile [["home"], ["home", "themes"]] ["home", "themes", "auth.json"] "1",
        by decide +kernel⟩ ⟨["home"], ["home"], some ["home", "themes", "auth.json"]⟩).1 ≠
      (outcome ⟨oneFile [["home"], ["home", "themes"]] ["home", "themes", "auth.json"] "2",
        by decide +kernel⟩ ⟨["home"], ["home"], some ["home", "themes", "auth.json"]⟩).1 :=
  ⟨by decide +kernel, by decide +kernel, by decide +kernel, by decide +kernel⟩

end

end PersonalAgent.Migration
