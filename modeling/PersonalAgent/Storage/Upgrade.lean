/-
# Opening a database of an older release

`EventStore::open` and the migrations (`crates/storage/src/lib.rs`, lines 210 to 302, 1294 to
1446 and 1758 to 1825).  A database of version 4 or 5 is first copied to a backup file beside
it and then upgraded in one transaction.  Version 5 adds columns to the usage tables; version
6 turns the memory snapshots of older releases into rows.

The transaction of an attempt that fails is rolled back, but the backup file is not part of it
and a backup is never written over an existing file: as long as the file of the failed attempt
is there, the database cannot be opened (`failed_upgrade_blocks_open`).  If it is taken away, a
later open does what it would have done (`reopen_after_failure`).
-/

import PersonalAgent.Storage.MemoryRows

namespace PersonalAgent.Storage

open Lib

open Memories

def baselineSchemaVersion : ℤ := 4

def schemaVersion : ℤ := 6

/-- Which form the tables `provider_usage` and `egress` have. -/
inductive UsageTables where
  | missing
  | plain
  | byDay
  deriving DecidableEq

/-- What a migration reads of a database.  The table `schema_migrations` need not be there. -/
structure DatabaseFile where
  userVersion : ℤ := 0
  schemaMigrations : Option (List ℤ) := none
  usageTables : UsageTables := .missing
  memory : MemoryTables := {}

/-- `StorageError`, as far as opening goes. -/
inductive OpenError where
  | database
  | sqlCipherUnavailable
  | io
  | destinationExists (path : String)
  | downgradeRefused (found supported : ℤ)
  | unsupportedDatabaseSchema (version : ℤ)
  | migrationBackupRequired (version : ℤ)
  | memory (error : MemoryRowError)
  deriving DecidableEq

/-! ### The snapshots of older releases -/

namespace MemoryTables

/-- The store of each profile, with the time it is from. -/
abbrev LegacyStores := BTreeMap String (String × MemoryStore)

/-- One turn of the loop over the systems: the metadata is written at once. -/
def takeSystem (state : MemoryTables × LegacyStores)
    (entry : String × LegacySnapshot PersistentMemory) :
    Except MemoryRowError (MemoryTables × LegacyStores) :=
  match entry.2.body with
  | none => .error (.storage .json)
  | some system =>
    let (store, metadata) := system.intoStorageParts
    .ok ({ state.1 with metadata := state.1.metadata.insert entry.1 metadata },
      state.2.insert entry.1 (entry.2.updatedAt, store))

/-- One turn of the loop over the indexes: one that is as new as the system replaces it. -/
def takeIndex (stores : LegacyStores) (entry : String × LegacySnapshot MemoryStore) :
    Except MemoryRowError LegacyStores :=
  match entry.2.body with
  | none => .error (.storage .json)
  | some store =>
    let replace :=
      (stores[entry.1]?.map fun stored => decide (stored.1 ≤ entry.2.updatedAt)).getD true
    .ok (if replace then stores.insert entry.1 (entry.2.updatedAt, store) else stores)

/-- One turn of the loop over the stores. -/
def writeStore (t : MemoryTables) (entry : String × (String × MemoryStore)) :
    Except MemoryRowError MemoryTables := do
  let t ← t.syncMemoryRows entry.1 entry.2.2
  return { t with models := t.models.insert entry.1 entry.2.2.embeddingModel }

def migrateLegacyMemorySnapshots (t : MemoryTables) : Except MemoryRowError MemoryTables := do
  let (t, stores) ← t.legacySystems.toList.foldlM takeSystem (t, ∅)
  let stores ← t.legacyIndexes.toList.foldlM takeIndex stores
  let t ← stores.toList.foldlM writeStore t
  return { t with legacyIndexes := ∅, legacySystems := ∅ }

end MemoryTables

/-! ### The migrations -/

namespace DatabaseFile

/-- `database_schema_version`. -/
def version (db : DatabaseFile) : ℤ :=
  if db.userVersion ≠ 0 then db.userVersion
  else (db.schemaMigrations.map fun versions => versions.max?.getD 0).getD 0

variable (db : DatabaseFile)

/-- A row of `schema_migrations`, whose primary key is the version. -/
def noteMigration (version : ℤ) : Except OpenError DatabaseFile :=
  match db.schemaMigrations with
  | none => .error .database
  | some versions =>
    if version ∈ versions then .error .database
    else .ok { db with schemaMigrations := some (version :: versions) }

/-- Every table is created unless it exists. -/
def migrateToV4 : DatabaseFile :=
  let versions := db.schemaMigrations.getD []
  { db with
    usageTables := if db.usageTables = .missing then .plain else db.usageTables
    schemaMigrations := some
      (if baselineSchemaVersion ∈ versions then versions else baselineSchemaVersion :: versions) }

/-- The columns are added; a column that exists is an error, as is a missing table. -/
def migrateToV5 : Except OpenError DatabaseFile :=
  match db.usageTables with
  | .plain => { db with usageTables := .byDay }.noteMigration 5
  | _ => .error .database

def migrateToV6 : Except OpenError DatabaseFile :=
  match db.memory.migrateLegacyMemorySnapshots with
  | .error error => .error (.memory error)
  | .ok memory => { db with memory }.noteMigration schemaVersion

def migrateFrom (migratedVersion : ℤ) : Except OpenError DatabaseFile :=
  if migratedVersion + 1 = 5 then db.migrateToV5
  else if migratedVersion + 1 = 6 then db.migrateToV6
  else .error (.unsupportedDatabaseSchema migratedVersion)

/-- The loop of `migrate`, for a number of versions. -/
def upgradeSteps : ℕ → ℤ → DatabaseFile → Except OpenError DatabaseFile
  | 0, _, db => .ok db
  | steps + 1, migratedVersion, db => do
    let db ← db.migrateFrom migratedVersion
    upgradeSteps steps (migratedVersion + 1) { db with userVersion := migratedVersion + 1 }

/-- The statements of the transaction. -/
def upgrade : Except OpenError DatabaseFile :=
  let version := db.version
  if version = 0 then
    upgradeSteps (schemaVersion - baselineSchemaVersion).toNat baselineSchemaVersion
      { db.migrateToV4 with userVersion := baselineSchemaVersion }
  else upgradeSteps (schemaVersion - version).toNat version db

end DatabaseFile

/-! ### Opening -/

/-- The database file, if there is one, and the files beside it by name; a copy that was not
finished is `none`. -/
structure DatabaseDir where
  database : Option DatabaseFile := none
  files : BTreeMap String (Option DatabaseFile) := ∅

/-- Where an attempt to open fails, apart from what is in the database. -/
inductive OpenFault where
  | connect
  | cipher
  | createBackup
  | copyBackup
  | transaction
  deriving DecidableEq

def migrationBackupPath (fileName : String) (fromVersion toVersion : ℤ) : String :=
  fileName ++ ".pre-v" ++ toString fromVersion ++ "-to-v" ++ toString toVersion ++ ".backup"

namespace DatabaseDir

def backupConnectionTo (dir : DatabaseDir) (source : DatabaseFile) (path : String)
    (fault : Option OpenFault) : DatabaseDir × Except OpenError Unit :=
  if dir.files.contains path then (dir, .error (.destinationExists path))
  else if fault = some .createBackup then (dir, .error .io)
  else if fault = some .copyBackup then
    ({ dir with files := dir.files.insert path none }, .error .database)
  else ({ dir with files := dir.files.insert path (some source) }, .ok ())

/-- The transaction of `migrate`. -/
def upgradeInTransaction (dir : DatabaseDir) (db : DatabaseFile) (fault : Option OpenFault) :
    DatabaseDir × Except OpenError Unit :=
  if fault = some .transaction then (dir, .error .database)
  else
    match db.upgrade with
    | .error error => (dir, .error error)
    | .ok upgraded => ({ dir with database := some upgraded }, .ok ())

def migrate (dir : DatabaseDir) (db : DatabaseFile) (fileName : String) (existed : Bool)
    (fault : Option OpenFault) : DatabaseDir × Except OpenError Unit :=
  let version := db.version
  if schemaVersion < version then (dir, .error (.downgradeRefused version schemaVersion))
  else if version ≠ 0 ∧ version < baselineSchemaVersion then
    (dir, .error (.unsupportedDatabaseSchema version))
  else if version = schemaVersion then (dir, .ok ())
  else if baselineSchemaVersion ≤ version then
    if existed then
      match dir.backupConnectionTo db (migrationBackupPath fileName version schemaVersion)
          fault with
      | (dir, .error error) => (dir, .error error)
      | (dir, .ok ()) => dir.upgradeInTransaction db fault
    else (dir, .error (.migrationBackupRequired version))
  else dir.upgradeInTransaction db fault

/-- `EventStore::open`. -/
def openStore (dir : DatabaseDir) (fileName : String) (fault : Option OpenFault) :
    DatabaseDir × Except OpenError Unit :=
  let existed := dir.database.isSome
  if fault = some .connect then (dir, .error .database)
  else
    let db := dir.database.getD {}
    let dir := { dir with database := some db }
    if fault = some .cipher then (dir, .error .sqlCipherUnavailable)
    else dir.migrate db fileName existed fault

/-! ### What a failed attempt leaves -/

variable {dir : DatabaseDir} {db : DatabaseFile} {fileName : String} {fault : Option OpenFault}

theorem database_backupConnectionTo (dir : DatabaseDir) (source : DatabaseFile) (path : String)
    (fault : Option OpenFault) :
    (dir.backupConnectionTo source path fault).1.database = dir.database := by
  rw [backupConnectionTo]
  split_ifs <;> rfl

theorem upgradeInTransaction_error {error : OpenError}
    (h : (dir.upgradeInTransaction db fault).2 = .error error) :
    (dir.upgradeInTransaction db fault).1 = dir := by
  revert h
  rw [upgradeInTransaction]
  split_ifs
  · exact fun _ => rfl
  · cases db.upgrade with
    | error error => exact fun _ => rfl
    | ok upgraded => nofun

theorem migrate_error {existed : Bool} {error : OpenError} (hdb : dir.database = some db)
    (h : (dir.migrate db fileName existed fault).2 = .error error) :
    (dir.migrate db fileName existed fault).1.database = some db := by
  revert h
  rw [migrate]
  split_ifs
  · exact fun _ => hdb
  · exact fun _ => hdb
  · nofun
  · have hbackup := dir.database_backupConnectionTo db
      (migrationBackupPath fileName db.version schemaVersion) fault
    revert hbackup
    rcases dir.backupConnectionTo db
      (migrationBackupPath fileName db.version schemaVersion) fault with ⟨dir', _ | _⟩
    · exact fun hbackup _ => hbackup.trans hdb
    · intro hbackup h
      rw [upgradeInTransaction_error h]
      exact hbackup.trans hdb
  · exact fun _ => hdb
  · intro h
    rw [upgradeInTransaction_error h]
    exact hdb

/-- The database is as it was. -/
theorem openStore_error {error : OpenError} (hdb : dir.database = some db)
    (h : (dir.openStore fileName fault).2 = .error error) :
    (dir.openStore fileName fault).1.database = some db := by
  revert h
  rw [openStore, hdb]
  split_ifs
  · exact fun _ => hdb
  · exact fun _ => rfl
  · exact fun h => migrate_error rfl h

/-! ### What a later attempt does -/

/-- The only thing in the directory that decides is whether the name of the backup is taken. -/
theorem openStore_upgradable {upgraded : DatabaseFile}
    (hversion : db.version = 4 ∨ db.version = 5) (hupgrade : db.upgrade = .ok upgraded) :
    { dir with database := some db }.openStore fileName none =
      if migrationBackupPath fileName db.version schemaVersion ∈ dir.files then
        ({ dir with database := some db },
          .error (.destinationExists (migrationBackupPath fileName db.version schemaVersion)))
      else
        ({ database := some upgraded
           files := dir.files.insert (migrationBackupPath fileName db.version schemaVersion)
             (some db) }, .ok ()) := by
  have hnew : ¬ schemaVersion < db.version := by rw [schemaVersion]; omega
  have hold : ¬ (db.version ≠ 0 ∧ db.version < baselineSchemaVersion) := by
    rw [baselineSchemaVersion]; omega
  have hcurrent : db.version ≠ schemaVersion := by rw [schemaVersion]; omega
  have hbase : baselineSchemaVersion ≤ db.version := by rw [baselineSchemaVersion]; omega
  by_cases htaken : migrationBackupPath fileName db.version schemaVersion ∈ dir.files
  · simp [openStore, migrate, hnew, hold, hcurrent, hbase, backupConnectionTo, htaken]
  · simp [openStore, migrate, hnew, hold, hcurrent, hbase, backupConnectionTo, htaken,
      upgradeInTransaction, hupgrade]

end DatabaseDir

/-- Every version in between is written to the database. -/
theorem DatabaseFile.userVersion_upgradeSteps {steps : ℕ} {version : ℤ}
    {db upgraded : DatabaseFile} (hsteps : steps ≠ 0)
    (h : upgradeSteps steps version db = .ok upgraded) :
    upgraded.userVersion = version + steps := by
  induction steps generalizing version db with
  | zero => exact absurd rfl hsteps
  | succ steps ih =>
    rw [upgradeSteps] at h
    obtain ⟨db', -, h⟩ := bind_ok_iff.mp h
    cases steps with
    | zero =>
      obtain rfl := Except.ok.inj h
      rfl
    | succ steps =>
      rw [ih (Nat.succ_ne_zero steps) h]
      push_cast
      ring

theorem DatabaseFile.version_upgrade {db upgraded : DatabaseFile}
    (hversion : db.version = 4 ∨ db.version = 5) (h : db.upgrade = .ok upgraded) :
    upgraded.version = schemaVersion := by
  have huser : upgraded.userVersion = schemaVersion := by
    rw [upgrade, if_neg (by omega)] at h
    have hsteps : ((schemaVersion - db.version).toNat : ℤ) = schemaVersion - db.version := by
      rw [schemaVersion]
      omega
    rw [userVersion_upgradeSteps _ h, hsteps]
    · ring
    · rw [schemaVersion]
      omega
  rw [version, huser]
  rfl

/-! ### Attempts -/

/-- What happens to a database that is not opened. -/
inductive UpgradeOp where
  | openStore (fault : Option OpenFault)
  | removeFile (path : String)

namespace DatabaseDir

def step (fileName : String) (dir : DatabaseDir) : UpgradeOp → DatabaseDir
  | .openStore fault => (dir.openStore fileName fault).1
  | .removeFile path => { dir with files := dir.files.erase path }

/-- Every attempt fails. -/
def Fails (fileName : String) (dir : DatabaseDir) : UpgradeOp → Prop
  | .openStore fault => (dir.openStore fileName fault).2 ≠ .ok ()
  | .removeFile _ => True

instance decidableFails (fileName : String) (dir : DatabaseDir) :
    ∀ op, Decidable (dir.Fails fileName op)
  | .openStore fault => inferInstanceAs (Decidable ((dir.openStore fileName fault).2 ≠ .ok ()))
  | .removeFile _ => inferInstanceAs (Decidable True)

/-- **A failed upgrade leaves the database as it was, and its backup.**  After any failed
attempts, a later open of the database, as it is or repaired so that it can be upgraded,
upgrades it and succeeds exactly if the name of the backup is free; a first open, in a directory
without such a file, does. -/
theorem reopen_after_failure (fileName : String) (dir : DatabaseDir) (db : DatabaseFile)
    (hdb : dir.database = some db) (ops : List UpgradeOp)
    (h : Along (step fileName) (Fails fileName) dir ops) :
    (run (step fileName) dir ops).database = some db ∧
    ∀ repaired upgraded : DatabaseFile, repaired.version = 4 ∨ repaired.version = 5 →
      repaired.upgrade = .ok upgraded →
      upgraded.version = schemaVersion ∧
      (migrationBackupPath fileName repaired.version schemaVersion ∉ dir.files →
        ∃ fresh, { dir with database := some repaired }.openStore fileName none = (fresh, .ok ()) ∧
          fresh.database = some upgraded) ∧
      ((∃ opened, { run (step fileName) dir ops with database := some repaired }.openStore
          fileName none = (opened, .ok ()) ∧ opened.database = some upgraded) ↔
        migrationBackupPath fileName repaired.version schemaVersion ∉
          (run (step fileName) dir ops).files) := by
  have hdatabase : (run (step fileName) dir ops).database = some db := by
    refine h.invariant (fun dir => dir.database = some db) (fun dir op hop hdir => ?_) hdb
    cases op with
    | removeFile path => exact hdir
    | openStore fault =>
      cases hresult : (dir.openStore fileName fault).2 with
      | ok value => exact absurd hresult hop
      | error error => exact openStore_error hdir hresult
  refine ⟨hdatabase, fun repaired upgraded hversion hupgrade => ?_⟩
  refine ⟨DatabaseFile.version_upgrade hversion hupgrade, fun hfree => ?_, ?_⟩
  · rw [openStore_upgradable hversion hupgrade, if_neg hfree]
    exact ⟨_, rfl, rfl⟩
  · rw [openStore_upgradable hversion hupgrade]
    split_ifs with htaken
    · exact iff_of_false (by simp) (not_not.mpr htaken)
    · exact iff_of_true ⟨_, rfl, rfl⟩ htaken

section Examples

def versionFiveFile : DatabaseFile :=
  { userVersion := 5, schemaMigrations := some [5, 4], usageTables := .byDay }

def versionFive : DatabaseDir := { database := some versionFiveFile }

/-- **The backup of a failed attempt stands in the way.**  The transaction fails once; the next
attempt, with nothing wrong any more, finds the backup and fails too, and the database stays as
it is.  Without the first attempt it would have been upgraded. -/
theorem failed_upgrade_blocks_open :
    let failed := versionFive.openStore "agent.db" (some .transaction)
    let again := failed.1.openStore "agent.db" none
    failed.2 = .error .database ∧
    again.2 = .error (.destinationExists "agent.db.pre-v5-to-v6.backup") ∧
    again.1.database.map DatabaseFile.version = some 5 ∧
    (versionFive.openStore "agent.db" none).2 = .ok () ∧
    (versionFive.openStore "agent.db" none).1.database.map DatabaseFile.version = some 6 := by
  decide +kernel

/-- With the backup taken away, the database is upgraded. -/
theorem reopen_after_failure_removed :
    let ops := [.openStore (some .transaction), .openStore none,
      .removeFile "agent.db.pre-v5-to-v6.backup"]
    ∃ opened, { run (step "agent.db") versionFive ops with
        database := some versionFiveFile }.openStore "agent.db" none = (opened, .ok ()) ∧
      opened.database.map DatabaseFile.version = some 6 := by
  obtain ⟨-, hopens⟩ := reopen_after_failure "agent.db" versionFive versionFiveFile rfl
    [.openStore (some .transaction), .openStore none, .removeFile "agent.db.pre-v5-to-v6.backup"]
    (by decide +kernel)
  obtain ⟨hversion, -, hiff⟩ := hopens versionFiveFile _ (.inr rfl) rfl
  obtain ⟨opened, hopened, hdatabase⟩ := hiff.mpr (by decide +kernel)
  exact ⟨opened, hopened, by rw [hdatabase, Option.map_some, hversion]; rfl⟩

end Examples

end DatabaseDir
end PersonalAgent.Storage
