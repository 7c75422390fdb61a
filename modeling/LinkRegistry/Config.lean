import LinkRegistry.Migration.Standard
import LinkRegistry.Store.Backend
import LinkRegistry.Toml.Parser

/-!
# Configuration

What a migration is told: the version to reach, the store to open and how much to log. It is read
from a TOML document, in which unknown keys are passed over.
-/

namespace LinkRegistry

/-- The kind of a store by name, and where its database lies. -/
structure StorageConfig where
  kind : String
  path : String
  deriving DecidableEq, Repr

/-- How much is logged. -/
structure LoggingConfig where
  level : String
  deriving DecidableEq, Repr

/-- What a migration is told. Without a target it leads to the latest version. -/
structure MigrationConfig where
  target : Option SchemaVersion
  storage : StorageConfig
  logging : LoggingConfig
  deriving DecidableEq, Repr

/-- Where a database lies unless a configuration says otherwise. -/
def StorageConfig.standardPath : String := "xlink.db"

/-- The configuration of a store in memory. -/
def MigrationConfig.standard : MigrationConfig where
  target := none
  storage := ⟨"memory", StorageConfig.standardPath⟩
  logging := ⟨"info"⟩

/-! ## Reading -/

/-- The text that a value is. -/
def Toml.Value.text? : Toml.Value → Option String
  | .text content => some content
  | _ => none

/-- The schema version that a value is. -/
def Toml.Value.version? : Toml.Value → Option SchemaVersion
  | .integer number =>
    if 0 ≤ number && number < 0x100000000 then some (UInt32.ofNat number.toNat) else none
  | _ => none

/-- The values of named fields, by name in a table or by place in an array. -/
def Toml.Value.fields? (names : List String) : Toml.Value → Option (List (Option Toml.Value))
  | .table members => some (names.map fun name => members.lookup name)
  | .array items => some ((List.range names.length).map (items[·]?))
  | _ => none

def StorageConfig.ofValue? (value : Toml.Value) : Option StorageConfig :=
  match value.fields? ["db_type", "path"] with
  | some [some kind, none] => do some ⟨← kind.text?, standardPath⟩
  | some [some kind, some path] => do some ⟨← kind.text?, ← path.text?⟩
  | _ => none

def LoggingConfig.ofValue? (value : Toml.Value) : Option LoggingConfig :=
  match value.fields? ["level"] with
  | some [some level] => level.text?.map LoggingConfig.mk
  | _ => none

def MigrationConfig.ofText? (text : String) : Option MigrationConfig := do
  let members ← Toml.parse? text
  let target ←
    match members.lookup "target_version" with
    | some value => value.version?.map some
    | none => some none
  let storage ← members.lookup "storage"
  let logging ← members.lookup "logging"
  some ⟨target, ← StorageConfig.ofValue? storage, ← LoggingConfig.ofValue? logging⟩

def MigrationConfig.ofText (text : String) : Except ConfigFault MigrationConfig :=
  match ofText? text with
  | some config => .ok config
  | none => .error .malformed

/-- Reads the configuration in a file, given what the file holds, if there is one. -/
def MigrationConfig.ofFile : Option String → Except ConfigFault MigrationConfig
  | some text => ofText text
  | none => .error .missing

/-! ## Opening a store -/

/-- The backend of a kind of store. -/
def Backend.ofKind (kind path : String) : Except ConfigFault Backend :=
  if kind = "memory" then .ok .memory
  else if kind = "sqlite" then .ok (.table path)
  else .error (.unknownBackend kind)

/-- Why no database can be opened at a path, if that is so: the root is a directory, and no
directory can be made below the null device. -/
def obstacle? (path : String) : Option MigrationError :=
  if path = "/" then some (.storage .database)
  else if "/dev/null/".toList.isPrefixOf path.toList then some .fileSystem
  else none

/-- Opens the store of a configuration. -/
def MigrationConfig.openStore (config : MigrationConfig) : Except MigrationError Backend :=
  match Backend.ofKind config.storage.kind config.storage.path with
  | .error fault => .error (.config fault)
  | .ok .memory => .ok .memory
  | .ok (.table path) =>
    match obstacle? path with
    | some error => .error error
    | none => .ok (.table path)

/-- Opens the store of a configuration, which holds what is given, and runs the standard
migrations up to the target. -/
def MigrationConfig.run (config : MigrationConfig) (store : Store) :
    Store × Except MigrationError (List Migration.StepReport) :=
  match config.openStore with
  | .error error => (store, .error error)
  | .ok _ => Migration.standard.runTo (config.target.getD Migration.standard.latest) store

end LinkRegistry
