import LinkRegistry.StorageError

/-!
# What can stop a migration

The failures that end a migration, or keep it from beginning.
-/

namespace LinkRegistry

/-- The version of the layout of a store. -/
abbrev SchemaVersion := UInt32

/-- What is wrong with a configuration. -/
inductive ConfigFault
  /-- There is no file to read. -/
  | missing
  /-- The text is no configuration. -/
  | malformed
  | unknownBackend (name : String)
  deriving DecidableEq, Repr

/-- Why a migration fails. -/
inductive MigrationError
  | storage (cause : StorageError)
  /-- A record cannot be read. -/
  | record (key : Bytes) (cause : LinkError)
  /-- Two writes of a migration meet at a key. -/
  | keyCollision (key : Bytes)
  /-- No step leads on from a version. -/
  | versionGap (expected found : SchemaVersion)
  /-- A version lies beyond the last that the steps reach. -/
  | unknownVersion (version latest : SchemaVersion)
  | config (fault : ConfigFault)
  /-- The file system refuses. -/
  | fileSystem

def ConfigFault.message : ConfigFault → String
  | .missing => "failed to read config file"
  | .malformed => "failed to parse config file"
  | .unknownBackend name =>
    s!"unknown storage backend '{name}', expected 'memory' or 'sqlite'"

def MigrationError.message : MigrationError → String
  | .storage cause => s!"storage error: {cause.message}"
  | .record key cause => s!"unreadable record at {Key.display key}: {cause.message}"
  | .keyCollision key => s!"key collision at {Key.display key}"
  | .versionGap expected found =>
    s!"no migration step from schema v{expected.toNat} (next step starts at v{found.toNat})"
  | .unknownVersion version latest =>
    s!"schema v{version.toNat} is newer than the latest known v{latest.toNat}"
  | .config fault => s!"config error: {fault.message}"
  | .fileSystem => "io error"

end LinkRegistry
