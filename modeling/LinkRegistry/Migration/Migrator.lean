import LinkRegistry.Migration.Step

/-!
# Migrators

A migrator runs its steps in order up to a target version. The version of a store stands under a
key of its own; a store without one is at the first version.
-/

namespace LinkRegistry.Migration

/-- The version of a store that carries none. -/
def baseVersion : SchemaVersion := 1

/-- The version of a store. -/
def currentVersion (store : Store) : Except MigrationError SchemaVersion :=
  match store.get? Key.schemaVersion with
  | none => .ok baseVersion
  | some bytes =>
    match Binary.Codec.word32.decode bytes with
    | .ok version => .ok version
    | .error error => .error (.storage (.deserialization (.schemaVersion error)))

/-- Steps in the order they are run in. -/
structure Migrator where
  steps : List Step

/-- The version that the last step reaches. -/
def Migrator.latest (migrator : Migrator) : SchemaVersion :=
  match migrator.steps.getLast? with
  | some step => step.target
  | none => baseVersion

/-- Runs the pending steps up to a target, from a store at a version. Steps that were passed are
skipped, and the next must start at the version reached. What was run stays, also if a later step
fails. -/
def runSteps (target : SchemaVersion) (store : Store) (current : SchemaVersion) :
    List Step → Store × Except MigrationError (List StepReport)
  | [] =>
    (store, if current < target then .error (.versionGap current target) else .ok [])
  | step :: rest =>
    if target ≤ current || target < step.target then
      (store, if current < target then .error (.versionGap current target) else .ok [])
    else if step.target ≤ current then runSteps target store current rest
    else if step.source ≠ current || step.target ≤ step.source then
      (store, .error (.versionGap current step.source))
    else
      match step.run store with
      | .error error => (store, .error error)
      | .ok (next, report) =>
        let (final, outcome) := runSteps target next step.target rest
        (final, outcome.map (report :: ·))

/-- Runs every pending step up to a target: the store after them, and their reports or why they
stopped. -/
def Migrator.runTo (migrator : Migrator) (target : SchemaVersion) (store : Store) :
    Store × Except MigrationError (List StepReport) :=
  if migrator.latest < target then (store, .error (.unknownVersion target migrator.latest))
  else
    match currentVersion store with
    | .error error => (store, .error error)
    | .ok current =>
      if migrator.latest < current then (store, .error (.unknownVersion current migrator.latest))
      else runSteps target store current migrator.steps

/-- Runs every pending step. -/
def Migrator.run (migrator : Migrator) (store : Store) :
    Store × Except MigrationError (List StepReport) :=
  migrator.runTo migrator.latest store

end LinkRegistry.Migration
