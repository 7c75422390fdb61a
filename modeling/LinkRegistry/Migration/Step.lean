import LinkRegistry.Migration.Pass
import LinkRegistry.Binary.Codec

/-!
# Steps

A step leads a store from one schema version to the next. All its passes are planned against the
store as it stood before the step, and they must agree: no pass takes away what an earlier one
writes, and what two of them write at one key is equal. The step lands as one batch, which ends
with the new version.
-/

namespace LinkRegistry.Migration

/-- A named transition between two schema versions. -/
structure Step where
  name : String
  source : SchemaVersion
  target : SchemaVersion
  passes : List Pass

/-- What a step did. -/
structure StepReport where
  name : String
  source : SchemaVersion
  target : SchemaVersion
  passes : List PassReport
  deriving DecidableEq, Repr

/-- The records that the passes of a step visited. -/
def StepReport.visited (report : StepReport) : Nat :=
  report.passes.foldl (fun visited pass => visited + pass.visited) 0

/-- The records that the passes of a step dropped. -/
def StepReport.dropped (report : StepReport) : Nat :=
  report.passes.foldl (fun dropped pass => dropped + pass.dropped) 0

/-- The joined writes of the passes of a step, the last first. -/
structure Merger where
  written : List Entry
  removed : List Bytes

/-- Joins one write of a pass to those before it. -/
def Merger.add (merger : Merger) : Store.Change → Except MigrationError Merger
  | .delete key =>
    if (Store.lookup key merger.written).isSome then .error (.keyCollision key)
    else if merger.removed.contains key then .ok merger
    else .ok { merger with removed := key :: merger.removed }
  | .put key value =>
    match Store.lookup key merger.written with
    | some existing => if existing = value then .ok merger else .error (.keyCollision key)
    | none => .ok { merger with written := (key, value) :: merger.written }

/-- The batch of a step: what is deleted, then what is written. -/
def Merger.changes (merger : Merger) : List Store.Change :=
  merger.removed.reverse.map .delete ++
    merger.written.reverse.map fun entry => .put entry.1 entry.2

/-- Plans one pass and joins its writes. -/
def Merger.addPass (store : Store) (state : Merger × List PassReport) (pass : Pass) :
    Except MigrationError (Merger × List PassReport) := do
  let (changes, report) ← pass.plan store
  let merger ← changes.foldlM Merger.add state.1
  .ok (merger, state.2 ++ [report])

/-- The batch of all passes of a step, without the new version, and their reports. -/
def Step.plan (step : Step) (store : Store) :
    Except MigrationError (List Store.Change × List PassReport) := do
  let (merger, reports) ← step.passes.foldlM (Merger.addPass store) (⟨[], []⟩, [])
  .ok (merger.changes, reports)

def versionBytes (version : SchemaVersion) : Bytes := Binary.Codec.word32.write version

/-- The store after a step, and its report. -/
def Step.run (step : Step) (store : Store) : Except MigrationError (Store × StepReport) := do
  let (changes, reports) ← step.plan store
  .ok
    (store.apply (changes ++ [.put Key.schemaVersion (versionBytes step.target)]),
      ⟨step.name, step.source, step.target, reports⟩)

end LinkRegistry.Migration
