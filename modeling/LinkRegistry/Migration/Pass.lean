import LinkRegistry.Migration.Error
import LinkRegistry.Store.Basic

/-!
# Passes

A pass goes through every record under one lead of keys. Each is decided on its own: it is
dropped, or kept at a key with a value and index entries beside it. The writes of a pass are
planned against the store as it stands, and records and index entries must not fall on one another
or on what the store already holds.
-/

namespace LinkRegistry.Migration

/-- What a pass decides for one record. -/
inductive Outcome
  /-- Write a value at a key, and index entries; the record leaves its old key. -/
  | keep (key value : Bytes) (index : List Entry)
  /-- Delete the record. -/
  | drop (reason : String)
  deriving DecidableEq, Repr

/-- What is done with the records under a lead. -/
structure Pass where
  name : String
  /-- The lead of the keys of the records. -/
  scope : Bytes
  transform : Bytes → Bytes → Except MigrationError Outcome

/-- What a pass did. -/
structure PassReport where
  name : String
  scope : Bytes
  visited : Nat
  kept : Nat
  dropped : Nat
  indexEntries : Nat
  deriving DecidableEq, Repr

/-- A record's key and what was decided for it. -/
abbrev Decision := Bytes × Outcome

/-- Decides every record under a pass's scope. The first failure ends it. -/
def Pass.decide (pass : Pass) (store : Store) : Except MigrationError (List Decision) :=
  (store.scan pass.scope).mapM fun entry =>
    (pass.transform entry.1 entry.2).map (entry.1, ·)

/-! ## Planning -/

/-- The writes planned so far. -/
structure Draft where
  /-- The keys that records are kept at. -/
  destinations : List Bytes
  /-- The index entries, each key once. -/
  index : List Entry
  /-- The keys that records leave. -/
  deletes : List Bytes
  /-- The entries to be written, the last first. -/
  puts : List Entry
  kept : Nat
  dropped : Nat

def Draft.empty : Draft := ⟨[], [], [], [], 0, 0⟩

def Draft.indexValue? (draft : Draft) (key : Bytes) : Option Bytes := Store.lookup key draft.index

/-- Whether the store holds something at a key that no visited record is leaving. -/
def heldApart (store : Store) (sources : List Bytes) (key : Bytes) : Option Bytes :=
  if sources.contains key then none else store.get? key

/-- Plans an index entry. It may meet an equal one, and nothing else. -/
def Draft.addIndex (store : Store) (sources : List Bytes) (draft : Draft) (entry : Entry) :
    Except MigrationError Draft :=
  if draft.destinations.contains entry.1 then .error (.keyCollision entry.1)
  else
    match draft.indexValue? entry.1 with
    | some existing =>
      if existing = entry.2 then .ok draft else .error (.keyCollision entry.1)
    | none =>
      match heldApart store sources entry.1 with
      | some existing =>
        if existing = entry.2 then
          .ok { draft with index := entry :: draft.index, puts := entry :: draft.puts }
        else .error (.keyCollision entry.1)
      | none => .ok { draft with index := entry :: draft.index, puts := entry :: draft.puts }

/-- Plans the decision for one record. -/
def Draft.add (store : Store) (sources : List Bytes) (draft : Draft) (decision : Decision) :
    Except MigrationError Draft :=
  match decision.2 with
  | .drop _ =>
    .ok { draft with deletes := decision.1 :: draft.deletes, dropped := draft.dropped + 1 }
  | .keep key value index =>
    if draft.destinations.contains key || (draft.indexValue? key).isSome
        || (heldApart store sources key).isSome then
      .error (.keyCollision key)
    else
      index.foldlM (Draft.addIndex store sources)
        { draft with
          destinations := key :: draft.destinations
          deletes := if key = decision.1 then draft.deletes else decision.1 :: draft.deletes
          puts := (key, value) :: draft.puts
          kept := draft.kept + 1 }

/-- The batch of a draft: what is deleted, then what is written. -/
def Draft.changes (draft : Draft) : List Store.Change :=
  draft.deletes.reverse.map .delete ++ draft.puts.reverse.map fun entry => .put entry.1 entry.2

/-- Plans all decisions of a pass. -/
def draftOf (store : Store) (decisions : List Decision) : Except MigrationError Draft :=
  decisions.foldlM (Draft.add store (decisions.map (·.1))) Draft.empty

/-- The report of a pass on a draft. -/
def Pass.report (pass : Pass) (decisions : List Decision) (draft : Draft) : PassReport where
  name := pass.name
  scope := pass.scope
  visited := decisions.length
  kept := draft.kept
  dropped := draft.dropped
  indexEntries := draft.index.length

/-- The batch that a pass would write and its report. Nothing is written. -/
def Pass.plan (pass : Pass) (store : Store) :
    Except MigrationError (List Store.Change × PassReport) := do
  let decisions ← pass.decide store
  let draft ← draftOf store decisions
  .ok (draft.changes, pass.report decisions draft)

/-- The store after a pass, and its report. -/
def Pass.run (pass : Pass) (store : Store) : Except MigrationError (Store × PassReport) :=
  (pass.plan store).map fun (changes, report) => (store.apply changes, report)

end LinkRegistry.Migration
