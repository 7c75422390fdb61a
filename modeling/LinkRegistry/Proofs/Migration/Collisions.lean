import Mathlib.Data.Set.Card
import LinkRegistry.Proofs.Migration.Planning

/-!
# What a pass cannot plan, and what it leaves

The plan of a pass goes through its records one by one, and a record or an index entry is refused
if it meets one that went before or what the store holds. Whether one is refused does not depend
on the order: a pass that can decide all its records fails exactly if two of its writes meet, or
one meets what the store holds at a key that the pass does not visit. If it does not fail, each key
has what is kept there, or else what is indexed there, or else nothing if it was visited, and else
what it had. Main statement, `Pass.plan_of_decides`.
-/

namespace LinkRegistry.Migration

/-- A pass goes through the record at a key. -/
def Pass.Visits (pass : Pass) (store : Store) (key : Bytes) : Prop :=
  pass.scope <+: key ∧ ∃ content, store.get? key = some content

/-- Two writes of a pass meet at a key, or one meets what is held at a key that is not visited. -/
inductive Pass.Collides (pass : Pass) (store : Store) : Prop
  | records {first second key value other : Bytes} {index more : List Entry}
      (one : pass.Decides store first (.keep key value index))
      (two : pass.Decides store second (.keep key other more)) (differ : first ≠ second)
  | recordOnIndex {key value other : Bytes} (kept : pass.Keeps store (key, value))
      (indexes : pass.Indexes store (key, other))
  | indexes {key value other : Bytes} (one : pass.Indexes store (key, value))
      (two : pass.Indexes store (key, other)) (differ : value ≠ other)
  | recordOnHeld {key value held : Bytes} (kept : pass.Keeps store (key, value))
      (unvisited : ¬ pass.Visits store key) (found : store.get? key = some held)
  | indexOnHeld {key value held : Bytes} (indexes : pass.Indexes store (key, value))
      (unvisited : ¬ pass.Visits store key) (found : store.get? key = some held)
      (differ : held ≠ value)

/-- What a key has after a pass. -/
inductive Pass.Results (pass : Pass) (store : Store) (key : Bytes) : Option Bytes → Prop
  | record {value : Bytes} (kept : pass.Keeps store (key, value)) :
      Results pass store key (some value)
  | index {value : Bytes} (unkept : ∀ other, ¬ pass.Keeps store (key, other))
      (indexes : pass.Indexes store (key, value)) : Results pass store key (some value)
  | vacated (unkept : ∀ other, ¬ pass.Keeps store (key, other))
      (unindexed : ∀ other, ¬ pass.Indexes store (key, other)) (visited : pass.Visits store key) :
      Results pass store key none
  | untouched (unkept : ∀ other, ¬ pass.Keeps store (key, other))
      (unindexed : ∀ other, ¬ pass.Indexes store (key, other))
      (unvisited : ¬ pass.Visits store key) : Results pass store key (store.get? key)

/-- The numbers of a report are those of the keys that a pass visits, keeps records at and puts
index entries at. -/
structure Pass.Tallies (pass : Pass) (store : Store) (report : PassReport) : Prop where
  visited : {key | pass.Visits store key}.encard = report.visited
  divided : report.visited = report.kept + report.dropped
  kept : {key | ∃ value, pass.Keeps store (key, value)}.encard = report.kept
  indexed : {key | ∃ value, pass.Indexes store (key, value)}.encard = report.indexEntries

variable {pass : Pass} {store : Store}

/-! ## Collisions -/

theorem Outcome.record?_eq_some_iff {outcome : Outcome} {entry : Entry} :
    outcome.record? = some entry ↔ ∃ index, outcome = .keep entry.1 entry.2 index := by
  cases outcome <;> simp [Outcome.record?, Prod.ext_iff, eq_comm]

theorem Draft.eq_keyCollision_of_addIndex {sources : List Bytes} {draft : Draft} {entry : Entry}
    {error : MigrationError} (failed : Draft.addIndex store sources draft entry = .error error) :
    error = .keyCollision entry.1 := by
  rw [addIndex] at failed
  split at failed
  · exact (Except.error.inj failed).symm
  · split at failed
    · split at failed
      · cases failed
      · exact (Except.error.inj failed).symm
    · split at failed
      · split at failed
        · cases failed
        · exact (Except.error.inj failed).symm
      · cases failed

theorem eq_keyCollision_of_draftOf {decisions : List Decision} {error : MigrationError}
    (failed : draftOf store decisions = .error error) : ∃ key, error = .keyCollision key := by
  obtain ⟨⟨source, outcome⟩, -, draft, here⟩ := exists_of_foldlM_eq_error failed
  cases outcome with
  | drop reason => cases here
  | keep key value index =>
    simp only [Draft.add] at here
    split at here
    · exact ⟨key, (Except.error.inj here).symm⟩
    · obtain ⟨entry, -, state, there⟩ := exists_of_foldlM_eq_error here
      exact ⟨entry.1, Draft.eq_keyCollision_of_addIndex there⟩

section

variable (decides : ∀ source content, pass.scope <+: source → store.get? source = some content →
  ∃ outcome, pass.transform source content = .ok outcome)
include decides

theorem Pass.fits_iff_not_collides : pass.Fits store ↔ ¬ pass.Collides store := by
  constructor
  · intro fits collides
    cases collides with
    | records one two differ => exact differ (fits.distinct _ _ _ _ _ one two rfl rfl)
    | recordOnIndex kept indexes => exact fits.apart _ _ kept indexes rfl
    | indexes one two differ => exact differ (Prod.mk.inj (fits.agree _ _ one two rfl)).2
    | recordOnHeld kept unvisited found =>
      have outside : ¬ pass.scope <+: _ := fun under => unvisited ⟨under, _, found⟩
      rw [fits.fresh _ kept outside] at found
      cases found
    | indexOnHeld indexes unvisited found differ =>
      have outside : ¬ pass.scope <+: _ := fun under => unvisited ⟨under, _, found⟩
      exact differ (fits.same _ indexes outside _ found)
  · -- Each part of fitting fails by one way to collide.
    intro free
    constructor
    case decides => exact decides
    case distinct =>
      intro first second one two key firstDecided secondDecided kept also
      obtain ⟨⟨key, value⟩, found, rfl⟩ := Option.map_eq_some_iff.1 kept
      obtain ⟨⟨_, other⟩, there, rfl⟩ := Option.map_eq_some_iff.1 also
      obtain ⟨index, rfl⟩ := Outcome.record?_eq_some_iff.1 found
      obtain ⟨more, rfl⟩ := Outcome.record?_eq_some_iff.1 there
      by_contra differ
      exact free (.records firstDecided secondDecided differ)
    case apart =>
      rintro ⟨key, value⟩ ⟨_, other⟩ kept indexes rfl
      exact free (.recordOnIndex kept indexes)
    case agree =>
      rintro ⟨key, value⟩ ⟨_, other⟩ one two rfl
      by_contra differ
      exact free (.indexes one two fun same => differ (same ▸ rfl))
    case fresh =>
      rintro ⟨key, value⟩ kept outside
      rw [Option.eq_none_iff_forall_ne_some]
      intro held found
      exact free (.recordOnHeld kept (fun visited => outside visited.1) found)
    case same =>
      rintro ⟨key, value⟩ indexes outside held found
      by_contra differ
      exact free (.indexOnHeld indexes (fun visited => outside visited.1) found differ)

theorem Pass.eq_keyCollision_of_plan {error : MigrationError}
    (failed : pass.plan store = .error error) : ∃ key, error = .keyCollision key := by
  obtain ⟨decisions, decided⟩ := Pass.exists_decide decides
  rcases bind_eq_error_iff.1 failed with undecided | ⟨own, -, later⟩
  · cases decided.symm.trans undecided
  · -- Every record was decided for, so it was the draft that failed.
    rcases bind_eq_error_iff.1 later with undrafted | ⟨draft, -, built⟩
    · exact eq_keyCollision_of_draftOf undrafted
    · cases built

theorem Pass.exists_plan_eq_error_iff :
    (∃ error, pass.plan store = .error error) ↔ pass.Collides store := by
  rw [← not_iff_not, ← Pass.fits_iff_not_collides decides, ← Pass.exists_plan_iff]
  cases pass.plan store <;> simp

end

/-! ## What is left at a key -/

theorem Pass.exists_results (pass : Pass) (store : Store) (key : Bytes) :
    ∃ held, pass.Results store key held := by
  by_cases kept : ∃ value, pass.Keeps store (key, value)
  · obtain ⟨value, kept⟩ := kept
    exact ⟨_, .record kept⟩
  · rw [not_exists] at kept
    by_cases indexed : ∃ value, pass.Indexes store (key, value)
    · obtain ⟨value, indexes⟩ := indexed
      exact ⟨_, .index kept indexes⟩
    · rw [not_exists] at indexed
      by_cases visited : pass.Visits store key
      · exact ⟨_, .vacated kept indexed visited⟩
      · exact ⟨_, .untouched kept indexed visited⟩

section

variable {changes : List Store.Change} {report : PassReport}
  (planned : pass.plan store = .ok (changes, report))
include planned

theorem Pass.get?_apply_of_results {key : Bytes} {held : Option Bytes}
    (results : pass.Results store key held) : (store.apply changes).get? key = held := by
  have ⟨decides, _, leaves, _⟩ := Pass.planned planned
  obtain ⟨decisions, draft, decided, drafted, rfl, -⟩ := Pass.plan_eq_ok_iff.1 planned
  have plans := plans_of_draftOf drafted
  have written (value : Bytes) : Store.lookup key draft.puts = some value
      ↔ pass.Keeps store (key, value) ∨ pass.Indexes store (key, value) := by
    rw [Store.lookup_eq_some_iff_of_unique plans.puts_unique, plans.puts,
      Pass.mem_records_iff decided, Pass.mem_indexed_iff decided]
  have unwritten (unkept : ∀ other, ¬ pass.Keeps store (key, other))
      (unindexed : ∀ other, ¬ pass.Indexes store (key, other)) :
      Store.lookup key draft.puts = none := by
    rw [Option.eq_none_iff_forall_ne_some]
    intro value found
    exact ((written value).1 found).elim (unkept value) (unindexed value)
  simp only [Draft.delete_mem_changes_iff] at leaves
  rw [Draft.changes, Store.get?_apply_batch]
  cases results with
  | record kept => rw [(written _).2 (.inl kept), Option.some_or]
  | index unkept indexes => rw [(written _).2 (.inr indexes), Option.some_or]
  | vacated unkept unindexed visited =>
    -- The record of a visited key is dropped or kept elsewhere, for no record is kept here.
    have gone : key ∈ draft.deletes := by
      obtain ⟨under, content, found⟩ := visited
      obtain ⟨outcome, transformed⟩ := decides key content under found
      refine (leaves key).2 ⟨outcome, ⟨under, content, found, transformed⟩, ?_⟩
      rintro ⟨_, value⟩ kept rfl
      exact unkept value ⟨_, outcome, ⟨under, content, found, transformed⟩, kept⟩
    rw [unwritten unkept unindexed, if_pos gone, Option.none_or]
  | untouched unkept unindexed unvisited =>
    have stays : key ∉ draft.deletes := by
      intro gone
      obtain ⟨outcome, ⟨under, content, found, -⟩, -⟩ := (leaves key).1 gone
      exact unvisited ⟨under, content, found⟩
    rw [unwritten unkept unindexed, if_neg stays, Option.none_or]

theorem Pass.get?_apply_eq_iff {key : Bytes} {held : Option Bytes} :
    (store.apply changes).get? key = held ↔ pass.Results store key held := by
  constructor
  · intro found
    obtain ⟨left, results⟩ := pass.exists_results store key
    rw [Pass.get?_apply_of_results planned results] at found
    exact found ▸ results
  · exact Pass.get?_apply_of_results planned

end

/-! ## Counts -/

/-- A draft has each index key once, however many entries ask for it. -/
theorem nodup_index_of_draftOf {decisions : List Decision} {draft : Draft}
    (drafted : draftOf store decisions = .ok draft) : (draft.index.map (·.1)).Nodup := by
  -- Two nested loops, over the decisions and over the entries of each, keep the same invariant.
  refine foldlM_eq_ok_induction (fun _ state => (state.index.map (·.1)).Nodup)
    (fun _ decision state next distinct added => ?_) drafted .nil
  obtain ⟨source, outcome⟩ := decision
  cases outcome with
  | drop reason =>
    obtain rfl := Except.ok.inj added
    exact distinct
  | keep key value index =>
    obtain ⟨-, -, -, folded⟩ := Draft.add_keep_eq_ok added
    refine foldlM_eq_ok_induction (fun _ state => (state.index.map (·.1)).Nodup)
      (fun _ entry before after holds here => ?_) folded distinct
    obtain ⟨-, ⟨-, rfl⟩ | ⟨new, -, rfl⟩⟩ := Draft.addIndex_eq_ok here
    · exact holds
    · apply List.nodup_cons.2
      refine ⟨fun member => ?_, holds⟩
      obtain ⟨other, among, same⟩ := List.mem_map.1 member
      exact new other among same

private theorem encard_of_mem_iff {keys : List Bytes} {holds : Bytes → Prop}
    (distinct : keys.Nodup) (mem_iff : ∀ key, key ∈ keys ↔ holds key) :
    {key | holds key}.encard = keys.length := by
  have same : {key | holds key} = (keys.toFinset : Set Bytes) := by
    ext key
    simp [mem_iff]
  rw [same, Set.encard_coe_eq_coe_finsetCard, List.toFinset_card_of_nodup distinct]

theorem Pass.tallies {changes : List Store.Change} {report : PassReport}
    (planned : pass.plan store = .ok (changes, report)) : pass.Tallies store report := by
  obtain ⟨decisions, draft, decided, drafted, -, rfl⟩ := Pass.plan_eq_ok_iff.1 planned
  have ⟨kept, all⟩ := counts_of_draftOf drafted
  -- Each count is the length of a list of keys without repetitions, so it is that of a set.
  constructor
  case visited =>
    have visits (key : Bytes) :
        key ∈ (store.scan pass.scope).map (·.1) ↔ pass.Visits store key := by
      simp [Pass.Visits, Store.mem_scan_iff]
    rw [encard_of_mem_iff (store.nodup_keys_scan _) visits, ← Pass.map_fst_decide decided,
      List.length_map, report]
  case divided => exact all.symm
  case kept =>
    have keeps (key : Bytes) :
        key ∈ (records decisions).map (·.1) ↔ ∃ value, pass.Keeps store (key, value) := by
      simp [Pass.mem_records_iff decided]
    rw [encard_of_mem_iff (plans_of_draftOf drafted).distinct keeps, List.length_map, ← kept,
      report]
  case indexed =>
    have indexes (key : Bytes) :
        key ∈ draft.index.map (·.1) ↔ ∃ value, pass.Indexes store (key, value) := by
      simp [(plans_of_draftOf drafted).index, Pass.mem_indexed_iff decided]
    rw [encard_of_mem_iff (nodup_index_of_draftOf drafted) indexes, List.length_map, report]

/-! ## Plans -/

/-- A pass that can decide each record under its scope fails exactly if it collides, and then by a
key collision. What it plans otherwise leaves at each key what the pass results in there, and its
report counts the keys. -/
theorem Pass.plan_of_decides
    (decides : ∀ source content, pass.scope <+: source → store.get? source = some content →
      ∃ outcome, pass.transform source content = .ok outcome) :
    ((∃ error, pass.plan store = .error error) ↔ pass.Collides store)
      ∧ (∀ error, pass.plan store = .error error → ∃ key, error = .keyCollision key)
      ∧ ∀ changes report, pass.plan store = .ok (changes, report) →
        (∀ key held, (store.apply changes).get? key = held ↔ pass.Results store key held)
          ∧ pass.Tallies store report := by
  refine ⟨Pass.exists_plan_eq_error_iff decides, ?_, ?_⟩
  · intro error failed
    exact Pass.eq_keyCollision_of_plan decides failed
  · intro changes report planned
    exact ⟨fun key held => Pass.get?_apply_eq_iff planned, Pass.tallies planned⟩

/-- Two records that change places, and a third that makes room for an index entry. -/
def exchanging : Pass where
  name := "exchange"
  scope := [1]
  transform key value :=
    if key = [1, 0] then .ok (.keep [1, 1] value [([1, 2], [9])])
    else if key = [1, 1] then .ok (.keep [1, 0] value [([1, 2], [9]), ([2], [5])])
    else .ok (.drop "room")

def exchangeable : Store :=
  (((Store.empty.insert [1, 0] [3]).insert [1, 1] [4]).insert [1, 2] [6]).insert [2] [5]

theorem Pass.plan_of_decides_exchanging :
    (∀ source content, exchanging.scope <+: source → exchangeable.get? source = some content →
        ∃ outcome, exchanging.transform source content = .ok outcome)
      ∧ ¬ exchanging.Collides exchangeable
      ∧ exchanging.Results exchangeable [1, 0] (some [4])
      ∧ exchanging.Results exchangeable [1, 2] (some [9])
      ∧ exchanging.Tallies exchangeable ⟨"exchange", [1], 3, 2, 1, 2⟩ := by
  have decides : ∀ source content, exchanging.scope <+: source →
      exchangeable.get? source = some content →
      ∃ outcome, exchanging.transform source content = .ok outcome := by
    intro source content _ _
    simp only [exchanging]
    split
    · exact ⟨_, rfl⟩
    · split <;> exact ⟨_, rfl⟩
  have planned : exchanging.plan exchangeable
      = .ok ([.delete [1, 0], .delete [1, 1], .delete [1, 2], .put [1, 1] [3], .put [1, 2] [9],
          .put [1, 0] [4], .put [2] [5]], ⟨"exchange", [1], 3, 2, 1, 2⟩) := by rfl
  have ⟨fails, _, lands⟩ := Pass.plan_of_decides decides
  have ⟨results, tallies⟩ := lands _ _ planned
  refine ⟨decides, ?_, (results _ _).1 rfl, (results _ _).1 rfl, tallies⟩
  intro collides
  obtain ⟨error, failed⟩ := fails.2 collides
  rw [planned] at failed
  cases failed

end LinkRegistry.Migration
