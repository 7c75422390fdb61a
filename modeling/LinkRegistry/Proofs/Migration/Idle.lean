import LinkRegistry.Proofs.Migration.Agreement
import LinkRegistry.Proofs.Migration.Planning

/-!
# Passes that change nothing

A pass is idle on a store if it keeps each record as it is and indexes only what the store holds
already, apart from the records. Such passes collide with nothing, not even with one another, so
steps made of them succeed, drop nothing and write nothing but their version. Main statement,
`exists_runSteps_of_idle`.
-/

namespace LinkRegistry.Migration

def Pass.Idle (pass : Pass) (store : Store) : Prop :=
  ∀ source content, pass.scope <+: source → store.get? source = some content →
    ∃ index, pass.transform source content = .ok (.keep source content index)
      ∧ ∀ entry ∈ index, ¬ pass.scope <+: entry.1 ∧ store.get? entry.1 = some entry.2

/-! ## Passes -/

namespace Pass.Idle

variable {pass : Pass} {store : Store} (idle : pass.Idle store)
include idle

theorem decides {source : Bytes} {outcome : Outcome} (decides : pass.Decides store source outcome) :
    ∃ content index, store.get? source = some content ∧ outcome = .keep source content index
      ∧ ∀ entry ∈ index, ¬ pass.scope <+: entry.1 ∧ store.get? entry.1 = some entry.2 := by
  obtain ⟨under, content, held, transformed⟩ := decides
  obtain ⟨index, kept, there⟩ := idle source content under held
  exact ⟨content, index, held, Except.ok.inj (transformed.symm.trans kept), there⟩

/-- The records that an idle pass keeps are those that it visits. -/
theorem of_keeps {entry : Entry} (kept : pass.Keeps store entry) :
    pass.scope <+: entry.1 ∧ store.get? entry.1 = some entry.2 := by
  obtain ⟨source, outcome, decides, same⟩ := kept
  obtain ⟨content, index, held, rfl, -⟩ := idle.decides decides
  obtain rfl := Option.some.inj same
  exact ⟨decides.1, held⟩

theorem of_indexes {entry : Entry} (indexes : pass.Indexes store entry) :
    ¬ pass.scope <+: entry.1 ∧ store.get? entry.1 = some entry.2 := by
  obtain ⟨source, outcome, decides, member⟩ := indexes
  obtain ⟨content, index, -, rfl, there⟩ := idle.decides decides
  exact there entry member

theorem get?_of_puts {entry : Entry} (puts : pass.Puts store entry) :
    store.get? entry.1 = some entry.2 := by
  obtain ⟨source, outcome, decides, kept | member⟩ := puts
  · exact (idle.of_keeps ⟨source, outcome, decides, kept⟩).2
  · exact (idle.of_indexes ⟨source, outcome, decides, member⟩).2

theorem not_leaves (source : Bytes) : ¬ pass.Leaves store source := by
  rintro ⟨outcome, decides, away⟩
  obtain ⟨content, index, -, rfl, -⟩ := idle.decides decides
  exact away _ rfl rfl

theorem fits : pass.Fits store := by
  constructor
  case decides =>
    intro source content under held
    obtain ⟨index, kept, -⟩ := idle source content under held
    exact ⟨_, kept⟩
  case distinct =>
    intro first second one two key firstDecided secondDecided kept also
    obtain ⟨_, _, -, rfl, -⟩ := idle.decides firstDecided
    obtain ⟨_, _, -, rfl, -⟩ := idle.decides secondDecided
    exact (Option.some.inj kept).trans (Option.some.inj also).symm
  case apart =>
    -- Records are under the scope, and index entries are not.
    intro record entry kept indexes same
    exact (idle.of_indexes indexes).1 (same ▸ (idle.of_keeps kept).1)
  case agree =>
    rintro ⟨key, value⟩ ⟨other, content⟩ indexes also same
    obtain rfl : key = other := same
    have held := (idle.of_indexes indexes).2.symm.trans (idle.of_indexes also).2
    exact Prod.ext rfl (Option.some.inj held)
  case fresh =>
    intro record kept outside
    exact absurd (idle.of_keeps kept).1 outside
  case same =>
    intro entry indexes _ held found
    exact Option.some.inj (found.symm.trans (idle.of_indexes indexes).2)

theorem exists_plan : ∃ plan, pass.plan store = .ok plan := Pass.exists_plan_iff.2 idle.fits

/-- An idle pass keeps all that it visits. -/
theorem counts {changes : List Store.Change} {report : PassReport}
    (planned : pass.plan store = .ok (changes, report)) :
    report.kept = report.visited ∧ report.dropped = 0 := by
  obtain ⟨decisions, draft, decided, drafted, -, rfl⟩ := Pass.plan_eq_ok_iff.1 planned
  obtain ⟨kept, all⟩ := counts_of_draftOf drafted
  -- No decision is a drop, so there are as many records as decisions.
  have each : ∀ decision ∈ decisions, decision.2.record?.isSome := by
    rintro ⟨source, outcome⟩ member
    obtain ⟨content, index, -, rfl, -⟩ := idle.decides ((Pass.mem_decide_iff decided).1 member)
    rfl
  have whole : (records decisions).length = decisions.length :=
    List.filterMap_length_eq_length.2 each
  have counted : draft.kept = decisions.length := kept.trans whole
  refine ⟨counted, ?_⟩
  change draft.dropped = 0
  omega

end Pass.Idle

/-! ## Steps -/

section Steps

variable {step : Step} {store : Store} {changes : List Store.Change} {reports : List PassReport}
  (idle : ∀ pass ∈ step.passes, pass.Idle store)
include idle

theorem Step.exists_plan_of_idle : ∃ batch, step.plan store = .ok batch := by
  refine Step.exists_plan_iff.2 ⟨fun pass member => (idle pass member).exists_plan, ?_⟩
  refine List.pairwise_of_forall_mem_list fun first one second two => ?_
  intro change other issued also
  obtain ⟨plan, planned⟩ := (idle first one).exists_plan
  obtain ⟨twin, plannedToo⟩ := (idle second two).exists_plan
  cases other with
  | delete key =>
    exact absurd ((Pass.issues_delete_iff plannedToo).1 also) ((idle second two).not_leaves key)
  | put key content =>
    cases change with
    | delete => trivial
    | put other value =>
      -- Both write what the store holds.
      rintro rfl
      have here := (idle first one).get?_of_puts ((Pass.issues_put_iff planned).1 issued)
      have there := (idle second two).get?_of_puts ((Pass.issues_put_iff plannedToo).1 also)
      exact Option.some.inj (here.symm.trans there)

theorem Step.land_of_idle (planned : step.plan store = .ok (changes, reports)) :
    step.land changes store = store.insert Key.schemaVersion (versionBytes step.target) := by
  refine Step.land_eq_insert fun key other => Option.ext fun value => ?_
  rw [step.get?_land_iff planned other]
  constructor
  · rintro (⟨pass, member, puts⟩ | ⟨-, held⟩)
    · exact (idle pass member).get?_of_puts puts
    · exact held
  · intro held
    -- A pass that puts something at the key puts what is held there.
    by_cases written : ∃ pass ∈ step.passes, ∃ content, pass.Puts store (key, content)
    · obtain ⟨pass, member, content, puts⟩ := written
      have same := (idle pass member).get?_of_puts puts
      obtain rfl := Option.some.inj (same.symm.trans held)
      exact .inl ⟨pass, member, puts⟩
    · refine .inr ⟨fun pass member => ⟨fun content puts => ?_, ?_⟩, held⟩
      · exact written ⟨pass, member, content, puts⟩
      · exact (idle pass member).not_leaves key

theorem Step.report_of_idle (planned : step.plan store = .ok (changes, reports)) :
    ∀ report ∈ reports, report.kept = report.visited ∧ report.dropped = 0 := by
  obtain ⟨plans, -, each, -, -, rfl⟩ := step.plans_of_plan planned
  intro report member
  obtain ⟨⟨own, _⟩, among, rfl⟩ := List.mem_map.1 member
  obtain ⟨pass, inside, here⟩ := (mem_of_mapM_eq_ok each).1 among
  exact (idle pass inside).counts here

end Steps

/-! ## Runs -/

/-- Steps that lead from one version to another, each from where the one before it led. -/
def Continues (target current : SchemaVersion) : List Step → Prop
  | [] => current = target
  | step :: rest =>
    step.source = current ∧ current < step.target ∧ Continues target step.target rest

instance (target : SchemaVersion) :
    (current : SchemaVersion) → (steps : List Step) → Decidable (Continues target current steps)
  | current, [] => inferInstanceAs (Decidable (current = target))
  | current, step :: rest =>
    have := instDecidableContinues target step.target rest
    inferInstanceAs (Decidable
      (step.source = current ∧ current < step.target ∧ Continues target step.target rest))

theorem Continues.le {target current : SchemaVersion} {steps : List Step}
    (continues : Continues target current steps) : current ≤ target := by
  induction steps generalizing current with
  | nil => exact continues ▸ UInt32.le_refl _
  | cons step rest ih =>
    obtain ⟨-, forward, later⟩ := continues
    exact UInt32.le_trans (UInt32.le_of_lt forward) (ih later)

/-- A run through steps that change nothing reaches its target and changes the version only. -/
theorem exists_runSteps_of_idle {target current : SchemaVersion} {steps : List Step} {store : Store}
    (continues : Continues target current steps)
    (idle : ∀ step ∈ steps, ∀ pass ∈ step.passes, ∀ version : SchemaVersion,
      pass.Idle (store.insert Key.schemaVersion (versionBytes version))) :
    ∃ reports, runSteps target (store.insert Key.schemaVersion (versionBytes current)) current steps
        = (store.insert Key.schemaVersion (versionBytes target), .ok reports)
      ∧ ∀ report ∈ reports, ∀ pass ∈ report.passes,
          pass.kept = pass.visited ∧ pass.dropped = 0 := by
  -- The store that the steps find is the same but for the version, which the induction varies.
  induction steps generalizing current with
  | nil =>
    obtain rfl : current = target := continues
    exact ⟨[], runSteps_of_le (UInt32.le_refl _) [], nofun⟩
  | cons step rest ih =>
    obtain ⟨start, forward, later⟩ := continues
    have near : step.target ≤ target := later.le
    have here := fun pass member => idle step (.head _) pass member current
    obtain ⟨⟨changes, passes⟩, planned⟩ := step.exists_plan_of_idle here
    obtain ⟨reports, finished, kept⟩ :=
      ih later fun other member => idle other (.tail _ member)
    -- Only the version was written, and the next step overwrites it.
    have landed : step.land changes (store.insert Key.schemaVersion (versionBytes current))
        = store.insert Key.schemaVersion (versionBytes step.target) := by
      rw [step.land_of_idle here planned, Store.insert_insert]
    refine ⟨step.report passes :: reports, ?_, List.forall_mem_cons.2 ⟨?_, kept⟩⟩
    · have below : current < target := by grind
      rw [runSteps_land below forward near start planned, landed, finished]
      rfl
    · exact step.report_of_idle here planned

end LinkRegistry.Migration
