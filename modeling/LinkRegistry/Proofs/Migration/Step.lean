import LinkRegistry.Migration.Step
import LinkRegistry.Proofs.Migration.Pass

/-!
# The batch of a step

The batch of a step is that of all its passes together: what any of them writes is there after the
step, and what one of them takes away and none writes is not.
-/

namespace LinkRegistry.Migration

/-! ## Merging -/

/-- A merger holds the writes and the deletions of certain changes. -/
structure Merger.Joins (merger : Merger) (changes : List Store.Change) : Prop where
  written : ∀ key value,
    Store.lookup key merger.written = some value ↔ .put key value ∈ changes
  removed : ∀ key, key ∈ merger.removed ↔ .delete key ∈ changes

section Mergers

variable {merger next : Merger} {changes : List Store.Change}

theorem Merger.joins_empty : Merger.Joins ⟨[], []⟩ [] where
  written := by simp [Store.lookup]
  removed := by simp

theorem Merger.Joins.add {change : Store.Change} (joins : merger.Joins changes)
    (added : merger.add change = .ok next) : next.Joins (changes ++ [change]) := by
  cases change with
  | delete key =>
    simp only [Merger.add] at added
    split at added
    · cases added
    split at added
    · -- Two passes may take away one key.
      next known =>
      obtain rfl := Except.ok.inj added
      refine ⟨by simp [joins.written], fun other => ?_⟩
      have there := (joins.removed key).1 (by simpa using known)
      simp only [joins.removed, List.mem_append, List.mem_singleton, Store.Change.delete.injEq]
      exact ⟨.inl, fun either => either.elim id fun same => same ▸ there⟩
    · obtain rfl := Except.ok.inj added
      exact ⟨by simp [joins.written], by simp [joins.removed, or_comm]⟩
  | put key value =>
    simp only [Merger.add] at added
    split at added
    · -- Two passes may write one key only if they write the same.
      next existing found =>
      split at added
      · next same =>
        obtain rfl := Except.ok.inj added
        rw [same] at found
        refine ⟨fun other content => ?_, by simp [joins.removed]⟩
        have there := (joins.written key value).1 found
        simp only [joins.written, List.mem_append, List.mem_singleton, Store.Change.put.injEq]
        exact ⟨.inl, fun either => either.elim id fun equal => equal.1 ▸ equal.2 ▸ there⟩
      · cases added
    · next missing =>
      obtain rfl := Except.ok.inj added
      refine ⟨fun other content => ?_, by simp [joins.removed]⟩
      rw [Store.lookup, List.mem_append, List.mem_singleton, Store.Change.put.injEq,
        ← joins.written]
      split
      · next same =>
        obtain rfl : key = other := same
        simp [missing, eq_comm]
      · next differs => simp [Ne.symm differs]

/-- A batch that could be merged writes each key it puts, and clears the others it deletes. -/
theorem Merger.Joins.get?_apply (joins : merger.Joins changes) (store : Store)
    {key value : Bytes} :
    (store.apply merger.changes).get? key = some value
      ↔ .put key value ∈ changes
        ∨ (∀ other, .put key other ∉ changes) ∧ .delete key ∉ changes
          ∧ store.get? key = some value := by
  rw [Merger.changes, Store.get?_apply_batch]
  simp only [← joins.written, ← joins.removed]
  cases Store.lookup key merger.written <;> simp

end Mergers

/-! ## Steps -/

/-- The store after the batch of a step: the planned writes, and then the version. -/
def Step.land (step : Step) (changes : List Store.Change) (store : Store) : Store :=
  store.apply (changes ++ [.put Key.schemaVersion (versionBytes step.target)])

/-- The report of a step on those of its passes. -/
def Step.report (step : Step) (passes : List PassReport) : StepReport :=
  ⟨step.name, step.source, step.target, passes⟩

section Steps

variable {step : Step} {store : Store} {changes : List Store.Change} {reports : List PassReport}

theorem Step.run_eq_ok_iff {next : Store} {report : StepReport} :
    step.run store = .ok (next, report)
      ↔ ∃ changes reports, step.plan store = .ok (changes, reports)
          ∧ next = step.land changes store ∧ report = step.report reports := by
  rw [Step.run, bind_eq_ok_iff]
  constructor
  · rintro ⟨⟨changes, reports⟩, planned, same⟩
    obtain ⟨rfl, rfl⟩ := Prod.mk.inj (Except.ok.inj same)
    exact ⟨changes, reports, planned, rfl, rfl⟩
  · rintro ⟨changes, reports, planned, rfl, rfl⟩
    exact ⟨(changes, reports), planned, rfl⟩

/-- Whatever the passes of a step do to the version, it is the target afterwards. -/
theorem Step.get?_land (step : Step) (changes : List Store.Change) (store : Store) :
    (step.land changes store).get? Key.schemaVersion = some (versionBytes step.target) := by
  rw [Step.land, Store.apply_append, Store.apply_cons, Store.apply_nil, Store.change,
    Store.get?_insert, if_pos rfl]

theorem Step.get?_land_of_ne {key : Bytes} (other : key ≠ Key.schemaVersion) :
    (step.land changes store).get? key = (store.apply changes).get? key := by
  rw [Step.land, Store.apply_append, Store.apply_cons, Store.apply_nil, Store.change,
    Store.get?_insert, if_neg other.symm]

/-- Landing is known by what is at the other keys. -/
theorem Step.land_eq_insert {base : Store}
    (same : ∀ key, key ≠ Key.schemaVersion → (step.land changes store).get? key = base.get? key) :
    step.land changes store = base.insert Key.schemaVersion (versionBytes step.target) := by
  refine Store.ext_get? fun key => ?_
  rw [Store.get?_insert]
  split
  · next version => rw [← version, Step.get?_land]
  · next other => exact same key (Ne.symm other)

private theorem foldlM_addPass_eq_ok_iff {passes : List Pass} {start final : Merger}
    {before after : List PassReport} :
    passes.foldlM (Merger.addPass store) (start, before) = .ok (final, after)
      ↔ ∃ plans, passes.mapM (·.plan store) = .ok plans
          ∧ (plans.flatMap (·.1)).foldlM Merger.add start = .ok final
          ∧ after = before ++ plans.map (·.2) := by
  -- Each pass is planned against the store itself, so only the merger changes along the way.
  induction passes generalizing start before with
  | nil =>
    constructor
    · intro folded
      obtain ⟨rfl, rfl⟩ := Prod.mk.inj (Except.ok.inj folded)
      exact ⟨[], rfl, rfl, (List.append_nil _).symm⟩
    · rintro ⟨plans, none, merged, rfl⟩
      obtain rfl := Except.ok.inj none
      obtain rfl := Except.ok.inj merged
      simp [pure, Except.pure]
  | cons pass rest ih =>
    rw [List.foldlM_cons, bind_eq_ok_iff]
    constructor
    · rintro ⟨⟨next, reports⟩, here, later⟩
      obtain ⟨⟨writes, report⟩, planned, joined⟩ := bind_eq_ok_iff.1 here
      obtain ⟨merger, merged, same⟩ := bind_eq_ok_iff.1 joined
      obtain ⟨rfl, rfl⟩ := Prod.mk.inj (Except.ok.inj same)
      obtain ⟨plans, others, tail, rfl⟩ := ih.1 later
      refine ⟨(writes, report) :: plans, ?_, ?_, by simp⟩
      · exact mapM_eq_ok_iff.2 (.cons planned (mapM_eq_ok_iff.1 others))
      · rw [List.flatMap_cons, List.foldlM_append]
        exact bind_eq_ok_iff.2 ⟨merger, merged, tail⟩
    · rintro ⟨plans, each, merged, rfl⟩
      obtain ⟨⟨writes, report⟩, others, planned, tail, rfl⟩ :=
        List.forall₂_cons_left_iff.1 (mapM_eq_ok_iff.1 each)
      rw [List.flatMap_cons, List.foldlM_append] at merged
      obtain ⟨merger, first, later⟩ := bind_eq_ok_iff.1 merged
      refine ⟨(merger, before ++ [report]), ?_, ih.2 ⟨others, mapM_eq_ok_iff.2 tail, later, by simp⟩⟩
      exact bind_eq_ok_iff.2 ⟨_, planned, bind_eq_ok_iff.2 ⟨merger, first, rfl⟩⟩

/-- A step can be planned exactly if its passes can and their batches can be merged. -/
theorem Step.plan_eq_ok_iff :
    step.plan store = .ok (changes, reports)
      ↔ ∃ plans, ∃ merger : Merger, step.passes.mapM (·.plan store) = .ok plans
          ∧ (plans.flatMap (·.1)).foldlM Merger.add ⟨[], []⟩ = .ok merger
          ∧ changes = merger.changes ∧ reports = plans.map (·.2) := by
  rw [Step.plan, bind_eq_ok_iff]
  constructor
  · rintro ⟨⟨merger, all⟩, folded, same⟩
    obtain ⟨rfl, rfl⟩ := Prod.mk.inj (Except.ok.inj same)
    obtain ⟨plans, each, merged, rfl⟩ := foldlM_addPass_eq_ok_iff.1 folded
    exact ⟨plans, merger, each, merged, rfl, List.nil_append _⟩
  · rintro ⟨plans, merger, each, merged, rfl, rfl⟩
    exact ⟨(merger, plans.map (·.2)),
      foldlM_addPass_eq_ok_iff.2 ⟨plans, each, merged, (List.nil_append _).symm⟩, rfl⟩

/-- A step that can be planned merges the batches of all its passes. -/
theorem Step.plans_of_plan (planned : step.plan store = .ok (changes, reports)) :
    ∃ plans, ∃ merger : Merger, step.passes.mapM (·.plan store) = .ok plans
      ∧ merger.Joins (plans.flatMap (·.1)) ∧ changes = merger.changes
      ∧ reports = plans.map (·.2) := by
  obtain ⟨plans, merger, each, merged, same⟩ := Step.plan_eq_ok_iff.1 planned
  have joins := foldlM_eq_ok_induction (fun done state => Merger.Joins state done)
    (fun _ _ _ _ holds here => holds.add here) merged Merger.joins_empty
  exact ⟨plans, merger, each, joins, same⟩

/-- Each pass of a step that can be planned can be planned on its own. -/
theorem Step.exists_plan (planned : step.plan store = .ok (changes, reports)) (pass : Pass)
    (member : pass ∈ step.passes) : ∃ own report, pass.plan store = .ok (own, report) := by
  obtain ⟨plans, _, each, -⟩ := step.plans_of_plan planned
  obtain ⟨⟨own, report⟩, here⟩ := exists_of_mapM_eq_ok each member
  exact ⟨own, report, here⟩

theorem Step.planned (planned : step.plan store = .ok (changes, reports)) (pass : Pass)
    (member : pass ∈ step.passes) : ∃ own, pass.Planned store own := by
  obtain ⟨own, report, here⟩ := step.exists_plan planned pass member
  exact ⟨own, Pass.planned here⟩

theorem mem_plans_iff {passes : List Pass} {plans : List (List Store.Change × PassReport)}
    (each : passes.mapM (·.plan store) = .ok plans) {change : Store.Change} :
    change ∈ plans.flatMap (·.1) ↔ ∃ pass ∈ passes, pass.Issues store change := by
  rw [List.mem_flatMap]
  constructor
  · rintro ⟨⟨own, report⟩, member, inside⟩
    obtain ⟨pass, among, here⟩ := (mem_of_mapM_eq_ok each).1 member
    exact ⟨pass, among, own, report, here, inside⟩
  · rintro ⟨pass, among, own, report, here, inside⟩
    exact ⟨(own, report), (mem_of_mapM_eq_ok each).2 ⟨pass, among, here⟩, inside⟩

/-- What a step leaves at a key: what some batch puts there, or, if none puts or deletes anything
there, what was there. -/
theorem Step.get?_land_iff_issues (planned : step.plan store = .ok (changes, reports))
    {key value : Bytes} (other : key ≠ Key.schemaVersion) :
    (step.land changes store).get? key = some value
      ↔ (∃ pass ∈ step.passes, pass.Issues store (.put key value))
        ∨ (∀ pass ∈ step.passes, (∀ content, ¬ pass.Issues store (.put key content))
            ∧ ¬ pass.Issues store (.delete key))
          ∧ store.get? key = some value := by
  obtain ⟨plans, merger, each, joins, rfl, -⟩ := step.plans_of_plan planned
  rw [Step.get?_land_of_ne other, joins.get?_apply]
  simp only [mem_plans_iff each, not_exists, not_and]
  refine or_congr_right ⟨fun ⟨unwritten, kept, held⟩ => ?_, fun ⟨untouched, held⟩ => ?_⟩
  · exact ⟨fun pass member => ⟨fun content => unwritten content pass member, kept pass member⟩,
      held⟩
  · exact ⟨fun content pass member => (untouched pass member).1 content,
      fun pass member => (untouched pass member).2, held⟩

/-- What a step leaves at a key: what some pass puts there, or, if none puts or takes away
anything, what was there. -/
theorem Step.get?_land_iff (planned : step.plan store = .ok (changes, reports))
    {key value : Bytes} (other : key ≠ Key.schemaVersion) :
    (step.land changes store).get? key = some value
      ↔ (∃ pass ∈ step.passes, pass.Puts store (key, value))
        ∨ (∀ pass ∈ step.passes, (∀ content, ¬ pass.Puts store (key, content))
            ∧ ¬ pass.Leaves store key)
          ∧ store.get? key = some value := by
  rw [step.get?_land_iff_issues planned other]
  have puts (pass : Pass) (member : pass ∈ step.passes) (content : Bytes) :
      pass.Issues store (.put key content) ↔ pass.Puts store (key, content) := by
    obtain ⟨own, report, here⟩ := step.exists_plan planned pass member
    exact Pass.issues_put_iff here
  have leaves (pass : Pass) (member : pass ∈ step.passes) :
      pass.Issues store (.delete key) ↔ pass.Leaves store key := by
    obtain ⟨own, report, here⟩ := step.exists_plan planned pass member
    exact Pass.issues_delete_iff here
  refine or_congr (exists_congr fun pass => and_congr_right fun member => puts pass member value)
    (and_congr_left fun _ => forall₂_congr fun pass member => ?_)
  simp only [puts pass member, leaves pass member]

/-- A key that no pass writes to, and that lies under the scope of none, is left as it was. -/
theorem Step.get?_land_of_untouched (planned : step.plan store = .ok (changes, reports))
    {key : Bytes} (other : key ≠ Key.schemaVersion)
    (outside : ∀ pass ∈ step.passes, ¬ pass.scope <+: key)
    (unwritten : ∀ pass ∈ step.passes, ∀ content, ¬ pass.Puts store (key, content)) :
    (step.land changes store).get? key = store.get? key := by
  refine Option.ext fun value => ?_
  rw [step.get?_land_iff planned other]
  have kept (pass : Pass) (member : pass ∈ step.passes) : ¬ pass.Leaves store key :=
    fun ⟨_, decision, _⟩ => outside pass member decision.1
  constructor
  · rintro (⟨pass, member, written⟩ | ⟨-, held⟩)
    · exact absurd written (unwritten pass member value)
    · exact held
  · exact fun held => .inr ⟨fun pass member => ⟨unwritten pass member, kept pass member⟩, held⟩

/-- A key that no pass writes to is left as it was or cleared. -/
theorem Step.get?_land_of_unwritten (planned : step.plan store = .ok (changes, reports))
    {key : Bytes} (other : key ≠ Key.schemaVersion)
    (unwritten : ∀ pass ∈ step.passes, ∀ content, ¬ pass.Puts store (key, content)) :
    (step.land changes store).get? key = none
      ∨ (step.land changes store).get? key = store.get? key := by
  cases left : (step.land changes store).get? key with
  | none => exact .inl rfl
  | some value =>
    rcases (step.get?_land_iff planned other).1 left with ⟨pass, member, puts⟩ | ⟨-, held⟩
    · exact absurd puts (unwritten pass member value)
    · exact .inr held.symm

/-- What is held outside the scopes of all passes stays. -/
theorem Step.get?_land_of_held (planned : step.plan store = .ok (changes, reports))
    {key value : Bytes} (other : key ≠ Key.schemaVersion)
    (outside : ∀ pass ∈ step.passes, ¬ pass.scope <+: key) (held : store.get? key = some value) :
    (step.land changes store).get? key = some value := by
  rw [step.get?_land_iff planned other]
  by_cases written : ∃ pass ∈ step.passes, ∃ content, pass.Puts store (key, content)
  · -- A pass may put something there only if it is what is there.
    obtain ⟨pass, member, content, puts⟩ := written
    obtain ⟨own, report, here⟩ := step.exists_plan planned pass member
    obtain rfl : value = content := Pass.eq_of_puts here (outside pass member) puts held
    exact .inl ⟨pass, member, puts⟩
  · refine .inr ⟨fun pass member => ⟨fun content puts => ?_, fun leaves => ?_⟩, held⟩
    · exact written ⟨pass, member, content, puts⟩
    · obtain ⟨outcome, decides, -⟩ := leaves
      exact outside pass member decides.1

end Steps

end LinkRegistry.Migration
