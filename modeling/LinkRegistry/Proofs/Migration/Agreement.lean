import LinkRegistry.Proofs.Migration.Run

/-!
# Passes that agree

The passes of a step are planned apart, each against the store as it stands, and their batches are
then merged change by change. Which steps fail in this is said by the batches alone: a pass deletes
what an earlier one puts, or two passes put different values at one key. Of every other step it is
known what it leaves at each key. Main statement, `Step.run_refused_or_landed`.
-/

namespace LinkRegistry.Migration

/-! ## Changes after one another -/

/-- A change may be merged after another: it does not delete what that puts, nor put another value
in its place. -/
def MayFollow : Store.Change → Store.Change → Prop
  | .put key _, .delete other => key ≠ other
  | .put key value, .put other content => key = other → value = content
  | .delete _, _ => True

section Merging

variable {merger : Merger} {done changes : List Store.Change}

/-- One more change can be merged exactly if it may follow all that were. -/
theorem Merger.Joins.exists_add_iff (joins : merger.Joins done) {change : Store.Change} :
    (∃ next, merger.add change = .ok next) ↔ ∀ earlier ∈ done, MayFollow earlier change := by
  cases change with
  | delete key =>
    -- A deletion fails only on a key that is written.
    have free : (∀ earlier ∈ done, MayFollow earlier (.delete key))
        ↔ Store.lookup key merger.written = none := by
      rw [Option.eq_none_iff_forall_not_mem]
      simp only [Option.mem_def, joins.written]
      constructor
      · intro follows value member
        exact follows _ member rfl
      · intro unwritten earlier member
        cases earlier with
        | delete => trivial
        | put other value =>
          rintro rfl
          exact unwritten value member
    rw [free, Merger.add]
    cases Store.lookup key merger.written with
    | some existing => simp
    | none => by_cases again : key ∈ merger.removed <;> simp [again]
  | put key value =>
    have same : (∀ earlier ∈ done, MayFollow earlier (.put key value))
        ↔ ∀ existing, Store.lookup key merger.written = some existing → existing = value := by
      simp only [joins.written]
      constructor
      · intro follows existing member
        exact follows _ member rfl
      · intro agree earlier member
        cases earlier with
        | delete => trivial
        | put other content =>
          rintro rfl
          exact agree content member
    rw [same, Merger.add]
    cases Store.lookup key merger.written with
    | none => simp
    | some existing => by_cases equal : existing = value <;> simp [equal]

theorem Merger.Joins.exists_foldlM_add_iff (joins : merger.Joins done) :
    (∃ final, changes.foldlM Merger.add merger = .ok final)
      ↔ changes.Pairwise MayFollow ∧ ∀ earlier ∈ done, ∀ later ∈ changes, MayFollow earlier later := by
  -- What is merged grows by each change, so the induction is for any merger with what it joins.
  induction changes generalizing merger done with
  | nil => simpa using ⟨merger, rfl⟩
  | cons first rest ih =>
    rw [List.foldlM_cons, List.pairwise_cons]
    simp only [bind_eq_ok_iff, List.forall_mem_cons]
    constructor
    · rintro ⟨final, next, here, later⟩
      have after := joins.exists_add_iff.1 ⟨next, here⟩
      obtain ⟨ordered, follows⟩ := (ih (joins.add here)).1 ⟨final, later⟩
      refine ⟨⟨fun other member => follows first (by simp) other member, ordered⟩,
        fun earlier member => ⟨after earlier member, fun other among => ?_⟩⟩
      exact follows earlier (List.mem_append_left _ member) other among
    · rintro ⟨⟨ahead, ordered⟩, follows⟩
      obtain ⟨next, here⟩ := joins.exists_add_iff.2 fun earlier member => (follows earlier member).1
      obtain ⟨final, later⟩ := (ih (joins.add here)).2 ⟨ordered, fun earlier member => by
        rcases List.mem_append.1 member with old | new
        · exact (follows earlier old).2
        · rw [List.mem_singleton.1 new]
          exact ahead⟩
      exact ⟨final, next, here, later⟩

end Merging

/-! ## One pass -/

section Passes

variable {pass : Pass} {store : Store}

/-- The batch of one pass can always be merged: it deletes before it puts, and puts one value at a
key. -/
theorem Pass.pairwise_mayFollow {changes : List Store.Change} {report : PassReport}
    (planned : pass.plan store = .ok (changes, report)) : changes.Pairwise MayFollow := by
  obtain ⟨decisions, draft, -, drafted, rfl, -⟩ := Pass.plan_eq_ok_iff.1 planned
  have plans := plans_of_draftOf drafted
  refine List.pairwise_append.2 ⟨?_, ?_, ?_⟩
  · exact List.pairwise_map.2 (List.pairwise_of_forall fun _ _ => trivial)
  · refine List.pairwise_map.2 (List.pairwise_of_forall_mem_list fun first one second two => ?_)
    intro same
    exact congrArg Prod.snd
      (plans.puts_unique _ (List.mem_reverse.1 one) _ (List.mem_reverse.1 two) same)
  · intro change member other _
    obtain ⟨key, -, rfl⟩ := List.mem_map.1 member
    trivial

theorem Pass.Issues.value_unique {key value content : Bytes}
    (put : pass.Issues store (.put key value)) (also : pass.Issues store (.put key content)) :
    value = content := by
  obtain ⟨changes, report, planned, member⟩ := put
  have other := (Pass.issues_iff planned).1 also
  -- Every two changes of one batch follow one another in one order or the other.
  have agree := List.Pairwise.forall_of_forall_of_flip
    (R := fun one two => ∀ value content, one = .put key value → two = .put key content →
      value = content)
    (fun change _ value content one two => (Store.Change.put.inj (one.symm.trans two)).2)
    ((Pass.pairwise_mayFollow planned).imp fun {one two} follows value content first second => by
      subst first second
      exact follows rfl)
    ((Pass.pairwise_mayFollow planned).imp fun {one two} follows value content first second => by
      subst first second
      exact (follows rfl).symm)
  exact agree member other value content rfl rfl

end Passes

/-! ## All passes -/

/-- What a later pass does may follow what an earlier one does. -/
def Pass.AgreesWith (store : Store) (earlier later : Pass) : Prop :=
  ∀ change other, earlier.Issues store change → later.Issues store other → MayFollow change other

/-- The batches of passes follow one another exactly if every pass agrees with those after it. -/
theorem pairwise_mayFollow_plans_iff {passes : List Pass} {store : Store}
    {plans : List (List Store.Change × PassReport)}
    (each : passes.mapM (·.plan store) = .ok plans) :
    (plans.flatMap (·.1)).Pairwise MayFollow ↔ passes.Pairwise (Pass.AgreesWith store) := by
  have own : ∀ plan ∈ plans, plan.1.Pairwise MayFollow := by
    intro plan member
    obtain ⟨pass, -, here⟩ := (mem_of_mapM_eq_ok each).1 member
    exact Pass.pairwise_mayFollow here
  rw [List.pairwise_flatMap, and_iff_right own]
  refine (pairwise_of_mapM_eq_ok each fun pass other plan twin here there => ?_).symm
  simp only [Pass.AgreesWith, Pass.issues_iff here, Pass.issues_iff there]
  exact ⟨fun follows change member later among => follows change later member among,
    fun follows change member later among => follows change later member among⟩

section Steps

variable {step : Step} {store : Store}

/-- A step can be planned exactly if each pass can and every pass agrees with those after it. -/
theorem Step.exists_plan_iff :
    (∃ batch, step.plan store = .ok batch)
      ↔ (∀ pass ∈ step.passes, ∃ plan, pass.plan store = .ok plan)
        ∧ step.passes.Pairwise (Pass.AgreesWith store) := by
  -- Once each pass is planned, what is left to say is about the list of their batches.
  have merges {plans : List (List Store.Change × PassReport)}
      (each : step.passes.mapM (·.plan store) = .ok plans) :
      (∃ merger, (plans.flatMap (·.1)).foldlM Merger.add ⟨[], []⟩ = .ok merger)
        ↔ step.passes.Pairwise (Pass.AgreesWith store) := by
    refine Merger.joins_empty.exists_foldlM_add_iff.trans ?_
    simp only [List.not_mem_nil, IsEmpty.forall_iff, implies_true, and_true]
    exact pairwise_mayFollow_plans_iff each
  constructor
  · rintro ⟨⟨changes, reports⟩, planned⟩
    obtain ⟨plans, merger, each, merged, -⟩ := Step.plan_eq_ok_iff.1 planned
    exact ⟨fun pass member => exists_of_mapM_eq_ok each member, (merges each).1 ⟨merger, merged⟩⟩
  · rintro ⟨planned, agree⟩
    obtain ⟨plans, each⟩ := exists_mapM_eq_ok planned
    obtain ⟨merger, merged⟩ := (merges each).2 agree
    exact ⟨_, Step.plan_eq_ok_iff.2 ⟨plans, merger, each, merged, rfl, rfl⟩⟩

/-- Why a step cannot be run on a store. -/
inductive Step.Refused (step : Step) (store : Store) : Prop
  /-- A pass of the step cannot be planned. -/
  | unplanned {pass : Pass} {error : MigrationError} (member : pass ∈ step.passes)
      (failed : pass.plan store = .error error)
  /-- A pass deletes a key that an earlier one puts. -/
  | deleted {earlier later : Pass} {key value : Bytes} (order : [earlier, later].Sublist step.passes)
      (put : earlier.Issues store (.put key value)) (delete : later.Issues store (.delete key))
  /-- Two passes put different values at one key. -/
  | overwritten {first second : Pass} {key value content : Bytes} (one : first ∈ step.passes)
      (two : second ∈ step.passes) (put : first.Issues store (.put key value))
      (also : second.Issues store (.put key content)) (differ : value ≠ content)

/-- What a step leaves in a store that it ran on, and what it reports. -/
structure Step.Landed (step : Step) (store next : Store) (report : StepReport) : Prop where
  version : next.get? Key.schemaVersion = some (versionBytes step.target)
  put : ∀ pass ∈ step.passes, ∀ key value, key ≠ Key.schemaVersion →
    pass.Issues store (.put key value) → next.get? key = some value
  deleted : ∀ pass ∈ step.passes, ∀ key, key ≠ Key.schemaVersion →
    pass.Issues store (.delete key) →
    (∀ other ∈ step.passes, ∀ value, ¬ other.Issues store (.put key value)) →
    next.get? key = none
  untouched : ∀ key, key ≠ Key.schemaVersion →
    (∀ pass ∈ step.passes, (∀ value, ¬ pass.Issues store (.put key value))
      ∧ ¬ pass.Issues store (.delete key)) →
    next.get? key = store.get? key
  reports : ∃ plans, step.passes.mapM (·.plan store) = .ok plans
    ∧ report = step.report (plans.map (·.2))
  /-- Each record that a pass keeps is there, and each index entry. -/
  kept : ∀ pass ∈ step.passes, ∀ source outcome, pass.Decides store source outcome →
    ∀ entry, outcome.record? = some entry ∨ entry ∈ outcome.index →
    entry.1 ≠ Key.schemaVersion → next.get? entry.1 = some entry.2

theorem Step.refused_iff :
    step.Refused store ↔ ¬ ∃ batch, step.plan store = .ok batch := by
  rw [Step.exists_plan_iff]
  constructor
  · rintro refused ⟨planned, agree⟩
    cases refused with
    | unplanned member failed =>
      obtain ⟨plan, here⟩ := planned _ member
      rw [failed] at here
      cases here
    | deleted order put delete =>
      exact List.pairwise_iff_forall_sublist.1 agree order _ _ put delete rfl
    | @overwritten first second key value content one two put also differ =>
      -- The passes may stand in either order, and may be one pass.
      have unique := List.Pairwise.forall_of_forall_of_flip
        (R := fun (one two : Pass) => ∀ value content, one.Issues store (.put key value) →
          two.Issues store (.put key content) → value = content)
        (fun pass _ value content put also => put.value_unique also)
        (agree.imp fun {one two} follows value content put also =>
          follows (.put key value) (.put key content) put also rfl)
        (agree.imp fun {one two} follows value content put also =>
          (follows (.put key content) (.put key value) also put rfl).symm)
      exact differ (unique one two value content put also)
  · intro unmerged
    by_contra free
    refine unmerged ⟨fun pass member => ?_, List.pairwise_iff_forall_sublist.2 ?_⟩
    · cases planned : pass.plan store with
      | error error => exact absurd (.unplanned member planned) free
      | ok plan => exact ⟨plan, rfl⟩
    · intro earlier later order change other issued after
      cases change with
      | delete => trivial
      | put key value =>
        cases other with
        | delete gone =>
          rintro rfl
          exact free (.deleted order issued after)
        | put again content =>
          rintro rfl
          by_contra differ
          exact free (.overwritten (order.subset (by simp)) (order.subset (by simp)) issued after
            differ)

theorem Step.landed_of_run {next : Store} {report : StepReport}
    (ran : step.run store = .ok (next, report)) : step.Landed store next report := by
  obtain ⟨changes, passes, planned, rfl, rfl⟩ := Step.run_eq_ok_iff.1 ran
  have put : ∀ pass ∈ step.passes, ∀ key value, key ≠ Key.schemaVersion →
      pass.Issues store (.put key value) → (step.land changes store).get? key = some value := by
    intro pass member key value other issued
    exact (step.get?_land_iff_issues planned other).2 (.inl ⟨pass, member, issued⟩)
  refine ⟨step.get?_land changes store, put, ?_, ?_, ?_, ?_⟩
  · intro pass member key other issued unwritten
    -- What is held there now was put there or left there, and neither is the case.
    refine Option.eq_none_iff_forall_not_mem.2 fun value held => ?_
    rcases (step.get?_land_iff_issues planned other).1 held with ⟨writer, among, wrote⟩ | ⟨left, -⟩
    · exact unwritten writer among value wrote
    · exact (left pass member).2 issued
  · intro key other untouched
    refine Option.ext fun value => (step.get?_land_iff_issues planned other).trans ?_
    constructor
    · rintro (⟨writer, among, wrote⟩ | ⟨-, held⟩)
      · exact absurd wrote ((untouched writer among).1 value)
      · exact held
    · exact fun held => .inr ⟨untouched, held⟩
  · obtain ⟨plans, merger, each, -, -, rfl⟩ := Step.plan_eq_ok_iff.1 planned
    exact ⟨plans, each, rfl⟩
  · intro pass member source outcome decides entry wrote other
    -- What a pass decides to write is among the changes of its own plan.
    obtain ⟨own, report, here⟩ := step.exists_plan planned pass member
    exact put pass member entry.1 entry.2 other
      ((Pass.issues_put_iff here).2 ⟨source, outcome, decides, wrote⟩)

/-- A step fails, and then a run stops before it with the store as it was, just if a pass of it
cannot be planned, deletes what an earlier pass puts, or puts another value than a second pass at a
key. Any other step leaves what its batches say. -/
theorem Step.run_refused_or_landed (step : Step) (store : Store) :
    ((∃ error, step.run store = .error error) ↔ step.Refused store)
      ∧ (∀ error, step.run store = .error error → step.source < step.target →
          ∀ rest, runSteps step.target store step.source (step :: rest) = (store, .error error))
      ∧ ∀ next report, step.run store = .ok (next, report) → step.Landed store next report := by
  refine ⟨?_, fun error failed forward rest => ?_, fun next report => step.landed_of_run⟩
  · rw [Step.refused_iff, Step.run]
    cases step.plan store <;> simp [bind, Except.bind]
  · have ahead : ¬ step.target ≤ step.source := UInt32.not_le.2 forward
    simp [runSteps, ahead, failed]

end Steps

end LinkRegistry.Migration
