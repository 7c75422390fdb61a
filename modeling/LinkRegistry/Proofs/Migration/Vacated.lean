import LinkRegistry.Proofs.Migration.Agreement

/-!
# Keys that a pass vacates

A pass drops the record at a key or moves it away, and puts nothing in its place. In a step that
runs, no earlier pass puts anything at that key, and after the step it is free unless a later pass
puts something there. Main statement, `Step.run_vacates`. The version, which the step itself puts,
and a record that a later pass keeps are both there after the step, though a pass vacated their
keys: `Step.vacated_keys_held`.
-/

namespace LinkRegistry.Migration

/-- A pass takes the record away from a key, and puts nothing there itself. -/
structure Pass.Vacates (pass : Pass) (store : Store) (key : Bytes) : Prop where
  leaves : pass.Leaves store key
  unwritten : ∀ value, ¬ pass.Puts store (key, value)

section

variable {step : Step} {store next : Store} {report : StepReport} {pass : Pass} {key : Bytes}

/-- A pass never puts at a key that a later one takes its record away from. -/
theorem Step.not_puts_of_leaves (ran : step.run store = .ok (next, report)) {earlier later : Pass}
    (order : [earlier, later].Sublist step.passes) (leaves : later.Leaves store key)
    (value : Bytes) : ¬ earlier.Puts store (key, value) := by
  obtain ⟨changes, reports, planned, -, -⟩ := Step.run_eq_ok_iff.1 ran
  obtain ⟨-, agree⟩ := Step.exists_plan_iff.1 ⟨_, planned⟩
  obtain ⟨first, firstReport, here⟩ := step.exists_plan planned earlier (order.subset (by simp))
  obtain ⟨second, secondReport, there⟩ := step.exists_plan planned later (order.subset (by simp))
  intro puts
  have follows := List.pairwise_iff_forall_sublist.1 agree order (.put key value) (.delete key)
    ((Pass.issues_put_iff here).2 puts) ((Pass.issues_delete_iff there).2 leaves)
  exact follows rfl

/-- A key that a pass vacates is free after the step, unless it is that of the version or a later
pass puts something there. An earlier pass never does, and a later one that does not visit the key
puts nothing but what was there. -/
theorem Step.run_vacates {before after : List Pass} (order : step.passes = before ++ pass :: after)
    (ran : step.run store = .ok (next, report)) (vacates : pass.Vacates store key) :
    (∀ earlier ∈ before, ∀ value, ¬ earlier.Puts store (key, value))
      ∧ (key ≠ Key.schemaVersion →
          (∀ later ∈ after, ∀ value, ¬ later.Puts store (key, value)) → next.get? key = none)
      ∧ ∀ later ∈ after, ∀ value, later.Puts store (key, value) →
          later.scope <+: key ∨ store.get? key = some value := by
  obtain ⟨changes, reports, planned, -, -⟩ := Step.run_eq_ok_iff.1 ran
  have member : pass ∈ step.passes := by simp [order]
  have unwritten : ∀ earlier ∈ before, ∀ value, ¬ earlier.Puts store (key, value) := by
    intro earlier among
    refine step.not_puts_of_leaves ran ?_ vacates.leaves
    rw [order]
    exact (List.singleton_sublist.2 among).append (List.singleton_sublist.2 (.head _))
  refine ⟨unwritten, fun other free => ?_, fun later among value puts => ?_⟩
  · obtain ⟨own, ownReport, here⟩ := step.exists_plan planned pass member
    refine (step.landed_of_run ran).deleted pass member key other
      ((Pass.issues_delete_iff here).2 vacates.leaves) fun writer among value issued => ?_
    -- Whichever pass wrote there would stand before the pass, be it, or stand after it.
    obtain ⟨plan, planReport, there⟩ := step.exists_plan planned writer among
    have puts := (Pass.issues_put_iff there).1 issued
    rw [order] at among
    rcases List.mem_append.1 among with early | late
    · exact unwritten writer early value puts
    rcases List.mem_cons.1 late with rfl | late
    · exact vacates.unwritten value puts
    · exact free writer late value puts
  · obtain ⟨plan, planReport, there⟩ := step.exists_plan planned later (by simp [order, among])
    by_cases visits : later.scope <+: key
    · exact .inl visits
    · -- The record that the pass vacates is what the store holds at the key.
      obtain ⟨outcome, ⟨-, content, held, -⟩, -⟩ := vacates.leaves
      obtain rfl := Pass.eq_of_puts there visits puts held
      exact .inr held

end

/-! ## Keys that are held all the same -/

/-- Drops every record under a lead. -/
def clearing (lead : Bytes) : Pass := ⟨"clear", lead, fun _ _ => .ok (.drop "cleared")⟩

/-- Keeps every record under a lead as it is. -/
def keeping (lead : Bytes) : Pass := ⟨"keep", lead, fun key value => .ok (.keep key value [])⟩

theorem not_clearing_puts {store : Store} {lead : Bytes} (entry : Entry) :
    ¬ (clearing lead).Puts store entry := by
  rintro ⟨source, outcome, ⟨-, record, -, transformed⟩, wrote⟩
  obtain rfl := Except.ok.inj transformed
  simp [Outcome.record?, Outcome.index] at wrote

theorem clearing_vacates {store : Store} {lead key content : Bytes} (under : lead <+: key)
    (held : store.get? key = some content) : (clearing lead).Vacates store key where
  leaves := ⟨.drop "cleared", ⟨under, content, held, rfl⟩, nofun⟩
  unwritten _ := not_clearing_puts _

/-- A store with a version and one record. -/
def versionedRecord : Store :=
  (Store.empty.insert Key.schemaVersion (versionBytes 1)).insert [1] [7]

/-- A step whose second pass clears the record. -/
def clearingStep : Step := ⟨"clear", 1, 2, [keeping [2], clearing [1], clearing [3]]⟩

theorem Step.run_vacates_clearingStep :
    ∃ next report, clearingStep.run versionedRecord = .ok (next, report)
      ∧ (clearing [1]).Vacates versionedRecord [1] ∧ next.get? [1] = none := by
  have vacates : (clearing [1]).Vacates versionedRecord [1] :=
    clearing_vacates (by decide) (show versionedRecord.get? [1] = some [7] by decide)
  have order : clearingStep.passes = [keeping [2]] ++ clearing [1] :: [clearing [3]] := rfl
  refine ⟨_, _, rfl, vacates, ?_⟩
  obtain ⟨-, free, -⟩ := clearingStep.run_vacates order rfl vacates
  refine free (by decide) fun later member value => ?_
  rw [List.mem_singleton.1 member]
  exact not_clearing_puts _

/-- A record that one pass clears is there after the step if a later pass keeps it, and the version
is there after a step that clears it. -/
theorem Step.vacated_keys_held :
    (∃ next report, Step.run ⟨"clear-and-keep", 1, 2, [clearing [1], keeping [1]]⟩ versionedRecord
          = .ok (next, report)
        ∧ (clearing [1]).Vacates versionedRecord [1] ∧ next.get? [1] = some [7])
      ∧ ∃ next report, Step.run ⟨"forget", 1, 2, [clearing Key.schemaVersion]⟩ versionedRecord
          = .ok (next, report)
        ∧ (clearing Key.schemaVersion).Vacates versionedRecord Key.schemaVersion
        ∧ next.get? Key.schemaVersion = some (versionBytes 2) := by
  refine ⟨⟨_, _, rfl, ?_, by decide⟩, _, _, rfl, ?_, by decide⟩
  · exact clearing_vacates (by decide) (show versionedRecord.get? [1] = some [7] by decide)
  · exact clearing_vacates (List.prefix_refl _)
      (show versionedRecord.get? Key.schemaVersion = some (versionBytes 1) by decide)

end LinkRegistry.Migration
