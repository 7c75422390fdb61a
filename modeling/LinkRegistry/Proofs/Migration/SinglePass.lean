import LinkRegistry.Proofs.Migration.Idle
import LinkRegistry.Proofs.Migration.Standard

/-!
# Steps of one pass

A step of one pass stands and falls with the pass: it can be planned if the pass fits, and fails as
the pass does. A pass fits if it writes in place and can decide each record, or if it drops all that
it visits; and where it visits nothing it is idle. A run takes a step that can be planned and stops
at one that cannot.
-/

namespace LinkRegistry.Migration

/-! ## Passes that fit -/

section Passes

variable {pass : Pass} {store : Store}

/-- A pass that visits nothing is idle. -/
theorem Pass.idle_of_scan_eq_nil (nothing : store.scan pass.scope = []) : pass.Idle store := by
  intro source content under held
  rw [Store.scan_eq_nil_iff.1 nothing source under] at held
  cases held

/-- A pass that keeps records only where they are and indexes nothing fits, whatever the store
holds, if it can decide each record. -/
theorem Pass.fits_of_stays
    (stays : ∀ source content, pass.scope <+: source → store.get? source = some content →
      ∃ outcome, pass.transform source content = .ok outcome ∧ outcome.index = []
        ∧ ∀ record, outcome.record? = some record → record.1 = source) : pass.Fits store := by
  have stay {source : Bytes} {outcome : Outcome} (decided : pass.Decides store source outcome) :
      outcome.index = [] ∧ ∀ record, outcome.record? = some record → record.1 = source := by
    obtain ⟨under, content, held, transformed⟩ := decided
    obtain ⟨own, same, shape⟩ := stays source content under held
    obtain rfl := Except.ok.inj (transformed.symm.trans same)
    exact shape
  have unindexed (entry : Entry) : ¬ pass.Indexes store entry := by
    rintro ⟨source, outcome, decided, member⟩
    rw [(stay decided).1] at member
    cases member
  constructor
  case decides =>
    intro source content under held
    obtain ⟨outcome, transformed, -⟩ := stays source content under held
    exact ⟨outcome, transformed⟩
  case distinct =>
    intro first second one two key firstDecided secondDecided kept also
    obtain ⟨record, found, rfl⟩ := Option.map_eq_some_iff.1 kept
    obtain ⟨other, foundToo, same⟩ := Option.map_eq_some_iff.1 also
    -- Both decisions keep a record at their own source, and the two records have one key.
    rw [← (stay firstDecided).2 record found, ← (stay secondDecided).2 other foundToo, same]
  case apart => exact fun _ entry _ indexes => absurd indexes (unindexed entry)
  case agree => exact fun entry _ indexes => absurd indexes (unindexed entry)
  case fresh =>
    rintro record ⟨source, outcome, decided, kept⟩ outside
    rw [(stay decided).2 record kept] at outside
    exact absurd decided.1 outside
  case same => exact fun entry indexes => absurd indexes (unindexed entry)

theorem Pass.InPlace.fits (inPlace : pass.InPlace)
    (decides : ∀ source content, pass.scope <+: source → store.get? source = some content →
      ∃ outcome, pass.transform source content = .ok outcome) : pass.Fits store := by
  apply Pass.fits_of_stays
  intro source content under held
  obtain ⟨outcome, transformed⟩ := decides source content under held
  obtain ⟨value, rfl⟩ := inPlace source content outcome transformed
  refine ⟨_, transformed, rfl, fun record kept => ?_⟩
  obtain rfl := Option.some.inj kept
  rfl

/-- A pass that drops all that it visits fits. -/
theorem Pass.fits_of_drops
    (drops : ∀ source content, pass.scope <+: source → store.get? source = some content →
      ∃ reason, pass.transform source content = .ok (.drop reason)) : pass.Fits store := by
  apply Pass.fits_of_stays
  intro source content under held
  obtain ⟨reason, transformed⟩ := drops source content under held
  exact ⟨_, transformed, rfl, nofun⟩

end Passes

/-! ## Steps -/

section Steps

variable {pass : Pass} {step : Step} {store : Store}

theorem Step.exists_plan_of_fits (only : step.passes = [pass]) (fits : pass.Fits store) :
    ∃ batch, step.plan store = .ok batch := by
  rw [Step.exists_plan_iff, only]
  refine ⟨fun other member => ?_, List.pairwise_singleton _ _⟩
  obtain rfl := List.mem_singleton.1 member
  exact Pass.exists_plan_iff.2 fits

/-- A step whose only pass cannot decide its records fails as the pass does. -/
theorem Step.run_eq_error (only : step.passes = [pass]) {error : MigrationError}
    (failed : pass.decide store = .error error) : step.run store = .error error := by
  have unplanned : pass.plan store = .error error := by rw [Pass.plan, failed]; rfl
  rw [Step.run, Step.plan, only, List.foldlM_cons, Merger.addPass, unplanned]
  rfl

end Steps

/-! ## Runs -/

/-- A run goes on as another, after some reports of its own. -/
def GoesOn (run rest : Store × Except MigrationError (List StepReport)) : Prop :=
  ∃ early, run = (rest.1, rest.2.map (early ++ ·))

section Runs

variable {run middle rest : Store × Except MigrationError (List StepReport)} {final : Store}

theorem GoesOn.trans (first : GoesOn run middle) (second : GoesOn middle rest) :
    GoesOn run rest := by
  obtain ⟨early, rfl⟩ := first
  obtain ⟨later, rfl⟩ := second
  refine ⟨early ++ later, ?_⟩
  cases rest.2 <;> simp [Except.map]

theorem GoesOn.eq_error {error : MigrationError} (goesOn : GoesOn run (final, .error error)) :
    run = (final, .error error) := by
  obtain ⟨early, rfl⟩ := goesOn
  rfl

theorem GoesOn.exists_ok {reports : List StepReport} (goesOn : GoesOn run (final, .ok reports)) :
    ∃ all, run = (final, .ok all) := by
  obtain ⟨early, rfl⟩ := goesOn
  exact ⟨_, rfl⟩

end Runs

section

variable (target : SchemaVersion) (step : Step) (rest : List Step) {store : Store}
  (forward : step.source < step.target) (near : step.target ≤ target)
include forward near

/-- A run stops at a step that fails. -/
theorem runSteps_stop {error : MigrationError} (failed : step.run store = .error error) :
    runSteps target store step.source (step :: rest) = (store, .error error) := by
  have ahead : ¬ target ≤ step.source := by grind
  have within : ¬ target < step.target := UInt32.not_lt.2 near
  have beyond : ¬ step.target ≤ step.source := UInt32.not_le.2 forward
  simp [runSteps, ahead, within, beyond, failed]

/-- A run takes a step that can be planned. -/
theorem goesOn_land {changes : List Store.Change} {passes : List PassReport}
    (planned : step.plan store = .ok (changes, passes)) :
    GoesOn (runSteps target store step.source (step :: rest))
      (runSteps target (step.land changes store) step.target rest) := by
  have below : step.source < target := by grind
  exact ⟨[step.report passes], runSteps_land below forward near rfl planned⟩

/-- A run goes through an idle step with nothing but the version changed. -/
theorem goesOn_idle (idle : ∀ pass ∈ step.passes, pass.Idle store) :
    GoesOn (runSteps target store step.source (step :: rest))
      (runSteps target (store.insert Key.schemaVersion (versionBytes step.target)) step.target
        rest) := by
  obtain ⟨⟨changes, passes⟩, planned⟩ := step.exists_plan_of_idle idle
  rw [← step.land_of_idle idle planned]
  exact goesOn_land target step rest forward near planned

end

end LinkRegistry.Migration
