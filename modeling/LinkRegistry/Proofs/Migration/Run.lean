import LinkRegistry.Migration.Migrator
import LinkRegistry.Proofs.Binary.RoundTrip
import LinkRegistry.Proofs.Migration.Step

/-!
# Runs of a migrator

A run lands whole steps, each from the version in force and each with its own version as the last
write, and nothing of a step that fails. Where it stops, a later run takes it up again.
-/

namespace LinkRegistry.Migration

/-! ## The version in force -/

theorem currentVersion_of_get? {store : Store} {version : SchemaVersion}
    (held : store.get? Key.schemaVersion = some (versionBytes version)) :
    currentVersion store = .ok version := by
  have read : Binary.Codec.word32.decode (versionBytes version) = .ok version :=
    Binary.Codec.readsBack_word32.decode_encode rfl
  simp [currentVersion, held, read]

/-- A store that carries no version is at the first. -/
theorem exists_currentVersion_of_early {store : Store}
    (version : store.get? Key.schemaVersion = none
      ∨ store.get? Key.schemaVersion = some (versionBytes 1)
      ∨ store.get? Key.schemaVersion = some (versionBytes 2)) :
    ∃ current, (current = 1 ∨ current = 2) ∧ currentVersion store = .ok current := by
  rcases version with none | first | second
  · exact ⟨1, .inl rfl, by rw [currentVersion, none, baseVersion]⟩
  · exact ⟨1, .inl rfl, currentVersion_of_get? first⟩
  · exact ⟨2, .inr rfl, currentVersion_of_get? second⟩

theorem Step.currentVersion_land (step : Step) (changes : List Store.Change) (store : Store) :
    currentVersion (step.land changes store) = .ok step.target :=
  currentVersion_of_get? (step.get?_land changes store)

/-! ## Steps that ran -/

/-- The steps ahead of a version: those that lead beyond it and beyond the ones before them. -/
def pending (current : SchemaVersion) : List Step → List Step
  | [] => []
  | step :: rest =>
    if step.target ≤ current then pending current rest else step :: pending step.target rest

theorem pending_eq_nil {current : SchemaVersion} {steps : List Step}
    (behind : ∀ step ∈ steps, step.target ≤ current) : pending current steps = [] := by
  induction steps with
  | nil => rfl
  | cons step rest ih =>
    rw [pending, if_pos (behind step (.head _))]
    exact ih fun other member => behind other (.tail _ member)

theorem mem_of_mem_pending {current : SchemaVersion} {steps : List Step} {step : Step}
    (member : step ∈ pending current steps) : step ∈ steps := by
  induction steps generalizing current with
  | nil => exact member
  | cons first rest ih =>
    rw [pending] at member
    split at member
    · exact .tail _ (ih member)
    · rcases List.mem_cons.1 member with rfl | later
      · exact .head _
      · exact .tail _ (ih later)

/-- Steps that landed whole, one after another, with their reports. Each starts at the version in
force. -/
inductive Ran : Store → List Step → List StepReport → Store → Prop
  | nil (store : Store) : Ran store [] [] store
  | cons {store final : Store} {step : Step} {rest : List Step} {changes : List Store.Change}
      {passes : List PassReport} {reports : List StepReport}
      (due : currentVersion store = .ok step.source) (forward : step.source < step.target)
      (planned : step.plan store = .ok (changes, passes))
      (later : Ran (step.land changes store) rest reports final) :
      Ran store (step :: rest) (step.report passes :: reports) final

/-- After steps that ran the store carries the version of the last of them. -/
theorem Ran.get?_schemaVersion {store final : Store} {steps : List Step}
    {reports : List StepReport} (ran : Ran store steps reports final) {last : Step}
    (ends : steps.getLast? = some last) :
    final.get? Key.schemaVersion = some (versionBytes last.target) := by
  induction ran with
  | nil => cases ends
  | @cons store final step rest changes passes reports _ _ _ later ih =>
    cases later with
    | nil =>
      obtain rfl : step = last := by simpa using ends
      exact step.get?_land changes store
    | cons => exact ih (by simpa using ends)

/-! ## Equations of the run -/

section Equations

variable {target current : SchemaVersion} {store : Store} {step : Step} {rest : List Step}

theorem runSteps_of_le (reached : target ≤ current) (steps : List Step) :
    runSteps target store current steps = (store, .ok []) := by
  have done : ¬ current < target := UInt32.not_lt.2 reached
  cases steps <;> simp [runSteps, reached, done]

theorem runSteps_pass (below : current < target) (passed : step.target ≤ current) :
    runSteps target store current (step :: rest) = runSteps target store current rest := by
  have ahead : ¬ target ≤ current := UInt32.not_le.2 below
  have near : ¬ target < step.target := by grind
  simp [runSteps, ahead, near, passed]

theorem runSteps_land {changes : List Store.Change} {passes : List PassReport}
    (below : current < target) (forward : current < step.target) (near : step.target ≤ target)
    (due : step.source = current) (planned : step.plan store = .ok (changes, passes)) :
    runSteps target store current (step :: rest)
      = ((runSteps target (step.land changes store) step.target rest).1,
          (runSteps target (step.land changes store) step.target rest).2.map
            (step.report passes :: ·)) := by
  have ran : step.run store = .ok (step.land changes store, step.report passes) :=
    Step.run_eq_ok_iff.2 ⟨changes, passes, planned, rfl, rfl⟩
  have ahead : ¬ target ≤ current := UInt32.not_le.2 below
  have within : ¬ target < step.target := UInt32.not_lt.2 near
  have beyond : ¬ step.target ≤ current := UInt32.not_le.2 forward
  simp [runSteps, ahead, within, beyond, due, ran]

end Equations

/-- A run from a version that some steps do not lead beyond goes on with the others. -/
theorem runSteps_append {version : SchemaVersion} {passed : List Step}
    (behind : ∀ step ∈ passed, step.target ≤ version) (target : SchemaVersion) (store : Store)
    (rest : List Step) :
    runSteps target store version (passed ++ rest) = runSteps target store version rest := by
  by_cases reached : target ≤ version
  · rw [runSteps_of_le reached, runSteps_of_le reached]
  · induction passed with
    | nil => rfl
    | cons first others ih =>
      rw [List.cons_append, runSteps_pass (UInt32.not_le.1 reached) (behind first (.head _))]
      exact ih fun step member => behind step (.tail _ member)

/-- A run never comes to steps that lead beyond its target. -/
theorem runSteps_append_beyond {target : SchemaVersion} {beyond : List Step}
    (far : ∀ step ∈ beyond, target < step.target) (store : Store) (current : SchemaVersion)
    (steps : List Step) :
    runSteps target store current (steps ++ beyond) = runSteps target store current steps := by
  induction steps generalizing store current with
  | nil =>
    cases beyond with
    | nil => rfl
    | cons first others => simp [runSteps, far first (.head _)]
  | cons step rest ih =>
    simp only [List.cons_append, runSteps, ih]

/-! ## Where a run stops -/

/-- A run to a target has landed the pending ones of some steps and goes no further. A run beyond
the target does the same and goes on from there. -/
structure StopsAt (target : SchemaVersion) (store : Store) (current : SchemaVersion)
    (passed rest : List Step) (reports : List StepReport) (final : Store)
    (version : SchemaVersion) : Prop where
  ran : Ran store (pending current passed) reports final
  reached : currentVersion final = .ok version
  ascends : current ≤ version
  within : version = current ∨ version ≤ target
  behind : ∀ step ∈ passed, step.target ≤ version
  ahead : pending current (passed ++ rest) = pending current passed ++ pending version rest
  stays : (runSteps target final version rest).1 = final
  complete : ∀ all, (runSteps target final version rest).2 = .ok all → all = [] ∧ target ≤ version
  resumes : ∀ later, target ≤ later →
    runSteps later store current (passed ++ rest)
      = ((runSteps later final version rest).1,
          (runSteps later final version rest).2.map (reports ++ ·))

namespace StopsAt

variable {target current version : SchemaVersion} {store final : Store} {step : Step}
  {passed rest steps : List Step} {reports : List StepReport}

theorem here (due : currentVersion store = .ok current)
    (stays : (runSteps target store current steps).1 = store)
    (complete : ∀ all, (runSteps target store current steps).2 = .ok all →
      all = [] ∧ target ≤ current) :
    StopsAt target store current [] steps [] store current where
  ran := .nil store
  reached := due
  ascends := UInt32.le_refl _
  within := .inl rfl
  behind := by simp
  ahead := rfl
  stays := stays
  complete := complete
  resumes later _ := by
    rw [List.nil_append]
    rcases runSteps later store current steps with ⟨after, _ | _⟩ <;> rfl

theorem pass (stop : StopsAt target store current passed rest reports final version)
    (below : current < target) (behind : step.target ≤ current) :
    StopsAt target store current (step :: passed) rest reports final version where
  ran := by simpa [pending, behind] using stop.ran
  reached := stop.reached
  ascends := stop.ascends
  within := stop.within
  behind := List.forall_mem_cons.2 ⟨UInt32.le_trans behind stop.ascends, stop.behind⟩
  ahead := by simpa [pending, behind] using stop.ahead
  stays := stop.stays
  complete := stop.complete
  resumes later beyond := by
    rw [List.cons_append, runSteps_pass (by grind) behind, stop.resumes later beyond]

theorem land {changes : List Store.Change} {passes : List PassReport}
    (stop : StopsAt target (step.land changes store) step.target passed rest reports final version)
    (due : currentVersion store = .ok step.source) (forward : step.source < step.target)
    (near : step.target ≤ target) (planned : step.plan store = .ok (changes, passes)) :
    StopsAt target store step.source (step :: passed) rest (step.report passes :: reports) final
      version where
  ran := by
    rw [pending, if_neg (UInt32.not_le.2 forward)]
    exact .cons due forward planned stop.ran
  reached := stop.reached
  ascends := by have := stop.ascends; grind
  within := .inr (stop.within.elim (fun same => same ▸ near) id)
  behind := List.forall_mem_cons.2 ⟨stop.ascends, stop.behind⟩
  ahead := by
    rw [List.cons_append, pending, if_neg (UInt32.not_le.2 forward), stop.ahead, pending,
      if_neg (UInt32.not_le.2 forward), List.cons_append]
  stays := stop.stays
  complete := stop.complete
  resumes later beyond := by
    rw [List.cons_append, runSteps_land (by grind) forward (by grind) rfl planned,
      stop.resumes later beyond]
    cases (runSteps later final version rest).2 <;> rfl

/-- The outcome of a run is the store where it stops, and its reports if it is complete. -/
theorem runSteps_eq (stop : StopsAt target store current passed rest reports final version) :
    runSteps target store current (passed ++ rest)
      = (final, (runSteps target final version rest).2.map (reports ++ ·)) := by
  rw [stop.resumes target (UInt32.le_refl _), stop.stays]

/-- A run that is complete reports what it landed, and has reached the target. -/
theorem of_eq_ok (stop : StopsAt target store current passed rest reports final version)
    {all : List StepReport}
    (succeeded : (runSteps target store current (passed ++ rest)).2 = .ok all) :
    all = reports ∧ (runSteps target final version rest).2 = .ok [] ∧ target ≤ version := by
  rw [stop.runSteps_eq] at succeeded
  obtain ⟨tail, finished, rfl⟩ := map_eq_ok_iff.1 succeeded
  obtain ⟨rfl, reached⟩ := stop.complete tail finished
  exact ⟨List.append_nil _, finished, reached⟩

theorem max_eq (stop : StopsAt target store current passed rest reports final version)
    (reached : target ≤ version) : max current target = version := by
  change (if current ≤ target then target else current) = version
  have ascends := stop.ascends
  have within := stop.within
  grind

theorem le_of_le (stop : StopsAt target store current passed rest reports final version)
    {bound : SchemaVersion} (early : current ≤ bound) (near : target ≤ bound) :
    version ≤ bound := by
  rcases stop.within with rfl | within
  · exact early
  · exact UInt32.le_trans within near

end StopsAt

/-- Every run stops somewhere: behind some of its steps and before the others. -/
theorem exists_stopsAt (target : SchemaVersion) {store : Store} {current : SchemaVersion}
    (due : currentVersion store = .ok current) (steps : List Step) :
    ∃ passed rest reports final version, steps = passed ++ rest
      ∧ StopsAt target store current passed rest reports final version := by
  induction steps generalizing store current with
  | nil =>
    refine ⟨[], [], [], store, current, rfl, .here due rfl fun all succeeded => ?_⟩
    simp only [runSteps] at succeeded
    split at succeeded
    · cases succeeded
    · next reached => exact ⟨(Except.ok.inj succeeded).symm, UInt32.not_lt.1 reached⟩
  | cons step rest ih =>
    -- In every branch but two the run stops before the step with the store as it was.
    by_cases reached : target ≤ current
    · refine ⟨[], _, [], store, current, rfl, .here due ?_ ?_⟩
      all_goals rw [runSteps_of_le reached]
      exact fun all succeeded => ⟨(Except.ok.inj succeeded).symm, reached⟩
    have below : current < target := UInt32.not_le.1 reached
    by_cases passed : step.target ≤ current
    · obtain ⟨behind, ahead, reports, final, version, rfl, stop⟩ := ih due
      exact ⟨step :: behind, ahead, reports, final, version, rfl, stop.pass below passed⟩
    have forward : current < step.target := UInt32.not_le.1 passed
    have halt (error : MigrationError)
        (failed : runSteps target store current (step :: rest) = (store, .error error)) :
        ∃ passed ahead reports final version, step :: rest = passed ++ ahead
          ∧ StopsAt target store current passed ahead reports final version :=
      ⟨[], _, [], store, current, rfl, .here due (by rw [failed]) (by simp [failed])⟩
    by_cases far : target < step.target
    · exact halt (.versionGap current target) (by simp [runSteps, far, below])
    by_cases apart : step.source ≠ current ∨ step.target ≤ step.source
    · exact halt (.versionGap current step.source) (by simp [runSteps, reached, far, passed, apart])
    -- The step is due, and lands if its batch can be planned.
    obtain ⟨start, -⟩ := not_or.1 apart
    obtain rfl : step.source = current := not_not.1 start
    cases planned : step.plan store with
    | error error =>
      have failed : step.run store = .error error := by simp [Step.run, planned, bind, Except.bind]
      exact halt error (by simp [runSteps, reached, far, passed, failed])
    | ok plan =>
      obtain ⟨changes, passes⟩ := plan
      obtain ⟨behind, ahead, reports, final, version, rfl, stop⟩ :=
        ih (step.currentVersion_land changes store)
      exact ⟨step :: behind, ahead, _, final, version, rfl,
        stop.land due forward (UInt32.not_lt.1 far) planned⟩

/-- A run that finishes has landed every pending step, if none leads beyond its target. -/
theorem ran_of_runSteps {target current : SchemaVersion} {store final : Store}
    {steps : List Step} {reports : List StepReport} (near : ∀ step ∈ steps, step.target ≤ target)
    (due : currentVersion store = .ok current)
    (finished : runSteps target store current steps = (final, .ok reports)) :
    Ran store (pending current steps) reports final := by
  obtain ⟨passed, rest, done, reached, version, rfl, stop⟩ := exists_stopsAt target due steps
  obtain ⟨rfl, -, beyond⟩ := stop.of_eq_ok (congrArg Prod.snd finished)
  obtain rfl : reached = final := congrArg Prod.fst (stop.runSteps_eq.symm.trans finished)
  have nothing : pending version rest = [] := pending_eq_nil fun step member =>
    UInt32.le_trans (near step (List.mem_append_right _ member)) beyond
  rw [stop.ahead, nothing, List.append_nil]
  exact stop.ran

/-! ## Runs to a target -/

namespace Migrator

variable {migrator : Migrator} {target : SchemaVersion} {store : Store}

theorem runTo_eq {version : SchemaVersion} (known : target ≤ migrator.latest)
    (due : currentVersion store = .ok version) (early : version ≤ migrator.latest) :
    migrator.runTo target store = runSteps target store version migrator.steps := by
  simp [runTo, UInt32.not_lt.2 known, UInt32.not_lt.2 early, due]

/-- A run is refused, or runs the steps from the version of the store. -/
theorem runTo_cases (migrator : Migrator) (target : SchemaVersion) (store : Store) :
    (∃ error, migrator.runTo target store = (store, .error error))
      ∨ ∃ version, currentVersion store = .ok version ∧ version ≤ migrator.latest
          ∧ migrator.runTo target store = runSteps target store version migrator.steps := by
  by_cases known : migrator.latest < target
  · exact .inl ⟨_, by rw [runTo, if_pos known]⟩
  cases due : currentVersion store with
  | error error => exact .inl ⟨error, by rw [runTo, if_neg known, due]⟩
  | ok version =>
    by_cases late : migrator.latest < version
    · exact .inl ⟨_, by rw [runTo, if_neg known, due]; exact if_pos late⟩
    · have early := UInt32.not_lt.1 late
      exact .inr ⟨version, rfl, early, runTo_eq (UInt32.not_lt.1 known) due early⟩

/-- A run that finishes has landed every pending step up to its target, if the steps beyond come
last. -/
theorem ran_of_runTo {version : SchemaVersion} {final : Store} {reports : List StepReport}
    {within beyond : List Step} (split : migrator.steps = within ++ beyond)
    (near : ∀ step ∈ within, step.target ≤ target) (far : ∀ step ∈ beyond, target < step.target)
    (due : currentVersion store = .ok version)
    (finished : migrator.runTo target store = (final, .ok reports)) :
    Ran store (pending version within) reports final := by
  rcases migrator.runTo_cases target store with ⟨error, refused⟩ | ⟨other, again, -, runs⟩
  · rw [refused] at finished
    cases (Prod.mk.inj finished).2
  · obtain rfl : version = other := Except.ok.inj (due.symm.trans again)
    rw [runs, split, runSteps_append_beyond far] at finished
    exact ran_of_runSteps near due finished

/-- A run of a migrator that finishes has landed every pending step, if its last step leads
furthest. -/
theorem ran_of_run {version : SchemaVersion} {final : Store} {reports : List StepReport}
    (furthest : ∀ step ∈ migrator.steps, step.target ≤ migrator.latest)
    (due : currentVersion store = .ok version)
    (finished : migrator.run store = (final, .ok reports)) :
    Ran store (pending version migrator.steps) reports final :=
  ran_of_runTo (List.append_nil _).symm furthest nofun due finished

/-- Finished or not, a run has landed some of the steps of its migrator. -/
theorem exists_ran_of_runTo (migrator : Migrator) (target : SchemaVersion) (store : Store) :
    ∃ done reports, Ran store done reports (migrator.runTo target store).1
      ∧ ∀ step ∈ done, step ∈ migrator.steps := by
  rcases migrator.runTo_cases target store with ⟨error, refused⟩ | ⟨version, due, -, runs⟩
  · rw [refused]
    exact ⟨[], [], .nil store, nofun⟩
  · obtain ⟨passed, rest, reports, final, after, split, stop⟩ :=
      exists_stopsAt target due migrator.steps
    rw [runs, split, stop.runSteps_eq]
    exact ⟨pending version passed, reports, stop.ran,
      fun step member => List.mem_append_left _ (mem_of_mem_pending member)⟩

/-- Finished or not, a run leaves the store as some of the first pending steps leave it, each
landed whole with its version last, and nothing else. The version never falls, and a run that
finishes reaches the target. -/
theorem runTo_lands_whole_steps (migrator : Migrator) (target : SchemaVersion) (store : Store) :
    ∃ done reports, Ran store done reports (migrator.runTo target store).1
      ∧ (∀ version, currentVersion store = .ok version →
          done <+: pending version migrator.steps
            ∧ ∃ after, currentVersion (migrator.runTo target store).1 = .ok after
                ∧ version ≤ after)
      ∧ (∀ error, currentVersion store = .error error → done = [])
      ∧ (done = [] → (migrator.runTo target store).1 = store)
      ∧ (∀ last, done.getLast? = some last →
          (migrator.runTo target store).1.get? Key.schemaVersion
            = some (versionBytes last.target))
      ∧ ∀ all, (migrator.runTo target store).2 = .ok all →
          all = reports ∧ ∃ version, currentVersion store = .ok version
            ∧ currentVersion (migrator.runTo target store).1 = .ok (max version target) := by
  rcases migrator.runTo_cases target store with ⟨error, refused⟩ | ⟨version, due, -, runs⟩
  · rw [refused]
    exact ⟨[], [], .nil store,
      fun version due => ⟨List.nil_prefix, version, due, UInt32.le_refl _⟩,
      fun _ _ => rfl, fun _ => rfl, nofun, nofun⟩
  rw [runs]
  -- The steps are cut where the run stops: those before are landed, the others never begun.
  obtain ⟨passed, rest, reports, final, after, split, stop⟩ :=
    exists_stopsAt target due migrator.steps
  have left : (runSteps target store version migrator.steps).1 = final := by
    rw [split, stop.runSteps_eq]
  rw [left]
  refine ⟨pending version passed, reports, stop.ran, fun other again => ?_, fun error failed => ?_,
    fun none => ?_, fun last ends => stop.ran.get?_schemaVersion ends, fun all succeeded => ?_⟩
  · obtain rfl : version = other := Except.ok.inj (due.symm.trans again)
    rw [split, stop.ahead]
    exact ⟨List.prefix_append _ _, after, stop.reached, stop.ascends⟩
  · rw [due] at failed
    cases failed
  · have ran := stop.ran
    rw [none] at ran
    cases ran
    rfl
  · rw [split] at succeeded
    obtain ⟨same, -, reached⟩ := stop.of_eq_ok succeeded
    have top : currentVersion final = .ok (max version target) := by
      rw [stop.max_eq reached, stop.reached]
    exact ⟨same, version, due, top⟩

/-- A run to an early target and then, whatever came of it, to a later one is the run to the later
one: the same store, the same success, and the reports in the same order. So a run that succeeded
changes nothing when it is made again. -/
theorem runTo_runTo {migrator : Migrator} {earlier later : SchemaVersion} (order : earlier ≤ later)
    (known : later ≤ migrator.latest) (store : Store) :
    (migrator.runTo later (migrator.runTo earlier store).1).1 = (migrator.runTo later store).1
      ∧ ((∃ all, (migrator.runTo later (migrator.runTo earlier store).1).2 = .ok all)
          ↔ ∃ all, (migrator.runTo later store).2 = .ok all)
      ∧ (∀ before after, (migrator.runTo earlier store).2 = .ok before →
          (migrator.runTo later (migrator.runTo earlier store).1).2 = .ok after →
          (migrator.runTo later store).2 = .ok (before ++ after))
      ∧ ∀ all, (migrator.runTo earlier store).2 = .ok all →
          migrator.runTo earlier (migrator.runTo earlier store).1
            = ((migrator.runTo earlier store).1, .ok []) := by
  rcases migrator.runTo_cases earlier store with ⟨error, refused⟩ | ⟨version, due, early, runs⟩
  · rw [refused]
    exact ⟨rfl, .rfl, nofun, nofun⟩
  obtain ⟨passed, rest, reports, final, after, split, stop⟩ :=
    exists_stopsAt earlier due migrator.steps
  have reachable : after ≤ migrator.latest :=
    stop.le_of_le early (UInt32.le_trans order known)
  -- The second run finds the version that the first one reached and passes the same steps.
  have again (beyond : SchemaVersion) (below : beyond ≤ migrator.latest) :
      migrator.runTo beyond final = runSteps beyond final after rest := by
    rw [runTo_eq below stop.reached reachable, split, runSteps_append stop.behind]
  have left : (runSteps earlier store version migrator.steps).1 = final := by
    rw [split, stop.runSteps_eq]
  rw [runs, left, runTo_eq known due early, again later known,
    again earlier (UInt32.le_trans order known), split, stop.resumes later order]
  refine ⟨rfl, ?_, fun before tail succeeded resumed => ?_, fun all succeeded => ?_⟩
  · cases (runSteps later final after rest).2 <;> simp [Except.map]
  · obtain ⟨rfl, -⟩ := stop.of_eq_ok succeeded
    rw [resumed]
    rfl
  · obtain ⟨-, finished, -⟩ := stop.of_eq_ok succeeded
    exact Prod.ext stop.stays finished

/-- A migrator whose first step deletes the version that it stands under. -/
def forgetful : Migrator :=
  ⟨[⟨"forget", 1, 2, [⟨"versions", Key.schemaVersion, fun _ _ => .ok (.drop "forgotten")⟩]⟩,
    ⟨"go-on", 2, 3, []⟩]⟩

/-- A store that carries the first version. -/
def marked : Store := Store.empty.insert Key.schemaVersion (versionBytes 1)

theorem runTo_runTo_forgetful :
    (forgetful.runTo 3 (forgetful.runTo 2 marked).1).1 = (forgetful.runTo 3 marked).1
      ∧ (forgetful.runTo 3 marked).2
          = .ok ([⟨"forget", 1, 2, [⟨"versions", Key.schemaVersion, 1, 0, 1, 0⟩]⟩]
              ++ [⟨"go-on", 2, 3, []⟩]) := by
  have split : (2 : SchemaVersion) ≤ 3 ∧ 3 ≤ forgetful.latest := by decide
  obtain ⟨same, -, joined, -⟩ := runTo_runTo split.1 split.2 marked
  exact ⟨same, joined _ _ (by rfl) (by rfl)⟩

end Migrator

end LinkRegistry.Migration
