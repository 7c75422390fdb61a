import Mathlib.Data.List.Pairwise
import LinkRegistry.Proofs.Migration.Agreement
import LinkRegistry.Proofs.Migration.Standard

/-!
# Passes that keep apart

The passes of a step are planned against the store as it stood before the step and land as one
batch. Passes that neither read nor write where another one writes may just as well be run in turn,
each on the store that those before it left, and in any order.
-/

namespace LinkRegistry.Migration

/-! ## Changes in turn -/

/-- Changes that may follow one another leave at a key what one of them puts there, or nothing if
one deletes there and none puts, or what was there. -/
theorem get?_apply_of_pairwise {changes : List Store.Change} (ordered : changes.Pairwise MayFollow)
    (store : Store) {key value : Bytes} :
    (store.apply changes).get? key = some value
      ↔ .put key value ∈ changes
        ∨ (∀ other, .put key other ∉ changes) ∧ .delete key ∉ changes
          ∧ store.get? key = some value := by
  -- The store is the one that the changes before have left.
  induction changes generalizing store with
  | nil => simp
  | cons first rest ih =>
    obtain ⟨ahead, later⟩ := List.pairwise_cons.1 ordered
    rw [Store.apply_cons, ih later]
    cases first with
    | delete gone =>
      rw [Store.change, Store.get?_erase]
      by_cases same : gone = key
      · subst same
        simp
      · simp [same, Ne.symm same]
    | put place content =>
      rw [Store.change, Store.get?_insert]
      by_cases same : place = key
      · subst same
        -- No later change deletes what is put here, nor puts another value.
        have kept : .delete place ∉ rest := fun member => ahead _ member rfl
        have agree (other : Bytes) (member : .put place other ∈ rest) : content = other :=
          ahead _ member rfl
        by_cases again : .put place content ∈ rest <;> grind
      · simp [same, Ne.symm same]

/-! ## Passes that keep clear of one another -/

/-- A pass writes nowhere that another one reads or writes, and its scope does not take in the
other's. -/
structure Pass.KeepsClear (store : Store) (pass other : Pass) : Prop where
  scope : ¬ pass.scope <+: other.scope
  unread : ∀ entry, pass.Puts store entry → ¬ other.scope <+: entry.1
  unwritten : ∀ entry twin, pass.Puts store entry → other.Puts store twin → entry.1 ≠ twin.1

/-- Two passes keep clear of one another. -/
def Pass.Apart (store : Store) (pass other : Pass) : Prop :=
  pass.KeepsClear store other ∧ other.KeepsClear store pass

/-- All passes of a step keep clear of one another. -/
def Step.KeepsApart (step : Step) (store : Store) : Prop :=
  step.passes.Pairwise (Pass.Apart store)

section Passes

variable {pass other : Pass} {store next : Store} {changes : List Store.Change}
  {report : PassReport} {key : Bytes}

theorem Pass.Apart.symm (apart : Pass.Apart store pass other) : Pass.Apart store other pass :=
  ⟨apart.2, apart.1⟩

/-- No key is under the scopes of two passes that keep clear of one another. -/
theorem Pass.Apart.not_scope (apart : Pass.Apart store pass other) (under : other.scope <+: key) :
    ¬ pass.scope <+: key := fun also =>
  (List.prefix_or_prefix_of_prefix also under).elim apart.1.scope apart.2.scope

/-- What the batch of a pass leaves at a key: what the pass puts there, or, if it neither puts nor
takes away anything, what was there. -/
theorem Pass.get?_apply_iff (planned : pass.plan store = .ok (changes, report)) {value : Bytes} :
    (store.apply changes).get? key = some value
      ↔ pass.Puts store (key, value)
        ∨ ((∀ content, ¬ pass.Puts store (key, content)) ∧ ¬ pass.Leaves store key)
          ∧ store.get? key = some value := by
  have facts := Pass.planned planned
  rw [get?_apply_of_pairwise (Pass.pairwise_mayFollow planned)]
  simp only [facts.puts, facts.deletes, and_assoc]

/-- A pass leaves a key as it is if the key is outside its scope and it puts nothing there. -/
theorem Pass.get?_apply_of_untouched (planned : pass.plan store = .ok (changes, report))
    (outside : ¬ pass.scope <+: key) (unwritten : ∀ value, ¬ pass.Puts store (key, value)) :
    (store.apply changes).get? key = store.get? key := by
  have kept : ¬ pass.Leaves store key := fun ⟨_, decides, _⟩ => outside decides.1
  refine Option.ext fun value => ?_
  rw [Pass.get?_apply_iff planned]
  simp only [unwritten, kept, not_false_eq_true, implies_true, and_self, true_and, false_or]

/-! ## Plans on other stores -/

/-- What a pass decides is told by what is under its scope. -/
theorem Pass.decides_congr (same : ∀ key, pass.scope <+: key → next.get? key = store.get? key)
    {source : Bytes} {outcome : Outcome} :
    pass.Decides next source outcome ↔ pass.Decides store source outcome :=
  and_congr_right fun under => by rw [same source under]

theorem Pass.puts_congr (same : ∀ key, pass.scope <+: key → next.get? key = store.get? key)
    {entry : Entry} : pass.Puts next entry ↔ pass.Puts store entry :=
  exists_congr fun _ => exists_congr fun _ => and_congr_left fun _ => Pass.decides_congr same

/-- A decision looks at the store only where it puts something. -/
theorem Draft.add_congr {sources : List Bytes} {source : Bytes} {outcome : Outcome}
    (same : ∀ entry, outcome.record? = some entry ∨ entry ∈ outcome.index →
      next.get? entry.1 = store.get? entry.1) (draft : Draft) :
    Draft.add next sources draft (source, outcome)
      = Draft.add store sources draft (source, outcome) := by
  have held (entry : Entry) (wrote : outcome.record? = some entry ∨ entry ∈ outcome.index) :
      heldApart next sources entry.1 = heldApart store sources entry.1 := by
    rw [heldApart, heldApart, same entry wrote]
  cases outcome with
  | drop reason => rfl
  | keep key value index =>
    have indexed (state : Draft) :
        index.foldlM (Draft.addIndex next sources) state
          = index.foldlM (Draft.addIndex store sources) state := by
      refine foldlM_congr (fun entry member draft => ?_) state
      rw [Draft.addIndex, Draft.addIndex, held entry (.inr member)]
    simp only [Draft.add, held (key, value) (.inl rfl), indexed]

/-- The plan of a pass is told by what is under its scope and at the keys that it puts at. -/
theorem Pass.plan_congr (same : ∀ key, pass.scope <+: key → next.get? key = store.get? key)
    (written : ∀ entry, pass.Puts store entry → next.get? entry.1 = store.get? entry.1) :
    pass.plan next = pass.plan store := by
  have decided : pass.decide next = pass.decide store := by
    rw [Pass.decide, Pass.decide, Store.scan_congr same]
  rw [Pass.plan, Pass.plan, decided]
  cases found : pass.decide store with
  | error error => rfl
  | ok decisions =>
    have drafted : draftOf next decisions = draftOf store decisions := by
      refine foldlM_congr (fun decision member draft => ?_) _
      have decides := (Pass.mem_decide_iff found).1 member
      exact Draft.add_congr (fun entry wrote => written entry ⟨_, _, decides, wrote⟩) draft
    change (draftOf next decisions >>= _) = draftOf store decisions >>= _
    rw [drafted]

section

variable (planned : pass.plan store = .ok (changes, report)) (apart : Pass.Apart store pass other)
include planned apart

/-- A pass leaves everything under the scope of one that it keeps clear of. -/
theorem Pass.Apart.get?_of_scope (under : other.scope <+: key) :
    (store.apply changes).get? key = store.get? key :=
  Pass.get?_apply_of_untouched planned (apart.not_scope under)
    fun value puts => apart.1.unread (key, value) puts under

/-- A pass leaves the plan of one that it keeps clear of. -/
theorem Pass.Apart.plan_eq : other.plan (store.apply changes) = other.plan store := by
  refine Pass.plan_congr (fun key => apart.get?_of_scope planned) fun entry puts => ?_
  refine Pass.get?_apply_of_untouched planned (apart.2.unread entry puts) fun value also => ?_
  exact apart.1.unwritten (entry.1, value) entry also puts rfl

theorem Pass.Apart.puts_iff {entry : Entry} :
    other.Puts (store.apply changes) entry ↔ other.Puts store entry :=
  Pass.puts_congr fun _ => apart.get?_of_scope planned

end

/-- What keeps two passes clear of one another is still there after a third that keeps clear of
both. -/
theorem Pass.Apart.after {third : Pass} (planned : pass.plan store = .ok (changes, report))
    (first : Pass.Apart store pass other) (second : Pass.Apart store pass third)
    (apart : Pass.Apart store other third) : Pass.Apart (store.apply changes) other third := by
  have ofOther {entry : Entry} : other.Puts (store.apply changes) entry ↔ other.Puts store entry :=
    first.puts_iff planned
  have ofThird {entry : Entry} : third.Puts (store.apply changes) entry ↔ third.Puts store entry :=
    second.puts_iff planned
  obtain ⟨clear, clearToo⟩ := apart
  refine ⟨⟨clear.scope, ?_, ?_⟩, clearToo.scope, ?_, ?_⟩
  · simpa only [ofOther] using clear.unread
  · simpa only [ofOther, ofThird] using clear.unwritten
  · simpa only [ofThird] using clearToo.unread
  · simpa only [ofOther, ofThird] using clearToo.unwritten

end Passes

/-! ## Running in turn -/

/-- Runs passes one after another, each on the store that the one before left. -/
def runInTurn (store : Store) : List Pass → Except MigrationError (Store × List PassReport)
  | [] => .ok (store, [])
  | pass :: rest => do
    let (next, report) ← pass.run store
    let (final, reports) ← runInTurn next rest
    .ok (final, report :: reports)

section Turns

variable {passes : List Pass} {store : Store}

/-- Passes that keep apart do in turn what they planned on the store as it stood. -/
theorem runInTurn_eq (apart : passes.Pairwise (Pass.Apart store)) :
    runInTurn store passes = (passes.mapM (Pass.plan · store)).map fun plans =>
      (store.apply (plans.flatMap (·.1)), plans.map (·.2)) := by
  induction passes generalizing store with
  | nil => rfl
  | cons pass rest ih =>
    obtain ⟨ahead, later⟩ := List.pairwise_cons.1 apart
    rw [runInTurn, Pass.run, List.mapM_cons]
    cases planned : pass.plan store with
    | error error => rfl
    | ok plan =>
      obtain ⟨changes, report⟩ := plan
      -- The other passes find on the next store what they would have found on this one.
      have still : rest.Pairwise (Pass.Apart (store.apply changes)) :=
        later.imp_of_mem fun one two => Pass.Apart.after planned (ahead _ one) (ahead _ two)
      have plans : rest.mapM (Pass.plan · (store.apply changes)) = rest.mapM (Pass.plan · store) :=
        mapM_congr fun other member => (ahead other member).plan_eq planned
      change (runInTurn (store.apply changes) rest >>= _) = _
      rw [ih still, plans]
      cases rest.mapM (Pass.plan · store) with
      | error error => rfl
      | ok others => simp [bind, Except.bind, Except.map, pure, Except.pure, Store.apply_append]

/-- Passes can be planned in turn exactly if each of them can. -/
theorem exists_plans_iff :
    (∃ plans, passes.mapM (Pass.plan · store) = .ok plans)
      ↔ ∀ pass ∈ passes, ∃ plan, pass.plan store = .ok plan :=
  ⟨fun ⟨_, each⟩ _ member => exists_of_mapM_eq_ok each member, exists_mapM_eq_ok⟩

theorem Pass.Apart.agreesWith {pass other : Pass} (apart : Pass.Apart store pass other) :
    pass.AgreesWith store other := by
  intro change next issued after
  cases change with
  | delete => trivial
  | put key value =>
    obtain ⟨changes, report, planned, -⟩ := id issued
    have puts := (Pass.issues_put_iff planned).1 issued
    obtain ⟨plan, twin, there, -⟩ := id after
    cases next with
    | delete gone =>
      rintro rfl
      obtain ⟨outcome, decides, -⟩ := (Pass.issues_delete_iff there).1 after
      exact apart.1.unread _ puts decides.1
    | put place content =>
      intro same
      exact absurd same (apart.1.unwritten _ _ puts ((Pass.issues_put_iff there).1 after))

end Turns

/-! ## Steps -/

/-- The report of a pass on what it would do to a store. -/
def Pass.reportOn (store : Store) (pass : Pass) : PassReport :=
  match pass.plan store with
  | .ok (_, report) => report
  | .error _ => pass.report [] .empty

section Steps

variable {step : Step} {store : Store} {changes : List Store.Change} {reports : List PassReport}
  {order : List Pass} {plans : List (List Store.Change × PassReport)}

theorem map_report_of_plans {passes : List Pass}
    (each : passes.mapM (Pass.plan · store) = .ok plans) :
    plans.map (·.2) = passes.map (Pass.reportOn store) := by
  refine map_of_mapM_eq_ok each fun pass _ plan planned => ?_
  rw [Pass.reportOn, planned]

theorem Step.KeepsApart.of_perm (apart : step.KeepsApart store) (perm : order.Perm step.passes) :
    order.Pairwise (Pass.Apart store) :=
  (perm.pairwise_iff Pass.Apart.symm).2 apart

/-- A step whose passes keep apart can be planned exactly if each of them can. -/
theorem Step.KeepsApart.exists_plan_iff (apart : step.KeepsApart store) :
    (∃ batch, step.plan store = .ok batch)
      ↔ ∀ pass ∈ step.passes, ∃ plan, pass.plan store = .ok plan := by
  rw [Step.exists_plan_iff]
  exact and_iff_left (List.Pairwise.imp Pass.Apart.agreesWith apart)

/-- The batches of passes that keep apart, written in any order, are the batch of the step. -/
theorem Step.KeepsApart.land_eq (apart : step.KeepsApart store) (perm : order.Perm step.passes)
    (planned : step.plan store = .ok (changes, reports))
    (each : order.mapM (Pass.plan · store) = .ok plans) :
    step.land changes store
      = (store.apply (plans.flatMap (·.1))).insert Key.schemaVersion
          (versionBytes step.target) := by
  obtain ⟨own, merger, all, joins, rfl, -⟩ := step.plans_of_plan planned
  have ordered := (pairwise_mayFollow_plans_iff each).2
    (List.Pairwise.imp Pass.Apart.agreesWith (apart.of_perm perm))
  have same (change : Store.Change) :
      change ∈ own.flatMap (·.1) ↔ change ∈ plans.flatMap (·.1) := by
    rw [mem_plans_iff all, mem_plans_iff each]
    simp only [perm.mem_iff]
  refine Step.land_eq_insert fun key other => Option.ext fun value => ?_
  rw [Step.get?_land_of_ne other, joins.get?_apply, get?_apply_of_pairwise ordered]
  simp only [same]

/-- A step whose passes keep apart succeeds exactly if its passes do when they are run in turn, in
any order. Both then leave the same store, but for the version, and give the same reports. -/
theorem Step.KeepsApart.run_iff (apart : step.KeepsApart store) (perm : order.Perm step.passes) :
    ((∃ result, step.run store = .ok result) ↔ ∃ result, runInTurn store order = .ok result)
      ∧ ∀ next report final reports, step.run store = .ok (next, report) →
          runInTurn store order = .ok (final, reports) →
          next = final.insert Key.schemaVersion (versionBytes step.target)
            ∧ report = step.report (step.passes.map (Pass.reportOn store))
            ∧ reports = order.map (Pass.reportOn store) := by
  have turns := runInTurn_eq (apart.of_perm perm)
  constructor
  · -- Either way of running succeeds just if every pass can be planned on the store as it is.
    have runs : (∃ result, step.run store = .ok result) ↔ ∃ batch, step.plan store = .ok batch := by
      rw [Step.run]
      cases step.plan store <;> simp [bind, Except.bind]
    have ran : (∃ result, runInTurn store order = .ok result)
        ↔ ∃ plans, order.mapM (Pass.plan · store) = .ok plans := by
      rw [turns]
      cases order.mapM (Pass.plan · store) <;> simp [Except.map]
    rw [runs, ran, apart.exists_plan_iff, exists_plans_iff]
    simp only [perm.mem_iff]
  · intro next report final reports ran ranInTurn
    obtain ⟨changes, own, planned, rfl, rfl⟩ := Step.run_eq_ok_iff.1 ran
    rw [turns] at ranInTurn
    obtain ⟨plans, each, same⟩ := map_eq_ok_iff.1 ranInTurn
    obtain ⟨rfl, rfl⟩ := Prod.mk.inj same
    obtain ⟨plansOfStep, -, all, -, -, rfl⟩ := step.plans_of_plan planned
    exact ⟨apart.land_eq perm planned each, by rw [map_report_of_plans all],
      map_report_of_plans each⟩

/-- No two records that a step visits are kept at one key, also if different passes visit them. -/
theorem Step.KeepsApart.source_eq (apart : step.KeepsApart store)
    (planned : step.plan store = .ok (changes, reports)) {pass other : Pass}
    (member : pass ∈ step.passes) (among : other ∈ step.passes) {one two : Bytes}
    {first second : Outcome} {entry twin : Entry} (decides : pass.Decides store one first)
    (also : other.Decides store two second) (kept : first.record? = some entry)
    (keptToo : second.record? = some twin) (same : entry.1 = twin.1) : one = two := by
  by_cases equal : pass = other
  · subst equal
    obtain ⟨own, each⟩ := step.planned planned pass member
    exact each.distinct one two first second entry.1 decides also (by rw [kept]; rfl)
      (by rw [keptToo, same]; rfl)
  · have symmetric : Std.Symm (Pass.Apart store) := ⟨fun _ _ => Pass.Apart.symm⟩
    have clear := List.Pairwise.forall apart member among equal
    exact absurd same (clear.1.unwritten entry twin ⟨one, first, decides, .inl kept⟩
      ⟨two, second, also, .inl keptToo⟩)

end Steps

/-! ## The standard steps -/

/-- Two passes over keys of the earlier layout keep apart if they write to different families. -/
theorem Pass.PutsWithin.apart {pass other : Pass} {lead otherLead : UInt8}
    {families others : List String} (ofPass : pass.PutsWithin families)
    (ofOther : other.PutsWithin others) (scope : pass.scope = [lead])
    (otherScope : other.scope = [otherLead])
    (fresh : lead ≠ otherLead
      ∧ (∀ family ∈ families, (Key.scope family).head? ≠ some otherLead)
      ∧ (∀ family ∈ others, (Key.scope family).head? ≠ some lead)
      ∧ ∀ family ∈ families, ∀ twin ∈ others,
          Key.Plain family ∧ Key.Plain twin ∧ family ≠ twin) (store : Store) :
    Pass.Apart store pass other := by
  obtain ⟨differ, away, awayToo, foreign⟩ := fresh
  have unwritten : ∀ entry twin, pass.Puts store entry → other.Puts store twin →
      entry.1 ≠ twin.1 := by
    intro entry twin puts also
    obtain ⟨family, member, under⟩ := ofPass store entry puts
    obtain ⟨second, among, underToo⟩ := ofOther store twin also
    exact Key.ne_of_scope under underToo (foreign family member second among)
  refine ⟨⟨?_, fun entry puts => ?_, unwritten⟩, ?_, fun entry puts => ?_, fun entry twin puts also =>
    (unwritten twin entry also puts).symm⟩
  · simpa [scope, otherScope] using differ
  · obtain ⟨family, member, under⟩ := ofPass store entry puts
    exact otherScope ▸ Key.not_lead_of_scope under (away family member)
  · simpa [scope, otherScope] using differ.symm
  · obtain ⟨family, member, under⟩ := ofOther store entry puts
    exact scope ▸ Key.not_lead_of_scope under (awayToo family member)

theorem standardSteps_keepApart : ∀ step ∈ standardSteps, ∀ store, step.KeepsApart store := by
  simp only [standardSteps, List.forall_mem_cons]
  refine ⟨fun _ => List.pairwise_singleton _ _, fun store => ?_,
    fun _ => List.pairwise_singleton _ _, fun _ => List.pairwise_singleton _ _,
    fun _ => List.pairwise_singleton _ _, nofun⟩
  -- Only one step has several passes; each of them moves to families of its own.
  have tagsLinks := dtags_putsWithin.apart applicationLinks_putsWithin rfl rfl (by decide) store
  have tagsClients := dtags_putsWithin.apart earlyClientIds_putsWithin rfl rfl (by decide) store
  have tagsChains := dtags_putsWithin.apart chainLinks_putsWithin rfl rfl (by decide) store
  have linksClients :=
    applicationLinks_putsWithin.apart earlyClientIds_putsWithin rfl rfl (by decide) store
  have linksChains :=
    applicationLinks_putsWithin.apart chainLinks_putsWithin rfl rfl (by decide) store
  have clientsChains :=
    earlyClientIds_putsWithin.apart chainLinks_putsWithin rfl rfl (by decide) store
  simp [Step.KeepsApart, tagsLinks, tagsClients, tagsChains, linksClients, linksChains,
    clientsChains]

/-- In every standard step, and in every other step whose passes keep apart on a store, the passes
may as well be run in turn, in any order: that succeeds exactly if the step does, and leaves the
same store, but for the version, and the same reports. -/
theorem Step.runs_in_turn :
    (∀ step ∈ standardSteps, ∀ store, step.KeepsApart store)
      ∧ ∀ (step : Step) (store : Store), step.KeepsApart store → ∀ order : List Pass,
          order.Perm step.passes →
          ((∃ result, step.run store = .ok result) ↔ ∃ result, runInTurn store order = .ok result)
            ∧ ∀ next report final reports, step.run store = .ok (next, report) →
                runInTurn store order = .ok (final, reports) →
                next = final.insert Key.schemaVersion (versionBytes step.target)
                  ∧ report = step.report (step.passes.map (Pass.reportOn store))
                  ∧ reports = order.map (Pass.reportOn store) :=
  ⟨standardSteps_keepApart, fun _ _ apart _ perm => apart.run_iff perm⟩

/-- A link to a user of an application, in the earlier layout. -/
def earlyApplicationLink : ApplicationLink where
  owner := "a12uel5l"
  application := "Twitter"
  username := "Bob"
  clientId := "client-1"
  state := .succeeded
  creationTime := 7

/-- A store of the earlier layout with a tag, an application link and the client identifier of
another one. -/
def earlyRecords : Store :=
  let tagged := Store.empty.insert (Key.Early.dtag "Alice") (Utf8.encode "a12uel5l")
  let linked := tagged.insert (Key.Early.applicationLink "a12uel5l" "Twitter" "Bob")
    (ApplicationLink.codec.write earlyApplicationLink)
  linked.insert (Key.Early.clientId "client-0") [7]

theorem Step.runs_in_turn_earlyRecords :
    ∃ step ∈ standardSteps, step.source = 2
      ∧ ∃ next report final reports, step.run earlyRecords = .ok (next, report)
        ∧ runInTurn earlyRecords step.passes.reverse = .ok (final, reports)
        ∧ (report.passes.map (·.visited), reports.map (·.visited)) = ([1, 1, 1, 0], [0, 1, 1, 1])
        ∧ next = final.insert Key.schemaVersion (versionBytes 3) := by
  obtain ⟨apart, turns⟩ := Step.runs_in_turn
  let step : Step :=
    ⟨"re-key-indexes", 2, 3, [dtags, applicationLinks, earlyClientIds, chainLinks]⟩
  have member : step ∈ standardSteps := .tail _ (.head _)
  obtain ⟨iff, same⟩ :=
    turns step earlyRecords (apart step member _) step.passes.reverse (List.reverse_perm _)
  have succeeds : (step.run earlyRecords).isOk = true := by decide +kernel
  obtain ⟨⟨next, report⟩, ran⟩ := exists_eq_ok_of_isOk succeeds
  obtain ⟨⟨final, reports⟩, inTurn⟩ := iff.1 ⟨_, ran⟩
  obtain ⟨stores, rfl, rfl⟩ := same next report final reports ran inTurn
  exact ⟨step, member, rfl, next, _, final, _, ran, inTurn, by decide +kernel, stores⟩

end LinkRegistry.Migration
