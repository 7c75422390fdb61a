import LinkRegistry.Proofs.Migration.Rekeying

/-!
# What the standard migrations leave alone

A step visits keys of the earlier layout, accounts and chain links, and writes to a few families
only. What it visits of the earlier layout it may take away; what it meets in the other families it
must leave. Such frames compose along the steps of a run, whether or not the run succeeds.
-/

namespace LinkRegistry.Migration

/-- The families that records are moved to and indexed in. -/
def destinations : List String :=
  [Key.dtags, Key.userApplicationLink, Key.clientIds, Key.chainLinkOwner]

/-- The families that no standard run takes anything from. -/
def keptFamilies : List String := Key.accounts :: destinations

/-- What a standard run leaves of a store. -/
structure Frame (store final : Store) : Prop where
  /-- Keys of the earlier layout may go, but none comes and none changes. -/
  early : ∀ lead ∈ earlyFamilies, ∀ key, [lead] <+: key →
    final.get? key = none ∨ final.get? key = store.get? key
  held : ∀ family ∈ keptFamilies, ∀ key value, Key.scope family <+: key →
    store.get? key = some value → final.get? key = some value
  accounts : ∀ key, Key.scope Key.accounts <+: key → final.get? key = store.get? key
  /-- Outside all families that are moved or written to nothing changes but the version. -/
  outside : ∀ key, key ≠ Key.schemaVersion → (∀ lead ∈ earlyFamilies, ¬ [lead] <+: key) →
    (∀ family ∈ Key.chainLinks :: keptFamilies, ¬ Key.scope family <+: key) →
    final.get? key = store.get? key

theorem Frame.refl (store : Store) : Frame store store where
  early _ _ _ _ := .inr rfl
  held _ _ _ _ _ held := held
  accounts _ _ := rfl
  outside _ _ _ _ := rfl

theorem Frame.trans {store next final : Store} (first : Frame store next)
    (second : Frame next final) : Frame store final where
  early lead member key under := by
    rcases second.early lead member key under with gone | same
    · exact .inl gone
    · rw [same]
      exact first.early lead member key under
  held family member key value under held :=
    second.held family member key value under (first.held family member key value under held)
  accounts key under := (second.accounts key under).trans (first.accounts key under)
  outside key other away apart :=
    (second.outside key other away apart).trans (first.outside key other away apart)

theorem Pass.PutsWithin.mono {pass : Pass} {families others : List String}
    (within : pass.PutsWithin families) (subset : families ⊆ others) : pass.PutsWithin others := by
  intro store entry puts
  obtain ⟨family, member, under⟩ := within store entry puts
  exact ⟨family, subset member, under⟩

/-- A pass visits the earlier layout or chain links, and writes to no accounts. -/
structure Pass.AvoidsAccounts (pass : Pass) : Prop where
  scope : pass.scope = Key.scope Key.chainLinks ∨ ∃ lead ∈ earlyFamilies, pass.scope = [lead]
  puts : pass.PutsWithin (Key.chainLinks :: destinations)

theorem avoidsAccounts_of_moving {pass : Pass} (member : pass ∈ movingPasses) :
    pass.AvoidsAccounts where
  scope := .inr (exists_lead_of_moving member)
  puts store entry puts := by
    obtain ⟨family, among, under⟩ := exists_scope_of_puts_moving member puts
    have subset : [Key.dtags, Key.userApplicationLink, Key.clientIds, Key.chainLinks]
        ⊆ Key.chainLinks :: destinations := by decide
    exact ⟨family, subset among, under⟩

/-- One step groups pictures, and the passes of every other one avoid accounts. -/
theorem standardSteps_cases :
    ∀ step ∈ standardSteps, step.passes = [accounts]
      ∨ ∀ pass ∈ step.passes, pass.AvoidsAccounts := by
  have envelopes : (chainLinkEnvelopes .standard).AvoidsAccounts :=
    ⟨.inl rfl, (chainLinkEnvelopes_putsWithin _).mono (by decide)⟩
  have verification : (chainLinkVerification .standard).AvoidsAccounts :=
    ⟨.inl rfl, (chainLinkVerification_putsWithin _).mono (by decide)⟩
  have tags : (chainLinkTags .standard).AvoidsAccounts :=
    ⟨.inl rfl, (chainLinkTags_putsWithin _).mono (by decide)⟩
  have moving : ∀ pass ∈ movingPasses, pass.AvoidsAccounts := fun _ => avoidsAccounts_of_moving
  intro step member
  simp only [standardSteps, List.mem_cons, List.not_mem_nil, or_false] at member
  rcases member with rfl | rfl | rfl | rfl | rfl
  · exact .inl rfl
  · exact .inr moving
  · exact .inr (List.forall_mem_singleton.2 envelopes)
  · exact .inr (List.forall_mem_singleton.2 verification)
  · exact .inr (List.forall_mem_singleton.2 tags)

theorem plain_of_family : ∀ family ∈ Key.chainLinks :: keptFamilies, Key.Plain family := by
  decide

/-- No family begins with a lead of the earlier layout. -/
theorem head?_scope_ne_early : ∀ family ∈ Key.chainLinks :: keptFamilies,
    ∀ lead ∈ earlyFamilies, (Key.scope family).head? ≠ some lead := by
  decide +kernel

section Steps

variable {step : Step} {store : Store} {changes : List Store.Change} {reports : List PassReport}
  {key : Bytes}

/-- A pass that avoids accounts visits nothing in the families that are kept. -/
theorem Pass.AvoidsAccounts.not_scope {pass : Pass} (avoids : pass.AvoidsAccounts)
    {family : String} (member : family ∈ keptFamilies) (under : Key.scope family <+: key) :
    ¬ pass.scope <+: key := by
  have known : family ∈ Key.chainLinks :: keptFamilies := .tail _ member
  rcases avoids.scope with links | ⟨lead, early, scope⟩
  · have other : ∀ family ∈ keptFamilies, family ≠ Key.chainLinks := by decide
    rw [links]
    exact Key.not_scope_of_scope under
      ⟨plain_of_family family known, plain_of_family _ (.head _), other family member⟩
  · rw [scope]
    exact Key.not_lead_of_scope under (head?_scope_ne_early family known lead early)

/-- A step whose passes avoid accounts keeps a frame. -/
theorem Frame.land_of_avoids (planned : step.plan store = .ok (changes, reports))
    (avoids : ∀ pass ∈ step.passes, pass.AvoidsAccounts) :
    Frame store (step.land changes store) := by
  have subset : Key.chainLinks :: destinations ⊆ Key.chainLinks :: keptFamilies := by decide
  -- Whatever a pass writes is of one of the families, which rules out the other kinds of keys.
  refine ⟨fun lead early key under => ?_, fun family member key value under held => ?_,
    fun key under => ?_, fun key other away apart => ?_⟩
  · refine step.get?_land_of_unwritten planned (ne_schemaVersion_of_early early under)
      fun pass among value puts => ?_
    obtain ⟨family, member, ofFamily⟩ := (avoids pass among).puts store _ puts
    have foreign := head?_scope_ne_early family (subset member) lead early
    exact Key.not_lead_of_scope ofFamily foreign under
  · exact step.get?_land_of_held planned (ne_schemaVersion_of_scope under)
      (fun pass among => (avoids pass among).not_scope member under) held
  · refine step.get?_land_of_untouched planned (ne_schemaVersion_of_scope under)
      (fun pass among => (avoids pass among).not_scope (.head _) under)
      fun pass among value puts => ?_
    obtain ⟨family, member, ofFamily⟩ := (avoids pass among).puts store _ puts
    have other : ∀ family ∈ Key.chainLinks :: destinations, Key.accounts ≠ family := by decide
    exact Key.not_scope_of_scope under ⟨plain_of_family Key.accounts (by decide),
      plain_of_family family (subset member), other family member⟩ ofFamily
  · -- What is neither visited nor of a family that is written to is met by no pass.
    refine step.get?_land_of_untouched planned other (fun pass among under => ?_)
      fun pass among value puts => ?_
    · rcases (avoids pass among).scope with links | ⟨lead, early, scope⟩
      · exact apart Key.chainLinks (.head _) (links ▸ under)
      · exact away lead early (scope ▸ under)
    · obtain ⟨family, member, ofFamily⟩ := (avoids pass among).puts store _ puts
      exact apart family (subset member) ofFamily

/-- The step that groups pictures leaves all but the version. -/
theorem Frame.of_agree {next : Store}
    (agree : ∀ key, key ≠ Key.schemaVersion → next.get? key = store.get? key) :
    Frame store next where
  early _ member key under := .inr (agree key (ne_schemaVersion_of_early member under))
  held _ _ key _ under held := (agree key (ne_schemaVersion_of_scope under)).trans held
  accounts key under := agree key (ne_schemaVersion_of_scope under)
  outside key other _ _ := agree key other

theorem Frame.land (member : step ∈ standardSteps)
    (planned : step.plan store = .ok (changes, reports)) :
    Frame store (step.land changes store) := by
  rcases standardSteps_cases step member with only | avoids
  · exact .of_agree fun key other => get?_land_accounts_of_ne only planned other
  · exact .land_of_avoids planned avoids

end Steps

/-! ## Runs -/

theorem Ran.frame {store final : Store} {steps : List Step} {reports : List StepReport}
    (ran : Ran store steps reports final) (standard : ∀ step ∈ steps, step ∈ standardSteps) :
    Frame store final := by
  -- Each step keeps a frame on whatever store it finds, and frames compose.
  induction ran with
  | nil store => exact .refl store
  | cons _ _ planned _ ih =>
    have ⟨first, others⟩ := List.forall_mem_cons.1 standard
    exact (Frame.land first planned).trans (ih others)

/-- Whatever a run of the standard migrator comes to, on any store and to any target, keys of the
earlier layout are at most removed, what is held under accounts, tags, application links, client
identifiers and owners stays as it is, no account is added, and nothing else but chain links and
the version changes. -/
theorem standard_runTo_frame (target : SchemaVersion) (store : Store) :
    Frame store (standard.runTo target store).1 := by
  obtain ⟨done, reports, ran, known⟩ := standard.exists_ran_of_runTo target store
  exact ran.frame known

end LinkRegistry.Migration
