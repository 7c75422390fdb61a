import LinkRegistry.Proofs.Migration.Collisions
import LinkRegistry.Proofs.Migration.Idle
import LinkRegistry.Proofs.Migration.References
import LinkRegistry.Proofs.Migration.Rekeying
import LinkRegistry.Proofs.Proof.Retag

/-!
# Passes that are run again

A pass that keeps each record where it is, and what it has kept again in the same way, finds its
own output as it would leave it: under its scope are just the records that it kept, and the index
entries that it asks for are those that it wrote. So it is idle there, and its second report counts
what the first one kept. Grouping pictures, verification and tagging are such passes, and tagging
has nothing to do on what has just got its envelopes. Main statement, `second_run_changes_nothing`.
-/

namespace LinkRegistry.Migration

/-- A pass keeps records only where they are, and its index is outside its scope. -/
def Pass.Stationary (pass : Pass) : Prop :=
  ∀ source content key value index,
    pass.transform source content = .ok (.keep key value index) →
    key = source ∧ ∀ entry ∈ index, ¬ pass.scope <+: entry.1

/-- A stationary pass keeps what it has kept, with the same index. -/
structure Pass.Repeats (pass : Pass) : Prop where
  stationary : pass.Stationary
  again : ∀ source content value index,
    pass.transform source content = .ok (.keep source value index) →
    pass.transform source value = .ok (.keep source value index)

/-! ## On the output of a pass -/

section Passes

variable {pass : Pass} {store final : Store} {changes : List Store.Change} {report : PassReport}

section

variable (planned : pass.plan store = .ok (changes, report))
include planned

/-- Under its scope a stationary pass leaves just what it keeps. -/
theorem Pass.Stationary.get?_iff (stationary : pass.Stationary) {source content : Bytes}
    (under : pass.scope <+: source) :
    (store.apply changes).get? source = some content
      ↔ ∃ index, pass.Decides store source (.keep source content index) := by
  rw [Pass.get?_apply_iff planned]
  constructor
  · rintro (⟨own, outcome, decides, wrote⟩ | ⟨⟨unwritten, stays⟩, held⟩)
    · obtain ⟨-, before, -, transformed⟩ := id decides
      cases outcome with
      | drop reason => simp [Outcome.record?, Outcome.index] at wrote
      | keep key value index =>
        obtain ⟨rfl, outside⟩ := stationary _ _ _ _ _ transformed
        rcases wrote with kept | indexed
        · obtain ⟨rfl, rfl⟩ := Prod.mk.inj (Option.some.inj kept)
          exact ⟨index, decides⟩
        · exact absurd under (outside _ indexed)
    · -- A record under the scope was decided for, and neither dropped nor kept.
      obtain ⟨outcome, transformed⟩ := (Pass.planned planned).decides source content under held
      have decides : pass.Decides store source outcome := ⟨under, content, held, transformed⟩
      cases outcome with
      | drop reason => exact absurd ⟨_, decides, by simp [Outcome.record?]⟩ stays
      | keep key value index =>
        obtain ⟨rfl, -⟩ := stationary _ _ _ _ _ transformed
        exact absurd ⟨key, _, decides, .inl rfl⟩ (unwritten value)
  · rintro ⟨index, decides⟩
    exact .inl ⟨source, _, decides, .inl rfl⟩

section

variable (repeats : pass.Repeats)
include repeats

/-- On its own output a pass keeps what it has kept, and drops nothing. -/
theorem Pass.Repeats.decides_iff {source : Bytes} {outcome : Outcome} :
    pass.Decides (store.apply changes) source outcome
      ↔ pass.Decides store source outcome ∧ outcome.record?.isSome := by
  constructor
  · rintro ⟨under, content, held, transformed⟩
    obtain ⟨index, decides⟩ := (repeats.stationary.get?_iff planned under).1 held
    obtain ⟨-, before, -, kept⟩ := id decides
    obtain rfl := Except.ok.inj ((repeats.again _ _ _ _ kept).symm.trans transformed)
    exact ⟨decides, rfl⟩
  · rintro ⟨decides, kept⟩
    cases outcome with
    | drop reason => cases kept
    | keep key value index =>
      obtain ⟨under, before, -, transformed⟩ := id decides
      obtain ⟨rfl, -⟩ := repeats.stationary _ _ _ _ _ transformed
      exact ⟨under, value, (repeats.stationary.get?_iff planned under).2 ⟨index, decides⟩,
        repeats.again _ _ _ _ transformed⟩

theorem Pass.Repeats.indexes_iff {entry : Entry} :
    pass.Indexes (store.apply changes) entry ↔ pass.Indexes store entry := by
  simp only [Pass.Indexes, repeats.decides_iff planned]
  refine exists_congr fun source => exists_congr fun outcome => ?_
  cases outcome with
  | drop reason => simp [Outcome.index]
  | keep key value index => simp [Outcome.record?]

/-- What a pass visits on its own output is what it has kept. -/
theorem Pass.Repeats.visits_iff {key : Bytes} :
    pass.Visits (store.apply changes) key ↔ ∃ value, pass.Keeps store (key, value) := by
  constructor
  · rintro ⟨under, content, held⟩
    obtain ⟨index, decides⟩ := (repeats.stationary.get?_iff planned under).1 held
    exact ⟨content, key, _, decides, rfl⟩
  · rintro ⟨value, source, outcome, decides, kept⟩
    obtain ⟨index, rfl⟩ := Outcome.record?_eq_some_iff.1 kept
    obtain ⟨under, before, -, transformed⟩ := id decides
    obtain ⟨rfl, -⟩ := repeats.stationary _ _ _ _ _ transformed
    exact ⟨under, value, (repeats.stationary.get?_iff planned under).2 ⟨index, decides⟩⟩

theorem Pass.Repeats.idle : pass.Idle (store.apply changes) := by
  intro source content under held
  obtain ⟨index, decides⟩ := (repeats.stationary.get?_iff planned under).1 held
  obtain ⟨-, before, -, kept⟩ := id decides
  refine ⟨index, repeats.again _ _ _ _ kept, fun entry member => ⟨?_, ?_⟩⟩
  · exact (repeats.stationary _ _ _ _ _ kept).2 entry member
  · exact (Pass.get?_apply_iff planned).2 (.inl ⟨source, _, decides, .inr member⟩)

end

end

theorem Pass.Idle.apply_eq (idle : pass.Idle store)
    (planned : pass.plan store = .ok (changes, report)) : store.apply changes = store := by
  refine Store.ext_get? fun key => Option.ext fun value => ?_
  rw [Pass.get?_apply_iff planned]
  constructor
  · rintro (puts | ⟨-, held⟩)
    · exact idle.get?_of_puts puts
    · exact held
  · intro held
    by_cases written : ∃ content, pass.Puts store (key, content)
    · obtain ⟨content, puts⟩ := written
      obtain rfl := Option.some.inj ((idle.get?_of_puts puts).symm.trans held)
      exact .inl puts
    · exact .inr ⟨⟨not_exists.1 written, idle.not_leaves key⟩, held⟩

/-- An idle pass succeeds, drops nothing and leaves the store as it is. -/
theorem Pass.Idle.exists_run (idle : pass.Idle store) :
    ∃ report, pass.run store = .ok (store, report) ∧ report.kept = report.visited
      ∧ report.dropped = 0 := by
  obtain ⟨⟨changes, report⟩, planned⟩ := idle.exists_plan
  refine ⟨report, map_eq_ok_iff.2 ⟨_, planned, ?_⟩, idle.counts planned⟩
  exact Prod.ext (idle.apply_eq planned) rfl

/-- A second run of a pass that repeats itself changes nothing, and counts just the records that the
first run kept. -/
theorem Pass.Repeats.run_again (repeats : pass.Repeats)
    (ran : pass.run store = .ok (final, report)) :
    pass.run final = .ok (final, { report with visited := report.kept, dropped := 0 }) := by
  obtain ⟨changes, planned, rfl⟩ := Pass.exists_plan_of_run ran
  obtain ⟨second, again, all, none⟩ := (repeats.idle planned).exists_run
  obtain ⟨_, plannedAgain, -⟩ := Pass.exists_plan_of_run again
  have first := Pass.tallies planned
  have later := Pass.tallies plannedAgain
  -- Both reports count the same keys.
  have visited : second.visited = report.kept := by
    have same : (second.visited : ℕ∞) = report.kept := by
      rw [← later.visited, ← first.kept]
      simp only [repeats.visits_iff planned]
    exact_mod_cast same
  have indexed : second.indexEntries = report.indexEntries := by
    have same : (second.indexEntries : ℕ∞) = report.indexEntries := by
      rw [← later.indexed, ← first.indexed]
      simp only [repeats.indexes_iff planned]
    exact_mod_cast same
  obtain ⟨_, _, -, -, -, rfl⟩ := Pass.plan_eq_ok_iff.1 planned
  obtain ⟨_, _, -, -, -, rfl⟩ := Pass.plan_eq_ok_iff.1 plannedAgain
  rw [again]
  simp only [Pass.report] at visited indexed all none
  simp [Pass.report, visited, indexed, all, none]

end Passes

/-! ## Standard passes -/

theorem Pass.InPlace.stationary {pass : Pass} (inPlace : pass.InPlace) : pass.Stationary := by
  intro source content key value index kept
  obtain ⟨record, same⟩ := inPlace _ _ _ kept
  obtain ⟨rfl, rfl, rfl⟩ := Outcome.keep.inj same
  exact ⟨rfl, nofun⟩

theorem Pass.InPlace.repeats {pass : Pass} (inPlace : pass.InPlace)
    (again : ∀ key content value, pass.transform key content = .ok (.keep key value []) →
      pass.transform key value = .ok (.keep key value [])) : pass.Repeats where
  stationary := inPlace.stationary
  again source content value index kept := by
    obtain ⟨record, same⟩ := inPlace _ _ _ kept
    obtain ⟨-, rfl, rfl⟩ := Outcome.keep.inj same
    exact again source content value kept

theorem accounts_repeats : accounts.Repeats :=
  accounts_inPlace.repeats fun key content value kept => by
    -- Grouping moves no byte, so the record is the one that was read.
    obtain rfl := eq_of_accounts kept
    exact kept

section

variable (codecs : SignDocumentCodecs)

theorem chainLinkVerification_repeats : (chainLinkVerification codecs).Repeats where
  stationary source content key value index kept := by
    obtain ⟨link, -, -, rfl, -, rfl⟩ := chainLinkVerification_eq_keep_iff.1 kept
    refine ⟨rfl, List.forall_mem_singleton.2 ?_⟩
    exact Key.not_scope_of_scope link.scope_prefix_ownerIndexKey (by decide)
  again source content value index kept := by
    obtain ⟨link, -, -, -, rfl, -⟩ := chainLinkVerification_eq_keep_iff.1 kept
    exact kept

theorem chainLinkTags_repeats : (chainLinkTags codecs).Repeats :=
  (chainLinkTags_inPlace codecs).repeats fun key content value kept => by
    obtain ⟨link, proof, -, retagged, written⟩ := chainLinkTags_eq_keep_iff.1 kept
    exact chainLinkTags_eq_keep_iff.2 ⟨{ link with proof := proof }, proof,
      ChainLink.readsBack.decode_encode written, Proof.retag_of_retag retagged, written⟩

end

/-! ## Tags of new envelopes -/

section

variable {codecs other : SignDocumentCodecs} {store enclosed verified : Store} {report : PassReport}

/-- The tag of a new envelope is the one that its plaintext is found to have. -/
theorem chainLinkTags_keeps_enclosed {key content value : Bytes}
    (kept : (chainLinkEnvelopes codecs).transform key content = .ok (.keep key value [])) :
    (chainLinkTags codecs).transform key value = .ok (.keep key value []) := by
  obtain ⟨link, plaintext, -, read, written⟩ := chainLinkEnvelopes_eq_keep_iff.1 kept
  have retagged : (link.enclose (codecs.classify plaintext)).proof.retag codecs
      = .ok (link.enclose (codecs.classify plaintext)).proof :=
    BareChainLink.retag_enclose (decodePlaintext_eq_ok_iff.1 read)
  exact chainLinkTags_eq_keep_iff.2 ⟨link.enclose (codecs.classify plaintext), _,
    ChainLink.readsBack.decode_encode written, retagged, written⟩

variable (ran : (chainLinkEnvelopes codecs).run store = .ok (enclosed, report))
include ran

theorem chainLinkTags_keeps_of_enclosed {key record : Bytes}
    (ofLinks : Key.scope Key.chainLinks <+: key) (held : enclosed.get? key = some record) :
    (chainLinkTags codecs).transform key record = .ok (.keep key record []) := by
  obtain ⟨changes, planned, rfl⟩ := Pass.exists_plan_of_run ran
  have inPlace := chainLinkEnvelopes_inPlace codecs
  obtain ⟨index, -, content, -, kept⟩ := (inPlace.stationary.get?_iff planned ofLinks).1 held
  obtain ⟨value, same⟩ := inPlace _ _ _ kept
  obtain ⟨-, rfl, rfl⟩ := Outcome.keep.inj same
  exact chainLinkTags_keeps_enclosed kept

theorem chainLinkTags_idle_of_enclosed : (chainLinkTags codecs).Idle enclosed :=
  fun _ _ ofLinks held => ⟨[], chainLinkTags_keeps_of_enclosed ran ofLinks held, nofun⟩

/-- Verification in between takes records away and changes none. -/
theorem chainLinkTags_idle_of_verified {second : PassReport}
    (ranToo : (chainLinkVerification other).run enclosed = .ok (verified, second)) :
    (chainLinkTags codecs).Idle verified := by
  intro key record ofLinks held
  obtain ⟨link, -, before, -⟩ := (get?_verified_iff ranToo ofLinks).1 held
  exact ⟨[], chainLinkTags_keeps_of_enclosed ran ofLinks before, nofun⟩

end

/-- A second run of grouping, of verification or of tagging succeeds where the first did. It changes
nothing and drops nothing, and visits and keeps what the first run kept. Tagging does nothing on
what the same codecs have just put in envelopes, with or without verification in between. -/
theorem second_run_changes_nothing (codecs : SignDocumentCodecs) :
    (∀ pass ∈ [accounts, chainLinkVerification codecs, chainLinkTags codecs],
        ∀ store final report, pass.run store = .ok (final, report) →
          pass.run final = .ok (final, { report with visited := report.kept, dropped := 0 }))
      ∧ ∀ store enclosed report, (chainLinkEnvelopes codecs).run store = .ok (enclosed, report) →
        (∃ tags, (chainLinkTags codecs).run enclosed = .ok (enclosed, tags)
            ∧ tags.kept = tags.visited ∧ tags.dropped = 0)
          ∧ ∀ other verified second,
            (chainLinkVerification other).run enclosed = .ok (verified, second) →
            ∃ tags, (chainLinkTags codecs).run verified = .ok (verified, tags)
              ∧ tags.kept = tags.visited ∧ tags.dropped = 0 := by
  have repeats : ∀ pass ∈ [accounts, chainLinkVerification codecs, chainLinkTags codecs],
      pass.Repeats := by
    simp [accounts_repeats, chainLinkVerification_repeats, chainLinkTags_repeats]
  refine ⟨fun pass member store final report ran => (repeats pass member).run_again ran,
    fun store enclosed report ran => ⟨?_, fun other verified second ranToo => ?_⟩⟩
  · exact (chainLinkTags_idle_of_enclosed ran).exists_run
  · exact (chainLinkTags_idle_of_verified ran ranToo).exists_run

theorem second_run_changes_nothing_strangerLink :
    ∃ final report,
      (chainLinkVerification .standard).run (referring [soundLink, strangerLink] soundLink)
          = .ok (final, report)
        ∧ report.visited = 2 ∧ report.dropped = 1
        ∧ ∃ second, (chainLinkVerification .standard).run final = .ok (final, second)
          ∧ second.visited = 1 ∧ second.kept = 1 ∧ second.dropped = 0 := by
  have runs : (((chainLinkVerification .standard).run
      (referring [soundLink, strangerLink] soundLink)).map (·.2)).toOption.map
        (fun report => (report.visited, report.kept, report.dropped)) = some (2, 1, 1) := by
    decide +kernel
  cases ran : (chainLinkVerification .standard).run
      (referring [soundLink, strangerLink] soundLink) with
  | error error =>
    rw [ran] at runs
    cases runs
  | ok outcome =>
    obtain ⟨final, report⟩ := outcome
    rw [ran] at runs
    obtain ⟨visited, rest⟩ := Prod.mk.inj (Option.some.inj runs)
    obtain ⟨kept, dropped⟩ := Prod.mk.inj rest
    have again := (second_run_changes_nothing .standard).1 _ (by simp) _ final report ran
    exact ⟨final, report, rfl, visited, dropped, _, again, kept, kept, rfl⟩

end LinkRegistry.Migration
