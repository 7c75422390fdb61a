import LinkRegistry.Proofs.Binary.Canonical
import LinkRegistry.Proofs.Migration.ChainLinks
import LinkRegistry.Proofs.Migration.Separate

/-!
# Records under new keys

Up to the third version every tag, application link and chain link of the earlier layout comes to a
free key made of its own fields, as it is, no two of them to one key. Client identifiers name the
links that carry them. All else stays, accounts among it: their records read the same in both
shapes.
-/

namespace LinkRegistry.Migration

/-! ## Accounts stay -/

section Accounts

variable {step : Step} {store : Store} {changes : List Store.Change} {reports : List PassReport}
  {key content value : Bytes}

theorem accounts_eq_keep_iff :
    accounts.transform key content = .ok (.keep key value [])
      ↔ ∃ account, FlatAccount.codec.decode content = .ok account
          ∧ Account.codec.encode? account.group = some value := by
  simp only [accounts, bind_eq_ok_iff, readRecord_eq_ok_iff, writeRecord_eq_ok_iff,
    Except.ok.injEq, Outcome.keep.injEq, true_and, and_true]
  constructor
  · rintro ⟨account, read, record, written, rfl⟩
    exact ⟨account, read, written⟩
  · rintro ⟨account, read, written⟩
    exact ⟨account, read, value, written, rfl⟩

theorem eq_of_accounts (kept : accounts.transform key content = .ok (.keep key value [])) :
    value = content := by
  obtain ⟨account, read, written⟩ := accounts_eq_keep_iff.1 kept
  rw [← Binary.Codec.write_of_encode? written, FlatAccount.write_group_of_decode read]

/-- The step that groups pictures leaves every record as it is. -/
theorem get?_land_accounts_of_ne (only : step.passes = [accounts])
    (planned : step.plan store = .ok (changes, reports)) (other : key ≠ Key.schemaVersion) :
    (step.land changes store).get? key = store.get? key := by
  -- Outside its scope the step touches nothing, and inside it writes what it has read.
  by_cases ofAccounts : Key.scope Key.accounts <+: key
  · refine Option.ext fun value => ?_
    have landed (next : Bytes) : (step.land changes store).get? key = some next
        ↔ ∃ content, store.get? key = some content
            ∧ accounts.transform key content = .ok (.keep key next []) :=
      Step.get?_land_inPlace accounts_inPlace only planned other ofAccounts
    constructor
    · intro found
      obtain ⟨content, held, kept⟩ := (landed value).1 found
      rwa [eq_of_accounts kept]
    · intro held
      obtain ⟨next, found⟩ :=
        step.exists_get?_land_inPlace accounts_inPlace only planned other ofAccounts held
      obtain ⟨content, also, kept⟩ := (landed next).1 found
      rwa [Option.some.inj (held.symm.trans also), ← eq_of_accounts kept]
  · exact get?_land_accounts only planned other ofAccounts

/-- From the first version or the second, steps run as from the second, but for the version that the
store carries. -/
theorem exists_ran_from_second {current : SchemaVersion} {rest : List Step} {final : Store}
    {done : List StepReport} (early : current = 1 ∨ current = 2)
    (ran : Ran store (pending current (⟨"account-shape-upgrade", 1, 2, [accounts]⟩ :: rest)) done
      final) :
    ∃ next later, (∀ key, key ≠ Key.schemaVersion → next.get? key = store.get? key)
      ∧ Ran next (pending 2 rest) later final := by
  rcases early with rfl | rfl
  · -- The step of the first version lands, and changes no record.
    rw [pending, if_neg (by decide)] at ran
    cases ran with | cons _ _ planned ran
    exact ⟨_, _, fun key other => get?_land_accounts_of_ne rfl planned other, ran⟩
  · rw [pending, if_pos (by decide)] at ran
    exact ⟨store, done, fun _ _ => rfl, ran⟩

end Accounts

/-! ## Records that move -/

/-- A record of the earlier layout and the entry that it becomes: the same record, at a key made of
its own fields. -/
inductive Moves (store : Store) (source : Bytes) : Entry → Prop
  | tag {record : Bytes} {tag : String} (early : EarlyTag store source record tag) :
    Moves store source (Key.dtag tag, record)
  | applicationLink {record : Bytes} {link : ApplicationLink}
      (early : EarlyApplicationLink store source record link) :
    Moves store source (link.key, record)
  | chainLink {record : Bytes} {link : BareChainLink}
      (early : EarlyLink store source record link) :
    Moves store source (link.key, record)

/-- The leads of keys of the earlier layout. -/
def earlyFamilies : List UInt8 :=
  [Key.Early.dtagFamily, Key.Early.applicationLinkFamily, Key.Early.clientIdFamily,
    Key.Early.chainLinkFamily]

/-- What the move to keys with separators makes of a store. -/
structure Rekeyed (store final : Store) : Prop where
  /-- No key of the earlier layout is left. -/
  cleared : ∀ lead ∈ earlyFamilies, ∀ key, [lead] <+: key → final.get? key = none
  /-- Every record of the earlier layout moves, but for the index of client identifiers. -/
  moves : ∀ lead ∈ earlyFamilies, lead ≠ Key.Early.clientIdFamily → ∀ source record,
    [lead] <+: source → store.get? source = some record →
    ∃ destination, Moves store source (destination, record)
  moved : ∀ source entry, Moves store source entry → final.get? entry.1 = some entry.2
  fresh : ∀ source entry, Moves store source entry → store.get? entry.1 = none
  distinct : ∀ one two entry twin, Moves store one entry → Moves store two twin →
    entry.1 = twin.1 → one = two
  named : ∀ source record link, EarlyApplicationLink store source record link →
    final.get? (Key.clientId link.clientId) = some link.key
      ∧ ∀ held, store.get? (Key.clientId link.clientId) = some held → held = link.key
  /-- A client identifier that is new, or names something else than before, names a link that
  carries it. -/
  resolves : ∀ key destination, Key.scope Key.clientIds <+: key →
    final.get? key = some destination → store.get? key ≠ some destination →
    ∃ record link, key = Key.clientId link.clientId ∧ destination = link.key
      ∧ final.get? destination = some record ∧ ApplicationLink.codec.decode record = .ok link
  kept : ∀ key, key ≠ Key.schemaVersion → (∀ lead ∈ earlyFamilies, ¬ [lead] <+: key) →
    (∀ source entry, Moves store source entry → key ≠ entry.1) →
    (∀ source record link, EarlyApplicationLink store source record link →
      key ≠ Key.clientId link.clientId) →
    final.get? key = store.get? key

section Moving

variable {step : Step} {store next : Store} {changes : List Store.Change}
  {reports : List PassReport} {source : Bytes} {entry : Entry}

theorem mem_movingPasses_iff {pass : Pass} :
    pass ∈ movingPasses ↔ pass = dtags ∨ pass = applicationLinks ∨ pass = earlyClientIds
      ∨ pass = chainLinks := by
  simp [movingPasses]

/-- The records that move are those that some pass keeps. -/
theorem moves_iff :
    Moves store source entry
      ↔ ∃ pass ∈ movingPasses, ∃ outcome, pass.Decides store source outcome
          ∧ outcome.record? = some entry := by
  constructor
  · rintro (early | early | early)
    · exact ⟨dtags, by simp [movingPasses], _, dtags_decides_iff.2 ⟨_, _, early, rfl⟩, rfl⟩
    · exact ⟨applicationLinks, by simp [movingPasses], _,
        applicationLinks_decides_iff.2 ⟨_, _, early, rfl⟩, rfl⟩
    · exact ⟨chainLinks, by simp [movingPasses], _, chainLinks_decides_iff.2 ⟨_, _, early, rfl⟩,
        rfl⟩
  · -- Each kind of record has a pass of its own, and one pass drops all that it visits.
    rintro ⟨pass, member, outcome, decides, kept⟩
    rcases mem_movingPasses_iff.1 member with rfl | rfl | rfl | rfl
    · obtain ⟨record, tag, early, rfl⟩ := dtags_decides_iff.1 decides
      obtain rfl := Option.some.inj kept
      exact .tag early
    · obtain ⟨record, link, early, rfl⟩ := applicationLinks_decides_iff.1 decides
      obtain rfl := Option.some.inj kept
      exact .applicationLink early
    · exact absurd ⟨source, outcome, decides, .inl kept⟩ not_earlyClientIds_puts
    · obtain ⟨record, link, early, rfl⟩ := chainLinks_decides_iff.1 decides
      obtain rfl := Option.some.inj kept
      exact .chainLink early

/-- What is put beside the records that move are the client identifiers of application links. -/
theorem puts_moving_iff :
    (∃ pass ∈ movingPasses, pass.Puts store entry)
      ↔ (∃ source, Moves store source entry)
        ∨ ∃ source record link, EarlyApplicationLink store source record link
            ∧ entry = (Key.clientId link.clientId, link.key) := by
  constructor
  · rintro ⟨pass, member, source, outcome, decides, kept | named⟩
    · exact .inl ⟨source, moves_iff.2 ⟨pass, member, outcome, decides, kept⟩⟩
    · -- Only the pass of the application links has an index entry to put.
      rcases mem_movingPasses_iff.1 member with rfl | rfl | rfl | rfl
      · obtain ⟨_, _, -, rfl⟩ := dtags_decides_iff.1 decides
        cases named
      · obtain ⟨record, link, early, rfl⟩ := applicationLinks_decides_iff.1 decides
        exact .inr ⟨source, record, link, early, List.mem_singleton.1 named⟩
      · exact absurd ⟨source, outcome, decides, .inr named⟩ not_earlyClientIds_puts
      · obtain ⟨_, _, -, rfl⟩ := chainLinks_decides_iff.1 decides
        cases named
  · rintro (⟨source, moves⟩ | ⟨source, record, link, early, rfl⟩)
    · obtain ⟨pass, member, outcome, decides, kept⟩ := moves_iff.1 moves
      exact ⟨pass, member, source, outcome, decides, .inl kept⟩
    · exact ⟨applicationLinks, by simp [movingPasses], source, _,
        applicationLinks_decides_iff.2 ⟨record, link, early, rfl⟩, .inr (.head _)⟩

/-- All that is put has a key with separators. -/
theorem exists_scope_of_puts_moving {pass : Pass} (member : pass ∈ movingPasses)
    (puts : pass.Puts store entry) :
    ∃ family ∈ [Key.dtags, Key.userApplicationLink, Key.clientIds, Key.chainLinks],
      Key.scope family <+: entry.1 := by
  rcases mem_movingPasses_iff.1 member with rfl | rfl | rfl | rfl
  · exact ⟨_, by simp, dtags_puts puts⟩
  · exact (applicationLinks_puts puts).elim (fun moved => ⟨_, by simp, moved⟩)
      fun named => ⟨_, by simp, named⟩
  · exact absurd puts not_earlyClientIds_puts
  · obtain ⟨family, among, under⟩ := chainLinks_putsWithin store entry puts
    exact ⟨family, by simp [List.mem_singleton.1 among], under⟩

theorem ne_schemaVersion_of_puts_moving {pass : Pass} (member : pass ∈ movingPasses)
    (puts : pass.Puts store entry) : entry.1 ≠ Key.schemaVersion := by
  obtain ⟨family, -, under⟩ := exists_scope_of_puts_moving member puts
  exact ne_schemaVersion_of_scope under

/-- Nothing that is put has a key of the earlier layout. -/
theorem not_lead_of_puts_moving {pass : Pass} (member : pass ∈ movingPasses)
    (puts : pass.Puts store entry) {lead : UInt8} (early : lead ∈ earlyFamilies) :
    ¬ [lead] <+: entry.1 := by
  obtain ⟨family, among, under⟩ := exists_scope_of_puts_moving member puts
  have foreign : ∀ family ∈ [Key.dtags, Key.userApplicationLink, Key.clientIds, Key.chainLinks],
      ∀ lead ∈ earlyFamilies, (Key.scope family).head? ≠ some lead := by decide +kernel
  exact Key.not_lead_of_scope under (foreign family among lead early)

/-- The leads of the earlier layout are the scopes of the passes that move records. -/
theorem exists_scope_of_early {lead : UInt8} (early : lead ∈ earlyFamilies) :
    ∃ pass ∈ movingPasses, pass.scope = [lead] := by
  revert lead early
  simp [movingPasses, earlyFamilies, dtags, applicationLinks, earlyClientIds, chainLinks]

theorem exists_lead_of_moving {pass : Pass} (member : pass ∈ movingPasses) :
    ∃ lead ∈ earlyFamilies, pass.scope = [lead] := by
  revert pass member
  simp [movingPasses, earlyFamilies, dtags, applicationLinks, earlyClientIds, chainLinks]

theorem not_scope_of_puts_moving {pass other : Pass} (member : pass ∈ movingPasses)
    (puts : pass.Puts store entry) (among : other ∈ movingPasses) : ¬ other.scope <+: entry.1 := by
  obtain ⟨lead, early, scope⟩ := exists_lead_of_moving among
  rw [scope]
  exact not_lead_of_puts_moving member puts early

/-- A record moves to a family of its kind, which is not that of client identifiers. -/
theorem Moves.not_scope_clientIds (moves : Moves store source entry) :
    ¬ Key.scope Key.clientIds <+: entry.1 := by
  have away {family : String} {fields : List Bytes} {field : Bytes}
      (differ : Key.Plain family ∧ Key.Plain Key.clientIds ∧ family ≠ Key.clientIds) :
      ¬ Key.scope Key.clientIds <+: Key.compose family (field :: fields) :=
    Key.not_scope_of_scope (Key.scope_prefix_compose ..) differ
  cases moves with
  | tag early => exact away (by decide)
  | applicationLink early => exact away (by decide)
  | chainLink early => exact away (by decide)

theorem ne_schemaVersion_of_early {lead : UInt8} (early : lead ∈ earlyFamilies) {key : Bytes}
    (under : [lead] <+: key) : key ≠ Key.schemaVersion := by
  have foreign : ∀ lead ∈ earlyFamilies, ¬ [lead] <+: Key.schemaVersion := by decide +kernel
  rintro rfl
  exact foreign lead early under

/-! ## What the step leaves -/

section Landing

variable (only : step.passes = movingPasses) (planned : step.plan store = .ok (changes, reports))
include only planned

theorem get?_land_of_puts_moving {pass : Pass} (member : pass ∈ movingPasses)
    (puts : pass.Puts store entry) : (step.land changes store).get? entry.1 = some entry.2 :=
  (step.get?_land_iff planned (ne_schemaVersion_of_puts_moving member puts)).2
    (.inl ⟨pass, only ▸ member, puts⟩)

/-- Every record under a lead of the earlier layout leaves it. -/
theorem get?_land_of_early {lead : UInt8} (early : lead ∈ earlyFamilies) {key : Bytes}
    (under : [lead] <+: key) : (step.land changes store).get? key = none := by
  refine Option.eq_none_iff_forall_ne_some.2 fun value found => ?_
  rw [step.get?_land_iff planned (ne_schemaVersion_of_early early under), only] at found
  rcases found with ⟨pass, member, puts⟩ | ⟨untouched, held⟩
  · exact not_lead_of_puts_moving member puts early under
  · -- The pass of this lead decides for the record, and keeps nothing at its old key.
    obtain ⟨pass, member, scope⟩ := exists_scope_of_early early
    obtain ⟨own, each⟩ := step.planned planned pass (only ▸ member)
    have visited : pass.scope <+: key := scope ▸ under
    obtain ⟨outcome, transformed⟩ := each.decides key value visited held
    have decides : pass.Decides store key outcome := ⟨visited, value, held, transformed⟩
    refine (untouched pass member).2 ⟨outcome, decides, fun entry kept same => ?_⟩
    exact not_lead_of_puts_moving member ⟨key, outcome, decides, .inl kept⟩ early (same ▸ under)

theorem exists_moves_of_early {lead : UInt8} (early : lead ∈ earlyFamilies)
    (other : lead ≠ Key.Early.clientIdFamily) {source record : Bytes} (under : [lead] <+: source)
    (held : store.get? source = some record) :
    ∃ destination, Moves store source (destination, record) := by
  obtain ⟨pass, member, scope⟩ := exists_scope_of_early early
  obtain ⟨own, each⟩ := step.planned planned pass (only ▸ member)
  have visited : pass.scope <+: source := scope ▸ under
  obtain ⟨outcome, transformed⟩ := each.decides source record visited held
  have decides : pass.Decides store source outcome := ⟨visited, record, held, transformed⟩
  -- Each of the passes moves what it visits, but for that of the client identifiers.
  rcases mem_movingPasses_iff.1 member with rfl | rfl | rfl | rfl
  · obtain ⟨content, tag, own, -⟩ := dtags_decides_iff.1 decides
    obtain rfl := Option.some.inj (held.symm.trans own.2)
    exact ⟨_, .tag own⟩
  · obtain ⟨content, link, own, -⟩ := applicationLinks_decides_iff.1 decides
    obtain rfl := Option.some.inj (held.symm.trans own.2.1)
    exact ⟨_, .applicationLink own⟩
  · exact absurd (List.singleton_inj.1 scope).symm other
  · obtain ⟨content, link, own, -⟩ := chainLinks_decides_iff.1 decides
    obtain rfl := Option.some.inj (held.symm.trans own.2.1)
    exact ⟨_, .chainLink own⟩

theorem get?_eq_none_of_moves (moves : Moves store source entry) : store.get? entry.1 = none := by
  obtain ⟨pass, member, outcome, decides, kept⟩ := moves_iff.1 moves
  obtain ⟨own, report, here⟩ := step.exists_plan planned pass (only ▸ member)
  have outside := not_scope_of_puts_moving member ⟨source, outcome, decides, .inl kept⟩ member
  exact Pass.get?_eq_none_of_record here outside decides kept

theorem source_eq_of_moves {one two : Bytes} {twin : Entry} (moves : Moves store one entry)
    (also : Moves store two twin) (same : entry.1 = twin.1) : one = two := by
  -- Records of one kind are told apart by their pass, and records of two kinds by their families.
  have apart : step.KeepsApart store := by
    rw [Step.KeepsApart, only]
    exact standardSteps_keepApart ⟨"re-key-indexes", 2, 3, movingPasses⟩ (.tail _ (.head _)) store
  obtain ⟨pass, member, outcome, decides, kept⟩ := moves_iff.1 moves
  obtain ⟨other, among, second, decidesToo, keptToo⟩ := moves_iff.1 also
  exact apart.source_eq planned (only ▸ member) (only ▸ among) decides decidesToo kept keptToo same

/-- A client identifier that is there already names the link that is moved. -/
theorem eq_key_of_clientId {record held : Bytes} {link : ApplicationLink}
    (early : EarlyApplicationLink store source record link)
    (found : store.get? (Key.clientId link.clientId) = some held) : held = link.key := by
  have member : applicationLinks ∈ movingPasses := by simp [movingPasses]
  obtain ⟨own, report, here⟩ := step.exists_plan planned applicationLinks (only ▸ member)
  have decides := applicationLinks_decides_iff.2 ⟨record, link, early, rfl⟩
  have outside := not_scope_of_puts_moving member ⟨source, _, decides, .inr (.head _)⟩ member
  exact Pass.eq_of_index here outside decides (.head _) found

/-- The step that moves records rekeys the store. -/
theorem rekeyed_land : Rekeyed store (step.land changes store) where
  cleared _ early _ under := get?_land_of_early only planned early under
  moves _ early other _ _ under held := exists_moves_of_early only planned early other under held
  moved source entry moves := by
    obtain ⟨pass, member, puts⟩ := puts_moving_iff.2 (.inl ⟨source, moves⟩)
    exact get?_land_of_puts_moving only planned member puts
  fresh _ _ moves := get?_eq_none_of_moves only planned moves
  distinct _ _ _ _ moves also same := source_eq_of_moves only planned moves also same
  named source record link early := by
    obtain ⟨pass, member, puts⟩ := puts_moving_iff.2 (.inr ⟨source, record, link, early, rfl⟩)
    exact ⟨get?_land_of_puts_moving only planned member puts,
      fun held found => eq_key_of_clientId only planned early found⟩
  resolves key destination ofClients found new := by
    rw [step.get?_land_iff planned (ne_schemaVersion_of_scope ofClients), only] at found
    -- No record is moved under the client ids, so what is new there names a link that was moved.
    rcases found with puts | ⟨-, held⟩
    · rcases puts_moving_iff.1 puts with ⟨source, moves⟩ | ⟨source, record, link, early, same⟩
      · exact absurd ofClients moves.not_scope_clientIds
      · obtain ⟨rfl, rfl⟩ := Prod.mk.inj same
        obtain ⟨pass, member, puts⟩ := puts_moving_iff.2 (.inl ⟨source, .applicationLink early⟩)
        exact ⟨record, link, rfl, rfl, get?_land_of_puts_moving only planned member puts,
          early.2.2⟩
    · exact absurd held new
  kept key other away unmoved unnamed := by
    refine step.get?_land_of_untouched planned other (fun pass member under => ?_)
      fun pass member value puts => ?_
    · obtain ⟨lead, early, scope⟩ := exists_lead_of_moving (only ▸ member)
      exact away lead early (scope ▸ under)
    · rw [only] at member
      rcases puts_moving_iff.1 ⟨pass, member, puts⟩ with
        ⟨source, moves⟩ | ⟨source, record, link, early, same⟩
      · exact unmoved source _ moves rfl
      · exact unnamed source record link early (Prod.mk.inj same).1

end Landing

/-! ## Runs to the third version -/

section Agreement

variable {final : Store} (agree : ∀ key, key ≠ Key.schemaVersion → next.get? key = store.get? key)
include agree

theorem EarlyApplicationLink.of_agree {record : Bytes} {link : ApplicationLink}
    (early : EarlyApplicationLink store source record link) :
    EarlyApplicationLink next source record link := by
  obtain ⟨under, held, read⟩ := early
  exact ⟨under, (agree source (ne_schemaVersion_of_early (by decide) under)).trans held, read⟩

theorem EarlyLink.of_agree {record : Bytes} {link : BareChainLink}
    (early : EarlyLink store source record link) : EarlyLink next source record link := by
  obtain ⟨under, held, read⟩ := early
  exact ⟨under, (agree source (ne_schemaVersion_of_early (by decide) under)).trans held, read⟩

/-- Stores that differ in nothing but their version move the same records. -/
theorem Moves.of_agree (moves : Moves store source entry) : Moves next source entry := by
  cases moves with
  | tag early =>
    obtain ⟨place, held⟩ := early
    have other : source ≠ Key.schemaVersion :=
      ne_schemaVersion_of_early (by decide) (place ▸ prefix_earlyDtag _)
    exact .tag ⟨place, (agree source other).trans held⟩
  | applicationLink early => exact .applicationLink (early.of_agree agree)
  | chainLink early => exact .chainLink (early.of_agree agree)

theorem Rekeyed.of_agree (rekeyed : Rekeyed next final) : Rekeyed store final := by
  -- All keys that the fields are about are of records, so the stores agree there.
  have back (key : Bytes) (other : key ≠ Key.schemaVersion) : store.get? key = next.get? key :=
    (agree key other).symm
  exact {
    cleared := rekeyed.cleared
    moves := fun lead early named source record under held => by
      rw [back source (ne_schemaVersion_of_early early under)] at held
      obtain ⟨destination, moves⟩ := rekeyed.moves lead early named source record under held
      exact ⟨destination, moves.of_agree back⟩
    moved := fun source entry moves => rekeyed.moved source entry (moves.of_agree agree)
    fresh := fun source entry moves => by
      have other : entry.1 ≠ Key.schemaVersion := by
        obtain ⟨pass, member, puts⟩ := puts_moving_iff.2 (.inl ⟨source, moves⟩)
        exact ne_schemaVersion_of_puts_moving member puts
      rw [back entry.1 other]
      exact rekeyed.fresh source entry (moves.of_agree agree)
    distinct := fun one two entry twin moves also =>
      rekeyed.distinct one two entry twin (moves.of_agree agree) (also.of_agree agree)
    named := fun source record link early => by
      have other : Key.clientId link.clientId ≠ Key.schemaVersion :=
        ne_schemaVersion_of_scope (Key.scope_prefix_compose ..)
      rw [back _ other]
      exact rekeyed.named source record link (early.of_agree agree)
    resolves := fun key destination ofClients found new => by
      rw [back key (ne_schemaVersion_of_scope ofClients)] at new
      exact rekeyed.resolves key destination ofClients found new
    kept := fun key other away unmoved unnamed => by
      rw [back key other]
      exact rekeyed.kept key other away
        (fun source entry moves => unmoved source entry (moves.of_agree back))
        fun source record link early => unnamed source record link (early.of_agree back) }

end Agreement

/-- A store at the first version or the second is rekeyed by a standard run to the third that
succeeds. -/
theorem standard_run_rekeys {final : Store} {done : List StepReport}
    (version : store.get? Key.schemaVersion = none
      ∨ store.get? Key.schemaVersion = some (versionBytes 1)
      ∨ store.get? Key.schemaVersion = some (versionBytes 2))
    (succeeded : standard.runTo 3 store = (final, .ok done)) : Rekeyed store final := by
  obtain ⟨current, early, due⟩ := exists_currentVersion_of_early version
  -- The run does not come to the steps beyond the first two.
  have ran : Ran store (pending current (standardSteps.take 2)) done final :=
    standard.ran_of_runTo (List.take_append_drop 2 standardSteps).symm (by decide) (by decide) due
      succeeded
  obtain ⟨next, later, agree, ran⟩ := exists_ran_from_second early ran
  cases ran with | cons _ _ planned ran
  cases ran
  exact (rekeyed_land rfl planned).of_agree agree

end Moving

/-- A store of the earlier layout with records of every kind and an account. -/
def earlyRegistry : Store :=
  let linked := earlyRecords.insert
    (Key.Early.chainLink "a12uel5l" "cosmos" "2U8CyXAfjkDq5brpzNBUHEoneb8")
    (BareChainLink.codec.write (neutralBareLink 7))
  linked.insert (Key.account "a12uel5l")
    (FlatAccount.codec.write (.profiled ⟨⟨"a12uel5l", none, 1, 2⟩, "Alice", "", "", "p", "c", 7⟩))

theorem standard_run_rekeys_earlyRegistry :
    ∃ final reports, standard.runTo 3 earlyRegistry = (final, .ok reports)
      ∧ final.entries.map (·.1)
        = [Key.account "a12uel5l", (neutralBareLink 7).key, Key.clientId "client-1",
            Key.dtag "alice", Key.schemaVersion, earlyApplicationLink.key]
      ∧ Rekeyed earlyRegistry final := by
  have evaluated : (standard.runTo 3 earlyRegistry).2.isOk = true
      ∧ (standard.runTo 3 earlyRegistry).1.entries.map (·.1)
        = [Key.account "a12uel5l", (neutralBareLink 7).key, Key.clientId "client-1",
            Key.dtag "alice", Key.schemaVersion, earlyApplicationLink.key] := by decide +kernel
  have unversioned : earlyRegistry.get? Key.schemaVersion = none := by decide +kernel
  obtain ⟨finishes, keys⟩ := evaluated
  obtain ⟨reports, succeeded⟩ := exists_run_eq_ok finishes
  exact ⟨_, reports, succeeded, keys, standard_run_rekeys (.inl unversioned) succeeded⟩

end LinkRegistry.Migration
