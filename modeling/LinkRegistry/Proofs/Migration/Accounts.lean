import LinkRegistry.Proofs.Binary.Records
import LinkRegistry.Proofs.Migration.Rekeying
import LinkRegistry.Proofs.Migration.SinglePass

/-!
# Accounts in two shapes

The two shapes of an account are two presentations of one record: reading in the present shape is
reading in the earlier one and then grouping the pictures, byte for byte and failure for failure. So
the step that groups pictures keeps every record as it is, whenever it can read them all. Main
statement, `accounts_read_alike`.
-/

namespace LinkRegistry

namespace Binary

variable {α β γ : Type}

/-! ## Readers in a row -/

theorem Reader.pure_andThen (value : α) (next : α → Reader β) :
    (Reader.pure value).andThen next = next value := rfl

theorem Reader.andThen_assoc (first : Reader α) (next : α → Reader β) (last : β → Reader γ) :
    (first.andThen next).andThen last
      = first.andThen fun value => (next value).andThen last := by
  funext input
  simp only [Reader.andThen]
  cases first input <;> rfl

theorem Reader.map_map (reader : Reader α) (change : α → β) (again : β → γ) :
    (reader.map change).map again = reader.map fun value => again (change value) := by
  simp only [Reader.map, Reader.andThen_assoc, Reader.pure_andThen]

theorem Codec.decode_eq_map {first : Codec α} {second : Codec β} {change : α → β}
    (alike : second.read = first.read.map change) (record : Bytes) :
    second.decode record = (first.decode record).map change := by
  simp only [Codec.decode, alike, Reader.map, Reader.andThen]
  cases first.read record with
  | error error => rfl
  | ok found =>
    obtain ⟨value, rest⟩ := found
    cases rest <;> rfl

/-- A choice is read alike in two formats whose cases are. -/
theorem Codec.read_either_eq_map {one : Codec α} {two : Codec β} {other : Codec γ}
    {change : β → γ} (alike : other.read = two.read.map change) :
    (one.either other).read = (one.either two).read.map (Sum.map id change) := by
  simp only [Codec.either, Reader.map, Reader.andThen_assoc, alike]
  congr 1
  funext tag
  -- Only the second case is presented anew.
  split
  · simp only [Reader.andThen_assoc, Reader.pure_andThen]
    rfl
  split
  · simp only [Reader.andThen_assoc, Reader.pure_andThen]
    rfl
  · rfl

end Binary

open Binary Binary.Codec

/-! ## Profiles -/

theorem FlatProfile.read_group :
    Profile.codec.read = FlatProfile.codec.read.map FlatProfile.group := by
  -- The pictures are two texts in a row in both, so only the brackets differ.
  simp only [Profile.codec, FlatProfile.codec, Pictures.codec, Codec.via, Codec.pair, Reader.map,
    Reader.andThen_assoc, Reader.pure_andThen]
  rfl

theorem FlatAccount.read_group :
    Account.codec.read = FlatAccount.codec.read.map FlatAccount.group := by
  simp only [Account.codec, FlatAccount.codec, Codec.via,
    Codec.read_either_eq_map FlatProfile.read_group, Reader.map_map]
  congr 1
  funext choice
  cases choice <;> rfl

/-- Both shapes are read from the same records, and refused for the same reasons. -/
theorem FlatAccount.decode_group (record : Bytes) :
    Account.codec.decode record = (FlatAccount.codec.decode record).map FlatAccount.group :=
  Codec.decode_eq_map FlatAccount.read_group record

/-- An account of the earlier shape and one of the present shape say the same. -/
inductive FlatAccount.SaysAs : FlatAccount → Account → Prop
  | base (account : BaseAccount) : SaysAs (.base account) (.base account)
  | profiled {flat : FlatProfile} {profile : Profile} (account : profile.account = flat.account)
      (dtag : profile.dtag = flat.dtag) (nickname : profile.nickname = flat.nickname)
      (bio : profile.bio = flat.bio) (creationTime : profile.creationTime = flat.creationTime)
      (picture : profile.pictures.profile = flat.profilePicture)
      (cover : profile.pictures.cover = flat.coverPicture) :
      SaysAs (.profiled flat) (.profiled profile)

theorem FlatAccount.saysAs_group (flat : FlatAccount) : flat.SaysAs flat.group := by
  cases flat with
  | base account => exact .base account
  | profiled profile => exact .profiled rfl rfl rfl rfl rfl rfl rfl

namespace Migration

/-! ## The pass and its step -/

theorem accounts_keeps_of_decode {record : Bytes} {flat : FlatAccount}
    (read : FlatAccount.codec.decode record = .ok flat) (key : Bytes) :
    accounts.transform key record = .ok (.keep key record []) := by
  apply accounts_eq_keep_iff.2
  refine ⟨flat, read, Account.faithful.encode_of_decode ?_⟩
  rw [FlatAccount.decode_group, read]
  rfl

section Steps

variable {store : Store}

/-- Every record among the accounts reads as an account of the earlier shape. -/
def AccountsRead (store : Store) : Prop :=
  ∀ key record, Key.scope Key.accounts <+: key → store.get? key = some record →
    ∃ flat, FlatAccount.codec.decode record = .ok flat

theorem accounts_idle (legible : AccountsRead store) : accounts.Idle store := by
  intro key record under held
  obtain ⟨flat, read⟩ := legible key record under held
  exact ⟨[], accounts_keeps_of_decode read key, nofun⟩

theorem exists_run_accounts_iff {step : Step} (only : step.passes = [accounts]) :
    (∃ next report, step.run store = .ok (next, report)) ↔ AccountsRead store := by
  constructor
  · rintro ⟨next, report, ran⟩ key record under held
    obtain ⟨changes, reports, planned, -, -⟩ := Step.run_eq_ok_iff.1 ran
    obtain ⟨own, each⟩ := step.planned planned accounts (by simp [only])
    -- What was decided for was read first.
    obtain ⟨outcome, transformed⟩ := each.decides key record under held
    obtain ⟨value, rfl⟩ := accounts_inPlace key record outcome transformed
    obtain ⟨flat, read, -⟩ := accounts_eq_keep_iff.1 transformed
    exact ⟨flat, read⟩
  · intro legible
    have fits := (accounts_idle legible).fits
    obtain ⟨⟨changes, reports⟩, planned⟩ := Step.exists_plan_of_fits only fits
    exact ⟨_, _, Step.run_eq_ok_iff.2 ⟨changes, reports, planned, rfl, rfl⟩⟩

theorem eq_insert_of_run_accounts {step : Step} {next : Store} {report : StepReport}
    (only : step.passes = [accounts]) (ran : step.run store = .ok (next, report)) :
    next = store.insert Key.schemaVersion (versionBytes step.target) := by
  obtain ⟨changes, reports, planned, rfl, -⟩ := Step.run_eq_ok_iff.1 ran
  exact Step.land_eq_insert fun key other => get?_land_accounts_of_ne only planned other

end Steps

/-- The two shapes of an account are read from the same records and say the same there. Grouping
keeps each record at its key, byte for byte, and the step from the first version to the second,
which succeeds if all accounts can be read, writes nothing but the version. -/
theorem accounts_read_alike :
    (∀ record,
      ((∃ flat, FlatAccount.codec.decode record = .ok flat)
          ↔ ∃ account, Account.codec.decode record = .ok account)
        ∧ ∀ error, FlatAccount.codec.decode record = .error error
            ↔ Account.codec.decode record = .error error)
      ∧ (∀ key record flat, FlatAccount.codec.decode record = .ok flat →
        accounts.transform key record = .ok (.keep key record [])
          ∧ ∃ account, Account.codec.decode record = .ok account ∧ flat.SaysAs account)
      ∧ ∀ step ∈ standardSteps, step.source = 1 → ∀ store,
        ((∃ next report, step.run store = .ok (next, report)) ↔ AccountsRead store)
          ∧ ∀ next report, step.run store = .ok (next, report) →
              next = store.insert Key.schemaVersion (versionBytes 2) := by
  refine ⟨fun record => ?_, fun key record flat read => ⟨?_, flat.group, ?_, flat.saysAs_group⟩, ?_⟩
  · rw [FlatAccount.decode_group]
    cases FlatAccount.codec.decode record <;> simp [Except.map]
  · exact accounts_keeps_of_decode read key
  · rw [FlatAccount.decode_group, read]
    rfl
  · intro step member first store
    -- Only one of the standard steps begins at the first version.
    obtain rfl : step = ⟨"account-shape-upgrade", 1, 2, [accounts]⟩ := by
      simp only [standardSteps, List.mem_cons, List.not_mem_nil, or_false] at member
      rcases member with rfl | rfl | rfl | rfl | rfl
      · rfl
      all_goals exact absurd first (by decide)
    exact ⟨exists_run_accounts_iff rfl, fun next report => eq_insert_of_run_accounts rfl⟩

/-- A profile of an account with a threshold key inside a threshold key. -/
def jointProfile : FlatAccount :=
  .profiled
    { account :=
        ⟨"a12uel5l", some (.multisig 1 [.ed25519 [1], .multisig 2 [.secp256k1 []]]), 7, 8⟩
      dtag := "Bob", nickname := "", bio := "né", profilePicture := "p", coverPicture := "c"
      creationTime := 9 }

theorem accounts_read_alike_jointProfile :
    ∃ record, FlatAccount.codec.decode record = .ok jointProfile
      ∧ accounts.transform (Key.account "a12uel5l") record
        = .ok (.keep (Key.account "a12uel5l") record [])
      ∧ (∃ account, Account.codec.decode record = .ok account ∧ jointProfile.SaysAs account)
      ∧ ∃ step ∈ standardSteps, step.source = 1 ∧ ∃ next report,
        step.run (Store.empty.insert (Key.account "a12uel5l") record) = .ok (next, report)
          ∧ next = (Store.empty.insert (Key.account "a12uel5l") record).insert Key.schemaVersion
              (versionBytes 2) := by
  obtain ⟨record, -, read⟩ := FlatAccount.faithful.oneForm.decode_encode jointProfile (by decide)
  obtain ⟨kept, same⟩ :=
    accounts_read_alike.2.1 (Key.account "a12uel5l") record jointProfile read
  have legible : AccountsRead (Store.empty.insert (Key.account "a12uel5l") record) := by
    intro key content _ held
    rw [Store.get?_insert] at held
    split at held
    · obtain rfl := Option.some.inj held
      exact ⟨jointProfile, read⟩
    · cases held
  have member : (⟨"account-shape-upgrade", 1, 2, [accounts]⟩ : Step) ∈ standardSteps := .head _
  obtain ⟨runs, lands⟩ := accounts_read_alike.2.2 _ member rfl
    (Store.empty.insert (Key.account "a12uel5l") record)
  obtain ⟨next, report, ran⟩ := runs.2 legible
  exact ⟨record, read, kept, same, _, member, rfl, next, report, ran, lands next report ran⟩

end Migration

end LinkRegistry
