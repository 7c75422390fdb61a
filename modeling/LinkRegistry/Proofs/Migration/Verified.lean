import LinkRegistry.Proofs.Migration.ChainLinks
import LinkRegistry.Proofs.Proof.Retag

/-!
# Chain links after the last steps

The last two standard steps drop the chain links that do not verify and then tag the envelopes of
the others afresh. Whatever a store held before them, each chain link that it holds afterwards
verifies, has the value type of its plaintext and is indexed by its owner.
-/

namespace LinkRegistry.Migration

/-! ## Stores -/

/-- A record of a chain link that verifies and is indexed by its owner. -/
structure Vouched (store : Store) (record : Bytes) (link : ChainLink) : Prop where
  decodes : ChainLink.codec.decode record = .ok link
  verifies : link.verify .standard = .ok ()
  indexed : store.get? link.ownerIndexKey = some Key.sentinel

/-- The value type of a link is the one that its plaintext is found to have. -/
def Tagged (link : ChainLink) : Prop :=
  ∃ plaintext, Hex.decode link.proof.plaintextHex = .ok plaintext
    ∧ link.proof.signature.valueType = .ok (SignDocumentCodecs.standard.classify plaintext)

section Steps

variable {store final : Store} {step : Step} {changes : List Store.Change}
  {passes : List PassReport} {reports : List StepReport} {key record : Bytes}

/-- The step that verifies leaves only chain links that verify, each with its index entry. -/
theorem vouched_land_verification (only : step.passes = [chainLinkVerification .standard])
    (planned : step.plan store = .ok (changes, passes))
    (ofLinks : Key.scope Key.chainLinks <+: key)
    (held : (step.land changes store).get? key = some record) :
    ∃ link, Vouched (step.land changes store) record link := by
  obtain ⟨link, verified⟩ := (get?_land_verification only planned ofLinks).1 held
  have puts : (chainLinkVerification .standard).Puts store (link.ownerIndexKey, Key.sentinel) :=
    chainLinkVerification_puts_iff.2 (.inr ⟨rfl, key, record, link, verified, rfl⟩)
  have other : link.ownerIndexKey ≠ Key.schemaVersion :=
    ne_schemaVersion_of_scope (Key.scope_prefix_ownerIndex ..)
  have indexed := (step.get?_land_iff planned other).2 (.inl ⟨_, by simp [only], puts⟩)
  exact ⟨link, verified.2.2.1, verified.2.2.2, indexed⟩

/-- The step that tags envelopes afresh keeps what the verification found. -/
theorem vouched_land_tags (only : step.passes = [chainLinkTags .standard])
    (planned : step.plan store = .ok (changes, passes))
    (vouched : ∀ key record, Key.scope Key.chainLinks <+: key → store.get? key = some record →
      ∃ link, Vouched store record link)
    (ofLinks : Key.scope Key.chainLinks <+: key)
    (held : (step.land changes store).get? key = some record) :
    ∃ link, Vouched (step.land changes store) record link ∧ Tagged link := by
  obtain ⟨content, link, proof, before, read, retagged, written⟩ :=
    (get?_land_tags only planned ofLinks).1 held
  obtain ⟨own, decodes, verifies, indexed⟩ := vouched key content ofLinks before
  obtain rfl : own = link := Except.ok.inj (decodes.symm.trans read)
  obtain ⟨valid, -⟩ := ChainLink.verify_eq_ok_iff.1 verifies
  obtain ⟨-, -, sound, -⟩ := ChainLink.validate_eq_ok_iff.1 valid
  -- The key of the index entry is made of fields that the step leaves as they were.
  have ofOwners : Key.scope Key.chainLinkOwner <+: own.ownerIndexKey :=
    Key.scope_prefix_ownerIndex ..
  have kept := Step.get?_land_inPlace_of_not_scope (chainLinkTags_inPlace .standard) only planned
    (ne_schemaVersion_of_scope ofOwners) (Key.not_scope_of_scope ofOwners (by decide))
  refine ⟨{ own with proof := proof }, ⟨?_, ?_, ?_⟩, Proof.valueType_retag sound retagged⟩
  · exact ChainLink.readsBack.decode_encode written
  · exact ChainLink.verify_retag verifies retagged
  · exact kept.trans indexed

/-! ## Runs -/

/-- Steps that ran end with the last of them. -/
theorem Ran.of_append {before after : List Step} (ran : Ran store (before ++ after) reports final) :
    ∃ middle later, Ran middle after later final := by
  induction before generalizing store reports with
  | nil => exact ⟨store, reports, ran⟩
  | cons step rest ih =>
    cases ran with | cons _ _ _ later
    exact ih later

/-- Below the fifth version, the steps that verify and tag chain links are still ahead. -/
theorem exists_pending_standardSteps {version : SchemaVersion} (early : version ≤ 4) :
    ∃ before, pending version standardSteps = before ++ standardSteps.drop 3 := by
  have small : version = 0 ∨ version = 1 ∨ version = 2 ∨ version = 3 ∨ version = 4 := by
    grind
  rcases small with rfl | rfl | rfl | rfl | rfl
  · exact ⟨standardSteps.take 3, rfl⟩
  · exact ⟨standardSteps.take 3, rfl⟩
  · exact ⟨(standardSteps.take 3).drop 1, rfl⟩
  · exact ⟨(standardSteps.take 3).drop 2, rfl⟩
  · exact ⟨[], rfl⟩

/-- Every chain link that is left by a standard run from before the fifth version reads back,
verifies, has the value type of its plaintext, and stands in the index of owners. -/
theorem standard_run_vouches
    (version : store.get? Key.schemaVersion = none
      ∨ ∃ version ≤ 4, store.get? Key.schemaVersion = some (versionBytes version))
    (succeeded : standard.run store = (final, .ok reports)) :
    ∀ key record, Key.scope Key.chainLinks <+: key → final.get? key = some record →
      ∃ link plaintext, ChainLink.decode record = .ok link ∧ link.verify .standard = .ok ()
        ∧ Hex.decode link.proof.plaintextHex = .ok plaintext
        ∧ link.proof.signature.valueType = .ok (SignDocumentCodecs.standard.classify plaintext)
        ∧ final.get? link.ownerIndexKey = some Key.sentinel := by
  intro key record ofLinks held
  have furthest : ∀ step ∈ standard.steps, step.target ≤ standard.latest := by
    simp [standard, standardSteps, Migrator.latest]
  obtain ⟨current, due, early⟩ : ∃ current, currentVersion store = .ok current ∧ current ≤ 4 := by
    rcases version with none | ⟨version, early, marked⟩
    · exact ⟨1, by rw [currentVersion, none, baseVersion], by decide⟩
    · exact ⟨version, currentVersion_of_get? marked, early⟩
  have ran := standard.ran_of_run furthest due succeeded
  obtain ⟨before, ahead⟩ := exists_pending_standardSteps early
  rw [standard, ahead] at ran
  -- Only the last two steps matter: the first of them checks every link, the second keeps it.
  obtain ⟨middle, later, ran⟩ := ran.of_append
  cases ran with | cons _ _ planVerification ran
  cases ran with | cons _ _ planTags ran
  cases ran
  obtain ⟨link, vouched, plaintext, decodes, typed⟩ := vouched_land_tags rfl planTags
    (fun _ _ => vouched_land_verification rfl planVerification) ofLinks held
  exact ⟨link, plaintext, by rw [ChainLink.decode, vouched.decodes], vouched.verifies, decodes,
    typed, vouched.indexed⟩

end Steps

/-- A store of the fourth version with two chain links at keys that are not made of their fields.
The plaintext of the first, all zeros, is a binary sign-document with a wrong tag; the second was
made at no time. -/
def strayStore : Store :=
  let enclosed (creationTime : UInt64) : ChainLink :=
    let link := (neutralBareLink creationTime).enclose .raw
    { link with proof := { link.proof with plaintextHex := String.ofList (.replicate 40 '0') } }
  let place (last : UInt8) : Bytes := Key.scope Key.chainLinks ++ [last]
  let versioned := Store.empty.insert Key.schemaVersion (versionBytes 4)
  (versioned.insert (place 1) (ChainLink.codec.write (enclosed 7))).insert (place 2)
    (ChainLink.codec.write (enclosed 0))

theorem standard_run_vouches_strayStore :
    (∃ reports, standard.run strayStore = ((standard.run strayStore).1, .ok reports))
      ∧ ((standard.run strayStore).1.scan (Key.scope Key.chainLinks)).map (·.1)
        = [Key.scope Key.chainLinks ++ [1]]
      ∧ ∀ key record, Key.scope Key.chainLinks <+: key →
          (standard.run strayStore).1.get? key = some record →
          ∃ link plaintext, ChainLink.decode record = .ok link ∧ link.verify .standard = .ok ()
            ∧ Hex.decode link.proof.plaintextHex = .ok plaintext
            ∧ link.proof.signature.valueType
              = .ok (SignDocumentCodecs.standard.classify plaintext)
            ∧ (standard.run strayStore).1.get? link.ownerIndexKey = some Key.sentinel := by
  have computed : (standard.run strayStore).2.isOk = true
      ∧ ((standard.run strayStore).1.scan (Key.scope Key.chainLinks)).map (·.1)
        = [Key.scope Key.chainLinks ++ [1]] := by
    decide +kernel
  obtain ⟨reports, succeeded⟩ := exists_run_eq_ok computed.1
  have early : ∃ version ≤ 4,
      strayStore.get? Key.schemaVersion = some (versionBytes version) :=
    ⟨4, by decide, by decide +kernel⟩
  exact ⟨⟨reports, succeeded⟩, computed.2, standard_run_vouches (.inr early) succeeded⟩

end LinkRegistry.Migration
