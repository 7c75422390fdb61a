import LinkRegistry.Proofs.Binary.Records
import LinkRegistry.Proofs.Migration.Idle
import LinkRegistry.Proofs.Migration.Verified

/-!
# Chain links that the last steps leave as they are

A store is settled if each of its chain links verifies, has the value type of its plaintext and is
indexed by its owner, as the last two standard steps leave them. On such a store these steps are
idle: verification keeps every link and meets its index entries, and tagging writes the same value
type into the same bytes. Main statement, `exists_run_of_settled`.
-/

namespace LinkRegistry.Migration

/-- Each chain link of a store verifies, has the value type of its plaintext and is indexed. -/
def Settled (store : Store) : Prop :=
  ∀ key record, Key.scope Key.chainLinks <+: key → store.get? key = some record →
    ∃ link, Vouched store record link ∧ Tagged link

section

variable {store : Store} {record : Bytes} {link : ChainLink}

/-! ## What the passes decide -/

theorem Vouched.verification_keeps (vouched : Vouched store record link) (key : Bytes) :
    (chainLinkVerification .standard).transform key record
      = .ok (.keep key record [(link.ownerIndexKey, Key.sentinel)]) :=
  chainLinkVerification_eq_keep_iff.2 ⟨link, vouched.decodes, vouched.verifies, rfl, rfl, rfl⟩

theorem Tagged.tags_keep (tagged : Tagged link) (decodes : ChainLink.codec.decode record = .ok link)
    (key : Bytes) :
    (chainLinkTags .standard).transform key record = .ok (.keep key record []) := by
  obtain ⟨plaintext, read, typed⟩ := tagged
  have same := Proof.retag_of_valueType (decodePlaintext_eq_ok_iff.2 read) typed
  -- The bytes that a link was read from are the only ones that it is written to.
  have written := ChainLink.faithful.encode_of_decode decodes
  exact chainLinkTags_eq_keep_iff.2 ⟨link, link.proof, decodes, same, written⟩

/-! ## Idle steps -/

theorem chainLinkVerification_idle
    (vouched : ∀ key record, Key.scope Key.chainLinks <+: key → store.get? key = some record →
      ∃ link, Vouched store record link) :
    (chainLinkVerification .standard).Idle store := by
  intro key record ofLinks held
  obtain ⟨link, vouched⟩ := vouched key record ofLinks held
  refine ⟨_, vouched.verification_keeps key, List.forall_mem_singleton.2 ⟨?_, vouched.indexed⟩⟩
  exact Key.not_scope_of_scope (Key.scope_prefix_ownerIndex ..) (by decide)

theorem chainLinkTags_idle
    (tagged : ∀ key record, Key.scope Key.chainLinks <+: key → store.get? key = some record →
      ∃ link, ChainLink.codec.decode record = .ok link ∧ Tagged link) :
    (chainLinkTags .standard).Idle store := by
  intro key record ofLinks held
  obtain ⟨link, decodes, tagged⟩ := tagged key record ofLinks held
  exact ⟨[], tagged.tags_keep decodes key, nofun⟩

/-- Whether a store is settled has nothing to do with its version. -/
theorem Settled.insert_version (settled : Settled store) (value : Bytes) :
    Settled (store.insert Key.schemaVersion value) := by
  have kept {family : String} {key : Bytes} (under : Key.scope family <+: key) :
      (store.insert Key.schemaVersion value).get? key = store.get? key := by
    rw [Store.get?_insert, if_neg (ne_schemaVersion_of_scope under).symm]
  -- Records and index entries are of families of their own, so none stands at the version's key.
  intro key record ofLinks held
  rw [kept ofLinks] at held
  obtain ⟨link, vouched, tagged⟩ := settled key record ofLinks held
  have ofOwners : Key.scope Key.chainLinkOwner <+: link.ownerIndexKey :=
    Key.scope_prefix_ownerIndex ..
  exact ⟨link, ⟨vouched.decodes, vouched.verifies, (kept ofOwners).trans vouched.indexed⟩, tagged⟩

theorem Settled.idle (settled : Settled store) :
    ∀ step ∈ standardSteps.drop 3, ∀ pass ∈ step.passes, pass.Idle store := by
  have verification : (chainLinkVerification .standard).Idle store :=
    chainLinkVerification_idle fun key record ofLinks held => by
      obtain ⟨link, vouched, -⟩ := settled key record ofLinks held
      exact ⟨link, vouched⟩
  have tags : (chainLinkTags .standard).Idle store :=
    chainLinkTags_idle fun key record ofLinks held => by
      obtain ⟨link, vouched, tagged⟩ := settled key record ofLinks held
      exact ⟨link, vouched.decodes, tagged⟩
  simp [standardSteps, verification, tags]

/-! ## Runs -/

/-- From the fourth version on, a standard run of a settled store reaches the last version, keeps
every record that it visits and changes nothing but the version. -/
theorem exists_run_of_settled (settled : Settled store) {version : SchemaVersion}
    (late : 4 ≤ version) (known : version ≤ standard.latest) :
    ∃ reports, standard.run (store.insert Key.schemaVersion (versionBytes version))
        = (store.insert Key.schemaVersion (versionBytes standard.latest), .ok reports)
      ∧ ∀ report ∈ reports, ∀ pass ∈ report.passes,
          pass.kept = pass.visited ∧ pass.dropped = 0 := by
  have due : currentVersion (store.insert Key.schemaVersion (versionBytes version)) = .ok version :=
    currentVersion_of_get? (by rw [Store.get?_insert, if_pos rfl])
  have latest : standard.latest = 6 := rfl
  have small : version = 4 ∨ version = 5 ∨ version = 6 := by grind
  -- The steps split into those that are behind the version and those that lead on from it.
  obtain ⟨passed, rest, split, behind, continues, within⟩ : ∃ passed rest,
      standardSteps = passed ++ rest ∧ (∀ step ∈ passed, step.target ≤ version)
        ∧ Continues standard.latest version rest ∧ rest ⊆ standardSteps.drop 3 := by
    rcases small with rfl | rfl | rfl
    · exact ⟨standardSteps.take 3, standardSteps.drop 3, rfl, by decide, by decide, by simp⟩
    · exact ⟨standardSteps.take 4, standardSteps.drop 4, rfl, by decide, by decide,
        by simp [standardSteps]⟩
    · exact ⟨standardSteps, [], rfl, by decide, by decide, by simp⟩
  obtain ⟨reports, finished, kept⟩ := exists_runSteps_of_idle continues
    fun step member pass among version =>
      (settled.insert_version (versionBytes version)).idle step (within member) pass among
  refine ⟨reports, ?_, kept⟩
  rw [Migrator.run, Migrator.runTo_eq (UInt32.le_refl _) due known, ← finished]
  change runSteps _ _ _ standardSteps = _
  rw [split, runSteps_append behind]

end

end LinkRegistry.Migration
