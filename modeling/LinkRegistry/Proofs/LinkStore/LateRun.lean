import LinkRegistry.Proofs.LinkStore.SignedOwner
import LinkRegistry.Proofs.Migration.Settled

/-!
# A link store that meets the last migrations

A link store saves a link only after the checks that the last two standard steps make, and it
indexes the link as they do. So on whatever its calls have left, these steps drop nothing, and all
that they write is there already.
-/

namespace LinkRegistry

/-- The plaintext of a link is shorter than any text that is also a binary sign-document. -/
def ChainLink.Moderate (link : ChainLink) : Prop :=
  ∀ plaintext, Hex.decode link.proof.plaintextHex = .ok plaintext → plaintext.length < 0x09090909

namespace LinkStore

open Migration

/-! ## The links that are held -/

/-- All links that a coherent store holds are of some kind. -/
structure HoldsOnly (kind : ChainLink → Prop) (store : Store) : Prop where
  coherent : Coherent store
  ofKind : ∀ link, Holds store link → kind link

section

variable {codecs : SignDocumentCodecs} {kind : ChainLink → Prop} {store next : Store}
  {link : ChainLink}

theorem holdsOnly_empty (kind : ChainLink → Prop) : HoldsOnly kind .empty where
  coherent := (consistent_empty .standard).coherent
  ofKind := by simp [Holds]

theorem HoldsOnly.save (only : HoldsOnly kind store) (new : link.Plain ∧ kind link)
    (succeeded : LinkStore.save codecs store link = .ok next) : HoldsOnly kind next := by
  obtain ⟨record, saved⟩ := saved_of_save succeeded
  refine ⟨only.coherent.save new.1 succeeded, fun other held => ?_⟩
  rcases (saved.holds_iff other).1 held with rfl | before
  · exact new.2
  · exact only.ofKind other before

theorem HoldsOnly.delete (only : HoldsOnly kind store)
    (succeeded : LinkStore.delete store link = .ok next) : HoldsOnly kind next := by
  obtain ⟨links, deleted⟩ := only.coherent.deleted_of_delete succeeded
  refine ⟨only.coherent.delete succeeded, fun other held => ?_⟩
  exact only.ofKind other ((deleted.holds_iff other).1 held).1

theorem holdsOnly_history {calls : List Call} (plain : ∀ call ∈ calls, call.Plain)
    (ofKind : ∀ call ∈ calls, call.SavesOnly kind) : HoldsOnly kind (history codecs calls) := by
  -- What a delete takes away is known of coherent stores, and only plain links keep them so.
  have both : ∀ call ∈ calls, call.SavesOnly fun link => link.Plain ∧ kind link := by
    intro call member
    have plain := plain call member
    have ofKind := ofKind call member
    cases call with
    | save link => exact ⟨plain, ofKind⟩
    | delete | deleteAll => trivial
  exact foldl_perform_induction_of (fun only => only.save) (fun only => only.delete) both
    (holdsOnly_empty kind)

end

/-! ## Late runs -/

/-- Links that were accepted, and that the index names, are as the last steps want them. -/
theorem Consistent.settled {store : Store} (consistent : Consistent .standard store)
    (moderate : ∀ link, Holds store link → link.Moderate) : Settled store := by
  intro key record ofLinks held
  obtain ⟨link, read, rfl, -, accepted⟩ := consistent.records ofLinks held
  have holds : Holds store link := ⟨record, held, read⟩
  -- The sentinel of the index is the one that verification writes.
  have indexed := (consistent.index link.scope_prefix_ownerIndexKey).2 ⟨rfl, link, holds, rfl⟩
  -- A save has compared the owner with what the plaintext says under the value type of the link,
  -- and no other value type gives a short plaintext a meaning.
  obtain ⟨plaintext, readable, -⟩ := accepted.signedValue
  have decodes : Hex.decode link.proof.plaintextHex = .ok plaintext :=
    decodePlaintext_eq_ok_iff.1 readable
  have ⟨typed, _⟩ := accepted.signed_as_classified decodes (moderate link holds plaintext decodes)
  exact ⟨link, ⟨ChainLink.decode_eq_ok_iff.1 read, accepted.verified, indexed⟩,
    plaintext, decodes, typed⟩

/-- Whatever calls are made on an empty store and whichever of them fail, if it is then marked with
the fourth or fifth version, the standard migrations succeed on it, keep every record and change
the version only: each link passes verification and its index entry is there, and tagging gives
back the bytes of its record. -/
theorem late_run_changes_version_only (calls : List Call) (plain : ∀ call ∈ calls, call.Plain)
    (moderate : ∀ call ∈ calls, call.SavesOnly ChainLink.Moderate) {version : SchemaVersion}
    (late : version = 4 ∨ version = 5) :
    (∃ reports,
      standard.run ((history .standard calls).insert Key.schemaVersion (versionBytes version))
        = ((history .standard calls).insert Key.schemaVersion (versionBytes 6), .ok reports)
      ∧ ∀ report ∈ reports, ∀ pass ∈ report.passes,
          pass.kept = pass.visited ∧ pass.dropped = 0)
    ∧ ∀ key record, Key.scope Key.chainLinks <+: key →
        (history .standard calls).get? key = some record →
        ∃ link, ChainLink.decode record = .ok link ∧ link.key = key
          ∧ (chainLinkVerification .standard).transform key record
            = .ok (.keep key record [(link.ownerIndexKey, Key.sentinel)])
          ∧ (history .standard calls).get? link.ownerIndexKey = some Key.sentinel
          ∧ (chainLinkTags .standard).transform key record = .ok (.keep key record []) := by
  have consistent := consistent_history .standard plain
  have settled : Settled (history .standard calls) :=
    consistent.settled (holdsOnly_history plain moderate).ofKind
  have range : 4 ≤ version ∧ version ≤ standard.latest := by
    rcases late with rfl | rfl <;> decide
  refine ⟨exists_run_of_settled settled range.1 range.2, fun key record ofLinks held => ?_⟩
  obtain ⟨link, vouched, tagged⟩ := settled key record ofLinks held
  -- Which key a record stands at is known from the link store, the rest from the migrations.
  obtain ⟨own, read, at_key, -⟩ := consistent.records ofLinks held
  obtain rfl : own = link := by
    rw [ChainLink.decode_eq_ok_iff, vouched.decodes] at read
    exact (Except.ok.inj read).symm
  exact ⟨own, read, at_key, vouched.verification_keeps key, vouched.indexed,
    tagged.tags_keep vouched.decodes key⟩

/-- One link is left of those that were saved, and both of the last steps visit it. -/
theorem late_run_changes_version_only_promotingCalls :
    (∀ call ∈ promotingCalls, call.Plain)
      ∧ (∀ call ∈ promotingCalls, call.SavesOnly ChainLink.Moderate)
      ∧ ∃ reports,
        standard.run
            ((history .standard promotingCalls).insert Key.schemaVersion (versionBytes 4))
          = ((history .standard promotingCalls).insert Key.schemaVersion (versionBytes 6),
              .ok reports)
        ∧ reports.map (fun report => report.passes.map (·.visited)) = [[1], [1]]
        ∧ ∀ report ∈ reports, ∀ pass ∈ report.passes,
            pass.kept = pass.visited ∧ pass.dropped = 0 := by
  have plain : ∀ call ∈ promotingCalls, call.Plain := by decide
  have short (address : Address) : (neutralLink address).Moderate := by
    intro plaintext decodes
    have read : Hex.decode (Hex.encode (Utf8.encode "a12uel5l"))
        = .ok (Utf8.encode "a12uel5l") := by decide
    obtain rfl := Except.ok.inj (decodes.symm.trans read)
    decide
  have moderate : ∀ call ∈ promotingCalls, call.SavesOnly ChainLink.Moderate := by
    simp [promotingCalls, Call.SavesOnly, short]
  obtain ⟨⟨reports, finished, kept⟩, -⟩ :=
    late_run_changes_version_only promotingCalls plain moderate (.inl rfl)
  have visited : (standard.run
      ((history .standard promotingCalls).insert Key.schemaVersion (versionBytes 4))).2.toOption.map
        (·.map fun report => report.passes.map (·.visited)) = some [[1], [1]] := by
    decide +kernel
  rw [finished] at visited
  exact ⟨plain, moderate, reports, finished, Option.some.inj visited, kept⟩

end LinkStore

end LinkRegistry
