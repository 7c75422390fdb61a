import LinkRegistry.Proofs.LinkStore.History
import LinkRegistry.Proofs.Migration.Separate

/-!
# References to dropped links

An index entry and a default address refer to a link that the store holds. Deleting a link takes
away what refers to it. Verification drops the records of links that do not verify and leaves what
refers to them, so afterwards everything refers to a held link exactly if it referred to one that
verifies.
-/

namespace LinkRegistry.Migration

open LinkStore

/-- The owner index and the default addresses of a store refer to links of a kind. -/
structure RefersTo (store : Store) (among : ChainLink → Prop) : Prop where
  index : ∀ key value, Key.scope Key.chainLinkOwner <+: key → store.get? key = some value →
    ∃ link, among link ∧ link.ownerIndexKey = key
  defaults : ∀ owner chainName value,
    store.get? (Key.defaultAddress owner chainName) = some value →
    ∃ link, among link ∧ link.owner = owner ∧ link.chainName = chainName
      ∧ Utf8.encode link.address.value = value

/-- Every record among the chain links is that of a link at the key of the link, and what refers to
links refers to links that are held. -/
structure Anchored (store : Store) : Prop where
  records : ∀ key record, Key.scope Key.chainLinks <+: key → store.get? key = some record →
    ∃ link : ChainLink, ChainLink.decode record = .ok link ∧ link.key = key
  refers : RefersTo store (Holds store)

theorem RefersTo.mono {store : Store} {among others : ChainLink → Prop}
    (refers : RefersTo store among) (subset : ∀ link, among link → others link) :
    RefersTo store others where
  index key value ofOwners held := by
    obtain ⟨link, member, same⟩ := refers.index key value ofOwners held
    exact ⟨link, subset link member, same⟩
  defaults owner chainName value held := by
    obtain ⟨link, member, same⟩ := refers.defaults owner chainName value held
    exact ⟨link, subset link member, same⟩

/-! ## What verification leaves -/

section Verification

variable {codecs : SignDocumentCodecs} {store final : Store} {report : PassReport}

section

variable (ran : (chainLinkVerification codecs).run store = .ok (final, report))
include ran

theorem get?_verified_iff {key value : Bytes} (ofLinks : Key.scope Key.chainLinks <+: key) :
    final.get? key = some value ↔ ∃ link, VerifiedLink codecs store key value link := by
  obtain ⟨changes, planned, rfl⟩ := Pass.exists_plan_of_run ran
  rw [Pass.get?_apply_iff planned]
  exact chainLinkVerification_left_iff (Pass.planned planned) ofLinks

/-- After verification just those links are held that were held and verify. -/
theorem holds_verified_iff {link : ChainLink} :
    Holds final link ↔ Holds store link ∧ link.verify codecs = .ok () := by
  simp only [Holds, get?_verified_iff ran link.scope_prefix_key]
  constructor
  · rintro ⟨record, ⟨found, -, held, read, verified⟩, again⟩
    -- Both readings are of one record.
    obtain rfl : found = link :=
      Except.ok.inj (read.symm.trans (ChainLink.decode_eq_ok_iff.1 again))
    exact ⟨⟨record, held, again⟩, verified⟩
  · rintro ⟨⟨record, held, read⟩, verified⟩
    exact ⟨record, ⟨link, link.scope_prefix_key, held, ChainLink.decode_eq_ok_iff.1 read, verified⟩,
      read⟩

/-- Verification adds to the owner index and takes nothing from it. -/
theorem get?_verified_owners_iff {key value : Bytes}
    (ofOwners : Key.scope Key.chainLinkOwner <+: key) :
    final.get? key = some value
      ↔ store.get? key = some value
        ∨ value = Key.sentinel ∧ ∃ source record link, VerifiedLink codecs store source record link
            ∧ key = link.ownerIndexKey := by
  obtain ⟨changes, planned, rfl⟩ := Pass.exists_plan_of_run ran
  have outside : ¬ (chainLinkVerification codecs).scope <+: key :=
    Key.not_scope_of_scope ofOwners (by decide)
  have notRecord (content : Bytes) : ¬ ∃ link, VerifiedLink codecs store key content link :=
    fun ⟨_, verified⟩ => outside verified.1
  rw [Pass.get?_apply_iff planned]
  constructor
  · rintro (puts | ⟨-, held⟩)
    · exact .inr ((chainLinkVerification_puts_iff.1 puts).resolve_left (notRecord value))
    · exact .inl held
  · rintro (held | indexed)
    · -- What is put where something is held is what is held.
      by_cases written : ∃ content, (chainLinkVerification codecs).Puts store (key, content)
      · obtain ⟨content, puts⟩ := written
        obtain rfl : value = content := Pass.eq_of_puts planned outside puts held
        exact .inl puts
      · exact .inr ⟨⟨not_exists.1 written, fun ⟨_, decides, _⟩ => outside decides.1⟩, held⟩
    · exact .inl (chainLinkVerification_puts_iff.2 (.inr indexed))

theorem get?_verified_of_other {key : Bytes} (notLink : ¬ Key.scope Key.chainLinks <+: key)
    (notOwner : ¬ Key.scope Key.chainLinkOwner <+: key) : final.get? key = store.get? key := by
  obtain ⟨changes, planned, rfl⟩ := Pass.exists_plan_of_run ran
  apply Pass.get?_apply_of_untouched planned notLink
  intro value puts
  obtain ⟨family, member, under⟩ := chainLinkVerification_putsWithin codecs store _ puts
  simp only [List.mem_cons, List.not_mem_nil, or_false] at member
  rcases member with rfl | rfl
  · exact notLink under
  · exact notOwner under

theorem get?_verified_defaults (owner chainName : String) :
    final.get? (Key.defaultAddress owner chainName)
      = store.get? (Key.defaultAddress owner chainName) :=
  have ofDefaults := Key.scope_prefix_defaultAddress owner chainName
  get?_verified_of_other ran (Key.not_scope_of_scope ofDefaults (by decide))
    (Key.not_scope_of_scope ofDefaults (by decide))

/-- What refers to links is still there, so it still refers to held ones only if these verify. -/
theorem anchored_verified_iff (anchored : Anchored store) :
    Anchored final
      ↔ RefersTo store fun link => Holds store link ∧ link.verify codecs = .ok () := by
  constructor
  · intro left
    have still : RefersTo store (Holds final) := by
      refine ⟨fun key value ofOwners held => ?_, fun owner chainName value held => ?_⟩
      · have kept := (get?_verified_owners_iff ran ofOwners).2 (.inl held)
        exact left.refers.index key value ofOwners kept
      · rw [← get?_verified_defaults ran] at held
        exact left.refers.defaults owner chainName value held
    exact still.mono fun link => (holds_verified_iff ran).1
  · intro refers
    have still : RefersTo final fun link => Holds store link ∧ link.verify codecs = .ok () := by
      refine ⟨fun key value ofOwners held => ?_, fun owner chainName value held => ?_⟩
      · rcases (get?_verified_owners_iff ran ofOwners).1 held with before | ⟨-, indexed⟩
        · exact refers.index key value ofOwners before
        · -- A new entry is that of a link which verifies, and its record is at its own key.
          obtain ⟨source, record, link, ⟨ofLinks, before, read, verified⟩, same⟩ := indexed
          have decoded := ChainLink.decode_eq_ok_iff.2 read
          obtain ⟨own, readToo, place⟩ := anchored.records source record ofLinks before
          obtain rfl : own = link := Except.ok.inj (readToo.symm.trans decoded)
          exact ⟨own, ⟨⟨record, place ▸ before, decoded⟩, verified⟩, same.symm⟩
      · rw [get?_verified_defaults ran] at held
        exact refers.defaults owner chainName value held
    refine ⟨fun key record ofLinks held => ?_, still.mono fun link => (holds_verified_iff ran).2⟩
    obtain ⟨link, -, before, -⟩ := (get?_verified_iff ran ofLinks).1 held
    exact anchored.records key record ofLinks before

end

end Verification

/-- Verification leaves just the links that verify, and all index entries and default addresses
there were. So what refers to links still refers to held ones exactly if it referred to links that
verify. -/
theorem verification_keeps_references {codecs : SignDocumentCodecs} {store final : Store}
    {report : PassReport} (ran : (chainLinkVerification codecs).run store = .ok (final, report)) :
    (∀ link, Holds final link ↔ Holds store link ∧ link.verify codecs = .ok ())
      ∧ (∀ key value, Key.scope Key.chainLinkOwner <+: key →
          (final.get? key = some value
            ↔ store.get? key = some value
              ∨ value = Key.sentinel ∧ ∃ source record link,
                  VerifiedLink codecs store source record link ∧ key = link.ownerIndexKey))
      ∧ (∀ key, ¬ Key.scope Key.chainLinks <+: key → ¬ Key.scope Key.chainLinkOwner <+: key →
          final.get? key = store.get? key)
      ∧ (Anchored store →
          (Anchored final
            ↔ RefersTo store fun link => Holds store link ∧ link.verify codecs = .ok ())) :=
  ⟨fun _ => holds_verified_iff ran, fun _ _ => get?_verified_owners_iff ran,
    fun _ => get?_verified_of_other ran, anchored_verified_iff ran⟩

/-! ## Links that are referred to -/

theorem refersTo_of_scan {store : Store} {link : ChainLink} {among : ChainLink → Prop}
    (plain : link.Plain) (member : among link)
    (owners : store.scan (Key.scope Key.chainLinkOwner) = [(link.ownerIndexKey, Key.sentinel)])
    (defaults : store.scan (Key.scope Key.defaultExternalAddress)
      = [(link.defaultKey, Utf8.encode link.address.value)]) : RefersTo store among where
  index key value ofOwners held := by
    have scanned := Store.mem_scan_iff.2 ⟨ofOwners, held⟩
    rw [owners, List.mem_singleton] at scanned
    exact ⟨link, member, (Prod.mk.inj scanned).1.symm⟩
  defaults owner chainName value held := by
    have scanned := Store.mem_scan_iff.2 ⟨Key.scope_prefix_defaultAddress owner chainName, held⟩
    rw [defaults, List.mem_singleton] at scanned
    obtain ⟨place, rfl⟩ := Prod.mk.inj scanned
    obtain ⟨rfl, rfl⟩ := plain.defaultKey_eq_iff.1 place
    exact ⟨link, member, rfl, rfl, rfl⟩

section

variable {store : Store} {links : List ChainLink}
  (records : store.scan (Key.scope Key.chainLinks)
    = links.map fun link => (link.key, ChainLink.codec.write link))
  (fits : ∀ link ∈ links, ChainLink.codec.fits link = true)
include records fits

theorem holds_of_scan {link : ChainLink} (member : link ∈ links) : Holds store link := by
  have scanned := List.mem_map_of_mem (f := fun link => (link.key, ChainLink.codec.write link)) member
  rw [← records] at scanned
  have written : ChainLink.codec.encode? link = some (ChainLink.codec.write link) := by
    rw [Binary.Codec.encode?, if_pos (fits link member)]
  exact ⟨_, (Store.mem_scan_iff.1 scanned).2,
    ChainLink.decode_eq_ok_iff.2 (ChainLink.readsBack.decode_encode written)⟩

theorem anchored_of_scan (refers : RefersTo store (· ∈ links)) : Anchored store where
  records key record ofLinks held := by
    have scanned := Store.mem_scan_iff.2 ⟨ofLinks, held⟩
    rw [records] at scanned
    obtain ⟨link, member, same⟩ := List.mem_map.1 scanned
    obtain ⟨rfl, rfl⟩ := Prod.mk.inj same
    obtain ⟨found, there, read⟩ := holds_of_scan records fits member
    obtain rfl : found = ChainLink.codec.write link := Option.some.inj (there.symm.trans held)
    exact ⟨link, read, rfl⟩
  refers := refers.mono fun _ => holds_of_scan records fits

end

/-- A store that holds links, with an index entry and a default address for one of them. -/
def referring (links : List ChainLink) (referred : ChainLink) : Store :=
  let recorded := links.foldl
    (fun store link => store.insert link.key (ChainLink.codec.write link)) Store.empty
  (recorded.insert referred.ownerIndexKey Key.sentinel).insert referred.defaultKey
    (Utf8.encode referred.address.value)

/-- A link that verifies. -/
def soundLink : ChainLink := neutralLink (.base58 "2U8CyXAfjkDq5brpzNBUHEoneb8")

/-- A link whose key does not belong to its address. -/
def strangerLink : ChainLink := neutralLink (.base58 "3yZe7d")

theorem not_verify_strangerLink : strangerLink.verify .standard ≠ .ok () := by
  have refused : (strangerLink.verify .standard).isOk = false := by decide +kernel
  intro verified
  rw [verified] at refused
  cases refused

theorem verification_keeps_references_soundLink :
    ∃ final report,
      (chainLinkVerification .standard).run (referring [soundLink, strangerLink] soundLink)
          = .ok (final, report)
        ∧ Anchored (referring [soundLink, strangerLink] soundLink)
        ∧ Holds (referring [soundLink, strangerLink] soundLink) strangerLink
        ∧ Anchored final ∧ ¬ Holds final strangerLink := by
  have records : (referring [soundLink, strangerLink] soundLink).scan (Key.scope Key.chainLinks)
      = [soundLink, strangerLink].map fun link => (link.key, ChainLink.codec.write link) := by
    decide +kernel
  have fits : ∀ link ∈ [soundLink, strangerLink], ChainLink.codec.fits link = true := by decide
  have refers (among : ChainLink → Prop) (member : among soundLink) :
      RefersTo (referring [soundLink, strangerLink] soundLink) among :=
    refersTo_of_scan (by decide) member (by decide +kernel) (by decide +kernel)
  have anchored := anchored_of_scan records fits (refers _ (.head _))
  have succeeds : ((chainLinkVerification .standard).run
      (referring [soundLink, strangerLink] soundLink)).isOk = true := by decide +kernel
  obtain ⟨⟨final, report⟩, ran⟩ := exists_eq_ok_of_isOk succeeds
  obtain ⟨holds, -, -, anchors⟩ := verification_keeps_references ran
  have verified : soundLink.verify .standard = .ok () := eq_ok_of_isOk (by decide +kernel)
  have held := holds_of_scan records fits (.head _)
  refine ⟨final, report, ran, anchored, holds_of_scan records fits (.tail _ (.head _)),
    (anchors anchored).2 (refers _ ⟨held, verified⟩), fun still => ?_⟩
  exact not_verify_strangerLink ((holds strangerLink).1 still).2

/-- A link that does not verify is dropped, and its index entry and default address are left. -/
theorem dropped_link_is_referred_to :
    ∃ final report,
      (chainLinkVerification .standard).run (referring [strangerLink] strangerLink)
          = .ok (final, report)
        ∧ Anchored (referring [strangerLink] strangerLink)
        ∧ (∀ link, ¬ Holds final link)
        ∧ final.get? strangerLink.ownerIndexKey = some Key.sentinel
        ∧ final.get? strangerLink.defaultKey = some (Utf8.encode strangerLink.address.value)
        ∧ ¬ Anchored final := by
  have records : (referring [strangerLink] strangerLink).scan (Key.scope Key.chainLinks)
      = [strangerLink].map fun link => (link.key, ChainLink.codec.write link) := by decide +kernel
  have fits : ∀ link ∈ [strangerLink], ChainLink.codec.fits link = true := by decide
  have plain : strangerLink.Plain := by decide
  have anchored := anchored_of_scan records fits
    (refersTo_of_scan plain (.head _) (by decide +kernel) (by decide +kernel))
  have succeeds : ((chainLinkVerification .standard).run
      (referring [strangerLink] strangerLink)).isOk = true := by decide +kernel
  obtain ⟨⟨final, report⟩, ran⟩ := exists_eq_ok_of_isOk succeeds
  have none (link : ChainLink) : ¬ Holds final link := by
    intro still
    obtain ⟨⟨record, held, read⟩, verified⟩ := (holds_verified_iff ran).1 still
    -- The only record is that of the link which does not verify.
    have scanned := Store.mem_scan_iff.2 ⟨link.scope_prefix_key, held⟩
    rw [records, List.map_singleton, List.mem_singleton] at scanned
    have same := (holds_of_scan records fits (.head _)).eq_of_key ⟨record, held, read⟩
      (Prod.mk.inj scanned).1.symm
    exact not_verify_strangerLink (same ▸ verified)
  have indexed := (get?_verified_owners_iff ran strangerLink.scope_prefix_ownerIndexKey).2
    (.inl (by decide +kernel : _ = some Key.sentinel))
  refine ⟨final, report, ran, anchored, none, indexed, ?_, fun left => ?_⟩
  · rw [ChainLink.defaultKey, get?_verified_defaults ran]
    decide +kernel
  · obtain ⟨link, held, -⟩ :=
      left.refers.index _ _ strangerLink.scope_prefix_ownerIndexKey indexed
    exact none link held

end LinkRegistry.Migration
