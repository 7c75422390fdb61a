import LinkRegistry.Proofs.Binary.RoundTrip
import LinkRegistry.Proofs.Migration.Run
import LinkRegistry.Proofs.Migration.Standard
import LinkRegistry.Proofs.Proof.Enclosed

/-!
# Chain links through the migrations

The chain links of the earlier layout that come through the standard migrations are the sound ones,
each at the key of its own fields, unchanged but for the envelope of its signature, and the index
names exactly their owners.
-/

namespace LinkRegistry.Migration

/-! ## What each step does to chain links -/

section Steps

variable {codecs : SignDocumentCodecs} {step : Step} {store : Store}
  {changes : List Store.Change} {reports : List PassReport} {key value : Bytes}

theorem ne_schemaVersion_of_scope {family : String} (ofFamily : Key.scope family <+: key) :
    key ≠ Key.schemaVersion :=
  fun same => Key.not_scope_schemaVersion family (same ▸ ofFamily)

/-- The step that groups pictures touches nothing but accounts. -/
theorem get?_land_accounts (only : step.passes = [accounts])
    (planned : step.plan store = .ok (changes, reports)) (other : key ≠ Key.schemaVersion)
    (outside : ¬ Key.scope Key.accounts <+: key) :
    (step.land changes store).get? key = store.get? key :=
  Step.get?_land_inPlace_of_not_scope accounts_inPlace only planned other outside

/-- The passes that move records to keys with separators. -/
def movingPasses : List Pass := [dtags, applicationLinks, earlyClientIds, chainLinks]

/-- The step that moves records touches nothing outside the families it moves from and to. -/
theorem get?_land_moving (only : step.passes = movingPasses)
    (planned : step.plan store = .ok (changes, reports)) (other : key ≠ Key.schemaVersion)
    (stays : ∀ pass ∈ movingPasses, ¬ pass.scope <+: key)
    (outside : ∀ family ∈ [Key.dtags, Key.userApplicationLink, Key.clientIds, Key.chainLinks],
      ¬ Key.scope family <+: key) :
    (step.land changes store).get? key = store.get? key := by
  refine step.get?_land_of_untouched planned other (only ▸ stays) ?_
  simp only [only, movingPasses, List.forall_mem_cons] at outside ⊢
  obtain ⟨notTag, notLink, notClient, notChain, -⟩ := outside
  refine ⟨fun _ written => notTag (dtags_puts written), fun _ written => ?_,
    fun _ => not_earlyClientIds_puts, fun _ written => ?_, nofun⟩
  · exact (applicationLinks_puts written).elim notLink notClient
  · obtain ⟨_, link, -, rfl⟩ := chainLinks_puts_iff.1 written
    exact notChain (Key.scope_prefix_chainLink ..)

/-- The step that moves records leaves the index of owners alone. -/
theorem get?_land_moving_owners (only : step.passes = movingPasses)
    (planned : step.plan store = .ok (changes, reports))
    (ofOwners : Key.scope Key.chainLinkOwner <+: key) :
    (step.land changes store).get? key = store.get? key := by
  refine get?_land_moving only planned (ne_schemaVersion_of_scope ofOwners) ?_ ?_
  · simp only [movingPasses, List.forall_mem_cons]
    exact ⟨Key.not_lead_of_scope ofOwners (by decide), Key.not_lead_of_scope ofOwners (by decide),
      Key.not_lead_of_scope ofOwners (by decide), Key.not_lead_of_scope ofOwners (by decide), nofun⟩
  · simp only [List.forall_mem_cons]
    exact ⟨Key.not_scope_of_scope ofOwners (by decide), Key.not_scope_of_scope ofOwners (by decide),
      Key.not_scope_of_scope ofOwners (by decide), Key.not_scope_of_scope ofOwners (by decide),
      nofun⟩

/-- The step that moves records leaves the early chain links under their new keys. -/
theorem get?_land_moving_chainLinks (only : step.passes = movingPasses)
    (planned : step.plan store = .ok (changes, reports))
    (ofLinks : Key.scope Key.chainLinks <+: key) (empty : store.get? key = none) (value : Bytes) :
    (step.land changes store).get? key = some value
      ↔ ∃ source link, EarlyLink store source value link ∧ key = link.key := by
  rw [step.get?_land_iff planned (ne_schemaVersion_of_scope ofLinks), empty]
  simp only [only, movingPasses, List.mem_cons, List.not_mem_nil, or_false, exists_eq_or_imp,
    exists_eq_left, chainLinks_puts_iff, reduceCtorEq, and_false, or_false]
  refine ⟨?_, fun written => .inr (.inr (.inr written))⟩
  rintro (written | written | written | written)
  · exact absurd (dtags_puts written) (Key.not_scope_of_scope ofLinks (by decide))
  · exact (applicationLinks_puts written).elim
      (fun moved => absurd moved (Key.not_scope_of_scope ofLinks (by decide)))
      (fun named => absurd named (Key.not_scope_of_scope ofLinks (by decide)))
  · exact absurd written not_earlyClientIds_puts
  · exact written

/-- No two early chain links are moved to one key. -/
theorem source_eq_of_moving (only : step.passes = movingPasses)
    (planned : step.plan store = .ok (changes, reports)) {source other first second : Bytes}
    {link twin : BareChainLink} (early : EarlyLink store source first link)
    (also : EarlyLink store other second twin) (same : link.key = twin.key) : source = other := by
  obtain ⟨own, each⟩ := step.planned planned chainLinks (by simp [only, movingPasses])
  exact each.distinct source other _ _ _ (chainLinks_decides_iff.2 ⟨first, link, early, rfl⟩)
    (chainLinks_decides_iff.2 ⟨second, twin, also, rfl⟩) rfl (congrArg some same.symm)

/-- The step that makes envelopes puts each bare signature in one. -/
theorem get?_land_envelopes (only : step.passes = [chainLinkEnvelopes codecs])
    (planned : step.plan store = .ok (changes, reports))
    (ofLinks : Key.scope Key.chainLinks <+: key) :
    (step.land changes store).get? key = some value
      ↔ ∃ content link plaintext, store.get? key = some content
          ∧ BareChainLink.codec.decode content = .ok link
          ∧ Hex.decode link.proof.plaintextHex = .ok plaintext
          ∧ ChainLink.codec.encode? (link.enclose (codecs.classify plaintext)) = some value := by
  rw [Step.get?_land_inPlace (chainLinkEnvelopes_inPlace codecs) only planned
    (ne_schemaVersion_of_scope ofLinks) ofLinks]
  simp only [chainLinkEnvelopes_eq_keep_iff, decodePlaintext_eq_ok_iff, exists_and_left]

/-- The step that tags envelopes afresh tags each envelope. -/
theorem get?_land_tags (only : step.passes = [chainLinkTags codecs])
    (planned : step.plan store = .ok (changes, reports))
    (ofLinks : Key.scope Key.chainLinks <+: key) :
    (step.land changes store).get? key = some value
      ↔ ∃ content link proof, store.get? key = some content
          ∧ ChainLink.codec.decode content = .ok link ∧ link.proof.retag codecs = .ok proof
          ∧ ChainLink.codec.encode? { link with proof := proof } = some value := by
  rw [Step.get?_land_inPlace (chainLinkTags_inPlace codecs) only planned
    (ne_schemaVersion_of_scope ofLinks) ofLinks]
  simp only [chainLinkTags_eq_keep_iff, exists_and_left]

/-- The step that verifies leaves the records of the links that verify. -/
theorem get?_land_verification (only : step.passes = [chainLinkVerification codecs])
    (planned : step.plan store = .ok (changes, reports))
    (ofLinks : Key.scope Key.chainLinks <+: key) :
    (step.land changes store).get? key = some value
      ↔ ∃ link, VerifiedLink codecs store key value link := by
  obtain ⟨own, each⟩ := step.planned planned (chainLinkVerification codecs) (by simp [only])
  simp only [step.get?_land_iff planned (ne_schemaVersion_of_scope ofLinks), only,
    List.mem_singleton, exists_eq_left, forall_eq]
  exact chainLinkVerification_left_iff each ofLinks

/-- The step that verifies indexes the owners of the links that verify. -/
theorem get?_land_verification_owners (only : step.passes = [chainLinkVerification codecs])
    (planned : step.plan store = .ok (changes, reports))
    (ofOwners : Key.scope Key.chainLinkOwner <+: key) (empty : store.get? key = none) :
    (step.land changes store).get? key = some value
      ↔ value = Key.sentinel
        ∧ ∃ source record link, VerifiedLink codecs store source record link
            ∧ key = link.ownerIndexKey := by
  have notLink (link : ChainLink) : ¬ VerifiedLink codecs store key value link := fun verified =>
    Key.not_scope_of_scope ofOwners (by decide) verified.1
  simp only [step.get?_land_iff planned (ne_schemaVersion_of_scope ofOwners), only,
    List.mem_singleton, exists_eq_left, chainLinkVerification_puts_iff, notLink, exists_false,
    false_or, empty, reduceCtorEq, and_false, or_false]

end Steps

/-! ## All steps -/

/-- No two early chain links are moved to one key. -/
def MovesApart (store : Store) : Prop :=
  ∀ source other first second link twin, EarlyLink store source first link →
    EarlyLink store other second twin → link.key = twin.key → source = other

/-- The chain links of one store, in the earlier layout, as another has them after migrations: just
the sound ones, each at the key of its own fields and unchanged but for its signature, which has
the envelope that its plaintext asks for. -/
structure CarriesOver (store final : Store) : Prop where
  present : ∀ source record link plaintext, EarlyLink store source record link →
    link.Sound plaintext →
    ∃ value, final.get? link.key = some value
      ∧ ChainLink.encode (link.enclose (SignDocumentCodecs.standard.classify plaintext)) = .ok value
      ∧ ChainLink.decode value
          = .ok (link.enclose (SignDocumentCodecs.standard.classify plaintext))
  early : ∀ key value, Key.scope Key.chainLinks <+: key → final.get? key = some value →
    ∃ source record link plaintext, EarlyLink store source record link ∧ link.Sound plaintext
      ∧ key = link.key
  apart : MovesApart store
  owners : ∀ key value, Key.scope Key.chainLinkOwner <+: key →
    (final.get? key = some value
      ↔ value = Key.sentinel ∧ ∃ source record link plaintext, EarlyLink store source record link
          ∧ link.Sound plaintext ∧ key = link.ownerIndexKey)

/-- A store holds no key of a family. -/
def Lacks (store : Store) (family : String) : Prop :=
  ∀ key, Key.scope family <+: key → store.get? key = none

/-- An early link whose plaintext decodes, with its record in an envelope of the right value type
and the key it is moved to. -/
structure Enclosed (store : Store) (key value : Bytes) (link : BareChainLink) (plaintext : Bytes) :
    Prop where
  early : ∃ source record, EarlyLink store source record link
  place : key = link.key
  decodes : Hex.decode link.proof.plaintextHex = .ok plaintext
  written : ChainLink.codec.encode? (link.enclose (SignDocumentCodecs.standard.classify plaintext))
    = some value

/-- The chain links of a store are the early ones of another, moved. -/
def HoldsMoved (store next : Store) : Prop :=
  ∀ key value, Key.scope Key.chainLinks <+: key →
    (next.get? key = some value
      ↔ ∃ source link, EarlyLink store source value link ∧ key = link.key)

/-- The chain links of a store are the early ones of another, moved and enclosed. -/
def HoldsEnclosed (store next : Store) : Prop :=
  ∀ key value, Key.scope Key.chainLinks <+: key →
    (next.get? key = some value ↔ ∃ link plaintext, Enclosed store key value link plaintext)

/-- The chain links of a store are the sound early ones of another, moved and enclosed. -/
def HoldsSound (store next : Store) : Prop :=
  ∀ key value, Key.scope Key.chainLinks <+: key →
    (next.get? key = some value
      ↔ ∃ link plaintext, Enclosed store key value link plaintext ∧ link.Sound plaintext)

section Journey

variable {store next final : Store} {step : Step} {changes : List Store.Change}
  {passes : List PassReport} {reports : List StepReport} {key value : Bytes}

theorem Enclosed.decode {link : BareChainLink} {plaintext : Bytes}
    (enclosed : Enclosed store key value link plaintext) :
    ChainLink.codec.decode value
      = .ok (link.enclose (SignDocumentCodecs.standard.classify plaintext)) :=
  ChainLink.readsBack.decode_encode enclosed.written

theorem HoldsMoved.land_envelopes (moved : HoldsMoved store next)
    (only : step.passes = [chainLinkEnvelopes .standard])
    (planned : step.plan next = .ok (changes, passes)) :
    HoldsEnclosed store (step.land changes next) := by
  intro key value ofLinks
  rw [get?_land_envelopes only planned ofLinks]
  constructor
  · rintro ⟨content, link, plaintext, held, read, decodes, written⟩
    obtain ⟨source, own, early, same⟩ := (moved key content ofLinks).1 held
    obtain rfl : own = link := Except.ok.inj (early.2.2.symm.trans read)
    exact ⟨own, plaintext, ⟨source, content, early⟩, same, decodes, written⟩
  · rintro ⟨link, plaintext, ⟨source, record, early⟩, same, decodes, written⟩
    exact ⟨record, link, plaintext, (moved key record ofLinks).2 ⟨source, link, early, same⟩,
      early.2.2, decodes, written⟩

/-- The step that makes envelopes loses no link: where one was moved, the same is enclosed. -/
theorem HoldsMoved.exists_enclosed (moved : HoldsMoved store next) (apart : MovesApart store)
    (only : step.passes = [chainLinkEnvelopes .standard])
    (planned : step.plan next = .ok (changes, passes)) {source record plaintext : Bytes}
    {link : BareChainLink} (early : EarlyLink store source record link)
    (decodes : Hex.decode link.proof.plaintextHex = .ok plaintext) :
    ∃ value, Enclosed store link.key value link plaintext := by
  have ofLinks : Key.scope Key.chainLinks <+: link.key := Key.scope_prefix_chainLink ..
  obtain ⟨value, held⟩ := step.exists_get?_land_inPlace (chainLinkEnvelopes_inPlace .standard) only
    planned (ne_schemaVersion_of_scope ofLinks) ofLinks
    ((moved link.key record ofLinks).2 ⟨source, link, early, rfl⟩)
  obtain ⟨twin, other, own⟩ := (moved.land_envelopes only planned link.key value ofLinks).1 held
  -- What is found at the key of the link was moved there from the place of the link itself.
  obtain ⟨place, content, also⟩ := own.early
  obtain rfl := apart source place record content link twin early also own.place
  obtain rfl := early.unique also
  obtain rfl : plaintext = other := Except.ok.inj (decodes.symm.trans own.decodes)
  exact ⟨value, own⟩

/-- Of the enclosed links just the sound ones verify. -/
theorem HoldsEnclosed.verifiedLink_iff (enclosed : HoldsEnclosed store next) {found : ChainLink} :
    VerifiedLink .standard next key value found
      ↔ ∃ link plaintext, Enclosed store key value link plaintext ∧ link.Sound plaintext
          ∧ found = link.enclose (SignDocumentCodecs.standard.classify plaintext) := by
  constructor
  · rintro ⟨ofLinks, held, read, verified⟩
    obtain ⟨link, plaintext, own⟩ := (enclosed key value ofLinks).1 held
    obtain rfl := Except.ok.inj (own.decode.symm.trans read)
    exact ⟨link, plaintext, own, (BareChainLink.verify_enclose_iff own.decodes).1 verified, rfl⟩
  · rintro ⟨link, plaintext, own, sound, rfl⟩
    have ofLinks : Key.scope Key.chainLinks <+: key := own.place ▸ Key.scope_prefix_chainLink ..
    exact ⟨ofLinks, (enclosed key value ofLinks).2 ⟨link, plaintext, own⟩, own.decode,
      (BareChainLink.verify_enclose_iff own.decodes).2 sound⟩

theorem HoldsEnclosed.land_verification (enclosed : HoldsEnclosed store next)
    (only : step.passes = [chainLinkVerification .standard])
    (planned : step.plan next = .ok (changes, passes)) :
    HoldsSound store (step.land changes next) := by
  intro key value ofLinks
  rw [get?_land_verification only planned ofLinks]
  simp only [enclosed.verifiedLink_iff]
  constructor
  · rintro ⟨_, link, plaintext, own, sound, -⟩
    exact ⟨link, plaintext, own, sound⟩
  · rintro ⟨link, plaintext, own, sound⟩
    exact ⟨_, link, plaintext, own, sound, rfl⟩

theorem HoldsEnclosed.land_verification_owners (enclosed : HoldsEnclosed store next)
    (only : step.passes = [chainLinkVerification .standard])
    (planned : step.plan next = .ok (changes, passes))
    (ofOwners : Key.scope Key.chainLinkOwner <+: key) (empty : next.get? key = none) :
    (step.land changes next).get? key = some value
      ↔ value = Key.sentinel
        ∧ ∃ link plaintext, (∃ record, Enclosed store link.key record link plaintext)
            ∧ link.Sound plaintext ∧ key = link.ownerIndexKey := by
  rw [get?_land_verification_owners only planned ofOwners empty]
  simp only [enclosed.verifiedLink_iff]
  refine and_congr_right fun _ => ⟨?_, ?_⟩
  · rintro ⟨_, record, _, ⟨link, plaintext, own, sound, rfl⟩, same⟩
    obtain rfl := own.place
    exact ⟨link, plaintext, ⟨record, own⟩, sound, same⟩
  · rintro ⟨link, plaintext, ⟨record, own⟩, sound, same⟩
    exact ⟨link.key, record, _, ⟨link, plaintext, own, sound, rfl⟩, same⟩

/-- The step that tags envelopes afresh finds them tagged. -/
theorem HoldsSound.land_tags (holds : HoldsSound store next)
    (only : step.passes = [chainLinkTags .standard])
    (planned : step.plan next = .ok (changes, passes)) :
    HoldsSound store (step.land changes next) := by
  intro key value ofLinks
  rw [get?_land_tags only planned ofLinks]
  constructor
  · rintro ⟨content, found, proof, held, read, tagged, written⟩
    obtain ⟨link, plaintext, own, sound⟩ := (holds key content ofLinks).1 held
    obtain rfl := Except.ok.inj (own.decode.symm.trans read)
    rw [BareChainLink.retag_enclose own.decodes] at tagged
    obtain rfl := Except.ok.inj tagged
    exact ⟨link, plaintext, ⟨own.early, own.place, own.decodes, written⟩, sound⟩
  · rintro ⟨link, plaintext, own, sound⟩
    exact ⟨value, _, _, (holds key value ofLinks).2 ⟨link, plaintext, own, sound⟩, own.decode,
      BareChainLink.retag_enclose own.decodes, own.written⟩

/-- The steps from the second version on carry the chain links over. -/
theorem carriesOver_of_ran (ran : Ran store (standardSteps.drop 1) reports final)
    (noLinks : Lacks store Key.chainLinks) (noOwners : Lacks store Key.chainLinkOwner) :
    CarriesOver store final := by
  -- The chain links are moved, enclosed, verified and tagged, in this order.
  cases ran with | cons _ _ planMoving ran
  cases ran with | cons _ _ planEnvelopes ran
  cases ran with | cons _ _ planVerification ran
  cases ran with | cons _ _ planTags ran
  cases ran
  have apart : MovesApart store := fun _ _ _ _ _ _ => source_eq_of_moving rfl planMoving
  have moved : HoldsMoved store _ := fun key value ofLinks =>
    get?_land_moving_chainLinks rfl planMoving ofLinks (noLinks key ofLinks) value
  have enclosed := moved.land_envelopes rfl planEnvelopes
  have holds := (enclosed.land_verification rfl planVerification).land_tags rfl planTags
  refine ⟨fun source record link plaintext early sound => ?_, fun key value ofLinks held => ?_,
    apart, fun key value ofOwners => ?_⟩
  · have ofLinks : Key.scope Key.chainLinks <+: link.key := Key.scope_prefix_chainLink ..
    obtain ⟨value, own⟩ := moved.exists_enclosed apart rfl planEnvelopes early sound.decodes
    exact ⟨value, (holds link.key value ofLinks).2 ⟨link, plaintext, own, sound⟩,
      by rw [ChainLink.encode, own.written], by rw [ChainLink.decode, own.decode]⟩
  · obtain ⟨link, plaintext, own, sound⟩ := (holds key value ofLinks).1 held
    obtain ⟨source, record, early⟩ := own.early
    exact ⟨source, record, link, plaintext, early, sound, own.place⟩
  · -- The index is untouched before and after the step that verifies.
    have notLinks : ¬ Key.scope Key.chainLinks <+: key :=
      Key.not_scope_of_scope ofOwners (by decide)
    have other := ne_schemaVersion_of_scope ofOwners
    have empty := noOwners key ofOwners
    rw [← get?_land_moving_owners rfl planMoving ofOwners,
      ← Step.get?_land_inPlace_of_not_scope (chainLinkEnvelopes_inPlace .standard) rfl planEnvelopes
        other notLinks] at empty
    rw [Step.get?_land_inPlace_of_not_scope (chainLinkTags_inPlace .standard) rfl planTags other
      notLinks, enclosed.land_verification_owners rfl planVerification ofOwners empty]
    refine and_congr_right fun _ => ⟨?_, ?_⟩
    · rintro ⟨link, plaintext, ⟨record, own⟩, sound, same⟩
      obtain ⟨source, record, early⟩ := own.early
      exact ⟨source, record, link, plaintext, early, sound, same⟩
    · rintro ⟨source, record, link, plaintext, early, sound, same⟩
      exact ⟨link, plaintext,
        moved.exists_enclosed apart rfl planEnvelopes early sound.decodes, sound, same⟩

theorem CarriesOver.of_earlyLink_iff (carries : CarriesOver next final)
    (same : ∀ source record link,
      EarlyLink next source record link ↔ EarlyLink store source record link) :
    CarriesOver store final where
  present := by simpa only [same] using carries.present
  early := by simpa only [same] using carries.early
  apart := by simpa only [MovesApart, same] using carries.apart
  owners := by simpa only [same] using carries.owners

/-- The step that groups pictures leaves the chain links of the earlier layout alone. -/
theorem earlyLink_land_accounts_iff (only : step.passes = [accounts])
    (planned : step.plan store = .ok (changes, passes)) {source record : Bytes}
    {link : BareChainLink} :
    EarlyLink (step.land changes store) source record link
      ↔ EarlyLink store source record link := by
  refine and_congr_right fun early => ?_
  have other : source ≠ Key.schemaVersion := by
    rintro rfl
    exact absurd early (by decide)
  rw [get?_land_accounts only planned other fun ofAccounts =>
    Key.not_lead_of_scope ofAccounts (by decide) early]

theorem Lacks.land_accounts {family : String} (lacks : Lacks store family)
    (differ : Key.Plain family ∧ Key.Plain Key.accounts ∧ family ≠ Key.accounts)
    (only : step.passes = [accounts]) (planned : step.plan store = .ok (changes, passes)) :
    Lacks (step.land changes store) family := fun key ofFamily => by
  rw [get?_land_accounts only planned (ne_schemaVersion_of_scope ofFamily)
    (Key.not_scope_of_scope ofFamily differ)]
  exact lacks key ofFamily

/-- A store without new chain links, at the first version or the second, is carried over by a
standard run that succeeds: its sound chain links, and no others, are afterwards at their keys,
enclosed and indexed by owner. -/
theorem standard_run_carriesOver
    (version : store.get? Key.schemaVersion = none
      ∨ store.get? Key.schemaVersion = some (versionBytes 1)
      ∨ store.get? Key.schemaVersion = some (versionBytes 2))
    (noLinks : Lacks store Key.chainLinks) (noOwners : Lacks store Key.chainLinkOwner)
    (succeeded : standard.run store = (final, .ok reports)) : CarriesOver store final := by
  have furthest : ∀ step ∈ standard.steps, step.target ≤ standard.latest := by
    simp [standard, standardSteps, Migrator.latest]
  have due : currentVersion store = .ok 1 ∨ currentVersion store = .ok 2 := by
    rcases version with none | first | second
    · exact .inl (by rw [currentVersion, none, baseVersion])
    · exact .inl (currentVersion_of_get? first)
    · exact .inr (currentVersion_of_get? second)
  rcases due with first | second
  · -- From the first version there is one more step, which leaves all of this alone.
    have ran := standard.ran_of_run furthest first succeeded
    cases ran with | cons _ _ planned ran
    exact (carriesOver_of_ran ran (noLinks.land_accounts (by decide) rfl planned)
      (noOwners.land_accounts (by decide) rfl planned)).of_earlyLink_iff fun _ _ _ =>
        earlyLink_land_accounts_iff rfl planned
  · have ran := standard.ran_of_run furthest second succeeded
    exact carriesOver_of_ran ran noLinks noOwners

end Journey

/-- A link of the earlier layout whose key is the neutral point, under which this signature is right
for any message. -/
def neutralBareLink (creationTime : UInt64) : BareChainLink where
  owner := "a12uel5l"
  address := .base58 "2U8CyXAfjkDq5brpzNBUHEoneb8"
  proof := ⟨.ed25519 (1 :: List.replicate 31 0), 1 :: List.replicate 63 0, "61313275656c356c"⟩
  chainName := "cosmos"
  creationTime := creationTime

/-- A store of the first version with a sound link and one that was made at no time. -/
def earlyStore : Store :=
  let place := Key.Early.chainLink "a12uel5l" "cosmos" "2U8CyXAfjkDq5brpzNBUHEoneb8"
  let timeless := { neutralBareLink 0 with chainName := "likecoin" }
  (Store.empty.insert place (BareChainLink.codec.write (neutralBareLink 7))).insert
    (Key.Early.chainLink "a12uel5l" "likecoin" "2U8CyXAfjkDq5brpzNBUHEoneb8")
    (BareChainLink.codec.write timeless)

theorem standard_run_carriesOver_earlyStore :
    (∃ reports, standard.run earlyStore = ((standard.run earlyStore).1, .ok reports))
      ∧ ((standard.run earlyStore).1.scan (Key.scope Key.chainLinks)).map (·.1)
        = [(neutralBareLink 7).key]
      ∧ CarriesOver earlyStore (standard.run earlyStore).1 := by
  have finishes : (standard.run earlyStore).2.isOk = true := by decide +kernel
  obtain ⟨reports, succeeded⟩ :
      ∃ reports, standard.run earlyStore = ((standard.run earlyStore).1, .ok reports) := by
    revert finishes
    rcases standard.run earlyStore with ⟨final, error | reports⟩
    · exact nofun
    · exact fun _ => ⟨reports, rfl⟩
  have noLinks : Lacks earlyStore Key.chainLinks := Store.scan_eq_nil_iff.1 (by decide +kernel)
  have noOwners : Lacks earlyStore Key.chainLinkOwner := Store.scan_eq_nil_iff.1 (by decide +kernel)
  exact ⟨⟨reports, succeeded⟩, by decide +kernel,
    standard_run_carriesOver (.inl (by decide +kernel)) noLinks noOwners succeeded⟩

end LinkRegistry.Migration
