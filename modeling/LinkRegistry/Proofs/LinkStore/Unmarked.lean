import LinkRegistry.Proofs.LinkStore.History
import LinkRegistry.Proofs.Migration.ChainLinks
import LinkRegistry.Proofs.Migration.SinglePass
import LinkRegistry.Proofs.Proof.Misread

/-!
# The standard migrations on a store that carries no version

A link store writes links in the last layout and no version. The migrator takes a store without a
version for one of the first. On a store that saves have filled, the first two steps find nothing
to do, and the third reads each link in the earlier layout. If that fails for one of them the run
ends there, with the links as they were. Otherwise each link is misread, and the next step drops
what came of it. So a run never succeeds and leaves a link: the link store and the migrator do not
agree on what a store without a version holds.
-/

namespace LinkRegistry.LinkStore

open Migration Binary Binary.Codec

/-- A store gives back a link unchanged. -/
def GivesBack (store : Store) (link : ChainLink) : Prop :=
  get store link.owner link.chainName link.address.value = .ok (some link)

/-! ## The standard steps -/

def groupsPictures : Step := ⟨"account-shape-upgrade", 1, 2, [accounts]⟩

def movesRecords : Step := ⟨"re-key-indexes", 2, 3, movingPasses⟩

def makesEnvelopes : Step := ⟨"envelope-upgrade", 3, 4, [chainLinkEnvelopes .standard]⟩

def verifiesLinks : Step := ⟨"drop-invalid-chain-links", 4, 5, [chainLinkVerification .standard]⟩

def tagsEnvelopes : Step := ⟨"re-tag-signatures", 5, 6, [chainLinkTags .standard]⟩

theorem standardSteps_eq : standardSteps
    = [groupsPictures, movesRecords, makesEnvelopes, verifiesLinks, tagsEnvelopes] := rfl

/-! ## What saves leave -/

/-- Just the records of some links stand among the chain links. -/
structure HasRecords (links : List ChainLink) (store : Store) : Prop where
  fits : ∀ link ∈ links, ChainLink.codec.fits link = true
  records : ∀ key record, Key.scope Key.chainLinks <+: key →
    (store.get? key = some record
      ↔ ∃ link ∈ links, link.key = key ∧ ChainLink.codec.write link = record)

/-- A store with the records of accepted links, which holds nothing of other families than those of
the link store. -/
structure Filled (links : List ChainLink) (store : Store) : Prop extends
    HasRecords links store where
  accepted : ∀ link ∈ links, link.Accepted .standard
  families : ∀ key value, store.get? key = some value →
    ∃ family ∈ [Key.chainLinks, Key.chainLinkOwner, Key.defaultExternalAddress],
      Key.scope family <+: key

theorem filled_empty : Filled [] .empty where
  fits := nofun
  records := by simp
  accepted := nofun
  families _ _ found := by cases found

section

variable {links : List ChainLink} {store next : Store} {link : ChainLink}

theorem Filled.save (filled : Filled links store)
    (saved : LinkStore.save .standard store link = .ok next) : Filled (links ++ [link]) next := by
  obtain ⟨content, added⟩ := saved_of_save saved
  have decoded := ChainLink.decode_eq_ok_iff.1 added.read
  have fits : ChainLink.codec.fits link = true :=
    ChainLink.faithful.fitting (read_of_decode decoded)
  have written : ChainLink.codec.write link = content :=
    ChainLink.faithful.canonical.write_of_decode decoded
  refine ⟨⟨?fits, ?records⟩, ?accepted, ?families⟩
  case fits => simpa [or_imp, forall_and, fits] using filled.fits
  case accepted => simpa [or_imp, forall_and, added.accepted] using filled.accepted
  case families =>
    intro key value found
    by_cases own : key ∈ [link.key, link.ownerIndexKey, link.defaultKey]
    · simp only [List.mem_cons, List.not_mem_nil, or_false] at own
      rcases own with rfl | rfl | rfl
      · exact ⟨_, by simp, link.scope_prefix_key⟩
      · exact ⟨_, by simp, link.scope_prefix_ownerIndexKey⟩
      · exact ⟨_, by simp, link.scope_prefix_defaultKey⟩
    · rw [get?_of_save saved own] at found
      exact filled.families key value found
  case records =>
    intro key record ofLinks
    rw [added.records ofLinks]
    simp only [List.mem_append, List.mem_singleton, or_and_right, exists_or, exists_eq_left,
      ← filled.records key record ofLinks]
    split
    · -- The key was free, so no other link has it.
      next same =>
      have free : store.get? key = none := same ▸ added.absent
      simp [free, same, written]
    · next differ => simp [differ]

/-- Saving links one after another in an empty store leaves it filled with them. -/
theorem filled_of_saves (saved : links.foldlM (LinkStore.save .standard) .empty = .ok store) :
    Filled links store :=
  foldlM_eq_ok_induction Filled (fun _ _ _ _ filled here => filled.save here) saved filled_empty

theorem HasRecords.givesBack (has : HasRecords links store) (member : link ∈ links) :
    GivesBack store link := by
  have found := (has.records link.key _ link.scope_prefix_key).2 ⟨link, member, rfl, rfl⟩
  have read : readLink (ChainLink.codec.write link) = .ok link := by
    rw [readLink_eq_ok_iff, ChainLink.decode_eq_ok_iff]
    exact ChainLink.readsBack.decode_encode (encode?_of_fits (has.fits link member))
  unfold ChainLink.key at found
  simp [GivesBack, LinkStore.get, found, read, Except.map]

/-- The version has no part in the records. -/
theorem HasRecords.insert_version (has : HasRecords links store) (value : Bytes) :
    HasRecords links (store.insert Key.schemaVersion value) where
  fits := has.fits
  records key record ofLinks := by
    rw [Store.get?_insert, if_neg (ne_schemaVersion_of_scope ofLinks).symm]
    exact has.records key record ofLinks

/-! ## The first two steps -/

theorem Filled.currentVersion_eq (filled : Filled links store) :
    currentVersion store = .ok baseVersion := by
  unfold currentVersion
  split
  · rfl
  · next found =>
    obtain ⟨family, -, ofFamily⟩ := filled.families _ _ found
    exact absurd ofFamily (Key.not_scope_schemaVersion family)

/-- The passes of the first two steps find nothing in a filled store, whatever its version. -/
theorem Filled.idle_early (filled : Filled links store)
    (same : ∀ key, key ≠ Key.schemaVersion → next.get? key = store.get? key) {pass : Pass}
    (early : pass ∈ accounts :: movingPasses) : pass.Idle next := by
  have apart : ∀ pass ∈ accounts :: movingPasses, ¬ pass.scope <+: Key.schemaVersion
      ∧ ∀ family ∈ [Key.chainLinks, Key.chainLinkOwner, Key.defaultExternalAddress],
          ¬ Key.scope family <+: pass.scope ∧ ¬ pass.scope <+: Key.scope family := by
    decide +kernel
  obtain ⟨unversioned, families⟩ := apart pass early
  apply Pass.idle_of_scan_eq_nil
  refine Store.scan_eq_nil_iff.2 fun key under => ?_
  rw [same key fun version => unversioned (version ▸ under)]
  refine Option.eq_none_iff_forall_ne_some.2 fun value held => ?_
  -- Of two leads of one key one is a lead of the other.
  obtain ⟨family, known, ofFamily⟩ := filled.families key value held
  rcases List.prefix_or_prefix_of_prefix ofFamily under with longer | shorter
  · exact (families family known).1 longer
  · exact (families family known).2 shorter

/-- A run finds nothing to do on a filled store until it comes to the records of chain links. -/
theorem Filled.goesOn_run (filled : Filled links store) :
    GoesOn (standard.run store)
      (runSteps 6 (store.insert Key.schemaVersion (versionBytes 3)) 3
        [makesEnvelopes, verifiesLinks, tagsEnvelopes]) := by
  have kept (value key : Bytes) (other : key ≠ Key.schemaVersion) :
      (store.insert Key.schemaVersion value).get? key = store.get? key := by
    rw [Store.get?_insert, if_neg other.symm]
  have grouping : ∀ pass ∈ groupsPictures.passes, pass.Idle store := by
    intro pass member
    obtain rfl := List.mem_singleton.1 member
    exact filled.idle_early (fun _ _ => rfl) (.head _)
  have moving : ∀ pass ∈ movesRecords.passes,
      pass.Idle (store.insert Key.schemaVersion (versionBytes 2)) := by
    intro pass member
    exact filled.idle_early (kept _) (.tail _ member)
  have first := goesOn_idle 6 groupsPictures
    [movesRecords, makesEnvelopes, verifiesLinks, tagsEnvelopes] (by decide) (by decide) grouping
  have second := goesOn_idle 6 movesRecords [makesEnvelopes, verifiesLinks, tagsEnvelopes]
    (by decide) (by decide) moving
  -- The version of the first step is overwritten by that of the second.
  rw [Store.insert_insert] at second
  rw [Migrator.run, Migrator.runTo_eq (UInt32.le_refl _) filled.currentVersion_eq (by decide),
    standard, standardSteps_eq]
  exact first.trans second

/-! ## The step that makes envelopes -/

/-- The pass that makes envelopes misreads the record of a link or cannot read it. -/
theorem envelopes_cases (link : ChainLink) (key : Bytes) :
    (∃ bare plaintext, link.Misread bare plaintext
      ∧ (chainLinkEnvelopes .standard).transform key (ChainLink.codec.write link)
        = .ok (.keep key (ChainLink.codec.write
            (bare.enclose (SignDocumentCodecs.standard.classify plaintext))) []))
    ∨ ¬ link.ReadsBare ∧ ∃ cause : LinkError, cause.isFatal = true
      ∧ (chainLinkEnvelopes .standard).transform key (ChainLink.codec.write link)
        = .error (.record key cause) := by
  -- The pass reads the record, then the plaintext in it, and whatever it has read it can write.
  cases reads : BareChainLink.codec.decode (ChainLink.codec.write link) with
  | error error =>
    refine .inr ⟨?_, .ofBinary error, by cases error <;> rfl, ?_⟩
    · rintro ⟨bare, plaintext, misread⟩
      cases reads.symm.trans misread.reads
    · simp [chainLinkEnvelopes, readRecord, reads, bind, Except.bind]
  | ok bare =>
    cases decodes : Hex.decode bare.proof.plaintextHex with
    | error error =>
      refine .inr ⟨?_, .decode (.plaintextHex error), rfl, ?_⟩
      · rintro ⟨other, plaintext, misread⟩
        obtain rfl := Except.ok.inj (reads.symm.trans misread.reads)
        cases decodes.symm.trans misread.decodes
      · simp [chainLinkEnvelopes, readRecord, reads, decodePlaintext, decodes, atKey, bind,
          Except.bind]
    | ok plaintext =>
      have fits : ChainLink.codec.fits
          (bare.enclose (SignDocumentCodecs.standard.classify plaintext)) = true := by
        rw [bare.fits_enclose]
        exact BareChainLink.faithful.fitting (read_of_decode reads)
      refine .inl ⟨bare, plaintext, ⟨reads, decodes⟩, chainLinkEnvelopes_eq_keep_iff.2 ?_⟩
      exact ⟨bare, plaintext, reads, decodePlaintext_eq_ok_iff.2 decodes, encode?_of_fits fits⟩

/-- Where the record of one link cannot be read, the step fails at such a record. -/
theorem HasRecords.exists_unread (has : HasRecords links store) (member : link ∈ links)
    (unread : ¬ link.ReadsBare) :
    ∃ link ∈ links, ¬ link.ReadsBare ∧ ∃ cause : LinkError, cause.isFatal = true
      ∧ makesEnvelopes.run store = .error (.record link.key cause) := by
  cases decided : (chainLinkEnvelopes .standard).decide store with
  | error error =>
    have failed : makesEnvelopes.run store = .error error := Step.run_eq_error rfl decided
    obtain ⟨⟨key, record⟩, visited, fails⟩ := exists_of_mapM_eq_error decided
    obtain ⟨ofLinks, held⟩ := Store.mem_scan_iff.1 visited
    obtain ⟨first, among, rfl, rfl⟩ := (has.records key record ofLinks).1 held
    have stopped := map_eq_error_iff.1 fails
    rcases envelopes_cases first first.key with ⟨_, _, -, kept⟩ | ⟨unread, cause, fatal, same⟩
    · cases stopped.symm.trans kept
    · obtain rfl := Except.error.inj (stopped.symm.trans same)
      exact ⟨first, among, unread, cause, fatal, failed⟩
  | ok decisions =>
    -- Every record was decided for, also that of the link that cannot be read.
    have held := (has.records link.key _ link.scope_prefix_key).2 ⟨link, member, rfl, rfl⟩
    obtain ⟨decision, here⟩ :=
      exists_of_mapM_eq_ok decided (Store.mem_scan_iff.2 ⟨link.scope_prefix_key, held⟩)
    obtain ⟨outcome, transformed, -⟩ := map_eq_ok_iff.1 here
    rcases envelopes_cases link link.key with ⟨bare, plaintext, misread, -⟩ | ⟨-, cause, -, same⟩
    · exact absurd ⟨bare, plaintext, misread⟩ unread
    · cases transformed.symm.trans same

/-- What stands among the chain links was made of misread links. -/
def HoldsMisread (links : List ChainLink) (store : Store) : Prop :=
  ∀ key record, Key.scope Key.chainLinks <+: key → store.get? key = some record →
    ∃ link ∈ links, ∃ bare plaintext, link.Misread bare plaintext
      ∧ ChainLink.codec.decode record
        = .ok (bare.enclose (SignDocumentCodecs.standard.classify plaintext))

theorem HasRecords.exists_misread (has : HasRecords links store)
    (readable : ∀ link ∈ links, link.ReadsBare) :
    ∃ changes passes, makesEnvelopes.plan store = .ok (changes, passes)
      ∧ HoldsMisread links (makesEnvelopes.land changes store) := by
  have fits : (chainLinkEnvelopes .standard).Fits store := by
    apply (chainLinkEnvelopes_inPlace .standard).fits
    intro source content ofLinks held
    obtain ⟨link, member, rfl, rfl⟩ := (has.records source content ofLinks).1 held
    rcases envelopes_cases link link.key with ⟨_, _, -, kept⟩ | ⟨unread, -⟩
    · exact ⟨_, kept⟩
    · exact absurd (readable link member) unread
  obtain ⟨⟨changes, passes⟩, planned⟩ := makesEnvelopes.exists_plan_of_fits rfl fits
  refine ⟨changes, passes, planned, fun key record ofLinks found => ?_⟩
  obtain ⟨content, bare, plaintext, held, reads, decodes, written⟩ :=
    (get?_land_envelopes rfl planned ofLinks).1 found
  obtain ⟨link, member, -, rfl⟩ := (has.records key content ofLinks).1 held
  exact ⟨link, member, bare, plaintext, ⟨reads, decodes⟩,
    ChainLink.readsBack.decode_encode written⟩

/-! ## The steps after it -/

/-- The step that verifies drops all that was made of misread links. -/
theorem HoldsMisread.exists_lacks (misread : HoldsMisread links store)
    (fits : ∀ link ∈ links, ChainLink.codec.fits link = true)
    (accepted : ∀ link ∈ links, link.Accepted .standard) :
    ∃ changes passes, verifiesLinks.plan store = .ok (changes, passes)
      ∧ Lacks (verifiesLinks.land changes store) Key.chainLinks := by
  have rejected {key record : Bytes} (ofLinks : Key.scope Key.chainLinks <+: key)
      (held : store.get? key = some record) :
      ∃ found cause, ChainLink.codec.decode record = .ok found
        ∧ found.verify .standard = .error cause ∧ cause.isFatal = false := by
    obtain ⟨link, member, bare, plaintext, own, read⟩ := misread key record ofLinks held
    obtain ⟨cause, failed, verdict⟩ :=
      own.exists_verdict (fits link member) (accepted link member).verified
    exact ⟨_, cause, read, failed, verdict⟩
  have drops : (chainLinkVerification .standard).Fits store := by
    apply Pass.fits_of_drops
    intro source content ofLinks held
    obtain ⟨found, cause, read, failed, verdict⟩ := rejected ofLinks held
    exact ⟨cause.message, by
      simp [chainLinkVerification, readRecord, read, failed, verdict, bind, Except.bind]⟩
  obtain ⟨⟨changes, passes⟩, planned⟩ := verifiesLinks.exists_plan_of_fits rfl drops
  refine ⟨changes, passes, planned, fun key ofLinks => ?_⟩
  -- What is left would be the record of a link that verifies, and none did.
  refine Option.eq_none_iff_forall_ne_some.2 fun record found => ?_
  obtain ⟨link, -, held, read, verified⟩ := (get?_land_verification rfl planned ofLinks).1 found
  obtain ⟨other, cause, readToo, failed, -⟩ := rejected ofLinks held
  obtain rfl := Except.ok.inj (read.symm.trans readToo)
  cases verified.symm.trans failed

/-! ## Runs -/

/-- A run stops at a link that cannot be read. -/
theorem Filled.exists_run_eq_error (filled : Filled links store) (member : link ∈ links)
    (unread : ¬ link.ReadsBare) :
    ∃ link ∈ links, ¬ link.ReadsBare ∧ ∃ cause : LinkError, cause.isFatal = true
      ∧ standard.run store
        = (store.insert Key.schemaVersion (versionBytes 3), .error (.record link.key cause)) := by
  have marked := filled.toHasRecords.insert_version (versionBytes 3)
  obtain ⟨first, among, unreadToo, cause, fatal, failed⟩ := marked.exists_unread member unread
  have stopped : runSteps 6 (store.insert Key.schemaVersion (versionBytes 3)) 3
      [makesEnvelopes, verifiesLinks, tagsEnvelopes] = _ :=
    runSteps_stop 6 makesEnvelopes [verifiesLinks, tagsEnvelopes] (by decide) (by decide) failed
  have ran := filled.goesOn_run
  rw [stopped] at ran
  exact ⟨first, among, unreadToo, cause, fatal, ran.eq_error⟩

/-- Where all links are misread a run succeeds and leaves none of them. -/
theorem Filled.exists_run_eq_ok (filled : Filled links store)
    (readable : ∀ link ∈ links, link.ReadsBare) :
    ∃ final reports, standard.run store = (final, .ok reports)
      ∧ Lacks final Key.chainLinks := by
  have marked := filled.toHasRecords.insert_version (versionBytes 3)
  obtain ⟨enclosed, _, planEnvelopes, misread⟩ := marked.exists_misread readable
  obtain ⟨verified, _, planVerification, lacks⟩ :=
    misread.exists_lacks filled.fits filled.accepted
  -- Nothing is left for the last step.
  have nothing : ∀ pass ∈ tagsEnvelopes.passes,
      pass.Idle (verifiesLinks.land verified (makesEnvelopes.land enclosed
        (store.insert Key.schemaVersion (versionBytes 3)))) := by
    intro pass member
    obtain rfl := List.mem_singleton.1 member
    exact Pass.idle_of_scan_eq_nil (Store.scan_eq_nil_iff.2 lacks)
  have third := goesOn_land 6 makesEnvelopes [verifiesLinks, tagsEnvelopes] (by decide) (by decide)
    planEnvelopes
  have fourth := goesOn_land 6 verifiesLinks [tagsEnvelopes] (by decide) (by decide)
    planVerification
  have fifth := goesOn_idle 6 tagsEnvelopes [] (by decide) (by decide) nothing
  rw [runSteps_of_le (show (6 : SchemaVersion) ≤ tagsEnvelopes.target by decide)] at fifth
  obtain ⟨reports, ran⟩ :=
    (((filled.goesOn_run.trans third).trans fourth).trans fifth).exists_ok
  refine ⟨_, reports, ran, fun key ofLinks => ?_⟩
  rw [Store.get?_insert, if_neg (ne_schemaVersion_of_scope ofLinks).symm]
  exact lacks key ofLinks

end

/-- A store that saves have filled gives back every link, but no standard run on it succeeds and
leaves one: it stops at a link whose record does not read in the earlier layout, with the version
alone changed, or all of them are misread, and the run drops them all. Under a single key only an
enormous link is misread. -/
theorem run_stops_or_drops {links : List ChainLink} {store : Store}
    (saved : links.foldlM (LinkStore.save .standard) .empty = .ok store) :
    (∀ link ∈ links, GivesBack store link)
    ∧ ((∃ link ∈ links, ¬ link.ReadsBare ∧ ∃ cause : LinkError, cause.isFatal = true
          ∧ standard.run store
            = (store.insert Key.schemaVersion (versionBytes 3), .error (.record link.key cause))
          ∧ ∀ other ∈ links,
              GivesBack (store.insert Key.schemaVersion (versionBytes 3)) other)
      ∨ (∀ link ∈ links, link.ReadsBare
            ∧ (link.proof.publicKey.IsSingle →
              0x400000 ≤ (ChainLink.codec.write link).length))
        ∧ ∃ final reports, standard.run store = (final, .ok reports)
          ∧ ∀ link ∈ links,
              get final link.owner link.chainName link.address.value = .ok none) := by
  have filled := filled_of_saves saved
  refine ⟨fun link member => filled.givesBack member, ?_⟩
  -- One record that does not read in the earlier layout is enough to stop the run.
  by_cases readable : ∀ link ∈ links, link.ReadsBare
  · obtain ⟨final, reports, ran, lacks⟩ := filled.exists_run_eq_ok readable
    refine .inr ⟨fun link member => ?_, final, reports, ran, fun link _ => ?_⟩
    · obtain ⟨bare, plaintext, misread⟩ := readable link member
      have verified := (filled.accepted link member).verified
      exact ⟨⟨bare, plaintext, misread⟩,
        misread.le_length_record (filled.fits link member) verified⟩
    have gone : final.get? (Key.chainLink link.owner link.chainName link.address.value) = none :=
      lacks _ (Key.scope_prefix_chainLink ..)
    simp [LinkStore.get, gone]
  · simp only [not_forall] at readable
    obtain ⟨stubborn, member, unread⟩ := readable
    obtain ⟨link, among, unreadToo, cause, fatal, ran⟩ := filled.exists_run_eq_error member unread
    refine .inl ⟨link, among, unreadToo, cause, fatal, ran, fun other within => ?_⟩
    exact (filled.toHasRecords.insert_version (versionBytes 3)).givesBack within

/-- A store that has been filled in an evaluation, and whether a run on it succeeds. -/
private theorem exists_filled (links : List ChainLink) (succeeds : Bool)
    (evaluated : (links.foldlM (LinkStore.save .standard) .empty).toOption.map
      (fun store => (standard.run store).2.isOk) = some succeeds) :
    ∃ store, links.foldlM (LinkStore.save .standard) .empty = .ok store
      ∧ (standard.run store).2.isOk = succeeds := by
  cases saved : links.foldlM (LinkStore.save .standard) .empty with
  | error error =>
    rw [saved] at evaluated
    cases evaluated
  | ok store =>
    rw [saved] at evaluated
    exact ⟨store, rfl, Option.some.inj evaluated⟩

/-- A link with a single signature. -/
def commonLink : ChainLink := neutralLink (.base58 "2U8CyXAfjkDq5brpzNBUHEoneb8")

/-- A link to a threshold key of one member. In the earlier layout, half of its chain name is still
part of the signature, and the end of it is a plaintext of one byte and an empty chain name. -/
def foldedLink : ChainLink :=
  let neutral := neutralLink (.bech32 "c19y9hpjwtq7rkrtldw7l0mgf9pxac6hkjgy507s" "c")
  let behind : List Char :=
    ['\x02', '\x00', '\x00', '\x00', '0', '0', '\x00', '\x00', '\x00', '\x00']
  { neutral with
    proof := ⟨.multisig 1 [neutral.proof.publicKey], .multi ⟨1, [0x80]⟩ [neutral.proof.signature],
      neutral.proof.plaintextHex⟩
    chainName := String.ofList (.replicate 153 'x' ++ behind) }

private theorem exists_filled_commonLink :
    ∃ store, [commonLink].foldlM (LinkStore.save .standard) .empty = .ok store
      ∧ (standard.run store).2.isOk = false :=
  exists_filled [commonLink] false (by decide +kernel)

/-- The common link stops the run, and the folded one is lost in it. -/
theorem run_stops_or_drops_commonLink :
    (∃ store, [commonLink].foldlM (LinkStore.save .standard) .empty = .ok store
      ∧ GivesBack store commonLink ∧ ∃ cause : LinkError, cause.isFatal = true
      ∧ standard.run store
        = (store.insert Key.schemaVersion (versionBytes 3), .error (.record commonLink.key cause)))
    ∧ ∃ store, [foldedLink].foldlM (LinkStore.save .standard) .empty = .ok store
      ∧ GivesBack store foldedLink ∧ ∃ final reports, standard.run store = (final, .ok reports)
      ∧ get final foldedLink.owner foldedLink.chainName foldedLink.address.value = .ok none := by
  constructor
  · obtain ⟨store, saved, fails⟩ := exists_filled_commonLink
    obtain ⟨held, ⟨link, member, -, cause, fatal, ran, -⟩ | ⟨-, final, reports, ran, -⟩⟩ :=
      run_stops_or_drops saved
    · obtain rfl := List.mem_singleton.1 member
      exact ⟨store, saved, held _ (.head _), cause, fatal, ran⟩
    · rw [ran] at fails
      cases fails
  · obtain ⟨store, saved, succeeds⟩ :=
      exists_filled [foldedLink] true (by decide +kernel)
    obtain ⟨held, ⟨link, -, -, cause, -, ran, -⟩ | ⟨-, final, reports, ran, gone⟩⟩ :=
      run_stops_or_drops saved
    · rw [ran] at succeeds
      cases succeeds
    · exact ⟨store, saved, held _ (.head _), final, reports, ran, gone _ (.head _)⟩

/-- That links are saved without a failure does not mean that a run succeeds and keeps them. -/
theorem saved_links_are_not_kept :
    ¬ ∀ (links : List ChainLink) (store : Store), links ≠ [] →
      links.foldlM (LinkStore.save .standard) .empty = .ok store →
      ∃ final reports, standard.run store = (final, .ok reports)
        ∧ ∀ link ∈ links, GivesBack final link := by
  intro kept
  obtain ⟨store, saved, fails⟩ := exists_filled_commonLink
  obtain ⟨final, reports, ran, -⟩ := kept [commonLink] store (by simp) saved
  rw [ran] at fails
  cases fails

end LinkRegistry.LinkStore
