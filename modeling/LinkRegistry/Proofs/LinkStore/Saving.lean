import LinkRegistry.Proofs.Binary.Lengths
import LinkRegistry.Proofs.LinkStore.SignedOwner

/-!
# Saving a link

A link is saved exactly if its rules and its proof hold, the signed value is its owner, and its
key is free; only a length that no record can hold, such as that of a text of 4 GiB, stands in the
way besides (`LinkStore.oversized_link_is_not_saved`). The checks read the plaintext each in its own
way, and two of these ways are loose: as text, bytes that are none read as U+FFFD, and a decoder of
binary documents may put up with bytes that it does not understand. What is saved has passed the
strict ways. An owner is ASCII, so a plaintext that reads as the owner is the owner byte for byte,
and the framing of a binary document has found it canonical. Main statement,
`LinkStore.save_iff_accepted`.
-/

namespace LinkRegistry

/-! ## Loose readings -/

theorem IsAccount.not_mem_replacement {value : String} (account : IsAccount value) :
    '\uFFFD' ∉ value.toList := by
  obtain ⟨reading, found, -⟩ := account
  intro member
  exact absurd (Bech32.bounds_of_read found _ member).2 (by decide)

/-- Only the bytes of an account read as that account. -/
theorem IsAccount.encode_of_decodeLenient {bytes : Bytes} {value : String}
    (account : IsAccount value) (read : Utf8.decodeLenient bytes = value) :
    Utf8.encode value = bytes := by
  subst read
  exact Utf8.encode_of_decode (Utf8.decode_of_not_mem account.not_mem_replacement)

namespace ChainLink

section

variable {codecs : SignDocumentCodecs} {link : ChainLink} {plaintext : Bytes}
  (accepted : link.Accepted codecs) (read : link.proof.plaintext = .ok plaintext)
include accepted read

/-- A plaintext that was signed as it is consists of the bytes of the owner. -/
theorem Accepted.plaintext_of_raw (raw : link.proof.signature.valueType = .ok .raw) :
    plaintext = Utf8.encode link.owner := by
  obtain ⟨account, -⟩ := validate_eq_ok_iff.1 (verify_eq_ok_iff.1 accepted.verified).1
  obtain ⟨other, again, named⟩ := accepted.signedValue
  obtain rfl : plaintext = other := Except.ok.inj (read.symm.trans again)
  obtain ⟨valueType, typed, signed⟩ := SignDocumentCodecs.validateSignedValue_eq_ok_iff.1 named
  obtain rfl : ValueType.raw = valueType := Except.ok.inj (raw.symm.trans typed)
  exact (account.encode_of_decodeLenient (Except.ok.inj signed)).symm

/-- A plaintext that was signed as a binary document is the one way to write that document. -/
theorem Accepted.canonical_of_direct (direct : link.proof.signature.valueType = .ok .direct) :
    ∃ document, codecs.decodeDirect plaintext = .ok document
      ∧ codecs.encodeDirect document = .ok plaintext := by
  obtain ⟨-, proven⟩ := verify_eq_ok_iff.1 accepted.verified
  obtain ⟨other, valueType, framed, again, -, typed, fits, -⟩ := Proof.verify_eq_ok_iff.1 proven
  obtain rfl : plaintext = other := Except.ok.inj (read.symm.trans again)
  obtain rfl : ValueType.direct = valueType := Except.ok.inj (direct.symm.trans typed)
  have canonical : codecs.isCanonicalDirect plaintext = true := by
    by_contra differs
    simp [SignDocumentCodecs.frame, differs] at fits
  unfold SignDocumentCodecs.isCanonicalDirect at canonical
  split at canonical
  · cases canonical
  next document decoded =>
  split at canonical
  · cases canonical
  next written encoded =>
  exact ⟨document, decoded, of_decide_eq_true canonical ▸ encoded⟩

end

/-- The name of the chain is no part of what was signed, so the checks only look whether it is
blank. -/
theorem Accepted.rename {codecs : SignDocumentCodecs} {link : ChainLink} {name : String}
    (accepted : link.Accepted codecs) (visible : Blank.isBlank name = false) :
    ChainLink.Accepted codecs { link with chainName := name } := by
  obtain ⟨valid, proven⟩ := verify_eq_ok_iff.1 accepted.verified
  obtain ⟨owner, address, sound, -, creationTime⟩ := validate_eq_ok_iff.1 valid
  have renamed : ChainLink.validate { link with chainName := name } = .ok () :=
    validate_eq_ok_iff.2 ⟨owner, address, sound, visible, creationTime⟩
  exact ⟨verify_eq_ok_iff.2 ⟨renamed, proven⟩, accepted.signedValue⟩

theorem encode_eq_ok_iff {link : ChainLink} {record : Bytes} :
    link.encode = .ok record ↔ codec.fits link = true ∧ codec.write link = record := by
  rw [ChainLink.encode, Binary.Codec.encode?]
  by_cases fits : codec.fits link = true <;> simp [fits]

end ChainLink

namespace LinkStore

/-- What a save of a link leaves. -/
structure Entered (store next : Store) (link : ChainLink) : Prop where
  record : ∃ record, link.encode = .ok record ∧ next.get? link.key = some record
  index : next.get? link.ownerIndexKey = some Key.sentinel
  default : next.get? link.defaultKey
    = if store.contains link.defaultKey then store.get? link.defaultKey
      else some (Utf8.encode link.address.value)
  elsewhere : ∀ key, key ∉ [link.key, link.ownerIndexKey, link.defaultKey] →
    next.get? key = store.get? key

section

variable {codecs : SignDocumentCodecs} {store next : Store} {link : ChainLink}

theorem entered_of_save (saved : save codecs store link = .ok next) :
    Entered store next link := by
  obtain ⟨-, -, record, written, rfl⟩ := save_eq_ok_iff.1 saved
  constructor
  case record =>
    refine ⟨record, written, ?_⟩
    rw [get?_apply_saved]
    simp [link.ne_of_records link.scope_prefix_key]
  case index =>
    rw [get?_apply_saved]
    simp [link.ne_of_index link.scope_prefix_ownerIndexKey]
  case default =>
    rw [get?_apply_saved, Store.contains]
    cases before : store.get? link.defaultKey <;>
      simp [link.ne_of_defaults link.scope_prefix_defaultKey]
  case elsewhere => exact fun key other => get?_of_save saved other

theorem exists_save_iff :
    (∃ next, save codecs store link = .ok next)
      ↔ link.Accepted codecs ∧ store.get? link.key = none ∧ ChainLink.codec.fits link = true := by
  simp only [save_eq_ok_iff, ChainLink.encode_eq_ok_iff]
  simp

/-- A link that passes all checks and has a free key is refused if no record can hold it. -/
theorem save_of_oversized (accepted : link.Accepted codecs) (absent : store.get? link.key = none)
    (oversized : ChainLink.codec.fits link = false) :
    save codecs store link
      = .error (.serialization (.decode (.oversized (some "chain_link")))) := by
  have passes : accept codecs link = .ok () := accept_eq_ok_iff.2 accepted
  have free : store.contains link.key = false := Store.contains_eq_false_iff.2 absent
  simp [save, changesToSave, requireValid, passes, free, ChainLink.encode, Binary.Codec.encode?,
    oversized, bind, Except.bind, Except.map]

end

/-- When a link is saved, what a save leaves, and what it has found out about the plaintext. -/
theorem save_iff_accepted (codecs : SignDocumentCodecs) (store : Store) (link : ChainLink) :
    (ChainLink.codec.fits link = true →
        ((∃ next, save codecs store link = .ok next)
          ↔ link.verify codecs = .ok ()
            ∧ (∃ plaintext, link.proof.plaintext = .ok plaintext
              ∧ codecs.validateSignedValue link.proof.signature plaintext link.owner = .ok ())
            ∧ store.get? link.key = none))
      ∧ (ChainLink.codec.fits link = false → ∃ error, save codecs store link = .error error)
      ∧ (∀ error, save codecs store link = .error error →
        perform codecs store (.save link) = store)
      ∧ ∀ next, save codecs store link = .ok next →
        Entered store next link
          ∧ ∃ plaintext, link.proof.plaintext = .ok plaintext
            ∧ (link.proof.signature.valueType = .ok .raw → plaintext = Utf8.encode link.owner)
            ∧ (link.proof.signature.valueType = .ok .direct →
              ∃ document, codecs.decodeDirect plaintext = .ok document
                ∧ codecs.encodeDirect document = .ok plaintext) := by
  refine ⟨fun fits => ?_, fun oversized => ?_, fun error failed => ?_, fun next saved => ?_⟩
  · rw [exists_save_iff]
    exact ⟨fun ⟨⟨verified, signed⟩, absent, _⟩ => ⟨verified, signed, absent⟩,
      fun ⟨verified, signed, absent⟩ => ⟨⟨verified, signed⟩, absent, fits⟩⟩
  · cases outcome : save codecs store link with
    | error error => exact ⟨error, rfl⟩
    | ok next =>
      have fits := (exists_save_iff.1 ⟨next, outcome⟩).2.2
      rw [oversized] at fits
      cases fits
  · rw [perform, failed]
  · obtain ⟨accepted, -, -⟩ := save_eq_ok_iff.1 saved
    obtain ⟨plaintext, read, -⟩ := accepted.signedValue
    exact ⟨entered_of_save saved, plaintext, read, accepted.plaintext_of_raw read,
      accepted.canonical_of_direct read⟩

theorem accepted_twinLinks : twinLinks.1.Accepted .standard := by
  have saves : (save .standard .empty twinLinks.1).isOk = true := by decide +kernel
  obtain ⟨next, saved⟩ := exists_eq_ok_of_isOk saves
  exact (save_eq_ok_iff.1 saved).1

theorem save_iff_accepted_twinLinks :
    ChainLink.codec.fits twinLinks.1 = true
      ∧ twinLinks.1.verify .standard = .ok ()
      ∧ ∃ next, save .standard .empty twinLinks.1 = .ok next ∧ Entered .empty next twinLinks.1
        ∧ twinLinks.1.proof.plaintext = .ok (Utf8.encode twinLinks.1.owner) := by
  have fits : ChainLink.codec.fits twinLinks.1 = true := by decide
  obtain ⟨next, saved⟩ := exists_save_iff.2 ⟨accepted_twinLinks, Store.get?_empty _, fits⟩
  obtain ⟨condition, -, -, effect⟩ := save_iff_accepted .standard .empty twinLinks.1
  obtain ⟨verified, -⟩ := (condition fits).1 ⟨next, saved⟩
  obtain ⟨entered, plaintext, read, ofRaw, -⟩ := effect next saved
  exact ⟨fits, verified, next, saved, entered, ofRaw rfl ▸ read⟩

/-- The first of two twins on a chain with a name of so many letters. -/
def wordyLink (length : Nat) : ChainLink :=
  { twinLinks.1 with chainName := String.ofList (List.replicate length 'a') }

theorem textLength_wordyLink (length : Nat) :
    textLength (wordyLink length).chainName = length := by
  have ascii : ∀ character ∈ List.replicate length 'a', character.toNat < 0x80 := by
    intro character member
    rw [List.eq_of_mem_replicate member]
    decide
  rw [textLength, wordyLink, Utf8.encode_of_ascii ascii, List.length_map, List.length_replicate]

theorem fits_wordyLink {length : Nat} (long : Binary.lengthBound ≤ length) :
    ChainLink.codec.fits (wordyLink length) = false := by
  have inside : length ∈ (wordyLink length).lengths := by
    simp [ChainLink.lengths, textLength_wordyLink]
  exact ChainLink.counts.fits_eq_false inside long

theorem accepted_wordyLink {length : Nat} (positive : 0 < length) :
    (wordyLink length).Accepted .standard := by
  have member : 'a' ∈ (String.ofList (List.replicate length 'a')).toList := by
    simp [String.toList_ofList, positive.ne']
  exact accepted_twinLinks.rename (Blank.not_isBlank_of_mem member (by decide))

/-- The checks and a free key are not enough for a link to be saved: one on a chain with a name of
4 GiB is refused. And a save that succeeds does not change an index entry that was there before. -/
theorem oversized_link_is_not_saved :
    ¬ ((∃ next, save .standard .empty (wordyLink Binary.lengthBound) = .ok next)
        ↔ (wordyLink Binary.lengthBound).verify .standard = .ok ()
          ∧ (∃ plaintext, (wordyLink Binary.lengthBound).proof.plaintext = .ok plaintext
            ∧ SignDocumentCodecs.standard.validateSignedValue
                (wordyLink Binary.lengthBound).proof.signature plaintext
                (wordyLink Binary.lengthBound).owner = .ok ())
          ∧ Store.empty.get? (wordyLink Binary.lengthBound).key = none)
      ∧ save .standard .empty (wordyLink Binary.lengthBound)
        = .error (.serialization (.decode (.oversized (some "chain_link"))))
      ∧ ∃ next,
        save .standard (Store.empty.insert twinLinks.1.ownerIndexKey Key.sentinel) twinLinks.1
            = .ok next
          ∧ next.get? twinLinks.1.ownerIndexKey
            = (Store.empty.insert twinLinks.1.ownerIndexKey Key.sentinel).get?
                twinLinks.1.ownerIndexKey := by
  have accepted : (wordyLink Binary.lengthBound).Accepted .standard :=
    accepted_wordyLink (by decide)
  have absent : Store.empty.get? (wordyLink Binary.lengthBound).key = none := Store.get?_empty _
  have refused : save .standard .empty (wordyLink Binary.lengthBound)
      = .error (.serialization (.decode (.oversized (some "chain_link")))) :=
    save_of_oversized accepted absent (fits_wordyLink le_rfl)
  refine ⟨fun claimed => ?_, refused, ?_⟩
  · -- All three conditions hold, so there would have to be a save.
    obtain ⟨next, saved⟩ := claimed.2 ⟨accepted.verified, accepted.signedValue, absent⟩
    rw [refused] at saved
    cases saved
  · -- What a save puts in the index is what is held there already.
    have free : (Store.empty.insert twinLinks.1.ownerIndexKey Key.sentinel).get? twinLinks.1.key
        = none := by
      rw [Store.get?_insert, if_neg (twinLinks.1.ne_of_records twinLinks.1.scope_prefix_key).1,
        Store.get?_empty]
    obtain ⟨next, saved⟩ := exists_save_iff.2 ⟨accepted_twinLinks, free, by decide⟩
    refine ⟨next, saved, ?_⟩
    rw [(entered_of_save saved).index, Store.get?_insert, if_pos rfl]

end LinkStore

end LinkRegistry
