import LinkRegistry.Proofs.Binary.Records
import LinkRegistry.Proofs.Migration.Planning
import LinkRegistry.Proofs.Migration.References
import LinkRegistry.Proofs.Proof.Fatal

/-!
# Records that end the verification of links

A record that is no link ends the pass, and so does a link of which verification fails fatally.
That is a link that is in order up to its plaintext, and has none that can be read. A key that is
too long for a record is fatal as well, but no record holds it. Whatever else may be wrong with a
link is a reason to drop it and go on with the next. Main statement,
`verification_refuses_unreadable`.
-/

namespace LinkRegistry.Migration

/-! ## What becomes of a record -/

/-- A pass ends with an error at a record. -/
def Pass.Refuses (pass : Pass) (key value : Bytes) : Prop :=
  ∃ error, pass.transform key value = .error error

/-- A pass leaves a record where it is and as it is. -/
def Pass.Retains (pass : Pass) (key value : Bytes) : Prop :=
  ∃ index, pass.transform key value = .ok (.keep key value index)

/-- A pass drops a record. -/
def Pass.Discards (pass : Pass) (key value : Bytes) : Prop :=
  ∃ reason, pass.transform key value = .ok (.drop reason)

/-- The decisions of a pass cannot be made exactly if it refuses a record. -/
theorem Pass.exists_decide_eq_error_iff {pass : Pass} {store : Store} :
    (∃ error, pass.decide store = .error error)
      ↔ ∃ key value, pass.scope <+: key ∧ store.get? key = some value
          ∧ pass.Refuses key value := by
  constructor
  · rintro ⟨error, failed⟩
    obtain ⟨⟨key, value⟩, member, here⟩ := exists_of_mapM_eq_error failed
    obtain ⟨under, held⟩ := Store.mem_scan_iff.1 member
    exact ⟨key, value, under, held, error, map_eq_error_iff.1 here⟩
  · rintro ⟨key, value, under, held, error, refused⟩
    cases decided : pass.decide store with
    | error cause => exact ⟨cause, rfl⟩
    | ok decisions =>
      obtain ⟨_, here⟩ := exists_of_mapM_eq_ok decided (Store.mem_scan_iff.2 ⟨under, held⟩)
      obtain ⟨_, transformed, -⟩ := map_eq_ok_iff.1 here
      cases refused.symm.trans transformed

/-! ## Records of links -/

section Verification

variable {codecs : SignDocumentCodecs} {key value : Bytes} {link : ChainLink}

theorem verification_refuses_of_not_decode
    (unread : ∀ link, ChainLink.codec.decode value ≠ .ok link) :
    (chainLinkVerification codecs).Refuses key value := by
  cases found : ChainLink.codec.decode value with
  | ok link => exact absurd found (unread link)
  | error error =>
    exact ⟨.record key (.ofBinary error),
      by simp [chainLinkVerification, readRecord, found, bind, Except.bind]⟩

variable (read : ChainLink.codec.decode value = .ok link)
include read

/-- The key of a link that was read is not too long for a record. -/
theorem fatal_verify_iff_of_decode : Fatal (link.verify codecs) ↔ link.Unreadable := by
  have fits : ChainLink.codec.fits link = true :=
    ChainLink.faithful.fitting (Binary.Codec.read_of_decode read)
  exact ChainLink.fatal_verify_iff_of_fits (ChainLink.fits_publicKey fits)

theorem verification_of_decode :
    (chainLinkVerification codecs).transform key value
      = match link.verify codecs with
        | .ok () => .ok (.keep key value [(link.ownerIndexKey, Key.sentinel)])
        | .error cause =>
          if cause.isFatal then .error (.record key cause) else .ok (.drop cause.message) := by
  change readRecord ChainLink.codec key value >>= _ = _
  rw [readRecord_eq_ok_iff.2 read]
  rfl

theorem verification_refuses_iff_of_decode :
    (chainLinkVerification codecs).Refuses key value ↔ link.Unreadable := by
  -- What is fatal is passed on as the error of the record, everything else becomes a reason.
  rw [← fatal_verify_iff_of_decode read, Pass.Refuses, verification_of_decode read]
  cases link.verify codecs with
  | ok => simp
  | error cause => cases fatal : cause.isFatal <;> simp [fatal]

theorem verification_retains_iff_of_decode :
    (chainLinkVerification codecs).Retains key value ↔ link.verify codecs = .ok () := by
  rw [Pass.Retains, verification_of_decode read]
  cases link.verify codecs with
  | ok => simp
  | error cause => cases fatal : cause.isFatal <;> simp [fatal]

theorem verification_discards_iff_of_decode :
    (chainLinkVerification codecs).Discards key value
      ↔ link.verify codecs ≠ .ok () ∧ ¬ link.Unreadable := by
  rw [← fatal_verify_iff_of_decode read, Pass.Discards, verification_of_decode read]
  cases link.verify codecs with
  | ok => simp
  | error cause => cases fatal : cause.isFatal <;> simp [fatal]

end Verification

section

variable {codecs : SignDocumentCodecs} {key value : Bytes}

theorem verification_refuses_iff :
    (chainLinkVerification codecs).Refuses key value
      ↔ (∀ link, ChainLink.codec.decode value ≠ .ok link)
        ∨ ∃ link, ChainLink.codec.decode value = .ok link ∧ link.Unreadable := by
  constructor
  · intro refused
    by_cases unread : ∀ link, ChainLink.codec.decode value ≠ .ok link
    · exact .inl unread
    · simp only [not_forall, not_not] at unread
      obtain ⟨link, read⟩ := unread
      exact .inr ⟨link, read, (verification_refuses_iff_of_decode read).1 refused⟩
  · rintro (unread | ⟨link, read, unreadable⟩)
    · exact verification_refuses_of_not_decode unread
    · exact (verification_refuses_iff_of_decode read).2 unreadable

/-- What is not refused has been read. -/
theorem exists_decode_of_transform {outcome : Outcome}
    (transformed : (chainLinkVerification codecs).transform key value = .ok outcome) :
    ∃ link, ChainLink.codec.decode value = .ok link := by
  obtain ⟨link, read, -⟩ := bind_eq_ok_iff.1 transformed
  exact ⟨link, readRecord_eq_ok_iff.1 read⟩

theorem verification_retains_iff :
    (chainLinkVerification codecs).Retains key value
      ↔ ∃ link, ChainLink.codec.decode value = .ok link ∧ link.verify codecs = .ok () := by
  constructor
  · intro retained
    obtain ⟨link, read⟩ := exists_decode_of_transform retained.choose_spec
    exact ⟨link, read, (verification_retains_iff_of_decode read).1 retained⟩
  · rintro ⟨link, read, verified⟩
    exact (verification_retains_iff_of_decode read).2 verified

theorem verification_discards_iff :
    (chainLinkVerification codecs).Discards key value
      ↔ ∃ link, ChainLink.codec.decode value = .ok link
          ∧ link.verify codecs ≠ .ok () ∧ ¬ link.Unreadable := by
  constructor
  · intro discarded
    obtain ⟨link, read⟩ := exists_decode_of_transform discarded.choose_spec
    exact ⟨link, read, (verification_discards_iff_of_decode read).1 discarded⟩
  · rintro ⟨link, read, rejected⟩
    exact (verification_discards_iff_of_decode read).2 rejected

end

/-! ## What ends the pass -/

/-- Verification of a link fails fatally exactly if the link is in order up to a plaintext that
cannot be read, and then with an error of decoding; a key that is too long for any record is the
only other cause. So the pass refuses a record exactly if it does not read as a link or reads as
such a link, retains it exactly if it reads as a link that verifies, and discards it otherwise. The
pass as a whole has its decisions unless it refuses a record. -/
theorem verification_refuses_unreadable (codecs : SignDocumentCodecs) :
    (∀ link : ChainLink,
      (link.proof.publicKey.fits = true → (Fatal (link.verify codecs) ↔ link.Unreadable))
        ∧ (Fatal (link.verify codecs)
          ↔ link.Unreadable
            ∨ link.validate = .ok () ∧ link.address.Overlong link.proof.publicKey)
        ∧ ∀ error, link.verify codecs = .error error → error.isFatal = true →
            ∃ fault, error = .decode fault)
      ∧ (∀ key value,
        ((chainLinkVerification codecs).Refuses key value
            ↔ (∀ link, ChainLink.codec.decode value ≠ .ok link)
              ∨ ∃ link, ChainLink.codec.decode value = .ok link ∧ link.Unreadable)
          ∧ ((chainLinkVerification codecs).Retains key value
            ↔ ∃ link, ChainLink.codec.decode value = .ok link ∧ link.verify codecs = .ok ())
          ∧ ((chainLinkVerification codecs).Discards key value
            ↔ ∃ link, ChainLink.codec.decode value = .ok link
                ∧ link.verify codecs ≠ .ok () ∧ ¬ link.Unreadable)
          ∧ ∀ link plaintext, ChainLink.codec.decode value = .ok link →
              Hex.decode link.proof.plaintextHex = .ok plaintext →
              ¬ (chainLinkVerification codecs).Refuses key value)
      ∧ ∀ store, (∃ error, (chainLinkVerification codecs).decide store = .error error)
          ↔ ∃ key value, Key.scope Key.chainLinks <+: key ∧ store.get? key = some value
              ∧ (chainLinkVerification codecs).Refuses key value := by
  refine ⟨fun link => ⟨ChainLink.fatal_verify_iff_of_fits, ChainLink.fatal_verify_iff, ?_⟩,
    fun key value => ⟨verification_refuses_iff, verification_retains_iff,
      verification_discards_iff, ?_⟩, fun store => Pass.exists_decide_eq_error_iff⟩
  · intro error failed fatal
    exact ChainLink.exists_decode_of_fatal failed fatal
  · intro link plaintext read digits refused
    exact ((verification_refuses_iff_of_decode read).1 refused).digits plaintext digits

/-- A link whose plaintext is not hexadecimal. -/
def smudgedLink : ChainLink :=
  { soundLink with proof := { soundLink.proof with plaintextHex := "zz" } }

theorem unreadable_smudgedLink : smudgedLink.Unreadable where
  owner := validateAccount_eq_ok_iff.1 (exists_eq_ok_of_isOk (by decide +kernel))
  address := eq_ok_of_isOk (by decide +kernel)
  visible := by decide +kernel
  digits := by
    intro plaintext read
    have spoiled : (Hex.decode smudgedLink.proof.plaintextHex).isOk = false := by decide +kernel
    rw [read] at spoiled
    cases spoiled

/-- The pass refuses one of three links, retains another and discards the last. -/
theorem verification_refuses_unreadable_smudgedLink :
    smudgedLink.proof.publicKey.fits = true
      ∧ Fatal (smudgedLink.verify .standard)
      ∧ (chainLinkVerification .standard).Refuses smudgedLink.key
          (ChainLink.codec.write smudgedLink)
      ∧ (chainLinkVerification .standard).Retains soundLink.key (ChainLink.codec.write soundLink)
      ∧ (chainLinkVerification .standard).Discards strangerLink.key
          (ChainLink.codec.write strangerLink) := by
  obtain ⟨verifying, transforming, -⟩ := verification_refuses_unreadable .standard
  have fits : smudgedLink.proof.publicKey.fits = true := by decide
  have read (link : ChainLink) (fits : ChainLink.codec.fits link = true) :
      ChainLink.codec.decode (ChainLink.codec.write link) = .ok link :=
    ChainLink.readsBack.decode_encode (if_pos fits)
  refine ⟨fits, ((verifying smudgedLink).1 fits).2 unreadable_smudgedLink, ?_, ?_, ?_⟩
  · exact (transforming _ _).1.2 (.inr ⟨_, read _ (by decide), unreadable_smudgedLink⟩)
  · exact (transforming _ _).2.1.2 ⟨_, read _ (by decide), eq_ok_of_isOk (by decide +kernel)⟩
  · have legible : (Hex.decode strangerLink.proof.plaintextHex).isOk = true := by decide +kernel
    obtain ⟨plaintext, found⟩ := exists_eq_ok_of_isOk legible
    exact (transforming _ _).2.2.1.2 ⟨_, read _ (by decide), not_verify_strangerLink,
      fun unreadable => unreadable.digits plaintext found⟩

/-- A threshold key whose one member has so many bytes. -/
def bulkyKey (length : Nat) : PublicKey := .multisig 1 [.secp256k1 (List.replicate length 0)]

/-- A sound link with a bulky key in the place of its own. -/
def bulkyLink (length : Nat) : ChainLink :=
  { soundLink with proof := { soundLink.proof with publicKey := bulkyKey length } }

theorem fits_bulkyKey {length : Nat} (long : Binary.lengthBound ≤ length) :
    (bulkyKey length).fits = false := by
  have inside : length ∈ (bulkyKey length).lengths := by
    simp [bulkyKey, PublicKey.lengths, PublicKey.lengthsAll]
  exact PublicKey.counts.fits_eq_false inside long

/-- A base58 address is made of the bytes of a key, and those of a bulky key are its record. -/
theorem overlong_bulkyLink {length : Nat} (long : Binary.lengthBound ≤ length) :
    (bulkyLink length).address.Overlong (bulkyLink length).proof.publicKey := by
  refine ⟨fun value lead other => ?_, ?_⟩
  · cases other
  · exact PublicKey.bytes?_eq_none_iff.2 ⟨⟨_, _, rfl⟩, fits_bulkyKey long⟩

theorem legible_soundLink : ∃ plaintext, Hex.decode soundLink.proof.plaintextHex = .ok plaintext :=
  exists_eq_ok_of_isOk (by decide +kernel)

/-- The record of a sound link, and at the key of its index entry something else. -/
def occupied : Store :=
  (Store.empty.insert soundLink.key (ChainLink.codec.write soundLink)).insert
    soundLink.ownerIndexKey [2]

/-- A plaintext that can be read does not keep verification from failing fatally, which a key that
no record can hold is enough for. Nor does it keep the pass as a whole from ending, which happens
when something else is held where the index entry of a record belongs. -/
theorem overlong_key_ends_verification :
    (∃ plaintext, Hex.decode (bulkyLink Binary.lengthBound).proof.plaintextHex = .ok plaintext)
      ∧ ¬ (Fatal ((bulkyLink Binary.lengthBound).verify .standard)
        ↔ (bulkyLink Binary.lengthBound).Unreadable)
      ∧ (bulkyLink Binary.lengthBound).verify .standard = .error (.decode (.oversized none))
      ∧ ChainLink.codec.decode (ChainLink.codec.write soundLink) = .ok soundLink
      ∧ (∃ plaintext, Hex.decode soundLink.proof.plaintextHex = .ok plaintext)
      ∧ (chainLinkVerification .standard).run occupied
        = .error (.keyCollision soundLink.ownerIndexKey) := by
  have valid : (bulkyLink Binary.lengthBound).validate = .ok () :=
    (soundLink.validate_key _).trans (eq_ok_of_isOk (by decide +kernel))
  have failed : (bulkyLink Binary.lengthBound).verify .standard
      = .error (.decode (.oversized none)) :=
    ChainLink.verify_eq_of_overlong valid (overlong_bulkyLink le_rfl)
  obtain ⟨plaintext, legible⟩ := legible_soundLink
  refine ⟨⟨plaintext, legible⟩, fun claimed => ?_, failed, ?_, ⟨plaintext, legible⟩, ?_⟩
  · -- The failure is fatal, and the plaintext is that of the sound link.
    have unreadable := claimed.1 ⟨_, failed, LinkError.isFatal_decode _⟩
    exact unreadable.digits plaintext legible
  · exact ChainLink.readsBack.decode_encode (if_pos (by decide))
  · -- The record is retained with an index entry, for which there is no room.
    have stopped : (match (chainLinkVerification .standard).run occupied with
        | .error (.keyCollision key) => key == soundLink.ownerIndexKey
        | _ => false) = true := by decide +kernel
    split at stopped
    · next key outcome => rw [outcome, eq_of_beq stopped]
    · cases stopped

end LinkRegistry.Migration
