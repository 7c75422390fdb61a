import LinkRegistry.Proofs.Binary.Lengths
import LinkRegistry.Proofs.Envelope.Tags
import LinkRegistry.Proofs.Envelope.Verdict
import LinkRegistry.Proofs.Proof.Enclosed

/-!
# Fatal errors of verification

Nearly everything that verification may find wrong with a link is said of the link. Fatal is only
what keeps it from being looked at: a plaintext that is not hexadecimal, once owner and address are
in order. An address that keeps the rules can be read, so reading it for its key, where a failure
would be fatal, does not fail any more. A key is hashed as its bytes, and has them unless it is a
threshold key with a list that is too long for a record. Main statement,
`ChainLink.fatal_verify_iff`.
-/

namespace LinkRegistry

/-! ## Fatal outcomes -/

/-- A computation ends with a fatal error. -/
def Fatal {α : Type} (outcome : Except LinkError α) : Prop :=
  ∃ error, outcome = .error error ∧ error.isFatal = true

section

variable {α β : Type}

@[simp]
theorem not_fatal_ok (value : α) : ¬ Fatal (.ok value : Except LinkError α) := by
  simp [Fatal]

@[simp]
theorem fatal_error_iff {error : LinkError} :
    Fatal (.error error : Except LinkError α) ↔ error.isFatal = true := by
  simp [Fatal]

theorem fatal_bind_iff {first : Except LinkError α} {next : α → Except LinkError β} :
    Fatal (first >>= next) ↔ Fatal first ∨ ∃ value, first = .ok value ∧ Fatal (next value) := by
  cases first <;> simp [bind, Except.bind]

/-- Behind a part that never fails fatally, only the rest may. -/
theorem fatal_bind_iff_of_not {first : Except LinkError α} {next : α → Except LinkError β}
    (never : ¬ Fatal first) :
    Fatal (first >>= next) ↔ ∃ value, first = .ok value ∧ Fatal (next value) := by
  rw [fatal_bind_iff, or_iff_right never]

theorem fatal_map_iff {outcome : Except LinkError α} {change : α → β} :
    Fatal (outcome.map change) ↔ Fatal outcome := by
  cases outcome <;> simp [Except.map]

end

namespace LinkError

@[simp]
theorem isFatal_decode (fault : DecodeFault) : (decode fault).isFatal = true := rfl

@[simp]
theorem isFatal_validation (fault : ValidationFault) : (validation fault).isFatal = false := rfl

@[simp]
theorem isFatal_addressMismatch (algorithm encoding address : String) :
    (addressMismatch algorithm encoding address).isFatal = false := rfl

/-- A verdict says something of a link, and does not end what is being done. -/
theorem IsVerdict.not_isFatal {error : LinkError} (verdict : error.IsVerdict) :
    error.isFatal = false := by
  rcases verdict with ⟨fault, rfl⟩ | ⟨fault, rfl⟩ <;> rfl

end LinkError

/-! ## Accounts, addresses and envelopes -/

theorem not_fatal_validateAccount (value : String) : ¬ Fatal (validateAccount value) := by
  rw [validateAccount]
  split
  · simp
  split
  · simp
  · split <;> simp

theorem Address.not_fatal_validate (address : Address) : ¬ Fatal address.validate := by
  rw [Address.validate.eq_def]
  split
  · simp
  -- Whatever an encoding finds wrong with an address is said of the address.
  cases address with
  | bech32 value label =>
    simp only
    split
    · simp
    · split <;> simp
  | base58 value =>
    simp only
    split <;> simp
  | hex value lead =>
    simp only
    split
    · simp
    split
    · simp
    · split <;> simp

namespace Envelope

theorem exists_fatal_of_validateAll {parts : List Envelope} (fatal : Fatal (validateAll parts)) :
    ∃ part ∈ parts, Fatal part.validate := by
  induction parts with
  | nil => simp [validateAll] at fatal
  | cons part rest ih =>
    rw [validateAll] at fatal
    split at fatal
    · next error found => exact ⟨part, .head _, found ▸ fatal⟩
    · obtain ⟨later, member, found⟩ := ih fatal
      exact ⟨later, .tail _ member, found⟩

theorem not_fatal_validate (envelope : Envelope) : ¬ Fatal envelope.validate := by
  induction envelope with
  | single tag signature =>
    rw [validate]
    split <;> simp
  | multi selector parts ih =>
    rw [validate]
    split
    · simp
    split
    · simp
    · intro fatal
      obtain ⟨part, member, found⟩ := exists_fatal_of_validateAll fatal
      exact ih part member found

theorem exists_fatal_of_commonValueType {index : Nat} {common : Option ValueType}
    {parts : List Envelope} (fatal : Fatal (commonValueType index common parts)) :
    ∃ part ∈ parts, Fatal part.valueType := by
  induction parts generalizing index common with
  | nil => cases common <;> simp [commonValueType] at fatal
  | cons part rest ih =>
    -- Parts further on are looked at under another index and with a value type in common.
    have later {index : Nat} {common : Option ValueType}
        (fatal : Fatal (commonValueType index common rest)) :
        ∃ each ∈ part :: rest, Fatal each.valueType := by
      obtain ⟨other, member, found⟩ := ih fatal
      exact ⟨other, .tail _ member, found⟩
    rw [commonValueType] at fatal
    split at fatal
    · next error found => exact ⟨part, .head _, found ▸ fatal⟩
    · split at fatal
      · split at fatal
        · simp at fatal
        · exact later fatal
      · exact later fatal

theorem not_fatal_valueType (envelope : Envelope) : ¬ Fatal envelope.valueType := by
  induction envelope with
  | single tag signature => simp [Envelope.valueType]
  | multi selector parts ih =>
    rw [Envelope.valueType]
    intro fatal
    obtain ⟨part, member, found⟩ := exists_fatal_of_commonValueType fatal
    exact ih part member found

theorem not_fatal_verify (message : Bytes) (envelope : Envelope) (key : PublicKey) :
    ¬ Fatal (envelope.verify message key) := by
  rintro ⟨error, failed, fatal⟩
  rw [(isVerdict_of_verify envelope key failed).not_isFatal] at fatal
  cases fatal

end Envelope

theorem SignDocumentCodecs.not_fatal_frame (codecs : SignDocumentCodecs) (valueType : ValueType)
    (plaintext : Bytes) : ¬ Fatal (codecs.frame valueType plaintext) := by
  cases valueType with
  | raw => simp [frame]
  | direct =>
    rw [frame]
    split <;> simp
  | legacyJson =>
    rw [frame]
    split <;> simp

/-! ## Addresses and keys -/

namespace PublicKey

/-- Only a threshold key may be too long for a record of its own. -/
theorem bytes?_eq_none_iff {key : PublicKey} :
    key.bytes? = none ↔ (∃ threshold members, key = .multisig threshold members)
      ∧ key.fits = false := by
  cases key with
  | secp256k1 bytes | ed25519 bytes => simp [bytes?]
  | multisig threshold members =>
    have fits : codec.fits (multisig threshold members) = (multisig threshold members).fits := rfl
    simp [bytes?, Binary.Codec.encode?, fits]

theorem fatal_hashedBytes_iff {key : PublicKey} : Fatal key.hashedBytes ↔ key.bytes? = none := by
  rw [hashedBytes]
  cases key.bytes? <;> simp

end PublicKey

namespace Address

/-- An address that keeps the rules can be read. -/
theorem exists_payload_of_validate {address : Address} (valid : address.validate = .ok ()) :
    ∃ bytes, address.payload = .ok bytes := by
  -- The rules include a reading of the address, which is done again for its key.
  rw [Address.validate.eq_def] at valid
  split at valid
  · cases valid
  cases address with
  | bech32 value label =>
    simp only at valid
    split at valid
    · cases valid
    split at valid
    · cases valid
    · next bytes read => exact ⟨bytes, read⟩
  | base58 value =>
    simp only at valid
    split at valid
    · cases valid
    · next bytes read => exact ⟨bytes, by simp only [payload, read]⟩
  | hex value lead =>
    simp only at valid
    split at valid
    · cases valid
    split at valid
    · cases valid
    next body behind =>
    split at valid
    · cases valid
    · next bytes read => exact ⟨bytes, by simp only [payload, behind, read]⟩

/-- A key is too long for the address that is made of its bytes. Those of hexadecimal addresses are
coordinates of a point. -/
def Overlong (address : Address) (key : PublicKey) : Prop :=
  (∀ value lead, address ≠ .hex value lead) ∧ key.bytes? = none

section

variable {address : Address} {key : PublicKey}

theorem fatal_derived_iff : Fatal (address.derived key) ↔ address.Overlong key := by
  -- Which bytes of the key are hashed depends on the address, and a secp256k1 key always has them.
  cases address with
  | bech32 value label =>
    cases key with
    | secp256k1 bytes => simp [derived, PublicKey.accountAddress, Overlong, PublicKey.bytes?]
    | ed25519 bytes | multisig threshold members =>
      simp [derived, PublicKey.accountAddress, fatal_map_iff, PublicKey.fatal_hashedBytes_iff,
        Overlong]
  | base58 value =>
    simp [derived, PublicKey.base58Address, fatal_map_iff, PublicKey.fatal_hashedBytes_iff,
      Overlong]
  | hex value lead =>
    have point (bytes : Bytes) : ¬ Fatal (parseSecp256k1Key bytes) := by
      rintro ⟨error, failed, fatal⟩
      obtain ⟨fault, rfl⟩ := validation_of_parseSecp256k1Key failed
      cases fatal
    cases key <;> simp [derived, PublicKey.hexAddress, fatal_map_iff, point, Overlong]

theorem Overlong.derived_eq (overlong : address.Overlong key) :
    address.derived key = .error (.decode (.oversized none)) := by
  obtain ⟨textual, bytes⟩ := overlong
  cases address with
  | bech32 value label =>
    cases key with
    | secp256k1 => simp [PublicKey.bytes?] at bytes
    | ed25519 | multisig =>
      simp [derived, PublicKey.accountAddress, PublicKey.hashedBytes, bytes, Except.map]
  | base58 value =>
    simp [derived, PublicKey.base58Address, PublicKey.hashedBytes, bytes, Except.map]
  | hex value lead => exact absurd rfl (textual value lead)

theorem fatal_checkKey_iff (valid : address.validate = .ok ()) :
    Fatal (address.checkKey key) ↔ address.Overlong key := by
  obtain ⟨bytes, read⟩ := exists_payload_of_validate valid
  rw [← fatal_derived_iff, checkKey, belongsTo, read]
  cases found : address.derived key with
  | error error => simp [bind, Except.bind]
  | ok derived =>
    by_cases same : bytes = derived <;> simp [bind, Except.bind, same]

end

end Address

/-! ## Proofs -/

section

variable {codecs : SignDocumentCodecs} {proof : Proof}

theorem Proof.fatal_plaintext_iff :
    Fatal proof.plaintext ↔ ∀ plaintext, Hex.decode proof.plaintextHex ≠ .ok plaintext := by
  rw [Proof.plaintext, decodePlaintext]
  cases Hex.decode proof.plaintextHex <;> simp

theorem Proof.fatal_validate_iff :
    Fatal proof.validate ↔ Blank.isBlank proof.plaintextHex = false ∧ Fatal proof.plaintext := by
  rw [Proof.validate]
  cases Blank.isBlank proof.plaintextHex with
  | true => simp
  | false =>
    simp [fatal_bind_iff, Envelope.not_fatal_validate, Envelope.not_fatal_valueType]

theorem Proof.fatal_verify_iff {address : Address} {key : PublicKey} {plaintext : Bytes}
    (read : proof.plaintext = .ok plaintext) (valid : address.validate = .ok ()) :
    Fatal (proof.verify codecs address key) ↔ address.Overlong key := by
  rw [Proof.verify, read]
  change Fatal (address.checkKey key >>= _) ↔ _
  rw [fatal_bind_iff, Address.fatal_checkKey_iff valid, or_iff_left]
  -- Once the key is that of the address, whatever goes wrong is said of the signature.
  rintro ⟨-, -, later⟩
  rw [fatal_bind_iff_of_not (Envelope.not_fatal_valueType _)] at later
  obtain ⟨valueType, -, later⟩ := later
  rw [fatal_bind_iff_of_not (codecs.not_fatal_frame _ _)] at later
  obtain ⟨framed, -, later⟩ := later
  exact Envelope.not_fatal_verify framed proof.signature key later

end

/-! ## Links -/

/-- A link with owner and address in order whose plaintext is neither blank nor hexadecimal. -/
structure ChainLink.Unreadable (link : ChainLink) : Prop where
  owner : IsAccount link.owner
  address : link.address.validate = .ok ()
  visible : Blank.isBlank link.proof.plaintextHex = false
  digits : ∀ plaintext, Hex.decode link.proof.plaintextHex ≠ .ok plaintext

namespace ChainLink

variable {codecs : SignDocumentCodecs} {link : ChainLink}

/-- The rules for a link do not look at its key. -/
theorem validate_key (link : ChainLink) (key : PublicKey) :
    ChainLink.validate { link with proof := { link.proof with publicKey := key } }
      = link.validate := rfl

theorem fatal_validate_iff : Fatal link.validate ↔ link.Unreadable := by
  rw [ChainLink.validate, fatal_bind_iff_of_not (not_fatal_validateAccount _)]
  constructor
  · rintro ⟨label, account, later⟩
    rw [fatal_bind_iff_of_not (Address.not_fatal_validate _)] at later
    obtain ⟨_, valid, later⟩ := later
    -- What is left may be the proof, or the name of the chain and the time, which are never fatal.
    rcases fatal_bind_iff.1 later with invalid | ⟨_, _, later⟩
    · obtain ⟨visible, unread⟩ := Proof.fatal_validate_iff.1 invalid
      exact ⟨validateAccount_eq_ok_iff.1 ⟨label, account⟩, valid, visible,
        Proof.fatal_plaintext_iff.1 unread⟩
    · split at later
      · simp at later
      · split at later <;> simp at later
  · rintro ⟨owner, address, visible, digits⟩
    obtain ⟨label, account⟩ := validateAccount_eq_ok_iff.2 owner
    have invalid : Fatal link.proof.validate :=
      Proof.fatal_validate_iff.2 ⟨visible, Proof.fatal_plaintext_iff.2 digits⟩
    exact ⟨label, account, fatal_bind_iff.2 (.inr ⟨(), address, fatal_bind_iff.2 (.inl invalid)⟩)⟩

theorem fatal_verify_iff :
    Fatal (link.verify codecs)
      ↔ link.Unreadable
        ∨ link.validate = .ok () ∧ link.address.Overlong link.proof.publicKey := by
  rw [ChainLink.verify, fatal_bind_iff, fatal_validate_iff]
  refine or_congr_right ?_
  -- The rules have been checked by then, so plaintext and address are known to be legible.
  have provable (valid : link.validate = .ok ()) :
      Fatal (link.proof.verify codecs link.address link.proof.publicKey)
        ↔ link.address.Overlong link.proof.publicKey := by
    obtain ⟨-, address, sound, -, -⟩ := validate_eq_ok_iff.1 valid
    obtain ⟨-, ⟨plaintext, read⟩, -⟩ := Proof.validate_eq_ok_iff.1 sound
    exact Proof.fatal_verify_iff read address
  constructor
  · rintro ⟨_, valid, fatal⟩
    exact ⟨valid, (provable valid).1 fatal⟩
  · rintro ⟨valid, overlong⟩
    exact ⟨(), valid, (provable valid).2 overlong⟩

/-- The lengths inside the key of a link are among those of the link. -/
theorem fits_publicKey (fits : ChainLink.codec.fits link = true) :
    link.proof.publicKey.fits = true := by
  have short := (ChainLink.counts link).1 fits
  refine (PublicKey.fits_iff _).2 fun length inside => short length ?_
  simp [ChainLink.lengths, Proof.lengths, inside]

/-- The key of a record, whose lists all have a length that can be written, is never too long. -/
theorem fatal_verify_iff_of_fits (fits : link.proof.publicKey.fits = true) :
    Fatal (link.verify codecs) ↔ link.Unreadable := by
  rw [fatal_verify_iff, or_iff_left]
  rintro ⟨-, -, bytes⟩
  rw [PublicKey.bytes?_eq_none_iff, fits] at bytes
  cases bytes.2

theorem Unreadable.exists_verify_eq (unreadable : link.Unreadable) :
    ∃ error, link.verify codecs = .error (.decode (.plaintextHex error)) := by
  obtain ⟨label, account⟩ := validateAccount_eq_ok_iff.2 unreadable.owner
  cases found : Hex.decode link.proof.plaintextHex with
  | ok plaintext => exact absurd found (unreadable.digits plaintext)
  | error error =>
    refine ⟨error, ?_⟩
    simp [ChainLink.verify, ChainLink.validate, Proof.validate, Proof.plaintext, decodePlaintext,
      account, unreadable.address, unreadable.visible, found, bind, Except.bind]

theorem verify_eq_of_overlong (valid : link.validate = .ok ())
    (overlong : link.address.Overlong link.proof.publicKey) :
    link.verify codecs = .error (.decode (.oversized none)) := by
  obtain ⟨-, address, sound, -, -⟩ := validate_eq_ok_iff.1 valid
  obtain ⟨-, ⟨plaintext, read⟩, -⟩ := Proof.validate_eq_ok_iff.1 sound
  obtain ⟨bytes, payload⟩ := Address.exists_payload_of_validate address
  simp [ChainLink.verify, Proof.verify, valid, read, Address.checkKey, Address.belongsTo, payload,
    overlong.derived_eq, bind, Except.bind]

/-- The only fatal errors of verification are failures to decode. -/
theorem exists_decode_of_fatal {error : LinkError} (failed : link.verify codecs = .error error)
    (fatal : error.isFatal = true) : ∃ fault, error = .decode fault := by
  rcases fatal_verify_iff.1 ⟨error, failed, fatal⟩ with unreadable | ⟨valid, overlong⟩
  · obtain ⟨cause, found⟩ := unreadable.exists_verify_eq
    exact ⟨_, Except.error.inj (failed.symm.trans found)⟩
  · exact ⟨_, Except.error.inj (failed.symm.trans (verify_eq_of_overlong valid overlong))⟩

end ChainLink

end LinkRegistry
