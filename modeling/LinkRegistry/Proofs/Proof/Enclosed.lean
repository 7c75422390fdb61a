import LinkRegistry.Proof.Verification
import LinkRegistry.Proofs.Encoding.Characters
import LinkRegistry.Proofs.Success

/-!
# Bare signatures in envelopes

A link whose bare signature was put in an envelope of the value type of its plaintext verifies
exactly if its fields are sound and the bare signature is right for the plaintext. The value type
that was found never stands in the way.
-/

namespace LinkRegistry

/-! ## Accounts -/

/-- A text is a classic bech32 account. -/
def IsAccount (value : String) : Prop :=
  ∃ reading, Bech32.read value = .ok reading ∧ reading.form = .classic

theorem validateAccount_eq_ok_iff {value : String} :
    (∃ label, validateAccount value = .ok label) ↔ IsAccount value := by
  rw [validateAccount]
  constructor
  · rintro ⟨label, valid⟩
    split at valid
    · cases valid
    split at valid
    · cases valid
    · next reading found =>
      split at valid
      · cases valid
      · next classic => exact ⟨reading, found, not_not.1 classic⟩
  · rintro ⟨reading, found, classic⟩
    exact ⟨reading.label, by simp [Bech32.not_isBlank_of_read found, found, classic]⟩

/-! ## Rules and verdicts -/

theorem Proof.validate_eq_ok_iff {proof : Proof} :
    proof.validate = .ok ()
      ↔ Blank.isBlank proof.plaintextHex = false ∧ (∃ plaintext, proof.plaintext = .ok plaintext)
        ∧ proof.signature.validate = .ok ()
        ∧ ∃ valueType, proof.signature.valueType = .ok valueType := by
  cases blank : Blank.isBlank proof.plaintextHex with
  | true => simp [Proof.validate, blank]
  | false =>
    simp only [Proof.validate, blank, Bool.false_eq_true, ↓reduceIte, bind_eq_ok_iff, true_and]
    constructor
    · rintro ⟨plaintext, read, ⟨⟩, shape, valueType, typed, -⟩
      exact ⟨⟨plaintext, read⟩, shape, valueType, typed⟩
    · rintro ⟨⟨plaintext, read⟩, shape, valueType, typed⟩
      exact ⟨plaintext, read, (), shape, valueType, typed, trivial⟩

theorem ChainLink.validate_eq_ok_iff {link : ChainLink} :
    link.validate = .ok ()
      ↔ IsAccount link.owner ∧ link.address.validate = .ok () ∧ link.proof.validate = .ok ()
        ∧ Blank.isBlank link.chainName = false ∧ link.creationTime ≠ 0 := by
  rw [ChainLink.validate, ← validateAccount_eq_ok_iff]
  simp only [bind_eq_ok_iff]
  constructor
  · rintro ⟨label, owner, ⟨⟩, address, ⟨⟩, proof, rest⟩
    split at rest
    · cases rest
    split at rest
    · cases rest
    · next visible dated =>
      exact ⟨⟨label, owner⟩, address, proof, Bool.eq_false_iff.2 visible, dated⟩
  · rintro ⟨⟨label, owner⟩, address, proof, visible, dated⟩
    exact ⟨label, owner, (), address, (), proof, by simp [visible, dated]⟩

theorem Address.checkKey_eq_ok_iff {address : Address} {key : PublicKey} :
    address.checkKey key = .ok () ↔ address.belongsTo key = .ok true := by
  rw [Address.checkKey, bind_eq_ok_iff]
  constructor
  · rintro ⟨belongs, found, accepted⟩
    cases belongs with
    | true => exact found
    | false => cases accepted
  · exact fun found => ⟨true, found, rfl⟩

theorem Proof.verify_eq_ok_iff {codecs : SignDocumentCodecs} {proof : Proof} {address : Address}
    {key : PublicKey} :
    proof.verify codecs address key = .ok ()
      ↔ ∃ plaintext valueType framed, proof.plaintext = .ok plaintext
          ∧ address.belongsTo key = .ok true ∧ proof.signature.valueType = .ok valueType
          ∧ codecs.frame valueType plaintext = .ok framed
          ∧ proof.signature.verify framed key = .ok () := by
  simp only [Proof.verify, bind_eq_ok_iff, ← Address.checkKey_eq_ok_iff]
  constructor
  · rintro ⟨plaintext, read, ⟨⟩, belongs, valueType, typed, framed, fits, verified⟩
    exact ⟨plaintext, valueType, framed, read, belongs, typed, fits, verified⟩
  · rintro ⟨plaintext, valueType, framed, read, belongs, typed, fits, verified⟩
    exact ⟨plaintext, read, (), belongs, valueType, typed, framed, fits, verified⟩

theorem ChainLink.verify_eq_ok_iff {codecs : SignDocumentCodecs} {link : ChainLink} :
    link.verify codecs = .ok ()
      ↔ link.validate = .ok ()
        ∧ link.proof.verify codecs link.address link.proof.publicKey = .ok () := by
  rw [ChainLink.verify, bind_eq_ok_iff]
  exact ⟨fun ⟨_, valid, verified⟩ => ⟨valid, verified⟩,
    fun ⟨valid, verified⟩ => ⟨(), valid, verified⟩⟩

theorem decodePlaintext_eq_ok_iff {plaintextHex : String} {plaintext : Bytes} :
    decodePlaintext plaintextHex = .ok plaintext ↔ Hex.decode plaintextHex = .ok plaintext := by
  rw [decodePlaintext]
  cases Hex.decode plaintextHex <;> simp

/-! ## Value types -/

/-- A plaintext is a document of the value type that it is found to have. -/
theorem SignDocumentCodecs.frame_classify (codecs : SignDocumentCodecs) (plaintext : Bytes) :
    codecs.frame (codecs.classify plaintext) plaintext = .ok plaintext := by
  rw [classify]
  split
  · next direct => simp [frame, direct]
  split
  · -- A document of the legacy form is framed by itself, once it decodes.
    next legacy =>
    rw [isLegacyJson] at legacy
    rw [frame]
    cases read : codecs.decodeLegacy plaintext <;> simp_all
  · rfl

/-! ## Enclosed links -/

/-- A signature is right for a message under a single key. -/
def PublicKey.Signed (message signature : Bytes) : PublicKey → Prop
  | .secp256k1 key => checkSecp256k1 message signature key = .ok ()
  | .ed25519 key => checkEd25519 message signature key = .ok ()
  | .multisig _ _ => False

/-- A link with a bare signature is sound, and its signature is right for a plaintext. -/
structure BareChainLink.Sound (link : BareChainLink) (plaintext : Bytes) : Prop where
  owner : IsAccount link.owner
  address : link.address.validate = .ok ()
  plaintextHex : Blank.isBlank link.proof.plaintextHex = false
  chainName : Blank.isBlank link.chainName = false
  creationTime : link.creationTime ≠ 0
  signature : link.proof.signature ≠ []
  decodes : Hex.decode link.proof.plaintextHex = .ok plaintext
  belongs : link.address.belongsTo link.proof.publicKey = .ok true
  signed : link.proof.publicKey.Signed plaintext link.proof.signature

theorem Envelope.verify_single_iff {message signature : Bytes} {valueType : ValueType}
    {key : PublicKey} :
    (Envelope.single valueType signature).verify message key = .ok ()
      ↔ key.Signed message signature := by
  cases key <;> simp [Envelope.verify, PublicKey.Signed]

/-- A link in an envelope of the value type of its plaintext verifies exactly if it is sound. -/
theorem BareChainLink.verify_enclose_iff {codecs : SignDocumentCodecs} {link : BareChainLink}
    {plaintext : Bytes} (decodes : Hex.decode link.proof.plaintextHex = .ok plaintext) :
    (link.enclose (codecs.classify plaintext)).verify codecs = .ok () ↔ link.Sound plaintext := by
  have read : (link.enclose (codecs.classify plaintext)).proof.plaintext = .ok plaintext :=
    decodePlaintext_eq_ok_iff.2 decodes
  rw [ChainLink.verify_eq_ok_iff, ChainLink.validate_eq_ok_iff, Proof.validate_eq_ok_iff,
    Proof.verify_eq_ok_iff]
  constructor
  · rintro ⟨⟨owner, address, ⟨plaintextHex, -, shape, -⟩, chainName, creationTime⟩,
      other, valueType, framed, again, belongs, typed, fits, verified⟩
    -- The value type is the one that was found, so the framed message is the plaintext itself.
    obtain rfl : plaintext = other := Except.ok.inj (read.symm.trans again)
    obtain rfl : codecs.classify plaintext = valueType := Except.ok.inj typed
    rw [codecs.frame_classify] at fits
    obtain rfl := Except.ok.inj fits
    refine ⟨owner, address, plaintextHex, chainName, creationTime, fun empty => ?_, decodes,
      belongs, Envelope.verify_single_iff.1 verified⟩
    simp [enclose, Envelope.validate, empty] at shape
  · rintro ⟨owner, address, plaintextHex, chainName, creationTime, signature, -, belongs, signed⟩
    have shape : (link.enclose (codecs.classify plaintext)).proof.signature.validate = .ok () := by
      simp [enclose, Envelope.validate, signature]
    exact ⟨⟨owner, address, ⟨plaintextHex, ⟨plaintext, read⟩, shape, _, rfl⟩, chainName,
        creationTime⟩,
      plaintext, _, plaintext, read, belongs, rfl, codecs.frame_classify plaintext,
      Envelope.verify_single_iff.2 signed⟩

/-- An envelope of the value type of its plaintext keeps its tag. -/
theorem BareChainLink.retag_enclose {codecs : SignDocumentCodecs} {link : BareChainLink}
    {plaintext : Bytes} (decodes : Hex.decode link.proof.plaintextHex = .ok plaintext) :
    (link.enclose (codecs.classify plaintext)).proof.retag codecs
      = .ok (link.enclose (codecs.classify plaintext)).proof := by
  have read : (link.enclose (codecs.classify plaintext)).proof.plaintext = .ok plaintext :=
    decodePlaintext_eq_ok_iff.2 decodes
  rw [Proof.retag, read]
  rfl

end LinkRegistry
