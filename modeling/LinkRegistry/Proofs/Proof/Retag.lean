import LinkRegistry.Proofs.Envelope.Tags
import LinkRegistry.Proofs.Proof.Enclosed

/-!
# Tagging proofs afresh

The tag of a signature says how the plaintext was framed, and framing leaves the plaintext as it
is. So a proof that verifies also verifies with the value type that its plaintext is found to have,
and a link with that proof still keeps the rules. Main statements, `ChainLink.verify_retag` and
`Proof.retag_keeps_verified`.
-/

namespace LinkRegistry

section

variable {codecs : SignDocumentCodecs}

/-- Framing leaves a plaintext as it is. -/
theorem SignDocumentCodecs.eq_of_frame {valueType : ValueType} {plaintext framed : Bytes}
    (fits : codecs.frame valueType plaintext = .ok framed) : framed = plaintext := by
  cases valueType with
  | raw => exact (Except.ok.inj fits).symm
  | direct =>
    rw [frame] at fits
    split at fits
    · exact (Except.ok.inj fits).symm
    · cases fits
  | legacyJson =>
    rw [frame] at fits
    split at fits
    · exact (Except.ok.inj fits).symm
    · cases fits

theorem Proof.retag_eq_ok_iff {proof tagged : Proof} :
    proof.retag codecs = .ok tagged
      ↔ ∃ plaintext, proof.plaintext = .ok plaintext
          ∧ { proof with signature := proof.signature.retag (codecs.classify plaintext) }
            = tagged := by
  rw [Proof.retag]
  cases proof.plaintext <;> simp

/-- A proof that has the value type of its plaintext is tagged already. -/
theorem Proof.retag_of_valueType {proof : Proof} {plaintext : Bytes}
    (read : proof.plaintext = .ok plaintext)
    (typed : proof.signature.valueType = .ok (codecs.classify plaintext)) :
    proof.retag codecs = .ok proof := by
  refine Proof.retag_eq_ok_iff.2 ⟨plaintext, read, ?_⟩
  rw [Envelope.retag_of_valueType typed]

theorem Proof.validate_retag {proof tagged : Proof} (valid : proof.validate = .ok ())
    (retagged : proof.retag codecs = .ok tagged) : tagged.validate = .ok () := by
  obtain ⟨plaintext, read, rfl⟩ := Proof.retag_eq_ok_iff.1 retagged
  obtain ⟨visible, decodes, shape, found, typed⟩ := Proof.validate_eq_ok_iff.1 valid
  refine Proof.validate_eq_ok_iff.2 ⟨visible, decodes, ?_, codecs.classify plaintext, ?_⟩
  · rw [Envelope.validate_retag]
    exact shape
  · exact Envelope.valueType_retag typed

theorem Proof.verify_retag {proof tagged : Proof} {address : Address} {key : PublicKey}
    (verified : proof.verify codecs address key = .ok ())
    (retagged : proof.retag codecs = .ok tagged) : tagged.verify codecs address key = .ok () := by
  obtain ⟨plaintext, read, rfl⟩ := Proof.retag_eq_ok_iff.1 retagged
  obtain ⟨other, found, framed, again, belongs, typed, fits, signed⟩ :=
    Proof.verify_eq_ok_iff.1 verified
  obtain rfl : plaintext = other := Except.ok.inj (read.symm.trans again)
  obtain rfl := codecs.eq_of_frame fits
  have fitsNow := codecs.frame_classify framed
  refine Proof.verify_eq_ok_iff.2 ⟨framed, _, framed, read, belongs, ?_, fitsNow, ?_⟩
  · exact Envelope.valueType_retag typed
  · rw [Envelope.verify_retag]
    exact signed

/-- A link that verifies also does with its proof tagged afresh. -/
theorem ChainLink.verify_retag {link : ChainLink} {tagged : Proof}
    (verified : link.verify codecs = .ok ()) (retagged : link.proof.retag codecs = .ok tagged) :
    { link with proof := tagged }.verify codecs = .ok () := by
  obtain ⟨valid, proven⟩ := ChainLink.verify_eq_ok_iff.1 verified
  obtain ⟨owner, address, sound, chainName, creationTime⟩ := ChainLink.validate_eq_ok_iff.1 valid
  have sameKey : tagged.publicKey = link.proof.publicKey := by
    obtain ⟨_, -, rfl⟩ := Proof.retag_eq_ok_iff.1 retagged
    rfl
  refine ChainLink.verify_eq_ok_iff.2 ⟨ChainLink.validate_eq_ok_iff.2 ?_, ?_⟩
  · exact ⟨owner, address, Proof.validate_retag sound retagged, chainName, creationTime⟩
  · have provenNow := Proof.verify_retag proven retagged
    simpa only [sameKey] using provenNow

/-- After it is tagged afresh, a proof that kept the rules has the value type of its plaintext. -/
theorem Proof.valueType_retag {proof tagged : Proof} (valid : proof.validate = .ok ())
    (retagged : proof.retag codecs = .ok tagged) :
    ∃ plaintext, Hex.decode tagged.plaintextHex = .ok plaintext
      ∧ tagged.signature.valueType = .ok (codecs.classify plaintext) := by
  obtain ⟨plaintext, read, rfl⟩ := Proof.retag_eq_ok_iff.1 retagged
  obtain ⟨-, -, -, found, typed⟩ := Proof.validate_eq_ok_iff.1 valid
  exact ⟨plaintext, decodePlaintext_eq_ok_iff.1 read,
    Envelope.valueType_retag typed⟩

/-! ## What tagging keeps -/

/-- Proofs are the same but for the tags of their signatures. -/
structure Proof.SameButTags (proof other : Proof) : Prop where
  publicKey : proof.publicKey = other.publicKey
  signature : proof.signature.SameButTags other.signature
  plaintextHex : proof.plaintextHex = other.plaintextHex

section

variable {proof tagged : Proof} (retagged : proof.retag codecs = .ok tagged)
include retagged

theorem Proof.sameButTags_of_retag : proof.SameButTags tagged := by
  obtain ⟨plaintext, -, rfl⟩ := Proof.retag_eq_ok_iff.1 retagged
  exact ⟨rfl, Envelope.sameButTags_retag _ proof.signature, rfl⟩

theorem Proof.retag_of_retag : tagged.retag codecs = .ok tagged := by
  obtain ⟨plaintext, read, rfl⟩ := Proof.retag_eq_ok_iff.1 retagged
  -- The plaintext is the same, so the tag that is found is the one that is there.
  refine Proof.retag_eq_ok_iff.2 ⟨plaintext, read, ?_⟩
  simp only [Envelope.retag_retag]

/-- The plaintext of a tagged proof is a document of whatever value type its signatures share. -/
theorem Proof.frame_of_retag {plaintext : Bytes} {valueType : ValueType}
    (read : tagged.plaintext = .ok plaintext)
    (typed : tagged.signature.valueType = .ok valueType) :
    codecs.frame valueType plaintext = .ok plaintext := by
  obtain ⟨own, decodes, rfl⟩ := Proof.retag_eq_ok_iff.1 retagged
  obtain rfl : own = plaintext := Except.ok.inj (decodes.symm.trans read)
  rw [Envelope.eq_of_valueType_retag typed]
  exact codecs.frame_classify own

end

theorem Proof.exists_retag_of_verify {proof : Proof} {address : Address} {key : PublicKey}
    (verified : proof.verify codecs address key = .ok ()) :
    ∃ tagged plaintext, proof.retag codecs = .ok tagged ∧ proof.plaintext = .ok plaintext
      ∧ tagged.signature.valueType = .ok (codecs.classify plaintext) := by
  obtain ⟨plaintext, found, _, read, -, typed, -, -⟩ := Proof.verify_eq_ok_iff.1 verified
  exact ⟨_, plaintext, Proof.retag_eq_ok_iff.2 ⟨plaintext, read, rfl⟩, read,
    Envelope.valueType_retag typed⟩

end

/-- A proof by both members of a threshold key, whose signatures have these tags. The members are
the neutral point, under which the signature is right for any message, and the plaintext, all
zeros, is a binary sign-document. -/
def thresholdProof (first second : ValueType) : Proof :=
  let member : PublicKey := .ed25519 (1 :: List.replicate 31 0)
  let signature : Bytes := 1 :: List.replicate 63 0
  { publicKey := .multisig 2 [member, member]
    signature := .multi ⟨2, [0xC0]⟩ [.single first signature, .single second signature]
    plaintextHex := String.ofList (.replicate 40 '0') }

/-- The address of the threshold key. -/
def thresholdAddress : Address := .bech32 "c13ezqnj7f6tsmhlxnczke7s3x3l5rpvxqex2qkm" "c"

/-- Signatures with different tags do not verify, but once they are tagged afresh they do. -/
theorem exists_verified_by_retag (codecs : SignDocumentCodecs) :
    ∃ (proof tagged : Proof) (address : Address) (key : PublicKey),
      proof.retag codecs = .ok tagged ∧ tagged.verify codecs address key = .ok ()
        ∧ proof.verify codecs address key ≠ .ok () := by
  let proof := thresholdProof .raw .direct
  let plaintext : Bytes := List.replicate 20 0
  have read : proof.plaintext = .ok plaintext := decodePlaintext_eq_ok_iff.2 (by decide)
  have belongs : thresholdAddress.belongsTo proof.publicKey = .ok true :=
    Address.checkKey_eq_ok_iff.1 (eq_ok_of_isOk (by decide +kernel))
  have signed : proof.signature.verify plaintext proof.publicKey = .ok () :=
    eq_ok_of_isOk (by decide +kernel)
  refine ⟨proof, _, thresholdAddress, proof.publicKey,
    Proof.retag_eq_ok_iff.2 ⟨plaintext, read, rfl⟩, Proof.verify_eq_ok_iff.2 ?_, fun verified => ?_⟩
  · -- The signatures need only have a tag each, which the plaintext replaces.
    have typed : (proof.signature.retag (codecs.classify plaintext)).valueType
        = .ok (codecs.classify plaintext) := by
      simp [proof, thresholdProof, Envelope.retag, Envelope.retagAll, Envelope.valueType,
        Envelope.commonValueType]
    exact ⟨plaintext, _, plaintext, read, belongs, typed, codecs.frame_classify plaintext,
      (Envelope.verify_retag _ proof.signature plaintext proof.publicKey).trans signed⟩
  · -- As it was, there is no value type that they share.
    obtain ⟨_, _, _, -, -, typed, -, -⟩ := Proof.verify_eq_ok_iff.1 verified
    simp [proof, thresholdProof, Envelope.valueType, Envelope.commonValueType] at typed

/-- A proof that verifies can be tagged afresh, and then verifies with the value type of its
plaintext; a link verifies with its proof tagged afresh if it did before. Whatever proof is tagged,
its plaintext is then a document of the value type that its signatures share, tagging it again
changes nothing, and only tags were changed. A proof that did not verify may do so afterwards. -/
theorem Proof.retag_keeps_verified (codecs : SignDocumentCodecs) (proof : Proof) :
    (∀ address key, proof.verify codecs address key = .ok () →
        ∃ tagged plaintext, proof.retag codecs = .ok tagged
          ∧ tagged.verify codecs address key = .ok () ∧ proof.plaintext = .ok plaintext
          ∧ tagged.signature.valueType = .ok (codecs.classify plaintext))
      ∧ (∀ link : ChainLink, link.proof = proof → link.verify codecs = .ok () →
        ∃ tagged, proof.retag codecs = .ok tagged
          ∧ { link with proof := tagged }.verify codecs = .ok ())
      ∧ (∀ tagged, proof.retag codecs = .ok tagged →
        (∀ plaintext valueType, tagged.plaintext = .ok plaintext →
            tagged.signature.valueType = .ok valueType →
            codecs.frame valueType plaintext = .ok plaintext)
          ∧ tagged.retag codecs = .ok tagged ∧ proof.SameButTags tagged)
      ∧ ∃ (other tagged : Proof) (address : Address) (key : PublicKey),
        other.retag codecs = .ok tagged ∧ tagged.verify codecs address key = .ok ()
          ∧ other.verify codecs address key ≠ .ok () := by
  refine ⟨fun address key verified => ?_, ?_, fun tagged retagged => ?_,
    exists_verified_by_retag codecs⟩
  · obtain ⟨tagged, plaintext, retagged, read, typed⟩ := Proof.exists_retag_of_verify verified
    exact ⟨tagged, plaintext, retagged, Proof.verify_retag verified retagged, read, typed⟩
  · rintro link rfl verified
    obtain ⟨-, proven⟩ := ChainLink.verify_eq_ok_iff.1 verified
    obtain ⟨tagged, _, retagged, -, -⟩ := Proof.exists_retag_of_verify proven
    exact ⟨tagged, retagged, ChainLink.verify_retag verified retagged⟩
  · exact ⟨fun _ _ => Proof.frame_of_retag retagged, Proof.retag_of_retag retagged,
      Proof.sameButTags_of_retag retagged⟩

theorem Proof.retag_keeps_verified_thresholdProof :
    let proof := thresholdProof .raw .raw
    proof.verify .standard thresholdAddress proof.publicKey = .ok ()
      ∧ ∃ tagged, proof.retag .standard = .ok tagged
        ∧ tagged.verify .standard thresholdAddress proof.publicKey = .ok ()
        ∧ tagged.signature.valueType = .ok .direct
        ∧ tagged.retag .standard = .ok tagged ∧ proof.SameButTags tagged := by
  intro proof
  have verified : proof.verify .standard thresholdAddress proof.publicKey = .ok () :=
    eq_ok_of_isOk (by decide +kernel)
  obtain ⟨keeps, -, settles, -⟩ := Proof.retag_keeps_verified .standard proof
  obtain ⟨tagged, plaintext, retagged, still, read, typed⟩ := keeps _ _ verified
  obtain ⟨-, again, same⟩ := settles tagged retagged
  obtain rfl : List.replicate 20 0 = plaintext :=
    Except.ok.inj ((decodePlaintext_eq_ok_iff.2 (by decide)).symm.trans read)
  have direct : SignDocumentCodecs.standard.classify (List.replicate 20 0) = .direct := by
    decide +kernel
  exact ⟨verified, tagged, retagged, still, direct ▸ typed, again, same⟩

end LinkRegistry
