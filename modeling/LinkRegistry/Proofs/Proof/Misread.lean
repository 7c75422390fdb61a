import LinkRegistry.Proofs.Binary.Records
import LinkRegistry.Proofs.Proof.Fatal

/-!
# Links misread in the earlier layout

The record of a link reads in the earlier layout, too, if its envelope and what follows happen to
look like a bare signature and the fields behind one. Owner, address and key are then the same. But
the first bytes of the envelope of a single signature give the length of a bare one of several
million bytes, which is right under no single key, and under a threshold key no bare signature is
right at all. So a link that verifies is never misread as a sound one, and what verification says of
the link that it is misread as is a verdict, no failure to read it. Main statement,
`Misread.exists_verdict`.
-/

namespace LinkRegistry

open Binary Binary.Codec

/-- The record of a link reads as one with a bare signature, whose plaintext decodes. -/
structure ChainLink.Misread (link : ChainLink) (bare : BareChainLink) (plaintext : Bytes) :
    Prop where
  reads : BareChainLink.codec.decode (ChainLink.codec.write link) = .ok bare
  decodes : Hex.decode bare.proof.plaintextHex = .ok plaintext

/-- The record of a link can be taken for one of the earlier layout. -/
def ChainLink.ReadsBare (link : ChainLink) : Prop :=
  ∃ bare plaintext, link.Misread bare plaintext

/-! ## What both layouts have in common -/

/-- An enclosed link can be written exactly if the link can. -/
theorem BareChainLink.fits_enclose (bare : BareChainLink) (valueType : ValueType) :
    ChainLink.codec.fits (bare.enclose valueType) = BareChainLink.codec.fits bare := rfl

/-- The fields before the signature are read alike, and the envelope stands where the earlier layout
has the bare signature. -/
theorem ChainLink.Misread.common {link : ChainLink} {bare : BareChainLink} {plaintext : Bytes}
    (misread : link.Misread bare plaintext) (fits : ChainLink.codec.fits link = true) :
    bare.owner = link.owner ∧ bare.address = link.address
      ∧ bare.proof.publicKey = link.proof.publicKey
      ∧ ∃ front back, link.proof.signature.write ++ front
          = bytes.write bare.proof.signature ++ back := by
  have fitsBare : BareChainLink.codec.fits bare = true :=
    BareChainLink.faithful.fitting (read_of_decode misread.reads)
  have same : ChainLink.codec.write link = BareChainLink.codec.write bare :=
    (BareChainLink.faithful.canonical.write_of_decode misread.reads).symm
  simp only [ChainLink.codec, BareChainLink.codec, Proof.codec, BareProof.codec, Codec.via,
    Codec.pair, Bool.and_eq_true] at fits fitsBare same
  obtain ⟨owner, address, ⟨key, -⟩, -⟩ := fits
  obtain ⟨bareOwner, bareAddress, ⟨bareKey, -⟩, -⟩ := fitsBare
  obtain ⟨sameOwner, rest⟩ := readsBack_text.append_inj owner bareOwner same
  obtain ⟨sameAddress, rest⟩ := Address.readsBack.append_inj address bareAddress rest
  simp only [List.append_assoc] at rest
  obtain ⟨sameKey, rest⟩ := PublicKey.readsBack.append_inj key bareKey rest
  exact ⟨sameOwner.symm, sameAddress.symm, sameKey.symm, _, _, rest⟩

/-! ## Signatures that are not bare -/

/-- A key is no threshold over others. -/
def PublicKey.IsSingle : PublicKey → Prop
  | .secp256k1 _ | .ed25519 _ => True
  | .multisig _ _ => False

/-- A signature that is right under a single key has 64 bytes. -/
theorem PublicKey.Signed.length_eq {message signature : Bytes} {key : PublicKey}
    (signed : key.Signed message signature) : signature.length = 64 := by
  -- Both checks look at the width of the signature before they compute with it.
  cases key with
  | secp256k1 key =>
    simp only [PublicKey.Signed, checkSecp256k1] at signed
    split at signed
    · cases signed
    split at signed
    · cases signed
    · next parsed found =>
      simp only [Secp256k1.Signature.parse?] at found
      split at found
      · next shape =>
        simp only [Bool.and_eq_true, decide_eq_true_eq] at shape
        exact shape.1.1.1.1
      · cases found
  | ed25519 key =>
    simp only [PublicKey.Signed, checkEd25519] at signed
    split at signed
    · cases signed
    split at signed
    · cases signed
    split at signed
    · cases signed
    · next wide => exact not_not.1 wide
  | multisig => cases signed

theorem PublicKey.Signed.isSingle {message signature : Bytes} {key : PublicKey}
    (signed : key.Signed message signature) : key.IsSingle := by
  cases key with
  | secp256k1 | ed25519 => trivial
  | multisig => exact signed

/-- Only a single signature is right for a single key. -/
theorem Envelope.eq_single_of_verify {message : Bytes} {envelope : Envelope} {key : PublicKey}
    (single : key.IsSingle)
    (verified : envelope.verify message key = .ok ()) :
    ∃ valueType signature, envelope = .single valueType signature := by
  cases envelope with
  | single valueType signature => exact ⟨valueType, signature, rfl⟩
  | multi selector parts =>
    cases key with
    | multisig => cases single
    | secp256k1 | ed25519 => simp [Envelope.verify] at verified

/-- The envelope of a single signature of 64 bytes begins like a very long bare signature. -/
theorem Envelope.le_length_of_write_single {valueType : ValueType}
    {signature bare front back : Bytes} (width : signature.length = 64)
    (same : (Envelope.single valueType signature).write ++ front = bytes.write bare ++ back) :
    0x400000 ≤ bare.length := by
  -- The lowest byte of the width of the signature is the third byte of the other length.
  have third := congrArg (fun content : Bytes => content[2]?.map UInt8.toNat) same
  simp only [bytes, writeLength, width, Envelope.write, Bytes.littleEndian, List.cons_append,
    List.nil_append, List.getElem?_cons_succ, List.getElem?_cons_zero, Option.map_some,
    Option.some.injEq, UInt8.toNat_ofNat'] at third
  omega

/-! ## Misread links are dropped -/

section

variable {link : ChainLink} {bare : BareChainLink} {plaintext : Bytes}
  (misread : link.Misread bare plaintext) (fits : ChainLink.codec.fits link = true)
  (verified : link.verify .standard = .ok ())
include misread fits verified

/-- Under a single key, what is taken for the bare signature is far too long for one. -/
theorem ChainLink.Misread.le_length_signature
    (single : link.proof.publicKey.IsSingle) :
    0x400000 ≤ bare.proof.signature.length := by
  obtain ⟨-, -, -, front, back, same⟩ := misread.common fits
  obtain ⟨-, proven⟩ := ChainLink.verify_eq_ok_iff.1 verified
  obtain ⟨_, _, framed, -, -, -, -, right⟩ := Proof.verify_eq_ok_iff.1 proven
  obtain ⟨valueType, signature, shape⟩ := Envelope.eq_single_of_verify single right
  rw [shape] at same right
  exact Envelope.le_length_of_write_single (Envelope.verify_single_iff.1 right).length_eq same

/-- So only the record of an enormous link is misread. -/
theorem ChainLink.Misread.le_length_record
    (single : link.proof.publicKey.IsSingle) :
    0x400000 ≤ (ChainLink.codec.write link).length := by
  have long := misread.le_length_signature fits verified single
  rw [← BareChainLink.faithful.canonical.write_of_decode misread.reads]
  simp only [BareChainLink.codec, BareProof.codec, Codec.via, Codec.pair, bytes,
    List.length_append]
  omega

theorem ChainLink.Misread.not_sound : ¬ bare.Sound plaintext := by
  intro sound
  obtain ⟨-, -, sameKey, -⟩ := misread.common fits
  have single : link.proof.publicKey.IsSingle := sameKey ▸ sound.signed.isSingle
  have long := misread.le_length_signature fits verified single
  rw [sound.signed.length_eq] at long
  exact absurd long (by decide)

/-- What is enclosed of a misread link gets a verdict that it does not verify. -/
theorem ChainLink.Misread.exists_verdict :
    ∃ cause, (bare.enclose (SignDocumentCodecs.standard.classify plaintext)).verify .standard
        = .error cause ∧ cause.isFatal = false := by
  have unsound := misread.not_sound fits verified
  obtain ⟨-, -, sameKey, -⟩ := misread.common fits
  have fitsKey : bare.proof.publicKey.fits = true := sameKey ▸ ChainLink.fits_publicKey fits
  cases outcome :
      (bare.enclose (SignDocumentCodecs.standard.classify plaintext)).verify .standard with
  | ok => exact absurd ((BareChainLink.verify_enclose_iff misread.decodes).1 outcome) unsound
  | error cause =>
    refine ⟨cause, rfl, Bool.eq_false_iff.2 fun fatal => ?_⟩
    -- Only a plaintext that cannot be read would be fatal, and this one has been read.
    have unreadable := (ChainLink.fatal_verify_iff_of_fits fitsKey).1 ⟨cause, outcome, fatal⟩
    exact unreadable.digits plaintext misread.decodes

end

end LinkRegistry
