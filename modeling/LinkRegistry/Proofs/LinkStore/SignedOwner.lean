import LinkRegistry.Proofs.LinkStore.History
import LinkRegistry.Proofs.Proof.Plaintext

/-!
# The owner that a plaintext names

The value type of a signature is no part of what was signed, so it must not matter which one a link
claims. A link that is saved has the value type that its plaintext is found to have, and its owner
is what the plaintext says under that type. So a plaintext serves one owner only. Main statement,
`LinkStore.plaintext_names_owner`.
-/

namespace LinkRegistry

theorem SignDocumentCodecs.validateSignedValue_eq_ok_iff {codecs : SignDocumentCodecs}
    {signature : Envelope} {plaintext : Bytes} {owner : String} :
    codecs.validateSignedValue signature plaintext owner = .ok ()
      ↔ ∃ valueType, signature.valueType = .ok valueType
          ∧ codecs.signedValue valueType plaintext = .ok owner := by
  simp only [validateSignedValue, bind_eq_ok_iff]
  refine exists_congr fun valueType => and_congr_right fun _ => ?_
  constructor
  · rintro ⟨signed, read, named⟩
    split at named
    · cases named
    · next same => rwa [← not_not.1 same]
  · exact fun read => ⟨owner, read, by simp⟩

/-- An accepted link has the value type of its plaintext, and its owner is what the plaintext says
under that type. -/
theorem ChainLink.Accepted.signed_as_classified {link : ChainLink} {plaintext : Bytes}
    (accepted : link.Accepted .standard) (decodes : Hex.decode link.proof.plaintextHex = .ok plaintext)
    (moderate : plaintext.length < 0x09090909) :
    link.proof.signature.valueType = .ok (SignDocumentCodecs.standard.classify plaintext)
      ∧ SignDocumentCodecs.standard.signedValue (SignDocumentCodecs.standard.classify plaintext)
          plaintext = .ok link.owner := by
  have read : link.proof.plaintext = .ok plaintext := decodePlaintext_eq_ok_iff.2 decodes
  obtain ⟨valid, proven⟩ := ChainLink.verify_eq_ok_iff.1 accepted.verified
  obtain ⟨account, -⟩ := ChainLink.validate_eq_ok_iff.1 valid
  -- The two checks of the proof look at one plaintext and one value type.
  obtain ⟨other, again, named⟩ := accepted.signedValue
  obtain rfl : plaintext = other := Except.ok.inj (read.symm.trans again)
  obtain ⟨valueType, typed, signed⟩ := SignDocumentCodecs.validateSignedValue_eq_ok_iff.1 named
  obtain ⟨other, claimed, framed, again, -, typedAgain, fits, -⟩ := Proof.verify_eq_ok_iff.1 proven
  obtain rfl : plaintext = other := Except.ok.inj (read.symm.trans again)
  obtain rfl : valueType = claimed := Except.ok.inj (typed.symm.trans typedAgain)
  suffices found : SignDocumentCodecs.standard.classify plaintext = valueType by
    rw [found]
    exact ⟨typed, signed⟩
  cases valueType with
  | raw =>
    -- What was signed as it is must be the owner itself, an account.
    have owner : Utf8.decodeLenient plaintext = link.owner := Except.ok.inj signed
    exact classify_of_isAccount (owner ▸ account) moderate
  | direct =>
    -- Framing has looked at the plaintext and found the document that comes first of all.
    have canonical : SignDocumentCodecs.standard.isCanonicalDirect plaintext = true := by
      by_contra differs
      simp [SignDocumentCodecs.frame, differs] at fits
    simp [SignDocumentCodecs.classify, canonical]
  | legacyJson =>
    rw [SignDocumentCodecs.frame] at fits
    split at fits
    · next document decoded => exact classify_of_decodeLegacy decoded moderate
    · cases fits

namespace LinkStore

/-- Links that were saved, in whatever stores, have the value types of their plaintexts, and links
with one plaintext have one owner, whatever they claim its value type to be. -/
theorem plaintext_names_owner {store next other after : Store} {first second : ChainLink}
    {plaintext twin : Bytes} (saved : save .standard store first = .ok next)
    (also : save .standard other second = .ok after)
    (decodes : Hex.decode first.proof.plaintextHex = .ok plaintext)
    (moderate : plaintext.length < 0x09090909)
    (decodesToo : Hex.decode second.proof.plaintextHex = .ok twin)
    (moderateToo : twin.length < 0x09090909) :
    first.proof.signature.valueType = .ok (SignDocumentCodecs.standard.classify plaintext)
      ∧ second.proof.signature.valueType = .ok (SignDocumentCodecs.standard.classify twin)
      ∧ (plaintext = twin → first.owner = second.owner) := by
  obtain ⟨record, one⟩ := saved_of_save saved
  obtain ⟨content, two⟩ := saved_of_save also
  obtain ⟨typed, signed⟩ := one.accepted.signed_as_classified decodes moderate
  obtain ⟨typedToo, signedToo⟩ := two.accepted.signed_as_classified decodesToo moderateToo
  refine ⟨typed, typedToo, ?_⟩
  rintro rfl
  exact Except.ok.inj (signed.symm.trans signedToo)

/-- Two links on different chains, whose one plaintext is the account as text. -/
def twinLinks : ChainLink × ChainLink :=
  let link := neutralLink (.base58 "2U8CyXAfjkDq5brpzNBUHEoneb8")
  (link, { link with chainName := "likecoin" })

theorem plaintext_names_owner_twinLinks :
    (save .standard .empty twinLinks.1).isOk = true
      ∧ (save .standard .empty twinLinks.2).isOk = true
      ∧ twinLinks.1.proof.signature.valueType
        = .ok (SignDocumentCodecs.standard.classify (Utf8.encode "a12uel5l"))
      ∧ twinLinks.2.proof.signature.valueType
        = .ok (SignDocumentCodecs.standard.classify (Utf8.encode "a12uel5l"))
      ∧ twinLinks.1.owner = twinLinks.2.owner := by
  have saves : (save .standard .empty twinLinks.1).isOk = true
      ∧ (save .standard .empty twinLinks.2).isOk = true := by decide +kernel
  obtain ⟨next, saved⟩ := exists_eq_ok_of_isOk saves.1
  obtain ⟨after, also⟩ := exists_eq_ok_of_isOk saves.2
  have decodes : Hex.decode twinLinks.1.proof.plaintextHex = .ok (Utf8.encode "a12uel5l") ∧
      Hex.decode twinLinks.2.proof.plaintextHex = .ok (Utf8.encode "a12uel5l") := by decide
  have moderate : (Utf8.encode "a12uel5l").length < 0x09090909 := by decide
  obtain ⟨typed, typedToo, owner⟩ :=
    plaintext_names_owner saved also decodes.1 moderate decodes.2 moderate
  exact ⟨saves.1, saves.2, typed, typedToo, owner rfl⟩

end LinkStore

end LinkRegistry
