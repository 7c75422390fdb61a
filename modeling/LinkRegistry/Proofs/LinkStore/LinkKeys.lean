import LinkRegistry.Proofs.LinkStore.History
import LinkRegistry.Proofs.Proof.Enclosed

/-!
# Keys of links that keep the rules

The rules for links keep zero bytes out of owners, bech32 and base58 addresses and the digits of
hexadecimal ones, so the keys of a link tell it from others unless the name of its chain or the lead
of its hexadecimal address holds one. The owner comes first in the key of a link and can be told in
any case. Main statement, `ChainLink.keys_tell_apart`. Nothing keeps zero bytes out of chain names
and leads, and `ChainLink.zero_bytes_blur_keys` has two links with them that share their keys.
-/

namespace LinkRegistry

/-! ## Fields without zero bytes -/

theorem IsAccount.plain {value : String} (account : IsAccount value) : Key.Plain value := by
  obtain ⟨reading, found, -⟩ := account
  refine Key.plain_iff.2 fun zero => ?_
  exact absurd (Bech32.visible_of_read found _ zero) (by decide)

theorem toList_of_afterLead? {lead value body : String} (found : afterLead? lead value = some body) :
    value.toList = lead.toList ++ body.toList := by
  unfold afterLead? at found
  split at found
  · next begins =>
    obtain ⟨rest, whole⟩ := List.isPrefixOf_iff_prefix.1 begins
    rw [← Option.some.inj found, String.toList_ofList, ← whole, List.drop_left]
  · cases found

theorem plain_of_decodeBech32 {value label : String} {bytes : Bytes}
    (decoded : decodeBech32 value label = .ok bytes) : Key.Plain value := by
  unfold decodeBech32 at decoded
  split at decoded
  · cases decoded
  · next reading found =>
    refine Key.plain_iff.2 fun zero => ?_
    exact absurd (Bech32.visible_of_read found _ zero) (by decide)

theorem plain_of_decodeBase58 {value : String} {bytes : Bytes}
    (decoded : Base58.decode value = .ok bytes) : Key.Plain value := fun zero =>
  absurd (Base58.digits_of_decode decoded _ zero) (by decide)

theorem plain_of_decodeHex {value : String} {bytes : Bytes}
    (decoded : Hex.decode value = .ok bytes) : Key.Plain value := fun zero =>
  absurd (Hex.digits_of_decode decoded _ zero) (by decide)

/-- A well-formed address holds no zero byte, unless its lead does. -/
theorem Address.plain_of_validate {address : Address} (valid : address.validate = .ok ())
    (leadPlain : ∀ value lead, address = .hex value lead → Key.Plain lead) :
    Key.Plain address.value := by
  unfold validate at valid
  split at valid
  · cases valid
  -- Whatever the encoding, the rules have the value read, and what can be read has no zero byte.
  cases address with
  | bech32 value label =>
    simp only at valid
    split at valid
    · cases valid
    split at valid
    · cases valid
    · next bytes decoded => exact plain_of_decodeBech32 decoded
  | base58 value =>
    simp only at valid
    split at valid
    · cases valid
    · next bytes decoded => exact plain_of_decodeBase58 decoded
  | hex value lead =>
    simp only at valid
    split at valid
    · cases valid
    split at valid
    · cases valid
    next body after =>
    split at valid
    · cases valid
    · next bytes decoded =>
      have front := Key.plain_iff.1 (leadPlain value lead rfl)
      have back := Key.plain_iff.1 (plain_of_decodeHex decoded)
      rw [Key.plain_iff, Address.value, toList_of_afterLead? after, List.mem_append]
      exact not_or.2 ⟨front, back⟩

namespace ChainLink

variable {link other : ChainLink}

theorem plain_owner_of_validate (valid : link.validate = .ok ()) : Key.Plain link.owner :=
  (validate_eq_ok_iff.1 valid).1.plain

theorem plain_of_validate (valid : link.validate = .ok ()) (chainPlain : Key.Plain link.chainName)
    (leadPlain : ∀ value lead, link.address = .hex value lead → Key.Plain lead) : link.Plain where
  owner := plain_owner_of_validate valid
  chainName := chainPlain
  address := Address.plain_of_validate (validate_eq_ok_iff.1 valid).2.1 leadPlain

/-! ## Keys -/

/-- The keys of a link that keeps the rules tell its owner. If no zero byte stands in the name of
its chain and the lead of its address, they tell its chain and its address as well. -/
theorem keys_tell_apart (valid : link.validate = .ok ()) (validOther : other.validate = .ok ()) :
    (Key.userChainLinks other.owner <+: link.key ↔ link.owner = other.owner)
      ∧ (Key.Plain link.chainName →
        (∀ value lead, link.address = .hex value lead → Key.Plain lead) →
        (link.key = other.key
            ↔ link.owner = other.owner ∧ link.chainName = other.chainName
              ∧ link.address.value = other.address.value)
          ∧ (link.ownerIndexKey = other.ownerIndexKey
            ↔ link.chainName = other.chainName ∧ link.address.value = other.address.value
              ∧ link.owner = other.owner)
          ∧ (Key.userChainLinksByChain other.owner other.chainName <+: link.key
            ↔ link.owner = other.owner ∧ link.chainName = other.chainName)
          ∧ (Key.ownerIndexOf other.chainName other.address.value <+: link.ownerIndexKey
            ↔ link.chainName = other.chainName ∧ link.address.value = other.address.value)) := by
  -- The owners are accounts in any case; the other fields of one link are enough, since a key with
  -- fields that hold zero bytes has more of them than a key of as many fields without.
  have ownerPlain := plain_owner_of_validate valid
  have otherPlain := plain_owner_of_validate validOther
  refine ⟨?_, fun chainPlain leadPlain => ?_⟩
  · rw [key, Key.userChainLinks_prefix_iff otherPlain ownerPlain, eq_comm]
  · have plain := plain_of_validate valid chainPlain leadPlain
    refine ⟨?_, ?_, ?_, ?_⟩
    · rw [eq_comm, key, plain.key_eq_iff]
      simp only [eq_comm]
    · rw [eq_comm, ownerIndexKey, plain.ownerIndexKey_eq_iff]
      simp only [eq_comm]
    · rw [plain.userChainLinksByChain_prefix_iff]
      simp only [eq_comm]
    · rw [plain.ownerIndexOf_prefix_iff]
      simp only [eq_comm]

/-- A link that keeps the rules, with a hexadecimal address of one byte behind a lead. -/
def hexLink (chainName lead : String) : ChainLink :=
  { LinkStore.neutralLink (.hex (lead ++ "00") lead) with chainName := chainName }

theorem keys_tell_apart_hexLink :
    (hexLink "evm" "0x").validate = .ok () ∧ (hexLink "cosmos" "").validate = .ok ()
      ∧ Key.userChainLinks (hexLink "cosmos" "").owner <+: (hexLink "evm" "0x").key
      ∧ (hexLink "evm" "0x").key ≠ (hexLink "cosmos" "").key
      ∧ (hexLink "evm" "0x").ownerIndexKey ≠ (hexLink "cosmos" "").ownerIndexKey := by
  have keeps : (hexLink "evm" "0x").validate.isOk = true
      ∧ (hexLink "cosmos" "").validate.isOk = true := by decide +kernel
  have valid := eq_ok_of_isOk keeps.1
  have validToo := eq_ok_of_isOk keeps.2
  obtain ⟨ofOwner, tell⟩ := keys_tell_apart valid validToo
  obtain ⟨ofKey, ofIndex, -⟩ := tell (by decide) (by rintro _ _ ⟨⟩; decide)
  refine ⟨valid, validToo, ofOwner.2 rfl, fun same => ?_, fun same => ?_⟩
  · exact absurd (ofKey.1 same).2.1 (by decide)
  · exact absurd (ofIndex.1 same).1 (by decide)

/-- Two links that keep the rules, on different chains and with different addresses, but with one
key and one index key: what is a field of one is a separator in the other. -/
theorem zero_bytes_blur_keys :
    (hexLink "x\x00y" "").validate = .ok () ∧ (hexLink "x" "y\x00").validate = .ok ()
      ∧ (hexLink "x\x00y" "").key = (hexLink "x" "y\x00").key
      ∧ (hexLink "x\x00y" "").ownerIndexKey = (hexLink "x" "y\x00").ownerIndexKey
      ∧ Key.userChainLinksByChain (hexLink "x" "y\x00").owner "x" <+: (hexLink "x\x00y" "").key
      ∧ Key.ownerIndexOf "x" (hexLink "x" "y\x00").address.value
        <+: (hexLink "x\x00y" "").ownerIndexKey
      ∧ (hexLink "x\x00y" "").chainName ≠ (hexLink "x" "y\x00").chainName
      ∧ (hexLink "x\x00y" "").address.value ≠ (hexLink "x" "y\x00").address.value := by
  have keeps : (hexLink "x\x00y" "").validate.isOk = true
      ∧ (hexLink "x" "y\x00").validate.isOk = true := by decide +kernel
  exact ⟨eq_ok_of_isOk keeps.1, eq_ok_of_isOk keeps.2, by decide, by decide, by decide, by decide,
    by decide, by decide⟩

end ChainLink

end LinkRegistry
