import LinkRegistry.Proofs.Address.Belonging
import LinkRegistry.Proofs.Encoding.Written

/-!
# Addresses that were encoded

The text of an address that was made from the bytes of a key is a well-formed address, and stands for
those bytes. So it belongs to the key, and to another key only if that key has the same bytes. The
label of a bech32 address is read in lower case, whichever case it was written in. Main statement,
`encoded_address_belongs`.
-/

namespace LinkRegistry

/-! ## Length of a digest -/

namespace Keccak256

theorem length_rounds {constants : List UInt64} {state : State} (whole : state.length = 25) :
    (constants.foldl (fun state constant => iota constant (chi (rhoPi (theta state)))) state).length
      = 25 := by
  induction constants generalizing state with
  | nil => exact whole
  | cons constant rest ih =>
    rw [List.foldl_cons]
    apply ih
    -- The first lane is replaced, and the others come of a list of 25.
    rw [chi, List.range_succ_eq_map, List.map_cons, iota]
    simp

theorem length_permute {state : State} (whole : state.length = 25) :
    (permute state).length = 25 :=
  length_rounds whole

theorem length_lanesOf (count : Nat) (bytes : Bytes) : (lanesOf count bytes).length = count := by
  induction count generalizing bytes with
  | zero => rfl
  | succ count ih => rw [lanesOf, List.length_cons, ih]

theorem length_absorb {count : Nat} {state : State} {bytes : Bytes} (whole : state.length = 25) :
    (absorb count state bytes).length = 25 := by
  induction count generalizing state bytes with
  | zero => exact whole
  | succ count ih =>
    apply ih
    apply length_permute
    simp [whole, length_lanesOf]

end Keccak256

theorem length_keccak256 (message : Bytes) : (keccak256 message).length = 32 := by
  have lanes : (Keccak256.absorb ((Keccak256.pad message).length / Keccak256.rate)
      (List.replicate 25 0) (Keccak256.pad message)).length = 25 :=
    Keccak256.length_absorb List.length_replicate
  simp [keccak256, List.length_flatMap, lanes, -List.reduceReplicate]

/-! ## Texts that are not blank -/

theorem Blank.not_isWhiteSpace {character : Char} (low : 33 ≤ character.toNat)
    (high : character.toNat < 0x80) : isWhiteSpace character = false := by
  revert low
  apply forall_ascii character high
  decide

/-- The label that a text was checked with has a first character, which is visible. -/
theorem Bech32.not_isBlank_of_checkLabel {label : String} {seen : Case}
    (checked : checkLabel label = .ok seen) : Blank.isBlank label = false := by
  have visible := ascii_of_checkLabel checked
  have ascii := fun character member => (visible character member).2
  obtain ⟨character, member⟩ :=
    List.exists_mem_of_ne_nil _ ((checkLabel_eq_ok_iff ascii).1 checked).1.1
  obtain ⟨low, high⟩ := visible character member
  exact Blank.not_isBlank_of_mem member (Blank.not_isWhiteSpace low high)

/-! ## Bech32 addresses -/

section

variable {label text : String} {bytes : Bytes}

theorem encodeBech32_eq_ok_iff :
    encodeBech32 label bytes = .ok text ↔ Bech32.write label bytes = .ok text := by
  rw [encodeBech32]
  cases Bech32.write label bytes <;> simp

/-- Whether a label is accepted does not depend on the bytes. -/
theorem exists_encodeBech32_iff :
    (∃ text, encodeBech32 label bytes = .ok text) ↔ ∃ seen, Bech32.checkLabel label = .ok seen := by
  simp only [encodeBech32_eq_ok_iff, Bech32.write]
  cases Bech32.checkLabel label <;> simp

variable (written : encodeBech32 label bytes = .ok text)
include written

theorem read_encodeBech32 :
    Bech32.read text
      = .ok ⟨Bech32.lowerText label, Bech32.digitsOfBytes bytes, .classic⟩ :=
  Bech32.read_write (encodeBech32_eq_ok_iff.1 written)

theorem decodeBech32_encodeBech32 : decodeBech32 text (Bech32.lowerText label) = .ok bytes :=
  Address.decodeBech32_eq_ok_iff.2 ⟨_, read_encodeBech32 written, rfl, rfl,
    Bech32.bytesOfDigits_digitsOfBytes bytes⟩

theorem validateAccount_encodeBech32 : validateAccount text = .ok (Bech32.lowerText label) := by
  have read := read_encodeBech32 written
  rw [validateAccount, Bech32.not_isBlank_of_read read]
  simp [read]

theorem validate_encodeBech32 :
    (Address.bech32 text (Bech32.lowerText label)).validate = .ok () := by
  have value := Bech32.not_isBlank_of_read (read_encodeBech32 written)
  obtain ⟨seen, checked⟩ := exists_encodeBech32_iff.1 ⟨text, written⟩
  -- The label is checked as it was written, and is not blank in lower case either.
  have named := Bech32.not_isBlank_of_checkLabel (Bech32.checkLabel_lowerText checked)
  simp [Address.validate, Address.value, value, named, decodeBech32_encodeBech32 written]

theorem belongsTo_encodeBech32_iff {key : PublicKey} :
    (Address.bech32 text (Bech32.lowerText label)).belongsTo key = .ok true
      ↔ key.accountAddress = .ok bytes := by
  rw [Address.belongsTo, Address.payload, decodeBech32_encodeBech32 written, Address.derived]
  cases key.accountAddress <;> simp [eq_comm]

end

/-! ## Hexadecimal addresses -/

section

variable {bytes : Bytes} (some : bytes ≠ []) (lead : String)
include some

theorem Hex.exists_mem_encode :
    ∃ character ∈ (Hex.encode bytes).toList, Blank.isWhiteSpace character = false := by
  -- The first digit of the first byte will do.
  obtain ⟨byte, rest, rfl⟩ := List.exists_cons_of_ne_nil some
  have visible : ∀ value < 16, Blank.isWhiteSpace (Hex.digit value) = false := by decide
  have below := byte.toNat_lt
  refine ⟨Hex.digit (byte.toNat / 16), ?_, visible _ (by omega)⟩
  rw [Hex.encode, String.toList_ofList, List.flatMap_cons]
  exact .head _

/-- The text behind a lead makes an address longer than the lead. -/
theorem validate_encodeHex : (Address.hex (lead ++ Hex.encode bytes) lead).validate = .ok () := by
  obtain ⟨character, member, visible⟩ := Hex.exists_mem_encode some
  have whole : character ∈ (lead ++ Hex.encode bytes).toList := by
    rw [String.toList_append]
    exact List.mem_append_right _ member
  have value := Blank.not_isBlank_of_mem whole visible
  have longer : Hex.encode bytes ≠ "" := by
    intro none
    rw [none] at member
    cases member
  have behind := Address.afterLead?_eq_some_iff.2 (Eq.refl (lead ++ Hex.encode bytes))
  simp [Address.validate, Address.value, value, longer, behind, Hex.decode_encode]

end

theorem length_hexAddress {bytes own : Bytes}
    (derived : (PublicKey.secp256k1 bytes).hexAddress = .ok own) : own.length = addressLength := by
  obtain ⟨point, -, rfl⟩ := map_eq_ok_iff.1 derived
  rw [List.length_drop, length_keccak256]
  rfl

theorem belongsTo_encodeHex {key : PublicKey} {own : Bytes} (derived : key.hexAddress = .ok own)
    (lead : String) : (Address.hex (lead ++ Hex.encode own) lead).belongsTo key = .ok true := by
  rw [Address.belongsTo_eq_ok_iff]
  exact ⟨own, own, .hex lead _ (Hex.decode_encode own), Address.derived_eq_ok_iff.1 derived,
    iff_of_true rfl rfl⟩

/-! ## Addresses of keys -/

/-- Under a label that is accepted for some bytes, all bytes have a text. It reads as those bytes and
as an account with the label in lower case. As an address it keeps the rules, and belongs to exactly
the keys that have these bytes. The hexadecimal text of a secp256k1 key with a point, behind any
lead, is an address that keeps the rules and belongs to the key. -/
theorem encoded_address_belongs :
    (∀ label, (∃ bytes text, encodeBech32 label bytes = .ok text) →
        ∀ bytes, ∃ text, encodeBech32 label bytes = .ok text
          ∧ decodeBech32 text (Bech32.lowerText label) = .ok bytes
          ∧ validateAccount text = .ok (Bech32.lowerText label)
          ∧ (Address.bech32 text (Bech32.lowerText label)).validate = .ok ()
          ∧ ∀ key : PublicKey,
            (Address.bech32 text (Bech32.lowerText label)).belongsTo key = .ok true
              ↔ key.accountAddress = .ok bytes)
      ∧ ∀ bytes point, parseSecp256k1Key bytes = .ok point →
        ∃ own, (PublicKey.secp256k1 bytes).hexAddress = .ok own
          ∧ ∀ lead, (Address.hex (lead ++ Hex.encode own) lead).validate = .ok ()
            ∧ (Address.hex (lead ++ Hex.encode own) lead).belongsTo (.secp256k1 bytes)
              = .ok true := by
  constructor
  · rintro label ⟨some, accepted⟩ bytes
    obtain ⟨text, written⟩ : ∃ text, encodeBech32 label bytes = .ok text :=
      exists_encodeBech32_iff.2 (exists_encodeBech32_iff.1 accepted)
    exact ⟨text, written, decodeBech32_encodeBech32 written, validateAccount_encodeBech32 written,
      validate_encodeBech32 written, fun key => belongsTo_encodeBech32_iff written⟩
  · intro bytes point parsed
    obtain ⟨own, derived⟩ : ∃ own, (PublicKey.secp256k1 bytes).hexAddress = .ok own :=
      ⟨_, map_eq_ok_iff.2 ⟨point, parsed, rfl⟩⟩
    refine ⟨own, derived, fun lead => ⟨validate_encodeHex ?_ lead, belongsTo_encodeHex derived lead⟩⟩
    have length := length_hexAddress derived
    intro none
    rw [none] at length
    cases length

/-- A label in upper case that holds the separator. -/
theorem encoded_address_belongs_baseKey :
    (∃ own text, Address.baseKey.accountAddress = .ok own ∧ encodeBech32 "X1Y" own = .ok text
        ∧ validateAccount text = .ok "x1y"
        ∧ (Address.bech32 text "x1y").belongsTo Address.baseKey = .ok true)
      ∧ ∃ own, Address.baseKey.hexAddress = .ok own
        ∧ (Address.hex ("0x" ++ Hex.encode own) "0x").belongsTo Address.baseKey = .ok true := by
  obtain ⟨texts, digits⟩ := encoded_address_belongs
  constructor
  · have accepted : ∃ bytes text, encodeBech32 "X1Y" bytes = .ok text :=
      ⟨[], exists_encodeBech32_iff.2 ⟨.upper, rfl⟩⟩
    obtain ⟨text, written, -, account, -, belongs⟩ :=
      texts "X1Y" accepted (hash160 Secp256k1.base.compressed)
    have lower : Bech32.lowerText "X1Y" = "x1y" := rfl
    rw [lower] at account belongs
    exact ⟨_, text, rfl, written, account, (belongs Address.baseKey).2 rfl⟩
  · have parsed : parseSecp256k1Key Secp256k1.base.compressed = .ok Secp256k1.base :=
      parseSecp256k1Key_eq_ok_iff.2 ⟨.inl (by decide), by decide +kernel⟩
    obtain ⟨own, derived, each⟩ := digits _ _ parsed
    exact ⟨own, derived, (each "0x").2⟩

end LinkRegistry
