import LinkRegistry.Proofs.Proof.Fatal

/-!
# Which answer an address gives about a key

An address is read before the key is used, so one that stands for nothing is an error for every key,
usable or not. Behind that the encodings differ: a hexadecimal address is made of the point of a
secp256k1 key and has to find it, while the others are digests of the bytes of any key and do not
look into them. Main statement, `belongsTo_compares_digests`.
-/

namespace LinkRegistry

/-! ## Usable keys -/

/-- Signatures can be checked under a key. -/
inductive PublicKey.Usable : PublicKey → Prop
  | secp256k1 {bytes : Bytes} {point : Secp256k1.Point}
      (length : bytes.length = 33 ∨ bytes.length = 65)
      (found : Secp256k1.parseKey? bytes = some point) : Usable (.secp256k1 bytes)
  | ed25519 {bytes : Bytes} {point : Ed25519.Point} (length : bytes.length = 32)
      (found : Ed25519.Point.decode? bytes = some point) : Usable (.ed25519 bytes)
  | multisig (threshold : UInt32) {members : List PublicKey}
      (each : ∀ member ∈ members, Usable member) : Usable (.multisig threshold members)

theorem parseSecp256k1Key_eq_ok_iff {bytes : Bytes} {point : Secp256k1.Point} :
    parseSecp256k1Key bytes = .ok point
      ↔ (bytes.length = 33 ∨ bytes.length = 65) ∧ Secp256k1.parseKey? bytes = some point := by
  rw [parseSecp256k1Key]
  split
  · next length =>
    have neither : ¬ (bytes.length = 33 ∨ bytes.length = 65) := by simpa using length
    simp [neither]
  · next length =>
    have either : bytes.length = 33 ∨ bytes.length = 65 := by
      simp only [Bool.and_eq_true, decide_eq_true_eq] at length
      omega
    cases Secp256k1.parseKey? bytes <;> simp [either]

theorem PublicKey.usable_secp256k1_iff {bytes : Bytes} :
    (secp256k1 bytes).Usable ↔ ∃ point, parseSecp256k1Key bytes = .ok point := by
  constructor
  · rintro (⟨length, found⟩ | _ | _)
    exact ⟨_, parseSecp256k1Key_eq_ok_iff.2 ⟨length, found⟩⟩
  · rintro ⟨point, parsed⟩
    obtain ⟨length, found⟩ := parseSecp256k1Key_eq_ok_iff.1 parsed
    exact .secp256k1 length found

namespace Address

/-! ## What an address stands for -/

/-- The bytes that an address stands for in its encoding. -/
inductive StandsFor : Address → Bytes → Prop
  | bech32 {value : String} {reading : Bech32.Reading} {bytes : Bytes}
      (read : Bech32.read value = .ok reading) (classic : reading.form = .classic)
      (regrouped : Bech32.bytesOfDigits reading.digits = .ok bytes) :
      StandsFor (.bech32 value reading.label) bytes
  | base58 {value : String} {bytes : Bytes} (read : Base58.decode value = .ok bytes) :
      StandsFor (.base58 value) bytes
  | hex (lead body : String) {bytes : Bytes} (read : Hex.decode body = .ok bytes) :
      StandsFor (.hex (lead ++ body) lead) bytes

theorem decodeBech32_eq_ok_iff {value label : String} {bytes : Bytes} :
    decodeBech32 value label = .ok bytes
      ↔ ∃ reading, Bech32.read value = .ok reading ∧ reading.form = .classic
          ∧ reading.label = label ∧ Bech32.bytesOfDigits reading.digits = .ok bytes := by
  rw [decodeBech32]
  cases Bech32.read value with
  | error error => simp
  | ok reading =>
    by_cases classic : reading.form = .classic
    · by_cases same : reading.label = label
      · cases regrouped : Bech32.bytesOfDigits reading.digits <;>
          simp [classic, same, regrouped]
      · simp [classic, same]
    · simp [classic]

theorem afterLead?_eq_some_iff {lead value body : String} :
    afterLead? lead value = some body ↔ value = lead ++ body := by
  simp only [afterLead?, List.isPrefixOf_iff_prefix]
  constructor
  · intro found
    split at found
    · next begins =>
      obtain ⟨rest, whole⟩ := begins
      obtain rfl := Option.some.inj found
      rw [← String.toList_inj, String.toList_append, String.toList_ofList, ← whole,
        List.drop_left]
    · cases found
  · rintro rfl
    simp

theorem payload_eq_ok_iff {address : Address} {bytes : Bytes} :
    address.payload = .ok bytes ↔ address.StandsFor bytes := by
  -- Which layout there is to read is the address's own choice, so the cases are the encodings.
  cases address with
  | bech32 value label =>
    rw [payload, decodeBech32_eq_ok_iff]
    constructor
    · rintro ⟨reading, read, classic, rfl, regrouped⟩
      exact .bech32 read classic regrouped
    · rintro (⟨read, classic, regrouped⟩ | _ | _)
      exact ⟨_, read, classic, rfl, regrouped⟩
  | base58 value =>
    rw [payload]
    constructor
    · intro read
      split at read
      · cases read
      · next found => exact .base58 (Except.ok.inj read ▸ found)
    · rintro (_ | read | _)
      simp [read]
  | hex value lead =>
    rw [payload]
    constructor
    · intro read
      split at read
      · cases read
      next body behind =>
      obtain rfl := afterLead?_eq_some_iff.1 behind
      split at read
      · cases read
      · next found => exact .hex lead body (Except.ok.inj read ▸ found)
    · rintro (_ | _ | ⟨_, body, read⟩)
      simp [afterLead?_eq_some_iff.2, read]

/-! ## The address of a key -/

/-- The bytes that a key has in the encoding of an address. -/
inductive Derives : Address → PublicKey → Bytes → Prop
  | account (value label : String) (bytes : Bytes) :
      Derives (.bech32 value label) (.secp256k1 bytes) (hash160 bytes)
  | bech32 (value label : String) {key : PublicKey} {bytes : Bytes}
      (other : ∀ point, key ≠ .secp256k1 point) (hashed : key.bytes? = some bytes) :
      Derives (.bech32 value label) key (sha256Truncated bytes)
  | base58 (value : String) {key : PublicKey} {bytes : Bytes} (hashed : key.bytes? = some bytes) :
      Derives (.base58 value) key (sha256Truncated bytes)
  | hex (value lead : String) {bytes : Bytes} {point : Secp256k1.Point}
      (parsed : parseSecp256k1Key bytes = .ok point) :
      Derives (.hex value lead) (.secp256k1 bytes)
        ((keccak256 point.coordinates).drop (32 - addressLength))

theorem hashedBytes_eq_ok_iff {key : PublicKey} {bytes : Bytes} :
    key.hashedBytes = .ok bytes ↔ key.bytes? = some bytes := by
  rw [PublicKey.hashedBytes]
  cases key.bytes? <;> simp

theorem accountAddress_of_ne {key : PublicKey} (other : ∀ bytes, key ≠ .secp256k1 bytes) :
    key.accountAddress = key.hashedBytes.map sha256Truncated := by
  cases key with
  | secp256k1 bytes => exact absurd rfl (other bytes)
  | ed25519 | multisig => rfl

theorem derived_eq_ok_iff {address : Address} {key : PublicKey} {own : Bytes} :
    address.derived key = .ok own ↔ address.Derives key own := by
  constructor
  · intro found
    cases address with
    | bech32 value label =>
      -- The account address of a secp256k1 key is another digest than that of any other key.
      cases key with
      | secp256k1 bytes => exact Except.ok.inj found ▸ .account value label bytes
      | ed25519 | multisig =>
        rw [derived, accountAddress_of_ne (by simp)] at found
        obtain ⟨bytes, hashed, rfl⟩ := map_eq_ok_iff.1 found
        exact .bech32 value label (by simp) (hashedBytes_eq_ok_iff.1 hashed)
    | base58 value =>
      obtain ⟨bytes, hashed, rfl⟩ := map_eq_ok_iff.1 found
      exact .base58 value (hashedBytes_eq_ok_iff.1 hashed)
    | hex value lead =>
      cases key with
      | secp256k1 bytes =>
        obtain ⟨point, parsed, rfl⟩ := map_eq_ok_iff.1 found
        exact .hex value lead parsed
      | ed25519 | multisig => cases found
  · intro derives
    cases derives with
    | account value label bytes => rfl
    | bech32 value label other hashed =>
      rw [derived, accountAddress_of_ne other]
      exact map_eq_ok_iff.2 ⟨_, hashedBytes_eq_ok_iff.2 hashed, rfl⟩
    | base58 value hashed => exact map_eq_ok_iff.2 ⟨_, hashedBytes_eq_ok_iff.2 hashed, rfl⟩
    | hex value lead parsed => exact map_eq_ok_iff.2 ⟨_, parsed, rfl⟩

/-- The keys that have an address in an encoding. Only a hexadecimal address looks into the key. -/
def Takes : Address → PublicKey → Prop
  | .hex _ _, key => (∃ bytes, key = .secp256k1 bytes) ∧ key.Usable
  | .bech32 _ _, key | .base58 _, key => key.bytes?.isSome

theorem exists_derives_iff {address : Address} {key : PublicKey} :
    (∃ own, address.Derives key own) ↔ address.Takes key := by
  constructor
  · rintro ⟨own, derives⟩
    cases derives with
    | account value label bytes => rfl
    | bech32 value label other hashed => exact Option.isSome_iff_exists.2 ⟨_, hashed⟩
    | base58 value hashed => exact Option.isSome_iff_exists.2 ⟨_, hashed⟩
    | hex value lead parsed => exact ⟨⟨_, rfl⟩, PublicKey.usable_secp256k1_iff.2 ⟨_, parsed⟩⟩
  · intro takes
    cases address with
    | bech32 value label =>
      obtain ⟨bytes, hashed⟩ := Option.isSome_iff_exists.1 takes
      cases key with
      | secp256k1 bytes => exact ⟨_, .account value label bytes⟩
      | ed25519 | multisig => exact ⟨_, .bech32 value label (by simp) hashed⟩
    | base58 value =>
      obtain ⟨bytes, hashed⟩ := Option.isSome_iff_exists.1 takes
      exact ⟨_, .base58 value hashed⟩
    | hex value lead =>
      obtain ⟨⟨bytes, rfl⟩, usable⟩ := takes
      obtain ⟨point, parsed⟩ := PublicKey.usable_secp256k1_iff.1 usable
      exact ⟨_, .hex value lead parsed⟩

/-! ## Answers -/

section

variable {address : Address} {key : PublicKey}

theorem belongsTo_eq_ok_iff {answer : Bool} :
    address.belongsTo key = .ok answer
      ↔ ∃ payload own, address.StandsFor payload ∧ address.Derives key own
          ∧ (answer = true ↔ payload = own) := by
  simp only [← payload_eq_ok_iff, ← derived_eq_ok_iff, belongsTo]
  cases address.payload with
  | error error => simp
  | ok payload =>
    cases address.derived key with
    | error error => simp
    | ok own => by_cases same : payload = own <;> cases answer <;> simp [same]

theorem exists_belongsTo_iff :
    (∃ answer, address.belongsTo key = .ok answer)
      ↔ (∃ payload, address.StandsFor payload) ∧ address.Takes key := by
  simp only [belongsTo_eq_ok_iff, ← exists_derives_iff]
  constructor
  · rintro ⟨answer, payload, own, stands, derives, -⟩
    exact ⟨⟨payload, stands⟩, own, derives⟩
  · rintro ⟨⟨payload, stands⟩, own, derives⟩
    exact ⟨decide (payload = own), payload, own, stands, derives, decide_eq_true_iff⟩

/-- What is wrong with the text of an address is told before the key is looked at. -/
theorem belongsTo_of_not_standsFor (unread : ∀ payload, ¬ address.StandsFor payload) :
    ∃ fault, address.payload = .error (.decode fault)
      ∧ ∀ key, address.belongsTo key = .error (.decode fault) := by
  cases read : address.payload with
  | ok payload => exact absurd (payload_eq_ok_iff.1 read) (unread payload)
  | error error =>
    -- Whatever step of reading fails, the error is one of reading.
    have decoding : ∃ fault, error = .decode fault := by
      cases address with
      | bech32 value label =>
        rw [payload, decodeBech32] at read
        split at read
        · exact ⟨_, (Except.error.inj read).symm⟩
        split at read
        · exact ⟨_, (Except.error.inj read).symm⟩
        split at read
        · exact ⟨_, (Except.error.inj read).symm⟩
        split at read
        · exact ⟨_, (Except.error.inj read).symm⟩
        · cases read
      | base58 value =>
        rw [payload] at read
        split at read
        · exact ⟨_, (Except.error.inj read).symm⟩
        · cases read
      | hex value lead =>
        rw [payload] at read
        split at read
        · exact ⟨_, (Except.error.inj read).symm⟩
        split at read
        · exact ⟨_, (Except.error.inj read).symm⟩
        · cases read
    obtain ⟨fault, rfl⟩ := decoding
    exact ⟨fault, rfl, fun key => by rw [belongsTo, read]⟩

theorem exists_error_of_not_takes {payload : Bytes} (stands : address.StandsFor payload)
    (refused : ¬ address.Takes key) :
    ∃ error, address.belongsTo key = .error error
      ∧ (error.isFatal = true ↔ address.Overlong key) := by
  -- The address was read, so the error is the one of deriving.
  cases found : address.derived key with
  | ok own => exact absurd (exists_derives_iff.1 ⟨own, derived_eq_ok_iff.1 found⟩) refused
  | error error =>
    refine ⟨error, by rw [belongsTo, payload_eq_ok_iff.2 stands, found], ?_⟩
    rw [← fatal_derived_iff, found, fatal_error_iff]

end

/-- An address answers for a key exactly if it stands for something in its encoding and takes the
key, and the answer is whether it stands for the bytes that are derived from the key. Otherwise there
is an error. If the address stands for nothing, the error is one of reading, whatever the key is. If
the key is not taken, the error is fatal only for a threshold key that is too long for a record.
Hexadecimal addresses take usable secp256k1 keys, the others all keys that are not too long. -/
theorem belongsTo_compares_digests (address : Address) (key : PublicKey) :
    (∀ answer, address.belongsTo key = .ok answer
        ↔ ∃ payload own, address.StandsFor payload ∧ address.Derives key own
            ∧ (answer = true ↔ payload = own))
      ∧ ((∃ answer, address.belongsTo key = .ok answer)
        ↔ (∃ payload, address.StandsFor payload) ∧ address.Takes key)
      ∧ ((∀ payload, ¬ address.StandsFor payload) →
        ∃ fault, address.belongsTo key = .error (.decode fault))
      ∧ ((∃ payload, address.StandsFor payload) → ¬ address.Takes key →
        ∃ error, address.belongsTo key = .error error
          ∧ (error.isFatal = true ↔ address.Overlong key)) := by
  refine ⟨fun answer => belongsTo_eq_ok_iff, exists_belongsTo_iff, fun unread => ?_, ?_⟩
  · obtain ⟨fault, -, each⟩ := belongsTo_of_not_standsFor unread
    exact ⟨fault, each key⟩
  · rintro ⟨payload, stands⟩ refused
    exact exists_error_of_not_takes stands refused

/-- The key whose secret is one. -/
def baseKey : PublicKey := .secp256k1 Secp256k1.base.compressed

theorem belongsTo_compares_digests_baseKey :
    (Address.hex "0x7e5f4552091a69125d5dfcb7b8c2659029395bdf" "0x").belongsTo baseKey = .ok true
      ∧ ∃ error, (Address.hex "0x00" "0x").belongsTo (.ed25519 [7]) = .error error
        ∧ error.isFatal = false := by
  have parsed : parseSecp256k1Key Secp256k1.base.compressed = .ok Secp256k1.base :=
    parseSecp256k1Key_eq_ok_iff.2 ⟨.inl (by decide), by decide +kernel⟩
  refine ⟨?_, ?_⟩
  · refine ((belongsTo_compares_digests _ baseKey).1 true).2
      ⟨_, _, .hex "0x" "7e5f4552091a69125d5dfcb7b8c2659029395bdf" ?_,
        .hex _ _ parsed, iff_of_true rfl rfl⟩
    exact eq_ok_of_toOption (by decide +kernel)
  · have stands : (Address.hex "0x00" "0x").StandsFor [0] := .hex "0x" "00" rfl
    have refused : ¬ (Address.hex "0x00" "0x").Takes (.ed25519 [7]) := by
      rintro ⟨⟨bytes, same⟩, -⟩
      cases same
    obtain ⟨error, failed, fatal⟩ :=
      (belongsTo_compares_digests _ _).2.2.2 ⟨[0], stands⟩ refused
    refine ⟨error, failed, ?_⟩
    -- No key is too long for a hexadecimal address.
    by_contra beyond
    rw [Bool.not_eq_false, fatal] at beyond
    exact beyond.1 _ _ rfl

/-- No signature can be checked under any of three keys, and all but a hexadecimal address answer for
them, one even with yes. -/
theorem belongsTo_of_unusable :
    (∀ key ∈ [PublicKey.secp256k1 [], .ed25519 [7], .multisig 1 [.secp256k1 []]],
        ¬ key.Usable
          ∧ (Address.base58 "2").belongsTo key = .ok false
          ∧ (Address.bech32 "a12uel5l" "a").belongsTo key = .ok false
          ∧ ∃ fault, (Address.hex "0x00" "0x").belongsTo key = .error (.validation fault))
      ∧ (Address.base58 "4AyyyhobrQ6KECw6yZaZ2SoEccPu").belongsTo (.secp256k1 []) = .ok true := by
  have bare : ¬ (PublicKey.secp256k1 []).Usable := by
    rintro (⟨length, -⟩ | _ | _)
    exact absurd length (by decide)
  refine ⟨fun key member => ?_, eq_ok_of_toOption (by decide +kernel)⟩
  simp only [List.mem_cons, List.not_mem_nil, or_false] at member
  rcases member with rfl | rfl | rfl
  · exact ⟨bare, eq_ok_of_toOption (by decide +kernel), eq_ok_of_toOption (by decide +kernel),
      _, rfl⟩
  · refine ⟨?_, eq_ok_of_toOption (by decide +kernel), eq_ok_of_toOption (by decide +kernel), _, rfl⟩
    rintro (_ | ⟨length, -⟩ | _)
    exact absurd length (by decide)
  · refine ⟨?_, eq_ok_of_toOption (by decide +kernel), eq_ok_of_toOption (by decide +kernel), _, rfl⟩
    rintro (_ | _ | ⟨_, each⟩)
    exact bare (each _ (.head _))

end Address

end LinkRegistry
