import LinkRegistry.Address
import LinkRegistry.SignatureCheck
import LinkRegistry.Hash.Keccak256
import LinkRegistry.Hash.Ripemd160
import LinkRegistry.Text.CharacterClass

/-!
# Addresses and keys

What a well-formed address of each encoding is, and which address a key has. An address that cannot
be read and a key that cannot be used are errors; a readable address of another key is merely no
match.
-/

namespace LinkRegistry

/-! ## Addresses derived from keys -/

/-- Bytes in an address derived from a key. -/
def addressLength : Nat := 20

/-- The first twenty bytes of the SHA-256 digest. -/
def sha256Truncated (message : Bytes) : Bytes := (sha256 message).take addressLength

/-- The RIPEMD-160 digest of the SHA-256 digest. -/
def hash160 (message : Bytes) : Bytes := ripemd160 (sha256 message)

namespace PublicKey

/-- The bytes that a key is hashed as. -/
def hashedBytes (key : PublicKey) : Except LinkError Bytes :=
  match key.bytes? with
  | some bytes => .ok bytes
  | none => .error (.decode (.oversized none))

/-- The account address of a key: the double digest of a secp256k1 key, the truncated digest of any
other. -/
def accountAddress (key : PublicKey) : Except LinkError Bytes :=
  match key with
  | .secp256k1 bytes => .ok (hash160 bytes)
  | .ed25519 _ | .multisig _ _ => key.hashedBytes.map sha256Truncated

/-- The base58 address of a key, its truncated digest. -/
def base58Address (key : PublicKey) : Except LinkError Bytes :=
  key.hashedBytes.map sha256Truncated

/-- The hexadecimal address of a key: the last twenty bytes of the digest of the coordinates of its
point. Only secp256k1 keys have one. -/
def hexAddress (key : PublicKey) : Except LinkError Bytes :=
  match key with
  | .secp256k1 bytes =>
    (parseSecp256k1Key bytes).map fun point =>
      (keccak256 point.coordinates).drop (32 - addressLength)
  | .ed25519 _ | .multisig _ _ => .error (.validation (.hexAddressKey key.algorithm))

end PublicKey

/-! ## Reading addresses -/

/-- The bytes of a classic bech32 address with the given human-readable part. -/
def decodeBech32 (value label : String) : Except LinkError Bytes :=
  match Bech32.read value with
  | .error error => .error (.decode (.bech32Address error))
  | .ok reading =>
    if reading.form ≠ .classic then .error (.decode .bech32Form)
    else if reading.label ≠ label then .error (.decode (.bech32Label label reading.label))
    else
      match Bech32.bytesOfDigits reading.digits with
      | .error error => .error (.decode (.bech32Payload error))
      | .ok bytes => .ok bytes

/-- The classic bech32 text of bytes under a human-readable part. -/
def encodeBech32 (label : String) (bytes : Bytes) : Except LinkError String :=
  match Bech32.write label bytes with
  | .error error => .error (.validation (.bech32Encoding error))
  | .ok text => .ok text

/-- Checks that a text is a classic bech32 account with any human-readable part, and gives that
part. -/
def validateAccount (value : String) : Except LinkError String :=
  if Blank.isBlank value then .error (.validation .blankAccount)
  else
    match Bech32.read value with
    | .error error => .error (.validation (.account value error))
    | .ok reading =>
      if reading.form ≠ .classic then .error (.validation (.accountForm value))
      else .ok reading.label

/-- What follows a lead in a text that begins with it. -/
def afterLead? (lead value : String) : Option String :=
  if lead.toList.isPrefixOf value.toList then
    some (String.ofList (value.toList.drop lead.toList.length))
  else none

namespace Address

/-- Checks an address against the rules of its encoding. -/
def validate (address : Address) : Except LinkError Unit :=
  if Blank.isBlank address.value then .error (.validation .blankAddress)
  else
    match address with
    | .bech32 value label =>
      if Blank.isBlank label then .error (.validation .blankLabel)
      else
        match decodeBech32 value label with
        | .error cause => .error (.validation (.bech32Address cause))
        | .ok _ => .ok ()
    | .base58 value =>
      match Base58.decode value with
      | .error error => .error (.validation (.base58Address error))
      | .ok _ => .ok ()
    | .hex value lead =>
      if value.utf8ByteSize ≤ lead.utf8ByteSize then .error (.validation .shortHexAddress)
      else
        match afterLead? lead value with
        | none => .error (.validation (.hexAddressLead lead))
        | some body =>
          match Hex.decode body with
          | .error error => .error (.validation (.hexAddress error))
          | .ok _ => .ok ()

/-- The bytes that an address stands for. -/
def payload (address : Address) : Except LinkError Bytes :=
  match address with
  | .bech32 value label => decodeBech32 value label
  | .base58 value =>
    match Base58.decode value with
    | .error error => .error (.decode (.base58Address error))
    | .ok bytes => .ok bytes
  | .hex value lead =>
    match afterLead? lead value with
    | none => .error (.decode (.hexAddressLead lead))
    | some body =>
      match Hex.decode body with
      | .error error => .error (.decode (.hexAddress error))
      | .ok bytes => .ok bytes

/-- The bytes of the address that a key has in the encoding of an address. -/
def derived (address : Address) (key : PublicKey) : Except LinkError Bytes :=
  match address with
  | .bech32 _ _ => key.accountAddress
  | .base58 _ => key.base58Address
  | .hex _ _ => key.hexAddress

/-- Whether an address is the one of a key. The address is read before the key is used. -/
def belongsTo (address : Address) (key : PublicKey) : Except LinkError Bool :=
  match address.payload with
  | .error error => .error error
  | .ok payload =>
    match address.derived key with
    | .error error => .error error
    | .ok derived => .ok (payload = derived)

end Address

end LinkRegistry
