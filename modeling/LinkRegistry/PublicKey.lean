import LinkRegistry.Binary.Codec

/-!
# Public keys

A key of one of two signature algorithms, or a threshold over a list of keys, which may be
thresholds themselves.
-/

namespace LinkRegistry

/-- The key that a foreign chain knows an account by. -/
inductive PublicKey
  | secp256k1 (bytes : Bytes)
  | ed25519 (bytes : Bytes)
  /-- Signatures of `threshold` of the members are asked for. -/
  | multisig (threshold : UInt32) (members : List PublicKey)

namespace PublicKey

/-- The name of a key's algorithm. -/
def algorithm : PublicKey → String
  | .secp256k1 _ => "secp256k1"
  | .ed25519 _ => "ed25519"
  | .multisig _ _ => "multisig"

/-! ## Binary format -/

mutual

/-- The bytes of a key's record. -/
def write : PublicKey → Bytes
  | .secp256k1 bytes => 0 :: Binary.Codec.bytes.write bytes
  | .ed25519 bytes => 1 :: Binary.Codec.bytes.write bytes
  | .multisig threshold members =>
    2 :: Binary.Codec.word32.write threshold ++ Binary.writeLength members.length ++
      writeAll members

/-- The bytes of the records of a list of keys. -/
def writeAll : List PublicKey → Bytes
  | [] => []
  | key :: rest => write key ++ writeAll rest

end

mutual

/-- Whether every length inside a key can be written. -/
def fits : PublicKey → Bool
  | .secp256k1 bytes | .ed25519 bytes => bytes.length < Binary.lengthBound
  | .multisig _ members => members.length < Binary.lengthBound && fitsAll members

/-- Whether every length inside a list of keys can be written. -/
def fitsAll : List PublicKey → Bool
  | [] => true
  | key :: rest => fits key && fitsAll rest

end

/-- Takes a key nested less than `depth` deep. -/
def readWithin : Nat → Binary.Reader PublicKey
  | 0 => Binary.Reader.fail .endOfInput
  | depth + 1 => Binary.Reader.byte.andThen fun tag =>
    if tag = 0 then Binary.Codec.bytes.read.map .secp256k1
    else if tag = 1 then Binary.Codec.bytes.read.map .ed25519
    else if tag = 2 then
      Binary.Codec.word32.read.andThen fun threshold =>
        Binary.readLength.andThen fun count =>
          (Binary.Reader.list (readWithin depth) count).map (.multisig threshold)
    else Binary.Reader.fail (.unknownVariant "public key" tag)

/-- Takes a key. Every level of nesting takes a byte, so the input's length bounds the depth. -/
def read : Binary.Reader PublicKey := fun bytes => readWithin bytes.length bytes

def codec : Binary.Codec PublicKey where
  write := write
  read := read
  fits := fits

/-- The bytes a key is hashed as: those it holds, or the record of a threshold key if it can be
written. -/
def bytes? : PublicKey → Option Bytes
  | .secp256k1 bytes | .ed25519 bytes => some bytes
  | .multisig threshold members => codec.encode? (.multisig threshold members)

end PublicKey

end LinkRegistry
