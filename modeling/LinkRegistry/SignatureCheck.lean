import LinkRegistry.LinkError
import LinkRegistry.PublicKey
import LinkRegistry.Curve

/-!
# Keys and signatures of the two algorithms

Parsing keys, checking signatures, and making both from a seed. A key that cannot be used breaks a
rule; a signature that does not fit its key and message is a mismatch.
-/

namespace LinkRegistry

/-- The curve point of secp256k1 key bytes, compressed or not. -/
def parseSecp256k1Key (key : Bytes) : Except LinkError Secp256k1.Point :=
  if key.length ≠ 33 && key.length ≠ 65 then
    .error (.validation (.secp256k1KeyLength key.length))
  else
    match Secp256k1.parseKey? key with
    | some point => .ok point
    | none => .error (.validation .secp256k1Key)

/-- Checks a secp256k1 signature over a message. The key is looked at before the signature. -/
def checkSecp256k1 (message signature key : Bytes) : Except LinkError Unit :=
  match parseSecp256k1Key key with
  | .error error => .error error
  | .ok point =>
    match Secp256k1.Signature.parse? signature with
    | none => .error (.signatureMismatch .malformedSecp256k1)
    | some parsed =>
      if Secp256k1.verify point message parsed then .ok ()
      else .error (.signatureMismatch .wrongSecp256k1)

/-- Checks an Ed25519 signature over a message. The key is looked at before the signature. -/
def checkEd25519 (message signature key : Bytes) : Except LinkError Unit :=
  if key.length ≠ 32 then .error (.validation (.ed25519KeyLength key.length))
  else
    match Ed25519.Point.decode? key with
    | none => .error (.validation .ed25519Key)
    | some point =>
      if signature.length ≠ 64 then .error (.signatureMismatch .malformedEd25519)
      else if Ed25519.verify point key message signature then .ok ()
      else .error (.signatureMismatch .wrongEd25519)

/-! ## Making keys and signatures -/

/-- The signature algorithms of single keys. -/
inductive Algorithm
  | secp256k1
  | ed25519
  deriving DecidableEq, Repr

/-- Checks a signature of an algorithm. -/
def Algorithm.check : Algorithm → (message signature key : Bytes) → Except LinkError Unit
  | .secp256k1 => checkSecp256k1
  | .ed25519 => checkEd25519

/-- The public key of a seed of 32 bytes. -/
def Algorithm.publicKey (algorithm : Algorithm) (seed : Bytes) : Except LinkError PublicKey :=
  match algorithm with
  | .secp256k1 =>
    match Secp256k1.secret? seed >>= Secp256k1.publicKey? with
    | some point => .ok (.secp256k1 point.compressed)
    | none => .error (.validation .secp256k1Secret)
  | .ed25519 => .ok (.ed25519 (Ed25519.Secret.ofSeed seed).publicKey)

/-- The signature of a message under the key of a seed. -/
def Algorithm.sign (algorithm : Algorithm) (seed message : Bytes) : Except LinkError Bytes :=
  match algorithm with
  | .secp256k1 =>
    match Secp256k1.secret? seed >>= (Secp256k1.sign? · message) with
    | some signature => .ok signature.bytes
    | none => .error (.validation .secp256k1Secret)
  | .ed25519 => .ok ((Ed25519.Secret.ofSeed seed).sign message)

end LinkRegistry
