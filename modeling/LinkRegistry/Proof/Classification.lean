import LinkRegistry.ChainLink
import LinkRegistry.SignDocument

/-!
# The kind of a plaintext

Which sign-document a plaintext is, and whether it may stand for the one that an envelope claims.
A canonical binary document takes precedence over a legacy one.
-/

namespace LinkRegistry

namespace SignDocumentCodecs

/-- Whether bytes are a binary sign-document that is written as exactly these bytes. -/
def isCanonicalDirect (codecs : SignDocumentCodecs) (plaintext : Bytes) : Bool :=
  match codecs.decodeDirect plaintext with
  | .error _ => false
  | .ok document =>
    match codecs.encodeDirect document with
    | .error _ => false
    | .ok written => written = plaintext

/-- Whether bytes are a legacy sign-document. -/
def isLegacyJson (codecs : SignDocumentCodecs) (plaintext : Bytes) : Bool :=
  match codecs.decodeLegacy plaintext with
  | .ok _ => true
  | .error _ => false

/-- The value type of a plaintext. -/
def classify (codecs : SignDocumentCodecs) (plaintext : Bytes) : ValueType :=
  if codecs.isCanonicalDirect plaintext then .direct
  else if codecs.isLegacyJson plaintext then .legacyJson
  else .raw

/-- The bytes that were signed for a value type: the plaintext as it is, once it is found to be a
document of that type. -/
def frame (codecs : SignDocumentCodecs) (valueType : ValueType) (plaintext : Bytes) :
    Except LinkError Bytes :=
  match valueType with
  | .raw => .ok plaintext
  | .direct =>
    if codecs.isCanonicalDirect plaintext then .ok plaintext else .error (.validation .notDirect)
  | .legacyJson =>
    match codecs.decodeLegacy plaintext with
    | .ok _ => .ok plaintext
    | .error cause => .error (.validation (.notLegacyJson cause))

end SignDocumentCodecs

/-- Reads a plaintext in hexadecimal. -/
def decodePlaintext (plaintextHex : String) : Except LinkError Bytes :=
  match Hex.decode plaintextHex with
  | .ok plaintext => .ok plaintext
  | .error error => .error (.decode (.plaintextHex error))

def Proof.plaintext (proof : Proof) : Except LinkError Bytes := decodePlaintext proof.plaintextHex

/-- The proof with the value type of its plaintext on every signature. -/
def Proof.retag (codecs : SignDocumentCodecs) (proof : Proof) : Except LinkError Proof :=
  match proof.plaintext with
  | .error error => .error error
  | .ok plaintext =>
    .ok { proof with signature := proof.signature.retag (codecs.classify plaintext) }

end LinkRegistry
