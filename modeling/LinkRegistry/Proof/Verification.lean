import LinkRegistry.Address.Derivation
import LinkRegistry.Envelope.Validity
import LinkRegistry.Envelope.Verification
import LinkRegistry.Proof.Classification

/-!
# Validating and verifying links

The rules that a link must keep before any signature is looked at; the rule that the signed value
names the owner, so that no proof serves another account; and what a proof shows, which is that a
key belongs to an address and signed the plaintext as a document of the value type that the
envelope claims.
-/

namespace LinkRegistry

/-! ## Rules -/

/-- Checks a proof: a plaintext that is not blank, and a well-formed envelope of one value type.
A plaintext that is not hexadecimal cannot be read, which is no broken rule. -/
def Proof.validate (proof : Proof) : Except LinkError Unit := do
  if Blank.isBlank proof.plaintextHex then .error (.validation .blankPlaintext)
  else
    let _ ← proof.plaintext
    proof.signature.validate
    let _ ← proof.signature.valueType
    .ok ()

/-- Checks a link. No signature is verified. -/
def ChainLink.validate (link : ChainLink) : Except LinkError Unit := do
  let _ ← validateAccount link.owner
  link.address.validate
  link.proof.validate
  if Blank.isBlank link.chainName then .error (.validation .blankChainName)
  else if link.creationTime = 0 then .error (.validation .zeroCreationTime)
  else .ok ()

/-- The value that was signed in a plaintext of a value type: the plaintext as text, or the memo of
the document it is. -/
def SignDocumentCodecs.signedValue (codecs : SignDocumentCodecs) (valueType : ValueType)
    (plaintext : Bytes) : Except LinkError String :=
  match valueType with
  | .raw => .ok (Utf8.decodeLenient plaintext)
  | .direct =>
    match codecs.decodeDirect plaintext with
    | .error cause => .error (.validation (.signDocument cause))
    | .ok document =>
      match codecs.decodeBody document.bodyBytes with
      | .error cause => .error (.validation (.transactionBody cause))
      | .ok body => .ok body.memo
  | .legacyJson =>
    match codecs.decodeLegacy plaintext with
    | .error cause => .error (.validation (.signDocument cause))
    | .ok document => .ok document.memo

/-- Checks that the signed value of a plaintext is the owner. -/
def SignDocumentCodecs.validateSignedValue (codecs : SignDocumentCodecs) (signature : Envelope)
    (plaintext : Bytes) (owner : String) : Except LinkError Unit := do
  let valueType ← signature.valueType
  let signed ← codecs.signedValue valueType plaintext
  if signed ≠ owner then .error (.validation (.signedValue signed owner)) else .ok ()

/-! ## Verification -/

/-- Checks that a key belongs to an address. -/
def Address.checkKey (address : Address) (key : PublicKey) : Except LinkError Unit := do
  if ← address.belongsTo key then .ok ()
  else .error (.addressMismatch key.algorithm address.encoding address.value)

/-- Checks that a key belongs to an address and signed the plaintext of a proof. -/
def Proof.verify (codecs : SignDocumentCodecs) (proof : Proof) (address : Address)
    (key : PublicKey) : Except LinkError Unit := do
  let plaintext ← proof.plaintext
  address.checkKey key
  let valueType ← proof.signature.valueType
  let framed ← codecs.frame valueType plaintext
  proof.signature.verify framed key

/-- Checks the rules for a link, then its proof with the link's own key. -/
def ChainLink.verify (codecs : SignDocumentCodecs) (link : ChainLink) : Except LinkError Unit := do
  link.validate
  link.proof.verify codecs link.address link.proof.publicKey

end LinkRegistry
