import LinkRegistry.Binary.Reader
import LinkRegistry.Encoding.Hex
import LinkRegistry.Encoding.Base58
import LinkRegistry.Encoding.Bech32
import LinkRegistry.Text.Quoted

/-!
# What can be wrong with a link

The failures of reading, checking and verifying links, each with its cause. Bytes that cannot be
read or that a later version may have written are fatal: they are no verdict on a link.
-/

namespace LinkRegistry

/-- Why a signature does not stand for a message. -/
inductive SignatureFault
  | malformedSecp256k1
  | wrongSecp256k1
  | malformedEd25519
  | wrongEd25519
  /-- Too few of the signatures of a threshold key are right. -/
  | belowThreshold (right supplied threshold : Nat)
  deriving DecidableEq, Repr

/-- Why something cannot be read. -/
inductive DecodeFault
  /-- Bytes are not a record. -/
  | record (error : Binary.Error)
  /-- Bytes are not a legacy sign-document. -/
  | legacyDocument
  | plaintextHex (error : Hex.Error)
  | base58Address (error : Base58.Error)
  | bech32Address (error : Bech32.Error)
  | bech32Form
  | bech32Label (expected found : String)
  | bech32Payload (error : Bech32.Error)
  | hexAddressLead (lead : String)
  | hexAddress (error : Hex.Error)
  /-- A store key that should end in a text does not. -/
  | keyText (error : Utf8.Error)
  /-- A record has a length that cannot be written. -/
  | oversized (schema : Option String)
  /-- A fault that a codec or a transformation of the caller's own reports. -/
  | reported (reason : String)
  deriving DecidableEq, Repr

mutual

/-- What is wrong with a link. -/
inductive LinkError
  | decode (fault : DecodeFault)
  | unsupportedVariant (kind : String) (tag : UInt8)
  | validation (fault : ValidationFault)
  | addressMismatch (algorithm encoding address : String)
  | signatureMismatch (fault : SignatureFault)

/-- Which rule a link breaks. -/
inductive ValidationFault
  | emptySignature
  | selectorBytes (bits bytes : Nat)
  | selectorCount (selected supplied : Nat)
  | mixedValueTypes (index : Nat) (found common : String)
  | noParts
  | secp256k1KeyLength (length : Nat)
  | secp256k1Key
  | secp256k1Secret
  | ed25519KeyLength (length : Nat)
  | ed25519Key
  | singleForMultisig
  | multiForSingle (algorithm : String)
  | threshold (threshold members : Nat)
  | selectorCover (bits members : Nat)
  | blankAddress
  | blankLabel
  | bech32Address (cause : LinkError)
  | base58Address (error : Base58.Error)
  | shortHexAddress
  | hexAddressLead (lead : String)
  | hexAddress (error : Hex.Error)
  | hexAddressKey (algorithm : String)
  | bech32Encoding (error : Bech32.Error)
  | blankAccount
  | account (value : String) (error : Bech32.Error)
  | accountForm (value : String)
  | blankPlaintext
  | blankChainName
  | zeroCreationTime
  | notDirect
  | notLegacyJson (cause : LinkError)
  | signDocument (cause : LinkError)
  | transactionBody (cause : LinkError)
  | signedValue (signed owner : String)

end

def SignatureFault.message : SignatureFault → String
  | .malformedSecp256k1 => "malformed secp256k1 signature"
  | .wrongSecp256k1 => "secp256k1 signature does not verify"
  | .malformedEd25519 => "malformed ed25519 signature"
  | .wrongEd25519 => "ed25519 signature does not verify"
  | .belowThreshold right supplied threshold =>
    s!"{right} of {supplied} selected signatures verify, threshold is {threshold}"

/-- What a legacy sign-document that cannot be read is said to be. -/
def unreadableLegacyDocument : String := "the bytes hold no legacy sign-document"

def DecodeFault.message : DecodeFault → String
  | .record error => error.message
  | .legacyDocument => unreadableLegacyDocument
  | .plaintextHex error => s!"invalid plaintext hex: {error.message}"
  | .base58Address error => s!"invalid base58 address: {error.message}"
  | .bech32Address error => s!"invalid bech32 address: {error.message}"
  | .bech32Form => "bech32m addresses are not supported"
  | .bech32Label expected found => s!"bech32 prefix mismatch: expected {expected}, got {found}"
  | .bech32Payload error => s!"invalid bech32 payload: {error.message}"
  | .hexAddressLead lead => s!"hex address does not start with {lead}"
  | .hexAddress error => s!"invalid hex address: {error.message}"
  | .keyText error => s!"key is not utf-8: {error.message}"
  | .oversized (some schema) => s!"{schema}: invalid input parameter"
  | .oversized none => "invalid input parameter"
  | .reported reason => reason

mutual

def LinkError.message : LinkError → String
  | .decode fault => s!"decode error: {fault.message}"
  | .unsupportedVariant kind tag => s!"unsupported {kind} variant: tag {tag.toNat}"
  | .validation fault => s!"validation error: {ValidationFault.message fault}"
  | .addressMismatch algorithm encoding address =>
    s!"address mismatch: {algorithm} key does not derive {encoding} address {address}"
  | .signatureMismatch fault => s!"signature mismatch: {fault.message}"

def ValidationFault.message : ValidationFault → String
  | .emptySignature => "empty signature"
  | .selectorBytes bits bytes => s!"bit selector of {bits} bits carries {bytes} bytes"
  | .selectorCount selected supplied =>
    s!"bit selector chooses {selected} signers but {supplied} signatures were supplied"
  | .mixedValueTypes index found common =>
    s!"sub-signature {index} uses {found}, others use {common}"
  | .noParts => "multi signature has no sub-signatures"
  | .secp256k1KeyLength length => s!"secp256k1 key must be 33 or 65 bytes, got {length}"
  | .secp256k1Key => "invalid secp256k1 public key"
  | .secp256k1Secret => "invalid secp256k1 secret key"
  | .ed25519KeyLength length => s!"ed25519 key must be 32 bytes, got {length}"
  | .ed25519Key => "invalid ed25519 public key"
  | .singleForMultisig => "single signature cannot be checked against a multisig key"
  | .multiForSingle algorithm => s!"multi signature requires a multisig key, got {algorithm}"
  | .threshold threshold members => s!"invalid multisig threshold {threshold} of {members}"
  | .selectorCover bits members =>
    s!"bit selector of {bits} bits does not cover {members} keys"
  | .blankAddress => "address value cannot be blank"
  | .blankLabel => "bech32 prefix cannot be blank"
  | .bech32Address cause => LinkError.message cause
  | .base58Address error => s!"invalid base58 address: {error.message}"
  | .shortHexAddress => "hex address must be longer than its prefix"
  | .hexAddressLead lead => s!"hex address does not start with {lead}"
  | .hexAddress error => s!"invalid hex address: {error.message}"
  | .hexAddressKey algorithm => s!"hex addresses derive from secp256k1 keys, got {algorithm}"
  | .bech32Encoding error => s!"cannot bech32-encode: {error.message}"
  | .blankAccount => "account address cannot be blank"
  | .account value error => s!"invalid account address {value}: {error.message}"
  | .accountForm value => s!"account address {value} is not classic bech32"
  | .blankPlaintext => "proof plaintext cannot be blank"
  | .blankChainName => "chain name cannot be blank"
  | .zeroCreationTime => "creation time cannot be zero"
  | .notDirect => "plaintext is not a canonical binary sign-document"
  | .notLegacyJson cause =>
    s!"plaintext is not a legacy JSON sign-document: {LinkError.message cause}"
  | .signDocument cause => s!"invalid sign-document: {LinkError.message cause}"
  | .transactionBody cause => s!"invalid transaction body: {LinkError.message cause}"
  | .signedValue signed owner =>
    s!"signed value {Quoted.text signed} does not match owner {owner}"

end

namespace LinkError

/-- Whether an error aborts what is being done instead of being a verdict on the link. -/
def isFatal : LinkError → Bool
  | .decode _ | .unsupportedVariant _ _ => true
  | .validation _ | .addressMismatch _ _ _ | .signatureMismatch _ => false

/-- The error of bytes that are not a record. -/
def ofBinary : Binary.Error → LinkError
  | .unknownVariant kind tag => .unsupportedVariant kind tag
  | error => .decode (.record error)

end LinkError

end LinkRegistry
