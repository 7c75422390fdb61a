import LinkRegistry.Envelope
import LinkRegistry.SignatureCheck

/-!
# Verifying envelopes

An envelope is checked against a key over the bytes that were signed. A threshold key asks for
signatures of selected members; those that do not fit are passed over, and enough must be left.
-/

namespace LinkRegistry

/-- The items at the selected positions, in ascending order of position. -/
def BitSelector.choose {α : Type} (selector : BitSelector) (items : List α) : List α :=
  selector.indices.filterMap (items[·]?)

namespace Envelope

mutual

/-- Checks an envelope against a key over a message. -/
def verify (message : Bytes) : Envelope → PublicKey → Except LinkError Unit
  | .single _ signature, .secp256k1 key => checkSecp256k1 message signature key
  | .single _ signature, .ed25519 key => checkEd25519 message signature key
  | .single _ _, .multisig _ _ => .error (.validation .singleForMultisig)
  | .multi selector parts, .multisig threshold members =>
    if threshold = 0 || members.length < threshold.toNat then
      .error (.validation (.threshold threshold.toNat members.length))
    else if selector.bits.toNat ≠ members.length || !selector.isWellFormed then
      .error (.validation (.selectorCover selector.bits.toNat members.length))
    else if selector.indices.length ≠ parts.length then
      .error (.validation (.selectorCount selector.indices.length parts.length))
    else
      match countRight message parts (selector.choose members) with
      | .error error => .error error
      | .ok right =>
        if right < threshold.toNat then
          .error (.signatureMismatch (.belowThreshold right parts.length threshold.toNat))
        else .ok ()
  | .multi _ _, key => .error (.validation (.multiForSingle key.algorithm))

/-- How many envelopes are right for the keys beside them. A mismatch does not count; any other
error ends the count. -/
def countRight (message : Bytes) : List Envelope → List PublicKey → Except LinkError Nat
  | part :: parts, key :: keys =>
    match verify message part key with
    | .ok () => (countRight message parts keys).map (· + 1)
    | .error (.signatureMismatch _) => countRight message parts keys
    | .error error => .error error
  | _, _ => .ok 0

end

end Envelope

end LinkRegistry
