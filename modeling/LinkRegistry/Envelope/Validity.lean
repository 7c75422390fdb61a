import LinkRegistry.Envelope
import LinkRegistry.LinkError

/-!
# Well-formed envelopes

The value type that all signatures of an envelope share, and the agreement of selectors with the
signatures they come with.
-/

namespace LinkRegistry.Envelope

mutual

/-- The value type of an envelope. All signatures in it must agree, and there must be one. -/
def valueType : Envelope → Except LinkError ValueType
  | .single valueType _ => .ok valueType
  | .multi _ parts => commonValueType 0 none parts

/-- The value type that a list of envelopes shares with the ones before it; `index` counts those. -/
def commonValueType (index : Nat) (common : Option ValueType) :
    List Envelope → Except LinkError ValueType
  | [] =>
    match common with
    | some valueType => .ok valueType
    | none => .error (.validation .noParts)
  | part :: rest =>
    match valueType part with
    | .error error => .error error
    | .ok found =>
      match common with
      | some existing =>
        if existing ≠ found then
          .error (.validation (.mixedValueTypes index found.name existing.name))
        else commonValueType (index + 1) (some found) rest
      | none => commonValueType (index + 1) (some found) rest

end

mutual

/-- Checks that no signature is empty and that every selector is well-formed and selects as many
positions as there are signatures. -/
def validate : Envelope → Except LinkError Unit
  | .single _ signature =>
    if signature.isEmpty then .error (.validation .emptySignature) else .ok ()
  | .multi selector parts =>
    if !selector.isWellFormed then
      .error (.validation (.selectorBytes selector.bits.toNat selector.bytes.length))
    else if selector.countOnes ≠ parts.length then
      .error (.validation (.selectorCount selector.countOnes parts.length))
    else validateAll parts

/-- Checks every envelope of a list. -/
def validateAll : List Envelope → Except LinkError Unit
  | [] => .ok ()
  | part :: rest =>
    match validate part with
    | .error error => .error error
    | .ok () => validateAll rest

end

end LinkRegistry.Envelope
