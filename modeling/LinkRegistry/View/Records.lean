import LinkRegistry.View.Basic
import LinkRegistry.ChainLink
import LinkRegistry.Account
import LinkRegistry.ApplicationLink

/-!
# The views of the stored records

For each type of record its view and the reader of that view.
-/

namespace LinkRegistry

open View (ofBytes)

/-! ## Addresses -/

def Address.view : Address → Json
  | .bech32 value label =>
    .ofMembers [("type", .ofText "bech32"), ("value", .ofText value), ("prefix", .ofText label)]
  | .base58 value => .ofMembers [("type", .ofText "base58"), ("value", .ofText value)]
  | .hex value lead =>
    .ofMembers [("type", .ofText "hex"), ("value", .ofText value), ("prefix", .ofText lead)]

/-- Reads an address from a sound value. -/
def Address.ofSoundView? (numbered : Bool) (json : Json) : Option Address := do
  let (index, rest) ← View.tagged ["bech32", "base58", "hex"] numbered json
  if index = 1 then
    let (inner, values) ← View.fields ["value"] .buffered rest
    match values with
    | [some value] => some (.base58 (← View.text inner value))
    | _ => none
  else
    let (inner, values) ← View.fields ["value", "prefix"] .buffered rest
    match values with
    | [some value, some other] =>
      let value ← View.text inner value
      let other ← View.text inner other
      some (if index = 0 then .bech32 value other else .hex value other)
    | _ => none

def Address.ofView? : View.Reader Address := View.choice Address.ofSoundView?

/-! ## Public keys -/

mutual

def PublicKey.view : PublicKey → Json
  | .secp256k1 bytes => .ofMembers [("type", .ofText "secp256k1"), ("bytes", ofBytes bytes)]
  | .ed25519 bytes => .ofMembers [("type", .ofText "ed25519"), ("bytes", ofBytes bytes)]
  | .multisig threshold members =>
    .ofMembers
      [("type", .ofText "multisig"), ("threshold", .ofNat threshold.toNat),
        ("keys", .array (PublicKey.viewAll members))]

def PublicKey.viewAll : List PublicKey → List Json
  | [] => []
  | key :: rest => PublicKey.view key :: PublicKey.viewAll rest

end

/-- Reads a key nested less than `depth` deep from a sound value. -/
def PublicKey.ofSoundViewWithin? : Nat → Bool → Json → Option PublicKey
  | 0, _, _ => none
  | depth + 1, numbered, json => do
    let (index, rest) ← View.tagged ["secp256k1", "ed25519", "multisig"] numbered json
    if index = 2 then
      let (inner, values) ← View.fields ["threshold", "keys"] .buffered rest
      match values with
      | [some threshold, some members] =>
        let threshold ← View.word32 inner threshold
        let members ←
          View.list (fun _ member => ofSoundViewWithin? depth true member) inner members
        some (.multisig threshold members)
      | _ => none
    else
      let (inner, values) ← View.fields ["bytes"] .buffered rest
      match values with
      | [some bytes] =>
        let bytes ← View.bytes inner bytes
        some (if index = 0 then .secp256k1 bytes else .ed25519 bytes)
      | _ => none

def PublicKey.ofView? : View.Reader PublicKey :=
  View.choice fun numbered json => ofSoundViewWithin? json.depth numbered json

/-! ## Signatures -/

/-- The value types with the names they are viewed under. -/
def ValueType.viewNames : List (String × ValueType) :=
  [("raw", .raw), ("chain_direct", .direct), ("chain_legacy_json", .legacyJson)]

def ValueType.view : ValueType → Json
  | .raw => .ofText "raw"
  | .direct => .ofText "chain_direct"
  | .legacyJson => .ofText "chain_legacy_json"

def ValueType.ofView? : View.Reader ValueType := View.name ValueType.viewNames

def BitSelector.view (selector : BitSelector) : Json :=
  .ofMembers [("bits", .ofNat selector.bits.toNat), ("elems", ofBytes selector.bytes)]

def BitSelector.ofView? : View.Reader BitSelector := fun position json => do
  let (inner, values) ← View.fields ["bits", "elems"] position json
  match values with
  | [some bits, some bytes] => some ⟨← View.word32 inner bits, ← View.bytes inner bytes⟩
  | _ => none

mutual

def Envelope.view : Envelope → Json
  | .single valueType signature =>
    .ofMembers
      [("type", .ofText "single"), ("value_type", valueType.view),
        ("signature", ofBytes signature)]
  | .multi selector parts =>
    .ofMembers
      [("type", .ofText "multi"), ("bit_selector", selector.view),
        ("signatures", .array (Envelope.viewAll parts))]

def Envelope.viewAll : List Envelope → List Json
  | [] => []
  | part :: rest => Envelope.view part :: Envelope.viewAll rest

end

/-- Reads an envelope nested less than `depth` deep from a sound value. -/
def Envelope.ofSoundViewWithin? : Nat → Bool → Json → Option Envelope
  | 0, _, _ => none
  | depth + 1, numbered, json => do
    let (index, rest) ← View.tagged ["single", "multi"] numbered json
    if index = 0 then
      let (inner, values) ← View.fields ["value_type", "signature"] .buffered rest
      match values with
      | [some valueType, some signature] =>
        some (.single (← ValueType.ofView? inner valueType) (← View.bytes inner signature))
      | _ => none
    else
      let (inner, values) ← View.fields ["bit_selector", "signatures"] .buffered rest
      match values with
      | [some selector, some parts] =>
        let selector ← BitSelector.ofView? inner selector
        let parts ← View.list (fun _ part => ofSoundViewWithin? depth true part) inner parts
        some (.multi selector parts)
      | _ => none

def Envelope.ofView? : View.Reader Envelope :=
  View.choice fun numbered json => ofSoundViewWithin? json.depth numbered json

/-! ## Chain links -/

def Proof.view (proof : Proof) : Json :=
  .ofMembers
    [("public_key", proof.publicKey.view), ("signature", proof.signature.view),
      ("plaintext_hex", .ofText proof.plaintextHex)]

def Proof.ofView? : View.Reader Proof := fun position json => do
  let (inner, values) ← View.fields ["public_key", "signature", "plaintext_hex"] position json
  match values with
  | [some publicKey, some signature, some plaintextHex] =>
    some
      ⟨← PublicKey.ofView? inner publicKey, ← Envelope.ofView? inner signature,
        ← View.text inner plaintextHex⟩
  | _ => none

def BareProof.view (proof : BareProof) : Json :=
  .ofMembers
    [("public_key", proof.publicKey.view), ("signature", ofBytes proof.signature),
      ("plaintext_hex", .ofText proof.plaintextHex)]

def BareProof.ofView? : View.Reader BareProof := fun position json => do
  let (inner, values) ← View.fields ["public_key", "signature", "plaintext_hex"] position json
  match values with
  | [some publicKey, some signature, some plaintextHex] =>
    some
      ⟨← PublicKey.ofView? inner publicKey, ← View.bytes inner signature,
        ← View.text inner plaintextHex⟩
  | _ => none

def View.ofChainName (name : String) : Json := .ofMembers [("name", .ofText name)]

/-- Reads a chain name. -/
def View.chainName : View.Reader String := fun position json => do
  let (inner, values) ← View.fields ["name"] position json
  match values with
  | [some name] => View.text inner name
  | _ => none

/-- The names of the fields of a chain link. -/
def ChainLink.viewNames : List String :=
  ["owner", "address", "proof", "chain_config", "creation_time"]

def ChainLink.view (link : ChainLink) : Json :=
  .ofMembers
    [("owner", .ofText link.owner), ("address", link.address.view), ("proof", link.proof.view),
      ("chain_config", View.ofChainName link.chainName),
      ("creation_time", .ofNat link.creationTime.toNat)]

def ChainLink.ofView? : View.Reader ChainLink := fun position json => do
  let (inner, values) ← View.fields ChainLink.viewNames position json
  match values with
  | [some owner, some address, some proof, some chainName, some creationTime] =>
    some
      ⟨← View.text inner owner, ← Address.ofView? inner address, ← Proof.ofView? inner proof,
        ← View.chainName inner chainName, ← View.word64 inner creationTime⟩
  | _ => none

def BareChainLink.view (link : BareChainLink) : Json :=
  .ofMembers
    [("owner", .ofText link.owner), ("address", link.address.view), ("proof", link.proof.view),
      ("chain_config", View.ofChainName link.chainName),
      ("creation_time", .ofNat link.creationTime.toNat)]

def BareChainLink.ofView? : View.Reader BareChainLink := fun position json => do
  let (inner, values) ← View.fields ChainLink.viewNames position json
  match values with
  | [some owner, some address, some proof, some chainName, some creationTime] =>
    some
      ⟨← View.text inner owner, ← Address.ofView? inner address, ← BareProof.ofView? inner proof,
        ← View.chainName inner chainName, ← View.word64 inner creationTime⟩
  | _ => none

/-! ## Accounts -/

def BaseAccount.view (account : BaseAccount) : Json :=
  .ofMembers
    [("address", .ofText account.address),
      ("pub_key", match account.publicKey with
        | some key => key.view
        | none => .null),
      ("account_number", .ofNat account.accountNumber.toNat),
      ("sequence", .ofNat account.sequence.toNat)]

/-- Reads a base account. A missing key is no key. -/
def BaseAccount.ofView? : View.Reader BaseAccount := fun position json => do
  let (inner, values) ←
    View.fields ["address", "pub_key", "account_number", "sequence"] position json
  match values with
  | [some address, publicKey, some accountNumber, some sequence] =>
    some
      ⟨← View.text inner address, ← View.optionalField PublicKey.ofView? inner publicKey,
        ← View.word64 inner accountNumber, ← View.word64 inner sequence⟩
  | _ => none

def Pictures.view (pictures : Pictures) : Json :=
  .ofMembers [("profile", .ofText pictures.profile), ("cover", .ofText pictures.cover)]

def Pictures.ofView? : View.Reader Pictures := fun position json => do
  let (inner, values) ← View.fields ["profile", "cover"] position json
  match values with
  | [some profile, some cover] => some ⟨← View.text inner profile, ← View.text inner cover⟩
  | _ => none

def Profile.view (profile : Profile) : Json :=
  .ofMembers
    [("account", profile.account.view), ("dtag", .ofText profile.dtag),
      ("nickname", .ofText profile.nickname), ("bio", .ofText profile.bio),
      ("pictures", profile.pictures.view), ("creation_time", .ofNat profile.creationTime.toNat)]

def Profile.ofView? : View.Reader Profile := fun position json => do
  let (inner, values) ←
    View.fields ["account", "dtag", "nickname", "bio", "pictures", "creation_time"] position json
  match values with
  | [some account, some dtag, some nickname, some bio, some pictures, some creationTime] =>
    some
      ⟨← BaseAccount.ofView? inner account, ← View.text inner dtag, ← View.text inner nickname,
        ← View.text inner bio, ← Pictures.ofView? inner pictures,
        ← View.word64 inner creationTime⟩
  | _ => none

def FlatProfile.view (profile : FlatProfile) : Json :=
  .ofMembers
    [("account", profile.account.view), ("dtag", .ofText profile.dtag),
      ("nickname", .ofText profile.nickname), ("bio", .ofText profile.bio),
      ("profile_picture", .ofText profile.profilePicture),
      ("cover_picture", .ofText profile.coverPicture),
      ("creation_time", .ofNat profile.creationTime.toNat)]

def FlatProfile.ofView? : View.Reader FlatProfile := fun position json => do
  let (inner, values) ←
    View.fields
      ["account", "dtag", "nickname", "bio", "profile_picture", "cover_picture", "creation_time"]
      position json
  match values with
  | [some account, some dtag, some nickname, some bio, some profilePicture, some coverPicture,
      some creationTime] =>
    some
      ⟨← BaseAccount.ofView? inner account, ← View.text inner dtag, ← View.text inner nickname,
        ← View.text inner bio, ← View.text inner profilePicture, ← View.text inner coverPicture,
        ← View.word64 inner creationTime⟩
  | _ => none

/-- The only member of an object, with the position inside it. -/
def View.onlyMember (position : View.Position) : Json → Option (View.Position × String × Json)
  | .object [(some name, json)] => position.inner.map (·, name, json)
  | _ => none

def Account.view : Account → Json
  | .base account => .ofMembers [("Base", account.view)]
  | .profiled profile => .ofMembers [("Profile", profile.view)]

def Account.ofView? : View.Reader Account := fun position json => do
  let (inner, name, content) ← View.onlyMember position json
  if name = "Base" then (BaseAccount.ofView? inner content).map .base
  else if name = "Profile" then (Profile.ofView? inner content).map .profiled
  else none

def FlatAccount.view : FlatAccount → Json
  | .base account => .ofMembers [("Base", account.view)]
  | .profiled profile => .ofMembers [("Profile", profile.view)]

def FlatAccount.ofView? : View.Reader FlatAccount := fun position json => do
  let (inner, name, content) ← View.onlyMember position json
  if name = "Base" then (BaseAccount.ofView? inner content).map .base
  else if name = "Profile" then (FlatProfile.ofView? inner content).map .profiled
  else none

/-! ## Application links -/

/-- The states with the names they are viewed under. -/
def VerificationState.viewNames : List (String × VerificationState) :=
  [("Initialized", .initialized), ("VerificationStarted", .started),
    ("VerificationError", .failed), ("VerificationSuccess", .succeeded), ("TimedOut", .timedOut)]

def VerificationState.view : VerificationState → Json
  | .initialized => .ofText "Initialized"
  | .started => .ofText "VerificationStarted"
  | .failed => .ofText "VerificationError"
  | .succeeded => .ofText "VerificationSuccess"
  | .timedOut => .ofText "TimedOut"

def VerificationState.ofView? : View.Reader VerificationState :=
  View.name VerificationState.viewNames

def ApplicationLink.view (link : ApplicationLink) : Json :=
  .ofMembers
    [("owner", .ofText link.owner), ("application", .ofText link.application),
      ("username", .ofText link.username), ("client_id", .ofText link.clientId),
      ("state", link.state.view), ("creation_time", .ofNat link.creationTime.toNat)]

def ApplicationLink.ofView? : View.Reader ApplicationLink := fun position json => do
  let (inner, values) ←
    View.fields ["owner", "application", "username", "client_id", "state", "creation_time"]
      position json
  match values with
  | [some owner, some application, some username, some clientId, some state,
      some creationTime] =>
    some
      ⟨← View.text inner owner, ← View.text inner application, ← View.text inner username,
        ← View.text inner clientId, ← VerificationState.ofView? inner state,
        ← View.word64 inner creationTime⟩
  | _ => none

end LinkRegistry
