import LinkRegistry.Migration.Migrator
import LinkRegistry.LinkStore
import LinkRegistry.Account
import LinkRegistry.ApplicationLink

/-!
# The standard migrations

The passes that lead a store from the first schema version to the sixth. Pictures of accounts are
grouped; tags, application links and chain links move to keys with separators; bare signatures get
envelopes; links that do not verify are dropped and the rest indexed by owner; envelopes are tagged
afresh.
-/

namespace LinkRegistry.Migration

/-- Reads the record at a key. -/
def readRecord {α : Type} (codec : Binary.Codec α) (key value : Bytes) : Except MigrationError α :=
  match codec.decode value with
  | .ok record => .ok record
  | .error error => .error (.record key (.ofBinary error))

/-- The bytes of a record that is to stay at a key. -/
def writeRecord {α : Type} (schema : String) (codec : Binary.Codec α) (key : Bytes) (record : α) :
    Except MigrationError Bytes :=
  match codec.encode? record with
  | some bytes => .ok bytes
  | none => .error (.record key (.decode (.oversized (some schema))))

/-- A step of a link operation on the record at a key. -/
def atKey {α : Type} (key : Bytes) : Except LinkError α → Except MigrationError α
  | .ok value => .ok value
  | .error cause => .error (.record key cause)

/-! ## Version 1 to 2 -/

/-- Groups the pictures of profiles. -/
def accounts : Pass where
  name := "accounts"
  scope := Key.scope Key.accounts
  transform key value := do
    let account ← readRecord FlatAccount.codec key value
    let grouped ← writeRecord "account" Account.codec key account.group
    .ok (.keep key grouped [])

/-! ## Version 2 to 3 -/

/-- Moves tags to keys in lower case. -/
def dtags : Pass where
  name := "dtags"
  scope := [Key.Early.dtagFamily]
  transform key value :=
    match Utf8.decode (key.drop 1) with
    | .error error => .error (.record key (.decode (.keyText error)))
    | .ok dtag => .ok (.keep (Key.dtag dtag) value [])

/-- Moves application links under their owners and indexes them by client identifier. -/
def applicationLinks : Pass where
  name := "application-links"
  scope := [Key.Early.applicationLinkFamily]
  transform key value := do
    let link ← readRecord ApplicationLink.codec key value
    let destination := Key.applicationLink link.owner link.application link.username
    .ok (.keep destination value [(Key.clientId link.clientId, destination)])

/-- Drops the earlier index of client identifiers. -/
def earlyClientIds : Pass where
  name := "legacy-client-ids"
  scope := [Key.Early.clientIdFamily]
  transform _ _ := .ok (.drop "client-id index is rebuilt from application links")

/-- Moves chain links to keys with separators. -/
def chainLinks : Pass where
  name := "chain-links"
  scope := [Key.Early.chainLinkFamily]
  transform key value := do
    let link ← readRecord BareChainLink.codec key value
    .ok (.keep (Key.chainLink link.owner link.chainName link.address.value) value [])

/-! ## Version 3 to 4 -/

/-- Puts bare signatures in envelopes of the value type of their plaintexts. -/
def chainLinkEnvelopes (codecs : SignDocumentCodecs) : Pass where
  name := "chain-link-envelopes"
  scope := Key.scope Key.chainLinks
  transform key value := do
    let link ← readRecord BareChainLink.codec key value
    let plaintext ← atKey key (decodePlaintext link.proof.plaintextHex)
    let enclosed := link.enclose (codecs.classify plaintext)
    let record ← writeRecord "chain_link" ChainLink.codec key enclosed
    .ok (.keep key record [])

/-! ## Version 4 to 5 -/

/-- Drops links that do not verify and indexes the others by owner. -/
def chainLinkVerification (codecs : SignDocumentCodecs) : Pass where
  name := "chain-link-verification"
  scope := Key.scope Key.chainLinks
  transform key value := do
    let link ← readRecord ChainLink.codec key value
    match link.verify codecs with
    | .ok () => .ok (.keep key value [(link.ownerIndexKey, Key.sentinel)])
    | .error cause =>
      if cause.isFatal then .error (.record key cause) else .ok (.drop cause.message)

/-! ## Version 5 to 6 -/

/-- Tags envelopes with the value type of their plaintexts. -/
def chainLinkTags (codecs : SignDocumentCodecs) : Pass where
  name := "chain-link-tags"
  scope := Key.scope Key.chainLinks
  transform key value := do
    let link ← readRecord ChainLink.codec key value
    let proof ← atKey key (link.proof.retag codecs)
    let record ← writeRecord "chain_link" ChainLink.codec key { link with proof := proof }
    .ok (.keep key record [])

/-! ## All of them -/

/-- Every pass, in the order in which the steps run them. -/
def allPasses (codecs : SignDocumentCodecs) : List Pass :=
  [accounts, dtags, applicationLinks, earlyClientIds, chainLinks, chainLinkEnvelopes codecs,
    chainLinkVerification codecs, chainLinkTags codecs]

/-- Every step, in order. -/
def standardSteps : List Step :=
  [⟨"account-shape-upgrade", 1, 2, [accounts]⟩,
    ⟨"re-key-indexes", 2, 3, [dtags, applicationLinks, earlyClientIds, chainLinks]⟩,
    ⟨"envelope-upgrade", 3, 4, [chainLinkEnvelopes .standard]⟩,
    ⟨"drop-invalid-chain-links", 4, 5, [chainLinkVerification .standard]⟩,
    ⟨"re-tag-signatures", 5, 6, [chainLinkTags .standard]⟩]

def standard : Migrator := ⟨standardSteps⟩

end LinkRegistry.Migration
