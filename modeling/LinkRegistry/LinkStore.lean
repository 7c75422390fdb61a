import LinkRegistry.StorageError
import LinkRegistry.Store.Basic
import LinkRegistry.Proof.Verification

/-!
# Stored chain links

A saved link takes up to three keys: its record, an index entry that names its owner under the
foreign address, and the default address of its owner on its chain, which the first link there
becomes. Deleting the link that is the default makes the oldest one left the default.
-/

namespace LinkRegistry

namespace ChainLink

def key (link : ChainLink) : Bytes := Key.chainLink link.owner link.chainName link.address.value

/-- The key of a link's index entry. -/
def ownerIndexKey (link : ChainLink) : Bytes :=
  Key.ownerIndex link.chainName link.address.value link.owner

/-- The key of the default address that a link may be. -/
def defaultKey (link : ChainLink) : Bytes := Key.defaultAddress link.owner link.chainName

/-- Reads bytes as a link. -/
def decode (bytes : Bytes) : Except LinkError ChainLink :=
  match codec.decode bytes with
  | .ok link => .ok link
  | .error error => .error (.ofBinary error)

/-- The bytes of a link. -/
def encode (link : ChainLink) : Except LinkError Bytes :=
  match codec.encode? link with
  | some bytes => .ok bytes
  | none => .error (.decode (.oversized (some "chain_link")))

end ChainLink

namespace LinkStore

/-- Reads a stored record. -/
def readLink (bytes : Bytes) : Except StorageError ChainLink :=
  match ChainLink.decode bytes with
  | .ok link => .ok link
  | .error cause => .error (.deserialization (.link cause))

/-- Reads a stored text. -/
def readText (bytes : Bytes) : Except StorageError String :=
  match Utf8.decode bytes with
  | .ok text => .ok text
  | .error error => .error (.deserialization (.text error))

/-- A check of a link as a step of a storage operation. -/
def requireValid {α : Type} : Except LinkError α → Except StorageError α
  | .ok value => .ok value
  | .error cause => .error (.invalidChainLink cause)

/-! ## Queries -/

/-- The link of an owner, chain and address. -/
def get (store : Store) (owner chainName address : String) :
    Except StorageError (Option ChainLink) :=
  match store.get? (Key.chainLink owner chainName address) with
  | some bytes => (readLink bytes).map some
  | none => .ok none

/-- Whether there is a link of an owner, chain and address. -/
def has (store : Store) (owner chainName address : String) : Bool :=
  store.contains (Key.chainLink owner chainName address)

/-- The links of an owner, ordered by chain name, then address. -/
def userLinks (store : Store) (owner : String) : Except StorageError (List ChainLink) :=
  (store.scan (Key.userChainLinks owner)).mapM fun entry => readLink entry.2

/-- The owners that linked an address, as the index names them. -/
def owners (store : Store) (chainName address : String) : Except StorageError (List String) :=
  let lead := Key.ownerIndexOf chainName address
  (store.scan lead).mapM fun entry => readText (entry.1.drop lead.length)

/-- The default address of an owner on a chain. -/
def defaultAddress (store : Store) (owner chainName : String) :
    Except StorageError (Option String) :=
  match store.get? (Key.defaultAddress owner chainName) with
  | some bytes => (readText bytes).map some
  | none => .ok none

/-! ## Saving -/

/-- Checks everything about a link that a store asks of it: its rules, its proof, and that the
signed value names its owner. -/
def accept (codecs : SignDocumentCodecs) (link : ChainLink) : Except LinkError Unit := do
  link.validate
  link.proof.verify codecs link.address link.proof.publicKey
  let plaintext ← link.proof.plaintext
  codecs.validateSignedValue link.proof.signature plaintext link.owner

/-- The writes that save a link. -/
def changesToSave (codecs : SignDocumentCodecs) (store : Store) (link : ChainLink) :
    Except StorageError (List Store.Change) := do
  requireValid (accept codecs link)
  if store.contains link.key then .error (.duplicatedChainLink link.key)
  else
    match link.encode with
    | .error cause => .error (.serialization cause)
    | .ok record =>
      let becomesDefault :=
        if store.contains link.defaultKey then []
        else [.put link.defaultKey (Utf8.encode link.address.value)]
      .ok (.put link.key record :: .put link.ownerIndexKey Key.sentinel :: becomesDefault)

/-- The store with a new link. -/
def save (codecs : SignDocumentCodecs) (store : Store) (link : ChainLink) :
    Except StorageError Store :=
  (changesToSave codecs store link).map store.apply

/-! ## Deleting -/

/-- The link made first, the earlier of two made at the same time. -/
def oldest? (links : List ChainLink) : Option ChainLink :=
  links.foldl
    (fun oldest link =>
      match oldest with
      | none => some link
      | some found => if link.creationTime < found.creationTime then some link else some found)
    none

/-- The write that gives the place of a deleted default address to the oldest link left on its
chain, or clears it. -/
def changeOfDefault (store : Store) (link : ChainLink) : Except StorageError Store.Change := do
  let others := (store.scan (Key.userChainLinksByChain link.owner link.chainName)).filter
    (·.1 ≠ link.key)
  let links ← others.mapM fun entry => readLink entry.2
  match oldest? links with
  | some next => .ok (.put link.defaultKey (Utf8.encode next.address.value))
  | none => .ok (.delete link.defaultKey)

/-- The writes that delete a link. -/
def changesToDelete (store : Store) (link : ChainLink) :
    Except StorageError (List Store.Change) := do
  if !store.contains link.key then .error (.chainLinkNotFound link.key)
  else
    let removal := [.delete link.key, .delete link.ownerIndexKey]
    let current ← defaultAddress store link.owner link.chainName
    if current = some link.address.value then
      let promotion ← changeOfDefault store link
      .ok (removal ++ [promotion])
    else .ok removal

/-- The store without a link. -/
def delete (store : Store) (link : ChainLink) : Except StorageError Store :=
  (changesToDelete store link).map store.apply

/-- Deletes links one after another. A failure leaves those before it deleted. -/
def deleteEach (store : Store) : List ChainLink → Store × Except StorageError Unit
  | [] => (store, .ok ())
  | link :: rest =>
    match delete store link with
    | .ok next => deleteEach next rest
    | .error error => (store, .error error)

/-- Deletes every link of an owner, and tells how many there were. -/
def deleteAll (store : Store) (owner : String) : Store × Except StorageError Nat :=
  match userLinks store owner with
  | .error error => (store, .error error)
  | .ok links =>
    let (next, outcome) := deleteEach store links
    (next, outcome.map fun () => links.length)

end LinkStore

end LinkRegistry
