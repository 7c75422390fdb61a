import LinkRegistry.Address
import LinkRegistry.PublicKey
import LinkRegistry.Envelope

/-!
# Chain links

A chain link ties a local account, its owner, to an address on a foreign chain. The proof holds the
foreign key, its signature and the signed plaintext in hexadecimal. Before signatures carried a
value type, a proof held a bare signature.
-/

namespace LinkRegistry

/-- What shows that the holder of a foreign key agreed to a link. -/
structure Proof where
  publicKey : PublicKey
  signature : Envelope
  /-- The signed bytes in hexadecimal. -/
  plaintextHex : String

/-- The association of a local account with a foreign address. -/
structure ChainLink where
  owner : String
  address : Address
  proof : Proof
  chainName : String
  creationTime : UInt64

/-- A proof with a bare signature. -/
structure BareProof where
  publicKey : PublicKey
  signature : Bytes
  plaintextHex : String

/-- A chain link whose proof has a bare signature. -/
structure BareChainLink where
  owner : String
  address : Address
  proof : BareProof
  chainName : String
  creationTime : UInt64

open Binary.Codec (text word64 bytes)

def Proof.codec : Binary.Codec Proof :=
  (PublicKey.codec.pair (Envelope.codec.pair text)).via
    (fun (publicKey, signature, plaintextHex) => ⟨publicKey, signature, plaintextHex⟩)
    (fun proof => (proof.publicKey, proof.signature, proof.plaintextHex))

def ChainLink.codec : Binary.Codec ChainLink :=
  (text.pair (Address.codec.pair (Proof.codec.pair (text.pair word64)))).via
    (fun (owner, address, proof, chainName, creationTime) =>
      ⟨owner, address, proof, chainName, creationTime⟩)
    (fun link => (link.owner, link.address, link.proof, link.chainName, link.creationTime))

def BareProof.codec : Binary.Codec BareProof :=
  (PublicKey.codec.pair (bytes.pair text)).via
    (fun (publicKey, signature, plaintextHex) => ⟨publicKey, signature, plaintextHex⟩)
    (fun proof => (proof.publicKey, proof.signature, proof.plaintextHex))

def BareChainLink.codec : Binary.Codec BareChainLink :=
  (text.pair (Address.codec.pair (BareProof.codec.pair (text.pair word64)))).via
    (fun (owner, address, proof, chainName, creationTime) =>
      ⟨owner, address, proof, chainName, creationTime⟩)
    (fun link => (link.owner, link.address, link.proof, link.chainName, link.creationTime))

/-- The link with its bare signature in an envelope of the given value type. -/
def BareChainLink.enclose (link : BareChainLink) (valueType : ValueType) : ChainLink where
  owner := link.owner
  address := link.address
  proof :=
    ⟨link.proof.publicKey, .single valueType link.proof.signature, link.proof.plaintextHex⟩
  chainName := link.chainName
  creationTime := link.creationTime

end LinkRegistry
