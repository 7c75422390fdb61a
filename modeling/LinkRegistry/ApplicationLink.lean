import LinkRegistry.Binary.Codec

/-!
# Application links

The association of a local account with a user name on an external application, verified by an
oracle request that its client identifier names.
-/

namespace LinkRegistry

/-- How far the verification of an application link has come. -/
inductive VerificationState
  | initialized
  | started
  | failed
  | succeeded
  | timedOut
  deriving DecidableEq, Repr

namespace VerificationState

/-- The states in the order of their tags. -/
def all : List VerificationState := [.initialized, .started, .failed, .succeeded, .timedOut]

def codec : Binary.Codec VerificationState where
  write state := [UInt8.ofNat (all.idxOf state)]
  read := Binary.Reader.byte.andThen fun tag =>
    match all[tag.toNat]? with
    | some state => Binary.Reader.pure state
    | none => Binary.Reader.fail (.badTag tag)
  fits _ := true

end VerificationState

/-- The association of a local account with a user of an application. -/
structure ApplicationLink where
  owner : String
  application : String
  username : String
  clientId : String
  state : VerificationState
  creationTime : UInt64

open Binary.Codec (text word64)

def ApplicationLink.codec : Binary.Codec ApplicationLink :=
  (text.pair
      (text.pair (text.pair (text.pair (VerificationState.codec.pair word64))))).via
    (fun (owner, application, username, clientId, state, creationTime) =>
      ⟨owner, application, username, clientId, state, creationTime⟩)
    (fun link =>
      (link.owner, link.application, link.username, link.clientId, link.state, link.creationTime))

end LinkRegistry
