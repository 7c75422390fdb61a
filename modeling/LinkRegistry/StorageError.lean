import LinkRegistry.LinkError
import LinkRegistry.Store.Key

/-!
# What can be wrong with a store

The failures of operations on stored links.
-/

namespace LinkRegistry

/-- What is stored where something readable should be. -/
inductive UnreadableValue
  /-- The bytes are no record of a link. -/
  | link (cause : LinkError)
  /-- The bytes are no text. -/
  | text (error : Utf8.Error)
  /-- The bytes are no schema version. -/
  | schemaVersion (error : Binary.Error)

def UnreadableValue.message : UnreadableValue → String
  | .link cause => cause.message
  | .text error => error.message
  | .schemaVersion error => s!"failed to read schema version: {error.message}"

/-- Why an operation on a store fails. -/
inductive StorageError
  /-- The database cannot be opened. -/
  | database
  /-- A record cannot be written. -/
  | serialization (cause : LinkError)
  | deserialization (value : UnreadableValue)
  | invalidChainLink (cause : LinkError)
  | duplicatedChainLink (key : Bytes)
  | chainLinkNotFound (key : Bytes)

def StorageError.message : StorageError → String
  | .database => "SQLite error: unable to open the database"
  | .serialization cause => s!"Serialization error: {cause.message}"
  | .deserialization value => s!"Deserialization error: {value.message}"
  | .invalidChainLink cause => s!"Invalid chain link: {cause.message}"
  | .duplicatedChainLink key => s!"Chain link already exists: {Key.display key}"
  | .chainLinkNotFound key => s!"Chain link not found: {Key.display key}"

end LinkRegistry
