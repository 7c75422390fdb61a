import LinkRegistry.Store.Basic

/-!
# Backends

Where a store is kept, and how each place finds the entries under a lead. In memory a cursor goes
from key to key and stops at the first that does not begin with the lead; a table is asked for the
range of keys from the lead up to the least key above all that begin with it.
-/

namespace LinkRegistry

namespace Store

/-! ## Cursors -/

/-- Where a cursor looks for its next entry. -/
inductive Start
  /-- At a key or above it. -/
  | at (key : Bytes)
  /-- Above a key. -/
  | after (key : Bytes)
  deriving DecidableEq, Repr

/-- Whether a key is one that a cursor has yet to come to. -/
def Start.admits : Start → Bytes → Bool
  | .at key, candidate => !(candidate < key)
  | .after key, candidate => key < candidate

/-- The entry that a cursor gives next, if its key begins with the lead. -/
def next? (store : Store) (lead : Bytes) (start : Start) : Option Entry :=
  (store.entries.find? fun entry => start.admits entry.1).filter (lead.isPrefixOf ·.1)

/-- The entries that a cursor gives, at most so many. -/
def cursor (store : Store) (lead : Bytes) : Nat → Start → List Entry
  | 0, _ => []
  | count + 1, start =>
    match store.next? lead start with
    | none => []
    | some entry => entry :: cursor store lead count (.after entry.1)

/-! ## Ranges -/

/-- The least key above every key that begins with a lead, or `none` if there is no key above. -/
def above? : Bytes → Option Bytes
  | [] => none
  | byte :: rest =>
    match above? rest with
    | some bound => some (byte :: bound)
    | none => if byte < 0xFF then some [byte + 1] else none

/-- The entries from a key up to a bound, which is left out. -/
def range (store : Store) (lower : Bytes) (upper : Option Bytes) : List Entry :=
  store.entries.filter fun entry => !(entry.1 < lower) && upper.all (entry.1 < ·)

end Store

/-- Where a store is kept. -/
inductive Backend
  | memory
  /-- A table in the database at a path. -/
  | table (path : String)
  deriving DecidableEq, Repr

namespace Backend

/-- The entries whose keys begin with a lead, as a backend finds them. -/
def scan : Backend → Store → Bytes → List Entry
  | .memory, store, lead => store.cursor lead store.entries.length (.at lead)
  | .table _, store, lead => store.range lead (Store.above? lead)

/-- The first entries whose keys begin with a lead, or all of them without a limit. -/
def iterate (backend : Backend) (store : Store) (lead : Bytes) : Option Nat → List Entry
  | some limit => (backend.scan store lead).take limit
  | none => backend.scan store lead

/-- Whether what is stored outlasts the connection: a database at a path of its own does. -/
def persists : Backend → Bool
  | .memory => false
  | .table path => path ≠ "" && path ≠ ":memory:"

/-- What is stored after closing and opening again. -/
def reopen (backend : Backend) (store : Store) : Store :=
  if backend.persists then store else .empty

end Backend

/-! ## Requests -/

/-- One call on a store. -/
inductive Request
  | put (key value : Bytes)
  | delete (key : Bytes)
  | batch (changes : List Store.Change)
  | get (key : Bytes)
  | contains (key : Bytes)
  | scan (lead : Bytes)
  | iterate (lead : Bytes) (limit : Option Nat)
  deriving DecidableEq, Repr

/-- What a call on a store gives back. -/
inductive Answer
  | done
  | value (value : Option Bytes)
  | found (present : Bool)
  | entries (entries : List Entry)
  deriving DecidableEq, Repr

/-- Serves one call: the store after it and the answer. -/
def Backend.serve (backend : Backend) (store : Store) : Request → Store × Answer
  | .put key value => (store.insert key value, .done)
  | .delete key => (store.erase key, .done)
  | .batch changes => (store.apply changes, .done)
  | .get key => (store, .value (store.get? key))
  | .contains key => (store, .found (store.contains key))
  | .scan lead => (store, .entries (backend.scan store lead))
  | .iterate lead limit => (store, .entries (backend.iterate store lead limit))

end LinkRegistry
