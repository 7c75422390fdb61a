import LinkRegistry.Text.Utf8

/-!
# Reading binary records

A record is its fields one after another. Numbers have a fixed width and are little-endian; texts,
byte strings and lists carry their length in four bytes before them; a choice carries a tag byte.
A reader takes what it needs off the front of a byte string and fails at the first problem.
-/

namespace LinkRegistry.Binary

/-- Why bytes are not a record. -/
inductive Error
  /-- The bytes end before the record does. -/
  | endOfInput
  /-- Bytes are left after the record. -/
  | trailingBytes
  /-- A choice carries a tag that names none of its cases. -/
  | badTag (tag : UInt8)
  /-- An optional field is marked neither absent nor present. -/
  | badOption (flag : UInt8)
  /-- A text is not well-formed. -/
  | badText (error : Utf8.Error)
  /-- A choice that later versions may extend carries a tag that this one does not know. -/
  | unknownVariant (kind : String) (tag : UInt8)
  deriving DecidableEq, Repr

def Error.message : Error → String
  | .endOfInput => "Unexpected length of input"
  | .trailingBytes => "Not all bytes read"
  | .badTag tag => s!"Unexpected variant tag: {tag.toNat}"
  | .badOption flag =>
    s!"Invalid Option representation: {flag.toNat}. The first byte must be 0 or 1"
  | .badText error => error.message
  | .unknownVariant kind tag => s!"unknown {kind} tag {tag.toNat}"

/-- Takes a value off the front of a byte string, giving it with the rest. -/
abbrev Reader (α : Type) := Bytes → Except Error (α × Bytes)

namespace Reader

variable {α β : Type}

def pure (value : α) : Reader α := fun bytes => .ok (value, bytes)

/-- Takes one value, then another that may depend on it. -/
def andThen (first : Reader α) (next : α → Reader β) : Reader β := fun bytes =>
  match first bytes with
  | .ok (value, rest) => next value rest
  | .error error => .error error

/-- Changes the value taken. -/
def map (change : α → β) (reader : Reader α) : Reader β :=
  reader.andThen fun value => pure (change value)

def fail (error : Error) : Reader α := fun _ => .error error

/-- Takes one byte. -/
def byte : Reader UInt8
  | [] => .error .endOfInput
  | first :: rest => .ok (first, rest)

/-- Takes so many bytes. -/
def bytes (count : Nat) : Reader Bytes := fun input =>
  if count ≤ input.length then .ok (input.take count, input.drop count) else .error .endOfInput

/-- Takes a little-endian number of so many bytes. -/
def number (width : Nat) : Reader Nat := (bytes width).map Bytes.ofLittleEndian

/-- Takes so many values. -/
def list (item : Reader α) : Nat → Reader (List α)
  | 0 => pure []
  | count + 1 => item.andThen fun first => (list item count).map (first :: ·)

end Reader

end LinkRegistry.Binary
