import LinkRegistry.Bytes

/-!
# UTF-8

A byte string is cut into pieces: characters, stretches of one to three bytes that begin no
character, and a last stretch that stops in the middle of one. Strict reading fails at the first
piece that is no character and says where it begins; lenient reading puts U+FFFD in its place.
-/

namespace LinkRegistry.Utf8

/-- One piece of a byte string read as UTF-8. -/
inductive Piece
  /-- A well-formed character. -/
  | character (value : Char)
  /-- So many bytes that begin no character. -/
  | malformed (length : Nat)
  /-- The input ends inside a character. -/
  | incomplete
  deriving DecidableEq, Repr

/-- Whether a byte continues a character begun before it. -/
def isContinuation (byte : UInt8) : Bool := 0x80 ≤ byte && byte ≤ 0xBF

/-- Whether the second byte of a three-byte character may follow its first: no overlong form and no
surrogate. -/
def startsThree (first second : UInt8) : Bool :=
  if first = 0xE0 then 0xA0 ≤ second && second ≤ 0xBF
  else if first = 0xED then 0x80 ≤ second && second ≤ 0x9F
  else isContinuation second

/-- Whether the second byte of a four-byte character may follow its first: no overlong form and
nothing beyond U+10FFFF. -/
def startsFour (first second : UInt8) : Bool :=
  if first = 0xF0 then 0x90 ≤ second && second ≤ 0xBF
  else if first = 0xF4 then 0x80 ≤ second && second ≤ 0x8F
  else isContinuation second

/-- The six low bits that a continuation byte carries. -/
def payload (byte : UInt8) : Nat := byte.toNat % 64

/-- The character of two bytes. -/
def ofTwo (first second : UInt8) : Char :=
  Char.ofNat (first.toNat % 32 * 64 + payload second)

/-- The character of three bytes. -/
def ofThree (first second third : UInt8) : Char :=
  Char.ofNat ((first.toNat % 16 * 64 + payload second) * 64 + payload third)

/-- The character of four bytes. -/
def ofFour (first second third fourth : UInt8) : Char :=
  Char.ofNat (((first.toNat % 8 * 64 + payload second) * 64 + payload third) * 64 + payload fourth)

/-- Cuts a byte string into its pieces, each as long as a well-formed beginning reaches. -/
def pieces : Bytes → List Piece
  | [] => []
  | first :: rest =>
    if first < 0x80 then .character (Char.ofNat first.toNat) :: pieces rest
    else if first < 0xC2 || 0xF4 < first then .malformed 1 :: pieces rest
    else
      match rest with
      | [] => [.incomplete]
      | second :: rest₁ =>
        if first < 0xE0 then
          if isContinuation second then .character (ofTwo first second) :: pieces rest₁
          else .malformed 1 :: pieces (second :: rest₁)
        else if first < 0xF0 then
          if startsThree first second then
            match rest₁ with
            | [] => [.incomplete]
            | third :: rest₂ =>
              if isContinuation third then .character (ofThree first second third) :: pieces rest₂
              else .malformed 2 :: pieces (third :: rest₂)
          else .malformed 1 :: pieces (second :: rest₁)
        else if startsFour first second then
          match rest₁ with
          | [] => [.incomplete]
          | third :: rest₂ =>
            if isContinuation third then
              match rest₂ with
              | [] => [.incomplete]
              | fourth :: rest₃ =>
                if isContinuation fourth then
                  .character (ofFour first second third fourth) :: pieces rest₃
                else .malformed 3 :: pieces (fourth :: rest₃)
            else .malformed 2 :: pieces (third :: rest₂)
        else .malformed 1 :: pieces (second :: rest₁)

/-- Where strict reading fails. -/
structure Error where
  /-- The number of bytes before the first piece that is no character. -/
  index : Nat
  /-- The length of that piece, or `none` if the input ends inside a character. -/
  length : Option Nat
  deriving DecidableEq, Repr

def Error.message (error : Error) : String :=
  match error.length with
  | some length => s!"invalid utf-8 sequence of {length} bytes from index {error.index}"
  | none => s!"incomplete utf-8 byte sequence from index {error.index}"

def encodeChar (character : Char) : Bytes := String.utf8EncodeChar character

def encode (text : String) : Bytes := text.toList.flatMap encodeChar

/-- The characters of a list of pieces that begins at a byte index, if all are characters. -/
def characters (index : Nat) : List Piece → Except Error (List Char)
  | [] => .ok []
  | .character value :: rest =>
    match characters (index + (encodeChar value).length) rest with
    | .ok values => .ok (value :: values)
    | .error error => .error error
  | .malformed length :: _ => .error ⟨index, some length⟩
  | .incomplete :: _ => .error ⟨index, none⟩

/-- Reads a byte string as text, all of it or not at all. -/
def decode (bytes : Bytes) : Except Error String :=
  match characters 0 (pieces bytes) with
  | .ok values => .ok (String.ofList values)
  | .error error => .error error

/-- The character that stands for a piece in lenient reading. -/
def Piece.replacement : Piece → Char
  | .character value => value
  | .malformed _ | .incomplete => '\uFFFD'

/-- Reads a byte string as text with U+FFFD for every piece that is no character. -/
def decodeLenient (bytes : Bytes) : String :=
  String.ofList ((pieces bytes).map Piece.replacement)

example : decode [0xE6, 0x97, 0xA5] = .ok "日" := rfl
example : decode [0x61, 0xE6, 0x97] = .error ⟨1, none⟩ := rfl
example : decode [0x61, 0xED, 0xA0, 0x80] = .error ⟨1, some 1⟩ := rfl
example : decodeLenient [0xF4, 0x90, 0x80, 0x80] = "\uFFFD\uFFFD\uFFFD\uFFFD" := by decide

end LinkRegistry.Utf8
