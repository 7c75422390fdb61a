import LinkRegistry.Text.Utf8
import LinkRegistry.Text.LowerCase
import LinkRegistry.Text.Quoted

/-!
# Store keys

A key is the name of its family and its fields, with a zero byte before each field, so that no
field runs into the next. Keys of the earlier layout are one byte for the family and the fields
without anything between them.
-/

namespace LinkRegistry.Key

/-- The byte between the parts of a key. -/
def separator : UInt8 := 0

/-- A key of a family. -/
def compose (family : String) (fields : List Bytes) : Bytes :=
  Utf8.encode family ++ fields.flatMap (separator :: ·)

/-- The lead of every key of a family. -/
def scope (family : String) : Bytes := Utf8.encode family ++ [separator]

/-! ## Families -/

def chainLinks : String := "chain_links"

def chainLinkOwner : String := "chain_link_owner"

def defaultExternalAddress : String := "default_external_address"

def userApplicationLink : String := "user_application_link"

def clientIds : String := "client_id"

def dtags : String := "dtag"

def accounts : String := "account"

/-! ## Keys -/

def schemaVersion : Bytes := Utf8.encode "meta:schema_version"

/-- The key of a chain link. -/
def chainLink (owner chainName address : String) : Bytes :=
  compose chainLinks [Utf8.encode owner, Utf8.encode chainName, Utf8.encode address]

/-- The lead of the keys of an owner's chain links. -/
def userChainLinks (owner : String) : Bytes :=
  compose chainLinks [Utf8.encode owner] ++ [separator]

/-- The lead of the keys of an owner's chain links on one chain. -/
def userChainLinksByChain (owner chainName : String) : Bytes :=
  compose chainLinks [Utf8.encode owner, Utf8.encode chainName] ++ [separator]

/-- The key of the index entry that names an owner of a foreign address. -/
def ownerIndex (chainName address owner : String) : Bytes :=
  compose chainLinkOwner [Utf8.encode chainName, Utf8.encode address, Utf8.encode owner]

/-- The lead of the index entries of a foreign address. The owner follows it. -/
def ownerIndexOf (chainName address : String) : Bytes :=
  compose chainLinkOwner [Utf8.encode chainName, Utf8.encode address] ++ [separator]

/-- The key of an owner's default address on a chain. -/
def defaultAddress (owner chainName : String) : Bytes :=
  compose defaultExternalAddress [Utf8.encode owner, Utf8.encode chainName]

/-- The key of an application link. Applications and user names are taken in lower case. -/
def applicationLink (owner application username : String) : Bytes :=
  compose userApplicationLink
    [Utf8.encode owner, Utf8.encode (LowerCase.lower application),
      Utf8.encode (LowerCase.lower username)]

def clientId (client : String) : Bytes := compose clientIds [Utf8.encode client]

/-- The key of a tag, which is taken in lower case. -/
def dtag (tag : String) : Bytes := compose dtags [Utf8.encode (LowerCase.lower tag)]

def account (address : String) : Bytes := compose accounts [Utf8.encode address]

/-- The value of an index entry that says no more than that it is there. -/
def sentinel : Bytes := [1]

/-! ## The earlier layout -/

namespace Early

def dtagFamily : UInt8 := 0x10

def applicationLinkFamily : UInt8 := 0x11

def clientIdFamily : UInt8 := 0x12

def chainLinkFamily : UInt8 := 0x13

/-- A key of a family. -/
def compose (family : UInt8) (fields : List String) : Bytes :=
  family :: fields.flatMap Utf8.encode

def dtag (tag : String) : Bytes := compose dtagFamily [tag]

/-- The key of an application link. -/
def applicationLink (owner application username : String) : Bytes :=
  compose applicationLinkFamily [owner, application, username]

def clientId (client : String) : Bytes := compose clientIdFamily [client]

/-- The key of a chain link. -/
def chainLink (owner chainName address : String) : Bytes :=
  compose chainLinkFamily [owner, chainName, address]

end Early

/-! ## Printing -/

/-- The two lower-case hexadecimal digits of a byte. -/
def hexByte (byte : UInt8) : String :=
  String.ofList ((if byte < 16 then ['0'] else []) ++ Nat.toDigits 16 byte.toNat)

/-- A byte of a key as it is shown. -/
def displayByte (byte : UInt8) : String :=
  let character := Char.ofNat byte.toNat
  if byte = separator then "/"
  else if character = '\t' then "\\t"
  else if character = '\r' then "\\r"
  else if character = '\n' then "\\n"
  else if character = '\'' || character = '"' || character = '\\' then
    String.ofList ['\\', character]
  else if 0x20 ≤ byte && byte < 0x7F then String.singleton character
  else "\\x" ++ hexByte byte

/-- The printable form of a key: separators as slashes, and escapes for what cannot be shown. -/
def display (key : Bytes) : String := String.join (key.map displayByte)

end LinkRegistry.Key
