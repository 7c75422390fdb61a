import LinkRegistry.LinkError
import LinkRegistry.Binary.Codec
import LinkRegistry.View.Basic

/-!
# Sign-documents

The documents that a foreign wallet may have wrapped a plaintext in: a binary one, whose body
carries the memo, and a legacy one in JSON. The codecs that recognise them are a parameter of
everything that looks at plaintexts.
-/

namespace LinkRegistry

/-- The canonical binary sign-document. -/
structure DirectSignDocument where
  /-- The encoded transaction body. -/
  bodyBytes : Bytes
  authInfoBytes : Bytes
  chainId : String
  accountNumber : UInt64

/-- The transaction body inside a binary sign-document. -/
structure TransactionBody where
  messages : List Bytes
  memo : String
  timeoutHeight : UInt64

/-- The fee of a legacy sign-document. -/
structure LegacyFee where
  amount : List Json
  gas : String

/-- The legacy JSON sign-document. -/
structure LegacySignDocument where
  accountNumber : String
  chainId : String
  fee : LegacyFee
  memo : String
  messages : List Json
  sequence : String

open Binary.Codec (text word64 bytes)

def DirectSignDocument.codec : Binary.Codec DirectSignDocument :=
  (bytes.pair (bytes.pair (text.pair word64))).via
    (fun (bodyBytes, authInfoBytes, chainId, accountNumber) =>
      ⟨bodyBytes, authInfoBytes, chainId, accountNumber⟩)
    (fun document =>
      (document.bodyBytes, document.authInfoBytes, document.chainId, document.accountNumber))

def TransactionBody.codec : Binary.Codec TransactionBody :=
  (bytes.list.pair (text.pair word64)).via
    (fun (messages, memo, timeoutHeight) => ⟨messages, memo, timeoutHeight⟩)
    (fun body => (body.messages, body.memo, body.timeoutHeight))

/-! ## The legacy document -/

/-- The fields of a record that knows no members but its own. -/
def View.exactFields (names : List String) (position : View.Position) (json : Json) :
    Option (View.Position × List (Option Json)) :=
  match json with
  | .object members =>
    if members.all fun (name, _) => name.any names.contains then View.fields names position json
    else none
  | json => View.fields names position json

/-- Reads an array whose items may be anything sound. -/
def View.soundItems : View.Reader (List Json) :=
  View.list fun position json =>
    match position with
    | .direct levels => if json.isSound levels then some json else none
    | .buffered => some json

def LegacyFee.ofView? : View.Reader LegacyFee := fun position json => do
  let (inner, values) ← View.exactFields ["amount", "gas"] position json
  match values with
  | [some amount, some gas] => some ⟨← View.soundItems inner amount, ← View.text inner gas⟩
  | _ => none

def LegacySignDocument.ofView? : View.Reader LegacySignDocument := fun position json => do
  let (inner, values) ←
    View.exactFields ["account_number", "chain_id", "fee", "memo", "msgs", "sequence"] position json
  match values with
  | [some accountNumber, some chainId, some fee, some memo, some messages, some sequence] =>
    some
      ⟨← View.text inner accountNumber, ← View.text inner chainId, ← LegacyFee.ofView? inner fee,
        ← View.text inner memo, ← View.soundItems inner messages, ← View.text inner sequence⟩
  | _ => none

/-- Reads bytes as a legacy sign-document. -/
def LegacySignDocument.decode (bytes : Bytes) : Except LinkError LegacySignDocument :=
  match Utf8.decode bytes with
  | .error _ => .error (.decode .legacyDocument)
  | .ok text =>
    match View.ofText? LegacySignDocument.ofView? text with
    | some document => .ok document
    | none => .error (.decode .legacyDocument)

/-! ## Codecs -/

/-- The readers and the writer that plaintexts are recognised with. -/
structure SignDocumentCodecs where
  decodeLegacy : Bytes → Except LinkError LegacySignDocument
  decodeDirect : Bytes → Except LinkError DirectSignDocument
  encodeDirect : DirectSignDocument → Except LinkError Bytes
  decodeBody : Bytes → Except LinkError TransactionBody

/-- Reads bytes as a binary sign-document. -/
def DirectSignDocument.decode (content : Bytes) : Except LinkError DirectSignDocument :=
  match codec.decode content with
  | .ok document => .ok document
  | .error error => .error (.ofBinary error)

/-- The bytes of a binary sign-document. -/
def DirectSignDocument.encode (document : DirectSignDocument) : Except LinkError Bytes :=
  match codec.encode? document with
  | some content => .ok content
  | none => .error (.decode (.oversized none))

/-- Reads bytes as a transaction body. -/
def TransactionBody.decode (content : Bytes) : Except LinkError TransactionBody :=
  match codec.decode content with
  | .ok body => .ok body
  | .error error => .error (.ofBinary error)

/-- The codecs of both documents in their standard formats. -/
def SignDocumentCodecs.standard : SignDocumentCodecs where
  decodeLegacy := LegacySignDocument.decode
  decodeDirect := DirectSignDocument.decode
  encodeDirect := DirectSignDocument.encode
  decodeBody := TransactionBody.decode

end LinkRegistry
