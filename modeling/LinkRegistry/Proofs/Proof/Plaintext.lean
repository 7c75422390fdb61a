import LinkRegistry.Proofs.Binary.Records
import LinkRegistry.Proofs.Json.Extent
import LinkRegistry.Proofs.Proof.Enclosed
import LinkRegistry.Proofs.Proof.LegacyForm

/-!
# Plaintexts of one kind

A plaintext of moderate size is never two of the three: an account as text, a binary sign-document,
and a legacy one in JSON. A binary document begins with the length of its body, and from characters
that may stand in texts there comes an enormous one. An account ends with a digit of its alphabet,
and a legacy document with a brace or a bracket.
-/

namespace LinkRegistry

/-! ## Binary documents -/

/-- Four bytes that are no control characters before the tab are a large number. -/
theorem Bytes.le_ofLittleEndian {bytes : Bytes} (texts : ∀ byte ∈ bytes, 9 ≤ byte.toNat)
    (width : bytes.length = 4) : 0x09090909 ≤ ofLittleEndian bytes := by
  match bytes, width with
  | [a, b, c, d], _ =>
    simp only [List.forall_mem_cons] at texts
    obtain ⟨first, second, third, fourth, -⟩ := texts
    simp only [ofLittleEndian]
    omega

/-- A binary document is longer than the number that its first four bytes are. -/
theorem DirectSignDocument.lt_length_of_decode {content : Bytes} {document : DirectSignDocument}
    (found : DirectSignDocument.decode content = .ok document) :
    4 ≤ content.length ∧ Bytes.ofLittleEndian (content.take 4) < content.length := by
  have read : codec.read content = .ok (document, []) := by
    rw [DirectSignDocument.decode] at found
    split at found
    · next own decoded =>
      obtain rfl := Except.ok.inj found
      exact Binary.Codec.read_of_decode decoded
    · cases found
  -- The first field of the first part is the body, which stands behind its length.
  obtain ⟨parts, _, read, -⟩ := Binary.Reader.andThen_eq_ok_iff.1 read
  obtain ⟨body, _, read, -⟩ := Binary.Reader.andThen_eq_ok_iff.1 read
  obtain ⟨length, _, counted, taken⟩ := Binary.Reader.andThen_eq_ok_iff.1 read
  obtain ⟨front, _, four, same⟩ := Binary.Reader.andThen_eq_ok_iff.1 counted
  obtain ⟨wide, rfl, rfl⟩ := Binary.Reader.bytes_eq_ok_iff.1 four
  obtain ⟨rfl, rfl⟩ := Prod.mk.inj (Except.ok.inj same)
  obtain ⟨long, -, -⟩ := Binary.Reader.bytes_eq_ok_iff.1 taken
  rw [List.length_drop] at long
  exact ⟨wide, by omega⟩

/-- Bytes of a text of moderate size are no binary document. -/
theorem isCanonicalDirect_eq_false {plaintext : Bytes} (texts : ∀ byte ∈ plaintext, 9 ≤ byte.toNat)
    (moderate : plaintext.length < 0x09090909) :
    SignDocumentCodecs.standard.isCanonicalDirect plaintext = false := by
  rw [SignDocumentCodecs.isCanonicalDirect]
  split
  · rfl
  · next document found =>
    -- The body alone would be longer than all there is.
    obtain ⟨wide, long⟩ := DirectSignDocument.lt_length_of_decode found
    have four : (plaintext.take 4).length = 4 := List.length_take_of_le wide
    have large := Bytes.le_ofLittleEndian
      (fun byte member => texts byte (List.mem_of_mem_take member)) four
    omega

/-! ## Legacy documents -/

/-- A legacy document is the text of an array or an object. -/
theorem LegacySignDocument.exists_json_of_decode {content : Bytes} {document : LegacySignDocument}
    (found : LegacySignDocument.decode content = .ok document) :
    ∃ json, Json.parse? (Utf8.decodeLenient content) = some json
      ∧ (json.closing = [']'] ∨ json.closing = ['}']) := by
  obtain ⟨text, json, strict, parsed, viewed⟩ := LegacySignDocument.decode_eq_ok_iff.1 found
  obtain ⟨⟨_, _, laid⟩, -⟩ := LegacySignDocument.ofView?_eq_some_iff.1 viewed
  rw [Utf8.decodeLenient_of_decode strict]
  refine ⟨json, parsed, ?_⟩
  -- The fields of a record stand in an array or in an object.
  cases laid with
  | array => exact .inl rfl
  | object => exact .inr rfl

theorem LegacySignDocument.texts_of_decode {content : Bytes} {document : LegacySignDocument}
    (found : LegacySignDocument.decode content = .ok document) :
    ∀ byte ∈ content, 9 ≤ byte.toNat := by
  obtain ⟨json, parsed, -⟩ := LegacySignDocument.exists_json_of_decode found
  intro byte member
  refine Utf8.le_of_le_decodeLenient (by decide) (fun character inside => ?_) member
  rcases Json.isPlaced_of_parse? parsed character inside with blank | visible
  · exact (Json.Parser.bounds_of_isBlank blank).1
  · exact Nat.le_trans (by decide) visible

/-- The text of an array or an object is no account. -/
theorem not_isAccount_of_parse? {text : String} {json : Json}
    (parsed : Json.parse? text = some json) (ends : json.closing = [']'] ∨ json.closing = ['}']) :
    ¬ IsAccount text := by
  rintro ⟨reading, found, -⟩
  obtain ⟨blanks, blank, taken, split, -⟩ := Json.exists_takes_of_parse? parsed
  have visible := Bech32.visible_of_read found
  -- An account holds no blanks, so the brace or bracket is its last character.
  have none : blanks = [] := by
    refine List.eq_nil_iff_forall_not_mem.2 fun character member => ?_
    have large := visible character (by simp [split, member])
    have small := (Json.Parser.bounds_of_isBlank (blank character member)).2
    omega
  obtain ⟨front, last, whole, digit⟩ := Bech32.exists_last_of_read found
  rw [split, none, List.append_nil] at whole
  rcases ends with bracket | brace
  · rw [bracket] at whole
    obtain rfl : ']' = last := by simpa using (List.append_inj' whole rfl).2
    exact absurd digit (by decide)
  · rw [brace] at whole
    obtain rfl : '}' = last := by simpa using (List.append_inj' whole rfl).2
    exact absurd digit (by decide)

/-! ## Value types -/

section

variable {plaintext : Bytes}

theorem isLegacyJson_iff {codecs : SignDocumentCodecs} :
    codecs.isLegacyJson plaintext = true
      ↔ ∃ document, codecs.decodeLegacy plaintext = .ok document := by
  cases found : codecs.decodeLegacy plaintext <;> simp [SignDocumentCodecs.isLegacyJson, found]

theorem classify_eq_direct_iff {codecs : SignDocumentCodecs} :
    codecs.classify plaintext = .direct ↔ codecs.isCanonicalDirect plaintext = true := by
  rw [SignDocumentCodecs.classify]
  split
  · next direct => simp [direct]
  · next other => split <;> simp [other]

theorem classify_eq_legacyJson_iff {codecs : SignDocumentCodecs} :
    codecs.classify plaintext = .legacyJson
      ↔ codecs.isCanonicalDirect plaintext = false ∧ codecs.isLegacyJson plaintext = true := by
  rw [SignDocumentCodecs.classify]
  split
  · next direct => simp [direct]
  · next other => split <;> next legacy => simp [other, legacy]

/-- An account as text is neither kind of document. -/
theorem classify_of_isAccount (account : IsAccount (Utf8.decodeLenient plaintext))
    (moderate : plaintext.length < 0x09090909) :
    SignDocumentCodecs.standard.classify plaintext = .raw := by
  obtain ⟨reading, found, -⟩ := id account
  have texts (byte : UInt8) (member : byte ∈ plaintext) : 9 ≤ byte.toNat := by
    have visible := Utf8.le_of_le_decodeLenient (by decide) (Bech32.visible_of_read found) member
    omega
  have notLegacy : SignDocumentCodecs.standard.isLegacyJson plaintext = false := by
    refine Bool.eq_false_iff.2 fun legacy => ?_
    obtain ⟨document, decoded⟩ := isLegacyJson_iff.1 legacy
    obtain ⟨json, parsed, ends⟩ := LegacySignDocument.exists_json_of_decode decoded
    exact not_isAccount_of_parse? parsed ends account
  simp [SignDocumentCodecs.classify, isCanonicalDirect_eq_false texts moderate, notLegacy]

/-- A legacy document is not also a binary one, which would take precedence. -/
theorem classify_of_decodeLegacy {document : LegacySignDocument}
    (decoded : LegacySignDocument.decode plaintext = .ok document)
    (moderate : plaintext.length < 0x09090909) :
    SignDocumentCodecs.standard.classify plaintext = .legacyJson := by
  have notDirect := isCanonicalDirect_eq_false (LegacySignDocument.texts_of_decode decoded) moderate
  exact classify_eq_legacyJson_iff.2 ⟨notDirect, isLegacyJson_iff.2 ⟨document, decoded⟩⟩

/-- Every binary document is written as the bytes that it was read from. -/
theorem isCanonicalDirect_iff :
    SignDocumentCodecs.standard.isCanonicalDirect plaintext = true
      ↔ ∃ document, DirectSignDocument.decode plaintext = .ok document := by
  constructor
  · intro canonical
    rw [SignDocumentCodecs.isCanonicalDirect] at canonical
    split at canonical
    · cases canonical
    · next document found => exact ⟨document, found⟩
  · rintro ⟨document, found⟩
    have read : DirectSignDocument.codec.decode plaintext = .ok document := by
      rw [DirectSignDocument.decode] at found
      split at found
      · next own decoded => rwa [← Except.ok.inj found]
      · cases found
    have written := DirectSignDocument.faithful.encode_of_decode read
    simp [SignDocumentCodecs.isCanonicalDirect, SignDocumentCodecs.standard, found,
      DirectSignDocument.encode, written]

/-- No bytes of moderate size are both documents, so it makes no difference which of them takes
precedence: a plaintext has the value type of a document exactly if it reads as that document. -/
theorem classify_by_reading (moderate : plaintext.length < 0x09090909) :
    ¬ ((∃ document, SignDocumentCodecs.standard.decodeLegacy plaintext = .ok document)
        ∧ SignDocumentCodecs.standard.isCanonicalDirect plaintext = true)
      ∧ (SignDocumentCodecs.standard.classify plaintext = .legacyJson
        ↔ ∃ document, SignDocumentCodecs.standard.decodeLegacy plaintext = .ok document)
      ∧ (SignDocumentCodecs.standard.classify plaintext = .direct
        ↔ ∃ document, SignDocumentCodecs.standard.decodeDirect plaintext = .ok document)
      ∧ SignDocumentCodecs.standard.classify plaintext
        = if SignDocumentCodecs.standard.isLegacyJson plaintext then .legacyJson
          else if SignDocumentCodecs.standard.isCanonicalDirect plaintext then .direct
          else .raw := by
  -- The characters of a legacy document would be the length of an enormous body.
  have apart (legacy : SignDocumentCodecs.standard.isLegacyJson plaintext = true) :
      SignDocumentCodecs.standard.isCanonicalDirect plaintext = false := by
    obtain ⟨document, decoded⟩ := isLegacyJson_iff.1 legacy
    exact isCanonicalDirect_eq_false (LegacySignDocument.texts_of_decode decoded) moderate
  refine ⟨?_, ?_, classify_eq_direct_iff.trans isCanonicalDirect_iff, ?_⟩
  · rintro ⟨legacy, canonical⟩
    rw [apart (isLegacyJson_iff.2 legacy)] at canonical
    cases canonical
  · rw [classify_eq_legacyJson_iff, ← isLegacyJson_iff]
    exact ⟨And.right, fun legacy => ⟨apart legacy, legacy⟩⟩
  · rw [SignDocumentCodecs.classify]
    cases legacy : SignDocumentCodecs.standard.isLegacyJson plaintext with
    | true => simp [apart legacy]
    | false => simp

end

/-- A legacy document without messages. -/
def emptyLegacyDocument : Bytes :=
  let fee := "\x7b\"amount\":[],\"gas\":\"0\"\x7d"
  let rest := "\"memo\":\"m\",\"msgs\":[],\"sequence\":\"0\""
  Utf8.encode ("\x7b\"account_number\":\"0\",\"chain_id\":\"c\",\"fee\":" ++ fee ++ "," ++ rest
    ++ "\x7d")

theorem classify_by_reading_emptyLegacyDocument :
    emptyLegacyDocument.length < 0x09090909
      ∧ SignDocumentCodecs.standard.classify emptyLegacyDocument = .legacyJson
      ∧ SignDocumentCodecs.standard.isCanonicalDirect emptyLegacyDocument = false := by
  have moderate : emptyLegacyDocument.length < 0x09090909 := by decide +kernel
  have legacy : SignDocumentCodecs.standard.isLegacyJson emptyLegacyDocument = true := by
    decide +kernel
  obtain ⟨apart, ofLegacy, -, -⟩ := classify_by_reading moderate
  exact ⟨moderate, ofLegacy.2 (isLegacyJson_iff.1 legacy),
    Bool.eq_false_iff.2 fun canonical => apart ⟨isLegacyJson_iff.1 legacy, canonical⟩⟩

end LinkRegistry
