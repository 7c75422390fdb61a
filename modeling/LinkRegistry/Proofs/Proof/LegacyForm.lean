import LinkRegistry.Proofs.Json.Rendering
import LinkRegistry.Proofs.Text.Utf8
import LinkRegistry.Proofs.View.Fields

/-!
# The form of legacy sign-documents

Bytes are a legacy sign-document exactly if they are the text of a sound JSON value that lays out
the six fields of the document, one of which lays out the two fields of the fee. Main statement,
`LegacySignDocument.decoded_iff_laid_out`. The fields may stand as an array in their order, without
names: a document need not be an object.
-/

namespace LinkRegistry

open View (LaysOut Position)

/-- A JSON value lays out a fee. -/
def LegacyFee.LaidOut (fee : LegacyFee) (json : Json) : Prop :=
  LaysOut ["amount", "gas"] json [.array fee.amount, .ofText fee.gas]

/-- A JSON value lays out a legacy document, whose fee may be laid out in its own way. -/
def LegacySignDocument.LaidOut (document : LegacySignDocument) (json : Json) : Prop :=
  ∃ fee, document.fee.LaidOut fee
    ∧ LaysOut ["account_number", "chain_id", "fee", "memo", "msgs", "sequence"] json
        [.ofText document.accountNumber, .ofText document.chainId, fee, .ofText document.memo,
          .array document.messages, .ofText document.sequence]

/-! ## Fields -/

namespace View

variable {position : Position} {levels : Nat} {json : Json}

/-- An array of anything is read as it stands if its items are sound. -/
theorem soundItems_eq_some_iff {items : List Json} :
    soundItems (.direct (levels + 1)) json = some items
      ↔ json = .array items ∧ json.isSound (levels + 1) = true := by
  cases json with
  | array listed =>
    have kept : soundItems (.direct (levels + 1)) (.array listed) = some items
        ↔ List.Forall₂ (fun item result => item.isSound levels = true ∧ item = result)
            listed items := by
      simp only [soundItems, list, Position.inner, mapM_eq_some_iff, Option.ite_none_right_eq_some,
        Option.some.injEq]
    rw [kept, List.forall₂_and_left, List.forall₂_eq_eq_eq, Json.isSound_array, Json.array.injEq]
    exact and_comm
  | _ => simp [soundItems, list]

end View

section

variable {levels : Nat} {json : Json}

/-- What is read of a fee is what its layout says, as long as it is sound. -/
theorem LegacyFee.ofView?_eq_some_iff {fee : LegacyFee} :
    LegacyFee.ofView? (.direct (levels + 2)) json = some fee
      ↔ fee.LaidOut json ∧ json.isSound (levels + 2) = true := by
  have distinct : ["amount", "gas"].Nodup := by decide
  have room : (Position.direct (levels + 2)).inner = some (.direct (levels + 1)) := rfl
  constructor
  · intro read
    simp only [ofView?, Option.bind_eq_bind, Option.bind_eq_some_iff] at read
    -- The fields are there in some order, and each is read by a reader of its own.
    obtain ⟨⟨inner, found⟩, fields, read⟩ := read
    split at read
    next amount gas shape =>
      obtain rfl : found = [amount, gas].map some := shape
      obtain ⟨place, laid⟩ := (View.exactFields_eq_some_iff distinct).1 fields
      obtain rfl := Option.some.inj (room.symm.trans place)
      simp only [Option.bind_eq_some_iff] at read
      obtain ⟨amounts, ofAmount, limit, ofGas, same⟩ := read
      obtain ⟨rfl, sound⟩ := View.soundItems_eq_some_iff.1 ofAmount
      obtain rfl := View.text_eq_some_iff.1 ofGas
      obtain rfl := Option.some.inj same
      refine ⟨laid, laid.isSound_iff.2 ?_⟩
      simp [sound]
    next => cases read
  · intro ⟨laid, sound⟩
    have each := laid.isSound_iff.1 sound
    simp only [List.forall_mem_cons] at each
    have fields : View.exactFields ["amount", "gas"] (.direct (levels + 2)) json
        = some (.direct (levels + 1), [some (.array fee.amount), some (.ofText fee.gas)]) :=
      (View.exactFields_eq_some_iff distinct).2 ⟨room, laid⟩
    have ofAmount := View.soundItems_eq_some_iff.2 ⟨rfl, each.1⟩
    simp [ofView?, fields, ofAmount]

/-- What is read of a document is what its layout says, as long as it is sound. -/
theorem LegacySignDocument.ofView?_eq_some_iff {document : LegacySignDocument} :
    LegacySignDocument.ofView? (.direct (levels + 3)) json = some document
      ↔ document.LaidOut json ∧ json.isSound (levels + 3) = true := by
  have distinct : ["account_number", "chain_id", "fee", "memo", "msgs", "sequence"].Nodup := by
    decide
  have room : (Position.direct (levels + 3)).inner = some (.direct (levels + 2)) := rfl
  constructor
  · intro read
    simp only [ofView?, Option.bind_eq_bind, Option.bind_eq_some_iff] at read
    obtain ⟨⟨inner, found⟩, fields, read⟩ := read
    split at read
    next accountNumber chainId fee memo messages sequence shape =>
      obtain rfl : found = [accountNumber, chainId, fee, memo, messages, sequence].map some := shape
      obtain ⟨place, laid⟩ := (View.exactFields_eq_some_iff distinct).1 fields
      obtain rfl := Option.some.inj (room.symm.trans place)
      simp only [Option.bind_eq_some_iff] at read
      obtain ⟨_, ofAccountNumber, _, ofChainId, _, ofFee, _, ofMemo, _, ofMessages, _, ofSequence,
        same⟩ := read
      obtain rfl := View.text_eq_some_iff.1 ofAccountNumber
      obtain rfl := View.text_eq_some_iff.1 ofChainId
      obtain ⟨feeLaid, feeSound⟩ := LegacyFee.ofView?_eq_some_iff.1 ofFee
      obtain rfl := View.text_eq_some_iff.1 ofMemo
      obtain ⟨rfl, messagesSound⟩ := View.soundItems_eq_some_iff.1 ofMessages
      obtain rfl := View.text_eq_some_iff.1 ofSequence
      obtain rfl := Option.some.inj same
      -- Texts are sound in themselves, so only the fee and the messages remain.
      refine ⟨⟨fee, feeLaid, laid⟩, laid.isSound_iff.2 ?_⟩
      simp [feeSound, messagesSound]
    next => cases read
  · intro ⟨⟨fee, feeLaid, laid⟩, sound⟩
    have each := laid.isSound_iff.1 sound
    simp only [List.forall_mem_cons] at each
    obtain ⟨-, -, feeSound, -, messagesSound, -⟩ := each
    have fields : View.exactFields ["account_number", "chain_id", "fee", "memo", "msgs", "sequence"]
        (.direct (levels + 3)) json
        = some (.direct (levels + 2), [some (.ofText document.accountNumber),
            some (.ofText document.chainId), some fee, some (.ofText document.memo),
            some (.array document.messages), some (.ofText document.sequence)]) :=
      (View.exactFields_eq_some_iff distinct).2 ⟨room, laid⟩
    have ofFee := LegacyFee.ofView?_eq_some_iff.2 ⟨feeLaid, feeSound⟩
    have ofMessages := View.soundItems_eq_some_iff.2 ⟨rfl, messagesSound⟩
    simp [ofView?, fields, ofFee, ofMessages]

end

namespace LegacySignDocument

variable {content : Bytes} {document : LegacySignDocument}

theorem decode_eq_ok_iff :
    decode content = .ok document
      ↔ ∃ text json, Utf8.decode content = .ok text ∧ Json.parse? text = some json
        ∧ ofView? (.direct View.maximalDepth) json = some document := by
  unfold decode View.ofText?
  constructor
  · intro read
    split at read
    next => cases read
    next text strict =>
    split at read
    next own viewed =>
      obtain rfl := Except.ok.inj read
      split at viewed
      next json parsed => exact ⟨text, json, strict, parsed, viewed⟩
      next => cases viewed
    next => cases read
  · intro ⟨text, json, strict, parsed, viewed⟩
    simp [strict, parsed, viewed]

/-- Bytes are a legacy sign-document exactly if they are the text of a value that lays out its
fields, each once and no others, and that can be taken at its word. -/
theorem decoded_iff_laid_out :
    decode content = .ok document
      ↔ ∃ text json, Utf8.decode content = .ok text ∧ Json.parse? text = some json
        ∧ document.LaidOut json ∧ json.isSound View.maximalDepth = true := by
  rw [decode_eq_ok_iff]
  -- The document, its fee and the list of amounts are three levels of the greatest depth.
  have levels : View.maximalDepth = 124 + 3 := rfl
  simp only [levels, ofView?_eq_some_iff]

/-- A document without messages that costs nothing. -/
def idle : LegacySignDocument := ⟨"0", "c", ⟨[], "0"⟩, "m", [], "0"⟩

/-- Its fields in an array, and those of its fee in an array too. -/
def listed : Json :=
  .array [.ofText "0", .ofText "c", .array [.array [], .ofText "0"], .ofText "m", .array [],
    .ofText "0"]

theorem laidOut_listed : idle.LaidOut listed := ⟨_, .array rfl, .array rfl⟩

theorem isSimple_listed : listed.IsSimple := by
  have fee : (Json.array [.array [], .ofText "0"]).IsSimple :=
    .array (by simp [Json.IsSimple.text, Json.IsSimple.array])
  exact .array (by simp [Json.IsSimple.text, Json.IsSimple.array, fee])

/-- A legacy document need not be an object, nor need its fee be one. -/
theorem array_is_legacy_document :
    listed.render = "[\"0\",\"c\",[[],\"0\"],\"m\",[],\"0\"]"
      ∧ decode (Utf8.encode listed.render) = .ok idle
      ∧ Json.parse? listed.render = some listed ∧ ∀ members, listed ≠ .object members := by
  have parsed := isSimple_listed.parse?_render
  have sound : listed.isSound (124 + 3) = true := isSimple_listed.isSound_iff.2 (by decide)
  have decoded : decode (Utf8.encode listed.render) = .ok idle :=
    decode_eq_ok_iff.2 ⟨_, _, Utf8.decode_encode _, parsed,
      ofView?_eq_some_iff.2 ⟨laidOut_listed, sound⟩⟩
  exact ⟨by decide +kernel, decoded, parsed, fun _ => Json.noConfusion⟩

end LegacySignDocument

end LinkRegistry
