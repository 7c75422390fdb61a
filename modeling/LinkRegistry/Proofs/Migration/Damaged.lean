import LinkRegistry.Proofs.Binary.Damage
import LinkRegistry.Proofs.Migration.Refusals

/-!
# Passes over damaged records

A pass that decodes the records it visits begins with reading, so damage to a record ends it with
the cause and the key of the record. Nothing has been decided for that record then, and nothing is
written: the whole pass fails on any store that holds it, and every step with it. Main statement,
`damage_ends_passes`.
-/

namespace LinkRegistry.Migration

open Binary Binary.Codec

section Reading

variable {α β : Type} {codec : Codec α} {key content : Bytes} {cause : LinkError}

theorem readRecord_eq_error (failed : codec.load content = .error cause) :
    readRecord codec key content = .error (.record key cause) := by
  rw [load] at failed
  cases read : codec.decode content with
  | ok value => simp [read, Except.mapError] at failed
  | error error =>
    obtain rfl : LinkError.ofBinary error = cause := by simpa [read, Except.mapError] using failed
    simp [readRecord, read]

/-- What a pass does after reading does not matter for a record that cannot be read. -/
theorem readRecord_bind_eq_error {next : α → Except MigrationError β}
    (failed : codec.load content = .error cause) :
    (readRecord codec key content >>= next) = .error (.record key cause) :=
  bind_eq_error_iff.2 (.inl (readRecord_eq_error failed))

end Reading

section Failing

variable {pass : Pass} {store : Store} {key content : Bytes}

theorem Pass.exists_run_eq_error (under : pass.scope <+: key) (held : store.get? key = some content)
    (refused : pass.Refuses key content) : ∃ error, pass.run store = .error error := by
  obtain ⟨error, failed⟩ :=
    Pass.exists_decide_eq_error_iff.2 ⟨key, content, under, held, refused⟩
  exact ⟨error, map_eq_error_iff.2 (bind_eq_error_iff.2 (.inl failed))⟩

/-- A step lands none of its passes if one of them refuses a record. -/
theorem Step.exists_run_eq_error {step : Step} (member : pass ∈ step.passes)
    (under : pass.scope <+: key) (held : store.get? key = some content)
    (refused : pass.Refuses key content) : ∃ error, step.run store = .error error := by
  cases ran : step.run store with
  | error error => exact ⟨error, rfl⟩
  | ok result =>
    obtain ⟨changes, reports, planned, -, -⟩ := Step.run_eq_ok_iff.1 ran
    obtain ⟨own, each⟩ := step.planned planned pass member
    -- A plan of the step holds a decision for every record under the scope.
    obtain ⟨outcome, transformed⟩ := each.decides key content under held
    obtain ⟨error, failed⟩ := refused
    cases failed.symm.trans transformed

end Failing

/-! ## The standard passes -/

/-- The passes that decode the records they visit, each with the damage it may meet. -/
def decodingPasses (codecs : SignDocumentCodecs) : List (Pass × (Bytes → LinkError → Prop)) :=
  [(accounts, FlatAccount.codec.Damaged FlatAccount.tagPlaces),
    (applicationLinks, ApplicationLink.codec.Damaged fun _ => []),
    (chainLinks, BareChainLink.codec.Damaged BareChainLink.tagPlaces),
    (chainLinkEnvelopes codecs, BareChainLink.codec.Damaged BareChainLink.tagPlaces),
    (chainLinkVerification codecs, ChainLink.codec.Damaged ChainLink.tagPlaces),
    (chainLinkTags codecs, ChainLink.codec.Damaged ChainLink.tagPlaces)]

/-- Every one of them reads before it does anything else, in a format that tells damage. -/
theorem reads_of_mem_decodingPasses {codecs : SignDocumentCodecs} {pass : Pass}
    {damages : Bytes → LinkError → Prop} (member : (pass, damages) ∈ decodingPasses codecs) :
    ∃ (α : Type) (codec : Codec α) (places : α → List TagPlace),
      damages = codec.Damaged places ∧ codec.TellsDamage places
        ∧ ∀ key content cause, codec.load content = .error cause →
            pass.transform key content = .error (.record key cause) := by
  simp only [decodingPasses, List.mem_cons, List.not_mem_nil, or_false, Prod.mk.injEq] at member
  rcases member with ⟨rfl, rfl⟩ | ⟨rfl, rfl⟩ | ⟨rfl, rfl⟩ | ⟨rfl, rfl⟩ | ⟨rfl, rfl⟩ | ⟨rfl, rfl⟩
  · exact ⟨_, _, _, rfl, FlatAccount.tellsDamage, fun _ _ _ => readRecord_bind_eq_error⟩
  · exact ⟨_, _, _, rfl, ApplicationLink.tellsDamage, fun _ _ _ => readRecord_bind_eq_error⟩
  · exact ⟨_, _, _, rfl, BareChainLink.tellsDamage, fun _ _ _ => readRecord_bind_eq_error⟩
  · exact ⟨_, _, _, rfl, BareChainLink.tellsDamage, fun _ _ _ => readRecord_bind_eq_error⟩
  · exact ⟨_, _, _, rfl, ChainLink.tellsDamage, fun _ _ _ => readRecord_bind_eq_error⟩
  · exact ⟨_, _, _, rfl, ChainLink.tellsDamage, fun _ _ _ => readRecord_bind_eq_error⟩

/-- Every stored record shows the places of its tags, and reading it tells an unknown tag at any of
them, an end that is missing and bytes behind the end. A pass that decodes such a record ends there
with that cause, which is fatal, and neither the pass nor a step with it changes a store that holds
the record. -/
theorem damage_ends_passes (codecs : SignDocumentCodecs) :
    (Account.codec.TellsDamage Account.tagPlaces
        ∧ FlatAccount.codec.TellsDamage FlatAccount.tagPlaces
        ∧ ApplicationLink.codec.TellsDamage (fun _ => [])
        ∧ ChainLink.codec.TellsDamage ChainLink.tagPlaces
        ∧ BareChainLink.codec.TellsDamage BareChainLink.tagPlaces)
      ∧ (DecodeFault.message (.record .endOfInput) = "Unexpected length of input"
        ∧ DecodeFault.message (.record .trailingBytes) = "Not all bytes read")
      ∧ ∀ pass damages, (pass, damages) ∈ decodingPasses codecs →
        ∀ key content cause, damages content cause →
          cause.isFatal = true
            ∧ pass.transform key content = .error (.record key cause)
            ∧ ∀ store, pass.scope <+: key → store.get? key = some content →
                (∃ error, pass.run store = .error error)
                  ∧ ∀ step : Step, pass ∈ step.passes →
                    ∃ error, step.run store = .error error := by
  refine ⟨⟨Account.tellsDamage, FlatAccount.tellsDamage, ApplicationLink.tellsDamage,
    ChainLink.tellsDamage, BareChainLink.tellsDamage⟩, ⟨rfl, rfl⟩, ?_⟩
  intro pass damages decodes key content cause damaged
  obtain ⟨α, codec, places, rfl, tells, reads⟩ := reads_of_mem_decodingPasses decodes
  have refused := reads key content cause (tells.told content cause damaged)
  refine ⟨damaged.isFatal, refused, fun store under held => ⟨?_, ?_⟩⟩
  · exact Pass.exists_run_eq_error under held ⟨_, refused⟩
  · intro step member
    exact Step.exists_run_eq_error member under held ⟨_, refused⟩

/-- A link with a threshold key inside a threshold key and an envelope inside an envelope. -/
def layeredLink : ChainLink where
  owner := "o"
  address := .base58 "2"
  proof :=
    { publicKey := .multisig 1 [.ed25519 [7], .multisig 2 [.secp256k1 []]]
      signature := .multi ⟨2, [3]⟩ [.single .raw [8], .multi ⟨1, [1]⟩ [.single .direct [9]]]
      plaintextHex := "ab" }
  chainName := "c"
  creationTime := 5

/-- Its innermost value type is spoiled, its end is lost, or a byte is put behind it. -/
theorem damage_ends_passes_layeredLink :
    (layeredLink.tagPlaces.map TagPlace.kind
        = [.address, .publicKey, .publicKey, .publicKey, .publicKey, .signature, .signature,
          .valueType, .signature, .signature, .valueType])
      ∧ ∃ record, ChainLink.codec.encode? layeredLink = some record
        ∧ (∃ place ∈ layeredLink.tagPlaces, place.before.length = 76
          ∧ (chainLinkTags .standard).transform layeredLink.key (place.before ++ [9, 8])
            = .error (.record layeredLink.key (.unsupportedVariant "value type" 9)))
        ∧ (chainLinkTags .standard).transform layeredLink.key (record.take 86)
          = .error (.record layeredLink.key (.decode (.record .endOfInput)))
        ∧ ∃ error, (chainLinkTags .standard).run
            (Store.empty.insert layeredLink.key (record ++ [0])) = .error error := by
  have written : ChainLink.codec.encode? layeredLink = some (ChainLink.codec.write layeredLink) :=
    if_pos (by decide)
  have decodes : (chainLinkTags .standard, ChainLink.codec.Damaged ChainLink.tagPlaces)
      ∈ decodingPasses .standard := by
    simp [decodingPasses]
  have ends := (damage_ends_passes .standard).2.2 _ _ decodes layeredLink.key
  refine ⟨by decide, _, written, ?_, ?_, ?_⟩
  · have last : ∃ place ∈ layeredLink.tagPlaces,
        place.before.length = 76 ∧ place.kind = .valueType := by decide
    obtain ⟨place, member, deep, kind⟩ := last
    have damaged := Damaged.unknown 9 [8] written member (by rw [kind]; decide)
    rw [kind] at damaged
    exact ⟨place, member, deep, (ends _ _ damaged).2.1⟩
  · exact (ends _ _ (.short written (List.take_prefix _ _) (by decide))).2.1
  · have fails := (ends _ _ (.long written (List.cons_ne_nil 0 []))).2.2
    exact (fails _ (by decide) (by rw [Store.get?_insert, if_pos rfl])).1

end LinkRegistry.Migration
