import LinkRegistry.View.Records
import LinkRegistry.Proofs.Binary.Damage
import LinkRegistry.Proofs.Envelope.Tags
import LinkRegistry.Proofs.View.Describing

/-!
# The views of the stored records read back

Every type of record is described by its view: keys and envelopes by induction on how deep they
nest, and all others field by field. So the text of a view is read as the record that it is the view
of, and writing that record again gives the bytes that it was decoded from. Main statement,
`views_read_back`.
-/

namespace LinkRegistry

open Json (IsSimple)
open View (Describes describes_bytes describes_choice describes_record fields_ofMembers
  isSimple_word32 isSimple_word64 tagged_ofMembers)

/-! ## Addresses -/

theorem Address.describes : Describes Address.view Address.ofView? := by
  refine describes_choice (fun address => ?_) fun numbered address => ?_
  · cases address <;> exact .members (by simp [IsSimple.text])
  · cases address with
    | bech32 value other | hex value other =>
      have fields : View.fields ["value", "prefix"] .buffered
          (.ofMembers [("value", .ofText value), ("prefix", .ofText other)])
          = some (.buffered, [some (.ofText value), some (.ofText other)]) :=
        fields_ofMembers _ [.ofText value, .ofText other] (by decide) rfl rfl
      simp [ofSoundView?, view, tagged_ofMembers, List.idxOf?_cons, fields]
    | base58 value =>
      have fields : View.fields ["value"] .buffered (.ofMembers [("value", .ofText value)])
          = some (.buffered, [some (.ofText value)]) :=
        fields_ofMembers _ [.ofText value] (by decide) rfl rfl
      simp [ofSoundView?, view, tagged_ofMembers, List.idxOf?_cons, fields]

/-! ## Public keys -/

namespace PublicKey

theorem viewAll_eq_map (keys : List PublicKey) : viewAll keys = keys.map view := by
  induction keys with
  | nil => rfl
  | cons key rest ih => rw [viewAll, ih, List.map_cons]

theorem isSimple_view (key : PublicKey) : key.view.IsSimple := by
  induction key using induction_on_members with
  | secp256k1 bytes | ed25519 bytes =>
    exact .members (by simp [IsSimple.text, describes_bytes.simple])
  | multisig threshold members ih =>
    have each : (Json.array (viewAll members)).IsSimple := by
      rw [viewAll_eq_map]
      exact .array (List.forall_mem_map.2 ih)
    exact .members (by simp [IsSimple.text, isSimple_word32, each])

/-- A key is read from its view by any reader that goes as deep as the view nests. -/
theorem ofSoundViewWithin?_view (key : PublicKey) {depth : Nat} {numbered : Bool}
    (deep : key.view.depth ≤ depth) : ofSoundViewWithin? depth numbered key.view = some key := by
  induction key using induction_on_members generalizing depth numbered with
  | secp256k1 bytes | ed25519 bytes =>
    -- The view is an object, so the reader goes one level deep at least.
    rw [view] at deep
    obtain ⟨depth, rfl, -⟩ := Json.exists_levels_of_depth_ofMembers_le deep
    have fields : View.fields ["bytes"] .buffered (.ofMembers [("bytes", View.ofBytes bytes)])
        = some (.buffered, [some (View.ofBytes bytes)]) :=
      fields_ofMembers _ [View.ofBytes bytes] (by decide) rfl rfl
    have readBytes := describes_bytes.reads .buffered bytes trivial
    simp [ofSoundViewWithin?, view, tagged_ofMembers, List.idxOf?_cons, fields, readBytes]
  | multisig threshold members ih =>
    rw [view, viewAll_eq_map] at deep
    obtain ⟨depth, rfl, inside⟩ := Json.exists_levels_of_depth_ofMembers_le deep
    -- The members nest in the list of keys, for which there is room under the object.
    have room : (Json.array (members.map view)).depth ≤ depth := inside ("keys", _) (by simp)
    have each : (members.map view).mapM (ofSoundViewWithin? depth true) = some members := by
      refine View.mapM_map_eq_some fun key among => ih key among ?_
      exact Nat.le_trans (Json.depth_le_depth_array (List.mem_map_of_mem among)) room
    have fields : View.fields ["threshold", "keys"] .buffered
        (.ofMembers [("threshold", .ofNat threshold.toNat), ("keys", .array (members.map view))])
        = some (.buffered, [some (.ofNat threshold.toNat), some (.array (members.map view))]) :=
      fields_ofMembers _ [.ofNat threshold.toNat, .array (members.map view)] (by decide) rfl rfl
    simp [ofSoundViewWithin?, view, viewAll_eq_map, tagged_ofMembers, List.idxOf?_cons, fields,
      View.list, View.Position.inner, each]

theorem describes : Describes view ofView? :=
  describes_choice isSimple_view fun _ key => key.ofSoundViewWithin?_view (Nat.le_refl _)

end PublicKey

/-! ## Signatures -/

theorem ValueType.describes : Describes ValueType.view ValueType.ofView? where
  simple valueType := by cases valueType <;> exact .text _
  reads position valueType _ := by
    cases valueType <;>
      simp [ofView?, view, View.name, viewNames, Json.ofText, List.lookup_cons]

theorem BitSelector.describes : Describes BitSelector.view BitSelector.ofView? := by
  refine describes_record ["bits", "elems"]
    (fun selector => [.ofNat selector.bits.toNat, View.ofBytes selector.bytes])
    (by decide) (fun _ => rfl) (fun _ => rfl) ?_ ?_
  · simp [isSimple_word32, describes_bytes.simple]
  · intro position inner selector fields room
    -- There is room for each field, in the order of the names.
    simp only [List.forall_mem_cons] at room
    have elems := describes_bytes.reads inner selector.bytes room.2.1
    simp [ofView?, fields, elems]

namespace Envelope

theorem viewAll_eq_map (parts : List Envelope) : viewAll parts = parts.map view := by
  induction parts with
  | nil => rfl
  | cons part rest ih => rw [viewAll, ih, List.map_cons]

theorem isSimple_view (envelope : Envelope) : envelope.view.IsSimple := by
  induction envelope with
  | single valueType signature =>
    exact .members
      (by simp [IsSimple.text, ValueType.describes.simple, describes_bytes.simple])
  | multi selector parts ih =>
    have each : (Json.array (viewAll parts)).IsSimple := by
      rw [viewAll_eq_map]
      exact .array (List.forall_mem_map.2 ih)
    exact .members (by simp [IsSimple.text, BitSelector.describes.simple, each])

/-- An envelope is read from its view by any reader that goes as deep as the view nests. -/
theorem ofSoundViewWithin?_view (envelope : Envelope) {depth : Nat} {numbered : Bool}
    (deep : envelope.view.depth ≤ depth) :
    ofSoundViewWithin? depth numbered envelope.view = some envelope := by
  induction envelope generalizing depth numbered with
  | single valueType signature =>
    rw [view] at deep
    obtain ⟨depth, rfl, -⟩ := Json.exists_levels_of_depth_ofMembers_le deep
    have fields : View.fields ["value_type", "signature"] .buffered
        (.ofMembers [("value_type", valueType.view), ("signature", View.ofBytes signature)])
        = some (.buffered, [some valueType.view, some (View.ofBytes signature)]) :=
      fields_ofMembers _ [valueType.view, View.ofBytes signature] (by decide) rfl rfl
    have readType := ValueType.describes.reads .buffered valueType trivial
    have readBytes := describes_bytes.reads .buffered signature trivial
    simp [ofSoundViewWithin?, view, tagged_ofMembers, List.idxOf?_cons, fields, readType, readBytes]
  | multi selector parts ih =>
    rw [view, viewAll_eq_map] at deep
    obtain ⟨depth, rfl, inside⟩ := Json.exists_levels_of_depth_ofMembers_le deep
    -- The parts nest in their list, for which there is room under the object.
    have room : (Json.array (parts.map view)).depth ≤ depth := inside ("signatures", _) (by simp)
    have each : (parts.map view).mapM (ofSoundViewWithin? depth true) = some parts := by
      refine View.mapM_map_eq_some fun part among => ih part among ?_
      exact Nat.le_trans (Json.depth_le_depth_array (List.mem_map_of_mem among)) room
    have fields : View.fields ["bit_selector", "signatures"] .buffered
        (.ofMembers [("bit_selector", selector.view), ("signatures", .array (parts.map view))])
        = some (.buffered, [some selector.view, some (.array (parts.map view))]) :=
      fields_ofMembers _ [selector.view, .array (parts.map view)] (by decide) rfl rfl
    have readSelector := BitSelector.describes.reads .buffered selector trivial
    simp [ofSoundViewWithin?, view, viewAll_eq_map, tagged_ofMembers, List.idxOf?_cons, fields,
      readSelector, View.list, View.Position.inner, each]

theorem describes : Describes view ofView? :=
  describes_choice isSimple_view fun _ envelope => envelope.ofSoundViewWithin?_view (Nat.le_refl _)

end Envelope

/-! ## Chain links -/

theorem Proof.describes : Describes Proof.view Proof.ofView? := by
  refine describes_record ["public_key", "signature", "plaintext_hex"]
    (fun proof => [proof.publicKey.view, proof.signature.view, .ofText proof.plaintextHex])
    (by decide) (fun _ => rfl) (fun _ => rfl) ?_ ?_
  · simp [PublicKey.describes.simple, Envelope.describes.simple, IsSimple.text]
  · intro position inner proof fields room
    simp only [List.forall_mem_cons] at room
    have publicKey := PublicKey.describes.reads inner proof.publicKey room.1
    have signature := Envelope.describes.reads inner proof.signature room.2.1
    simp [ofView?, fields, publicKey, signature]

theorem BareProof.describes : Describes BareProof.view BareProof.ofView? := by
  refine describes_record ["public_key", "signature", "plaintext_hex"]
    (fun proof => [proof.publicKey.view, View.ofBytes proof.signature, .ofText proof.plaintextHex])
    (by decide) (fun _ => rfl) (fun _ => rfl) ?_ ?_
  · simp [PublicKey.describes.simple, describes_bytes.simple, IsSimple.text]
  · intro position inner proof fields room
    simp only [List.forall_mem_cons] at room
    have publicKey := PublicKey.describes.reads inner proof.publicKey room.1
    have signature := describes_bytes.reads inner proof.signature room.2.1
    simp [ofView?, fields, publicKey, signature]

theorem View.describes_chainName : Describes View.ofChainName View.chainName := by
  refine describes_record ["name"] (fun name => [.ofText name]) (by decide) (fun _ => rfl)
    (fun _ => rfl) ?_ ?_
  · simp [IsSimple.text]
  · intro position inner name fields _
    simp [chainName, fields]

theorem ChainLink.describes : Describes ChainLink.view ChainLink.ofView? := by
  refine describes_record viewNames
    (fun link => [.ofText link.owner, link.address.view, link.proof.view,
      View.ofChainName link.chainName, .ofNat link.creationTime.toNat])
    (by decide) (fun _ => rfl) (fun _ => rfl) ?_ ?_
  · simp [IsSimple.text, Address.describes.simple, Proof.describes.simple,
      View.describes_chainName.simple, isSimple_word64]
  · intro position inner link fields room
    simp only [List.forall_mem_cons] at room
    have address := Address.describes.reads inner link.address room.2.1
    have proof := Proof.describes.reads inner link.proof room.2.2.1
    have chainName := View.describes_chainName.reads inner link.chainName room.2.2.2.1
    simp [ofView?, fields, address, proof, chainName]

theorem BareChainLink.describes : Describes BareChainLink.view BareChainLink.ofView? := by
  refine describes_record ChainLink.viewNames
    (fun link => [.ofText link.owner, link.address.view, link.proof.view,
      View.ofChainName link.chainName, .ofNat link.creationTime.toNat])
    (by decide) (fun _ => rfl) (fun _ => rfl) ?_ ?_
  · simp [IsSimple.text, Address.describes.simple, BareProof.describes.simple,
      View.describes_chainName.simple, isSimple_word64]
  · intro position inner link fields room
    simp only [List.forall_mem_cons] at room
    have address := Address.describes.reads inner link.address room.2.1
    have proof := BareProof.describes.reads inner link.proof room.2.2.1
    have chainName := View.describes_chainName.reads inner link.chainName room.2.2.2.1
    simp [ofView?, fields, address, proof, chainName]

/-! ## Accounts -/

/-- The view of a key is never null, so null is left for no key. -/
theorem PublicKey.view_ne_null (key : PublicKey) : key.view ≠ .null := by
  cases key <;> simp [view, Json.ofMembers]

theorem PublicKey.describes_option :
    Describes (fun key? : Option PublicKey => key?.elim Json.null view)
      (View.option ofView?) :=
  describes.option view_ne_null

theorem BaseAccount.describes : Describes BaseAccount.view BaseAccount.ofView? := by
  refine describes_record ["address", "pub_key", "account_number", "sequence"]
    (fun account => [.ofText account.address, account.publicKey.elim .null PublicKey.view,
      .ofNat account.accountNumber.toNat, .ofNat account.sequence.toNat])
    (by decide) (fun account => ?_) (fun _ => rfl) ?_ ?_
  · -- A key that is absent is viewed as null.
    rw [view]
    cases account.publicKey <;> rfl
  · simp [IsSimple.text, PublicKey.describes_option.simple, isSimple_word64]
  · intro position inner account fields room
    simp only [List.forall_mem_cons] at room
    have publicKey := PublicKey.describes_option.reads inner account.publicKey room.2.1
    simp [ofView?, fields, View.optionalField, publicKey]

theorem Pictures.describes : Describes Pictures.view Pictures.ofView? := by
  refine describes_record ["profile", "cover"]
    (fun pictures => [.ofText pictures.profile, .ofText pictures.cover])
    (by decide) (fun _ => rfl) (fun _ => rfl) ?_ ?_
  · simp [IsSimple.text]
  · intro position inner pictures fields _
    simp [ofView?, fields]

theorem Profile.describes : Describes Profile.view Profile.ofView? := by
  refine describes_record ["account", "dtag", "nickname", "bio", "pictures", "creation_time"]
    (fun profile => [profile.account.view, .ofText profile.dtag, .ofText profile.nickname,
      .ofText profile.bio, profile.pictures.view, .ofNat profile.creationTime.toNat])
    (by decide) (fun _ => rfl) (fun _ => rfl) ?_ ?_
  · simp [BaseAccount.describes.simple, IsSimple.text, Pictures.describes.simple, isSimple_word64]
  · intro position inner profile fields room
    simp only [List.forall_mem_cons] at room
    have account := BaseAccount.describes.reads inner profile.account room.1
    have pictures := Pictures.describes.reads inner profile.pictures room.2.2.2.2.1
    simp [ofView?, fields, account, pictures]

theorem FlatProfile.describes : Describes FlatProfile.view FlatProfile.ofView? := by
  refine describes_record
    ["account", "dtag", "nickname", "bio", "profile_picture", "cover_picture", "creation_time"]
    (fun profile => [profile.account.view, .ofText profile.dtag, .ofText profile.nickname,
      .ofText profile.bio, .ofText profile.profilePicture, .ofText profile.coverPicture,
      .ofNat profile.creationTime.toNat])
    (by decide) (fun _ => rfl) (fun _ => rfl) ?_ ?_
  · simp [BaseAccount.describes.simple, IsSimple.text, isSimple_word64]
  · intro position inner profile fields room
    simp only [List.forall_mem_cons] at room
    have account := BaseAccount.describes.reads inner profile.account room.1
    simp [ofView?, fields, account]

/-- The value of an only member stands one level deeper and is read there. -/
theorem View.Describes.onlyMember {α : Type} {view : α → Json} {reader : View.Reader α}
    (describes : Describes view reader) {position : View.Position} {name : String} {value : α}
    (room : position.Holds (.ofMembers [(name, view value)])) :
    ∃ inner, View.onlyMember position (.ofMembers [(name, view value)])
        = some (inner, name, view value)
      ∧ reader inner (view value) = some value := by
  obtain ⟨inner, place, each⟩ := room.members
  refine ⟨inner, ?_, describes.reads inner value (each (name, view value) (by simp))⟩
  simp [View.onlyMember, Json.ofMembers, place]

theorem Account.describes : Describes Account.view Account.ofView? where
  simple account := by
    cases account with
    | base account => exact .members (by simp [BaseAccount.describes.simple])
    | profiled profile => exact .members (by simp [Profile.describes.simple])
  reads position account room := by
    -- The name of the only member tells the case.
    cases account with
    | base account =>
      obtain ⟨inner, only, read⟩ := BaseAccount.describes.onlyMember room
      simp [ofView?, view, only, read]
    | profiled profile =>
      obtain ⟨inner, only, read⟩ := Profile.describes.onlyMember room
      simp [ofView?, view, only, read]

theorem FlatAccount.describes : Describes FlatAccount.view FlatAccount.ofView? where
  simple account := by
    cases account with
    | base account => exact .members (by simp [BaseAccount.describes.simple])
    | profiled profile => exact .members (by simp [FlatProfile.describes.simple])
  reads position account room := by
    -- The name of the only member tells the case.
    cases account with
    | base account =>
      obtain ⟨inner, only, read⟩ := BaseAccount.describes.onlyMember room
      simp [ofView?, view, only, read]
    | profiled profile =>
      obtain ⟨inner, only, read⟩ := FlatProfile.describes.onlyMember room
      simp [ofView?, view, only, read]

/-! ## Application links -/

theorem VerificationState.describes :
    Describes VerificationState.view VerificationState.ofView? where
  simple state := by cases state <;> exact .text _
  reads position state _ := by
    cases state <;>
      simp [ofView?, view, View.name, viewNames, Json.ofText, List.lookup_cons]

theorem ApplicationLink.describes : Describes ApplicationLink.view ApplicationLink.ofView? := by
  refine describes_record
    ["owner", "application", "username", "client_id", "state", "creation_time"]
    (fun link => [.ofText link.owner, .ofText link.application, .ofText link.username,
      .ofText link.clientId, link.state.view, .ofNat link.creationTime.toNat])
    (by decide) (fun _ => rfl) (fun _ => rfl) ?_ ?_
  · simp [IsSimple.text, VerificationState.describes.simple, isSimple_word64]
  · intro position inner link fields room
    simp only [List.forall_mem_cons] at room
    have state := VerificationState.describes.reads inner link.state room.2.2.2.2.1
    simp [ofView?, fields, state]

/-! ## Reading back -/

/-- The texts of views stand for the values as the records do. -/
structure View.RoundTrips {α : Type} (view : α → Json) (reader : View.Reader α)
    (codec : Binary.Codec α) : Prop where
  /-- The text of a view is read as the value, if it does not nest too deep to be read. -/
  read_view : ∀ value, (view value).depth ≤ View.maximalDepth →
    View.ofText? reader (view value).render = some value
  /-- A record that is decoded to a view is given back when the view is encoded. -/
  encode_view : ∀ record value, codec.decode record = .ok value →
    (view value).depth ≤ View.maximalDepth →
    (View.ofText? reader (view value).render).bind codec.encode? = some record
  /-- No two values have the same view, however deep they nest. -/
  distinct : ∀ one two, (view one).render = (view two).render → one = two

theorem View.Describes.roundTrips {α : Type} {view : α → Json} {reader : View.Reader α}
    {codec : Binary.Codec α} (describes : Describes view reader) (faithful : codec.Faithful) :
    View.RoundTrips view reader codec where
  read_view _ room := describes.ofText?_render room
  encode_view record value found room := by
    -- What is read is the value that was decoded, and it has no other record.
    rw [describes.ofText?_render room, Option.bind_some]
    exact faithful.encode_of_decode found
  distinct _ _ same := describes.render_injective same

theorem Address.depth_view_le (address : Address) : address.view.depth ≤ View.maximalDepth := by
  cases address <;> exact Json.depth_ofMembers_le_iff.2 (by simp [Json.ofText, Json.depth])

theorem ValueType.depth_view_le (valueType : ValueType) :
    valueType.view.depth ≤ View.maximalDepth := by
  cases valueType <;> simp [view, Json.ofText, Json.depth]

theorem BitSelector.depth_view_le (selector : BitSelector) :
    selector.view.depth ≤ View.maximalDepth := by
  have bytes {levels : Nat} : (View.ofBytes selector.bytes).depth ≤ levels + 1 :=
    Json.depth_array_le_iff.2 (List.forall_mem_map.2 fun _ _ => by simp [Json.ofNat, Json.depth])
  exact Json.depth_ofMembers_le_iff.2 (by simp [Json.ofNat, Json.depth, bytes])

theorem ApplicationLink.depth_view_le (link : ApplicationLink) :
    link.view.depth ≤ View.maximalDepth := by
  have state : link.state.view.depth = 0 := by
    cases link.state <;> simp [VerificationState.view, Json.ofText, Json.depth]
  exact Json.depth_ofMembers_le_iff.2 (by simp [Json.ofText, Json.ofNat, Json.depth, state])

/-- The views of all schemas read back as the records they were made from, and tell them apart. Only
a key, an envelope or a record that holds one can nest too deep for its text to be read. -/
theorem views_read_back :
    (View.RoundTrips Account.view Account.ofView? Account.codec
      ∧ View.RoundTrips FlatAccount.view FlatAccount.ofView? FlatAccount.codec
      ∧ View.RoundTrips BaseAccount.view BaseAccount.ofView? BaseAccount.codec)
    ∧ (View.RoundTrips ChainLink.view ChainLink.ofView? ChainLink.codec
      ∧ View.RoundTrips BareChainLink.view BareChainLink.ofView? BareChainLink.codec
      ∧ View.RoundTrips Proof.view Proof.ofView? Proof.codec)
    ∧ (View.RoundTrips PublicKey.view PublicKey.ofView? PublicKey.codec
      ∧ View.RoundTrips Envelope.view Envelope.ofView? Envelope.codec)
    ∧ (View.RoundTrips Address.view Address.ofView? Address.codec
      ∧ ∀ address : Address, address.view.depth ≤ View.maximalDepth)
    ∧ (View.RoundTrips ValueType.view ValueType.ofView? ValueType.codec
      ∧ ∀ valueType : ValueType, valueType.view.depth ≤ View.maximalDepth)
    ∧ (View.RoundTrips BitSelector.view BitSelector.ofView? BitSelector.codec
      ∧ ∀ selector : BitSelector, selector.view.depth ≤ View.maximalDepth)
    ∧ (View.RoundTrips ApplicationLink.view ApplicationLink.ofView? ApplicationLink.codec
      ∧ ∀ link : ApplicationLink, link.view.depth ≤ View.maximalDepth) :=
  ⟨⟨Account.describes.roundTrips Account.faithful,
      FlatAccount.describes.roundTrips FlatAccount.faithful,
      BaseAccount.describes.roundTrips BaseAccount.faithful⟩,
    ⟨ChainLink.describes.roundTrips ChainLink.faithful,
      BareChainLink.describes.roundTrips BareChainLink.faithful,
      Proof.describes.roundTrips Proof.faithful⟩,
    ⟨PublicKey.describes.roundTrips PublicKey.faithful,
      Envelope.describes.roundTrips Envelope.faithful⟩,
    ⟨Address.describes.roundTrips Address.faithful, Address.depth_view_le⟩,
    ⟨ValueType.describes.roundTrips ValueType.faithful, ValueType.depth_view_le⟩,
    ⟨BitSelector.describes.roundTrips BitSelector.faithful, BitSelector.depth_view_le⟩,
    ApplicationLink.describes.roundTrips ApplicationLink.faithful, ApplicationLink.depth_view_le⟩

end LinkRegistry
