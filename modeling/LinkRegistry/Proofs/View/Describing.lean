import LinkRegistry.Proofs.Json.Rendering
import LinkRegistry.Proofs.View.Fields

/-!
# Views that describe their values

A view describes the values of a type if it is simple and its reader gives the value back wherever
the view stands, as long as there is room for it. Views of records describe them if the views of
the fields do, and a choice looks at its value as a whole, which a simple view always stands. Then
the text of a view that does not nest too deep is read as the value, and no two values have the same
text, however deep they nest.
-/

namespace LinkRegistry.View

open Json (IsSimple)

/-! ## Room -/

/-- There is room for a value where it stands. -/
def Position.Holds : Position → Json → Prop
  | .direct levels, json => json.depth ≤ levels
  | .buffered, _ => True

theorem Position.Holds.array {position : Position} {items : List Json}
    (holds : position.Holds (.array items)) :
    ∃ inner, position.inner = some inner ∧ ∀ item ∈ items, inner.Holds item := by
  cases position with
  | buffered => exact ⟨.buffered, rfl, fun _ _ => trivial⟩
  | direct levels =>
    cases levels with
    | zero => simp [Holds, Json.depth] at holds
    | succ levels => exact ⟨.direct levels, rfl, Json.depth_array_le_iff.1 holds⟩

theorem Position.Holds.members {position : Position} {members : List (String × Json)}
    (holds : position.Holds (.ofMembers members)) :
    ∃ inner, position.inner = some inner ∧ ∀ member ∈ members, inner.Holds member.2 := by
  cases position with
  | buffered => exact ⟨.buffered, rfl, fun _ _ => trivial⟩
  | direct levels =>
    obtain ⟨inner, rfl, each⟩ := Json.exists_levels_of_depth_ofMembers_le holds
    exact ⟨.direct inner, rfl, each⟩

/-! ## Values -/

/-- The view of every value is simple and is read as that value. -/
structure Describes {α : Type} (view : α → Json) (reader : Reader α) : Prop where
  simple : ∀ value, (view value).IsSimple
  reads : ∀ position value, position.Holds (view value) → reader position (view value) = some value

section

variable {α : Type} {view : α → Json} {reader : Reader α}

theorem naturalBelow_ofNat {bound number : Nat} (below : number < bound) :
    naturalBelow bound (Json.ofNat number) = some number := by
  simp [naturalBelow, Json.ofNat, Json.Number.ofNat, Json.Number.natural?, below]

@[simp] theorem word32_ofNat (position : Position) (word : UInt32) :
    word32 position (.ofNat word.toNat) = some word := by
  simp [word32, naturalBelow_ofNat word.toNat_lt]

@[simp] theorem word64_ofNat (position : Position) (word : UInt64) :
    word64 position (.ofNat word.toNat) = some word := by
  simp [word64, naturalBelow_ofNat word.toNat_lt]

theorem isSimple_word32 (word : UInt32) : (Json.ofNat word.toNat).IsSimple :=
  .number (Nat.lt_trans word.toNat_lt (by decide))

theorem isSimple_word64 (word : UInt64) : (Json.ofNat word.toNat).IsSimple :=
  .number word.toNat_lt

/-- Wherever there is room for both, a view is read as at most one value. -/
theorem Describes.injective (describes : Describes view reader) : Function.Injective view := by
  intro one two same
  have first := describes.reads (.direct (view one).depth) one (Nat.le_refl _)
  have second := describes.reads (.direct (view one).depth) two (Nat.le_of_eq (same ▸ rfl))
  rw [← same, first] at second
  exact Option.some.inj second

/-- The text of a view is read as the value, unless it nests too deep to be read at all. -/
theorem Describes.ofText?_render (describes : Describes view reader) {value : α}
    (room : (view value).depth ≤ maximalDepth) :
    ofText? reader (view value).render = some value := by
  rw [ofText?, (describes.simple value).parse?_render]
  exact describes.reads (.direct maximalDepth) value room

theorem Describes.render_injective (describes : Describes view reader) :
    Function.Injective fun value => (view value).render := by
  intro one two same
  -- A text is parsed as one value only.
  have parsed := (describes.simple one).parse?_render
  rw [show (view one).render = (view two).render from same,
    (describes.simple two).parse?_render] at parsed
  exact describes.injective (Option.some.inj parsed).symm

theorem mapM_map_eq_some {item : Json → Option α} {ofValue : α → Json} {values : List α}
    (each : ∀ value ∈ values, item (ofValue value) = some value) :
    (values.map ofValue).mapM item = some values := by
  rw [mapM_eq_some_iff, List.forall₂_map_left_iff, List.forall₂_same]
  exact each

theorem Describes.list (item : Describes view reader) :
    Describes (fun values => Json.array (values.map view)) (list reader) where
  simple values := .array (List.forall_mem_map.2 fun value _ => item.simple value)
  reads position values holds := by
    obtain ⟨inner, room, each⟩ := holds.array
    have read := mapM_map_eq_some fun value inside =>
      item.reads inner value (each _ (List.mem_map_of_mem inside))
    simp [View.list, room, read]

theorem describes_bytes : Describes ofBytes bytes := by
  refine Describes.list ⟨fun byte => ?_, fun position byte _ => ?_⟩
  · exact .number (Nat.lt_trans byte.toNat_lt (by decide))
  · simp [naturalBelow_ofNat byte.toNat_lt]

/-- A value that may be absent is viewed as null then, which no value is viewed as. -/
theorem Describes.option (content : Describes view reader) (present : ∀ value, view value ≠ .null) :
    Describes (fun value => value.elim Json.null view) (option reader) where
  simple value := by
    cases value with
    | none => exact .null
    | some value => exact content.simple value
  reads position value holds := by
    cases value with
    | none => rfl
    | some value =>
      have read := content.reads position value holds
      simp only [Option.elim_some, View.option]
      split
      next null => exact absurd null (present value)
      next => simp [read]

/-! ## Choices -/

/-- A choice is looked at as a whole before it is read, and a simple one is sound. -/
theorem describes_choice {reader : Bool → Json → Option α} (simple : ∀ value, (view value).IsSimple)
    (reads : ∀ numbered value, reader numbered (view value) = some value) :
    Describes view (choice reader) where
  simple := simple
  reads position value holds := by
    cases position with
    | direct levels =>
      have sound := (simple value).isSound_iff.2 holds
      simp [choice, sound, reads]
    | buffered => exact reads true value

/-- The first member names the case, and the others are left. -/
theorem tagged_ofMembers {cases : List String} {numbered : Bool} {name : String}
    {others : List (String × Json)} (alone : ∀ other ∈ others, other.1 ≠ "type") :
    tagged cases numbered (.ofMembers (("type", .ofText name) :: others))
      = (cases.idxOf? name).map (·, .ofMembers others) := by
  have noTag : (others.map fun other => (some other.1, other.2)).filter (·.1 = some "type")
      = [] := by
    refine List.filter_eq_nil_iff.2 (List.forall_mem_map.2 fun other inside => ?_)
    simp [alone other inside]
  have kept : (others.map fun other => (some other.1, other.2)).filter (·.1 ≠ some "type")
      = others.map fun other => (some other.1, other.2) := by
    refine List.filter_eq_self.2 (List.forall_mem_map.2 fun other inside => ?_)
    simp [alone other inside]
  have front (rest : List (Option String × Json)) :
      membersNamed "type" ((some "type", .ofText name) :: rest)
        = .ofText name :: (rest.filter (·.1 = some "type")).map (·.2) := by
    simp [membersNamed]
  have behind (rest : List (Option String × Json)) :
      ((some "type", Json.ofText name) :: rest).filter (·.1 ≠ some "type")
        = rest.filter (·.1 ≠ some "type") := by
    simp
  -- So there is one tag, in front, and all members behind it stay.
  rw [Json.ofMembers_eq, List.map_cons, tagged]
  simp only [front, noTag, behind, kept, List.map_nil]
  rfl

/-! ## Records -/

/-- The fields of a record are found in the object of its fields. -/
theorem fields_ofMembers (names : List String) (values : List Json) {position inner : Position}
    (distinct : names.Nodup) (count : values.length = names.length)
    (room : position.inner = some inner) :
    fields names position (.ofMembers (names.zip values)) = some (inner, values.map some) := by
  refine LaysOut.fields_eq (.object ?_ count) distinct room
  rw [List.zip_map_left]
  exact .rfl

/-- A record whose fields are viewed as simple values is described if it is read from them. -/
theorem describes_record (names : List String) (values : α → List Json) (distinct : names.Nodup)
    (same : ∀ value, view value = .ofMembers (names.zip (values value)))
    (count : ∀ value, (values value).length = names.length)
    (simple : ∀ value, ∀ field ∈ values value, field.IsSimple)
    (reads : ∀ position inner value,
      fields names position (view value) = some (inner, (values value).map some) →
      (∀ field ∈ values value, inner.Holds field) → reader position (view value) = some value) :
    Describes view reader where
  simple value := by
    rw [same]
    exact .members fun member inside => simple value _ (List.of_mem_zip inside).2
  reads position value holds := by
    obtain ⟨inner, room, each⟩ := (same value ▸ holds).members
    have found := fields_ofMembers names (values value) distinct (count value) room
    rw [← same] at found
    refine reads position inner value found fun field inside => ?_
    -- Every value is that of a member.
    have second : (names.zip (values value)).map Prod.snd = values value :=
      List.map_snd_zip (Nat.le_of_eq (count value))
    obtain ⟨member, among, rfl⟩ := List.mem_map.1 (second ▸ inside)
    exact each member among

end

end LinkRegistry.View
