import LinkRegistry.Proofs.Binary.RoundTrip

/-!
# Formats that find damage

A reader fails at the first problem, so a tag that is not known and an end that comes too early are
found where they are: what stands before them is read as it was written, and what stands behind an
unknown tag is not looked at. A format that finds both, with a list of the places of its tags, is
guarded. Formats put together from guarded ones are guarded, with the places of each part moved
behind the parts before it.
-/

namespace LinkRegistry

namespace Binary

/-! ## Places of tags -/

/-- The choices that later versions may extend. -/
inductive TagKind
  | address
  | publicKey
  | signature
  | valueType
  deriving DecidableEq, Repr

def TagKind.name : TagKind → String
  | .address => "address"
  | .publicKey => "public key"
  | .signature => "signature"
  | .valueType => "value type"

/-- The first tag that is not known. All tags below it are. -/
def TagKind.bound : TagKind → UInt8
  | .address | .publicKey | .valueType => 3
  | .signature => 2

theorem TagKind.ne_of_bound_le {kind : TagKind} {tag known : UInt8} (strange : kind.bound ≤ tag)
    (below : known < kind.bound) : tag ≠ known := by
  rintro rfl
  exact absurd below (UInt8.not_lt.2 strange)

/-- A place in a record where a tag stands: what stands before it, and what the tag is of. -/
structure TagPlace where
  before : Bytes
  kind : TagKind
  deriving DecidableEq, Repr

/-- A place in a record that stands behind other bytes. -/
def TagPlace.behind (lead : Bytes) (place : TagPlace) : TagPlace :=
  ⟨lead ++ place.before, place.kind⟩

theorem TagPlace.behind_behind (outer inner : Bytes) (place : TagPlace) :
    (place.behind inner).behind outer = place.behind (outer ++ inner) := by
  simp [behind]

/-- A known tag stands at a place of a byte string. -/
def TagPlace.In (place : TagPlace) (content : Bytes) : Prop :=
  ∃ tag rest, content = place.before ++ tag :: rest ∧ tag < place.kind.bound

theorem TagPlace.In.behind {place : TagPlace} {content : Bytes} (inside : place.In content)
    (lead rest : Bytes) : (place.behind lead).In (lead ++ content ++ rest) := by
  obtain ⟨tag, others, rfl, below⟩ := inside
  exact ⟨tag, others ++ rest, by simp [TagPlace.behind], below⟩

theorem TagPlace.In.append {place : TagPlace} {content : Bytes} (inside : place.In content)
    (rest : Bytes) : place.In (content ++ rest) :=
  inside.behind [] rest

variable {α β : Type}

section Readers

variable {first : Reader α} {next : α → Reader β} {input front lost : Bytes} {error : Error}

/-! ## Readers that fail -/

theorem Reader.andThen_error (failed : first input = .error error) :
    first.andThen next input = .error error := by
  simp [Reader.andThen, failed]

theorem Reader.map_error {change : α → β} (failed : first input = .error error) :
    first.map change input = .error error :=
  Reader.andThen_error failed

/-- Two pieces that are cut short lack the end of the second, or that of the first and all of the
second. -/
theorem cut_append {one two : Bytes} (whole : one ++ two = front ++ lost) (missing : lost ≠ []) :
    (∃ more, front = one ++ more ∧ two = more ++ lost)
      ∨ ∃ gone, gone ≠ [] ∧ one = front ++ gone := by
  rcases List.append_eq_append_iff.1 whole with ⟨more, rfl, rfl⟩ | ⟨gone, rfl, rfl⟩
  · exact .inl ⟨more, rfl, rfl⟩
  · -- A cut between the two is counted as one at the beginning of the second.
    cases gone with
    | nil => exact .inl ⟨[], by simp, by simp⟩
    | cons => exact .inr ⟨_, by simp, rfl⟩

/-- A cut is found by the first of two readers if it is in the first piece, and else by the second. -/
theorem Reader.andThen_cut {one two : Bytes} (value : α) (whole : one ++ two = front ++ lost)
    (missing : lost ≠ [])
    (stops : ∀ gone, gone ≠ [] → one = front ++ gone → first front = .error .endOfInput)
    (taken : ∀ more, front = one ++ more → first front = .ok (value, more))
    (later : ∀ more, front = one ++ more → two = more ++ lost →
      next value more = .error .endOfInput) :
    first.andThen next front = .error .endOfInput := by
  rcases cut_append whole missing with ⟨more, before, behind⟩ | ⟨gone, some, before⟩
  · rw [Reader.andThen_ok (taken more before)]
    exact later more before behind
  · exact Reader.andThen_error (stops gone some before)

/-- A cut is before a tag or behind it. -/
theorem Reader.byte_cut {next : UInt8 → Reader β} {tag : UInt8} {content : Bytes}
    (whole : tag :: content = front ++ lost)
    (later : ∀ more, front = tag :: more → content = more ++ lost →
      next tag more = .error .endOfInput) :
    Reader.byte.andThen next front = .error .endOfInput := by
  cases front with
  | nil => rfl
  | cons head more =>
    obtain ⟨rfl, behind⟩ := List.cons.inj whole
    exact later more rfl behind

theorem Reader.bytes_cut {count : Nat} (short : front.length < count) :
    Reader.bytes count front = .error .endOfInput := by
  rw [Reader.bytes, if_neg (by omega)]

theorem length_lt_of_cut {content : Bytes} (whole : content = front ++ lost) (missing : lost ≠ []) :
    front.length < content.length := by
  have positive := List.length_pos_iff.2 missing
  rw [whole, List.length_append]
  omega

theorem Reader.number_cut {width number : Nat}
    (whole : Bytes.littleEndian width number = front ++ lost) (missing : lost ≠ []) :
    Reader.number width front = .error .endOfInput := by
  have short := length_lt_of_cut whole missing
  rw [Bytes.length_littleEndian] at short
  exact Reader.map_error (Reader.bytes_cut short)

end Readers

/-! ## Lists of records inside a record -/

/-- The places of the tags in records one after another. -/
def placesOfAll (write : α → Bytes) (places : α → List TagPlace) : List α → List TagPlace
  | [] => []
  | value :: rest =>
    places value ++ (placesOfAll write places rest).map (.behind (write value))

section Lists

variable {write : α → Bytes} {places : α → List TagPlace} {item : Reader α} {values : List α}

theorem in_of_mem_placesOfAll {place : TagPlace}
    (each : ∀ value ∈ values, ∀ place ∈ places value, place.In (write value))
    (member : place ∈ placesOfAll write places values) : place.In (values.flatMap write) := by
  induction values generalizing place with
  | nil => cases member
  | cons value rest ih =>
    rw [List.flatMap_cons]
    rcases List.mem_append.1 member with here | later
    · exact (each value (.head _) place here).append _
    · obtain ⟨inner, inside, rfl⟩ := List.mem_map.1 later
      have deeper := ih (fun other among => each other (.tail _ among)) inside
      simpa using deeper.behind (write value) []

variable {depth : Nat} {tag : UInt8} {input : Bytes}
  (taken : ∀ value ∈ values, (write value).length ≤ depth → ∀ rest,
    item (write value ++ rest) = .ok (value, rest))
include taken

/-- What is wrong with one of the records is found after those before it have been read. -/
theorem Reader.list_unknown {place : TagPlace} (deep : place.before.length < depth)
    (failing : ∀ value ∈ values, ∀ place ∈ places value, place.before.length < depth →
      place.kind.bound ≤ tag →
      item (place.before ++ tag :: input) = .error (.unknownVariant place.kind.name tag))
    (strange : place.kind.bound ≤ tag) (member : place ∈ placesOfAll write places values) :
    Reader.list item values.length (place.before ++ tag :: input)
      = .error (.unknownVariant place.kind.name tag) := by
  induction values generalizing place with
  | nil => cases member
  | cons value rest ih =>
    rw [List.length_cons, Reader.list]
    -- The reader stops in this record, or takes all of it and stops in one of the rest.
    rcases List.mem_append.1 member with here | later
    · exact Reader.andThen_error (failing value (.head _) place here deep strange)
    · obtain ⟨inner, inside, rfl⟩ := List.mem_map.1 later
      simp only [TagPlace.behind, List.length_append] at deep ⊢
      rw [List.append_assoc, Reader.andThen_ok (taken value (.head _) (by omega) _)]
      apply Reader.map_error
      exact ih (fun other among => taken other (.tail _ among)) (by omega)
        (fun other among => failing other (.tail _ among)) strange inside

theorem Reader.list_cut {front lost : Bytes} (deep : front.length ≤ depth)
    (failing : ∀ value ∈ values, ∀ front lost, write value = front ++ lost → lost ≠ [] →
      front.length ≤ depth → item front = .error .endOfInput)
    (whole : values.flatMap write = front ++ lost) (missing : lost ≠ []) :
    Reader.list item values.length front = .error .endOfInput := by
  induction values generalizing front with
  | nil =>
    obtain ⟨-, rfl⟩ := List.append_eq_nil_iff.1 whole.symm
    exact absurd rfl missing
  | cons value rest ih =>
    rw [List.flatMap_cons] at whole
    -- The loss begins either in the first value or behind it.
    apply Reader.andThen_cut value whole missing
    · intro gone some before
      exact failing value (.head _) front gone before some deep
    · rintro more rfl
      rw [List.length_append] at deep
      exact taken value (.head _) (by omega) more
    · rintro more rfl behind
      rw [List.length_append] at deep
      apply Reader.map_error
      exact ih (fun other among => taken other (.tail _ among)) (by omega)
        (fun other among => failing other (.tail _ among)) behind

variable {wrap : List α → β} (few : values.length < lengthBound) (write) (places) (depth)
include few

theorem Reader.counted_unknown {place : TagPlace} (deep : place.before.length < depth)
    (failing : ∀ value ∈ values, ∀ place ∈ places value, place.before.length < depth →
      place.kind.bound ≤ tag →
      item (place.before ++ tag :: input) = .error (.unknownVariant place.kind.name tag))
    (strange : place.kind.bound ≤ tag) (member : place ∈ placesOfAll write places values) :
    (readLength.andThen fun count => (Reader.list item count).map wrap)
        (writeLength values.length ++ (place.before ++ tag :: input))
      = .error (.unknownVariant place.kind.name tag) := by
  rw [Reader.andThen_ok (readLength_writeLength _ few)]
  exact Reader.map_error (Reader.list_unknown taken deep failing strange member)

theorem Reader.counted_cut {front lost : Bytes} (deep : front.length ≤ depth)
    (failing : ∀ value ∈ values, ∀ front lost, write value = front ++ lost → lost ≠ [] →
      front.length ≤ depth → item front = .error .endOfInput)
    (whole : writeLength values.length ++ values.flatMap write = front ++ lost)
    (missing : lost ≠ []) :
    (readLength.andThen fun count => (Reader.list item count).map wrap) front
      = .error .endOfInput := by
  apply Reader.andThen_cut values.length whole missing
  · intro gone some before
    exact Reader.number_cut before some
  · rintro more rfl
    exact readLength_writeLength more few
  · rintro more rfl behind
    rw [List.length_append] at deep
    exact Reader.map_error (Reader.list_cut taken (by omega) failing behind missing)

end Lists

/-! ## Guarded formats -/

namespace Codec

variable {codec : Codec α} {places : α → List TagPlace}

/-- A format finds a record that is cut short, and an unknown tag at each of the given places. -/
structure Guarded (codec : Codec α) (places : α → List TagPlace) : Prop where
  marked : ∀ value, ∀ place ∈ places value, place.In (codec.write value)
  unknown : ∀ value, codec.fits value = true → ∀ place ∈ places value, ∀ tag rest,
    place.kind.bound ≤ tag →
    codec.read (place.before ++ tag :: rest) = .error (.unknownVariant place.kind.name tag)
  short : ∀ value front lost, codec.fits value = true → codec.write value = front ++ lost →
    lost ≠ [] → codec.read front = .error .endOfInput

theorem Guarded.congr {others : α → List TagPlace} (guarded : codec.Guarded places)
    (same : ∀ value, places value = others value) : codec.Guarded others := by
  obtain rfl : places = others := funext same
  exact guarded

/-- A format without tags is guarded if it finds what is cut short. -/
theorem Guarded.of_short
    (short : ∀ value front lost, codec.fits value = true → codec.write value = front ++ lost →
      lost ≠ [] → codec.read front = .error .endOfInput) :
    codec.Guarded fun _ => [] :=
  ⟨nofun, nofun, short⟩

theorem guarded_word32 : word32.Guarded fun _ => [] :=
  .of_short fun _ _ _ _ whole missing => Reader.map_error (Reader.number_cut whole missing)

theorem guarded_word64 : word64.Guarded fun _ => [] :=
  .of_short fun _ _ _ _ whole missing => Reader.map_error (Reader.number_cut whole missing)

/-- What carries its length before it is cut short in the length or in the rest. -/
private theorem counted_cut {next : Nat → Reader α} {content front lost : Bytes}
    (fits : content.length < lengthBound)
    (whole : writeLength content.length ++ content = front ++ lost) (missing : lost ≠ [])
    (later : ∀ more, more.length < content.length → next content.length more = .error .endOfInput) :
    readLength.andThen next front = .error .endOfInput := by
  apply Reader.andThen_cut content.length whole missing
  · intro gone some before
    exact Reader.number_cut before some
  · rintro more rfl
    exact readLength_writeLength more fits
  · intro more _ behind
    exact later more (length_lt_of_cut behind missing)

theorem guarded_bytes : bytes.Guarded fun _ => [] := by
  apply Guarded.of_short
  intro value front lost fits whole missing
  exact counted_cut (of_decide_eq_true fits) whole missing fun more short => Reader.bytes_cut short

theorem guarded_text : text.Guarded fun _ => [] := by
  apply Guarded.of_short
  intro value front lost fits whole missing
  apply counted_cut (of_decide_eq_true fits) whole missing
  intro more short
  exact Reader.andThen_error (Reader.bytes_cut short)

theorem Guarded.pair {first : Codec α} {second : Codec β} {one : α → List TagPlace}
    {two : β → List TagPlace} (left : first.Guarded one) (right : second.Guarded two)
    (readsBack : first.ReadsBack) :
    (first.pair second).Guarded fun value =>
      one value.1 ++ (two value.2).map (.behind (first.write value.1)) := by
  constructor
  case marked =>
    rintro ⟨former, latter⟩ place member
    rcases List.mem_append.1 member with before | behind
    · exact (left.marked former place before).append (second.write latter)
    · obtain ⟨inner, inside, rfl⟩ := List.mem_map.1 behind
      simpa [Codec.pair] using (right.marked latter inner inside).behind (first.write former) []
  case unknown =>
    rintro ⟨former, latter⟩ fits place member tag rest strange
    obtain ⟨fitsFormer, fitsLatter⟩ := Bool.and_eq_true_iff.1 fits
    rcases List.mem_append.1 member with before | behind
    · exact Reader.andThen_error (left.unknown former fitsFormer place before tag rest strange)
    · -- Behind the place of the tag may be anything, but all of the first part is before it.
      obtain ⟨inner, inside, rfl⟩ := List.mem_map.1 behind
      have failed := right.unknown latter fitsLatter inner inside tag rest strange
      simp only [TagPlace.behind, Codec.pair, List.append_assoc]
      rw [Reader.andThen_ok (readsBack former _ fitsFormer)]
      exact Reader.map_error failed
  case short =>
    rintro ⟨former, latter⟩ front lost fits whole missing
    obtain ⟨fitsFormer, fitsLatter⟩ := Bool.and_eq_true_iff.1 fits
    apply Reader.andThen_cut former whole missing
    · intro gone some before
      exact left.short former front gone fitsFormer before some
    · rintro more rfl
      exact readsBack former more fitsFormer
    · intro more _ behind
      exact Reader.map_error (right.short latter more lost fitsLatter behind missing)

theorem Guarded.via (guarded : codec.Guarded places) {wrap : α → β} {unwrap : β → α} :
    (codec.via wrap unwrap).Guarded fun value => places (unwrap value) where
  marked value := guarded.marked (unwrap value)
  unknown value fits place member tag rest strange :=
    Reader.map_error (guarded.unknown (unwrap value) fits place member tag rest strange)
  short value front lost fits whole missing :=
    Reader.map_error (guarded.short (unwrap value) front lost fits whole missing)

/-- The places behind one tag of a choice are those of what the tag stands for. -/
private theorem mem_behind_tag {tag : UInt8} {place : TagPlace} {inner : List TagPlace}
    {next : UInt8 → Reader β} (member : place ∈ inner.map (.behind [tag]))
    (failing : ∀ deeper ∈ inner, ∀ other rest, deeper.kind.bound ≤ other →
      next tag (deeper.before ++ other :: rest) = .error (.unknownVariant deeper.kind.name other))
    (other : UInt8) (rest : Bytes) (strange : place.kind.bound ≤ other) :
    Reader.byte.andThen next (place.before ++ other :: rest)
      = .error (.unknownVariant place.kind.name other) := by
  obtain ⟨deeper, inside, rfl⟩ := List.mem_map.1 member
  exact failing deeper inside other rest strange

theorem Guarded.option (guarded : codec.Guarded places) :
    codec.option.Guarded fun value =>
      (value.elim [] places).map (.behind [1]) := by
  constructor
  case marked =>
    intro value place member
    cases value with
    | none => cases member
    | some found =>
      obtain ⟨inner, inside, rfl⟩ := List.mem_map.1 member
      simpa [Codec.option] using (guarded.marked found inner inside).behind [1] []
  case unknown =>
    intro value fits place member tag rest strange
    cases value with
    | none => cases member
    | some found =>
      refine mem_behind_tag member (fun inner inside other more odd => ?_) tag rest strange
      exact Reader.map_error (guarded.unknown found fits inner inside other more odd)
  case short =>
    intro value front lost fits whole missing
    cases value with
    | none =>
      -- A flag of one byte is cut short to nothing.
      apply Reader.byte_cut whole
      intro more _ behind
      obtain ⟨-, rfl⟩ := List.append_eq_nil_iff.1 behind.symm
      exact absurd rfl missing
    | some found =>
      apply Reader.byte_cut whole
      intro more _ behind
      exact Reader.map_error (guarded.short found more lost fits behind missing)

theorem Guarded.either {first : Codec α} {second : Codec β} {one : α → List TagPlace}
    {two : β → List TagPlace} (left : first.Guarded one) (right : second.Guarded two) :
    (first.either second).Guarded fun value =>
      value.elim (fun former => (one former).map (.behind [0]))
        fun latter => (two latter).map (.behind [1]) := by
  -- What the format of either value finds, it finds behind the tag.
  constructor
  case marked =>
    intro value place member
    cases value with
    | inl former =>
      obtain ⟨inner, inside, rfl⟩ := List.mem_map.1 member
      simpa [Codec.either] using (left.marked former inner inside).behind [0] []
    | inr latter =>
      obtain ⟨inner, inside, rfl⟩ := List.mem_map.1 member
      simpa [Codec.either] using (right.marked latter inner inside).behind [1] []
  case unknown =>
    intro value fits place member tag rest strange
    cases value with
    | inl former =>
      refine mem_behind_tag member (fun inner inside other more odd => ?_) tag rest strange
      exact Reader.map_error (left.unknown former fits inner inside other more odd)
    | inr latter =>
      refine mem_behind_tag member (fun inner inside other more odd => ?_) tag rest strange
      exact Reader.map_error (right.unknown latter fits inner inside other more odd)
  case short =>
    intro value front lost fits whole missing
    cases value with
    | inl former =>
      apply Reader.byte_cut whole
      intro more _ behind
      exact Reader.map_error (left.short former more lost fits behind missing)
    | inr latter =>
      apply Reader.byte_cut whole
      intro more _ behind
      exact Reader.map_error (right.short latter more lost fits behind missing)

end Codec

end Binary

end LinkRegistry
