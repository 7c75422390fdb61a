import LinkRegistry.View.Basic
import LinkRegistry.SignDocument
import LinkRegistry.Proofs.Success
import LinkRegistry.Proofs.Json.Simple

/-!
# Fields of records in views

The fields of a record are laid out in a JSON value in one of two ways: as an object of just these
fields in any order, or as the array of their values in the order of the record. Reading the fields
of a record that knows no other members succeeds exactly on these two, `exactFields_eq_some_iff`.
-/

namespace LinkRegistry.View

variable {names : List String} {values : List Json} {members : List (Option String × Json)}
  {position inner : Position} {json : Json}

/-- The values of the fields of these names, as an object or as an array. -/
inductive LaysOut (names : List String) : Json → List Json → Prop
  /-- Each field stands once, in any order, and there are no other members. -/
  | object {members : List (Option String × Json)} {values : List Json}
      (each : members.Perm ((names.map some).zip values)) (count : values.length = names.length) :
      LaysOut names (.object members) values
  /-- The values stand in the order of the names. -/
  | array {values : List Json} (count : values.length = names.length) :
      LaysOut names (.array values) values

/-! ## Texts -/

theorem text_eq_some_iff {value : String} :
    text position json = some value ↔ json = .ofText value := by
  constructor
  · intro read
    unfold text at read
    split at read
    next own => rw [Option.some.inj read, Json.ofText]
    next => cases read
  · intro own
    simp [own, text, Json.ofText]

@[simp] theorem text_ofText (value : String) : text position (.ofText value) = some value :=
  text_eq_some_iff.2 rfl

/-! ## Members by name -/

theorem field?_eq_some_iff {name : String} :
    field? members name = some (some json) ↔ membersNamed name members = [json] := by
  rw [field?]
  split
  next none => simp [none]
  next found => simp [found]
  next neither single =>
    constructor
    · intro found
      cases found
    · intro alone
      exact absurd alone (single json)

theorem perm_membersNamed {others : List (Option String × Json)} (same : members.Perm others)
    (name : String) : (membersNamed name members).Perm (membersNamed name others) :=
  (same.filter _).map _

theorem membersNamed_filter_ne {name other : String} (apart : name ≠ other) :
    membersNamed name (members.filter (·.1 ≠ some other)) = membersNamed name members := by
  rw [membersNamed, List.filter_filter, membersNamed]
  congr 2
  funext member
  by_cases named : member.1 = some name
  · simp [named, apart]
  · simp [named]

/-- A member that alone has its name can be taken to the front. -/
theorem perm_cons_of_membersNamed {name : String} (alone : membersNamed name members = [json]) :
    members.Perm ((some name, json) :: members.filter (·.1 ≠ some name)) := by
  have single : members.filter (·.1 = some name) = [(some name, json)] := by
    obtain ⟨member, found, rfl⟩ := List.map_eq_singleton_iff.1 alone
    have inside : member ∈ members.filter (·.1 = some name) := by simp [found]
    have named : member.1 = some name := by simpa using (List.mem_filter.1 inside).2
    rw [found, ← named]
  have split := List.filter_append_perm (fun member => decide (member.1 = some name)) members
  rw [single] at split
  simpa using split.symm

theorem perm_zip_of_membersNamed (distinct : names.Nodup) (count : values.length = names.length)
    (each : ∀ pair ∈ names.zip values, membersNamed pair.1 members = [pair.2])
    (known : ∀ member ∈ members, ∃ name ∈ names, member.1 = some name) :
    members.Perm ((names.map some).zip values) := by
  induction names generalizing members values with
  | nil =>
    have none : members = [] := by
      refine List.eq_nil_iff_forall_not_mem.2 fun member inside => ?_
      obtain ⟨name, absent, -⟩ := known member inside
      cases absent
    rw [none]
    exact .nil
  | cons name rest ih =>
    cases values with
    | nil => cases count
    | cons value others =>
      obtain ⟨absent, distinct⟩ := List.nodup_cons.1 distinct
      have front := perm_cons_of_membersNamed (each (name, value) List.mem_cons_self)
      -- What is left when the first field has been taken away are the other fields.
      refine front.trans (.cons _ (ih distinct (Nat.succ.inj count) ?_ ?_))
      · intro pair inside
        have apart : pair.1 ≠ name := by
          intro same
          exact absent (same ▸ (List.of_mem_zip inside).1)
        rw [membersNamed_filter_ne apart]
        exact each pair (List.mem_cons_of_mem _ inside)
      · intro member inside
        obtain ⟨inside, apart⟩ := List.mem_filter.1 inside
        obtain ⟨other, among, named⟩ := known member inside
        rcases List.mem_cons.1 among with same | later
        · simp [named, same] at apart
        · exact ⟨other, later, named⟩

theorem membersNamed_zip (distinct : names.Nodup) {pair : String × Json}
    (inside : pair ∈ names.zip values) :
    membersNamed pair.1 ((names.map some).zip values) = [pair.2] := by
  induction names generalizing values with
  | nil => cases inside
  | cons name rest ih =>
    cases values with
    | nil => cases inside
    | cons value others =>
      obtain ⟨absent, distinct⟩ := List.nodup_cons.1 distinct
      rcases List.mem_cons.1 inside with rfl | later
      · -- The name does not come again.
        have none : ((rest.map some).zip others).filter (·.1 = some name) = [] := by
          refine List.filter_eq_nil_iff.2 fun member among => ?_
          obtain ⟨other, there, named⟩ := List.mem_map.1 (List.of_mem_zip among).1
          simp only [← named, Option.some.injEq, decide_eq_true_eq]
          rintro rfl
          exact absent there
        simp [membersNamed, none]
      · have apart : name ≠ pair.1 := by
          rintro rfl
          exact absent (List.of_mem_zip later).1
        have found := ih distinct later
        simpa [membersNamed, apart] using found

theorem exists_name_of_mem_zip {member : Option String × Json}
    (inside : member ∈ (names.map some).zip values) : ∃ name ∈ names, member.1 = some name := by
  obtain ⟨name, among, named⟩ := List.mem_map.1 (List.of_mem_zip inside).1
  exact ⟨name, among, named.symm⟩

/-- Members are one of each of the names exactly if they are these names with their values. -/
theorem forall₂_field?_iff (distinct : names.Nodup) :
    List.Forall₂ (fun name value => field? members name = some (some value)) names values
        ∧ (∀ member ∈ members, ∃ name ∈ names, member.1 = some name)
      ↔ members.Perm ((names.map some).zip values) ∧ values.length = names.length := by
  rw [List.forall₂_iff_zip]
  simp only [field?_eq_some_iff]
  constructor
  · intro ⟨⟨count, each⟩, known⟩
    exact ⟨perm_zip_of_membersNamed distinct count.symm (fun _ inside => each inside) known,
      count.symm⟩
  · intro ⟨laid, count⟩
    refine ⟨⟨count.symm, fun {name value} inside => ?_⟩, fun member inside => ?_⟩
    · have same := perm_membersNamed laid name
      rw [membersNamed_zip distinct inside] at same
      exact List.perm_singleton.1 same
    · exact exists_name_of_mem_zip (laid.mem_iff.1 inside)

/-! ## Fields of a record -/

theorem fields_object_eq_some_iff {found : List (Option Json)} :
    fields names position (.object members) = some (inner, found)
      ↔ position.inner = some inner ∧ (∀ member ∈ members, member.1.isSome = true)
        ∧ names.mapM (field? members) = some found := by
  unfold fields
  cases room : position.inner with
  | none => simp
  | some place =>
    dsimp only
    split
    next all =>
      have named := List.all_eq_true.1 all
      simp only [Option.map_eq_some_iff, Prod.mk.injEq, Option.some.injEq]
      constructor
      · intro ⟨_, read, same, again⟩
        exact ⟨same, named, again ▸ read⟩
      · intro ⟨same, _, read⟩
        exact ⟨found, read, same, rfl⟩
    next unnamed =>
      simp only [reduceCtorEq, false_iff]
      intro all
      exact unnamed (List.all_eq_true.2 all.2.1)

theorem fields_array_eq_some_iff {items : List Json} {found : List (Option Json)} :
    fields names position (.array items) = some (inner, found)
      ↔ position.inner = some inner ∧ items.length = names.length ∧ items.map some = found := by
  unfold fields
  cases room : position.inner with
  | none => simp
  | some place => by_cases count : items.length = names.length <;> simp [count]

/-- An object has the fields of a record that knows no other members. -/
theorem exactFields_object_eq_some_iff {found : List (Option Json)} :
    exactFields names position (.object members) = some (inner, found)
      ↔ (∀ member ∈ members, ∃ name ∈ names, member.1 = some name)
        ∧ position.inner = some inner ∧ names.mapM (field? members) = some found := by
  -- The check of the names is one on each member.
  have known : (members.all fun member => member.1.any names.contains) = true
      ↔ ∀ member ∈ members, ∃ name ∈ names, member.1 = some name := by
    rw [List.all_eq_true]
    refine forall₂_congr fun member _ => ?_
    cases name : member.1 <;> simp
  rw [exactFields]
  split
  next all =>
    rw [fields_object_eq_some_iff]
    have each := known.1 all
    -- A member with a known name has a name, so what is asked of other records holds too.
    have named : ∀ member ∈ members, member.1.isSome = true := by
      intro member inside
      obtain ⟨name, -, same⟩ := each member inside
      simp [same]
    exact ⟨fun ⟨room, _, read⟩ => ⟨each, room, read⟩, fun ⟨_, room, read⟩ => ⟨room, named, read⟩⟩
  next unknown =>
    simp only [reduceCtorEq, false_iff]
    intro all
    exact unknown (known.2 all.1)

theorem LaysOut.isSound_iff {levels : Nat} (laid : LaysOut names json values) :
    json.isSound (levels + 1) = true ↔ ∀ value ∈ values, value.isSound levels = true := by
  cases laid with
  | array count => exact Json.isSound_array
  | @object members _ each count =>
    have second : ((names.map some).zip values).map Prod.snd = values :=
      List.map_snd_zip (by simp [count])
    have same : (members.map Prod.snd).Perm values := second ▸ each.map Prod.snd
    -- Every name is one of the names of the record, so only the values matter.
    have named : ∀ member ∈ members, member.1.isSome = true := by
      intro member inside
      obtain ⟨name, -, found⟩ := exists_name_of_mem_zip (each.mem_iff.1 inside)
      simp [found]
    rw [Json.isSound_object]
    constructor
    · intro sound value among
      obtain ⟨member, inside, rfl⟩ := List.mem_map.1 (same.mem_iff.2 among)
      exact (sound member inside).2
    · intro sound member inside
      exact ⟨named member inside, sound _ (same.mem_iff.1 (List.mem_map_of_mem inside))⟩

/-- Reading the fields of a record finds them in either layout. -/
theorem LaysOut.fields_eq (laid : LaysOut names json values) (distinct : names.Nodup)
    (room : position.inner = some inner) :
    fields names position json = some (inner, values.map some) := by
  cases laid with
  | object each count =>
    obtain ⟨found, known⟩ := (forall₂_field?_iff distinct).2 ⟨each, count⟩
    refine fields_object_eq_some_iff.2 ⟨room, fun member inside => ?_, ?_⟩
    · obtain ⟨name, -, named⟩ := known member inside
      simp [named]
    · exact mapM_eq_some_iff.2 (List.forall₂_map_right_iff.2 found)
  | array count => exact fields_array_eq_some_iff.2 ⟨room, count, rfl⟩

/-- A record that knows no other members is read from its two layouts and from nothing else. -/
theorem exactFields_eq_some_iff (distinct : names.Nodup) :
    exactFields names position json = some (inner, values.map some)
      ↔ position.inner = some inner ∧ LaysOut names json values := by
  cases json with
  | object members =>
    rw [exactFields_object_eq_some_iff, mapM_eq_some_iff, List.forall₂_map_right_iff]
    constructor
    · intro ⟨known, room, found⟩
      obtain ⟨each, count⟩ := (forall₂_field?_iff distinct).1 ⟨found, known⟩
      exact ⟨room, .object each count⟩
    · intro ⟨room, laid⟩
      cases laid with
      | object each count =>
        obtain ⟨found, known⟩ := (forall₂_field?_iff distinct).2 ⟨each, count⟩
        exact ⟨known, room, found⟩
  | array items =>
    rw [exactFields, fields_array_eq_some_iff]
    · constructor
      · intro ⟨room, count, same⟩
        obtain rfl := List.map_injective_iff.2 (fun _ _ => Option.some.inj) same
        exact ⟨room, .array count⟩
      · intro ⟨room, laid⟩
        cases laid with
        | array count => exact ⟨room, count, rfl⟩
    · exact fun _ => Json.noConfusion
  | _ =>
    -- A scalar has no fields.
    constructor
    · intro read
      simp [exactFields, fields] at read
    · intro ⟨_, laid⟩
      cases laid

end LinkRegistry.View
