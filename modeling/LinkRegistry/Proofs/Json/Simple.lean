import LinkRegistry.Json.Basic

/-!
# Simple JSON values

A value is sound as far as every part of it is. A simple value holds nothing that could be
unsound: its strings and names are texts and its numbers are natural numbers of 64 bits. So the only
question left about it is how deep it nests.
-/

namespace LinkRegistry.Json

variable {levels : Nat}

/-! ## Part by part -/

theorem ofMembers_eq (members : List (String × Json)) :
    ofMembers members = .object (members.map fun member => (some member.1, member.2)) := rfl

theorem areSound_iff {items : List Json} :
    areSound levels items = true ↔ ∀ item ∈ items, item.isSound levels = true := by
  induction items with
  | nil => simp [areSound]
  | cons item rest ih => simp [areSound, ih]

theorem membersAreSound_iff {members : List (Option String × Json)} :
    membersAreSound levels members = true
      ↔ ∀ member ∈ members, member.1.isSome = true ∧ member.2.isSound levels = true := by
  induction members with
  | nil => simp [membersAreSound]
  | cons member rest ih => simp [membersAreSound, ih, and_assoc]

@[simp] theorem isSound_array {items : List Json} :
    (Json.array items).isSound (levels + 1) = true
      ↔ ∀ item ∈ items, item.isSound levels = true := by
  rw [isSound, areSound_iff]

@[simp] theorem isSound_object {members : List (Option String × Json)} :
    (Json.object members).isSound (levels + 1) = true
      ↔ ∀ member ∈ members, member.1.isSome = true ∧ member.2.isSound levels = true := by
  rw [isSound, membersAreSound_iff]

@[simp] theorem isSound_ofText (text : String) : (ofText text).isSound levels = true := by
  simp [ofText, isSound]

theorem depthOfItems_le_iff {items : List Json} :
    depthOfItems items ≤ levels ↔ ∀ item ∈ items, item.depth ≤ levels := by
  induction items with
  | nil => simp [depthOfItems]
  | cons item rest ih => rw [depthOfItems, Nat.max_le, ih, List.forall_mem_cons]

theorem depthOfMembers_le_iff {members : List (Option String × Json)} :
    depthOfMembers members ≤ levels ↔ ∀ member ∈ members, member.2.depth ≤ levels := by
  induction members with
  | nil => simp [depthOfMembers]
  | cons member rest ih => rw [depthOfMembers, Nat.max_le, ih, List.forall_mem_cons]

theorem depth_array_le_iff {items : List Json} :
    (Json.array items).depth ≤ levels + 1 ↔ ∀ item ∈ items, item.depth ≤ levels := by
  rw [depth, Nat.add_le_add_iff_right, depthOfItems_le_iff]

theorem depth_ofMembers_le_iff {members : List (String × Json)} :
    (ofMembers members).depth ≤ levels + 1 ↔ ∀ member ∈ members, member.2.depth ≤ levels := by
  rw [ofMembers, depth, Nat.add_le_add_iff_right, depthOfMembers_le_iff, List.forall_mem_map]

theorem exists_levels_of_depth_ofMembers_le {members : List (String × Json)}
    (room : (ofMembers members).depth ≤ levels) :
    ∃ inner, levels = inner + 1 ∧ ∀ member ∈ members, member.2.depth ≤ inner := by
  cases levels with
  | zero => simp [ofMembers, depth] at room
  | succ inner => exact ⟨inner, rfl, depth_ofMembers_le_iff.1 room⟩

theorem depth_le_depth_array {items : List Json} {item : Json} (inside : item ∈ items) :
    item.depth ≤ (Json.array items).depth := by
  rw [depth]
  exact Nat.le_succ_of_le (depthOfItems_le_iff.1 (Nat.le_refl _) item inside)

/-! ## Simple values -/

/-- A value of texts, natural numbers of 64 bits, nulls and truth values in arrays and objects. -/
inductive IsSimple : Json → Prop
  | null : IsSimple .null
  | bool (value : Bool) : IsSimple (.bool value)
  | number {value : Nat} (small : value < Nat.pow 2 64) : IsSimple (ofNat value)
  | text (value : String) : IsSimple (ofText value)
  | array {items : List Json} (each : ∀ item ∈ items, IsSimple item) : IsSimple (.array items)
  | members {members : List (String × Json)} (each : ∀ member ∈ members, IsSimple member.2) :
      IsSimple (ofMembers members)

theorem not_overflows_ofNat {value : Nat} (small : value < Nat.pow 2 64) :
    (Number.ofNat value).overflows = false := by
  simp only [Number.overflows, Number.ofNat, small, decide_true, Bool.true_and, Bool.true_or,
    if_true]

/-- A simple value can be unsound only by nesting too deep. -/
theorem IsSimple.isSound_iff {json : Json} (simple : IsSimple json) :
    json.isSound levels = true ↔ json.depth ≤ levels := by
  induction simple generalizing levels with
  | null => simp [isSound, depth]
  | bool value => simp [isSound, depth]
  | number small => simp [ofNat, isSound, depth, not_overflows_ofNat small]
  | text value => simp [ofText, depth, isSound]
  -- An array or object takes one level of nesting and asks the rest of what is in it.
  | array each ih =>
    cases levels with
    | zero => simp [isSound, depth]
    | succ levels =>
      rw [isSound_array, depth_array_le_iff]
      exact forall₂_congr fun item member => ih item member
  | members each ih =>
    cases levels with
    | zero => simp [ofMembers, isSound, depth]
    | succ levels =>
      rw [depth_ofMembers_le_iff, ofMembers, isSound_object]
      simp only [List.forall_mem_map, Option.isSome_some, true_and]
      exact forall₂_congr fun member inside => ih member inside

end LinkRegistry.Json
