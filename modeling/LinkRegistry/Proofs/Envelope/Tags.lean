import Mathlib.Data.List.Forall2
import LinkRegistry.Envelope.Validity
import LinkRegistry.Envelope.Verification

/-!
# Tags of envelopes

An envelope is a tree whose leaves are signatures, each with a value type for its tag. It has a
value type exactly if no list of parts in it is empty and every signature has that tag. Tagging it
afresh gives the one envelope that differs in tags alone and has the new tag throughout. Neither
verification nor the rules look at tags, so they find the same before and after. Main statement,
`Envelope.retag_changes_tags_only`.
-/

namespace LinkRegistry.Envelope

/-! ## Nodes -/

/-- Induction with a hypothesis for every part. -/
@[elab_as_elim, induction_eliminator]
theorem induction_on_parts {motive : Envelope → Prop}
    (single : ∀ tag signature, motive (.single tag signature))
    (multi : ∀ selector parts, (∀ part ∈ parts, motive part) → motive (.multi selector parts)) :
    ∀ envelope, motive envelope
  | .single tag signature => single tag signature
  | .multi selector parts => multi selector parts fun part _ =>
      induction_on_parts single multi part

/-- An envelope contains itself and whatever its parts contain. -/
inductive Contains : Envelope → Envelope → Prop
  | self (envelope : Envelope) : Contains envelope envelope
  | part {selector : BitSelector} {parts : List Envelope} {part node : Envelope}
      (member : part ∈ parts) (inside : Contains part node) : Contains (.multi selector parts) node

/-- Every signature in an envelope has this tag. -/
def TaggedWith (envelope : Envelope) (valueType : ValueType) : Prop :=
  ∀ tag signature, envelope.Contains (.single tag signature) → tag = valueType

/-- No list of parts in an envelope is empty. -/
def NoneEmpty (envelope : Envelope) : Prop :=
  ∀ selector, ¬ envelope.Contains (.multi selector [])

section

variable {node : Envelope} {tag valueType : ValueType} {signature : Bytes} {selector : BitSelector}
  {parts : List Envelope}

@[simp]
theorem contains_single_iff :
    (single tag signature).Contains node ↔ node = .single tag signature := by
  constructor
  · intro inside
    cases inside
    rfl
  · rintro rfl
    exact .self _

@[simp]
theorem contains_multi_iff :
    (multi selector parts).Contains node
      ↔ node = .multi selector parts ∨ ∃ part ∈ parts, part.Contains node := by
  constructor
  · intro inside
    cases inside with
    | self => exact .inl rfl
    | part member inside => exact .inr ⟨_, member, inside⟩
  · rintro (rfl | ⟨part, member, inside⟩)
    · exact .self _
    · exact .part member inside

@[simp]
theorem taggedWith_single_iff : (single tag signature).TaggedWith valueType ↔ tag = valueType := by
  simp [TaggedWith]

@[simp]
theorem taggedWith_multi_iff :
    (multi selector parts).TaggedWith valueType ↔ ∀ part ∈ parts, part.TaggedWith valueType := by
  simp only [TaggedWith, contains_multi_iff, reduceCtorEq, false_or]
  constructor
  · intro all part member tag signature inside
    exact all tag signature ⟨part, member, inside⟩
  · rintro each tag signature ⟨part, member, inside⟩
    exact each part member tag signature inside

@[simp]
theorem noneEmpty_single : (single tag signature).NoneEmpty := by
  simp [NoneEmpty]

@[simp]
theorem noneEmpty_multi_iff :
    (multi selector parts).NoneEmpty ↔ parts ≠ [] ∧ ∀ part ∈ parts, part.NoneEmpty := by
  simp only [NoneEmpty, contains_multi_iff, multi.injEq, not_or, not_exists, not_and]
  constructor
  · intro none
    refine ⟨fun empty => (none selector).1 rfl empty.symm, fun part member other => ?_⟩
    exact (none other).2 part member
  · rintro ⟨some, each⟩ other
    exact ⟨fun _ empty => some empty.symm, fun part member => each part member other⟩

end

/-! ## Value types -/

/-- A list of envelopes has a common value type if each of them has it and there is one at all. -/
theorem commonValueType_eq_ok_iff {index : Nat} {common : Option ValueType} {parts : List Envelope}
    {valueType : ValueType} :
    commonValueType index common parts = .ok valueType
      ↔ (common = some valueType ∨ common = none ∧ parts ≠ [])
        ∧ ∀ part ∈ parts, part.valueType = .ok valueType := by
  -- The induction is for any value type found so far: once there is one, the rest must agree with it.
  induction parts generalizing index common with
  | nil => cases common <;> simp [commonValueType]
  | cons part rest ih =>
    rw [commonValueType, List.forall_mem_cons]
    cases part.valueType with
    | error error => simp
    | ok own =>
      cases common with
      | none => simp [ih]
      | some existing =>
        by_cases same : existing = own
        · simp [same, ih]
        · -- Two that differ are an error, and they cannot both be the one that is asked for.
          simp only [ne_eq, same, not_false_eq_true, ↓reduceIte, reduceCtorEq, Option.some.injEq,
            Except.ok.injEq, false_and, or_false, false_iff]
          rintro ⟨rfl, rfl, -⟩
          exact same rfl

/-- An envelope has a value type if it has signatures everywhere and all have that tag. -/
theorem valueType_eq_ok_iff {envelope : Envelope} {valueType : ValueType} :
    envelope.valueType = .ok valueType ↔ envelope.NoneEmpty ∧ envelope.TaggedWith valueType := by
  induction envelope with
  | single tag signature => simp [Envelope.valueType]
  | multi selector parts ih =>
    have each : (∀ part ∈ parts, part.valueType = .ok valueType)
        ↔ ∀ part ∈ parts, part.NoneEmpty ∧ part.TaggedWith valueType :=
      forall₂_congr ih
    simp [Envelope.valueType, commonValueType_eq_ok_iff, each, forall_and, and_assoc]

/-! ## Differing in tags -/

/-- Two envelopes are the same but for the tags of their signatures. -/
inductive SameButTags : Envelope → Envelope → Prop
  | single (tag other : ValueType) (signature : Bytes) :
      SameButTags (.single tag signature) (.single other signature)
  | multi (selector : BitSelector) {parts others : List Envelope}
      (each : List.Forall₂ SameButTags parts others) :
      SameButTags (.multi selector parts) (.multi selector others)

theorem SameButTags.refl (envelope : Envelope) : envelope.SameButTags envelope := by
  induction envelope with
  | single tag signature => exact .single tag tag signature
  | multi selector parts ih => exact .multi selector (List.forall₂_same.2 ih)

/-- What follows for each part from a part in its place that differs in tags alone. -/
theorem forall₂_of_sameButTags {parts others : List Envelope} {follows : Envelope → Envelope → Prop}
    (each : List.Forall₂ SameButTags parts others)
    (ofPart : ∀ part ∈ parts, ∀ {other}, part.SameButTags other → follows part other) :
    List.Forall₂ follows parts others :=
  ((List.forall₂_and_left _ _).2 ⟨ofPart, each⟩).imp fun _ _ ⟨ofPart, same⟩ => ofPart same

section

variable {message : Bytes} {parts others : List Envelope}

theorem countRight_congr
    (each : List.Forall₂
      (fun part other => ∀ key, verify message part key = verify message other key) parts others)
    (keys : List PublicKey) :
    countRight message parts keys = countRight message others keys := by
  induction each generalizing keys with
  | nil => rfl
  | cons first _ ih =>
    cases keys with
    | nil => simp only [countRight]
    | cons key rest => simp only [countRight, first, ih]

theorem validateAll_congr
    (each : List.Forall₂ (fun part other => validate part = validate other) parts others) :
    validateAll parts = validateAll others := by
  induction each with
  | nil => rfl
  | cons first _ ih => simp only [validateAll, first, ih]

end

section

variable {envelope other : Envelope} (same : envelope.SameButTags other)
include same

/-- Verification does not look at tags. -/
theorem SameButTags.verify_eq (message : Bytes) (key : PublicKey) :
    envelope.verify message key = other.verify message key := by
  induction envelope generalizing other key with
  | single tag signature =>
    cases same
    cases key <;> simp only [verify]
  | multi selector parts ih =>
    cases same with | multi _ each
    cases key with
    | secp256k1 bytes | ed25519 bytes => simp only [verify]
    | multisig threshold members =>
      -- Each part meets a key of its own, so the hypothesis for it must hold for every key.
      have counted := countRight_congr (forall₂_of_sameButTags each ih) (selector.choose members)
      simp only [verify, each.length_eq, counted]

/-- The rules for an envelope do not look at tags. -/
theorem SameButTags.validate_eq : envelope.validate = other.validate := by
  induction envelope generalizing other with
  | single tag signature =>
    cases same
    simp only [validate]
  | multi selector parts ih =>
    cases same with | multi _ each
    have checked := validateAll_congr (forall₂_of_sameButTags each ih)
    simp only [validate, each.length_eq, checked]

end

/-! ## Tagging afresh -/

private theorem map_eq_of_forall₂ {α β : Type} {change : α → β} {holds : β → Prop} {items : List α}
    {results : List β}
    (each : List.Forall₂ (fun item result => holds result → change item = result) items results)
    (all : ∀ result ∈ results, holds result) : items.map change = results := by
  induction each with
  | nil => rfl
  | cons first _ ih =>
    rw [List.forall_mem_cons] at all
    rw [List.map_cons, first all.1, ih all.2]

theorem retagAll_eq_map (valueType : ValueType) (parts : List Envelope) :
    retagAll valueType parts = parts.map (retag valueType) := by
  induction parts with
  | nil => rfl
  | cons part rest ih => rw [retagAll, List.map_cons, ih]

section

variable (valueType : ValueType) (envelope : Envelope)

theorem sameButTags_retag : envelope.SameButTags (envelope.retag valueType) := by
  induction envelope with
  | single tag signature => exact .single tag valueType signature
  | multi selector parts ih =>
    rw [retag, retagAll_eq_map]
    exact .multi selector (List.forall₂_map_right_iff.2 (List.forall₂_same.2 ih))

theorem taggedWith_retag : (envelope.retag valueType).TaggedWith valueType := by
  induction envelope with
  | single tag signature => exact taggedWith_single_iff.2 rfl
  | multi selector parts ih =>
    rw [retag, retagAll_eq_map, taggedWith_multi_iff]
    exact List.forall_mem_map.2 ih

theorem noneEmpty_retag_iff : (envelope.retag valueType).NoneEmpty ↔ envelope.NoneEmpty := by
  induction envelope with
  | single tag signature => simp [retag]
  | multi selector parts ih =>
    rw [retag, retagAll_eq_map, noneEmpty_multi_iff, noneEmpty_multi_iff, List.forall_mem_map]
    exact and_congr (by simp) (forall₂_congr ih)

/-- Only the last tag counts. -/
theorem retag_retag (other : ValueType) :
    (envelope.retag valueType).retag other = envelope.retag other := by
  induction envelope with
  | single tag signature => simp only [retag]
  | multi selector parts ih =>
    simp only [retag, retagAll_eq_map, List.map_map]
    exact congrArg _ (List.map_congr_left ih)

end

section

variable {envelope other : Envelope} {valueType : ValueType}

/-- Tagging afresh gives the one envelope that differs in tags alone and has the tag throughout. -/
theorem retag_eq_iff :
    envelope.retag valueType = other
      ↔ envelope.SameButTags other ∧ other.TaggedWith valueType := by
  constructor
  · rintro rfl
    exact ⟨sameButTags_retag valueType envelope, taggedWith_retag valueType envelope⟩
  · rintro ⟨same, tagged⟩
    induction envelope generalizing other with
    | single tag signature =>
      cases same
      rw [retag, taggedWith_single_iff.1 tagged]
    | multi selector parts ih =>
      cases same with | @multi _ _ others each
      -- The parts in the place of the old ones are tagged throughout, as the whole is.
      have alike : List.Forall₂
          (fun part other => other.TaggedWith valueType → part.retag valueType = other)
          parts others := forall₂_of_sameButTags each fun part member _ same => ih part member same
      rw [retag, retagAll_eq_map, map_eq_of_forall₂ alike (taggedWith_multi_iff.1 tagged)]

theorem retag_eq_self_iff :
    envelope.retag valueType = envelope ↔ envelope.TaggedWith valueType := by
  rw [retag_eq_iff, and_iff_right (.refl envelope)]

/-- Tagging an envelope with the value type that it has changes nothing. -/
theorem retag_of_valueType (typed : envelope.valueType = .ok valueType) :
    envelope.retag valueType = envelope :=
  retag_eq_self_iff.2 (valueType_eq_ok_iff.1 typed).2

/-- An envelope that has a value type has the new one once it is tagged. -/
theorem valueType_retag {found : ValueType} (typed : envelope.valueType = .ok found) :
    (envelope.retag valueType).valueType = .ok valueType := by
  rw [valueType_eq_ok_iff, noneEmpty_retag_iff]
  exact ⟨(valueType_eq_ok_iff.1 typed).1, taggedWith_retag valueType envelope⟩

/-- A tagged envelope has no other value type. -/
theorem eq_of_valueType_retag {found : ValueType}
    (typed : (envelope.retag valueType).valueType = .ok found) : found = valueType := by
  obtain ⟨some, -⟩ := valueType_eq_ok_iff.1 typed
  have own := valueType_eq_ok_iff.2 ⟨some, taggedWith_retag valueType envelope⟩
  exact Except.ok.inj (typed.symm.trans own)

end

section

variable (valueType : ValueType) (envelope : Envelope)

theorem verify_retag (message : Bytes) (key : PublicKey) :
    (envelope.retag valueType).verify message key = envelope.verify message key :=
  ((sameButTags_retag valueType envelope).verify_eq message key).symm

theorem validate_retag : (envelope.retag valueType).validate = envelope.validate :=
  (sameButTags_retag valueType envelope).validate_eq.symm

end

/-- An envelope has a value type exactly if no list of parts in it is empty and all signatures have
that tag. Tagging afresh changes tags alone and all of them, so that neither verification nor the
rules find anything else than before; of two taggings the later one counts, and nothing is changed
exactly if the tags were there already. -/
theorem retag_changes_tags_only (envelope : Envelope) (valueType other : ValueType)
    (key : PublicKey) (message : Bytes) :
    (envelope.valueType = .ok valueType ↔ envelope.NoneEmpty ∧ envelope.TaggedWith valueType)
      ∧ (∀ result, envelope.retag valueType = result
          ↔ envelope.SameButTags result ∧ result.TaggedWith valueType)
      ∧ (envelope.retag valueType).verify message key = envelope.verify message key
      ∧ (envelope.retag valueType).validate = envelope.validate
      ∧ (envelope.retag valueType).retag other = envelope.retag other
      ∧ (envelope.retag valueType = envelope ↔ envelope.TaggedWith valueType) :=
  ⟨valueType_eq_ok_iff, fun _ => retag_eq_iff, verify_retag valueType envelope message key,
    validate_retag valueType envelope, retag_retag valueType envelope other, retag_eq_self_iff⟩

end LinkRegistry.Envelope
