import Mathlib.Algebra.Order.Floor.Div
import Mathlib.Data.List.Sort
import LinkRegistry.Envelope.Verification
import LinkRegistry.Proofs.Success

/-!
# The verdict on an envelope

An envelope is judged right or wrong for a key by recursion on both. A signature is judged by the
check of its key's algorithm. The signatures of a threshold key are judged by the members at the
selected positions, and are right if enough of them are right; one that cannot be judged leaves the
whole unjudged. Verification succeeds exactly if the verdict is right, reports a mismatch exactly
if it is wrong, and a broken rule if there is none. Main statement, `Envelope.verify_eq_verdict`.
-/

namespace LinkRegistry

/-! ## Verdicts -/

inductive Verdict
  | right
  | wrong
  deriving DecidableEq

/-- A check comes to a verdict. -/
def Verdict.Of : Verdict → Except LinkError Unit → Prop
  | .right, outcome => outcome = .ok ()
  | .wrong, outcome => ∃ fault, outcome = .error (.signatureMismatch fault)

theorem Verdict.not_of_validation {verdict : Verdict} {fault : ValidationFault} :
    ¬ verdict.Of (.error (.validation fault)) := by
  cases verdict <;> simp [Verdict.Of]

theorem Verdict.of_ite_iff {verdict : Verdict} {fault : SignatureFault} {right needed : Nat} :
    verdict.Of (if right < needed then .error (.signatureMismatch fault) else .ok ())
      ↔ (verdict = .right ↔ needed ≤ right) := by
  cases verdict <;> by_cases short : right < needed <;> simp [Verdict.Of, short]
  all_goals omega

/-- Positions are the selected ones, in ascending order. -/
structure BitSelector.Selects (selector : BitSelector) (positions : List Nat) : Prop where
  ascending : positions.Pairwise (· < ·)
  mem_iff : ∀ position, position ∈ positions ↔ selector.get position = true

namespace Envelope

/-- The signatures of a threshold key keep the rules, and these are the selected positions and the
members there. -/
structure Assigned (selector : BitSelector) (parts : List Envelope) (threshold : UInt32)
    (members : List PublicKey) (positions : List Nat) (keys : List PublicKey) : Prop where
  positive : 0 < threshold.toNat
  attainable : threshold.toNat ≤ members.length
  covers : selector.bits.toNat = members.length
  whole : selector.bytes.length = selector.bits.toNat ⌈/⌉ 8
  selects : selector.Selects positions
  supplied : positions.length = parts.length
  signers : List.Forall₂ (fun position key => members[position]? = some key) positions keys

mutual

/-- An envelope comes to a verdict under a key. -/
inductive Judged (message : Bytes) : Envelope → PublicKey → Verdict → Prop
  | secp256k1 {valueType : ValueType} {signature key : Bytes} {verdict : Verdict}
      (checked : verdict.Of (checkSecp256k1 message signature key)) :
      Judged message (.single valueType signature) (.secp256k1 key) verdict
  | ed25519 {valueType : ValueType} {signature key : Bytes} {verdict : Verdict}
      (checked : verdict.Of (checkEd25519 message signature key)) :
      Judged message (.single valueType signature) (.ed25519 key) verdict
  | multi {selector : BitSelector} {parts : List Envelope} {threshold : UInt32}
      {members keys : List PublicKey} {positions : List Nat} {verdicts : List Verdict}
      {verdict : Verdict} (assigned : Assigned selector parts threshold members positions keys)
      (each : JudgedEach message parts keys verdicts)
      (decided : verdict = .right ↔ threshold.toNat ≤ verdicts.count .right) :
      Judged message (.multi selector parts) (.multisig threshold members) verdict

/-- Envelopes come to verdicts under the keys beside them. -/
inductive JudgedEach (message : Bytes) : List Envelope → List PublicKey → List Verdict → Prop
  | nil : JudgedEach message [] [] []
  | cons {part : Envelope} {key : PublicKey} {verdict : Verdict} {parts : List Envelope}
      {keys : List PublicKey} {verdicts : List Verdict} (first : Judged message part key verdict)
      (rest : JudgedEach message parts keys verdicts) :
      JudgedEach message (part :: parts) (key :: keys) (verdict :: verdicts)

end

end Envelope

/-! ## Positions -/

namespace BitSelector

variable {selector : BitSelector}

theorem lt_bits_of_get {position : Nat} (selected : selector.get position = true) :
    position < selector.bits.toNat := by
  rw [get, Bool.and_eq_true, decide_eq_true_eq] at selected
  exact selected.1

theorem lt_bytes_of_get {position : Nat} (selected : selector.get position = true) :
    position < 8 * selector.bytes.length := by
  rw [get, Bool.and_eq_true] at selected
  cases found : selector.bytes[position / 8]? with
  | none => simp [found] at selected
  | some byte =>
    obtain ⟨within, -⟩ := List.getElem?_eq_some_iff.1 found
    omega

theorem selects_indices (selector : BitSelector) : selector.Selects selector.indices where
  ascending := List.pairwise_lt_range.filter _
  mem_iff position := by
    rw [indices, List.mem_filter, List.mem_range, and_iff_right_iff_imp]
    intro selected
    exact lt_min (lt_bits_of_get selected) (lt_bytes_of_get selected)

theorem Selects.eq_indices {positions : List Nat} (selects : selector.Selects positions) :
    positions = selector.indices := by
  apply selects.ascending.eq_of_mem_iff selector.selects_indices.ascending
  intro position
  rw [selects.mem_iff, selector.selects_indices.mem_iff]

theorem isWellFormed_iff :
    selector.isWellFormed = true ↔ selector.bytes.length = selector.bits.toNat ⌈/⌉ 8 := by
  rw [isWellFormed, decide_eq_true_iff, byteCount, Nat.ceilDiv_eq_add_pred_div, Nat.add_sub_assoc]
  decide

private theorem forall₂_getElem?_iff {α : Type} {positions : List Nat} {items chosen : List α}
    (within : ∀ position ∈ positions, position < items.length) :
    List.Forall₂ (fun position item => items[position]? = some item) positions chosen
      ↔ chosen = positions.filterMap (items[·]?) := by
  induction positions generalizing chosen with
  | nil => simp
  | cons position rest ih =>
    rw [List.forall_mem_cons] at within
    have there := List.getElem?_eq_getElem within.1
    rw [List.forall₂_cons_left_iff, List.filterMap_cons, there]
    constructor
    · rintro ⟨item, others, here, later, rfl⟩
      rw [(ih within.2).1 later, Option.some.inj here]
    · rintro rfl
      exact ⟨_, _, rfl, (ih within.2).2 rfl, rfl⟩

theorem lt_length_of_mem_indices {α : Type} {items : List α}
    (covers : selector.bits.toNat = items.length) :
    ∀ position ∈ selector.indices, position < items.length := by
  intro position member
  rw [← covers]
  exact lt_bits_of_get ((selector.selects_indices.mem_iff position).1 member)

/-- A selector of as many positions as there are items chooses the item at each position. -/
theorem forall₂_choose_iff {α : Type} {items chosen : List α}
    (covers : selector.bits.toNat = items.length) :
    List.Forall₂ (fun position item => items[position]? = some item) selector.indices chosen
      ↔ chosen = selector.choose items :=
  forall₂_getElem?_iff (lt_length_of_mem_indices covers)

end BitSelector

/-! ## Errors -/

theorem validation_of_parseSecp256k1Key {key : Bytes} {error : LinkError}
    (failed : parseSecp256k1Key key = .error error) : ∃ fault, error = .validation fault := by
  rw [parseSecp256k1Key] at failed
  split at failed
  · exact ⟨_, (Except.error.inj failed).symm⟩
  · split at failed
    · cases failed
    · exact ⟨_, (Except.error.inj failed).symm⟩

/-- The failures of a check of a signature: a rule that is broken, or a mismatch. -/
def LinkError.IsVerdict (error : LinkError) : Prop :=
  (∃ fault, error = .validation fault) ∨ ∃ fault, error = .signatureMismatch fault

theorem isVerdict_of_checkSecp256k1 {message signature key : Bytes} {error : LinkError}
    (failed : checkSecp256k1 message signature key = .error error) : error.IsVerdict := by
  rw [checkSecp256k1] at failed
  split at failed
  · next cause unusable =>
    rw [← Except.error.inj failed]
    exact .inl (validation_of_parseSecp256k1Key unusable)
  · split at failed
    · exact .inr ⟨_, (Except.error.inj failed).symm⟩
    · split at failed
      · cases failed
      · exact .inr ⟨_, (Except.error.inj failed).symm⟩

theorem isVerdict_of_checkEd25519 {message signature key : Bytes} {error : LinkError}
    (failed : checkEd25519 message signature key = .error error) : error.IsVerdict := by
  rw [checkEd25519] at failed
  split at failed
  · exact .inl ⟨_, (Except.error.inj failed).symm⟩
  · split at failed
    · exact .inl ⟨_, (Except.error.inj failed).symm⟩
    · split at failed
      · exact .inr ⟨_, (Except.error.inj failed).symm⟩
      · split at failed
        · cases failed
        · exact .inr ⟨_, (Except.error.inj failed).symm⟩

namespace Envelope

section

variable {message : Bytes} {selector : BitSelector} {parts : List Envelope} {threshold : UInt32}
  {members keys : List PublicKey} {positions : List Nat}

theorem Assigned.choose_eq (assigned : Assigned selector parts threshold members positions keys) :
    keys = selector.choose members := by
  have signers := assigned.signers
  rw [assigned.selects.eq_indices] at signers
  exact (BitSelector.forall₂_choose_iff assigned.covers).1 signers

theorem Assigned.length_eq (assigned : Assigned selector parts threshold members positions keys) :
    parts.length = keys.length := by
  rw [← assigned.supplied, assigned.signers.length_eq]

/-- Signatures that keep the rules are counted. -/
theorem Assigned.verify_eq (assigned : Assigned selector parts threshold members positions keys) :
    verify message (.multi selector parts) (.multisig threshold members)
      = (countRight message parts keys).bind fun right =>
        if right < threshold.toNat then
          .error (.signatureMismatch (.belowThreshold right parts.length threshold.toNat))
        else .ok () := by
  have positive : threshold ≠ 0 := by
    rintro rfl
    exact absurd assigned.positive (by decide)
  have attainable := assigned.attainable.not_gt
  have whole := BitSelector.isWellFormed_iff.2 assigned.whole
  have supplied := assigned.selects.eq_indices ▸ assigned.supplied
  rw [verify, if_neg (by simp [positive, attainable]), if_neg (by simp [assigned.covers, whole]),
    if_neg (by simp [supplied]), ← assigned.choose_eq]
  cases countRight message parts keys <;> rfl

/-- Signatures that do not keep the rules are refused for the rule. -/
theorem exists_assigned_or_validation (message : Bytes) (selector : BitSelector)
    (parts : List Envelope) (threshold : UInt32) (members : List PublicKey) :
    (∃ positions keys, Assigned selector parts threshold members positions keys)
      ∨ ∃ fault, verify message (.multi selector parts) (.multisig threshold members)
        = .error (.validation fault) := by
  rw [verify]
  -- The rules are checked one after the other, and what passes all of them is assigned.
  split
  · exact .inr ⟨_, rfl⟩
  · next sized =>
    split
    · exact .inr ⟨_, rfl⟩
    · next covering =>
      split
      · exact .inr ⟨_, rfl⟩
      · next supplied =>
        rw [Bool.or_eq_true, not_or, decide_eq_true_eq, decide_eq_true_eq, not_lt] at sized
        rw [Bool.or_eq_true, not_or, decide_eq_true_eq, not_not, Bool.not_eq_true',
          Bool.not_eq_false, BitSelector.isWellFormed_iff] at covering
        rw [not_not] at supplied
        have positive : 0 < threshold.toNat := by
          rw [Nat.pos_iff_ne_zero]
          exact fun zero => sized.1 (UInt32.toNat_inj.1 zero)
        exact .inl ⟨_, _, positive, sized.2, covering.1, covering.2, selector.selects_indices,
          supplied, (BitSelector.forall₂_choose_iff covering.1).2 rfl⟩

end

/-! ## Outcomes -/

-- The induction is on the envelope and on the list of its parts. A count fails only for a rule, so
-- a mismatch among the parts is not one of the whole.
mutual

theorem isVerdict_of_verify {message : Bytes} (envelope : Envelope) (key : PublicKey)
    {error : LinkError} (failed : envelope.verify message key = .error error) :
    error.IsVerdict := by
  cases envelope with
  | single valueType signature =>
    cases key with
    | secp256k1 bytes => exact isVerdict_of_checkSecp256k1 (by simpa only [verify] using failed)
    | ed25519 bytes => exact isVerdict_of_checkEd25519 (by simpa only [verify] using failed)
    | multisig threshold members =>
      simp only [verify] at failed
      exact .inl ⟨_, (Except.error.inj failed).symm⟩
  | multi selector parts =>
    cases key with
    | secp256k1 bytes | ed25519 bytes =>
      simp only [verify] at failed
      exact .inl ⟨_, (Except.error.inj failed).symm⟩
    | multisig threshold members =>
      -- Either each part has a member to answer for it, or a rule is broken before any is counted.
      obtain ⟨positions, keys, assigned⟩ | ⟨fault, refused⟩ :=
        exists_assigned_or_validation message selector parts threshold members
      · rw [assigned.verify_eq] at failed
        cases counted : countRight message parts keys with
        | error cause =>
          rw [counted] at failed
          cases failed
          exact .inl (validation_of_countRight parts keys counted)
        | ok right =>
          rw [counted, Except.bind] at failed
          split at failed
          · exact .inr ⟨_, (Except.error.inj failed).symm⟩
          · cases failed
      · rw [refused] at failed
        exact .inl ⟨fault, (Except.error.inj failed).symm⟩

/-- A mismatch does not end the count. -/
theorem validation_of_countRight {message : Bytes} (parts : List Envelope) (keys : List PublicKey)
    {error : LinkError} (failed : countRight message parts keys = .error error) :
    ∃ fault, error = .validation fault := by
  cases parts with
  | nil => simp [countRight] at failed
  | cons part rest =>
    cases keys with
    | nil => simp [countRight] at failed
    | cons key others =>
      cases first : part.verify message key with
      | ok value =>
        simp only [countRight, first] at failed
        cases later : countRight message rest others with
        | ok right => simp [later, Except.map] at failed
        | error cause =>
          rw [later] at failed
          cases failed
          exact validation_of_countRight rest others later
      | error cause =>
        -- A broken rule ends the count there, and after a mismatch it goes on with the rest.
        obtain ⟨fault, rfl⟩ | ⟨fault, rfl⟩ := isVerdict_of_verify part key first
        · simp only [countRight, first] at failed
          exact ⟨fault, (Except.error.inj failed).symm⟩
        · simp only [countRight, first] at failed
          exact validation_of_countRight rest others failed

end

/-! ## Verdicts of verification -/

mutual

/-- An envelope is judged as it verifies. -/
theorem judged_iff {message : Bytes} (envelope : Envelope) (key : PublicKey) {verdict : Verdict} :
    Judged message envelope key verdict ↔ verdict.Of (envelope.verify message key) := by
  constructor
  · intro judged
    cases judged with
    | secp256k1 checked => simpa only [verify] using checked
    | ed25519 checked => simpa only [verify] using checked
    | multi assigned each decided =>
      have counted := (exists_judgedEach_iff _ _ assigned.length_eq).1 ⟨_, each, rfl⟩
      rw [assigned.verify_eq, counted]
      exact Verdict.of_ite_iff.2 decided
  · intro reached
    cases envelope with
    | single valueType signature =>
      cases key with
      | secp256k1 bytes => exact .secp256k1 (by simpa only [verify] using reached)
      | ed25519 bytes => exact .ed25519 (by simpa only [verify] using reached)
      | multisig threshold members =>
        -- One signature under a threshold key breaks a rule, which is no verdict.
        simp only [verify] at reached
        exact absurd reached Verdict.not_of_validation
    | multi selector parts =>
      cases key with
      | secp256k1 bytes | ed25519 bytes =>
        simp only [verify] at reached
        exact absurd reached Verdict.not_of_validation
      | multisig threshold members =>
        -- Either every part has a key that it is to be right under, or a rule is broken.
        obtain ⟨positions, keys, assigned⟩ | ⟨fault, refused⟩ :=
          exists_assigned_or_validation message selector parts threshold members
        · rw [assigned.verify_eq] at reached
          cases counted : countRight message parts keys with
          | error cause =>
            obtain ⟨fault, rfl⟩ := validation_of_countRight parts keys counted
            rw [counted] at reached
            exact absurd reached Verdict.not_of_validation
          | ok right =>
            obtain ⟨verdicts, each, rfl⟩ :=
              (exists_judgedEach_iff parts keys assigned.length_eq).2 counted
            rw [counted] at reached
            exact .multi assigned each (Verdict.of_ite_iff.1 reached)
        · rw [refused] at reached
          exact absurd reached Verdict.not_of_validation

/-- The count is that of the right verdicts, and there is one exactly if all can be judged. -/
theorem exists_judgedEach_iff {message : Bytes} (parts : List Envelope) (keys : List PublicKey)
    (length_eq : parts.length = keys.length) {right : Nat} :
    (∃ verdicts, JudgedEach message parts keys verdicts ∧ verdicts.count .right = right)
      ↔ countRight message parts keys = .ok right := by
  -- A count ends with the shorter list, but only lists of one length are judged.
  cases parts with
  | nil =>
    simp only [countRight, Except.ok.injEq]
    constructor
    · rintro ⟨_, ⟨⟩, rfl⟩
      rfl
    · rintro rfl
      obtain rfl := List.length_eq_zero_iff.1 length_eq.symm
      exact ⟨[], .nil, rfl⟩
  | cons part rest =>
    cases keys with
    | nil => cases length_eq
    | cons key others =>
      have lengths : rest.length = others.length := Nat.succ.inj length_eq
      constructor
      · rintro ⟨verdicts, judged, rfl⟩
        cases judged with
        | @cons _ _ verdict _ _ verdicts first each =>
          have here := (judged_iff part key).1 first
          have counted := (exists_judgedEach_iff rest others lengths).1 ⟨verdicts, each, rfl⟩
          cases verdict with
          | right =>
            rw [Verdict.Of] at here
            simp [countRight, here, counted, Except.map]
          | wrong =>
            obtain ⟨fault, here⟩ := here
            simp [countRight, here, counted]
      · intro counted
        cases here : part.verify message key with
        | ok value =>
          have first : Judged message part key .right := (judged_iff part key).2 here
          simp only [countRight, here] at counted
          obtain ⟨count, later, rfl⟩ := map_eq_ok_iff.1 counted
          obtain ⟨verdicts, each, rfl⟩ := (exists_judgedEach_iff rest others lengths).2 later
          exact ⟨_, .cons first each, List.count_cons_self⟩
        | error cause =>
          -- There is a count, so the part fails by a mismatch, which is a verdict.
          obtain ⟨fault, rfl⟩ | ⟨fault, rfl⟩ := isVerdict_of_verify part key here
          · simp [countRight, here] at counted
          · have first : Judged message part key .wrong := (judged_iff part key).2 ⟨fault, here⟩
            simp only [countRight, here] at counted
            obtain ⟨verdicts, each, rfl⟩ := (exists_judgedEach_iff rest others lengths).2 counted
            exact ⟨_, .cons first each, List.count_cons_of_ne (by decide)⟩

end

/-! ## Signers -/

/-- The signature that is assigned to a position is right under the member there. -/
def SignedAt (message : Bytes) (members : List PublicKey) (positions : List Nat)
    (parts : List Envelope) (position : Nat) : Prop :=
  ∃ (index : Nat) (part : Envelope) (key : PublicKey), positions[index]? = some position
    ∧ parts[index]? = some part ∧ members[position]? = some key
    ∧ part.verify message key = .ok ()

theorem SignedAt.tail {message : Bytes} {members : List PublicKey} {positions : List Nat}
    {parts : List Envelope} {position : Nat}
    (signed : SignedAt message members positions parts position) (first : Nat) (part : Envelope) :
    SignedAt message members (first :: positions) (part :: parts) position := by
  obtain ⟨index, part, key, here⟩ := signed
  exact ⟨index + 1, part, key, here⟩

/-- As many members as there are right verdicts have signed, each at a position of its own. -/
theorem JudgedEach.exists_signers {message : Bytes} {members : List PublicKey}
    {positions : List Nat} {parts : List Envelope} {keys : List PublicKey}
    {verdicts : List Verdict} (each : JudgedEach message parts keys verdicts)
    (signers : List.Forall₂ (fun position key => members[position]? = some key) positions keys) :
    ∃ signed : List Nat, signed.Sublist positions ∧ signed.length = verdicts.count .right
      ∧ ∀ position ∈ signed, SignedAt message members positions parts position := by
  induction positions generalizing parts keys verdicts with
  | nil =>
    cases signers
    cases each
    exact ⟨[], .slnil, rfl, by simp⟩
  | cons position rest ih =>
    cases signers with
    | @cons _ key _ keys there signers =>
      cases each with
      | @cons part _ verdict parts _ verdicts first each =>
        obtain ⟨signed, among, count, all⟩ := ih each signers
        have still : ∀ later ∈ signed,
            SignedAt message members (position :: rest) (part :: parts) later :=
          fun later member => (all later member).tail position part
        -- A right verdict adds the position in front, a wrong one passes it over.
        cases verdict with
        | right =>
          have here : SignedAt message members (position :: rest) (part :: parts) position :=
            ⟨0, part, key, rfl, rfl, there, (judged_iff part key).1 first⟩
          have all := List.forall_mem_cons.2 ⟨here, still⟩
          refine ⟨position :: signed, among.cons_cons position, ?_, all⟩
          rw [List.length_cons, List.count_cons_self, count]
        | wrong =>
          refine ⟨signed, among.cons position, ?_, still⟩
          rw [List.count_cons_of_ne (by decide), count]

theorem exists_signers_of_verify {message : Bytes} {selector : BitSelector} {parts : List Envelope}
    {threshold : UInt32} {members : List PublicKey}
    (verified : verify message (.multi selector parts) (.multisig threshold members) = .ok ()) :
    ∃ signed : List Nat, signed.Nodup ∧ threshold.toNat ≤ signed.length
      ∧ ∀ position ∈ signed, SignedAt message members selector.indices parts position := by
  have judged : Judged message (.multi selector parts) (.multisig threshold members) .right :=
    (judged_iff _ _).2 verified
  cases judged with
  | multi assigned each decided =>
    obtain ⟨signed, among, count, all⟩ := each.exists_signers assigned.signers
    -- Ascending positions are distinct, and so are the signers among them.
    have distinct := assigned.selects.ascending.imp Nat.ne_of_lt
    rw [assigned.selects.eq_indices] at all
    exact ⟨signed, among.nodup distinct, count ▸ decided.1 rfl, all⟩

/-- Verification succeeds exactly if an envelope is judged right, reports a mismatch exactly if it
is judged wrong, and fails for a broken rule otherwise. Where a selector covers the members, every
selected position is that of a member, and a threshold key that is satisfied has as many members as
it asks for whose own signatures are right. -/
theorem verify_eq_verdict (message : Bytes) (envelope : Envelope) (key : PublicKey) :
    (envelope.verify message key = .ok () ↔ Judged message envelope key .right)
      ∧ ((∃ fault, envelope.verify message key = .error (.signatureMismatch fault))
        ↔ Judged message envelope key .wrong)
      ∧ (∀ error, envelope.verify message key = .error error →
        (∃ fault, error = .validation fault) ∨ ∃ fault, error = .signatureMismatch fault)
      ∧ ∀ selector parts threshold members,
        (selector.bits.toNat = members.length →
          ∀ position ∈ selector.indices, position < members.length)
        ∧ (verify message (.multi selector parts) (.multisig threshold members) = .ok () →
          ∃ signed : List Nat, signed.Nodup ∧ threshold.toNat ≤ signed.length
            ∧ ∀ position ∈ signed, SignedAt message members selector.indices parts position) := by
  have judged (verdict : Verdict) :
      verdict.Of (envelope.verify message key) ↔ Judged message envelope key verdict :=
    (judged_iff envelope key).symm
  refine ⟨judged .right, judged .wrong, ?_, ?_⟩
  · intro error failed
    exact isVerdict_of_verify envelope key failed
  · intro selector parts threshold members
    exact ⟨BitSelector.lt_length_of_mem_indices, exists_signers_of_verify⟩

end Envelope

end LinkRegistry
