import LinkRegistry.Store.Key
import LinkRegistry.Proofs.Text.Utf8

/-!
# Keys and their fields

Fields without a zero byte can be read off a key: equal keys have equal fields, and a key begins
with a lead exactly if its fields begin with those of the lead. Keys of two families are never
equal.
-/

namespace LinkRegistry.Key

/-- A text without a zero byte. -/
def Plain (text : String) : Prop := separator ∉ Utf8.encode text

instance (text : String) : Decidable (Plain text) := inferInstanceAs (Decidable (¬ _))

theorem plain_iff {text : String} : Plain text ↔ '\x00' ∉ text.toList :=
  not_congr (Utf8.mem_encode_iff (by decide))

/-! ## Fields behind separators -/

/-- The fields of a key, each behind its separator. -/
def joined (fields : List Bytes) : Bytes := fields.flatMap (separator :: ·)

private theorem joined_cons (field : Bytes) (rest : List Bytes) :
    joined (field :: rest) = separator :: (field ++ joined rest) := rfl

/-- A field ends where the byte string goes on with a separator or ends. -/
private theorem field_inj {left right leftRest rightRest : Bytes} (leftPlain : separator ∉ left)
    (rightPlain : separator ∉ right) (leftEnds : leftRest.takeWhile (· ≠ separator) = [])
    (rightEnds : rightRest.takeWhile (· ≠ separator) = [])
    (same : left ++ leftRest = right ++ rightRest) : left = right ∧ leftRest = rightRest := by
  have field : ∀ {field rest : Bytes}, separator ∉ field → rest.takeWhile (· ≠ separator) = [] →
      (field ++ rest).takeWhile (· ≠ separator) = field := fun plain ends => by
    rw [List.takeWhile_append_of_pos fun byte member => by
      simpa using fun same : byte = separator => plain (same ▸ member), ends, List.append_nil]
  have equal : left = right := by
    rw [← field leftPlain leftEnds, same, field rightPlain rightEnds]
  exact ⟨equal, List.append_cancel_left (equal ▸ same)⟩

private theorem takeWhile_separator (rest : Bytes) :
    (separator :: rest).takeWhile (· ≠ separator) = [] := by simp

private theorem takeWhile_joined (fields : List Bytes) :
    (joined fields).takeWhile (· ≠ separator) = [] := by
  cases fields with
  | nil => rfl
  | cons field rest => exact takeWhile_separator _

/-- The first separator ends the same field on both sides. -/
theorem append_separator_inj {left right leftRest rightRest : Bytes} (leftPlain : separator ∉ left)
    (rightPlain : separator ∉ right)
    (same : left ++ separator :: leftRest = right ++ separator :: rightRest) :
    left = right ∧ leftRest = rightRest := by
  have ⟨equal, after⟩ := field_inj leftPlain rightPlain (takeWhile_separator _)
    (takeWhile_separator _) same
  exact ⟨equal, (List.cons.inj after).2⟩

private theorem joined_inj_of_plain {left right : List Bytes}
    (leftPlain : ∀ field ∈ left, separator ∉ field)
    (rightPlain : ∀ field ∈ right, separator ∉ field) (same : joined left = joined right) :
    left = right := by
  induction left generalizing right with
  | nil =>
    cases right with
    | nil => rfl
    | cons field rest => cases same
  | cons field rest ih =>
    cases right with
    | nil => cases same
    | cons other others =>
      rw [joined_cons, joined_cons, List.cons.injEq] at same
      have ⟨equal, after⟩ := field_inj (leftPlain field (.head _)) (rightPlain other (.head _))
        (takeWhile_joined _) (takeWhile_joined _) same.2
      rw [equal, ih (fun next member => leftPlain next (.tail _ member))
        (fun next member => rightPlain next (.tail _ member)) after]

/-- A key goes on with a separator after the fields of a lead exactly if it has these fields and
more. -/
private theorem joined_separator_prefix_iff {left right : List Bytes}
    (leftPlain : ∀ field ∈ left, separator ∉ field)
    (rightPlain : ∀ field ∈ right, separator ∉ field) :
    joined left ++ [separator] <+: joined right
      ↔ ∃ next others, right = left ++ next :: others := by
  induction left generalizing right with
  | nil =>
    cases right with
    | nil => simp [joined]
    | cons other others => simp [joined]
  | cons field rest ih =>
    cases right with
    | nil => simp [joined]
    | cons other others =>
      have inner := ih (fun next member => leftPlain next (.tail _ member))
        fun next member => rightPlain next (.tail _ member)
      simp only [joined_cons, List.cons_append, List.append_assoc, List.cons_prefix_cons, true_and,
        List.cons.injEq]
      constructor
      · rintro ⟨after, same⟩
        rw [List.append_assoc] at same
        -- Behind the first field comes a separator, be it of the next field or of the lead's end.
        have ends : (joined rest ++ [separator] ++ after).takeWhile (· ≠ separator) = [] := by
          cases rest with
          | nil => exact takeWhile_separator _
          | cons next fields => exact takeWhile_separator _
        have ⟨equal, longer⟩ := field_inj (leftPlain field (.head _)) (rightPlain other (.head _))
          ends (takeWhile_joined _) same
        obtain ⟨next, fields, shape⟩ := inner.1 ⟨after, longer⟩
        exact ⟨next, fields, equal.symm, shape⟩
      · rintro ⟨next, fields, rfl, shape⟩
        exact (List.prefix_append_right_inj _).2 (inner.2 ⟨next, fields, shape⟩)

/-! ## Counting separators

The fields that a query is asked for may hold zero bytes. Then its key has more of them than any
key of fields without. -/

private theorem length_le_count_joined (fields : List Bytes) :
    fields.length ≤ (joined fields).count separator := by
  induction fields with
  | nil => exact Nat.le_refl 0
  | cons field rest ih =>
    rw [joined_cons, List.count_cons_self, List.count_append, List.length_cons]
    omega

private theorem plain_iff_count_joined (fields : List Bytes) :
    (∀ field ∈ fields, separator ∉ field) ↔ (joined fields).count separator ≤ fields.length := by
  induction fields with
  | nil => simp [joined]
  | cons field rest ih =>
    have enough := length_le_count_joined rest
    rw [List.forall_mem_cons, ih, ← List.count_eq_zero, joined_cons, List.count_cons_self,
      List.count_append, List.length_cons]
    omega

/-- Equal keys have equal fields, if those of one hold no zero byte. -/
theorem compose_inj {family : String} {left right : List Bytes}
    (plain : ∀ field ∈ right, separator ∉ field) (length : left.length = right.length)
    (same : compose family left = compose family right) : left = right := by
  have fields : joined left = joined right := List.append_cancel_left same
  have leftPlain : ∀ field ∈ left, separator ∉ field := by
    rw [plain_iff_count_joined, fields, length]
    exact (plain_iff_count_joined right).1 plain
  exact joined_inj_of_plain leftPlain plain fields

/-- A key begins with a lead exactly if it has the fields of the lead and more. -/
theorem lead_prefix_compose_iff {family : String} {left right : List Bytes}
    (leftPlain : ∀ field ∈ left, separator ∉ field)
    (rightPlain : ∀ field ∈ right, separator ∉ field) :
    compose family left ++ [separator] <+: compose family right
      ↔ ∃ next others, right = left ++ next :: others := by
  rw [compose, compose, List.append_assoc, List.prefix_append_right_inj]
  exact joined_separator_prefix_iff leftPlain rightPlain

/-- The fields of a lead that is one field short of a key hold no zero byte if those of the key do
not. -/
theorem plain_of_lead_prefix {family : String} {left right : List Bytes}
    (rightPlain : ∀ field ∈ right, separator ∉ field) (length : left.length + 1 = right.length)
    (lead : compose family left ++ [separator] <+: compose family right) :
    ∀ field ∈ left, separator ∉ field := by
  rw [compose, compose, List.append_assoc, List.prefix_append_right_inj] at lead
  -- A zero byte in the lead would give it more separators than the key has.
  have counts := lead.sublist.count_le separator
  rw [List.count_append, List.count_singleton_self] at counts
  have right := (plain_iff_count_joined right).1 rightPlain
  rw [plain_iff_count_joined]
  simp only [joined] at counts right ⊢
  omega

/-! ## Families -/

theorem scope_prefix_compose (family : String) (field : Bytes) (rest : List Bytes) :
    scope family <+: compose family (field :: rest) := by
  refine (List.prefix_append_right_inj _).2 ?_
  rw [← joined, joined_cons, List.cons_prefix_cons]
  exact ⟨rfl, List.nil_prefix⟩

/-- A key is of one family only. -/
theorem family_inj {left right : String} {key : Bytes} (leftPlain : Plain left)
    (rightPlain : Plain right) (ofLeft : scope left <+: key) (ofRight : scope right <+: key) :
    left = right := by
  obtain ⟨leftRest, rfl⟩ := ofLeft
  obtain ⟨rightRest, same⟩ := ofRight
  rw [scope, scope, List.append_assoc, List.append_assoc] at same
  exact (Utf8.encode_inj.1 (append_separator_inj rightPlain leftPlain same).1).symm

/-- A key of one family is not of another. -/
theorem not_scope_of_scope {family other : String} {key : Bytes} (ofFamily : scope family <+: key)
    (differ : Plain family ∧ Plain other ∧ family ≠ other) : ¬ scope other <+: key :=
  fun ofOther => differ.2.2 (family_inj differ.1 differ.2.1 ofFamily ofOther)

theorem ne_of_scope {family other : String} {left right : Bytes} (ofFamily : scope family <+: left)
    (ofOther : scope other <+: right) (differ : Plain family ∧ Plain other ∧ family ≠ other) :
    left ≠ right :=
  fun same => not_scope_of_scope ofFamily differ (same ▸ ofOther)

theorem separator_mem_of_scope {family : String} {key : Bytes} (ofFamily : scope family <+: key) :
    separator ∈ key :=
  ofFamily.subset (by simp [scope])

/-- The key of the schema version is of no family. -/
theorem not_scope_schemaVersion (family : String) : ¬ scope family <+: schemaVersion :=
  fun ofFamily => absurd (separator_mem_of_scope ofFamily) (by decide)

/-- A key of a family begins with the first byte of its name. -/
theorem not_lead_of_scope {family : String} {key : Bytes} {byte : UInt8}
    (ofFamily : scope family <+: key) (differ : (scope family).head? ≠ some byte) :
    ¬ [byte] <+: key := by
  rintro ⟨early, rfl⟩
  obtain ⟨rest, same⟩ := ofFamily
  cases shape : scope family with
  | nil => simp [scope] at shape
  | cons first others =>
    rw [shape] at same differ
    exact differ (congrArg some (List.cons.inj same).1)

/-! ## Chain links -/

theorem scope_prefix_chainLink (owner chainName address : String) :
    scope chainLinks <+: chainLink owner chainName address := scope_prefix_compose ..

theorem scope_prefix_ownerIndex (chainName address owner : String) :
    scope chainLinkOwner <+: ownerIndex chainName address owner := scope_prefix_compose ..

theorem scope_prefix_defaultAddress (owner chainName : String) :
    scope defaultExternalAddress <+: defaultAddress owner chainName := scope_prefix_compose ..

theorem scope_prefix_userChainLinks (owner : String) :
    scope chainLinks <+: userChainLinks owner :=
  (scope_prefix_compose ..).trans (List.prefix_append ..)

theorem scope_prefix_userChainLinksByChain (owner chainName : String) :
    scope chainLinks <+: userChainLinksByChain owner chainName :=
  (scope_prefix_compose ..).trans (List.prefix_append ..)

theorem scope_prefix_ownerIndexOf (chainName address : String) :
    scope chainLinkOwner <+: ownerIndexOf chainName address :=
  (scope_prefix_compose ..).trans (List.prefix_append ..)

private theorem forall_encode {texts : List String} (plain : ∀ text ∈ texts, Plain text) :
    ∀ field ∈ texts.map Utf8.encode, separator ∉ field := by
  intro field member
  obtain ⟨text, within, rfl⟩ := List.mem_map.1 member
  exact plain text within

/-- Keys of texts are equal only if the texts are, if those of one hold no zero byte. -/
private theorem compose_encode_inj {family : String} (left : List String) {right : List String}
    (plain : ∀ text ∈ right, Plain text) (length : left.length = right.length)
    (same : compose family (left.map Utf8.encode) = compose family (right.map Utf8.encode)) :
    left = right := by
  have fields := compose_inj (forall_encode plain) (by simpa using length) same
  exact (List.map_inj_right fun _ _ => Utf8.encode_inj.1).1 fields

theorem chainLink_inj {owner chainName address owner' chainName' address' : String}
    (plain : ∀ text ∈ [owner', chainName', address'], Plain text) :
    chainLink owner chainName address = chainLink owner' chainName' address'
      ↔ owner = owner' ∧ chainName = chainName' ∧ address = address' := by
  constructor
  · intro same
    have := compose_encode_inj [owner, chainName, address] plain rfl same
    simpa using this
  · rintro ⟨rfl, rfl, rfl⟩
    rfl

theorem ownerIndex_inj {chainName address owner chainName' address' owner' : String}
    (plain : ∀ text ∈ [chainName', address', owner'], Plain text) :
    ownerIndex chainName address owner = ownerIndex chainName' address' owner'
      ↔ chainName = chainName' ∧ address = address' ∧ owner = owner' := by
  constructor
  · intro same
    have := compose_encode_inj [chainName, address, owner] plain rfl same
    simpa using this
  · rintro ⟨rfl, rfl, rfl⟩
    rfl

theorem defaultAddress_inj {owner chainName owner' chainName' : String}
    (plain : ∀ text ∈ [owner', chainName'], Plain text) :
    defaultAddress owner chainName = defaultAddress owner' chainName'
      ↔ owner = owner' ∧ chainName = chainName' := by
  constructor
  · intro same
    have := compose_encode_inj [owner, chainName] plain rfl same
    simpa using this
  · rintro ⟨rfl, rfl⟩
    rfl

/-! ## Leads of chain links -/

private theorem exists_eq_map_append {left right : List String} :
    (∃ next others, right.map Utf8.encode = left.map Utf8.encode ++ next :: others)
      ↔ ∃ next others, right = left ++ next :: others := by
  constructor
  · rintro ⟨next, others, shape⟩
    obtain ⟨front, back, rfl, front_eq, back_eq⟩ := List.map_eq_append_iff.1 shape
    obtain ⟨text, texts, rfl, _, _⟩ := List.map_eq_cons_iff.1 back_eq
    rw [(List.map_inj_right fun _ _ => Utf8.encode_inj.1).1 front_eq]
    exact ⟨text, texts, rfl⟩
  · rintro ⟨next, others, rfl⟩
    exact ⟨Utf8.encode next, others.map Utf8.encode, by simp⟩

private theorem lead_encode_iff {family : String} {left right : List String}
    (leftPlain : ∀ text ∈ left, Plain text) (rightPlain : ∀ text ∈ right, Plain text) :
    compose family (left.map Utf8.encode) ++ [separator] <+: compose family (right.map Utf8.encode)
      ↔ ∃ next others, right = left ++ next :: others := by
  rw [lead_prefix_compose_iff (forall_encode leftPlain) (forall_encode rightPlain),
    exists_eq_map_append]

/-- A lead may hold any texts if it is just one field short of a key. -/
private theorem lead_encode_iff_of_length {family : String} (left : List String)
    {right : List String} (rightPlain : ∀ text ∈ right, Plain text)
    (length : left.length + 1 = right.length) :
    compose family (left.map Utf8.encode) ++ [separator] <+: compose family (right.map Utf8.encode)
      ↔ ∃ next others, right = left ++ next :: others := by
  constructor
  · intro lead
    have leftPlain := plain_of_lead_prefix (forall_encode rightPlain) (by simpa using length) lead
    rw [lead_prefix_compose_iff leftPlain (forall_encode rightPlain)] at lead
    exact exists_eq_map_append.1 lead
  · rintro ⟨next, others, rfl⟩
    have plain : ∀ text ∈ left, Plain text := fun text member =>
      rightPlain text (List.mem_append_left _ member)
    exact (lead_encode_iff plain rightPlain).2 ⟨next, others, rfl⟩

/-- The owner comes first, so nothing behind it can be taken for a part of it. -/
theorem userChainLinks_prefix_iff {owner owner' : String} (own : Plain owner)
    (plain : Plain owner') (chainName' address' : String) :
    userChainLinks owner <+: chainLink owner' chainName' address' ↔ owner = owner' := by
  simp only [userChainLinks, chainLink, compose, List.flatMap_cons, List.flatMap_nil,
    List.append_assoc, List.cons_append, List.append_nil,
    List.prefix_append_right_inj, List.cons_prefix_cons, true_and]
  constructor
  · rintro ⟨rest, same⟩
    rw [List.append_assoc, List.singleton_append] at same
    exact Utf8.encode_inj.1 (append_separator_inj own plain same).1
  · rintro rfl
    exact (List.prefix_append_right_inj _).2 (List.cons_prefix_cons.2 ⟨rfl, List.nil_prefix⟩)

theorem userChainLinksByChain_prefix_iff {owner chainName owner' chainName' address' : String}
    (plain : ∀ text ∈ [owner', chainName', address'], Plain text) :
    userChainLinksByChain owner chainName <+: chainLink owner' chainName' address'
      ↔ owner = owner' ∧ chainName = chainName' := by
  refine (lead_encode_iff_of_length [owner, chainName] plain rfl).trans ?_
  simp [eq_comm]

theorem ownerIndexOf_prefix_iff {chainName address chainName' address' owner' : String}
    (plain : ∀ text ∈ [chainName', address', owner'], Plain text) :
    ownerIndexOf chainName address <+: ownerIndex chainName' address' owner'
      ↔ chainName = chainName' ∧ address = address' := by
  refine (lead_encode_iff_of_length [chainName, address] plain rfl).trans ?_
  simp [eq_comm]

/-- What follows its lead in a key of the owner index is the owner. -/
theorem ownerIndex_eq (chainName address owner : String) :
    ownerIndex chainName address owner = ownerIndexOf chainName address ++ Utf8.encode owner := by
  simp [ownerIndex, ownerIndexOf, compose]

/-- What follows its lead in a key of a chain link is the address. -/
theorem chainLink_eq (owner chainName address : String) :
    chainLink owner chainName address
      = userChainLinksByChain owner chainName ++ Utf8.encode address := by
  simp [chainLink, userChainLinksByChain, compose]

/-- The links of an owner on a chain are in the order of their addresses. -/
theorem encode_lt_of_chainLink_lt {owner chainName left right : String}
    (below : chainLink owner chainName left < chainLink owner chainName right) :
    Utf8.encode left < Utf8.encode right := by
  rw [chainLink_eq, chainLink_eq] at below
  rcases Std.lt_trichotomy (Utf8.encode left) (Utf8.encode right) with lesser | same | greater
  · exact lesser
  · rw [same] at below
    exact absurd below (List.lt_irrefl _)
  · exact absurd (List.lt_trans below (List.append_left_lt greater)) (List.lt_irrefl _)

end LinkRegistry.Key
