import Mathlib.Tactic.SplitIfs
import LinkRegistry.Json.Parser
import LinkRegistry.Json.Printer
import LinkRegistry.Proofs.Json.Simple

/-!
# Reading back rendered JSON

Reading the text of a simple value gives the value, `IsSimple.parse?_render`. Every reader is shown
to take just what was written for its part and to leave what comes behind: a character of a string
gives one place, digits end where no digit follows, and the items of an array are read one by one.
Two nested calls take at least one character, so the fuel is enough as long as it is twice the
length of what is to be read.
-/

namespace LinkRegistry.Json

namespace Parser

/-! ## Strings -/

/-- What is written is read as one place of a literal, and that place spells the character. -/
def Writes (written : List Char) (character : Char) : Prop :=
  ∃ place,
    (∀ {input rest spelling}, places input = some (spelling, rest) →
      places (written ++ input) = some (place :: spelling, rest))
    ∧ ∀ {spelling text}, spell? spelling = some text →
      spell? (place :: spelling) = some (character :: text)

theorem writes_short {letter character : Char} (known : escaped? letter = some character) :
    Writes ['\\', letter] character := by
  -- The letter is not the one that four digits follow.
  have short : letter ≠ 'u' := by
    rintro rfl
    cases known
  refine ⟨.character character, fun read => ?_, fun spelled => ?_⟩
  · simp [places, short, known, read]
  · simp [spell?, spelled]

theorem codeUnit?_of_control :
    ∀ code < 0x20, codeUnit? '0' '0' (hexDigit (code / 16)) (hexDigit (code % 16)) = some code := by
  decide

theorem writes_control {character : Char} (control : character.toNat < 0x20) :
    Writes ['\\', 'u', '0', '0', hexDigit (character.toNat / 16), hexDigit (character.toNat % 16)]
      character := by
  have unit := codeUnit?_of_control _ control
  -- Control characters are no halves of a pair.
  have notLow : isLowHalf character.toNat = false := by simp [isLowHalf]; omega
  have notHigh : isHighHalf character.toNat = false := by simp [isHighHalf]; omega
  refine ⟨.code character.toNat, fun read => ?_, fun spelled => ?_⟩
  · simp [places, unit, read]
  · rw [spell?.eq_def]
    simp [notLow, notHigh, spelled]

theorem writes_visible {character : Char} (visible : 0x20 ≤ character.toNat)
    (quote : character ≠ '"') (backslash : character ≠ '\\') :
    Writes [character] character := by
  refine ⟨.character character, fun read => ?_, fun spelled => ?_⟩
  · simp [places, backslash, read, Nat.not_lt.2 visible]
  · simp [spell?, spelled]

theorem writes_escape (character : Char) : Writes (escape character) character := by
  unfold escape
  -- Seven characters have short escapes.
  split_ifs with quote backslash backspace feed line carriage tab control
  · rw [quote]
    exact writes_short rfl
  · rw [backslash]
    exact writes_short rfl
  · rw [backspace]
    exact writes_short rfl
  · rw [feed]
    exact writes_short rfl
  · rw [line]
    exact writes_short rfl
  · rw [carriage]
    exact writes_short rfl
  · rw [tab]
    exact writes_short rfl
  · exact writes_control control
  · exact writes_visible (Nat.not_lt.1 control) quote backslash

theorem exists_places_escaped (text rest : List Char) :
    ∃ spelling, places (text.flatMap escape ++ '"' :: rest) = some (spelling, rest)
      ∧ spell? spelling = some text := by
  induction text with
  | nil => exact ⟨[], by simp [places], by simp [spell?]⟩
  | cons character others ih =>
    obtain ⟨spelling, read, spelled⟩ := ih
    obtain ⟨place, takes, spells⟩ := writes_escape character
    refine ⟨place :: spelling, ?_, spells spelled⟩
    rw [List.flatMap_cons, List.append_assoc]
    exact takes read

/-- A string is read up to its closing quote. -/
theorem literal_escaped (text : String) (rest : List Char) :
    literal (text.toList.flatMap escape ++ '"' :: rest) = some (some text, rest) := by
  obtain ⟨spelling, read, spelled⟩ := exists_places_escaped text.toList rest
  rw [literal, read]
  simp [spelled]

/-! ## Numbers -/

/-- Nothing follows that could go on with a number. -/
def EndsNumber (rest : List Char) : Prop :=
  ∀ character ∈ rest.head?,
    isDigit character = false ∧ character ≠ '.' ∧ character ≠ 'e' ∧ character ≠ 'E'

theorem endsNumber_nil : EndsNumber [] := by simp [EndsNumber]

theorem endsNumber_comma (rest : List Char) : EndsNumber (',' :: rest) := by
  simp [EndsNumber, isDigit]

theorem endsNumber_bracket (rest : List Char) : EndsNumber (']' :: rest) := by
  simp [EndsNumber, isDigit]

theorem endsNumber_brace (rest : List Char) : EndsNumber ('\x7d' :: rest) := by
  simp [EndsNumber, isDigit]

theorem isDigit_of_mem_writeNat {value : Nat} {character : Char}
    (member : character ∈ writeNat value) : isDigit character = true := by
  have digit := Nat.isDigit_of_mem_toDigits (by decide) (by decide) member
  simpa [Char.isDigit, isDigit, Char.le_def] using digit

theorem exists_head_writeNat (value : Nat) :
    ∃ first others, writeNat value = first :: others ∧ isDigit first = true := by
  cases written : writeNat value with
  | nil => exact absurd written Nat.toDigits_ne_nil
  | cons first others =>
    have inside : first ∈ writeNat value := by simp [written]
    exact ⟨first, others, rfl, isDigit_of_mem_writeNat inside⟩

theorem decimal_writeNat (value : Nat) : decimal (writeNat value) = value :=
  Nat.ofDigitChars_toDigits (by decide) (by decide)

/-- A positive number does not begin with a zero. -/
theorem head?_writeNat_ne {value : Nat} (positive : 0 < value) :
    (writeNat value).head? ≠ some '0' := by
  induction value using Nat.strongRecOn with
  | ind value ih =>
    rw [writeNat, Nat.toDigits_eq_if (by decide)]
    split
    next single =>
      have digits : ∀ digit < 10, 0 < digit → digit.digitChar ≠ '0' := by decide
      simpa using digits value single positive
    next several =>
      -- The first digit is that of the number without its last.
      have shorter := ih (value / 10) (by omega) (by omega)
      intro zero
      rw [List.head?_append, Option.or_eq_some_iff] at zero
      rcases zero with first | ⟨none, -⟩
      · exact shorter first
      · exact Nat.toDigits_ne_nil (List.head?_eq_none_iff.1 none)

theorem wholeDigits_writeNat {value : Nat} {rest : List Char} (ends : EndsNumber rest) :
    wholeDigits (writeNat value ++ rest) = some (writeNat value, rest) := by
  have digits : ∀ character ∈ writeNat value, isDigit character = true :=
    fun _ => isDigit_of_mem_writeNat
  have stops : rest.takeWhile isDigit = [] := by
    cases rest with
    | nil => rfl
    | cons character others => simp [ends character rfl]
  have drops : rest.dropWhile isDigit = rest := by
    cases rest with
    | nil => rfl
    | cons character others => simp [ends character rfl]
  rw [wholeDigits, List.takeWhile_append_of_pos digits, stops, List.append_nil,
    List.dropWhile_append_of_pos digits, drops]
  split
  next empty => exact absurd empty Nat.toDigits_ne_nil
  next second others zero =>
    -- Only zero begins with a zero, and it is written as that one digit.
    rcases Nat.eq_zero_or_pos value with rfl | positive
    · cases zero
    · exact absurd (by rw [zero]; rfl) (head?_writeNat_ne positive)
  next => rfl

/-- A natural number is read up to what does not go on with it. -/
theorem unsignedNumber_writeNat {value : Nat} {rest : List Char} (ends : EndsNumber rest) :
    unsignedNumber false (writeNat value ++ rest) = some (Number.ofNat value, rest) := by
  have noFraction : fractionDigits rest = some ([], rest) := by
    unfold fractionDigits
    split
    next others => exact absurd rfl (ends '.' rfl).2.1
    next => rfl
  have noExponent : exponentPart rest = some (none, rest) := by
    unfold exponentPart
    split
    next others => exact absurd rfl (ends 'e' rfl).2.2.1
    next others => exact absurd rfl (ends 'E' rfl).2.2.2
    next => rfl
  simp [unsignedNumber, wholeDigits_writeNat ends, noFraction, noExponent, decimal_writeNat,
    Number.ofNat]

theorem writeNumber_ofNat (value : Nat) : writeNumber (Number.ofNat value) = writeNat value := by
  simp [writeNumber, Number.ofNat]

/-! ## Values -/

theorem skipBlanks_cons {character : Char} {rest : List Char}
    (visible : isBlank character = false) :
    skipBlanks (character :: rest) = character :: rest := by
  simp [skipBlanks, visible]

theorem isBlank_of_isDigit {character : Char} (digit : isDigit character = true) :
    isBlank character = false := by
  rw [Bool.eq_false_iff]
  intro blank
  simp only [isBlank, Bool.or_eq_true, decide_eq_true_eq] at blank
  rcases blank with ((rfl | rfl) | rfl) | rfl <;> exact absurd digit (by decide)

/-- No value but a number begins with a digit. -/
theorem value_of_isDigit {fuel : Nat} {first : Char} {others : List Char}
    (digit : isDigit first = true) :
    value (fuel + 1) (first :: others)
      = (unsignedNumber false (first :: others)).map
          fun (parsed, rest) => (.number parsed, rest) := by
  rw [value, skipBlanks_cons (isBlank_of_isDigit digit)]
  split
  case h_8 => rfl
  all_goals
    next same =>
      obtain ⟨rfl, -⟩ := List.cons.inj same
      exact absurd digit (by decide)

theorem value_writeNat {fuel number : Nat} {rest : List Char} (ends : EndsNumber rest) :
    value (fuel + 1) (writeNat number ++ rest) = some (ofNat number, rest) := by
  have read : unsignedNumber false (writeNat number ++ rest) = some (Number.ofNat number, rest) :=
    unsignedNumber_writeNat ends
  obtain ⟨first, others, written, digit⟩ := exists_head_writeNat number
  rw [written, List.cons_append] at read ⊢
  rw [value_of_isDigit digit, read]
  rfl

/-- The text of a value is read as that value where nothing goes on with it. -/
def Rereads (json : Json) : Prop :=
  ∀ fuel rest, 2 * (write json).length ≤ fuel → EndsNumber rest →
    value fuel (write json ++ rest) = some (json, rest)

/-- No text is empty, so one call can always be made. -/
theorem rereads_of_succ {json : Json} (written : 0 < (write json).length)
    (reads : ∀ fuel rest, 2 * (write json).length ≤ fuel + 1 → EndsNumber rest →
      value (fuel + 1) (write json ++ rest) = some (json, rest)) : Rereads json := by
  intro fuel rest enough ends
  cases fuel with
  | zero => omega
  | succ fuel => exact reads fuel rest enough ends

theorem writeItems_cons_cons (item next : Json) (others : List Json) :
    writeItems (item :: next :: others) = write item ++ ',' :: writeItems (next :: others) := by
  rw [writeItems]
  exact List.cons_ne_nil next others

/-- The items of an array are read up to the closing bracket. -/
theorem items_writeItems {list : List Json} (nonempty : list ≠ [])
    (each : ∀ item ∈ list, Rereads item) (rest : List Char) {fuel : Nat}
    (enough : 2 * (writeItems list).length + 1 ≤ fuel) :
    items fuel (writeItems list ++ ']' :: rest) = some (list, rest) := by
  induction list generalizing fuel with
  | nil => exact absurd rfl nonempty
  | cons item others ih =>
    -- Each item takes one level of fuel, and its text is longer than that.
    obtain ⟨inner, rfl⟩ : ∃ inner, fuel = inner + 1 := ⟨fuel - 1, by omega⟩
    have reread := each item List.mem_cons_self
    cases others with
    | nil =>
      rw [writeItems] at enough ⊢
      rw [items, reread inner (']' :: rest) (by omega) (endsNumber_bracket rest)]
      rfl
    | cons next others =>
      rw [writeItems_cons_cons, List.length_append, List.length_cons] at enough
      have later := ih (List.cons_ne_nil next others)
        (fun later member => each later (List.mem_cons_of_mem item member))
        (show 2 * (writeItems (next :: others)).length + 1 ≤ inner by omega)
      rw [writeItems_cons_cons, List.append_assoc, List.cons_append, items,
        reread inner _ (by omega) (endsNumber_comma _)]
      simp [skipBlanks_cons (show isBlank ',' = false from rfl), later]

theorem writeString_some (text : String) :
    writeString (some text) = '"' :: text.toList.flatMap escape ++ ['"'] :=
  rfl

theorem writeMembers_single (name : String) (json : Json) :
    writeMembers [(some name, json)]
      = '"' :: (name.toList.flatMap escape ++ '"' :: ':' :: write json) := by
  simp [writeMembers, writeString_some]

theorem writeMembers_cons_cons (name : String) (json : Json) (next : Option String × Json)
    (others : List (Option String × Json)) :
    writeMembers ((some name, json) :: next :: others)
      = '"' :: (name.toList.flatMap escape ++ '"' :: ':' ::
        (write json ++ ',' :: writeMembers (next :: others))) := by
  rw [writeMembers]
  · simp [writeString_some]
  · exact List.cons_ne_nil next others

/-- The name and the value of a member are read, and what stands behind them decides. -/
theorem members_of_member {name : String} {json : Json} (reread : Rereads json) {fuel : Nat}
    (enough : 2 * (write json).length ≤ fuel) {tail : List Char} (ends : EndsNumber tail) :
    members (fuel + 1)
        ('"' :: (name.toList.flatMap escape ++ '"' :: ':' :: (write json ++ tail)))
      = match skipBlanks tail with
        | '\x7d' :: rest => some ([(some name, json)], rest)
        | ',' :: rest =>
          (members fuel rest).map fun (others, rest) => ((some name, json) :: others, rest)
        | _ => none := by
  have quote : isBlank '"' = false := rfl
  have colon : isBlank ':' = false := rfl
  rw [members, skipBlanks_cons quote]
  simp only [literal_escaped, skipBlanks_cons colon]
  rewrite [reread fuel tail enough ends]
  rfl

/-- The members of an object are read up to the closing brace. -/
theorem members_writeMembers {list : List (Option String × Json)} (nonempty : list ≠ [])
    (named : ∀ member ∈ list, member.1.isSome = true) (each : ∀ member ∈ list, Rereads member.2)
    (rest : List Char) {fuel : Nat} (enough : 2 * (writeMembers list).length + 1 ≤ fuel) :
    members fuel (writeMembers list ++ '\x7d' :: rest) = some (list, rest) := by
  induction list generalizing fuel with
  | nil => exact absurd rfl nonempty
  | cons member others ih =>
    -- As for items, with the name of each member before it.
    obtain ⟨inner, rfl⟩ : ∃ inner, fuel = inner + 1 := ⟨fuel - 1, by omega⟩
    obtain ⟨name, known⟩ := Option.isSome_iff_exists.1 (named member List.mem_cons_self)
    obtain ⟨_, json⟩ := member
    subst known
    have reread : Rereads json := each (some name, json) List.mem_cons_self
    cases others with
    | nil =>
      rw [writeMembers_single] at enough ⊢
      simp only [List.length_cons, List.length_append] at enough
      simp only [List.cons_append, List.append_assoc]
      rw [members_of_member reread (by omega) (endsNumber_brace rest)]
      rfl
    | cons next others =>
      rw [writeMembers_cons_cons] at enough ⊢
      simp only [List.length_cons, List.length_append] at enough
      have later := ih (List.cons_ne_nil next others)
        (fun later inside => named later (List.mem_cons_of_mem _ inside))
        (fun later inside => each later (List.mem_cons_of_mem _ inside))
        (show 2 * (writeMembers (next :: others)).length + 1 ≤ inner by omega)
      simp only [List.cons_append, List.append_assoc]
      rw [members_of_member reread (by omega) (endsNumber_comma _),
        skipBlanks_cons (show isBlank ',' = false from rfl)]
      simp [later]

/-- The text of a value begins neither with a blank nor with a closing bracket. -/
theorem exists_head_write {json : Json} (simple : IsSimple json) :
    ∃ first others, write json = first :: others ∧ isBlank first = false ∧ first ≠ ']' := by
  cases simple with
  | null => exact ⟨'n', _, rfl, rfl, by decide⟩
  | bool value => cases value <;> exact ⟨_, _, rfl, rfl, by decide⟩
  | text value => exact ⟨'"', _, rfl, rfl, by decide⟩
  | array each => exact ⟨'[', _, rfl, rfl, by decide⟩
  | members each => exact ⟨'\x7b', _, rfl, rfl, by decide⟩
  | @number value small =>
    obtain ⟨first, others, written, digit⟩ := exists_head_writeNat value
    have notBracket : first ≠ ']' := by
      rintro rfl
      exact absurd digit (by decide)
    exact ⟨first, others, (writeNumber_ofNat value).trans written, isBlank_of_isDigit digit,
      notBracket⟩

theorem exists_head_writeItems {item : Json} (simple : IsSimple item) (others : List Json) :
    ∃ first tail, writeItems (item :: others) = first :: tail
      ∧ isBlank first = false ∧ first ≠ ']' := by
  obtain ⟨first, tail, written, visible, apart⟩ := exists_head_write simple
  cases others with
  | nil => exact ⟨first, tail, by rw [writeItems, written], visible, apart⟩
  | cons next others =>
    refine ⟨first, tail ++ ',' :: writeItems (next :: others), ?_, visible, apart⟩
    rw [writeItems_cons_cons, written, List.cons_append]

theorem exists_tail_writeMembers (name : String) (json : Json)
    (others : List (Option String × Json)) :
    ∃ tail, writeMembers ((some name, json) :: others) = '"' :: tail := by
  cases others with
  | nil => exact ⟨_, writeMembers_single name json⟩
  | cons next others => exact ⟨_, writeMembers_cons_cons name json next others⟩

theorem rereads_array {list : List Json} (simple : ∀ item ∈ list, IsSimple item)
    (each : ∀ item ∈ list, Rereads item) : Rereads (.array list) := by
  refine rereads_of_succ (Nat.succ_pos _) fun inner rest enough ends => ?_
  simp only [write, List.length_cons, List.length_append, List.length_nil] at enough
  have opening : isBlank '[' = false := rfl
  simp only [write, List.cons_append, List.append_assoc, List.nil_append]
  rw [value, skipBlanks_cons opening]
  cases list with
  | nil => rfl
  | cons item others =>
    have read := items_writeItems (List.cons_ne_nil item others) each rest
      (show 2 * (writeItems (item :: others)).length + 1 ≤ inner by omega)
    -- The first item is no closing bracket.
    obtain ⟨first, tail, written, visible, apart⟩ :=
      exists_head_writeItems (simple item List.mem_cons_self) others
    rw [written, List.cons_append] at read ⊢
    simp only [skipBlanks_cons visible]
    split
    next rest same => exact absurd (List.cons.inj same).1 apart
    next => rw [read]; rfl

theorem rereads_object {list : List (Option String × Json)}
    (named : ∀ member ∈ list, member.1.isSome = true) (each : ∀ member ∈ list, Rereads member.2) :
    Rereads (.object list) := by
  refine rereads_of_succ (Nat.succ_pos _) fun inner rest enough ends => ?_
  simp only [write, List.length_cons, List.length_append, List.length_nil] at enough
  have opening : isBlank '\x7b' = false := rfl
  simp only [write, List.cons_append, List.append_assoc, List.nil_append]
  rw [value, skipBlanks_cons opening]
  cases list with
  | nil => rfl
  | cons member others =>
    have read := members_writeMembers (List.cons_ne_nil member others) named each rest
      (show 2 * (writeMembers (member :: others)).length + 1 ≤ inner by omega)
    -- The first name begins with its quote, which is no closing brace.
    obtain ⟨name, known⟩ := Option.isSome_iff_exists.1 (named member List.mem_cons_self)
    obtain ⟨_, json⟩ := member
    subst known
    obtain ⟨tail, written⟩ := exists_tail_writeMembers name json others
    have quote : isBlank '"' = false := rfl
    rw [written, List.cons_append] at read ⊢
    simp only [skipBlanks_cons quote]
    change (members inner ('"' :: (tail ++ '\x7d' :: rest))).map _ = _
    rw [read]
    rfl

theorem rereads_text (text : String) : Rereads (ofText text) := by
  refine rereads_of_succ (Nat.succ_pos _) fun inner rest _ _ => ?_
  have written : write (ofText text) ++ rest
      = '"' :: (text.toList.flatMap escape ++ '"' :: rest) := by
    simp [ofText, write, writeString_some]
  have quote : isBlank '"' = false := rfl
  rw [written, value, skipBlanks_cons quote]
  simp [literal_escaped, ofText]

theorem rereads_number (number : Nat) : Rereads (ofNat number) := by
  have written : write (ofNat number) = writeNat number := writeNumber_ofNat number
  refine rereads_of_succ (written ▸ Nat.length_toDigits_pos) fun inner rest _ ends => ?_
  rw [written]
  exact value_writeNat ends

/-- The reader follows the writer through the whole value. -/
theorem rereads_of_isSimple {json : Json} (simple : IsSimple json) : Rereads json := by
  induction simple with
  | null => exact rereads_of_succ (Nat.succ_pos _) fun _ _ _ _ => rfl
  | bool value => cases value <;> exact rereads_of_succ (Nat.succ_pos _) fun _ _ _ _ => rfl
  | @number value small => exact rereads_number value
  | text value => exact rereads_text value
  | array each ih => exact rereads_array each ih
  | members each ih =>
    exact rereads_object (List.forall_mem_map.2 fun _ _ => rfl) (List.forall_mem_map.2 ih)

end Parser

/-- The text of a simple value is read as that value. -/
theorem IsSimple.parse?_render {json : Json} (simple : IsSimple json) :
    parse? json.render = some json := by
  have read := Parser.rereads_of_isSimple simple (2 * (write json).length + 2) []
    (Nat.le_add_right _ 2) Parser.endsNumber_nil
  rw [List.append_nil] at read
  simp [parse?, render, read, Parser.skipBlanks]

end LinkRegistry.Json
