import Mathlib.Data.List.TakeWhile
import LinkRegistry.Json.Parser

/-!
# What a JSON value takes of its text

Reading takes characters off the front of a text, and no control character among them but tabs and
line ends. What it takes for an array ends with a bracket, and for an object with a brace.
-/

namespace LinkRegistry.Json

namespace Parser

/-! ## Characters -/

/-- A character that may stand in JSON text: a blank, or one that is no control character. -/
def IsPlaced (character : Char) : Prop := isBlank character = true ∨ 0x20 ≤ character.toNat

instance (character : Char) : Decidable (IsPlaced character) :=
  inferInstanceAs (Decidable (_ ∨ _))

/-- The blanks lie between the tab and the space. -/
theorem bounds_of_isBlank {character : Char} (blank : isBlank character = true) :
    9 ≤ character.toNat ∧ character.toNat < 33 := by
  simp only [isBlank, Bool.or_eq_true, decide_eq_true_eq] at blank
  rcases blank with ((rfl | rfl) | rfl) | rfl <;> decide

theorem isPlaced_of_isDigit {character : Char} (digit : isDigit character = true) :
    IsPlaced character := by
  have range : '0' ≤ character ∧ character ≤ '9' := by simpa [isDigit] using digit
  exact .inr (Nat.le_trans (by decide) (UInt32.le_iff_toNat_le.1 range.1))

theorem isPlaced_of_hexDigit? {character : Char} {digit : Nat}
    (found : hexDigit? character = some digit) : IsPlaced character := by
  refine .inr (Nat.not_lt.1 fun below => ?_)
  have first : ¬ 48 ≤ character.toNat := by omega
  have second : ¬ 65 ≤ character.toNat := by omega
  have third : ¬ 97 ≤ character.toNat := by omega
  simp [hexDigit?, first, second, third] at found

theorem isPlaced_of_escaped? {letter value : Char} (found : escaped? letter = some value) :
    IsPlaced letter := by
  unfold escaped? at found
  split at found <;> first | decide | cases found

/-! ## Stretches -/

/-- An input goes on with a rest behind characters that may stand in JSON text. -/
def Takes (input rest : List Char) : Prop :=
  ∃ taken, input = taken ++ rest ∧ ∀ character ∈ taken, IsPlaced character

theorem Takes.refl (input : List Char) : Takes input input := ⟨[], rfl, nofun⟩

theorem Takes.trans {input middle rest : List Char} (front : Takes input middle)
    (back : Takes middle rest) : Takes input rest := by
  obtain ⟨first, rfl, placed⟩ := front
  obtain ⟨second, rfl, also⟩ := back
  refine ⟨first ++ second, (List.append_assoc ..).symm, fun character member => ?_⟩
  exact (List.mem_append.1 member).elim (placed character) (also character)

theorem Takes.cons {character : Char} {input rest : List Char} (placed : IsPlaced character)
    (takes : Takes input rest) : Takes (character :: input) rest := by
  obtain ⟨taken, rfl, all⟩ := takes
  exact ⟨character :: taken, rfl, List.forall_mem_cons.2 ⟨placed, all⟩⟩

theorem takes_dropWhile {p : Char → Bool} (placed : ∀ character, p character → IsPlaced character)
    (input : List Char) : Takes input (input.dropWhile p) :=
  ⟨input.takeWhile p, List.takeWhile_append_dropWhile.symm, fun character member =>
    placed character (List.mem_takeWhile_imp member)⟩

theorem takes_skipBlanks (input : List Char) : Takes input (skipBlanks input) :=
  takes_dropWhile (fun _ blank => .inl blank) input

theorem takes_digits (input : List Char) : Takes input (input.dropWhile isDigit) :=
  takes_dropWhile (fun _ digit => isPlaced_of_isDigit digit) input

/-! ## Strings -/

theorem isPlaced_of_codeUnit? {a b c d : Char} {code : Nat} (found : codeUnit? a b c d = some code) :
    IsPlaced a ∧ IsPlaced b ∧ IsPlaced c ∧ IsPlaced d := by
  simp only [codeUnit?, Option.bind_eq_bind, Option.bind_eq_some_iff] at found
  obtain ⟨_, first, _, second, _, third, _, fourth, -⟩ := found
  exact ⟨isPlaced_of_hexDigit? first, isPlaced_of_hexDigit? second, isPlaced_of_hexDigit? third,
    isPlaced_of_hexDigit? fourth⟩

theorem takes_places {input rest : List Char} {spelling : List Place}
    (found : places input = some (spelling, rest)) : Takes input rest := by
  fun_induction places input generalizing spelling rest with
  | case1 | case4 | case6 | case7 | case9 => cases found
  | case2 =>
    -- The closing quote.
    obtain ⟨-, rfl⟩ := Prod.mk.inj (Option.some.inj found)
    exact .cons (by decide) (.refl _)
  | case3 a b c d after code others tail later unit ih =>
    obtain ⟨-, rfl⟩ := Prod.mk.inj (Option.some.inj found)
    obtain ⟨first, second, third, fourth⟩ := isPlaced_of_codeUnit? unit
    have digits := ((ih later).cons fourth |>.cons third |>.cons second |>.cons first)
    exact (digits.cons (by decide)).cons (by decide)
  | case5 letter after _ value others tail later escape ih =>
    obtain ⟨-, rfl⟩ := Prod.mk.inj (Option.some.inj found)
    exact ((ih later).cons (isPlaced_of_escaped? escape)).cons (by decide)
  | case8 character after _ _ _ plain others tail later ih =>
    obtain ⟨-, rfl⟩ := Prod.mk.inj (Option.some.inj found)
    have placed : IsPlaced character := by
      simp only [Bool.or_eq_true, decide_eq_true_eq, not_or, Nat.not_lt] at plain
      exact .inr plain.1
    exact (ih later).cons placed

theorem takes_literal {input rest : List Char} {text : Option String}
    (found : literal input = some (text, rest)) : Takes input rest := by
  unfold literal at found
  split at found
  · next spelling tail spelled =>
    obtain ⟨-, rfl⟩ := Prod.mk.inj (Option.some.inj found)
    exact takes_places spelled
  · cases found

/-! ## Numbers -/

section Numbers

variable {input rest : List Char}

theorem takes_wholeDigits {digits : List Char} (found : wholeDigits input = some (digits, rest)) :
    Takes input rest := by
  unfold wholeDigits at found
  split at found
  · cases found
  · cases found
  · obtain ⟨-, rfl⟩ := Prod.mk.inj (Option.some.inj found)
    exact takes_digits input

theorem takes_fractionDigits {digits : List Char}
    (found : fractionDigits input = some (digits, rest)) : Takes input rest := by
  unfold fractionDigits at found
  split at found
  · split at found
    · cases found
    · obtain ⟨-, rfl⟩ := Prod.mk.inj (Option.some.inj found)
      exact .cons (by decide) (takes_digits _)
  · obtain ⟨-, rfl⟩ := Prod.mk.inj (Option.some.inj found)
    exact .refl input

theorem takes_signedExponent {value : Int} (found : signedExponent input = some (value, rest)) :
    Takes input rest := by
  unfold signedExponent at found
  split at found
  next negative start sign =>
  split at found
  · cases found
  · obtain ⟨-, rfl⟩ := Prod.mk.inj (Option.some.inj found)
    have digits := takes_digits start
    -- Whatever the sign, the digits are taken behind it.
    split at sign
    · obtain ⟨rfl, rfl⟩ := Prod.mk.inj sign
      exact digits.cons (by decide)
    · obtain ⟨rfl, rfl⟩ := Prod.mk.inj sign
      exact digits.cons (by decide)
    · obtain ⟨rfl, rfl⟩ := Prod.mk.inj sign
      exact digits

theorem takes_exponentPart {value : Option Int} (found : exponentPart input = some (value, rest)) :
    Takes input rest := by
  unfold exponentPart at found
  split at found
  · split at found
    · next power tail signed =>
      obtain ⟨-, rfl⟩ := Prod.mk.inj (Option.some.inj found)
      exact (takes_signedExponent signed).cons (by decide)
    · cases found
  · split at found
    · next power tail signed =>
      obtain ⟨-, rfl⟩ := Prod.mk.inj (Option.some.inj found)
      exact (takes_signedExponent signed).cons (by decide)
    · cases found
  · obtain ⟨-, rfl⟩ := Prod.mk.inj (Option.some.inj found)
    exact .refl input

theorem takes_unsignedNumber {negative : Bool} {parsed : Number}
    (found : unsignedNumber negative input = some (parsed, rest)) : Takes input rest := by
  simp only [unsignedNumber, Option.bind_eq_bind, Option.bind_eq_some_iff] at found
  obtain ⟨⟨whole, first⟩, ofWhole, ⟨fraction, second⟩, ofFraction, ⟨exponent, third⟩, ofExponent,
    same⟩ := found
  obtain ⟨-, rfl⟩ := Prod.mk.inj (Option.some.inj same)
  exact ((takes_wholeDigits ofWhole).trans (takes_fractionDigits ofFraction)).trans
    (takes_exponentPart ofExponent)

end Numbers

/-! ## Values -/

theorem takes_word {letters input rest : List Char} {value json : Json}
    (placed : letters.all (IsPlaced ·) = true)
    (found : word letters value input = some (json, rest)) : json = value ∧ Takes input rest := by
  unfold word at found
  split at found
  · next lead =>
    obtain ⟨rfl, rfl⟩ := Prod.mk.inj (Option.some.inj found)
    obtain ⟨tail, rfl⟩ := List.isPrefixOf_iff_prefix.1 lead
    exact ⟨rfl, letters, by rw [List.drop_left], by simpa using placed⟩
  · cases found

end Parser

/-- The brace or bracket that ends the text of a value. -/
def closing : Json → List Char
  | .array _ => [']']
  | .object _ => ['}']
  | _ => []

namespace Parser

theorem isPlaced_closing (json : Json) : ∀ character ∈ json.closing, IsPlaced character := by
  cases json <;> simp [closing, IsPlaced]

theorem takes_rest {input rest : List Char} {json : Json}
    (takes : Takes input (json.closing ++ rest)) : Takes input rest :=
  takes.trans ⟨json.closing, rfl, isPlaced_closing json⟩

-- The recursion is that of the reader: every call inside another has less fuel.
mutual

theorem takes_value {fuel : Nat} {input rest : List Char} {json : Json}
    (found : value fuel input = some (json, rest)) : Takes input (json.closing ++ rest) := by
  cases fuel with
  | zero => cases found
  | succ fuel =>
    refine (takes_skipBlanks input).trans ?_
    unfold value at found
    generalize skipBlanks input = start at found ⊢
    split at found
    -- The three words, of which the first letter has been read.
    · obtain ⟨rfl, takes⟩ := takes_word (by decide) found
      exact takes.cons (by decide)
    · obtain ⟨rfl, takes⟩ := takes_word (by decide) found
      exact takes.cons (by decide)
    · obtain ⟨rfl, takes⟩ := takes_word (by decide) found
      exact takes.cons (by decide)
    -- A string behind its quote, and a number behind its sign.
    · obtain ⟨⟨text, tail⟩, spelled, same⟩ := Option.map_eq_some_iff.1 found
      obtain ⟨rfl, rfl⟩ := Prod.mk.inj same
      exact (takes_literal spelled).cons (by decide)
    · obtain ⟨⟨parsed, tail⟩, spelled, same⟩ := Option.map_eq_some_iff.1 found
      obtain ⟨rfl, rfl⟩ := Prod.mk.inj same
      exact (takes_unsignedNumber spelled).cons (by decide)
    -- An array and an object: either the closing character comes at once, or the reader of what is
    -- inside takes all before it.
    · next inside =>
      refine .cons (by decide) ((takes_skipBlanks inside).trans ?_)
      generalize skipBlanks inside = start at found ⊢
      split at found
      · obtain ⟨rfl, rfl⟩ := Prod.mk.inj (Option.some.inj found)
        exact .refl _
      · obtain ⟨⟨all, tail⟩, listed, same⟩ := Option.map_eq_some_iff.1 found
        obtain ⟨rfl, rfl⟩ := Prod.mk.inj same
        exact takes_items listed
    · next inside =>
      refine .cons (by decide) ((takes_skipBlanks inside).trans ?_)
      generalize skipBlanks inside = start at found ⊢
      split at found
      · obtain ⟨rfl, rfl⟩ := Prod.mk.inj (Option.some.inj found)
        exact .refl _
      · obtain ⟨⟨all, tail⟩, listed, same⟩ := Option.map_eq_some_iff.1 found
        obtain ⟨rfl, rfl⟩ := Prod.mk.inj same
        exact takes_members listed
    -- Anything else can only be a number.
    · obtain ⟨⟨parsed, tail⟩, spelled, same⟩ := Option.map_eq_some_iff.1 found
      obtain ⟨rfl, rfl⟩ := Prod.mk.inj same
      exact takes_unsignedNumber spelled

theorem takes_items {fuel : Nat} {input rest : List Char} {all : List Json}
    (found : items fuel input = some (all, rest)) : Takes input (']' :: rest) := by
  cases fuel with
  | zero => cases found
  | succ fuel =>
    unfold items at found
    split at found
    · cases found
    · next item after parsed =>
      refine (takes_rest (takes_value parsed)).trans ((takes_skipBlanks after).trans ?_)
      generalize skipBlanks after = start at found ⊢
      -- The bracket, or a comma and further items.
      split at found
      · obtain ⟨-, rfl⟩ := Prod.mk.inj (Option.some.inj found)
        exact .refl _
      · obtain ⟨⟨others, tail⟩, listed, same⟩ := Option.map_eq_some_iff.1 found
        obtain ⟨-, rfl⟩ := Prod.mk.inj same
        exact (takes_items listed).cons (by decide)
      · cases found

theorem takes_members {fuel : Nat} {input rest : List Char} {all : List (Option String × Json)}
    (found : members fuel input = some (all, rest)) : Takes input ('}' :: rest) := by
  cases fuel with
  | zero => cases found
  | succ fuel =>
    refine (takes_skipBlanks input).trans ?_
    unfold members at found
    generalize skipBlanks input = start at found ⊢
    split at found
    · next named =>
      split at found
      · cases found
      · next name colon spelled =>
        refine .cons (by decide) ((takes_literal spelled).trans ((takes_skipBlanks colon).trans ?_))
        generalize skipBlanks colon = start at found ⊢
        split at found
        · next valued =>
          split at found
          · cases found
          · next member after parsed =>
            refine .cons (by decide)
              ((takes_rest (takes_value parsed)).trans ((takes_skipBlanks after).trans ?_))
            generalize skipBlanks after = start at found ⊢
            -- The brace, or a comma and further members.
            split at found
            · obtain ⟨-, rfl⟩ := Prod.mk.inj (Option.some.inj found)
              exact .refl _
            · obtain ⟨⟨others, tail⟩, listed, same⟩ := Option.map_eq_some_iff.1 found
              obtain ⟨-, rfl⟩ := Prod.mk.inj same
              exact (takes_members listed).cons (by decide)
            · cases found
        · cases found
    · cases found

end

end Parser

/-! ## Texts -/

/-- A text that is a value holds no control character but tabs and line ends, and nothing but
blanks behind what ends the value. -/
theorem exists_takes_of_parse? {text : String} {json : Json} (found : parse? text = some json) :
    ∃ blanks, (∀ character ∈ blanks, Parser.isBlank character = true)
      ∧ Parser.Takes text.toList (json.closing ++ blanks) := by
  simp only [parse?] at found
  split at found
  · next own rest parsed =>
    split at found
    · next finished =>
      obtain rfl := Option.some.inj found
      refine ⟨rest, ?_, Parser.takes_value parsed⟩
      simpa [Parser.skipBlanks, List.dropWhile_eq_nil_iff] using finished
    · cases found
  · cases found

theorem isPlaced_of_parse? {text : String} {json : Json} (found : parse? text = some json) :
    ∀ character ∈ text.toList, Parser.IsPlaced character := by
  obtain ⟨blanks, blank, taken, split, placed⟩ := exists_takes_of_parse? found
  intro character member
  rw [split, List.mem_append, List.mem_append] at member
  rcases member with front | last | behind
  · exact placed character front
  · exact Parser.isPlaced_closing json character last
  · exact .inl (blank character behind)

end LinkRegistry.Json
