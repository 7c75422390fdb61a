import LinkRegistry.Text.CharacterClass

/-!
# Lower case

The full lower-case mapping of a text. One character becomes two (the dotted capital I), and the
capital sigma depends on its place: at the end of a word it becomes the final sigma.
-/

namespace LinkRegistry.LowerCase

/-- The lower-case form of a code point in a run, if it is one of the run's. -/
def lowerIn? (run : Table.CaseRun) (code : Nat) : Option Nat :=
  if run.first ≤ code && code ≤ run.last && (code - run.first) % run.step = 0 then
    some (run.lowered + (code - run.first))
  else none

/-- The lower-case form of a character on its own. -/
def lowerChar (character : Char) : List Char :=
  let code := character.toNat
  if code < 0x80 then
    if 65 ≤ code && code ≤ 90 then [Char.ofNat (code + 32)] else [character]
  else if code = 0x130 then ['i', '\u0307']
  else
    match Table.lowering.findSome? (lowerIn? · code) with
    | some lowered => [Char.ofNat lowered]
    | none => [character]

/-- Whether the first character that casing does not look past is a cased one. -/
def meetsCased (characters : List Char) : Bool :=
  match characters.dropWhile (CodeRange.covers Table.caseIgnorable) with
  | [] => false
  | next :: _ => CodeRange.covers Table.cased next

/-- Lowers the characters of a text; `before` holds those already passed, the nearest first. A
capital sigma is final when a cased character stands before it and none after it. -/
def lowerAfter (before : List Char) : List Char → List Char
  | [] => []
  | 'Σ' :: rest =>
    (if meetsCased before && !meetsCased rest then 'ς' else 'σ') :: lowerAfter ('Σ' :: before) rest
  | character :: rest => lowerChar character ++ lowerAfter (character :: before) rest

def lower (text : String) : String := String.ofList (lowerAfter [] text.toList)

end LinkRegistry.LowerCase
