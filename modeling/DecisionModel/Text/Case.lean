import DecisionModel.Text.CaseTable

/-!
# Upper and lower case

Full case conversion: a character may become several (`ß` gives `SS`), and a capital sigma becomes
a final one at the end of a word, that is, after a character with case and not before one, where
characters such as accents and apostrophes between them do not count.
-/

namespace DecisionModel.Text

open CaseTable

/-- The character of a table row that `n` is moved to. -/
def CaseTable.Row.target? (row : Row) (n : Nat) : Option Nat :=
  if row.first ≤ n ∧ n ≤ row.last ∧ (n - row.first) % row.step = 0 then
    some (n + row.offset).toNat
  else none

/-- A character under a mapping; one that is in neither table stays. -/
def mapCase (rows : List Row) (sequences : List (Nat × List Nat)) (c : Char) : List Char :=
  match sequences.lookup c.toNat with
  | some codes => codes.map Char.ofNat
  | none => match rows.findSome? (·.target? c.toNat) with
    | some code => [Char.ofNat code]
    | none => [c]

def upperChar (c : Char) : List Char := mapCase upperRows upperSequences c

def lowerChar (c : Char) : List Char := mapCase lowerRows lowerSequences c

def inRanges (ranges : List (Nat × Nat)) (c : Char) : Bool :=
  ranges.any fun (first, last) => first ≤ c.toNat && c.toNat ≤ last

/-- Whether the nearest character that counts has case. -/
def meetsCased (cs : List Char) : Bool :=
  match cs.dropWhile (inRanges ignorableRanges) with
  | [] => false
  | c :: _ => inRanges casedRanges c

def upperCase (cs : List Char) : List Char := cs.flatMap upperChar

/-- The lower case of a text whose part before `cs` is given in reverse. -/
def lowerFrom (before : List Char) : List Char → List Char
  | [] => []
  | c :: cs =>
    let lower := if c = 'Σ' then (if meetsCased before && !meetsCased cs then ['ς'] else ['σ'])
      else lowerChar c
    lower ++ lowerFrom (c :: before) cs

def lowerCase (cs : List Char) : List Char := lowerFrom [] cs

/-- Raises ASCII letters and nothing else. -/
def upperAscii (cs : List Char) : List Char := cs.map Char.toUpper

end DecisionModel.Text
