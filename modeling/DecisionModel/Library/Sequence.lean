import DecisionModel.Library.Positions

/-!
# Functions of lists

Positions count from zero, except in `sublist`, where they count from one, and from the end if they
are negative. Elements are compared by the equality of the language, read as a test that cannot
fail.
-/

namespace DecisionModel.Library

/-- A function of one list. -/
def ofList (function : String) (f : List Value → Value) (args : List Value) : Result Value :=
  let subject := argument args 0
  if subject.isMissing then .ok subject
  else (expectList function subject).map f

/-- Null and absent are contained in no list. -/
def listContains (args : List Value) : Result Value :=
  let element := argument args 1
  ofList "list contains"
    (fun items => .bool (!element.isMissing && items.any (·.agrees element))) args

def count (args : List Value) : Result Value :=
  ofList "count" (fun items => .ofNat items.length) args

/-- Adds an element at the end; the elements of a list are added one by one, and absent is not
added. -/
def append (args : List Value) : Result Value :=
  ofList "append" (fun items => .list (match argument args 1 with
    | .absent => items
    | .list more => items ++ more
    | element => items ++ [element])) args

/-- The elements of all arguments in order. Arguments that are null or absent are passed over. -/
def elements (function : String) : List Value → Result (List Value)
  | [] => .ok []
  | v :: rest =>
    if v.isMissing then elements function rest
    else do
      let items ← expectList function v
      return items ++ (← elements function rest)

def concatenate (args : List Value) : Result Value :=
  (elements "concatenate" args).map .list

def insertBefore (args : List Value) : Result Value :=
  let (list, place, item) := (argument args 0, argument args 1, argument args 2)
  if list.isMissing then .ok list
  else if place.isMissing then .ok place
  else if item.isAbsent then .ok .absent
  else do
    let items ← expectList "insert before" list
    let index ← position "insert before" place
    if index < 0 ∨ items.length < index then
      throw (.invalidArgument "insert before" (.insertPosition index items.length))
    else return .list (items.insertIdx index.toNat item)

def remove (args : List Value) : Result Value :=
  let (list, place) := (argument args 0, argument args 1)
  if list.isMissing then .ok list
  else if place.isMissing then .ok place
  else do
    let items ← expectList "remove" list
    let index ← position "remove" place
    if index < 0 ∨ items.length ≤ index then
      throw (.invalidArgument "remove" (.removePosition index items.length))
    else return .list (items.eraseIdx index.toNat)

def reverse (args : List Value) : Result Value :=
  ofList "reverse" (fun items => .list items.reverse) args

/-- The positions, from `first` on, of the elements that equal one. -/
def positionsFrom (first : Nat) (element : Value) : List Value → List Nat
  | [] => []
  | item :: items =>
    if item.agrees element then first :: positionsFrom (first + 1) element items
    else positionsFrom (first + 1) element items

def indexOf (args : List Value) : Result Value :=
  let (list, element) := (argument args 0, argument args 1)
  if list.isMissing then .ok list
  else if element.isAbsent then .ok .absent
  else (expectList "index of" list).map fun items =>
    .list ((positionsFrom 0 element items).map .ofNat)

/-- Adds an element unless an equal one is there. -/
def addDistinct (seen : List Value) (item : Value) : List Value :=
  if seen.any (·.agrees item) then seen else seen ++ [item]

/-- The elements without repetitions, in the order in which they first occur. -/
def distinct (items : List Value) : List Value := items.foldl addDistinct []

/-- Adds the elements of lists one after another. Arguments that are null or absent are passed
over. -/
def unionFrom (seen : List Value) : List Value → Result (List Value)
  | [] => .ok seen
  | v :: rest =>
    if v.isMissing then unionFrom seen rest
    else do unionFrom ((← expectList "union" v).foldl addDistinct seen) rest

def union (args : List Value) : Result Value := (unionFrom [] args).map .list

def distinctValues (args : List Value) : Result Value :=
  ofList "distinct values" (fun items => .list (distinct items)) args

mutual

/-- What stands in a list and in the lists inside it; a value that is not a list stands for
itself. -/
def leaves : Value → List Value
  | .list items => leavesOfAll items
  | v => [v]

def leavesOfAll : List Value → List Value
  | [] => []
  | item :: items => leaves item ++ leavesOfAll items

end

def flatten (args : List Value) : Result Value :=
  match missingSubject? args with
  | some v => .ok v
  | none => .ok (.list (leavesOfAll args))

/-- Of an empty list, and where no elements are asked for, nothing is taken at any position. -/
def sublist (args : List Value) : Result Value :=
  let (list, start) := (argument args 0, argument args 1)
  if list.isMissing then .ok list
  else if start.isMissing then .ok start
  else do
    let items ← expectList "sublist" list
    let place ← position "sublist" start
    let length? ← askedLength? "sublist" (argument args 2)
    if length? = some 0 ∨ items.isEmpty then return .list []
    else
      let first ← startOffset "sublist" .startOutsideList items.length place
      return .list (← takeFrom "sublist" items first length?)

end DecisionModel.Library
