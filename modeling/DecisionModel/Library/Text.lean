import DecisionModel.Library.Positions
import DecisionModel.Text.Case

/-!
# Functions of strings

Lengths and positions count characters.
-/

namespace DecisionModel.Library

/-- A test of one string against another. Absent comes before null, whichever of the two it is. -/
def compareTexts (function : String) (test : List Char → List Char → Bool) (args : List Value) :
    Result Value :=
  let (text, other) := (argument args 0, argument args 1)
  if text.isAbsent || other.isAbsent then .ok .absent
  else if text.isNull || other.isNull then .ok .null
  else do
    let text ← expectString function text
    let other ← expectString function other
    return .bool (test text.toList other.toList)

def startsWith (args : List Value) : Result Value :=
  compareTexts "starts with" (fun text start => start.isPrefixOf text) args

def endsWith (args : List Value) : Result Value :=
  compareTexts "ends with" (fun text ending => ending.isSuffixOf text) args

def contains (args : List Value) : Result Value :=
  compareTexts "contains" (fun text part => Text.contains part text) args

/-- A function of one string. -/
def ofString (function : String) (f : List Char → Value) (args : List Value) : Result Value :=
  let subject := argument args 0
  if subject.isMissing then .ok subject
  else (expectString function subject).map fun s => f s.toList

def upperCase (args : List Value) : Result Value :=
  ofString "upper case" (fun cs => .string (String.ofList (Text.upperCase cs))) args

def lowerCase (args : List Value) : Result Value :=
  ofString "lower case" (fun cs => .string (String.ofList (Text.lowerCase cs))) args

def stringLength (args : List Value) : Result Value :=
  ofString "string length" (fun cs => .ofNat cs.length) args

/-- The characters from a position on, which counts from one, or from the end if it is negative. -/
def substring (args : List Value) : Result Value :=
  let (text, start) := (argument args 0, argument args 1)
  if text.isMissing then .ok text
  else if start.isMissing then .ok start
  else do
    let cs := (← expectString "substring" text).toList
    let place ← position "substring" start
    let first ← startOffset "substring" .startOutsideString cs.length place
    let length? ← askedLength? "substring" (argument args 2)
    return .string (String.ofList (← takeFrom "substring" cs first length?))

end DecisionModel.Library
