import DecisionModel.Text.Blank
import DecisionModel.Text.Case

/-!
# Hit policies

What a decision table makes of the rules that match.
-/

namespace DecisionModel

inductive HitPolicy where
  /-- The first rule that matches counts. -/
  | first
  /-- Only one rule may match. -/
  | unique
  /-- Every rule that matches counts. -/
  | collect
  /-- Every rule that matches counts, in the order of the table; so it is with `collect`. -/
  | ruleOrder
  deriving DecidableEq, Repr

namespace HitPolicy

def name : HitPolicy → String
  | .first => "FIRST"
  | .unique => "UNIQUE"
  | .collect => "COLLECT"
  | .ruleOrder => "RULE ORDER"

/-- Whether the result is a list with a row for each rule that matches. -/
def isMultiple : HitPolicy → Bool
  | .first => false
  | .unique => false
  | .collect => true
  | .ruleOrder => true

/-- Reads a name in letters of either case, with blanks around it left out. -/
def ofText? (text : String) : Option HitPolicy :=
  match String.ofList (Text.upperAscii (Text.trim text.toList)) with
  | "FIRST" => some .first
  | "UNIQUE" => some .unique
  | "COLLECT" => some .collect
  | "RULE ORDER" => some .ruleOrder
  | "RULE_ORDER" => some .ruleOrder
  | _ => none

end HitPolicy

end DecisionModel
