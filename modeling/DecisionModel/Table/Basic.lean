import DecisionModel.Expr.Basic
import DecisionModel.Table.HitPolicy

/-!
# Decision tables

A table has an expression for each input column, a name for each output column, and rules with an
entry for every column. A table that exists has outputs with proper names and rules that fit its
columns; `Table.new` refuses anything else, with the first reason there is.
-/

namespace DecisionModel

/-- A row: a test for each input column and an expression for each output column. -/
structure Rule where
  inputEntries : List Expr
  outputEntries : List Expr

namespace Rule

/-- Whether a rule has an entry for every column. -/
def Fits (inputs outputs : Nat) (r : Rule) : Prop :=
  r.inputEntries.length = inputs ∧ r.outputEntries.length = outputs

instance (inputs outputs : Nat) (r : Rule) : Decidable (r.Fits inputs outputs) :=
  inferInstanceAs (Decidable (_ ∧ _))

end Rule

/-- Why a table is refused. -/
inductive TableFault where
  | noOutputs
  | outputName (name : String)
  /-- The entries that a rule has, and those that the columns ask for. -/
  | entryCount (rule inputs outputs expectedInputs expectedOutputs : Nat)
  deriving DecidableEq, Repr

def TableFault.message : TableFault → String
  | .noOutputs => "no outputs declared"
  | .outputName name => "malformed output name \"" ++ name ++ "\""
  | .entryCount rule inputs outputs expectedInputs expectedOutputs =>
    s!"rule {rule} has {inputs} input and {outputs} output entries, " ++
      s!"expected {expectedInputs} and {expectedOutputs}"

/-- The names along the path that an output name with points in it stands for. -/
def outputPath (name : String) : List String := (Text.split '.' name.toList).map String.ofList

/-- An output name has no empty part. -/
def isOutputName (name : String) : Bool := (outputPath name).all (· != "")

structure Table where
  hitPolicy : HitPolicy
  inputs : List Expr
  outputs : List String
  rules : List Rule
  outputs_ne : outputs ≠ []
  outputs_named : ∀ name ∈ outputs, isOutputName name = true
  rules_fit : ∀ rule ∈ rules, rule.Fits inputs.length outputs.length

namespace Table

/-- The fault of the first rule that does not fit, where rules are counted from `number` on. -/
def misfit? (inputs outputs : Nat) (number : Nat) : List Rule → Option TableFault
  | [] => none
  | rule :: rules =>
    if rule.Fits inputs outputs then misfit? inputs outputs (number + 1) rules
    else some (.entryCount number rule.inputEntries.length rule.outputEntries.length inputs outputs)

theorem fits_of_misfit?_eq_none {inputs outputs number : Nat} {rules : List Rule}
    (h : misfit? inputs outputs number rules = none) :
    ∀ rule ∈ rules, rule.Fits inputs outputs := by
  induction rules generalizing number with
  | nil => simp
  | cons rule rules ih =>
    unfold misfit? at h
    split at h
    · next hfit =>
      intro r hr
      rcases List.mem_cons.1 hr with rfl | hr
      · exact hfit
      · exact ih h r hr
    · exact absurd h (by simp)

/-- The table of the given parts. -/
def new (hitPolicy : HitPolicy) (inputs : List Expr) (outputs : List String) (rules : List Rule) :
    Except TableFault Table :=
  if ne : outputs = [] then .error .noOutputs
  else match named : outputs.find? (!isOutputName ·) with
    | some name => .error (.outputName name)
    | none => match fit : misfit? inputs.length outputs.length 1 rules with
      | some fault => .error fault
      | none => .ok {
          hitPolicy, inputs, outputs, rules
          outputs_ne := ne
          outputs_named := fun name h => by simpa using List.find?_eq_none.1 named name h
          rules_fit := fits_of_misfit?_eq_none fit }

end Table

end DecisionModel
