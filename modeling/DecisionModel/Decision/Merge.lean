import DecisionModel.Value.Basic

/-!
# Results in the context

The result of a decision is merged into the context that the decisions after it see. Rows of several
rules are gathered first, so that every output name holds the list of its values.
-/

namespace DecisionModel

namespace Context

mutual

/-- A value that is laid over another one: contexts are merged, lists joined, and anything else
takes the place of what was there. -/
def overlay (existing : Option Value) : Value → Value
  | .context entries => match existing with
    | some (.context base) => .context (merge base entries)
    | _ => .context entries
  | .list items => match existing with
    | some (.list base) => .list (base ++ items)
    | _ => .list items
  | v => v

/-- Lays entries over a context one by one. -/
def merge (base : Context) : List (String × Value) → Context
  | [] => base
  | (name, value) :: entries =>
    merge (Entries.insert base name (overlay (Entries.get? base name) value)) entries

end

mutual

/-- The values gathered under a name, with one more. Contexts are gathered name by name as long as
only contexts come; a value that is not a context begins a list. -/
def addValue (gathered : Option Value) : Value → Value
  | .context entries => match gathered with
    | some (.context names) => .context (gather names entries)
    | none => .context (gather [] entries)
    | some (.list values) => .list (values ++ [.context entries])
    | _ => .list [.context entries]
  | v => match gathered with
    | some (.list values) => .list (values ++ [v])
    | _ => .list [v]

/-- Gathers the entries of a row into what was gathered before. -/
def gather (gathered : Context) : List (String × Value) → Context
  | [] => gathered
  | (name, value) :: entries =>
    gather (Entries.insert gathered name (addValue (Entries.get? gathered name) value)) entries

end

/-- Gathers rows; what is not a row is passed over. -/
def gatherRows (rows : List Value) : Context :=
  rows.foldl (fun gathered row => match row with
    | .context entries => gather gathered entries
    | _ => gathered) []

/-- The context after a decision has given its result. -/
def mergeResult (context : Context) : Value → Context
  | .context entries => merge context entries
  | .list rows => merge context (gatherRows rows)
  | _ => context

end Context

end DecisionModel
