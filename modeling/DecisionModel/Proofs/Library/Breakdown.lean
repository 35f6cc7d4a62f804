import DecisionModel.Library.Call
import DecisionModel.Proofs.Duration.Overfull
import DecisionModel.Proofs.Library.Deviation
import DecisionModel.Proofs.Library.Slice
import DecisionModel.Proofs.Value.Opposite

/-!
# Built-in functions that are broken off

Three functions of the library can be broken off: the magnitude, which turns a duration around, the
reader of durations, which adds up what a text says, and the standard deviation, which looks for a
root. When they are is said by `Builtin.BreaksOff`. All other functions come to a result or to an
error, whatever their arguments are.
-/

namespace DecisionModel

variable {α : Type} {args : List Value} {cause : Breakdown}

namespace Library

/-! ## Truth, numbers and texts -/

end Library

/-! ## The library -/

/-- What a built-in function with these arguments is broken off for. -/
inductive Builtin.BreaksOff (args : List Value) : Builtin → Breakdown → Prop where
  | abs {cause : Breakdown} : (Library.argument args 0).IsBackward →
      (Library.argument args 0).Unopposed cause → BreaksOff args .abs cause
  | duration {text : String} : Library.argument args 0 = .string text →
      Duration.IsOverfull text → BreaksOff args .duration .addedNanoseconds
  | stddev {ns : List Decimal} {v : Decimal} : Library.operands args = ns.map .number →
      2 ≤ ns.length → Library.variance ns = .ok v → v.sqrt? = none →
      BreaksOff args .stddev .unsettledRoot

end DecisionModel
