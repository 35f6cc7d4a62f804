import DecisionModel.Value.Same
import DecisionModel.Document
import DecisionModel.Expr.Same
import DecisionModel.Proofs.Calendar.Chronology
import DecisionModel.Proofs.Calendar.Difference
import DecisionModel.Proofs.Decimal.Partition
import DecisionModel.Proofs.Decimal.WholePower
import DecisionModel.Proofs.Decision.CellError
import DecisionModel.Proofs.Decision.Displacement
import DecisionModel.Proofs.Decision.Document
import DecisionModel.Proofs.Decision.Freshness
import DecisionModel.Proofs.Decision.Interference
import DecisionModel.Proofs.Decision.Overlay
import DecisionModel.Proofs.Duration.Overfull
import DecisionModel.Proofs.Duration.Scaling
import DecisionModel.Proofs.Evaluation.CallLimit
import DecisionModel.Proofs.Evaluation.Negation
import DecisionModel.Proofs.Library.AbsentArgument
import DecisionModel.Proofs.Library.Connective
import DecisionModel.Proofs.Library.Deviation
import DecisionModel.Proofs.Library.Distinct
import DecisionModel.Proofs.Library.Extremes
import DecisionModel.Proofs.Library.Flatten
import DecisionModel.Proofs.Library.Mode
import DecisionModel.Proofs.Library.Position
import DecisionModel.Proofs.Library.Sublist
import DecisionModel.Proofs.Library.Sum
import DecisionModel.Proofs.Library.TimeOfDay
import DecisionModel.Proofs.Library.WholeMonths
import DecisionModel.Proofs.Table.DottedPath
import DecisionModel.Proofs.Table.InputVariable
import DecisionModel.Proofs.Table.RuleOrder
import DecisionModel.Proofs.Table.Window
import DecisionModel.Proofs.Value.Equality
import DecisionModel.Proofs.Value.Json
import DecisionModel.Proofs.Value.MonthArithmetic
import DecisionModel.Proofs.Value.Order
