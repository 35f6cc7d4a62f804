import DecisionModel.Library.Aggregate
import DecisionModel.Library.Calendar
import DecisionModel.Library.Logic
import DecisionModel.Library.Number
import DecisionModel.Library.Sequence
import DecisionModel.Library.Text

/-!
# The library

What each built-in function makes of its arguments.
-/

namespace DecisionModel.Builtin

def call : Builtin → List Value → Result Value
  | .abs => Library.abs
  | .all => Library.conjunction
  | .and => Library.conjunction
  | .any => Library.disjunction
  | .append => Library.append
  | .ceil => Library.ceiling
  | .ceiling => Library.ceiling
  | .concatenate => Library.concatenate
  | .contains => Library.contains
  | .count => Library.count
  | .date => Library.date
  | .dateAndTime => Library.dateAndTime
  | .decimal => Library.decimal
  | .defined => Library.defined
  | .distinctValues => Library.distinctValues
  | .duration => Library.duration
  | .endsWith => Library.endsWith
  | .flatten => Library.flatten
  | .floor => Library.floor
  | .indexOf => Library.indexOf
  | .insertBefore => Library.insertBefore
  | .listContains => Library.listContains
  | .lowerCase => Library.lowerCase
  | .max => Library.greatest
  | .mean => Library.mean
  | .median => Library.median
  | .min => Library.least
  | .mode => Library.mode
  | .not => Library.negation
  | .or => Library.disjunction
  | .product => Library.product
  | .remove => Library.remove
  | .reverse => Library.reverse
  | .round => Library.round
  | .startsWith => Library.startsWith
  | .stddev => Library.stddev
  | .stringLength => Library.stringLength
  | .sublist => Library.sublist
  | .substring => Library.substring
  | .sum => Library.sum
  | .time => Library.time
  | .union => Library.union
  | .upperCase => Library.upperCase
  | .yearsAndMonthsDuration => Library.yearsAndMonthsDuration

end DecisionModel.Builtin
