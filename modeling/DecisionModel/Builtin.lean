/-!
# Built-in functions

The functions that every scope offers under a fixed name. A name that stands for a function already
in the list (`and` for `all`, `or` for `any`, `ceil` for `ceiling`) is a function of its own: two
functions are equal only if they have the same name.
-/

namespace DecisionModel

inductive Builtin where
  | abs
  | all
  | and
  | any
  | append
  | ceil
  | ceiling
  | concatenate
  | contains
  | count
  | date
  | dateAndTime
  | decimal
  | defined
  | distinctValues
  | duration
  | endsWith
  | flatten
  | floor
  | indexOf
  | insertBefore
  | listContains
  | lowerCase
  | max
  | mean
  | median
  | min
  | mode
  | not
  | or
  | product
  | remove
  | reverse
  | round
  | startsWith
  | stddev
  | stringLength
  | sublist
  | substring
  | sum
  | time
  | union
  | upperCase
  | yearsAndMonthsDuration
  deriving DecidableEq, Repr

namespace Builtin

def name : Builtin → String
  | .abs => "abs"
  | .all => "all"
  | .and => "and"
  | .any => "any"
  | .append => "append"
  | .ceil => "ceil"
  | .ceiling => "ceiling"
  | .concatenate => "concatenate"
  | .contains => "contains"
  | .count => "count"
  | .date => "date"
  | .dateAndTime => "date and time"
  | .decimal => "decimal"
  | .defined => "defined"
  | .distinctValues => "distinct values"
  | .duration => "duration"
  | .endsWith => "ends with"
  | .flatten => "flatten"
  | .floor => "floor"
  | .indexOf => "index of"
  | .insertBefore => "insert before"
  | .listContains => "list contains"
  | .lowerCase => "lower case"
  | .max => "max"
  | .mean => "mean"
  | .median => "median"
  | .min => "min"
  | .mode => "mode"
  | .not => "not"
  | .or => "or"
  | .product => "product"
  | .remove => "remove"
  | .reverse => "reverse"
  | .round => "round"
  | .startsWith => "starts with"
  | .stddev => "stddev"
  | .stringLength => "string length"
  | .sublist => "sublist"
  | .substring => "substring"
  | .sum => "sum"
  | .time => "time"
  | .union => "union"
  | .upperCase => "upper case"
  | .yearsAndMonthsDuration => "years and months duration"

/-- Every built-in function, in the order of the names. -/
def catalogue : List Builtin :=
  [.abs, .all, .and, .any, .append, .ceil, .ceiling, .concatenate, .contains, .count, .date,
   .dateAndTime, .decimal, .defined, .distinctValues, .duration, .endsWith, .flatten,
   .floor, .indexOf, .insertBefore, .listContains, .lowerCase, .max, .mean, .median,
   .min, .mode, .not, .or, .product, .remove, .reverse, .round, .startsWith, .stddev,
   .stringLength, .sublist, .substring, .sum, .time, .union, .upperCase,
   .yearsAndMonthsDuration]

/-- The function of a name. -/
def ofName? (s : String) : Option Builtin := catalogue.find? (·.name == s)

end Builtin

end DecisionModel
