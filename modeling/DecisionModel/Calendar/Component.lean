/-!
# Components of dates and times

The parts that dates, times and offsets are made of, as far as a fault names one, and the faults
that come from putting them together or from reading them.
-/

namespace DecisionModel

namespace Calendar

inductive Component where
  | year
  | month
  | day
  | hour
  | minute
  | second
  | subsecond
  | offsetHour
  | offsetMinute
  /-- The offset as a whole, in seconds. -/
  | offset
  deriving DecidableEq, Repr

def Component.name : Component → String
  | .year => "year"
  | .month => "month"
  | .day => "day"
  | .hour => "hour"
  | .minute => "minute"
  | .second => "second"
  | .subsecond => "subsecond"
  | .offsetHour => "offset hour"
  | .offsetMinute => "offset minute"
  | .offset => "seconds"

/-- Why components or a text do not make a date, a time or an offset. -/
inductive Fault where
  /-- The component has a value that the calendar or the clock does not have there. -/
  | outOfRange (component : Component)
  /-- The text has no value for the component in its place. -/
  | unread (component : Component)
  /-- Another character stands where a separator has to. -/
  | separator
  /-- The text goes on after its end. -/
  | trailing
  deriving DecidableEq, Repr

def Fault.message : Fault → String
  | .outOfRange c => s!"{c.name} was not in range"
  | .unread c => s!"the '{c.name}' component could not be parsed"
  | .separator => "a character literal was not valid"
  | .trailing => "unexpected trailing characters; the end of input was expected"

end Calendar

end DecisionModel
