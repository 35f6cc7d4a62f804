import DecisionModel.Error

/-!
# Reading dates, times and durations

The readers of calendar texts and durations with their faults put as errors, which name what was to
be read and show the text.
-/

namespace DecisionModel

def Date.read (text : String) : Result Date :=
  match Date.readChars text.toList with
  | .ok date => .ok date
  | .error fault => .error (.invalidArgument "date" (.calendarText text fault))

def Time.read (text : String) : Result Time :=
  match Time.readChars text.toList with
  | .ok time => .ok time
  | .error fault => .error (.invalidArgument "time" (.calendarText text fault))

/-- A text without a time of day is read as a date, and its fault is that of a date, which shows the
text without the blanks around it. -/
def DateTime.read (text : String) : Result DateTime :=
  match DateTime.readChars text.toList with
  | .ok dateTime => .ok dateTime
  | .error (.date fault) =>
    let trimmed := String.ofList (Text.trim text.toList)
    .error (.invalidArgument "date" (.calendarText trimmed fault))
  | .error .datePart => .error (.invalidArgument "date and time" (.datePart text))
  | .error .timePart => .error (.invalidArgument "date and time" (.timePart text))

/-- Where the nanoseconds leave the word in which they are added up, the text is neither read nor
refused. -/
def Duration.read (text : String) : Result Duration :=
  match Duration.readChars text.toList with
  | .ok duration => .ok duration
  | .error .sumTooLarge => .error (.brokenOff .addedNanoseconds)
  | .error fault => .error (.invalidArgument "duration" (.durationText text fault))

end DecisionModel
