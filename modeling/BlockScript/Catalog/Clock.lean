import BlockScript.Catalog.Argument

/-!
Readings of the local date and time.
-/

namespace BlockScript.Catalog

inductive Reading where
  | date
  | time
  | year
  | month
  | monthName
  | day
  | dayName
  | hour
  | minutes
  | seconds
deriving DecidableEq, Repr

namespace Reading

def padded (width n : Nat) : String :=
  let digits := toString n
  String.ofList (List.replicate (width - digits.length) '0') ++ digits

def monthNames : List String :=
  ["January", "February", "March", "April", "May", "June", "July", "August", "September",
   "October", "November", "December"]

def dayNames : List String :=
  ["Monday", "Tuesday", "Wednesday", "Thursday", "Friday", "Saturday", "Sunday"]

def ofMoment (m : Moment) : Reading → Value
  | date => .text (padded 4 m.year ++ "-" ++ padded 2 m.month ++ "-" ++ padded 2 m.day)
  | time => .text (padded 2 m.hour ++ ":" ++ padded 2 m.minute ++ ":" ++ padded 2 m.second ++
      "." ++ padded 3 m.millisecond)
  | year => .integer (Int64.ofNat m.year)
  | month => .integer (Int64.ofNat m.month)
  | monthName => .text (monthNames.getD (m.month - 1) "")
  | day => .integer (Int64.ofNat m.day)
  | dayName => .text (dayNames.getD m.weekday "")
  | hour => .integer (Int64.ofNat m.hour)
  | minutes => .integer (Int64.ofNat m.minute)
  | seconds => .integer (Int64.ofNat m.second)

def label : Reading → String
  | date => "date"
  | time => "time"
  | year => "year"
  | month => "month"
  | monthName => "current month"
  | day => "day"
  | dayName => "current day"
  | hour => "hour"
  | minutes => "minutes"
  | seconds => "seconds"

def kind (reading : Reading) : Kind where
  role := .block (.expression fun _ => do return reading.ofMoment (← HostTask.now))
  slots := []
  labels := [reading.label]

end Reading

end BlockScript.Catalog
