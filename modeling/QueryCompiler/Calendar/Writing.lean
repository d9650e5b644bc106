import QueryCompiler.Calendar.DateTime
import QueryCompiler.Text.Digits

/-!
# The text of a date and time

Documents have `%Y-%m-%dT%H:%M:%S%.3f` and statements the same with a blank in place of the `T`. The
directives are written as they are documented: each number is padded with zeros, a year of more than
four digits or before the year 0 has a sign, and `%.3f` is a point and the milliseconds, cut off and
not rounded. Error messages have the same date and time with as many groups of three digits behind
the point as the fraction needs, none for a whole second.
-/

namespace QueryCompiler.DateTime

/-- Four digits, or a sign and at least four where four are not enough. -/
def yearText (year : Int) : String :=
  if 0 ≤ year ∧ year ≤ 9999 then Text.padded 4 year.toNat
  else (if year < 0 then "-" else "+") ++ Text.padded 4 year.natAbs

/-- Year, month and day. -/
def dateText (t : DateTime) : String :=
  yearText t.year ++ "-" ++ Text.padded 2 t.month ++ "-" ++ Text.padded 2 t.day

/-- Hour, minute and second. -/
def timeText (t : DateTime) : String :=
  Text.padded 2 t.hour ++ ":" ++ Text.padded 2 t.minute ++ ":" ++ Text.padded 2 t.second

/-- The milliseconds behind a point. -/
def millisecondText (t : DateTime) : String :=
  "." ++ Text.padded 3 (t.nanosecond / 1000000)

/-- The fraction of a second, in groups of three digits and nothing if there is none. -/
def fractionText (t : DateTime) : String :=
  if t.nanosecond = 0 then ""
  else if t.nanosecond % 1000000 = 0 then "." ++ Text.padded 3 (t.nanosecond / 1000000)
  else if t.nanosecond % 1000 = 0 then "." ++ Text.padded 6 (t.nanosecond / 1000)
  else "." ++ Text.padded 9 t.nanosecond

/-- The text in a document: a `T` between date and time. -/
def documentText (t : DateTime) : String :=
  t.dateText ++ "T" ++ t.timeText ++ t.millisecondText

/-- The text in a statement: a blank between date and time. -/
def statementText (t : DateTime) : String :=
  t.dateText ++ " " ++ t.timeText ++ t.millisecondText

/-- The text in an error message. -/
def exactText (t : DateTime) : String :=
  t.dateText ++ "T" ++ t.timeText ++ t.fractionText

end QueryCompiler.DateTime
