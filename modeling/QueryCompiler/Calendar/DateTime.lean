/-!
# Dates with a time of day

A date of the Gregorian calendar, reckoned backwards without limit before its introduction, with a
time of day down to nanoseconds and no time zone. A second may be numbered 60, the leap second.
-/

namespace QueryCompiler

/-- Every fourth year is a leap year, except the centuries that four does not divide. -/
def isLeapYear (year : Int) : Bool :=
  year % 4 == 0 && (year % 100 != 0 || year % 400 == 0)

/-- The number of days in a month, none if there is no such month. -/
def daysInMonth (year : Int) (month : Nat) : Nat :=
  if month = 2 then (if isLeapYear year then 29 else 28)
  else if month = 4 ∨ month = 6 ∨ month = 9 ∨ month = 11 then 30
  else if 1 ≤ month ∧ month ≤ 12 then 31
  else 0

/-- The years that are kept. -/
def earliestYear : Int := -262143

/-- The last of the years that are kept. -/
def latestYear : Int := 262142

/-- A date with a time of day. -/
structure DateTime where
  year : Int
  month : Nat
  day : Nat
  hour : Nat
  minute : Nat
  second : Nat
  nanosecond : Nat
  year_mem : earliestYear ≤ year ∧ year ≤ latestYear
  day_mem : 1 ≤ day ∧ day ≤ daysInMonth year month
  time_mem : hour < 24 ∧ minute < 60 ∧ second ≤ 60 ∧ nanosecond < 1000000000
deriving DecidableEq

namespace DateTime

/-- The date and time with the given parts, if there is one. -/
def of? (year : Int) (month day hour minute second nanosecond : Nat) : Option DateTime :=
  if h : (earliestYear ≤ year ∧ year ≤ latestYear) ∧ (1 ≤ day ∧ day ≤ daysInMonth year month) ∧
      (hour < 24 ∧ minute < 60 ∧ second ≤ 60 ∧ nanosecond < 1000000000) then
    some ⟨year, month, day, hour, minute, second, nanosecond, h.1, h.2.1, h.2.2⟩
  else none

/-- The time cut off to whole milliseconds. -/
def truncated (t : DateTime) : DateTime where
  year := t.year
  month := t.month
  day := t.day
  hour := t.hour
  minute := t.minute
  second := t.second
  nanosecond := t.nanosecond / 1000000 * 1000000
  year_mem := t.year_mem
  day_mem := t.day_mem
  time_mem := ⟨t.time_mem.1, t.time_mem.2.1, t.time_mem.2.2.1,
    Nat.lt_of_le_of_lt (Nat.div_mul_le_self _ _) t.time_mem.2.2.2⟩

theorem of?_parts (t : DateTime) :
    of? t.year t.month t.day t.hour t.minute t.second t.nanosecond = some t := by
  have h := And.intro t.year_mem (And.intro t.day_mem t.time_mem)
  simp only [of?, h]
  rfl

end DateTime

end QueryCompiler
