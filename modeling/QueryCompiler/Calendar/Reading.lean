import QueryCompiler.Calendar.DateTime
import QueryCompiler.Decimal.Power
import QueryCompiler.Text.Digits
import QueryCompiler.Text.Blank

/-!
# Reading a date and time

Three notations are read: `%Y-%m-%dT%H:%M:%S%.f`, the same with a blank in place of the `T`, and
the first with a final `Z`. The directives are read as they are documented. `%Y` is a year of the
proleptic Gregorian calendar, of at most four digits, or of any number of them behind a sign. The
other numbers have at most two digits, and the second 60 is a leap second. Blanks may stand before
each number, and a blank of the notation is any run of blanks, or none. `%.f` is nothing, or a point
with digits, of which nine count.
-/

namespace QueryCompiler.DateTime

/-- The numbers of a notation. -/
inductive Part
  | year
  | month
  | day
  | hour
  | minute
  | second
deriving DecidableEq

/-- An element of a notation. -/
inductive Element
  | number (part : Part)
  | exactly (c : Char)
  | blanks
  | fraction

/-- The numbers that were read so far. -/
structure Reading where
  year : Int := 0
  month : Nat := 0
  day : Nat := 0
  hour : Nat := 0
  minute : Nat := 0
  second : Nat := 0
  nanosecond : Nat := 0

/-- A year, a month and a day. -/
def dateElements : List Element :=
  [.number .year, .exactly '-', .number .month, .exactly '-', .number .day]

/-- An hour, a minute and a second with an optional fraction. -/
def timeElements : List Element :=
  [.number .hour, .exactly ':', .number .minute, .exactly ':', .number .second, .fraction]

/-- The notations, in the order in which they are tried. -/
def notations : List (List Element) :=
  [dateElements ++ .exactly 'T' :: timeElements,
   dateElements ++ .blanks :: timeElements,
   dateElements ++ .exactly 'T' :: timeElements ++ [.exactly 'Z']]

/-- Takes a number of at least one digit, and of at most `width` digits if that is given. -/
def takeNumber (width : Option Nat) (cs : List Char) : Option (Nat × List Char) :=
  let run := (Text.spanDigits cs).1
  let digits := match width with
    | some width => run.take width
    | none => run
  if digits = [] then none else some (Text.digitsValue digits, cs.drop digits.length)

/-- Takes a year: four digits, or any number of them behind a sign. -/
def takeYear : List Char → Option (Int × List Char)
  | '-' :: cs => (takeNumber none cs).map fun (n, rest) => (-(n : Int), rest)
  | '+' :: cs => (takeNumber none cs).map fun (n, rest) => ((n : Int), rest)
  | cs => (takeNumber (some 4) cs).map fun (n, rest) => ((n : Int), rest)

/-- Takes the fraction of a second: nothing, or a point and digits, of which nine count. -/
def takeFraction : List Char → Option (Nat × List Char)
  | '.' :: cs =>
    let (digits, rest) := Text.spanDigits cs
    let kept := digits.take 9
    if digits = [] then none
    else some (Text.digitsValue kept * tenTo (9 - kept.length), rest)
  | cs => some (0, cs)

/-- Reads one element off the front of a text. -/
def readElement (r : Reading) (cs : List Char) : Element → Option (Reading × List Char)
  | .number .year => (takeYear (Text.skipBlanks cs)).map fun (n, cs) => ({ r with year := n }, cs)
  | .number .month => (two cs).map fun (n, cs) => ({ r with month := n }, cs)
  | .number .day => (two cs).map fun (n, cs) => ({ r with day := n }, cs)
  | .number .hour => (two cs).map fun (n, cs) => ({ r with hour := n }, cs)
  | .number .minute => (two cs).map fun (n, cs) => ({ r with minute := n }, cs)
  | .number .second => (two cs).map fun (n, cs) => ({ r with second := n }, cs)
  | .exactly c => match cs with
    | d :: rest => if d = c then some (r, rest) else none
    | [] => none
  | .blanks => some (r, Text.skipBlanks cs)
  | .fraction => (takeFraction cs).map fun (n, cs) => ({ r with nanosecond := n }, cs)
where
  /-- A number of one or two digits behind blanks. -/
  two (cs : List Char) : Option (Nat × List Char) :=
    takeNumber (some 2) (Text.skipBlanks cs)

/-- Reads a whole text in one notation. -/
def readNotation (elements : List Element) (cs : List Char) : Option DateTime := do
  let (r, rest) ← elements.foldlM (fun (r, cs) element => readElement r cs element) (({} : Reading), cs)
  if rest = [] then of? r.year r.month r.day r.hour r.minute r.second r.nanosecond else none

/-- The date and time that a text writes. -/
def ofText? (text : String) : Option DateTime :=
  notations.findSome? fun elements => readNotation elements text.toList

end QueryCompiler.DateTime
