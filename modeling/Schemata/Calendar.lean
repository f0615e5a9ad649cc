/-
Calendar dates and times of day, as a data file may hold them.

Only their written forms matter here: the ISO form with a `T`, the same form with a blank, the
form of a stored schema in which an offset of zero is a `Z`, and the constructor form in which
a value is shown inside generated text.
-/

namespace Schemata

/-- A day of the Gregorian calendar. -/
structure Date where
  year : Nat
  month : Nat
  day : Nat
deriving DecidableEq, Repr, Inhabited

/-- A moment: a day, a time of day, and the offset from universal time in minutes, if
known. -/
structure Moment where
  date : Date
  hour : Nat
  minute : Nat
  second : Nat
  micro : Nat
  offset : Option Int
deriving DecidableEq, Repr, Inhabited

namespace Calendar

/-- A number with at least `width` digits. -/
def padded (width n : Nat) : String :=
  let ds := Nat.toDigits 10 n
  String.ofList (List.replicate (width - ds.length) '0' ++ ds)

/-- Years with a twenty-ninth of February. -/
def isLeap (year : Nat) : Bool :=
  year % 4 == 0 && (year % 100 != 0 || year % 400 == 0)

/-- The number of days of a month. -/
def daysIn (year month : Nat) : Nat :=
  if month == 2 then (if isLeap year then 29 else 28)
  else if month == 4 || month == 6 || month == 9 || month == 11 then 30
  else 31

end Calendar

open Calendar

/-- A day that exists, of a year from 1 to 9999. -/
def Date.isValid (d : Date) : Bool :=
  1 ≤ d.year && d.year ≤ 9999 && 1 ≤ d.month && d.month ≤ 12 && 1 ≤ d.day &&
    d.day ≤ daysIn d.year d.month

/-- The ISO form of a day. -/
def Date.iso (d : Date) : String :=
  padded 4 d.year ++ "-" ++ padded 2 d.month ++ "-" ++ padded 2 d.day

/-- The constructor form of a day. -/
def Date.shown (d : Date) : String :=
  "datetime.date(" ++ toString d.year ++ ", " ++ toString d.month ++ ", " ++
    toString d.day ++ ")"

namespace Moment

/-- A moment of a day that exists, with an offset of less than a day. -/
def isValid (m : Moment) : Bool :=
  m.date.isValid && m.hour < 24 && m.minute < 60 && m.second < 60 && m.micro < 1000000 &&
    (m.offset.getD 0).natAbs < 1440

/-- An offset with its sign, in hours and minutes. -/
def offsetText (o : Int) : String :=
  (if o < 0 then "-" else "+") ++ padded 2 (o.natAbs / 60) ++ ":" ++ padded 2 (o.natAbs % 60)

/-- Day and time of day, with `sep` between them, without the offset. -/
def wallClock (sep : String) (m : Moment) : String :=
  m.date.iso ++ sep ++ padded 2 m.hour ++ ":" ++ padded 2 m.minute ++ ":" ++
    padded 2 m.second ++
    (if m.micro == 0 then "" else "." ++ padded 6 m.micro)

/-- The ISO form of a moment, with `sep` between day and time. -/
def isoWith (sep : String) (m : Moment) : String :=
  m.wallClock sep ++ (m.offset.map offsetText).getD ""

/-- The ISO form of a moment. -/
def iso (m : Moment) : String :=
  m.isoWith "T"

/-- The form of a moment in a stored schema: universal time is marked by a `Z`. -/
def stored (m : Moment) : String :=
  m.wallClock "T" ++
    (match m.offset with
     | none => ""
     | some o => if o == 0 then "Z" else offsetText o)

/-- The constructor form of an offset. -/
def shownOffset (o : Int) : String :=
  if o == 0 then "datetime.timezone.utc"
  else if 0 < o then
    "datetime.timezone(datetime.timedelta(seconds=" ++ toString (o.natAbs * 60) ++ "))"
  else
    "datetime.timezone(datetime.timedelta(days=-1, seconds=" ++
      toString (86400 - o.natAbs * 60) ++ "))"

/-- The constructor form of a moment; trailing zero seconds are left out. -/
def shown (m : Moment) : String :=
  let tail :=
    if m.micro != 0 then [m.second, m.micro] else if m.second != 0 then [m.second] else []
  "datetime.datetime(" ++
    ", ".intercalate
      (([m.date.year, m.date.month, m.date.day, m.hour, m.minute] ++ tail).map toString ++
        (match m.offset with
         | none => []
         | some o => ["tzinfo=" ++ shownOffset o])) ++ ")"

/-- Seconds since the start of the calendar, in universal time if the offset is known. -/
def microsTotal (m : Moment) : Int :=
  let y : Int := m.date.year
  let before :=
    (List.range (m.date.month - 1)).foldl (fun n k => n + daysIn m.date.year (k + 1)) 0
  let days : Int :=
    y * 365 + (y - 1) / 4 - (y - 1) / 100 + (y - 1) / 400 + before + m.date.day
  ((days * 86400 + m.hour * 3600 + m.minute * 60 +
    m.second - (m.offset.getD 0) * 60) * 1000000) +
    m.micro

/-- Two moments are the same point in time; one with an offset never equals one without. -/
def same (a b : Moment) : Bool :=
  a.offset.isSome == b.offset.isSome && a.microsTotal == b.microsTotal

end Moment

end Schemata
