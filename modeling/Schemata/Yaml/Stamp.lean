/-
Days and moments, as scalars write them.

A stamp holds the digits of a day, of the time of day if there is one, and of the offset
behind it. It says how a day or a moment is written; `Stamp.toValue` asks whether there is
such a day.
-/
import Schemata.Fault
import Schemata.Text.Literal
import Schemata.Value.Basic

namespace Schemata.Yaml

/-- The parts of a day or a moment, as they are written. -/
structure Stamp where
  year : List Char
  month : List Char
  day : List Char
  /-- Hour, minute, second and the digits of its fraction. -/
  time : Option (List Char × List Char × List Char × List Char) := none
  /-- The offset: nothing, universal time, or a sign with hours and minutes. -/
  offset : Option (Option (Char × List Char × List Char)) := none

namespace Stamp

open Schemata.Text (isDigit natOfDigits)

/-- Digits, from `least` to `most` of them, and what follows. -/
def digits (least most : Nat) (cs : List Char) : Option (List Char × List Char) :=
  let ds := (cs.take most).takeWhile isDigit
  if least ≤ ds.length then some (ds, cs.drop ds.length) else none

/-- What follows a character. -/
def after (c : Char) : List Char → Option (List Char)
  | d :: cs => if c == d then some cs else none
  | [] => none

/-- The offset at the end of a moment. -/
def offset? (cs : List Char) : Option (Option (Option (Char × List Char × List Char))) :=
  if cs.isEmpty then some none
  else
    match cs.dropWhile fun c => c == ' ' || c == '\t' with
    | ['Z'] => some (some none)
    | s :: rest => do
      if s == '+' || s == '-' then
        let (hours, rest) ← digits 1 2 rest
        match rest with
        | [] => some (some (some (s, hours, [])))
        | ':' :: rest => do
          let (minutes, rest) ← digits 2 2 rest
          if rest.isEmpty then some (some (some (s, hours, minutes))) else none
        | _ => none
      else none
    | [] => none

/-- The time of day, and the offset behind it. -/
def time? (d : Stamp) (cs : List Char) : Option Stamp := do
  let (hour, cs) ← digits 1 2 cs
  let cs ← after ':' cs
  let (minute, cs) ← digits 2 2 cs
  let cs ← after ':' cs
  let (second, cs) ← digits 2 2 cs
  let (fraction, cs) :=
    match cs with
    | '.' :: rest => (rest.takeWhile isDigit, rest.dropWhile isDigit)
    | _ => ([], cs)
  let offset ← offset? cs
  some { d with time := some (hour, minute, second, fraction), offset }

/-- The parts of a text that has the form of a day or a moment. -/
def ofChars? (cs : List Char) : Option Stamp := do
  let (year, cs) ← digits 4 4 cs
  let cs ← after '-' cs
  let (month, cs) ← digits 1 2 cs
  let cs ← after '-' cs
  let (day, cs) ← digits 1 2 cs
  let d : Stamp := { year, month, day }
  match cs with
  | [] => some d
  | 'T' :: cs => d.time? cs
  | 't' :: cs => d.time? cs
  | c :: cs =>
    if c == ' ' || c == '\t' then d.time? (cs.dropWhile fun c => c == ' ' || c == '\t')
    else none

/-- The parts of a text that is a day or a moment, one line break at its end aside. -/
def ofText? (s : String) : Option Stamp :=
  ofChars? (Text.withoutFinalBreak s.toList)

/-- A text without a tag is a day only if month and day have two digits each; with a time of
day one digit will do. -/
def isPlain (cs : List Char) : Bool :=
  match ofChars? cs with
  | none => false
  | some s => s.time.isSome || (s.month.length == 2 && s.day.length == 2)

/-- Millionths of a second, from the digits behind the point. -/
def micros (ds : List Char) : Nat :=
  let six := ds.take 6
  natOfDigits (six ++ List.replicate (6 - six.length) '0')

/-- The offset in minutes. -/
def minutes : Option (Char × List Char × List Char) → Int
  | none => 0
  | some (s, h, m) =>
    let n : Int := natOfDigits h * 60 + natOfDigits m
    if s == '-' then -n else n

/-- The day or the moment itself, if it exists. -/
def toValue (s : Stamp) : Except Fault Value :=
  let date : Date := ⟨natOfDigits s.year, natOfDigits s.month, natOfDigits s.day⟩
  match s.time with
  | none => if date.isValid then .ok (.date date) else .error .badValue
  | some (hour, minute, second, fraction) =>
    let m : Moment := {
      date, hour := natOfDigits hour, minute := natOfDigits minute,
      second := natOfDigits second
      micro := micros fraction, offset := s.offset.map minutes }
    if m.isValid then .ok (.moment m) else .error .badValue

end Stamp

end Schemata.Yaml
