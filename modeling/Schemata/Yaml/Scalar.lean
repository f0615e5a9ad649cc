/-
What the text of a scalar stands for, once its kind is known.

The kind may come from the form of the text or from a tag. A tag does not look at the text, so
reading may fail; and where a form looks past a line break at the end, a word is no word with
the break.
-/
import Schemata.Text.Base64
import Schemata.Text.Number
import Schemata.Yaml.Kind

namespace Schemata.Yaml.Scalar

open Schemata.Text (split)
open Schemata.Text.Number (intIn? float?)

/-- A text without gaps between its digits. -/
def withoutGaps (s : String) : List Char :=
  s.toList.filter (· != '_')

/-- A text of digits that cannot be read is a bad value. -/
def readable {α : Type} : Option α → Except Fault α
  | some a => .ok a
  | none => .error .badValue

/-- The number that the text behind its sign denotes. Beside the marks of the bases a zero in
front marks base eight, and colons separate parts in sixties. -/
def unsignedInt : List Char → Except Fault Int
  | [] => .error .badIndex
  | ['0'] => .ok 0
  | '0' :: 'b' :: ds => readable (intIn? 2 ds)
  | '0' :: 'x' :: ds => readable (intIn? 16 ds)
  | '0' :: ds => readable (intIn? 8 ('0' :: ds))
  | ds => do
    let parts ← (split ':' ds).mapM fun part => readable (intIn? 10 part)
    .ok (parts.foldl (fun n d => n * 60 + d) 0)

/-- Reads a whole number. -/
def intOf (s : String) : Except Fault Int := do
  let cs := withoutGaps s
  let n ← unsignedInt (unsigned cs)
  .ok (if isNegative cs then -n else n)

/-- The double nearest to a weight; it must not be too large for one. -/
def weight (n : Nat) : Except Fault Float :=
  let x := Decimal.floatOf false n 0
  if x.isInf then .error .outOfRange else .ok x

/-- The number that parts in sixties denote, the last part first, added one after the
other. -/
def sixties : List Float → Nat → Float → Except Fault Float
  | [], _, sum => .ok sum
  | x :: xs, n, sum => do
    let w ← weight n
    sixties xs (n * 60) (sum + x * w)

/-- The number that the text behind its sign denotes, in small letters. -/
def unsignedFloat (body : List Char) : Except Fault Float :=
  match String.ofList body with
  | ".inf" => .ok (1.0 / 0.0)
  | ".nan" => .ok (0.0 / 0.0)
  | _ =>
    match split ':' body with
    | [_] => readable (float? body)
    | parts => do
      let xs ← parts.mapM fun part => readable (float? part)
      sixties xs.reverse 1 0

/-- The text of a decimal number behind its sign, in small letters. -/
def floatBody (s : String) : List Char :=
  unsigned ((withoutGaps s).map Char.toLower)

/-- Reads a decimal number. -/
def floatOf (s : String) : Except Fault Float :=
  let cs := withoutGaps s
  if cs.isEmpty then .error .badIndex
  else do
    let x ← unsignedFloat (floatBody s)
    .ok (if isNegative cs then -x else x)

/-- The word for no number. Wherever it is written it is one and the same value, while every
other way to say so makes a value of its own. -/
def isCommonNaN (s : String) : Bool :=
  floatBody s == ".nan".toList

end Schemata.Yaml.Scalar
