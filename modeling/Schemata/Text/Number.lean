/-
Numbers in texts that were written by hand.

Blanks around a number are ignored, a sign may stand in front, and a decimal digit may be that
of any script. A whole number may repeat the mark of its base. A decimal number may have a
point, an exponent and no sign in it, or be one of the words for infinity and for no number.
-/
import Schemata.Text.Blank
import Schemata.Text.Digit
import Schemata.Text.Literal

namespace Schemata.Text

/-- The value of a decimal digit of any script: every run of digits in the character database
counts from zero to nine, once or several times. -/
def digitValue? (c : Char) : Option Nat :=
  if isAnyDigit c then
    (digitSet.edges.takeWhile (· ≤ c.toNat)).getLast?.map fun first => (c.toNat - first) % 10
  else none

namespace Number

/-- A blank of the first plane. -/
def isSpace (c : Char) : Bool :=
  c == ' ' || ('\t' ≤ c && c ≤ '\r')

/-- A character outside the first plane, as the blank or the digit of the first plane that it
stands for. -/
def simplified (c : Char) : Char :=
  if c.toNat < 0x7F then c
  else if isBlank c then ' '
  else
    match digitValue? c with
    | some d => Char.ofNat ('0'.toNat + d)
    | none => c

/-- A number without the blanks around it. -/
def body (cs : List Char) : List Char :=
  trim isSpace (cs.map simplified)

/-- The sign in front of a number, and the rest: whether it is a minus sign. -/
def sign : List Char → Bool × List Char
  | '-' :: cs => (true, cs)
  | '+' :: cs => (false, cs)
  | cs => (false, cs)

/-- The value of a digit in any base up to sixteen. -/
def digit? (c : Char) : Option Nat :=
  if isDigit c then some (c.toNat - '0'.toNat)
  else if 'a' ≤ c && c ≤ 'f' then some (c.toNat - 'a'.toNat + 10)
  else if 'A' ≤ c && c ≤ 'F' then some (c.toNat - 'A'.toNat + 10)
  else none

/-- The letter that marks a base, in small form. -/
def mark? (base : Nat) : Option Char :=
  match base with
  | 2 => some 'b'
  | 8 => some 'o'
  | 16 => some 'x'
  | _ => none

/-- Digits without the mark of their base. -/
def withoutMark (base : Nat) : List Char → List Char
  | '0' :: c :: ds => if mark? base == some c.toLower then ds else '0' :: c :: ds
  | ds => ds

/-- The number that digits denote in a base; there is one digit at least. -/
def natIn? (base : Nat) (ds : List Char) : Option Nat :=
  if ds.isEmpty then none
  else
    ds.foldlM (fun n d => do
      let k ← digit? d
      if k < base then some (n * base + k) else none) 0

/-- Reads a whole number in a base. In base ten there may not be too many digits. -/
def intIn? (base : Nat) (cs : List Char) : Option Int := do
  let (negative, rest) := sign (body cs)
  let ds := withoutMark base rest
  if base == 10 && maxDigits < ds.length then none
  else
    let n ← natIn? base ds
    some (if negative then -(n : Int) else n)

/-- The whole number of an exponent, or zero where there is none. -/
def exponent? : List Char → Option Int
  | [] => some 0
  | e :: cs =>
    let (negative, ds) := sign cs
    if e == 'e' && !ds.isEmpty && ds.all isDigit then
      some (if negative then -(natOfDigits ds : Int) else natOfDigits ds)
    else none

/-- Reads digits with a point and an exponent, each of which may be missing. -/
def decimal? (cs : List Char) : Option Float := do
  let whole := cs.takeWhile isDigit
  let rest := cs.dropWhile isDigit
  let (fraction, rest) :=
    match rest with
    | '.' :: more => (more.takeWhile isDigit, more.dropWhile isDigit)
    | _ => ([], rest)
  let e ← exponent? rest
  if whole.isEmpty && fraction.isEmpty then none
  else
    some
      (Decimal.floatOf false (natOfDigits (whole ++ fraction)) (e - (fraction.length : Int)))

/-- Reads a decimal number without a sign, in small letters. -/
def magnitude? (cs : List Char) : Option Float :=
  match String.ofList cs with
  | "inf" => some (1.0 / 0.0)
  | "infinity" => some (1.0 / 0.0)
  | "nan" => some (0.0 / 0.0)
  | _ => decimal? cs

/-- Reads a decimal number. -/
def float? (cs : List Char) : Option Float :=
  let (negative, rest) := sign (body cs)
  (magnitude? (rest.map Char.toLower)).map fun x => if negative then -x else x

end Number

end Schemata.Text
