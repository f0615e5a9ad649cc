/-
How a selected decimal is laid out as text.

The decisions of a format are the fields of one record: which magnitudes are written
positionally, how wide an exponent is, and what stands for the values that have no digits.
`Notation.write` is one function of the record and the number.
-/
import Schemata.Decimal.Shortest

namespace Schemata.Decimal

/-- The layout decisions of a number format. -/
structure Layout where
  /-- The least exponent of the leading digit that is written positionally. -/
  plainFrom : Int
  /-- The first exponent of the leading digit that is written with an exponent again. -/
  plainBelow : Int
  /-- The least number of digits of an exponent. -/
  exponentWidth : Nat
  /-- What stands for the value that is not a number. -/
  nan : String
  /-- What stands for the positive infinity. -/
  infinity : String

/-- The decimal digits of a natural number. -/
def digitChars (n : Nat) : List Char :=
  Nat.toDigits 10 n

/-- Digits with at least one place after the point, `point` places before it. -/
def positional (digits : List Char) (point : Int) : List Char :=
  if point ≤ 0 then '0' :: '.' :: (List.replicate (-point).toNat '0' ++ digits)
  else
    let p := point.toNat
    let whole := digits.take p ++ List.replicate (p - digits.length) '0'
    let fraction := digits.drop p
    whole ++ '.' :: (if fraction.isEmpty then ['0'] else fraction)

/-- Digits with a point after the first one, if there are more, and a signed exponent. -/
def scientific (width : Nat) (digits : List Char) (e : Int) : List Char :=
  let mantissa := match digits with
    | d :: (rest@(_ :: _)) => d :: '.' :: rest
    | ds => ds
  let expDigits := digitChars e.natAbs
  mantissa ++ 'e' :: (if e < 0 then '-' else '+') ::
    (List.replicate (width - expDigits.length) '0' ++ expDigits)

/-- The text of a finite magnitude. -/
def Layout.magnitude (l : Layout) (bits : Nat) : List Char :=
  let d := shortest bits
  let digits := digitChars d.digits
  let lead : Int := digits.length + d.exp - 1
  if d.digits == 0 then ['0', '.', '0']
  else if l.plainFrom ≤ lead && lead < l.plainBelow then positional digits (lead + 1)
  else scientific l.exponentWidth digits lead

/-- The text of a number. -/
def Layout.write (l : Layout) (x : Float) : String :=
  let bits := magnitudeBits x
  if specialBits < bits then l.nan
  else
    let body := if bits == specialBits then l.infinity.toList else l.magnitude bits
    String.ofList (if isNegative x then '-' :: body else body)

/-- Numbers are positional between one ten-thousandth and ten to the sixteenth, with a point
always; exponents are signed and have two digits at least. -/
def plainLayout : Layout where
  plainFrom := -4
  plainBelow := 16
  exponentWidth := 2
  nan := "nan"
  infinity := "inf"

/-- The same layout with the names that data files use for the special values. -/
def dataLayout : Layout :=
  { plainLayout with nan := "NaN", infinity := "Infinity" }

end Schemata.Decimal
