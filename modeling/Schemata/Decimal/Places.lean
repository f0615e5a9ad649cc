/-
Numbers with a given number of digits.

`Binary.fixedText` gives so many places after the point, `Binary.scientificText` so many after
the first digit, and `Binary.generalText` so many digits in all, in whichever of the two forms
suits the size of the number. The value is rounded once, exactly, to the nearest number with
these digits, and a tie goes to the even one.
-/
import Schemata.Decimal.Notation

namespace Schemata.Decimal

/-- Digits padded with zeros on the left. -/
def paddedDigits (width n : Nat) : List Char :=
  let ds := digitChars n
  List.replicate (width - ds.length) '0' ++ ds

/-- A point and the places after it. A point without places is left out, unless it is to be
kept. -/
def fractionText (keepPoint : Bool) (places : List Char) : List Char :=
  if places.isEmpty && !keepPoint then [] else '.' :: places

namespace Binary

/-- A magnitude as a multiple of a power of ten, rounded. -/
def roundedTo (x : Binary) (e : Int) : Nat :=
  let (num, den) := x.over e
  roundDiv num den

/-- A magnitude without what follows the point. -/
def whole (x : Binary) : Nat :=
  let (num, den) := x.over 0
  num / den

/-- A magnitude with so many places after the point. -/
def fixedText (x : Binary) (keepPoint : Bool) (places : Nat) : List Char :=
  let ds := paddedDigits (places + 1) (x.roundedTo (-(places : Int)))
  let n := ds.length - places
  ds.take n ++ fractionText keepPoint (ds.drop n)

/-- So many digits of a magnitude, and the exponent of the first one. -/
def leading (x : Binary) (count : Nat) : List Char × Int :=
  if x.m == 0 then (List.replicate count '0', 0)
  else
    let k := x.places
    let n := x.roundedTo (k - count)
    if n == tenTo count then ('1' :: List.replicate (count - 1) '0', k)
    else (digitChars n, k - 1)

/-- Digits with a point after the first one, and an exponent of two digits at least. -/
def scientificForm (keepPoint : Bool) (digits : List Char) (e : Int) : List Char :=
  digits.take 1 ++ fractionText keepPoint (digits.drop 1) ++
    'e' :: (if e < 0 then '-' else '+') :: paddedDigits 2 e.natAbs

/-- A magnitude with so many places after the first digit. -/
def scientificText (x : Binary) (keepPoint : Bool) (places : Nat) : List Char :=
  let (ds, e) := x.leading (places + 1)
  scientificForm keepPoint ds e

/-- Digits without the zeros at their end. -/
def withoutZeros (ds : List Char) : List Char :=
  (ds.reverse.dropWhile (· == '0')).reverse

/-- A magnitude with so many digits: with an exponent if that is less than minus four or as
large as the number of digits. Zeros at the end are left out, unless they are to be kept. -/
def generalText (x : Binary) (keepZeros : Bool) (count : Nat) : List Char :=
  let count := max count 1
  let (ds, e) := x.leading count
  let trim (places : List Char) := if keepZeros then places else withoutZeros places
  if e < -4 || (count : Int) ≤ e then
    scientificForm keepZeros (ds.take 1 ++ trim (ds.drop 1)) e
  else if e < 0 then
    '0' :: fractionText keepZeros (trim (List.replicate (-e - 1).toNat '0' ++ ds))
  else
    let n := e.toNat + 1
    ds.take n ++ fractionText keepZeros (trim (ds.drop n))

end Binary

end Schemata.Decimal
