/-
Double-precision numbers as exact integers, and the reading of decimals.

A finite double is a sign and a magnitude `m · 2^q` with `m < 2^53` and `q ≥ -1074`. The bits
of the magnitude are `(q + 1074) · 2^52 + m` throughout: for a normal number the leading bit
of `m` carries into the exponent field, for a subnormal one `q` is `-1074` and only `m` is
left, and a quotient that rounds up to `2^53` carries once more. `nearest` uses this to round
a decimal to the nearest double, ties to the even one, with integer arithmetic alone, so that
statements about what is read need nothing but facts about natural numbers.
-/

namespace Schemata.Decimal

/-- A finite magnitude, `m · 2^q`. -/
structure Binary where
  m : Nat
  q : Int
deriving Repr, DecidableEq

/-- A power of two. -/
def twoTo (n : Nat) : Nat := Nat.pow 2 n

/-- A power of ten. -/
def tenTo (n : Nat) : Nat := Nat.pow 10 n

/-- The exponent field that infinities and the not-a-number carry. -/
def specialBits : Nat := 0x7FF * twoTo 52

/-- The magnitude that the lower 63 bits of a finite double denote. -/
def Binary.ofBits (bits : Nat) : Binary :=
  let e : Nat := bits / twoTo 52
  if e == 0 then ⟨bits, -1074⟩ else ⟨twoTo 52 + bits % twoTo 52, (e : Int) - 1075⟩

/-- A quotient rounded to the nearest natural number, ties to the even one. -/
def roundDiv (num den : Nat) : Nat :=
  let q := num / den
  let r := num % den
  if 2 * r < den then q
  else if den < 2 * r then q + 1
  else if q % 2 == 0 then q else q + 1

/-- `num / den < 2^l`, exactly. -/
def belowPow (num den : Nat) (l : Int) : Bool :=
  num * twoTo (-l).toNat < den * twoTo l.toNat

/-- The exponent at which a positive quotient is rounded: its leading bit comes to position
52, unless that lies below the least exponent there is. -/
def scaleOf (num den : Nat) : Int :=
  let l : Int := (num.log2 : Int) - den.log2
  let floorLog := if belowPow num den l then l - 1 else l
  max (floorLog - 52) (-1074)

/-- The bits of the double nearest to a quotient; too large a quotient gives infinity. -/
def roundQuotient (num den : Nat) : Nat :=
  if num == 0 then 0
  else
    let q := scaleOf num den
    let m := roundDiv (num * twoTo (-q).toNat) (den * twoTo q.toNat)
    min ((q + 1074).toNat * twoTo 52 + m) specialBits

/-- The bits of the double nearest to `n · 10^e`. Exponents far outside the range of doubles
are settled first, so that no power of ten larger than the range is ever formed. -/
def nearest (n : Nat) (e : Int) : Nat :=
  if n == 0 then 0
  else if 400 < e then specialBits
  else if e + (n.log2 / 3 + 1 : Nat) < -400 then 0
  else roundQuotient (n * tenTo e.toNat) (tenTo (-e).toNat)

/-- The double with a sign and the given magnitude bits. -/
def toFloat (negative : Bool) (bits : Nat) : Float :=
  Float.ofBits (UInt64.ofNat (if negative then bits + twoTo 63 else bits))

/-- The double nearest to `± n · 10^e`. -/
def floatOf (negative : Bool) (n : Nat) (e : Int) : Float :=
  toFloat negative (nearest n e)

/-- The sign of a double; the negative zero has one. -/
def isNegative (x : Float) : Bool :=
  twoTo 63 ≤ x.toBits.toNat

/-- The bits of a double without its sign. -/
def magnitudeBits (x : Float) : Nat :=
  x.toBits.toNat % twoTo 63

end Schemata.Decimal
