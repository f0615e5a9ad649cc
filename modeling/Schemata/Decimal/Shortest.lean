/-
The decimal with the fewest digits that reads back to a given double.

For one digit, two digits, and so on up to seventeen, the two neighbours of the value on the
grid of that many digits are tested by reading them: the first grid with a hit wins, and of
two hits the closer one, an exact tie going to the even digit. The test is `nearest` itself,
so what is selected reads back by construction; seventeen digits always suffice, and were none
to be found, the exact decimal of the value is given, never a guess.
-/
import Schemata.Decimal.Binary

namespace Schemata.Decimal

/-- A decimal, `digits · 10^exp`. -/
structure Dec where
  digits : Nat
  exp : Int
deriving Repr, DecidableEq

/-- `m · 2^q < 10^k`, exactly. -/
def Binary.belowTenPow (x : Binary) (k : Int) : Bool :=
  x.m * twoTo x.q.toNat * tenTo (-k).toNat < tenTo k.toNat * twoTo (-x.q).toNat

/-- Raises or lowers an estimate until it is the least `k` with `m · 2^q < 10^k`. -/
def Binary.settleScale (x : Binary) : Nat → Int → Int
  | 0, k => k
  | fuel + 1, k =>
    if !x.belowTenPow k then settleScale x fuel (k + 1)
    else if x.belowTenPow (k - 1) then settleScale x fuel (k - 1)
    else k

/-- The number of places before the decimal point: the least `k` with `m · 2^q < 10^k`. -/
def Binary.places (x : Binary) : Int :=
  x.settleScale 8 ((((x.m.log2 : Int) + x.q) * 1233) / 4096 + 1)

/-- The value over `10^e`, as a quotient of natural numbers. -/
def Binary.over (x : Binary) (e : Int) : Nat × Nat :=
  (x.m * twoTo x.q.toNat * tenTo (-e).toNat, tenTo e.toNat * twoTo (-x.q).toNat)

/-- The better of the two neighbours on the grid `10^e` that read back to `bits`, if one
does. -/
def Binary.pick? (x : Binary) (bits : Nat) (e : Int) : Option Dec :=
  let (num, den) := x.over e
  let lo := num / den
  let loReads := nearest lo e == bits
  let hiReads := nearest (lo + 1) e == bits
  if loReads && hiReads then
    let twice := 2 * (num % den)
    if twice < den || (twice == den && lo % 2 == 0) then some ⟨lo, e⟩ else some ⟨lo + 1, e⟩
  else if loReads then some ⟨lo, e⟩
  else if hiReads then some ⟨lo + 1, e⟩
  else none

/-- The exact decimal of a value. -/
def Binary.exact (x : Binary) : Dec :=
  if 0 ≤ x.q then ⟨x.m * twoTo x.q.toNat, 0⟩ else ⟨x.m * Nat.pow 5 (-x.q).toNat, x.q⟩

/-- Moves trailing zeros of the digits into the exponent. -/
def Dec.strip : Nat → Dec → Dec
  | 0, d => d
  | fuel + 1, d =>
    if d.digits != 0 && d.digits % 10 == 0 then Dec.strip fuel ⟨d.digits / 10, d.exp + 1⟩
    else d

/-- The shortest decimal that reads back to the magnitude with the given bits. -/
def shortest (bits : Nat) : Dec :=
  let x := Binary.ofBits bits
  if x.m == 0 then ⟨0, 0⟩
  else
    let k := x.places
    let found := (List.range 17).findSome? fun n => x.pick? bits (k - (n + 1 : Nat))
    (found.getD x.exact).strip 800

end Schemata.Decimal
