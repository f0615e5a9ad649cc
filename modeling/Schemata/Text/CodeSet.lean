/-
Sets of characters given by their code points.

A property of the character database (printable, alphanumeric, cased) is a few hundred runs of
consecutive code points. A `CodeSet` keeps only the points where membership changes, in
ascending order: the set is entered at the first, left at the second, entered again at the
third, and so on. A point is inside when an odd number of changes lie at or below it. The list
form is chosen over an array with a binary search because membership then unfolds by plain
recursion, and the texts that are tested are names and literals of a few dozen characters.
-/

namespace Schemata.Text

/-- A set of code points: where membership changes, in ascending order. -/
structure CodeSet where
  edges : List Nat
deriving Repr

namespace CodeSet

/-- Walks the edges up to `n`, flipping membership at each. -/
def sweep (n : Nat) : List Nat → Bool → Bool
  | [], inside => inside
  | e :: rest, inside => if n < e then inside else sweep n rest (!inside)

/-- Membership of a code point. -/
def contains (s : CodeSet) (n : Nat) : Bool :=
  sweep n s.edges false

end CodeSet

end Schemata.Text
