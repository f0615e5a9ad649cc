/-
Lists with a key.

A list of items with a key takes the place of a mapping whose order matters: an item that is
put takes the place of the one with its key, and an item with a new key comes last.
-/
namespace Schemata

/-- Puts an item in place of the one with its key, or at the end. -/
def putBy {α : Type} (key : α → String) (x : α) : List α → List α
  | [] => [x]
  | y :: ys => if key y == key x then x :: ys else y :: putBy key x ys

/-- One item for each key: the last one, at the place of the first one. -/
def lastByKey {α : Type} (key : α → String) (xs : List α) : List α :=
  xs.foldl (fun ys x => putBy key x ys) []

end Schemata
