/-
Cutting a text at a character.
-/

namespace Schemata.Text

/-- The parts of a text between the places where a character stands; there is one part at
least. -/
def split (sep : Char) : List Char → List (List Char)
  | [] => [[]]
  | c :: cs =>
    if c == sep then [] :: split sep cs
    else
      match split sep cs with
      | part :: parts => (c :: part) :: parts
      | [] => [[c]]

theorem split_ne_nil (sep : Char) (cs : List Char) : split sep cs ≠ [] := by
  induction cs with
  | nil => simp [split]
  | cons c cs ih =>
    unfold split
    split
    · simp
    · split <;> simp

/-- The parts of a text, as texts. -/
def splitText (sep : Char) (s : String) : List String :=
  (split sep s.toList).map String.ofList

end Schemata.Text
