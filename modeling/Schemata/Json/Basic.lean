/-
JSON documents.

Whole numbers of any size and doubles are kept apart, because a stored schema must give back a
default of the same kind. An object keeps its members in the order in which their keys first
appear; of two members with one key the later value is kept.
-/

namespace Schemata

/-- A JSON document. -/
inductive Json where
  | null
  | bool (b : Bool)
  | int (n : Int)
  | float (x : Float)
  | text (s : String)
  | array (items : List Json)
  | object (members : List (String × Json))
deriving Repr, Inhabited

namespace Json

/-- Sets a member: a present key keeps its place, a new one goes to the end. -/
def putMember (members : List (String × Json)) (key : String) (j : Json) :
    List (String × Json) :=
  match members with
  | [] => [(key, j)]
  | (k, v) :: rest => if k == key then (k, j) :: rest else (k, v) :: putMember rest key j

/-- The value of a member. -/
def get? (members : List (String × Json)) (key : String) : Option Json :=
  members.lookup key

end Json

end Schemata
