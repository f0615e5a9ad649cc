/-
What a foreign key does when the row it points at is deleted or updated.
-/
import Schemata.Text.Blank
import Schemata.Text.Case

namespace Schemata

/-- A referential action. -/
inductive ReferentialAction where
  | restrict
  | cascade
  | setNull
  | setDefault
deriving DecidableEq, Repr, Inhabited

namespace ReferentialAction

/-- The word that stands for an action in a table model. -/
def word : ReferentialAction → String
  | .restrict => "restrict"
  | .cascade => "cascade"
  | .setNull => "set_null"
  | .setDefault => "set_default"

/-- The name of the constant, as it is shown. -/
def constant : ReferentialAction → String
  | .restrict => "RESTRICT"
  | .cascade => "CASCADE"
  | .setNull => "SET_NULL"
  | .setDefault => "SET_DEFAULT"

/-- Every action. -/
def all : List ReferentialAction := [.restrict, .cascade, .setNull, .setDefault]

/-- The action that a word stands for. -/
def ofWord? (s : String) : Option ReferentialAction :=
  all.find? (·.word == s)

/-- Reads an action as a catalogue writes it, in any case and between blanks. To take no
action is to refuse the change; what the catalogue does not define is no action at all. -/
def parse (s : String) : Option ReferentialAction :=
  match Text.uppercase (Text.stripped s) with
  | "RESTRICT" => some .restrict
  | "NO ACTION" => some .restrict
  | "CASCADE" => some .cascade
  | "SET NULL" => some .setNull
  | "SET DEFAULT" => some .setDefault
  | _ => none

end ReferentialAction

end Schemata
