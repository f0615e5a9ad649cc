/-
The database dialects that a table can be described in.
-/

namespace Schemata

/-- A supported database dialect. -/
inductive Dialect where
  | postgres
  | sqlite
deriving DecidableEq, Repr, Inhabited

namespace Dialect

/-- The word that names a dialect in a description. -/
def word : Dialect → String
  | .postgres => "postgres"
  | .sqlite => "sqlite"

/-- The name of the constant, as it is shown. -/
def constant : Dialect → String
  | .postgres => "POSTGRES"
  | .sqlite => "SQLITE"

/-- Every dialect, in the order of the words. -/
def all : List Dialect := [.postgres, .sqlite]

/-- The dialect that a word names. -/
def ofWord? (s : String) : Option Dialect :=
  all.find? (·.word == s)

end Dialect

end Schemata
