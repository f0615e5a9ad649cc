/-
SQLite type names, as a table declares them.

A declared name is free text. Known names stand for themselves; any other follows the affinity
rules of the database, tried in order: a name that holds INT is a whole number, one that holds
CHAR, CLOB or TEXT a string, and so on down to exact numbers. A column without a declared type
holds bytes.
-/
import Schemata.FieldType
import Schemata.Text.Blank
import Schemata.Text.Case
import Schemata.Text.Literal
import Schemata.Value.Basic

namespace Schemata.Sqlite

/-- The declared names that stand for a normalized type. -/
def typeTable : List (String × String) := [
  ("INTEGER", "integer"), ("FLOAT", "float"), ("REAL", "float"), ("TEXT", "string"),
  ("BLOB", "binary"), ("UUID", "uuid"), ("JSON", "json"), ("JSONB", "jsonb"),
  ("NUMERIC", "decimal"), ("DECIMAL", "decimal"), ("BOOLEAN", "boolean"), ("DATE", "date"),
  ("DATETIME", "naive_datetime"), ("TIMESTAMP", "naive_datetime"), ("TIME", "time")]

/-- The affinity rules: the first rule one of whose words the name holds gives the type. -/
def affinities : List (List String × String) := [
  (["INT"], "integer"), (["CHAR", "CLOB", "TEXT"], "string"), (["BLOB"], "binary"),
  (["REAL", "FLOA", "DOUB"], "float")]

/-- The type that the affinity rules give a name. -/
def affinity (name : List Char) : String :=
  match affinities.find? fun rule => rule.1.any fun word => Text.holds word.toList name with
  | some rule => rule.2
  | none => "decimal"

/-- The normalized type of a declared name. -/
def normalizeType (raw : String) : FieldType :=
  if (Text.trimBlank raw.toList).isEmpty then .named "binary"
  else
    let name := Text.upper (Text.trimBlank (Text.dropParameters raw.toList))
    .named ((typeTable.lookup (String.ofList name)).getD (affinity name))

/-- The normalized type of what a column reports: what is no text holds bytes. -/
def typeOf (v : Value) : FieldType :=
  match v.word? with
  | some s => normalizeType s
  | none => .named "binary"

end Schemata.Sqlite
