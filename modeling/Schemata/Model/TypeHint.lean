/-
The names that a generated model gives to types and to itself.
-/
import Schemata.FieldType
import Schemata.Text.Case
import Schemata.Text.Quoted
import Schemata.Text.Split

namespace Schemata.Model

/-- The annotations of the types that have a name. -/
def typeHints : List (String × String) := [
  ("id", "int"), ("integer", "int"), ("float", "float"), ("decimal", "Decimal"),
  ("string", "str"), ("boolean", "bool"), ("binary", "bytes"), ("binary_id", "UUID"),
  ("uuid", "UUID"), ("map", "Dict[str, Any]"), ("json", "Any"), ("jsonb", "Any"),
  ("any", "Any"), ("date", "date"), ("time", "time"), ("naive_datetime", "datetime"),
  ("utc_datetime", "datetime")]

/-- The annotation of a type. -/
def typeHint : FieldType → String
  | .named n => (typeHints.lookup n).getD "Any"
  | .array t => "List[" ++ typeHint t ++ "]"
  | .enum vs => "Literal[" ++ ", ".intercalate (vs.map Text.quoted) ++ "]"

/-- A word with its first letter in capital form. -/
def capitalized : List Char → List Char
  | [] => []
  | c :: cs => Text.upper [c] ++ cs

/-- The name of the model of a table: its words, each capitalized, put together. -/
def className (source : String) : String :=
  String.ofList ((Text.split '_' source.toList).flatMap capitalized)

end Schemata.Model
