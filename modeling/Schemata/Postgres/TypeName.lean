/-
Postgres type names, as the catalogue formats them.

A name is read without regard to case, surrounding blanks, the width of the blanks between its
words and parenthesised parameters. Two closing brackets, or an underscore in front, make an
array of what is left. Names outside the table (network, geometric, interval, range and
unknown types) are strings. `uuid`, `json` and `jsonb` are kept as they are: what they become
depends on keys and defaults, which are not known here.
-/
import Schemata.FieldType
import Schemata.Text.Blank
import Schemata.Text.Case
import Schemata.Text.Literal
import Schemata.Value.Basic

namespace Schemata.Postgres

/-- The type names of the catalogue and the normalized types they stand for. -/
def typeTable : List (String × String) := [
  -- whole numbers
  ("integer", "integer"), ("int", "integer"), ("int4", "integer"), ("bigint", "integer"),
  ("int8", "integer"), ("smallint", "integer"), ("int2", "integer"), ("serial", "integer"),
  ("serial4", "integer"), ("bigserial", "integer"), ("serial8", "integer"),
  ("smallserial", "integer"), ("serial2", "integer"),
  -- floating point and exact numbers
  ("real", "float"), ("float4", "float"), ("double precision", "float"), ("float8", "float"),
  ("numeric", "decimal"), ("decimal", "decimal"), ("money", "decimal"),
  -- texts
  ("text", "string"), ("character varying", "string"), ("varchar", "string"),
  ("character", "string"), ("char", "string"), ("bpchar", "string"), ("name", "string"),
  ("citext", "string"),
  -- truth values and bytes
  ("boolean", "boolean"), ("bool", "boolean"), ("bytea", "binary"),
  -- days and times
  ("date", "date"), ("time", "time"), ("time without time zone", "time"),
  ("time with time zone", "time"), ("timetz", "time"), ("timestamp", "naive_datetime"),
  ("timestamp without time zone", "naive_datetime"),
  ("timestamp with time zone", "utc_datetime"), ("timestamptz", "utc_datetime"),
  -- kept for the type mapping
  ("uuid", "uuid"), ("json", "json"), ("jsonb", "jsonb")]

/-- A name without its parameters, with single blanks between its words. -/
def plainName (name : List Char) : List Char :=
  Text.trimBlank (Text.collapseBlank (Text.dropParameters name))

/-- The type of a name that is no array. -/
def elementType (name : List Char) : FieldType :=
  match typeTable.lookup (String.ofList name) with
  | some t => .named t
  | none => .named ((typeTable.lookup (String.ofList (plainName name))).getD "string")

/-- The name before two closing brackets at the end. -/
def beforeBrackets? (name : List Char) : Option (List Char) :=
  match name.reverse with
  | ']' :: '[' :: rest => some rest.reverse
  | _ => none

theorem length_beforeBrackets {name rest : List Char} (h : beforeBrackets? name = some rest) :
    rest.length < name.length := by
  unfold beforeBrackets? at h
  split at h
  · rename_i r hr
    cases h
    have := congrArg List.length hr
    simp at this ⊢
    omega
  · cases h

/-- The name of the type of the members, if a name is that of an array: what stands before two
closing brackets, or after an underscore. -/
def memberName? (name : List Char) : Option (List Char) :=
  match beforeBrackets? name, name with
  | some member, _ => some (Text.trimBlank member)
  | none, '_' :: member => some (Text.trimBlank member)
  | none, _ => none

theorem length_memberName {name member : List Char} (h : memberName? name = some member) :
    member.length < name.length := by
  unfold memberName? at h
  split at h
  · rename_i rest hrest
    cases h
    exact Nat.lt_of_le_of_lt (Text.length_trim_le _ _) (length_beforeBrackets hrest)
  · cases h
    exact Nat.lt_succ_of_le (Text.length_trim_le _ _)
  · cases h

/-- The type of a name in small letters without blanks at its ends. -/
def typeOfName (name : List Char) : FieldType :=
  match _h : memberName? name with
  | some member => .array (typeOfName member)
  | none => elementType name
termination_by name.length
decreasing_by exact length_memberName _h

/-- The normalized type of a catalogue name. -/
def normalizeType (raw : String) : FieldType :=
  typeOfName (Text.lower (Text.trimBlank raw.toList))

/-- The normalized type of what a column reports: a type stays, and what is no text is a
string. -/
def typeOf : Value → FieldType
  | .type t => t
  | v =>
    match v.word? with
    | some s => normalizeType s
    | none => .named "string"

end Schemata.Postgres
