/-
Normalized column and field types.

A type is a plain name ("id", "string", "map", …), an array over a member type, or an
enumeration with its list of values. Names are not restricted here: what a table reports may
hold any name, and the type mapping decides what becomes of it.
-/

namespace Schemata

/-- A normalized type. -/
inductive FieldType where
  | named (name : String)
  | array (member : FieldType)
  | enum (values : List String)
deriving DecidableEq, Repr, Inhabited

namespace FieldType

/-- The readable label of a type: `array<enum<a, b>>`. -/
def label : FieldType → String
  | .named n => n
  | .array t => "array<" ++ t.label ++ ">"
  | .enum vs => "enum<" ++ ", ".intercalate vs ++ ">"

/-- Names of the key types that are stored as sixteen bytes. -/
def binaryKeyNames : List String := ["binary_id", "uuid"]

/-- Names of the key types that are whole numbers. -/
def integerKeyNames : List String := ["id", "integer"]

/-- A name of a sixteen-byte key type. -/
def isBinaryKey : FieldType → Bool
  | .named n => binaryKeyNames.contains n
  | _ => false

/-- A name of a whole-number key type. -/
def isIntegerKey : FieldType → Bool
  | .named n => integerKeyNames.contains n
  | _ => false

/-- `depth` arrays around a type. -/
def nested (t : FieldType) : Nat → FieldType
  | 0 => t
  | depth + 1 => .array (nested t depth)

end FieldType

end Schemata
