/-
From column types to field types.

What a column becomes depends on its type, on whether it is a key, and on its default. Each
dialect has an ordered list of rules, of which the first that applies decides; a type to which
none applies stays as it is. A name that is no known type is read by the rules of the dialect
first. The members of an array are mapped in the same context as the array, except that an
array of documents is an array of maps.

`fieldType` is the mapping itself. It has three parts: the rules for names and enumerations
(`leaf`), the walk through the arrays of what a dialect made of a name (`ofNormal`), and the
walk through a type as it was given. It fails in one case only (`isRefused`): Postgres writes
the default of every enumeration that it meets, that of the members of an array as well, and a
default may be too long to be written.
-/
import Schemata.Postgres.TypeName
import Schemata.Sqlite.TypeName
import Schemata.Value.Attribute
import Schemata.Value.Shown

namespace Schemata.TypeMapping

/-- The names of the types that fields and normalized columns may have. -/
def knownNames : List String := [
  "id", "binary_id", "binary", "integer", "float", "decimal", "string",
  "boolean", "map", "any",
  "date", "time", "naive_datetime", "utc_datetime", "uuid", "json", "jsonb"]

/-- The names of the document types. -/
def documentNames : List String := ["json", "jsonb"]

/-- A document type. -/
def isDocument : FieldType → Bool
  | .named n => documentNames.contains n
  | _ => false

/-- What a column says besides its type. -/
structure Context where
  primaryKey : Bool := false
  foreignKey : Bool := false
  default : Value := .null

namespace Context

/-- The column belongs to a key. -/
def isKey (c : Context) : Bool :=
  c.primaryKey || c.foreignKey

/-- Reads a context from entries, each of which may be missing. -/
def ofEntries (es : List (Value × Value)) : Context where
  primaryKey := (Value.getD es "primary_key").isTruthy
  foreignKey := (Value.getD es "foreign_key").isTruthy
  default := Value.getD es "default"

end Context

/-- The rules of a mapping: the dialect, if there is one, and the type of a document column
without a default, if it is not to stay what it is. -/
structure Rules where
  dialect : Option Dialect
  bareDocument : Option FieldType := some (.named "map")

/-! ## Rules for names -/

/-- What becomes of a document: an empty list as its default makes it an array, any other
default a map. -/
def document (r : Rules) (c : Context) (name : String) : FieldType :=
  match c.default with
  | .list [] => .array (.named "any")
  | .text "[]" => .array (.named "any")
  | .null => r.bareDocument.getD (.named name)
  | _ => .named "map"

/-- The rules of Postgres: key columns are surrogate keys, and a stored identifier that is no
key is bytes. -/
def postgresName (r : Rules) (c : Context) (name : String) : FieldType :=
  if name == "integer" && c.isKey then .named "id"
  else if name == "uuid" then .named (if c.isKey then "binary_id" else "binary")
  else if documentNames.contains name then document r c name
  else .named name

/-- The rules of SQLite, which has no types for truth values and documents: a default
tells. -/
def sqliteName (r : Rules) (c : Context) (name : String) : FieldType :=
  if name == "integer" then
    match c.default with
    | .bool _ => .named "boolean"
    | _ => .named name
  else if name == "string" then
    match c.default with
    | .dict _ => .named "map"
    | .list [] => .array (.named "any")
    | _ => .named name
  else if name == "uuid" then .named "binary_id"
  else if documentNames.contains name then document r c name
  else .named name

/-- What becomes of a known name. -/
def leaf (r : Rules) (c : Context) (name : String) : FieldType :=
  match r.dialect with
  | none => .named name
  | some .postgres => postgresName r c name
  | some .sqlite => sqliteName r c name

/-! ## The mapping -/

/-- An array over a member that has been mapped; an array of documents is an array of maps. -/
def arrayOf (member mapped : FieldType) : FieldType :=
  if isDocument member then .array (.named "map") else .array mapped

/-- Maps a type all of whose names are known. -/
def ofNormal (r : Rules) (c : Context) : FieldType → FieldType
  | .named n => leaf r c n
  | .array t => arrayOf t (ofNormal r c t)
  | .enum vs => .enum vs

/-- Reads a name that is no known type. -/
def normalize (d : Dialect) (name : String) : FieldType :=
  match d with
  | .postgres => Postgres.normalizeType name
  | .sqlite => Sqlite.normalizeType name

/-- The field type of a column type. -/
def fieldType (r : Rules) (c : Context) : FieldType → FieldType
  | .named n =>
    if knownNames.contains n then leaf r c n
    else
      match r.dialect with
      | none => .named "string"
      | some d => ofNormal r c (normalize d n)
  | .array t =>
    match r.dialect with
    | none => .array t
    | some _ => arrayOf t (fieldType r c t)
  | .enum vs => .enum vs

/-- The default that a mapping gives the field: the default of an enumeration of Postgres is
kept as text. -/
def fieldDefault? (r : Rules) (c : Context) (t : FieldType) : Option Value :=
  match r.dialect, t, c.default with
  | some .postgres, .enum _, .null => none
  | some .postgres, .enum _, d => some (.text d.plainText)
  | _, _, _ => none

/-- An enumeration, or an array over one. -/
def isEnumeration : FieldType → Bool
  | .named _ => false
  | .array t => isEnumeration t
  | .enum _ => true

/-- The mapping has to write a default that is too long to be written. -/
def isRefused (r : Rules) (c : Context) (t : FieldType) : Bool :=
  r.dialect == some .postgres && isEnumeration t && c.default.hasLongInt

/-- The field type of anything that stands for a column type. What is no type at all is a
string, but it must not hold anything that can change. -/
def fieldTypeOf (r : Rules) (c : Context) (v : Value) :
    Except Fault (FieldType × Option Value) :=
  match v with
  | .type t =>
    if isRefused r c t then .error .badValue else .ok (fieldType r c t, fieldDefault? r c t)
  | v =>
    match v.word? with
    | some n => .ok (fieldType r c (.named n), none)
    | none => if v.isKey then .ok (.named "string", none) else .error .wrongKind

/-! ## Configured types of bare documents -/

/-- The type is a bare document somewhere that a mapping looks: its mapping depends on the
configured type of a document without a default. -/
def meetsBareDocument (r : Rules) (c : Context) (t : FieldType) : Bool :=
  match c.default with
  | .null =>
    let mark : FieldType := .named "\x00"
    let other : FieldType := .named "\x01"
    fieldType { r with bareDocument := some mark } c t !=
      fieldType { r with bareDocument := some other } c t
  | _ => false

/-- The configured type of a bare document: what does not count as present leaves it as it is.
The inner result is none where a value is no type. -/
def bareDocument? (v : Value) : Option (Option FieldType) :=
  if v.isTruthy then (v.type?).map some else some none

end Schemata.TypeMapping
