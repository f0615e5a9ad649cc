/-
Declarations: what a generated model declares for a schema.

Not every field is declared where it stands. The two timestamps are declared together as one
block, an association is no field of the model unless it is embedded, and the field of a
single primary key is left to an attribute, or to the convention that a key is a whole number.

The key attribute says what the convention does not: another type of a single key, or that the
key is composite. The attribute for the type of foreign keys is one for the whole model.
-/
import Schemata.Schema.Basic
import Schemata.Value.Shown

namespace Schemata

namespace Declaration

/-- The fields that are declared together as timestamps. -/
def timestampNames : List String := ["inserted_at", "updated_at"]

/-- The attribute of a primary key that does not follow the convention. -/
inductive Key where
  /-- The key is composite: its fields are declared like others, with a mark. -/
  | composite
  /-- A single key of another type, which the database generates. -/
  | single (name : String) (type : FieldType)
deriving DecidableEq

/-- What kind of field is declared. -/
inductive Kind where
  | field
  | embedsOne
  | embedsMany
deriving DecidableEq

/-- The word for a kind of declaration. -/
def Kind.word : Kind → String
  | .field => "field"
  | .embedsOne => "embeds_one"
  | .embedsMany => "embeds_many"

end Declaration

/-- The declaration of a field or of an embedded schema; options keep their order. -/
structure Declaration where
  kind : Declaration.Kind
  name : String
  type : FieldType
  options : List (String × Value) := []
  nullable : Bool := true

/-- All declarations of a model. -/
structure Declarations where
  key : Option Declaration.Key
  hasBinaryForeignKey : Bool
  fields : List Declaration
  timestamps : Bool

namespace Declaration

/-- The attribute of a primary key, if it needs one. -/
def keyOf : Option Schema.PrimaryKey → Option Key
  | none => none
  | some ⟨[]⟩ => none
  | some ⟨[k]⟩ => if k.type.isIntegerKey then none else some (.single k.name k.type)
  | some ⟨_ :: _ :: _⟩ => some .composite

/-- The option that names the column of a field, where it has another name. -/
def columnOption (f : Field) : List (String × Value) :=
  match f.source with
  | some s => if s.isEmpty || s == f.name then [] else [("source", .text s)]
  | none => []

/-- The option of a default; a number that the database counts up is none. -/
def defaultOption : Value → List (String × Value)
  | .null => []
  | v => if v.same (.generated .autoIncrement) then [] else [("default", v)]

/-- The option with the words of an enumeration. -/
def valuesOption : FieldType → List (String × Value)
  | .enum vs => [("values", .list (vs.map .text))]
  | _ => []

/-- A text that counts as present. -/
def present : Option String → Option String
  | some s => if s.isEmpty then none else some s
  | none => none

/-- The declaration of an embedded schema. -/
def ofEmbed (f : Field) : Declaration where
  kind := if f.facts.embedCardinality == some "many" then .embedsMany else .embedsOne
  name := f.name
  type :=
    match present f.facts.embedRelated with
    | some related => .named related
    | none => f.type
  options :=
    (match present f.facts.embedOnReplace with
     | some s => [("on_replace", .text s)]
     | none => []) ++ columnOption f

/-- The declaration of a field, with a mark if it belongs to a composite key. -/
def ofPlain (f : Field) (inKey : Bool) : Declaration where
  kind := .field
  name := f.name
  type := f.type
  options :=
    valuesOption f.type ++ (if inKey then [("primary_key", .bool true)] else []) ++
      columnOption f ++ defaultOption f.facts.default ++
      (if f.facts.functionDefault == some true then [("read_after_writes", .bool true)]
      else [])
  nullable := f.facts.nullable != some false

/-- The declaration of a field of a schema, if it has one of its own. -/
def ofField? (s : Schema) (f : Field) : Option Declaration :=
  if timestampNames.contains f.name then none
  else if f.isEmbed then some (ofEmbed f)
  else if f.isAssociation then none
  else if s.isPrimaryKeyField f.name then
    if s.hasCompositeKey then some (ofPlain f true) else none
  else some (ofPlain f false)

end Declaration

namespace Declarations

/-- The components of a schema that declarations are made for. -/
def componentNames : List String := [
  "primary_key", "foreign_key_type", "fields", "field", "embed"]

/-- The declarations of a schema. -/
def ofSchema (s : Schema) : Declarations where
  key := Declaration.keyOf s.primaryKey
  hasBinaryForeignKey := s.fields.any fun f => f.isForeignKey && f.type.isBinaryKey
  fields := s.fields.filterMap (Declaration.ofField? s)
  timestamps := Declaration.timestampNames.all fun n => (s.field? n).isSome

/-- The names of the declared fields. -/
def fieldNames (d : Declarations) : List String :=
  d.fields.map (·.name)

/-- Some field of this name is declared. -/
def declares (d : Declarations) (name : String) : Bool :=
  d.fieldNames.contains name

end Declarations

end Schemata
