/-
Schemas: what a program needs to know of a table.

A schema has fields, a primary key, foreign keys and indices. Keys and indices hold the fields
themselves and not only their names, so that each can be read alone; merging keeps them up to
date.

Each fact about a field may be unknown. A hand-written schema states a few facts and leaves
the rest to the database, and merging can tell what was left out from what was stated. Facts
that have no attribute of their own are kept beside the others, in the order in which they
came.
-/
import Schemata.Value.Attribute

namespace Schemata

/-- What is known of a field beyond its name and type. -/
structure FieldMeta where
  nullable : Option Bool := none
  default : Value := .null
  checks : Option (List String) := none
  primaryKey : Option Bool := none
  foreignKey : Option Bool := none
  association : Option Bool := none
  functionDefault : Option Bool := none
  embed : Option Bool := none
  embedCardinality : Option String := none
  embedRelated : Option String := none
  embedOnReplace : Option String := none
  columnType : Option FieldType := none
  extra : List (String × Value) := []
deriving Inhabited

/-- A field of a schema; `source` is the name of its column where the two names differ. -/
structure Field where
  name : String
  type : FieldType
  source : Option String := none
  facts : FieldMeta := {}
deriving Inhabited

namespace Schema

/-- The fields of a primary key, in the order of the key. -/
structure PrimaryKey where
  fields : List Field
deriving Inhabited

/-- A foreign key over one field. -/
structure ForeignKey where
  field : String
  table : String
  target : Option String := none
  association : Option String := none
deriving DecidableEq, Inhabited

/-- An index over fields. -/
structure Index where
  name : String
  fields : List Field
  unique : Bool := false
  method : Option String := none
deriving Inhabited

end Schema

/-- The schema of a table. -/
structure Schema where
  source : String
  fields : List Field := []
  primaryKey : Option Schema.PrimaryKey := none
  foreignKeys : List Schema.ForeignKey := []
  indices : List Schema.Index := []
deriving Inhabited

/-! ## Equality

Two schemas are the same when all their attributes are, a default as the data means it. -/

/-- Other facts as entries of a mapping. -/
def extraEntries (extra : List (String × Value)) : List (Value × Value) :=
  extra.map fun e => (.text e.1, e.2)

/-- The same facts. -/
def FieldMeta.same (a b : FieldMeta) : Bool :=
  a.nullable == b.nullable && a.default.same b.default && a.checks == b.checks &&
    a.primaryKey == b.primaryKey && a.foreignKey == b.foreignKey &&
    a.association == b.association && a.functionDefault == b.functionDefault &&
    a.embed == b.embed && a.embedCardinality == b.embedCardinality &&
    a.embedRelated == b.embedRelated && a.embedOnReplace == b.embedOnReplace &&
    a.columnType == b.columnType &&
    (Value.dict (extraEntries a.extra)).same (.dict (extraEntries b.extra))

/-- The same field. -/
def Field.same (a b : Field) : Bool :=
  a.name == b.name && a.type == b.type && a.source == b.source && a.facts.same b.facts

/-- Lists that agree item by item. -/
def sameList {α : Type} (same : α → α → Bool) : List α → List α → Bool
  | [], [] => true
  | x :: xs, y :: ys => same x y && sameList same xs ys
  | _, _ => false

namespace Schema

/-- The same primary key. -/
def PrimaryKey.same (a b : PrimaryKey) : Bool :=
  sameList Field.same a.fields b.fields

/-- The same index. -/
def Index.same (a b : Index) : Bool :=
  a.name == b.name && sameList Field.same a.fields b.fields && a.unique == b.unique &&
    a.method == b.method

/-- The same schema. -/
def same (a b : Schema) : Bool :=
  a.source == b.source && sameList Field.same a.fields b.fields &&
    (match a.primaryKey, b.primaryKey with
     | none, none => true
     | some k, some l => k.same l
     | _, _ => false) &&
    a.foreignKeys == b.foreignKeys && sameList Index.same a.indices b.indices

end Schema

/-! ## Questions about a field -/

namespace Field

/-- The name of the column. -/
def columnName (f : Field) : String :=
  match f.source with
  | some s => if s.isEmpty then f.name else s
  | none => f.name

/-- The field is known to belong to the primary key. -/
def isPrimaryKey (f : Field) : Bool :=
  f.facts.primaryKey == some true

/-- The field is known to belong to a foreign key. -/
def isForeignKey (f : Field) : Bool :=
  f.facts.foreignKey == some true

/-- The field is known to stand for an association. -/
def isAssociation (f : Field) : Bool :=
  f.facts.association == some true

/-- The field is known to hold an embedded schema. -/
def isEmbed (f : Field) : Bool :=
  f.facts.embed == some true

end Field

/-! ## Questions about a schema -/

namespace Schema

/-- The names of the fields of a primary key. -/
def PrimaryKey.fieldNames (k : PrimaryKey) : List String :=
  k.fields.map (·.name)

/-- More than one field makes a primary key composite. -/
def PrimaryKey.isComposite (k : PrimaryKey) : Bool :=
  1 < k.fields.length

/-- The names of the fields of an index. -/
def Index.fieldNames (i : Index) : List String :=
  i.fields.map (·.name)

/-- More than one field makes an index composite. -/
def Index.isComposite (i : Index) : Bool :=
  1 < i.fields.length

/-- A schema without fields, keys and indices. -/
def empty (source : String) : Schema :=
  { source }

/-- A schema without fields. -/
def isEmpty (s : Schema) : Bool :=
  s.fields.isEmpty

/-- The names of the fields. -/
def fieldNames (s : Schema) : List String :=
  s.fields.map (·.name)

/-- The fields that foreign keys are over. -/
def foreignKeyFieldNames (s : Schema) : List String :=
  s.foreignKeys.map (·.field)

/-- The primary key is composite. -/
def hasCompositeKey (s : Schema) : Bool :=
  (s.primaryKey.map (·.isComposite)).getD false

/-- The first field of a name. -/
def field? (s : Schema) (name : String) : Option Field :=
  s.fields.find? (·.name == name)

/-- A field of this name belongs to the primary key. -/
def isPrimaryKeyField (s : Schema) (name : String) : Bool :=
  (s.primaryKey.map (·.fieldNames.contains name)).getD false

/-- A foreign key is over a field of this name. -/
def isForeignKeyField (s : Schema) (name : String) : Bool :=
  s.foreignKeyFieldNames.contains name

/-- The first foreign key over a field of this name. -/
def foreignKey? (s : Schema) (name : String) : Option ForeignKey :=
  s.foreignKeys.find? (·.field == name)

end Schema

end Schemata
