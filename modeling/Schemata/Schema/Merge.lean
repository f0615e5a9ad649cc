/-
Merging and projecting schemas.

The right side of a merge wins. Fields are united by name: where both sides have a field, what
the right one states replaces what the left one states, and the rest stays. The primary key of
the right side wins as a whole, of two foreign keys over one field the right one, and indices
are put one list after the other. Keys and indices then take up the merged fields, so that
none holds a definition that has been replaced.

A projection keeps the named fields in the order of the names, the keys as they are, and those
indices all of whose fields are kept.
-/
import Schemata.Fault
import Schemata.Keyed
import Schemata.Schema.Basic
import Schemata.Value.Document

namespace Schemata

/-! ## Facts -/

namespace FieldMeta

/-- Other facts with their values taken apart. -/
def dumpedExtra (extra : List (String × Value)) : List (String × Value) :=
  extra.map fun e => (e.1, e.2.dumped)

/-- Sets a fact that has no attribute, in its place or at the end. -/
def putExtra (extra : List (String × Value)) (key : String) (v : Value) :
    List (String × Value) :=
  putBy (·.1) (key, v) extra

/-- The other facts of two fields: what the right one states wins. -/
def mergeExtra (a b : List (String × Value)) : List (String × Value) :=
  b.foldl (fun es e =>
    match e.2 with
    | .null => es
    | v => putExtra es e.1 v) a

/-- The facts of two definitions of one field: what the right one states wins. -/
def merge (a b : FieldMeta) : FieldMeta where
  nullable := b.nullable.or a.nullable
  default :=
    match b.default with
    | .null => a.default.dumped
    | v => v.dumped
  checks := b.checks.or a.checks
  primaryKey := b.primaryKey.or a.primaryKey
  foreignKey := b.foreignKey.or a.foreignKey
  association := b.association.or a.association
  functionDefault := b.functionDefault.or a.functionDefault
  embed := b.embed.or a.embed
  embedCardinality := b.embedCardinality.or a.embedCardinality
  embedRelated := b.embedRelated.or a.embedRelated
  embedOnReplace := b.embedOnReplace.or a.embedOnReplace
  columnType := b.columnType.or a.columnType
  extra := mergeExtra (dumpedExtra a.extra) (dumpedExtra b.extra)

end FieldMeta

namespace Field

/-- Two definitions of one field: the type is the right one's. -/
def merge (a b : Field) : Field where
  name := b.name
  type := b.type
  source := b.source.or a.source
  facts := a.facts.merge b.facts

/-- Merges two fields, which must have one name. -/
def merge? (a b : Field) : Except Fault Field :=
  if a.name == b.name then .ok (a.merge b)
  else .error (.fieldMismatch (Text.quoted a.name) (Text.quoted b.name))

end Field

/-! ## Schemas -/

namespace Schema

/-- Adds a field to the fields of a schema, or merges it into the field of its name. -/
def addField (fields : List Field) (f : Field) : List Field :=
  match fields.find? (·.name == f.name) with
  | some g => putBy (·.name) (g.merge f) fields
  | none => fields ++ [f]

/-- The fields of two schemas, united by name. -/
def mergeFields (left right : List Field) : List Field :=
  right.foldl addField (lastByKey (·.name) left)

/-- Replaces a field by the one of its name, if there is one. -/
def resolve (fields : List Field) (f : Field) : Field :=
  (fields.find? (·.name == f.name)).getD f

/-- A key over other definitions of its fields. -/
def PrimaryKey.over (k : PrimaryKey) (fields : List Field) : PrimaryKey :=
  ⟨k.fields.map (resolve fields)⟩

/-- An index over other definitions of its fields. -/
def Index.over (i : Index) (fields : List Field) : Index :=
  { i with fields := i.fields.map (resolve fields) }

/-- Merges two schemas of one table. -/
def merge (a b : Schema) : Schema :=
  let fields := mergeFields a.fields b.fields
  { source := a.source
    fields
    primaryKey := (b.primaryKey.or a.primaryKey).map (·.over fields)
    foreignKeys := lastByKey (·.field) (a.foreignKeys ++ b.foreignKeys)
    indices := (a.indices ++ b.indices).map (·.over fields) }

/-- Merges two schemas, which must be of one table. -/
def merge? (a b : Schema) : Except Fault Schema :=
  if a.source == b.source then .ok (a.merge b) else .error (.sourceMismatch a.source b.source)

/-- The source and the keys of a schema alone. -/
def withoutFields (s : Schema) : Schema :=
  { source := s.source, primaryKey := s.primaryKey, foreignKeys := s.foreignKeys }

/-- The named fields, each once, in the order of the names. -/
def selected (s : Schema) (names : List String) : List Field :=
  names.foldl (fun fs name =>
    match s.field? name with
    | some f => if fs.any (·.name == name) then fs else fs ++ [f]
    | none => fs) []

/-- Narrows a schema to the named fields. A projection that selects nothing keeps source and
keys. -/
def project (s : Schema) (names : List String) : Schema :=
  let fields := s.selected names
  if fields.isEmpty then s.withoutFields
  else
    { source := s.source
      fields
      primaryKey := s.primaryKey
      foreignKeys := s.foreignKeys
      indices :=
        (s.indices.filter fun i => i.fieldNames.all fun n => fields.any (·.name == n)).map
          (·.over fields) }

/-- Narrows a schema to the names of a sequence. What is no sequence is refused, unless the
schema has no fields to choose from. -/
def projectOn (s : Schema) (names : Value) : Except Fault Schema :=
  if s.isEmpty then .ok s.withoutFields
  else do
    let xs ← names.items
    .ok (s.project (← xs.mapM (·.plain)))

end Schema

end Schemata
