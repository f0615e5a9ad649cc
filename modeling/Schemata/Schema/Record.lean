/-
Schemas as records, and reading them back.

The attributes of a schema have fixed names and a fixed order: this is the form in which
schemas are stored and shown. `ofValue?` reads it, with a default for every attribute but the
names, the types and the tables of foreign keys, and leaves out attributes that it does not
know. Facts about a field are the exception: there an unknown attribute is a fact without a
place of its own, and is kept.
-/
import Schemata.Json.Parser
import Schemata.Json.Printer
import Schemata.Schema.Basic
import Schemata.Value.Document

namespace Schemata

/-! ## Writing -/

/-- The facts about a field as a record. -/
def FieldMeta.toValue (m : FieldMeta) : Value :=
  .record "FieldMeta" ([
    ("nullable", .ofOptionBool m.nullable),
    ("default", m.default),
    ("check_constraints",
      match m.checks with
      | none => .null
      | some cs => .list (cs.map .text)),
    ("primary_key", .ofOptionBool m.primaryKey),
    ("foreign_key", .ofOptionBool m.foreignKey),
    ("association", .ofOptionBool m.association),
    ("function_default", .ofOptionBool m.functionDefault),
    ("embed", .ofOptionBool m.embed),
    ("embed_cardinality", .ofOption m.embedCardinality),
    ("embed_related", .ofOption m.embedRelated),
    ("embed_on_replace", .ofOption m.embedOnReplace),
    ("type",
      match m.columnType with
      | none => .null
      | some t => t.toValue)] ++ m.extra)

/-- A field as a record. -/
def Field.toValue (f : Field) : Value :=
  .record "Field" [
    ("name", .text f.name), ("type", f.type.toValue), ("source", .ofOption f.source),
    ("meta", f.facts.toValue)]

namespace Schema

/-- A primary key as a record. -/
def PrimaryKey.toValue (k : PrimaryKey) : Value :=
  .record "PrimaryKey" [("fields", .list (k.fields.map (·.toValue)))]

/-- A foreign key as a record. -/
def ForeignKey.toValue (k : ForeignKey) : Value :=
  .record "ForeignKey" [
    ("field", .text k.field), ("references_table", .text k.table),
    ("references_field", .ofOption k.target),
    ("association_name", .ofOption k.association)]

/-- An index as a record. -/
def Index.toValue (i : Index) : Value :=
  .record "Index" [
    ("name", .text i.name), ("fields", .list (i.fields.map (·.toValue))),
    ("unique", .bool i.unique), ("type", .ofOption i.method)]

/-- A schema as a record. -/
def toValue (s : Schema) : Value :=
  .record "Schema" [
    ("source", .text s.source),
    ("fields", .list (s.fields.map (·.toValue))),
    ("primary_key",
      match s.primaryKey with
      | none => .null
      | some k => k.toValue),
    ("foreign_keys", .list (s.foreignKeys.map (·.toValue))),
    ("indices", .list (s.indices.map (·.toValue)))]

end Schema

/-! ## Reading -/

open Value (get? optional optionalAt withDefault)

/-- A text that must be there. -/
def Value.textAt? (es : List (Value × Value)) (key : String) : Option String :=
  (get? es key).bind Value.text?

namespace FieldMeta

/-- The attributes that facts have a place for. -/
def known : List String := [
  "nullable", "default", "check_constraints", "primary_key", "foreign_key", "association",
  "function_default", "embed", "embed_cardinality", "embed_related",
  "embed_on_replace", "type"]

/-- The entries that have no place of their own; every key must be a text. -/
def extraOf : List (Value × Value) → Option (List (String × Value))
  | [] => some []
  | (k, v) :: es => do
    let key ← k.word?
    let rest ← extraOf es
    some (if known.contains key then rest else (key, v) :: rest)

/-- Reads the facts about a field from entries. -/
def ofEntries? (es : List (Value × Value)) : Option FieldMeta := do
  let extra ← extraOf es
  let nullable ← optionalAt Value.bool? es "nullable"
  let checks ← optionalAt Value.texts? es "check_constraints"
  let primaryKey ← optionalAt Value.bool? es "primary_key"
  let foreignKey ← optionalAt Value.bool? es "foreign_key"
  let association ← optionalAt Value.bool? es "association"
  let functionDefault ← optionalAt Value.bool? es "function_default"
  let embed ← optionalAt Value.bool? es "embed"
  let embedCardinality ← optionalAt Value.text? es "embed_cardinality"
  let embedRelated ← optionalAt Value.text? es "embed_related"
  let embedOnReplace ← optionalAt Value.text? es "embed_on_replace"
  let columnType ← optionalAt Value.type? es "type"
  some {
    nullable, default := Value.getD es "default", checks, primaryKey, foreignKey, association,
    functionDefault, embed, embedCardinality, embedRelated, embedOnReplace,
    columnType, extra }

/-- Reads the facts about a field. -/
def ofValue? : Value → Option FieldMeta
  | .dict es => ofEntries? es
  | _ => none

end FieldMeta

/-- Reads a field. -/
def Field.ofValue? : Value → Option Field
  | .dict es => do
    let name ← Value.textAt? es "name"
    let type ← (get? es "type").bind Value.type?
    let source ← optionalAt Value.text? es "source"
    let facts ← withDefault FieldMeta.ofValue? {} es "meta"
    some { name, type, source, facts }
  | _ => none

/-- Reads fields. -/
def Field.listOf? (v : Value) : Option (List Field) :=
  v.listOf? Field.ofValue?

namespace Schema

/-- Reads a primary key. -/
def PrimaryKey.ofValue? : Value → Option PrimaryKey
  | .dict es => do
    let fields ← withDefault Field.listOf? [] es "fields"
    some { fields }
  | _ => none

/-- Reads a foreign key from entries. -/
def ForeignKey.ofEntries? (es : List (Value × Value)) : Option ForeignKey := do
  let field ← Value.textAt? es "field"
  let table ← Value.textAt? es "references_table"
  let target ← optionalAt Value.text? es "references_field"
  let association ← optionalAt Value.text? es "association_name"
  some { field, table, target, association }

/-- Reads a foreign key. -/
def ForeignKey.ofValue? : Value → Option ForeignKey
  | .dict es => ofEntries? es
  | _ => none

/-- Reads an index. -/
def Index.ofValue? : Value → Option Index
  | .dict es => do
    let name ← Value.textAt? es "name"
    let fields ← withDefault Field.listOf? [] es "fields"
    let unique ← withDefault Value.bool? false es "unique"
    let method ← optionalAt Value.text? es "type"
    some { name, fields, unique, method }
  | _ => none

/-- Reads a schema. -/
def ofValue? : Value → Option Schema
  | .dict es => do
    let source ← Value.textAt? es "source"
    let fields ← withDefault Field.listOf? [] es "fields"
    let primaryKey ← optionalAt PrimaryKey.ofValue? es "primary_key"
    let foreignKeys ← withDefault (Value.listOf? ForeignKey.ofValue?) [] es "foreign_keys"
    let indices ← withDefault (Value.listOf? Index.ofValue?) [] es "indices"
    some { source, fields, primaryKey, foreignKeys, indices }
  | _ => none

/-- The document of a schema. -/
def toJson (s : Schema) : Json :=
  s.toValue.toJson

/-- Reads a schema from a document. -/
def ofJson? (j : Json) : Option Schema :=
  ofValue? j.toValue

/-- A schema after it has been written as the text of a document and read back. A text that
cannot be read back holds a number that is too long. -/
def reread (s : Schema) : Except Fault Schema :=
  match Json.parse? (Json.print Json.inline Json.ascii s.toJson) with
  | some j => Value.require (ofJson? j)
  | none => .error .badValue

end Schema

end Schemata
