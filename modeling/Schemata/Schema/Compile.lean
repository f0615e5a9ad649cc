/-
From tables to schemas.

Every column becomes a field, in order. Keys and indices then look their columns up among the
fields; a column that a key or an index names and the table does not have is left out. Of a
composite foreign key the first pair of columns is kept, and a foreign key over no column is
no foreign key.

Columns are compiled in order, and the first one that has no field ends it
(`Column.refusal?`).
-/
import Schemata.Schema.Basic
import Schemata.Schema.TypeMapping
import Schemata.Table.Basic

namespace Schemata

/-- What a column says besides its type. -/
def Column.context (c : Column) : TypeMapping.Context where
  primaryKey := c.primaryKey
  foreignKey := c.foreignKey
  default := c.default

/-- The default that the field of a column has. -/
def Column.fieldDefault (r : TypeMapping.Rules) (c : Column) : Value :=
  (TypeMapping.fieldDefault? r c.context c.type).getD c.default

/-- The field of a column. -/
def Column.toField (r : TypeMapping.Rules) (c : Column) : Field where
  name := c.name
  type := TypeMapping.fieldType r c.context c.type
  facts := {
    nullable := some c.nullable
    default := c.fieldDefault r
    checks := some c.checks
    primaryKey := some c.primaryKey
    foreignKey := some c.foreignKey
    columnType := some c.type }

/-- Why a column has no field: its default cannot be written, or its type is that of a
document without a default and none is configured for it. -/
def Column.refusal? (d : Dialect) (configured : Option (Option FieldType)) (c : Column) :
    Option Fault :=
  let r : TypeMapping.Rules := ⟨some d, configured.getD none⟩
  if TypeMapping.isRefused r c.context c.type then some .badValue
  else if configured.isNone && TypeMapping.meetsBareDocument r c.context c.type then
    some .invalid
  else none

namespace Schema

/-- The fields of the named columns; of two fields of one name the later one. -/
def lookUp (fields : List Field) (names : List String) : List Field :=
  names.filterMap fun name => fields.reverse.find? (·.name == name)

/-- The primary key of a table over the fields of its columns. -/
def compileKey (fields : List Field) (columns : List Column) : Option PrimaryKey :=
  if columns.isEmpty then none else some ⟨lookUp fields (columns.map (·.name))⟩

/-- The foreign key over the first column of a constraint. -/
def compileForeignKey (k : Table.ForeignKey) : Option ForeignKey :=
  k.columns.head?.map fun column => {
    field := column, table := k.table, target := k.targets.head? }

/-- The index over the fields of its columns. -/
def compileIndex (fields : List Field) (i : Table.Index) : Index where
  name := i.name
  fields := lookUp fields i.columns
  unique := i.unique
  method := i.method

/-- The components that a table is compiled by, and the parts of these components. -/
def componentNames : List String := [
  "name", "columns", "column", "primary_key", "foreign_keys", "foreign_key",
  "indices", "index"]

/-- The schema of a table, by the rules of a type mapping. -/
def compile (r : TypeMapping.Rules) (t : Table) : Schema :=
  let fields := t.columns.map (·.toField r)
  { source := t.name
    fields
    primaryKey := compileKey fields t.primaryKey
    foreignKeys := t.foreignKeys.filterMap compileForeignKey
    indices := t.indices.map (compileIndex fields) }

/-- The schema of a table, where `bare` is the configured type of a document without a
default. If it is no type, a table with such a column has no schema. -/
def ofTable (bare : Value) (t : Table) : Except Fault Schema :=
  let configured := TypeMapping.bareDocument? bare
  match t.columns.findSome? (·.refusal? t.dialect configured) with
  | some f => .error f
  | none => .ok (compile ⟨some t.dialect, configured.getD none⟩ t)

end Schema

end Schemata
