/-
Built parts of a table, seen as data.

A tree need not be the tree of a table: any part of it may stand where plain data is expected,
for instance as the default of a column. A part is then a record of its attributes, in the
order in which a part is described.
-/
import Schemata.Table.Basic

namespace Schemata

/-- What a visit of a tree results in: plain data, a built part, or a list of such. -/
inductive Part where
  | value (v : Value)
  | column (c : Column)
  | foreignKey (k : Table.ForeignKey)
  | index (i : Table.Index)
  | table (t : Table)
  | items (parts : List Part)

/-- A column as data. -/
def Column.toValue (c : Column) : Value :=
  .record "Column" [
    ("name", .text c.name),
    ("type", c.type.toValue),
    ("meta", .record "ColumnMeta" [
      ("nullable", .bool c.nullable),
      ("default", c.default),
      ("primary_key", .bool c.primaryKey),
      ("foreign_key", .bool c.foreignKey),
      ("check_constraints", .ofTexts c.checks)])]

namespace Table

/-- A referential action as data. -/
def actionValue : Option ReferentialAction → Value
  | none => .null
  | some a => .action a

/-- A foreign key as data. -/
def ForeignKey.toValue (k : ForeignKey) : Value :=
  .record "ForeignKey" [
    ("name", .ofOption k.name),
    ("columns", .ofTexts k.columns),
    ("referenced_table", .text k.table),
    ("referenced_columns", .ofTexts k.targets),
    ("on_delete", actionValue k.onDelete),
    ("on_update", actionValue k.onUpdate)]

/-- An index as data. -/
def Index.toValue (i : Index) : Value :=
  .record "Index" [
    ("name", .text i.name),
    ("columns", .ofTexts i.columns),
    ("meta", .record "IndexMeta" [
      ("unique", .bool i.unique),
      ("type", .ofOption i.method),
      ("where_clause", .ofOption i.condition)])]

end Table

/-- A table as data. -/
def Table.toValue (t : Table) : Value :=
  .record "Table" [
    ("name", .text t.name),
    ("dialect", .dialect t.dialect),
    ("columns", .list (t.columns.map (·.toValue))),
    ("primary_key", .record "PrimaryKey" [
      ("columns", .list (t.primaryKey.map (·.toValue)))]),
    ("foreign_keys", .list (t.foreignKeys.map (·.toValue))),
    ("indices", .list (t.indices.map (·.toValue)))]

namespace Part

mutual

/-- A part as data. -/
def toValue : Part → Value
  | .value v => v
  | .column c => c.toValue
  | .foreignKey k => k.toValue
  | .index i => i.toValue
  | .table t => t.toValue
  | .items ps => .list (toValues ps)

/-- The parts of a list, as data. -/
def toValues : List Part → List Value
  | [] => []
  | p :: ps => toValue p :: toValues ps

end

/-- The parts that a part is read as, if it can be read as a sequence. -/
def parts? : Part → Option (List Part)
  | .items ps => some ps
  | p => p.toValue.items?.map (·.map .value)

end Part

end Schemata
