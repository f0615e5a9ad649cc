/-
Tables as a database describes them.

Column types are normalized by the rules of the dialect, so that a name of one catalogue and
its like in another are the same type here. What depends on keys and defaults (surrogate keys,
stored byte keys, documents) is not settled yet: the compilation to a schema does that.

The primary key is no component of its own. It is the columns that say they belong to it, in
the order of the table.
-/
import Schemata.Value.Attribute

namespace Schemata

/-- A column of a table. -/
structure Column where
  name : String
  type : FieldType
  nullable : Bool := true
  default : Value := .null
  primaryKey : Bool := false
  foreignKey : Bool := false
  checks : List String := []
deriving Inhabited

namespace Table

/-- A foreign key constraint, over one column or several. -/
structure ForeignKey where
  name : Option String
  columns : List String
  table : String
  targets : List String
  onDelete : Option ReferentialAction
  onUpdate : Option ReferentialAction
deriving DecidableEq

/-- An index. What it is over need not be a column: expressions are listed as they are
written. -/
structure Index where
  name : String
  columns : List String
  unique : Bool := false
  method : Option String := none
  condition : Option String := none
deriving DecidableEq

end Table

/-- A table of a database. -/
structure Table where
  name : String
  dialect : Dialect
  columns : List Column
  foreignKeys : List Table.ForeignKey
  indices : List Table.Index
deriving Inhabited

/-- More than one name makes a constraint composite. -/
def Table.ForeignKey.isComposite (k : Table.ForeignKey) : Bool :=
  1 < k.columns.length

/-- More than one column makes an index composite. -/
def Table.Index.isComposite (i : Table.Index) : Bool :=
  1 < i.columns.length

/-- An index over a part of the rows. -/
def Table.Index.isPartial (i : Table.Index) : Bool :=
  i.condition.isSome

namespace Table

/-- The columns of the primary key, in the order of the table. -/
def primaryKey (t : Table) : List Column :=
  t.columns.filter (·.primaryKey)

/-- The names of the columns. -/
def columnNames (t : Table) : List String :=
  t.columns.map (·.name)

/-- The first column of a name. -/
def column? (t : Table) (name : String) : Option Column :=
  t.columns.find? (·.name == name)

/-- The names of the columns of foreign keys, each once, in the order in which they first
occur. -/
def foreignKeyColumnNames (t : Table) : List String :=
  (t.foreignKeys.flatMap (·.columns)).foldl
    (fun names n => if names.contains n then names else names ++ [n]) []

/-- A column of this name belongs to the primary key. -/
def isPrimaryKeyColumn (t : Table) (name : String) : Bool :=
  (t.primaryKey.map (·.name)).contains name

/-- The first foreign key over a column of this name. -/
def foreignKeyFor? (t : Table) (name : String) : Option ForeignKey :=
  t.foreignKeys.find? (·.columns.contains name)

/-- Some foreign key is over a column of this name. -/
def isForeignKeyColumn (t : Table) (name : String) : Bool :=
  t.foreignKeys.any (·.columns.contains name)

/-- The names of the indices over a column of this name. -/
def indexNamesFor (t : Table) (name : String) : List String :=
  (t.indices.filter (·.columns.contains name)).map (·.name)

end Table

end Schemata
