/-
Snapshots: descriptions of the tables of a database, kept in a file.

A snapshot names the dialect of its database and describes tables by name. A description holds
columns, foreign keys and indices in the terms of the database; `Snapshot.table` turns it into
the tree that a live database would report. Nothing of a description is checked before it is
used: what is missing or of the wrong kind is a fault when the table is asked for, and a table
that is not described is one too.
-/
import Schemata.Registry
import Schemata.Schema.Compile
import Schemata.Table.Build
import Schemata.Value.Items
import Schemata.Yaml.Data

namespace Schemata

/-- A description of tables. -/
structure Snapshot where
  /-- The descriptions by name, as they were given. -/
  tables : Value
  dialect : Dialect

namespace Snapshot

/-- A snapshot of descriptions in a dialect; nothing given describes no tables. -/
def ofTables (tables dialect : Value) : Except Fault Snapshot := do
  let d ← Registry.ofWord dialect
  .ok ⟨tables.orElse (.dict []), d⟩

/-! ## Parts of a description -/

/-- The entries of a description that is asked for an attribute by name. -/
def attributes : Value → Except Fault (List (Value × Value))
  | .dict es => .ok es
  | _ => .error .noAttribute

/-- The value of a key that a description must have. -/
def required (v : Value) (key : String) : Except Fault Value :=
  match v with
  | .dict es =>
    match Value.get? es key with
    | some x => .ok x
    | none => .error .missingKey
  | _ => .error .wrongKind

/-- The items of a list that may be missing. -/
def listOf (es : List (Value × Value)) (key : String) : Except Fault (List Value) :=
  ((Value.getD es key).orElse (.list [])).items

/-- The value of a key, or another one where the key is missing. -/
def attributeOr (es : List (Value × Value)) (key : String) (d : Value) : Value :=
  (Value.get? es key).getD d

/-- Marks a name as one. -/
def identifier (v : Value) : Value :=
  .tagged "identifier" v

/-- Marks a name as one, where there is a name. -/
def identifierIf (v : Value) : Value :=
  if v.isTruthy then identifier v else .null

/-! ## Nodes -/

/-- The tree of a type: a mapping with one key is a type of the kind that the key names. -/
def typeNode : Value → Except Fault Value
  | .dict [(kind, v)] =>
    if kind.same (.text "array") then do
      let member ← typeNode v
      .ok (.tagged "array" member)
    else .ok (.tuple [kind, v])
  | .loop _ => .error .endless
  | v => .ok v

/-- The tree of a column. -/
def columnNode (v : Value) : Except Fault Value := do
  let name ← required v "name"
  let es ← attributes v
  let type ← typeNode (Value.getD es "type")
  let checks ← listOf es "check_constraints"
  .ok (.tagged "column" (.list [
    identifier name,
    .tagged "type" type,
    .tagged "meta" (.dict [
      (.text "nullable", attributeOr es "nullable" (.bool true)),
      (.text "default", Value.getD es "default"),
      (.text "primary_key", attributeOr es "primary_key" (.bool false)),
      (.text "check_constraints", .list checks)])]))

/-- The tree of a foreign key. -/
def foreignKeyNode (v : Value) : Except Fault Value := do
  let es ← attributes v
  let columns ← listOf es "columns"
  let table ← required v "references_table"
  let targets ← listOf es "references_columns"
  .ok (.tagged "foreign_key" (.list [
    identifierIf (Value.getD es "name"),
    .list (columns.map identifier),
    identifier table,
    .list (targets.map identifier),
    .tagged "meta" (.dict [
      (.text "on_delete", Value.getD es "on_delete"),
      (.text "on_update", Value.getD es "on_update")])]))

/-- The tree of an index. -/
def indexNode (v : Value) : Except Fault Value := do
  let name ← required v "name"
  let es ← attributes v
  let columns ← listOf es "columns"
  .ok (.tagged "index" (.list [
    identifier name,
    .list (columns.map identifier),
    .tagged "meta" (.dict [
      (.text "unique", attributeOr es "unique" (.bool false)),
      (.text "type", identifierIf (Value.getD es "type")),
      (.text "where_clause", Value.getD es "where_clause")])]))

/-- The tree of a described table. -/
def tableNode (name description : Value) : Except Fault Value := do
  let es ← attributes description
  let columns ← (← listOf es "columns").mapM columnNode
  let foreignKeys ← (← listOf es "foreign_keys").mapM foreignKeyNode
  let indices ← (← listOf es "indices").mapM indexNode
  .ok (.tagged "table"
    (.list [identifier name, .list columns, .list foreignKeys, .list indices]))

/-! ## Tables -/

/-- The names of the described tables, in order. -/
def names (s : Snapshot) : Except Fault (List Value) := do
  let es ← attributes s.tables
  .ok (es.map (·.1))

/-- A table that is not described. -/
def notFound (name : Value) : Fault :=
  .about name.plain (.introspection · "table not found in snapshot")

/-- The tree of a table. -/
def table (s : Snapshot) (name : Value) : Except Fault Value := do
  let es ← attributes s.tables
  if name.isKey then
    match (Value.find? es name).getD .null with
    | .null => .error (notFound name)
    | description => tableNode name description
  else .error .wrongKind

/-- The built table of a name. -/
def built (s : Snapshot) (name : Value) : Except Fault Table := do
  let tree ← s.table name
  Table.build tree (.dialect s.dialect)

/-- The schema of a table; `bare` is what becomes of a document without a default. -/
def schema (s : Snapshot) (bare name : Value) : Except Fault Schema := do
  let t ← s.built name
  Schema.ofTable bare t

/-! ## Reading -/

/-- The data of a file names its dialect. -/
def hasDialect : Value → Except Fault Bool
  | .dict es => .ok (Value.get? es "dialect").isSome
  | v =>
    match v.word? with
    | some s => .ok (Text.holds "dialect".toList s.toList)
    | none =>
      match v with
      | .list xs => .ok (xs.any fun x => x.same (.text "dialect"))
      | .set xs => .ok (xs.any fun x => x.same (.text "dialect"))
      | _ => .error .wrongKind

/-- A value that has a number of items, or that counts as missing. -/
def isSized (v : Value) : Bool :=
  !v.isTruthy || v.items?.isSome

/-- The snapshot of the data of a file. -/
def ofData (path : String) (data : Value) : Except Fault Snapshot := do
  let data := data.orElse (.dict [])
  if ← hasDialect data then
    let es ← attributes data
    let tables := Value.getD es "tables"
    if isSized tables then ofTables tables (Value.getD es "dialect") else .error .wrongKind
  else .error (.introspection path "snapshot has no dialect")

/-- The snapshot of the text of a file. A malformed text is a fault that names the file. -/
def ofText (path text : String) : Except Fault Snapshot :=
  match Yaml.load text with
  | .ok data => ofData path data
  | .error (.syntaxError c) => .error (.snapshotSyntax path c)
  | .error f => .error f

end Snapshot

end Schemata
