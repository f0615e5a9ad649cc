/-
From the description of a table to its schema.

A schema is made of a described table without losing anything that was said, and without
changing an order: its fields are the columns, its keys and indices hold these fields. The
description is followed to the table in `exists_built`; here the table is followed to the
schema (`renders_compile`). Keys and indices are looked up by name, which gives back the
columns that were named because the names are distinct.

Two things are not rendered. An index without a method and one with a blank method are not
told apart. And a number of too many digits is neither read as a default, nor written as that
of an enumeration, so that there is no schema at all.
-/
import Mathlib
import Schemata.Proofs.Schema.WellFormed
import Schemata.Proofs.Snapshot.Description
import Schemata.Proofs.Table.Number

namespace Schemata

open Snapshot

/-! ## What a schema renders -/

namespace Snapshot

/-- A field has the attributes of a column. -/
structure ColumnData.Renders (c : ColumnData) (foreign : Bool) (f : Field) : Prop where
  name : f.name = c.name
  nullable : f.facts.nullable = some c.nullable
  primaryKey : f.facts.primaryKey = some c.primaryKey
  checks : f.facts.checks = some c.checks
  foreignKey : f.facts.foreignKey = some foreign

/-- A foreign key of a schema is over the first column, and refers to the first target if
there is one. -/
structure ForeignKeyData.Renders (k : ForeignKeyData) (key : Schema.ForeignKey) : Prop where
  column : k.columns.head? = some key.field
  table : key.table = k.table
  target : key.target = k.targets.head?

/-- An index of a schema is over fields of the schema, in the order of the columns. -/
structure IndexData.Renders (i : IndexData) (fields : List Field) (index : Schema.Index) :
    Prop where
  name : index.name = i.name
  unique : index.unique = i.unique
  method : index.method = i.method.filter (· != "")
  columns : index.fieldNames = i.columns
  fields : index.fields ⊆ fields

/-- The names of the columns of the primary key. -/
def TableData.keyNames (t : TableData) : List String :=
  (t.columns.filter (·.primaryKey)).map (·.name)

/-- A schema renders what is said of a table. -/
structure TableData.Renders (t : TableData) (name : String) (s : Schema) : Prop where
  source : s.source = name
  fields : List.Forall₂ (fun c f => c.Renders (t.isForeign c.name) f) t.columns s.fields
  key : s.primaryKey.map (·.fieldNames) = if t.keyNames = [] then none else some t.keyNames
  keyFields : ∀ k ∈ s.primaryKey, k.fields ⊆ s.fields
  foreignKeys : List.Forall₂ ForeignKeyData.Renders t.foreignKeys s.foreignKeys
  indices : List.Forall₂ (fun i index => i.Renders s.fields index) t.indices s.indices

section Compile

variable {t : TableData} {name : String} {table : Table} {r : TypeMapping.Rules}

theorem TableData.Tells.columnNames (h : t.Tells name table) :
    table.columns.map (·.name) = t.columnNames := by
  have names := List.forall₂_map_left_iff.2 (List.forall₂_map_right_iff.2
    (h.columns.imp fun c column ⟨tells, _⟩ => tells.name.symm))
  exact (List.forall₂_eq_eq_eq ▸ names).symm

/-- The marked columns of a table are the marked ones of its description. -/
theorem names_marked {cs : List ColumnData} {columns : List Column}
    {Q : ColumnData → Column → Prop}
    (h : List.Forall₂ (fun c column => c.Tells column ∧ Q c column) cs columns) :
    (columns.filter (·.primaryKey)).map (·.name) =
      (cs.filter (·.primaryKey)).map (·.name) := by
  induction h with
  | nil => rfl
  | @cons c column _ _ head _ ih =>
    obtain ⟨tells, -⟩ := head
    rw [List.filter_cons, List.filter_cons, tells.primaryKey]
    split
    · rw [List.map_cons, List.map_cons, ih, tells.name]
    · exact ih

theorem TableData.Tells.keyNames (h : t.Tells name table) :
    table.primaryKey.map (·.name) = t.keyNames :=
  names_marked h.columns

theorem compile_foreignKeys {ks : List ForeignKeyData} {keys : List Table.ForeignKey}
    (h : List.Forall₂ ForeignKeyData.Tells ks keys) (nonempty : ∀ k ∈ ks, k.columns ≠ []) :
    List.Forall₂ ForeignKeyData.Renders ks (keys.filterMap Schema.compileForeignKey) := by
  induction h with
  | nil => exact .nil
  | @cons k key ks keys head _ ih =>
    have rest := ih fun k hk => nonempty k (.tail _ hk)
    -- A key over a column is not left out, so that the two lists stay in step.
    obtain ⟨column, others, own⟩ := List.exists_cons_of_ne_nil (nonempty k (.head _))
    have first : k.columns.head? = some column := own ▸ List.head?_cons
    have compiled : Schema.compileForeignKey key =
        some { field := column, table := k.table, target := k.targets.head? } := by
      rw [Schema.compileForeignKey, head.columns, first, head.table, head.targets,
        Option.map_some]
    rw [List.filterMap_cons, compiled]
    exact .cons ⟨first, rfl, rfl⟩ rest

theorem compileIndex_renders {i : IndexData} {index : Table.Index} {fields : List Field}
    (h : i.Tells index) (named : i.columns ⊆ fields.map (·.name)) :
    i.Renders fields (Schema.compileIndex fields index) where
  name := h.name
  unique := h.unique
  method := h.method
  columns := by
    rw [Schema.Index.fieldNames, Schema.compileIndex, h.columns]
    exact Schema.names_lookUp named
  fields := fun _ hf => Schema.lookUp_subset hf

/-- The schema of a table that has what is said of it renders what is said. -/
theorem renders_compile (h : t.Tells name table) (distinct : t.columnNames.Nodup)
    (nonempty : ∀ k ∈ t.foreignKeys, k.columns ≠ [])
    (indexed : ∀ i ∈ t.indices, i.columns ⊆ t.columnNames) :
    t.Renders name (Schema.compile r table) where
  source := h.name
  fields := List.forall₂_map_right_iff.2 <| h.columns.imp fun c column ⟨tells, foreign⟩ =>
    ⟨tells.name, congrArg some tells.nullable, congrArg some tells.primaryKey,
      congrArg some tells.checks, congrArg some foreign⟩
  key := by
    rw [← h.keyNames]
    exact Schema.names_compileKey (h.columnNames ▸ distinct) fun _ => List.mem_of_mem_filter
  keyFields := fun _ hk _ hf => Schema.compile_key_mem hk hf
  foreignKeys := compile_foreignKeys h.foreignKeys nonempty
  indices := by
    have named : (table.columns.map (·.toField r)).map (·.name) = t.columnNames := by
      rw [Schema.names_fields, h.columnNames]
    have each := (List.forall₂_and_left _ _).2 ⟨indexed, h.indices⟩
    exact List.forall₂_map_right_iff.2 <| each.imp fun i index ⟨own, tells⟩ =>
      compileIndex_renders tells (named ▸ own)

end Compile

/-! ## From description to schema -/

/-- The schema of a described table is compiled of a table that has what is said of it. -/
theorem exists_compiled {s : Snapshot} {name : String} {t : TableData}
    (h : s.Describes name t)
    {bare : Value} (type : bare = .null ∨ ∃ n, bare = .text n) :
    ∃ table r, s.schema bare (.text name) = .ok (Schema.compile r table) ∧
      t.Tells name table := by
  obtain ⟨table, built, tells, short⟩ := exists_built h
  obtain ⟨r, compiled⟩ := Schema.ofTable_eq_ok type short
  exact ⟨table, r, by rw [schema, built, ok_bind, compiled], tells⟩

/-- A described table has a schema, and the schema renders what is said of it. -/
theorem schema_renders {s : Snapshot} {name : String} {t : TableData} (h : s.Describes name t)
    {bare : Value} (type : bare = .null ∨ ∃ n, bare = .text n) :
    ∃ schema, s.schema bare (.text name) = .ok schema ∧ t.Renders name schema := by
  obtain ⟨table, r, made, tells⟩ := exists_compiled h type
  obtain ⟨tables, es, -, -, described⟩ := h
  exact ⟨Schema.compile r table, made,
    renders_compile tells described.distinct described.nonempty described.indexColumns⟩

/-! ### A table of seats -/

/-- The columns of the table; the first one has a default. -/
def seatsColumns (default : Value) : Value :=
  .list [
    .dict [(.text "name", .text "row"), (.text "type", .text "integer"),
      (.text "default", default), (.text "primary_key", .bool true)],
    .dict [(.text "name", .text "number"), (.text "primary_key", .bool true),
      (.text "check_constraints", .ofTexts ["number > 0"])],
    .dict [(.text "name", .text "holder"), (.text "nullable", .bool false)]]

/-- Its foreign key. -/
def seatsForeignKeys : Value :=
  .list [.dict [
    (.text "columns", .ofTexts ["holder"]), (.text "references_table", .text "people"),
    (.text "references_columns", .ofTexts ["id"])]]

/-- Its index, by a method. -/
def seatsIndices (method : Option String) : Value :=
  .list [.dict [
    (.text "name", .text "seats_by_holder"), (.text "columns", .ofTexts ["holder", "row"]),
    (.text "unique", .bool true), (.text "type", .ofOption method)]]

/-- The description of the table. -/
def seatsEntries (default : Value) (method : Option String) : List (Value × Value) := [
  (.text "columns", seatsColumns default), (.text "foreign_keys", seatsForeignKeys),
  (.text "indices", seatsIndices method)]

/-- A snapshot of the table. -/
def seats (default : Value) (method : Option String) : Snapshot where
  tables := .dict [(.text "seats", .dict (seatsEntries default method))]
  dialect := .postgres

/-- What is said of the table. -/
def seatsData (method : Option String) : TableData where
  columns := [⟨"row", true, true, []⟩, ⟨"number", true, true, ["number > 0"]⟩,
    ⟨"holder", false, false, []⟩]
  foreignKeys := [⟨["holder"], "people", ["id"]⟩]
  indices := [⟨"seats_by_holder", ["holder", "row"], true, method⟩]

section Seats

variable (default : Value) (method : Option String)

theorem get?_seats :
    Value.get? [(.text "seats", .dict (seatsEntries default method))] "seats" =
    some (.dict (seatsEntries default method)) := by
  simp [Value.get?_cons, Value.word?]

theorem getD_seatsEntries :
    Value.getD (seatsEntries default method) "columns" = seatsColumns default ∧
    Value.getD (seatsEntries default method) "foreign_keys" = seatsForeignKeys ∧
    Value.getD (seatsEntries default method) "indices" = seatsIndices method := by
  simp [seatsEntries, Value.getD, Value.get?_cons, Value.word?]

theorem isDefault_null (type : Value) : IsDefault .postgres type .null :=
  ⟨rfl, ⟨.null, rfl⟩, fun _ _ => rfl⟩

variable {default} in
theorem describes_seats (h : IsDefault .postgres (.text "integer") default) :
    (seats default method).Describes "seats" (seatsData method) := by
  obtain ⟨columns, foreignKeys, indices⟩ := getD_seatsEntries default method
  have dialect : (seats default method).dialect = .postgres := rfl
  refine ⟨_, _, rfl, get?_seats default method, {
    columns := ⟨_, by rw [columns]; rfl, .cons ⟨_, rfl, ?_⟩ (.cons ⟨_, rfl, ?_⟩
      (.cons ⟨_, rfl, ?_⟩ .nil))⟩
    foreignKeys :=
      ⟨_, by rw [foreignKeys]; rfl, .cons ⟨_, rfl, ⟨none, ?_⟩, ?_, ?_, ?_, ⟨none, ?_⟩,
      none, ?_⟩ .nil⟩
    indices := ⟨_, by rw [indices]; rfl, .cons ⟨_, rfl, ?_, ?_, ?_, ?_, none, ?_⟩ .nil⟩
    distinct := by simp [seatsData, TableData.columnNames]
    nonempty := by simp [seatsData]
    indexColumns := by simp [seatsData, TableData.columnNames] }⟩
  all_goals simp [Lists, MayName, attributeOr, Value.getD, Value.get?_cons, Value.word?,
    Value.orElse, Value.isTruthy, Value.ofTexts, Value.ofOption, IsType.name,
    IsType.none, dialect, h,
    isDefault_null]

end Seats

/-- The table has a schema: there is a default of its first column, and its index has a
method. -/
theorem schema_renders_seats : ∃ schema,
    (seats (.text "1") (some "btree")).schema (.text "map") (.text "seats") = .ok schema ∧
    (seatsData (some "btree")).Renders "seats" schema :=
  schema_renders (describes_seats (some "btree") ⟨rfl, ⟨.int 1, rfl⟩, fun _ _ => rfl⟩)
    (.inr ⟨"map", rfl⟩)

/-! ## What is not rendered -/

/-- A snapshot of a table of one column, of which nothing is said but its default. -/
def rows (default : Value) : Snapshot where
  tables := .dict [(.text "rows", .dict [(.text "columns", .list [.dict [
    (.text "name", .text "row"), (.text "default", default)]])])]
  dialect := .postgres

theorem table_rows (default : Value) : (rows default).table (.text "rows") =
    .ok (.tagged "table" (.list [identifier (.text "rows"),
      .list [ColumnData.tree ⟨"row", true, false, []⟩ .null default], .list [],
      .list []])) := by
  simp [Snapshot.table, rows, attributes, Value.find?, Value.same_text,
    Value.isKey, tableNode, listOf, Value.getD, Value.get?_cons, Value.word?, Value.orElse,
    Value.isTruthy, items_list, columnNode, required, typeNode, attributeOr, ColumnData.tree,
    ColumnData.flags, Value.ofTexts]

/-- Where its default is a number of too many digits, the table has no schema. -/
theorem schema_rows_digits {ds : List Char} (h : Text.AllDigits ds)
    (long : Text.maxDigits < ds.length) (bare : Value) :
    (rows (.text (String.ofList ds))).schema bare (.text "rows") = .error .badValue := by
  have found :
      Registry.find (.dialect (rows (.text (String.ofList ds))).dialect) = .ok .postgres :=
    rfl
  have refused :
      Table.plainDefault (some .postgres) (.text (String.ofList ds)) = .error .badValue :=
    Table.plainDefault_digits .postgres h long
  rw [schema, built, table_rows, ok_bind, Table.build, found, ok_bind, Table.visit_table,
    Table.tablePart_list, Table.listComponent_list, Table.visit_list, List.mapM_cons,
    ColumnData.visit_tree _ _ rfl, refused, identifier, Table.visit_identifier]
  rfl

/-- A snapshot of a table whose one column is an enumeration with a whole number as its
default. -/
def levels (n : Int) : Snapshot where
  tables := .dict [(.text "levels", .dict [(.text "columns", .list [.dict [
    (.text "name", .text "level"),
    (.text "type", .dict [(.text "enum", .ofTexts ["low", "high"])]),
    (.text "default", .int n)]])])]
  dialect := .postgres

theorem built_levels (n : Int) :
    (levels n).built (.text "levels") = .ok (Schema.levelsTable n) := by
  cbv

/-- Where the default is too long to be written, the table has no schema. -/
theorem schema_levels_long {bare : Value} (type : bare = .null ∨ ∃ n, bare = .text n) :
    (levels (10 ^ Text.maxDigits)).schema bare (.text "levels") = .error .badValue := by
  rw [schema, built_levels, ok_bind,
    Schema.ofTable_eq_error type Schema.hasLongDefault_levels]

/-- A blank method of an index is not in the schema; and there is no schema where a default is
a number of too many digits, given as a text, or as a number to an enumeration. -/
theorem not_rendered_blankMethod :
    ((seats .null (some "")).Describes "seats" (seatsData (some "")) ∧
      (seatsData (some "")).indices.map (·.method) = [some ""] ∧
      ∃ schema, (seats .null (some "")).schema (.text "map") (.text "seats") = .ok schema ∧
        schema.indices.map (·.method) = [none]) ∧
    (rows (.text (String.ofList (List.replicate 4301 '9')))).schema (.text "map")
    (.text "rows") =
      .error .badValue ∧
    (levels (10 ^ Text.maxDigits)).schema (.text "map") (.text "levels") =
      .error .badValue := by
  have described := describes_seats (some "") (isDefault_null (.text "integer"))
  refine ⟨⟨described, rfl, ?_⟩, ?_, schema_levels_long (.inr ⟨"map", rfl⟩)⟩
  · obtain ⟨table, r, made, tells⟩ := exists_compiled described (.inr ⟨"map", rfl⟩)
    refine ⟨Schema.compile r table, made, ?_⟩
    obtain ⟨index, others, own, none, same⟩ := List.forall₂_cons_left_iff.1 tells.indices
    rw [Schema.compile, same, List.forall₂_nil_left_iff.1 none, List.map_singleton,
      List.map_singleton, Schema.compileIndex, own.method]
    rfl
  · have digits : Text.AllDigits (List.replicate 4301 '9') := fun c hc => by
      rw [List.eq_of_mem_replicate hc]
      decide
    have long : Text.maxDigits < (List.replicate 4301 '9').length := by
      rw [List.length_replicate]
      decide
    exact schema_rows_digits digits long _

end Snapshot

end Schemata
