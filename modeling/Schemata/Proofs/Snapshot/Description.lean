/-
What the description of a table says.

A description is plain data, and what it says of a table is kept apart from it here:
`TableData` holds the names, flags and columns, and the predicates relate them to the entries
of a description, whatever their order and whatever else is among them. Each kind of node is
followed through the tree to the part that is built of it: `exists_visit_column`,
`exists_visit_foreignKey` and `exists_visit_index`. A table is then built of its parts, and no
step from the description to the table fails (`exists_built`).
-/
import Mathlib
import Schemata.Proofs.Schema.Compiled
import Schemata.Proofs.Schema.TypeMapping
import Schemata.Proofs.Table.Number
import Schemata.Proofs.Table.Visit
import Schemata.Snapshot

namespace Schemata

/-! ## What descriptions say -/

namespace Snapshot

/-- What is said of a column. -/
structure ColumnData where
  name : String
  nullable : Bool
  primaryKey : Bool
  checks : List String

/-- What is said of a foreign key. -/
structure ForeignKeyData where
  columns : List String
  table : String
  targets : List String

/-- What is said of an index. -/
structure IndexData where
  name : String
  columns : List String
  unique : Bool
  method : Option String

/-- What is said of a table. -/
structure TableData where
  columns : List ColumnData
  foreignKeys : List ForeignKeyData
  indices : List IndexData

/-- The names of the columns. -/
def TableData.columnNames (t : TableData) : List String :=
  t.columns.map (·.name)

/-- A foreign key is over the column. -/
def TableData.isForeign (t : TableData) (column : String) : Bool :=
  t.foreignKeys.any (·.columns.contains column)

/-! ### How it is written -/

/-- A list of texts that may be missing. -/
def Lists (es : List (Value × Value)) (key : String) (texts : List String) : Prop :=
  (Value.getD es key).orElse (.list []) = .ofTexts texts

/-- A text that may be missing. -/
def MayName (es : List (Value × Value)) (key : String) (text : Option String) : Prop :=
  Value.getD es key = .ofOption text

/-- A type: a name, the words of an enumeration, or the type of the members of an array. -/
inductive IsType : Value → Prop
  | none : IsType .null
  | name (s : String) : IsType (.text s)
  | enum (words : List String) : IsType (.dict [(.text "enum", .ofTexts words)])
  | array {v : Value} (h : IsType v) : IsType (.dict [(.text "array", v)])

/-- The type of an enumeration, or of an array over one. -/
inductive IsEnumeration : Value → Prop
  | enum (words : List String) : IsEnumeration (.dict [(.text "enum", .ofTexts words)])
  | array {v : Value} (h : IsEnumeration v) : IsEnumeration (.dict [(.text "array", v)])

/-- A default that the rules of a dialect can read: no text that is a number too long to be
read. A default is data and no node. Postgres writes the default of an enumeration as a text,
and no number in it may be too long for that. -/
structure IsDefault (d : Dialect) (type v : Value) : Prop where
  alone : v.tagged? = none
  reads : ∃ x, Table.plainDefault (some d) v = .ok x
  written : d = .postgres → IsEnumeration type → v.hasLongInt = false

/-- A value describes a column. -/
def IsColumn (d : Dialect) (c : ColumnData) (v : Value) : Prop :=
  ∃ es, v = .dict es ∧
    Value.get? es "name" = some (.text c.name) ∧
    IsType (Value.getD es "type") ∧
    attributeOr es "nullable" (.bool true) = .bool c.nullable ∧
    IsDefault d (Value.getD es "type") (Value.getD es "default") ∧
    attributeOr es "primary_key" (.bool false) = .bool c.primaryKey ∧
    Lists es "check_constraints" c.checks

/-- A value describes a foreign key. -/
def IsForeignKey (k : ForeignKeyData) (v : Value) : Prop :=
  ∃ es, v = .dict es ∧
    (∃ name, MayName es "name" name) ∧
    Lists es "columns" k.columns ∧
    Value.get? es "references_table" = some (.text k.table) ∧
    Lists es "references_columns" k.targets ∧
    (∃ action, MayName es "on_delete" action) ∧
    ∃ action, MayName es "on_update" action

/-- A value describes an index. -/
def IsIndex (i : IndexData) (v : Value) : Prop :=
  ∃ es, v = .dict es ∧
    Value.get? es "name" = some (.text i.name) ∧
    Lists es "columns" i.columns ∧
    attributeOr es "unique" (.bool false) = .bool i.unique ∧
    MayName es "type" i.method ∧
    ∃ condition, MayName es "where_clause" condition

/-- A list that may be missing, each item of which describes something. -/
def Describe {α : Type} (describes : α → Value → Prop) (es : List (Value × Value))
    (key : String)
    (xs : List α) : Prop :=
  ∃ vs, (Value.getD es key).orElse (.list []) = .list vs ∧ List.Forall₂ describes xs vs

/-- A value describes a table, whose columns have names of their own. Its foreign keys are
over one column at least, and its indices are over its columns. -/
structure IsTable (d : Dialect) (t : TableData) (es : List (Value × Value)) : Prop where
  columns : Describe (IsColumn d) es "columns" t.columns
  foreignKeys : Describe IsForeignKey es "foreign_keys" t.foreignKeys
  indices : Describe IsIndex es "indices" t.indices
  distinct : t.columnNames.Nodup
  nonempty : ∀ k ∈ t.foreignKeys, k.columns ≠ []
  indexColumns : ∀ i ∈ t.indices, i.columns ⊆ t.columnNames

/-- A snapshot describes a table under a name. -/
def Describes (s : Snapshot) (name : String) (t : TableData) : Prop :=
  ∃ tables es, s.tables = .dict tables ∧ Value.get? tables name = some (.dict es) ∧
    IsTable s.dialect t es

/-! ## Lists of names -/

theorem items_list (xs : List Value) : (Value.list xs).items = .ok xs := rfl

theorem listOf_of_lists {es : List (Value × Value)} {key : String} {texts : List String}
    (h : Lists es key texts) : listOf es key = .ok (texts.map .text) := by
  rw [listOf, h, Value.ofTexts, items_list]

theorem listOf_of_describe {α : Type} {describes : α → Value → Prop}
    {es : List (Value × Value)} {key : String} {xs : List α}
    (h : Describe describes es key xs) :
    ∃ vs, listOf es key = .ok vs ∧ List.Forall₂ describes xs vs := by
  obtain ⟨vs, list, described⟩ := h
  exact ⟨vs, by rw [listOf, list, items_list], described⟩

end Snapshot

namespace Table

open Value (tagged)

variable {r : Rules}

theorem visit_ofOption (o : Option String) :
    visit r (.ofOption o) = .ok (.value (.ofOption o)) := by
  cases o with
  | none => exact visit_leaf rfl (by simp [Value.ofOption])
  | some s => exact visit_text s

/-- The names of a node are visited one by one. -/
theorem visit_names (names : List String) :
    visit r (.list ((names.map Value.text).map Snapshot.identifier)) =
      .ok (.items (names.map fun n => .value (.text n))) := by
  rw [visit_list, List.map_map, List.mapM_map,
    mapM_eq_ok_map (g := fun n => Part.value (.text n)), ok_bind]
  intro n _
  exact visit_identifier (.text n)

theorem toValue_texts (texts : List String) :
    (Part.items (texts.map fun n => .value (.text n))).toValue = .ofTexts texts := by
  rw [Part.toValue, Value.ofTexts]
  induction texts with
  | nil => rfl
  | cons n texts ih =>
    rw [List.map_cons, Part.toValues, Part.toValue, Value.list.inj ih, List.map_cons]

theorem nameOf_text (n : String) : nameOf (.value (.text n)) = .ok n := by
  rw [nameOf, Part.toValue, Value.plain_text]

theorem namesOf_names (names : List String) :
    namesOf (.items (names.map fun n => .value (.text n))) = .ok names := by
  simp only [namesOf, partsOf, Part.parts?, ok_bind, List.mapM_map]
  exact (mapM_eq_ok_map fun n _ => nameOf_text n).trans (congrArg _ names.map_id)

/-- A list of texts is visited as it is. -/
theorem visitEntry_texts (key : Value) (texts : List String) :
    visitEntry r (key, .ofTexts texts) = .ok (key, .ofTexts texts) := by
  have visited :
      visit r (.ofTexts texts) = .ok (.items (texts.map fun n => .value (.text n))) := by
    rw [Value.ofTexts, visit_list, List.mapM_map,
      mapM_eq_ok_map (g := fun n => Part.value (.text n)), ok_bind]
    exact fun n _ => visit_text n
  rw [visitEntry, visited, ok_bind, toValue_texts]

theorem visitEntry_leaf {v : Value} (key : Value) (h : visit r v = .ok (.value v)) :
    visitEntry r (key, v) = .ok (key, v) := by
  rw [visitEntry, h, ok_bind, Part.toValue]

end Table

namespace Snapshot

open Table
open Value (tagged)

variable {d : Dialect}

theorem enumWords_ofTexts (words : List String) : enumWords (.ofTexts words) = .ok words := by
  cases words with
  | nil => rfl
  | cons w words =>
    simp only [enumWords, Value.ofTexts, Value.isTruthy, items_list, ok_bind]
    exact Value.mapM_plain_text (w :: words)

/-- A type has a tree, and its tree is read as a type. To Postgres it is an enumeration only
if it is described as one. -/
theorem exists_typePart {v : Value} (h : IsType v) : ∃ node, typeNode v = .ok node ∧
    ∃ p t, typePart (some d) node = .ok p ∧ p.toValue.type? = some t ∧
      (d = .postgres → TypeMapping.isEnumeration t = true → IsEnumeration v) := by
  have sqlite (v : Value) :
      ∃ p t, typePart (some .sqlite) v = .ok p ∧ p.toValue.type? = some t := by
    refine ⟨_, Sqlite.typeOf v, by rw [typePart], ?_⟩
    rw [Part.toValue, type?_toValue]
  have postgres {v : Value} (alone : v.tagged? = none)
      (other : TypeMapping.isEnumeration (Postgres.typeOf v) = false) :
      ∃ p t, typePart (some .postgres) v = .ok p ∧ p.toValue.type? = some t ∧
        (Dialect.postgres = .postgres → TypeMapping.isEnumeration t = true →
          IsEnumeration v) := by
    refine ⟨_, Postgres.typeOf v, by rw [typePart, alone], ?_, fun _ enumeration => ?_⟩
    · rw [Part.toValue, type?_toValue]
    · rw [other] at enumeration
      cases enumeration
  -- One dialect takes a type as it is, whatever it is; the other one visits its nodes.
  cases d with
  | sqlite =>
    obtain ⟨node, named⟩ : ∃ node, typeNode v = .ok node := by
      induction h with
      | none => exact ⟨.null, rfl⟩
      | name s => exact ⟨.text s, rfl⟩
      | enum words =>
        exact ⟨tagged "enum" (.ofTexts words), by rw [typeNode, Value.same_text]; rfl⟩
      | array _ ih =>
        obtain ⟨node, named⟩ := ih
        exact ⟨tagged "array" node, by rw [typeNode, Value.same_text, named]; rfl⟩
    obtain ⟨p, t, read, type⟩ := sqlite node
    exact ⟨node, named, p, t, read, type, fun other => Dialect.noConfusion other⟩
  | postgres =>
    induction h with
    | none => exact ⟨.null, rfl, postgres rfl rfl⟩
    | name s =>
      exact ⟨.text s, rfl, postgres rfl (TypeMapping.isEnumeration_normalizeType s)⟩
    | enum words =>
      refine ⟨tagged "enum" (.ofTexts words), by rw [typeNode, Value.same_text]; rfl, ?_⟩
      refine ⟨.value (.type (.enum words)), .enum words, ?_, ?_, fun _ _ => .enum words⟩
      · rw [typePart_of_tagged rfl, visit_known (t := .enum) rfl, handle.eq_def]
        simp only [enumWords_ofTexts, ok_bind]
      · rw [Part.toValue, Value.type?_type]
    | array _ ih =>
      obtain ⟨node, named, p, t, read, type, own⟩ := ih
      refine ⟨tagged "array" node, by rw [typeNode, Value.same_text, named]; rfl, ?_⟩
      refine ⟨.value (.type (.array t)), .array t, ?_, ?_,
        fun d member => .array (own d member)⟩
      · rw [typePart_of_tagged rfl, visit_known (t := .array) rfl, handle.eq_def]
        simp only [read, type, ok_bind, Value.require]
      · rw [Part.toValue, Value.type?_type]

/-! ## Columns -/

/-- A column has the attributes that are said of it. -/
structure ColumnData.Tells (c : ColumnData) (column : Column) : Prop where
  name : column.name = c.name
  nullable : column.nullable = c.nullable
  primaryKey : column.primaryKey = c.primaryKey
  checks : column.checks = c.checks

theorem texts?_ofTexts (texts : List String) : (Value.ofTexts texts).texts? = some texts := by
  rw [Value.ofTexts, Value.texts?, Value.listOf?]
  induction texts with
  | nil => rfl
  | cons t texts ih => simp [ih]

/-- The flags in the tree of a column. -/
def ColumnData.flags (c : ColumnData) (default : Value) : List (Value × Value) := [
  (.text "nullable", .bool c.nullable), (.text "default", default),
  (.text "primary_key", .bool c.primaryKey), (.text "check_constraints", .ofTexts c.checks)]

/-- The flags but for the default. -/
def ColumnData.ownFlags (c : ColumnData) : List (Value × Value) := [
  (.text "nullable", .bool c.nullable), (.text "primary_key", .bool c.primaryKey),
  (.text "check_constraints", .ofTexts c.checks)]

theorem ColumnData.drop_flags (c : ColumnData) (default : Value) :
    Value.drop (c.flags default) "default" = c.ownFlags := by
  simp [flags, ownFlags, Value.drop, Value.same_text]

theorem ColumnData.getD_flags (c : ColumnData) (default : Value) :
    Value.getD (c.flags default) "default" = default := by
  simp [flags, Value.getD, Value.get?_cons, Value.word?]

theorem ColumnData.mapM_ownFlags (c : ColumnData) :
    c.ownFlags.mapM (visitEntry (some d)) = .ok c.ownFlags := by
  simp only [ownFlags, List.mapM_cons, List.mapM_nil, visitEntry_texts,
    visitEntry_leaf _ (visit_bool _), ok_bind]
  rfl

/-- The flags of a column are read as they were said. -/
theorem ColumnData.columnOf_ownFlags (c : ColumnData) {p : Part} {t : FieldType}
    (type : p.toValue.type? = some t) (default : Value) :
    columnOf (.value (.text c.name)) p (Value.put c.ownFlags (.text "default") default) =
      .ok (.column {
        name := c.name, type := t, nullable :=
          c.nullable, default, primaryKey := c.primaryKey,
        checks := c.checks }) := by
  have words :
      ((Value.put c.ownFlags (.text "default") default).any fun e => e.1.word?.isNone) =
      false := by
    rw [Value.any_put]
    rfl
  rw [columnOf, words]
  simp [ownFlags, Value.withDefault, Value.get?_put, Value.get?_cons, Value.getD_put_self,
    Value.word?, Value.bool?, texts?_ofTexts, Part.toValue, type, Value.require]

/-- The tree of a column. -/
def ColumnData.tree (c : ColumnData) (type default : Value) : Value :=
  tagged "column" (.list [identifier (.text c.name), tagged "type" type,
    tagged "meta" (.dict (c.flags default))])

/-- What is visited of a column first is its default, but for flags that are never refused. -/
theorem ColumnData.visit_tree (c : ColumnData) (type : Value) {default : Value}
    (alone : default.tagged? = none) :
    visit (some d) (c.tree type default) = (do
      let x ← plainDefault (some d) default
      let p ← typeComponent (some d) (tagged "type" type)
      columnOf (.value (.text c.name)) p (Value.put c.ownFlags (.text "default") x)) := by
  have raw : rawFlags (tagged "meta" (.dict (c.flags default))) = .ok (c.flags default) := rfl
  rw [tree, visit_column, columnPart_list, raw, ok_bind, c.drop_flags,
    c.mapM_ownFlags, ok_bind, c.getD_flags, defaultComponent_of_plain alone, identifier,
    visit_identifier]
  rfl

/-- A column is as it was built: not marked yet, and with a default that can be written if it
has to be. -/
def IsOwn (d : Dialect) (column : Column) : Prop :=
  column.foreignKey = false ∧ (d = .postgres → ¬ column.HasLongDefault)

/-- What is described as a column is built as one. -/
theorem exists_visit_column {c : ColumnData} {v : Value} (h : IsColumn d c v) :
    ∃ tree, columnNode v = .ok tree ∧ ∃ column, visit (some d) tree = .ok (.column column) ∧
      c.Tells column ∧ IsOwn d column := by
  obtain ⟨es, rfl, name, type, nullable, default, key, checks⟩ := h
  obtain ⟨node, hnode, p, t, hp, ht, own⟩ := exists_typePart (d := d) type
  obtain ⟨x, hx⟩ := default.reads
  refine ⟨c.tree node (Value.getD es "default"), ?_,
    { name := c.name, type := t, nullable := c.nullable, default := x,
      primaryKey := c.primaryKey,
      checks := c.checks }, ?_, ⟨rfl, rfl, rfl, rfl⟩, rfl, ?_⟩
  · simp only [columnNode, required, name, attributes, ok_bind, hnode, listOf_of_lists checks,
      nullable, key]
    rfl
  · rw [c.visit_tree node default.alone, hx, ok_bind, typeComponent_of_tagged rfl,
      visit_type, hp, ok_bind]
    exact c.columnOf_ownFlags ht x
  · rintro rfl ⟨enumeration, long⟩
    have short := default.written rfl (own rfl enumeration)
    rw [← hasLongInt_parseDefault hx, long] at short
    cases short

/-! ## Foreign keys and indices -/

/-- A foreign key is over the columns that are said, and refers to what is said. -/
structure ForeignKeyData.Tells (k : ForeignKeyData) (key : Table.ForeignKey) : Prop where
  columns : key.columns = k.columns
  table : key.table = k.table
  targets : key.targets = k.targets

/-- A name that may be missing is visited to a name that may be missing; a blank name is
none. -/
theorem visit_identifierIf (o : Option String) :
    visit (some d) (identifierIf (.ofOption o)) =
      .ok (.value (.ofOption (o.filter (· != "")))) := by
  cases o with
  | none => exact visit_ofOption none
  | some s =>
    by_cases blank : s = ""
    · subst blank
      exact visit_ofOption none
    · have present : (Value.text s).isTruthy = true := by simpa [Value.isTruthy] using blank
      rw [identifierIf, Value.ofOption, if_pos present, identifier, visit_identifier,
        Option.filter_some_pos (by simpa using blank)]
      rfl

theorem optional_ofOption (o : Option String) :
    Value.optional Value.text? (.ofOption o) = some o := by
  cases o <;> rfl

/-- What is described as a foreign key is built as one. -/
theorem exists_visit_foreignKey {k : ForeignKeyData} {v : Value} (h : IsForeignKey k v) :
    ∃ tree, foreignKeyNode v = .ok tree ∧
      ∃ key, visit (some d) tree = .ok (.foreignKey key) ∧ k.Tells key := by
  obtain ⟨es, rfl, ⟨name, hname⟩, columns, table, targets, ⟨onDelete, hdelete⟩,
    ⟨onUpdate, hupdate⟩⟩ := h
  refine ⟨tagged "foreign_key" (.list [identifierIf (.ofOption name),
    .list ((k.columns.map .text).map identifier), identifier (.text k.table),
    .list ((k.targets.map .text).map identifier),
    tagged "meta" (.dict [(.text "on_delete", .ofOption onDelete),
      (.text "on_update", .ofOption onUpdate)])]), ?_, ?_⟩
  · simp only [foreignKeyNode, required, table, attributes, ok_bind, listOf_of_lists columns,
      listOf_of_lists targets]
    rw [hname, hdelete, hupdate]
  · have flags :
      visit (some d) (tagged "meta" (.dict [(.text "on_delete", .ofOption onDelete),
        (.text "on_update", .ofOption onUpdate)])) =
        .ok (.value (.dict [(.text "on_delete", .ofOption onDelete),
          (.text "on_update", .ofOption onUpdate)])) := by
      rw [visit_flags, flagsPart_dict]
      simp only [List.mapM_cons, List.mapM_nil, visitEntry_leaf _ (visit_ofOption _), ok_bind]
      rfl
    rw [visit_foreignKey, foreignKeyPart_list, flags, visit_identifierIf,
      visit_names, visit_names, identifier, visit_identifier]
    simp only [ok_bind, namesOf_names, Value.plain_text, nameOf_text]
    refine ⟨{
      name := name.filter (· != "")
      columns := k.columns
      table := k.table
      targets := k.targets
      onDelete := actionOf (.ofOption onDelete)
      onUpdate := actionOf (.ofOption onUpdate) }, ?_, ⟨rfl, rfl, rfl⟩⟩
    simp [foreignKeyOf, flagsOf, Part.toValue, Value.isTruthy, optional_ofOption,
      Value.require, Value.getD, Value.get?_cons, Value.word?]

/-- An index has the attributes that are said of it; a blank method is none. -/
structure IndexData.Tells (i : IndexData) (index : Table.Index) : Prop where
  name : index.name = i.name
  columns : index.columns = i.columns
  unique : index.unique = i.unique
  method : index.method = i.method.filter (· != "")

/-- What is described as an index is built as one. -/
theorem exists_visit_index {i : IndexData} {v : Value} (h : IsIndex i v) :
    ∃ tree, indexNode v = .ok tree ∧
      ∃ index, visit (some d) tree = .ok (.index index) ∧ i.Tells index := by
  obtain ⟨es, rfl, name, columns, unique, method, condition, hcondition⟩ := h
  refine ⟨tagged "index" (.list [identifier (.text i.name),
    .list ((i.columns.map .text).map identifier),
    tagged "meta" (.dict [(.text "unique", .bool i.unique),
      (.text "type", identifierIf (.ofOption i.method)),
      (.text "where_clause", .ofOption condition)])]), ?_, ?_⟩
  · simp only [indexNode, required, name, attributes, ok_bind,
      listOf_of_lists columns, unique]
    rw [method, hcondition]
  · have flags : visit (some d) (tagged "meta" (.dict [(.text "unique", .bool i.unique),
        (.text "type", identifierIf (.ofOption i.method)),
        (.text "where_clause", .ofOption condition)])) =
        .ok (.value (.dict [(.text "unique", .bool i.unique),
          (.text "type", .ofOption (i.method.filter (· != ""))),
          (.text "where_clause", .ofOption condition)])) := by
      rw [visit_flags, flagsPart_dict]
      simp only [List.mapM_cons, List.mapM_nil, visitEntry, visit_bool, visit_ofOption,
        visit_identifierIf, ok_bind, Part.toValue]
      rfl
    rw [visit_index, indexPart_list, flags, visit_names, identifier, visit_identifier]
    simp only [ok_bind, namesOf_names]
    refine ⟨{
      name := i.name
      columns := i.columns
      unique := i.unique
      method := i.method.filter (· != "")
      condition := condition }, ?_, ⟨rfl, rfl, rfl, rfl⟩⟩
    simp [indexOf, flagsOf, Part.toValue, Value.isTruthy, optional_ofOption, Value.require,
      Value.getD, Value.get?_cons, Value.word?]

/-! ## Tables -/

theorem mentioned_foreignKeys (keys : List Table.ForeignKey) :
    mentioned (keys.map .foreignKey) = .ok (keys.flatMap (·.columns)) := by
  induction keys with
  | nil => rfl
  | cons k keys ih => rw [List.map_cons, mentioned, ih]; rfl

/-- A column is marked if its name is among those of foreign keys. -/
def mark (names : List String) (c : Column) : Column :=
  if names.contains c.name then { c with foreignKey := true } else c

theorem marked_columns (names : List String) (columns : List Column) :
    marked names (columns.map .column) = .ok ((columns.map (mark names)).map .column) := by
  induction columns with
  | nil => rfl
  | cons c columns ih => rw [List.map_cons, marked, ih]; rfl

theorem columnsOf_columns (columns : List Column) :
    columnsOf (columns.map .column) = .ok columns := by
  induction columns with
  | nil => rfl
  | cons c columns ih => rw [List.map_cons, columnsOf, ih]; rfl

theorem mapM_as {α β : Type} {f : α → β} {g : β → Option α} (h : ∀ a, g (f a) = some a)
    (xs : List α) : (xs.map f).mapM g = some xs := by
  induction xs with
  | nil => rfl
  | cons x xs ih => simp [h, ih]

/-- A table of columns, foreign keys and indices that were built. -/
theorem tableOf_parts (name : String) (columns : List Column) (keys : List Table.ForeignKey)
    (indices : List Table.Index) :
    tableOf (some d) (.value (.text name)) (.items (columns.map .column))
      (.items (keys.map .foreignKey)) (.items (indices.map .index)) =
        .ok (.table ⟨name, d, columns.map (mark (keys.flatMap (·.columns))), keys,
          indices⟩) := by
  simp only [tableOf, partsOf, Part.parts?, ok_bind, mentioned_foreignKeys, marked_columns,
    columnsOf_columns, listed, Part.toValue, Value.text?_text]
  simp [mapM_as (f := Part.foreignKey) (g := asForeignKey) fun _ => rfl,
    mapM_as (f := Part.index) (g := asIndex) fun _ => rfl, Value.require]

theorem exists_map_of_forall₂ {α β γ : Type} {Q : α → γ → Prop} {g : γ → β} {xs : List α}
    {ps : List β} (h : List.Forall₂ (fun x p => ∃ y, p = g y ∧ Q x y) xs ps) :
    ∃ ys, ps = ys.map g ∧ List.Forall₂ Q xs ys := by
  induction h with
  | nil => exact ⟨[], rfl, .nil⟩
  | cons head _ ih =>
    obtain ⟨y, rfl, q⟩ := head
    obtain ⟨ys, rfl, qs⟩ := ih
    exact ⟨y :: ys, rfl, .cons q qs⟩

/-- A described list has a tree for each item, and what is described is built of the trees. -/
theorem exists_visit_list {α γ : Type} {describes : α → Value → Prop} {Q : α → γ → Prop}
    {node : Value → Except Fault Value} {g : γ → Part} {es : List (Value × Value)}
    {key : String}
    {xs : List α} (h : Describe describes es key xs)
    (item : ∀ x v, describes x v →
      ∃ tree, node v = .ok tree ∧ ∃ y, visit (some d) tree = .ok (g y) ∧ Q x y) :
    ∃ vs trees ys, listOf es key = .ok vs ∧ vs.mapM node = .ok trees ∧
      listComponent (some d) (.list trees) = .ok (.items (ys.map g)) ∧
        List.Forall₂ Q xs ys := by
  obtain ⟨vs, list, described⟩ := listOf_of_describe h
  obtain ⟨trees, made, read⟩ := exists_mapM_of_forall₂ described item
  obtain ⟨parts, visited, built⟩ := exists_mapM_of_forall₂ (f := visit (some d))
    (Q := fun x p => ∃ y, p = g y ∧ Q x y) read fun x tree ⟨y, hy, q⟩ => ⟨g y, hy, y, rfl, q⟩
  obtain ⟨ys, rfl, qs⟩ := exists_map_of_forall₂ built
  refine ⟨vs, trees, ys, list, made, ?_, qs⟩
  rw [listComponent_list, visit_list, visited, ok_bind]

/-- A table has what is said of it, in the order in which it is said. -/
structure TableData.Tells (t : TableData) (name : String) (table : Table) : Prop where
  name : table.name = name
  columns :
    List.Forall₂ (fun c column => c.Tells column ∧ column.foreignKey = t.isForeign c.name)
    t.columns table.columns
  foreignKeys : List.Forall₂ ForeignKeyData.Tells t.foreignKeys table.foreignKeys
  indices : List.Forall₂ IndexData.Tells t.indices table.indices

theorem contains_flatMap {ks : List ForeignKeyData} {keys : List Table.ForeignKey}
    (h : List.Forall₂ ForeignKeyData.Tells ks keys) (name : String) :
    (keys.flatMap (·.columns)).contains name = ks.any (·.columns.contains name) := by
  induction h with
  | nil => rfl
  | cons head _ ih =>
    rw [List.flatMap_cons, List.any_cons, ← ih, head.columns]
    simp

theorem mark_hasLongDefault (names : List String) (c : Column) :
    (mark names c).HasLongDefault ↔ c.HasLongDefault := by
  unfold mark
  split <;> rfl

theorem mark_tells {c : ColumnData} {column : Column} (h : c.Tells column)
    (unmarked : column.foreignKey = false) (names : List String) :
    c.Tells (mark names column) ∧ (mark names column).foreignKey = names.contains c.name := by
  unfold mark
  rw [h.name]
  split
  · rename_i found
    exact ⟨⟨rfl, h.nullable, h.primaryKey, h.checks⟩, found.symm⟩
  · rename_i missing
    exact ⟨h, unmarked.trans (by simpa using missing)⟩

/-- A described table is built, and has what is said of it. All its defaults can be
written. -/
theorem exists_built {s : Snapshot} {name : String} {t : TableData} (h : s.Describes name t) :
    ∃ table, s.built (.text name) = .ok table ∧ t.Tells name table ∧
      ¬ table.HasLongDefault := by
  obtain ⟨tables, es, htables, found, described⟩ := h
  obtain ⟨cs, columnTrees, columns, hcs, hcolumns, vcolumns, tcolumns⟩ :=
    exists_visit_list (d := s.dialect) (g := Part.column)
      (Q := fun c column => c.Tells column ∧ IsOwn s.dialect column) described.columns
      fun _ _ => exists_visit_column
  obtain ⟨ks, keyTrees, keys, hks, hkeys, vkeys, tkeys⟩ :=
    exists_visit_list (d := s.dialect) (g := Part.foreignKey) described.foreignKeys
      fun _ _ => exists_visit_foreignKey
  obtain ⟨is, indexTrees, indices, his, hindices, vindices, tindices⟩ :=
    exists_visit_list (d := s.dialect) (g := Part.index) described.indices
      fun _ _ => exists_visit_index
  have tree : s.table (.text name) = .ok (tagged "table" (.list [identifier (.text name),
      .list columnTrees, .list keyTrees, .list indexTrees])) := by
    have own : Value.find? tables (.text name) = some (.dict es) := found
    simp only [Snapshot.table, htables, attributes, ok_bind, own, Option.getD_some,
      show (Value.text name).isKey = true from rfl, if_true, tableNode, hcs,
      hcolumns, hks, hkeys, his, hindices]
  -- Columns are built unmarked, and marked when the foreign keys of the table are known.
  refine ⟨⟨name, s.dialect, columns.map (mark (keys.flatMap (·.columns))), keys, indices⟩, ?_,
    ⟨rfl, ?_, tkeys, tindices⟩, ?_⟩
  · have dialect : Registry.find (.dialect s.dialect) = .ok s.dialect := rfl
    rw [built, tree, ok_bind, Table.build, dialect, ok_bind, visit_table,
      tablePart_list, vcolumns, vkeys, vindices, identifier, visit_identifier]
    simp only [ok_bind, Value.plain_text, tableOf_parts]
  · rw [List.forall₂_map_right_iff]
    refine tcolumns.imp fun c column tells => ?_
    obtain ⟨tells, unmarked, -⟩ := tells
    rw [TableData.isForeign, ← contains_flatMap tkeys]
    exact mark_tells tells unmarked _
  · rintro ⟨postgres, column, hcolumn, long⟩
    obtain ⟨own, mem, rfl⟩ := List.mem_map.1 hcolumn
    rw [mark_hasLongDefault] at long
    obtain ⟨c, -, -, -, short⟩ := exists_of_forall₂_right tcolumns mem
    exact short postgres long

end Snapshot

end Schemata
