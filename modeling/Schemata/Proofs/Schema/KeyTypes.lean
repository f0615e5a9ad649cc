/-
The types of key columns, from the tree of a table to its schema.

A key column comes to its field in three steps: its raw type is normalized when its node is
read, it is marked when the foreign keys of the table are known, and its type is mapped when
it is marked. No raw type is normalized to one of the two types of surrogate keys, and no
default leads to them. So a field has such a type exactly if its column is of a whole-number
or an identifier type and belongs to a key (`KeyTyped`), wherever it stands in a foreign key,
and a column has the type of the key column that it references (`keyTypes_ofTable`).
-/
import Schemata.Proofs.Schema.TypeMapping
import Schemata.Proofs.Schema.WellFormed
import Schemata.Proofs.Table.Columns
import Schemata.Settings

namespace Schemata

namespace TypeMapping

variable {bare : Option FieldType} {c : Context} {n : String} {t : FieldType}

/-! ## Types of surrogate keys -/

/-- Only key columns of Postgres become surrogate keys, and each of its two kinds in its own
way. -/
theorem leaf_keys (choice : bare ∈ bareTypes) (normal : n ∈ normalNames) :
    (leaf ⟨some .postgres, bare⟩ c n = .named "id" ↔ n = "integer" ∧ c.isKey = true) ∧
      (leaf ⟨some .postgres, bare⟩ c n = .named "binary_id" ↔
        n = "uuid" ∧ c.isKey = true) := by
  have free : n ≠ "id" ∧ n ≠ "binary_id" := by
    revert n
    decide
  simp only [leaf, postgresName]
  split
  · rename_i integer
    simp only [Bool.and_eq_true, beq_iff_eq] at integer
    simp [integer]
  · rename_i other
    simp only [Bool.and_eq_true, beq_iff_eq] at other
    split
    · rename_i uuid
      simp only [beq_iff_eq] at uuid
      cases key : c.isKey with
      | true => simp [uuid]
      | false => simp [uuid]
    · rename_i uuid
      simp only [beq_iff_eq] at uuid
      split
      · -- No document becomes a surrogate key.
        rcases document_cases ⟨some .postgres, bare⟩ c n with any | map | ⟨-, configured⟩
        · simp [any, other, uuid]
        · simp [map, other, uuid]
        · simp only [bareTypes, List.mem_cons, List.not_mem_nil, or_false] at choice
          rcases choice with rfl | rfl | rfl
          · simp [configured, free, other, uuid]
          · simp [configured, other, uuid]
          · simp [configured, other, uuid]
      · simp [free, other, uuid]

theorem fieldType_keys (c : Context) (choice : bare ∈ bareTypes)
    (normal : ∀ n ∈ t.leaves, n ∈ normalNames) :
    (fieldType ⟨some .postgres, bare⟩ c t = .named "id" ↔
      t = .named "integer" ∧ c.isKey = true) ∧
    (fieldType ⟨some .postgres, bare⟩ c t = .named "binary_id" ↔
      t = .named "uuid" ∧ c.isKey = true) := by
  cases t with
  | named n =>
    have own := normal n (List.mem_singleton.2 rfl)
    rw [fieldType_known (normalNames_subset_knownNames own)]
    simpa using leaf_keys choice own
  | array t =>
    rw [fieldType_array, arrayOf]
    split
    · simp
    · simp
  | enum vs => simp [fieldType]

end TypeMapping

namespace Schema

open Table (ColumnNode columnNodes?)
open Postgres (normalizeType)

variable {t : Table} {n : ColumnNode} {f : Field}

/-! ## Key columns -/

/-- A column belongs to a key: its node says so, or a foreign key of the table is over it. -/
def IsKeyColumn (t : Table) (n : ColumnNode) (name : String) : Prop :=
  n.states "primary_key" = true ∨ n.states "foreign_key" = true ∨
    t.isForeignKeyColumn name = true

/-- A field has the type of a surrogate key exactly if its column has a type for it and
belongs to a key. -/
structure KeyTyped (t : Table) (n : ColumnNode) (f : Field) : Prop where
  id : ∀ raw, n.typeName? = some raw →
    (f.type = .named "id" ↔ normalizeType raw = .named "integer" ∧ IsKeyColumn t n f.name)
  binaryId : ∀ raw, n.typeName? = some raw →
    (f.type = .named "binary_id" ↔ normalizeType raw = .named "uuid" ∧ IsKeyColumn t n f.name)

/-- A foreign key of the one table pairs a column with one of the other. -/
def References (t : Table) (name : String) (t' : Table) (target : String) : Prop :=
  ∃ k ∈ t.foreignKeys, k.table = t'.name ∧ (name, target) ∈ k.columns.zip k.targets

theorem References.isForeignKeyColumn {t' : Table} {name target : String}
    (h : References t name t' target) : t.isForeignKeyColumn name = true := by
  obtain ⟨k, hk, -, pair⟩ := h
  exact List.any_eq_true.2 ⟨k, hk, List.contains_iff_mem.2 (List.of_mem_zip pair).1⟩

/-- A document without a default becomes a map if nothing else is configured. -/
theorem ofTable_default (t : Table) :
    ofTable ({} : InferenceSettings).bareDocument t =
      if t.HasLongDefault then .error .badValue
      else .ok (compile ⟨some t.dialect, some (.named "map")⟩ t) := by
  have map : TypeMapping.bareDocument? ({} : InferenceSettings).bareDocument =
      some (some (.named "map")) := by
    simp [TypeMapping.bareDocument?, Value.isTruthy, Value.type?]
  exact ofTable_configured map t

/-- A table of columns whose types are plain texts has no enumeration, and so no default that
has to be written. -/
theorem not_hasLongDefault_of_typeNames {ns : List ColumnNode} {own : List Column}
    (reads : List.Forall₂ Table.Reads ns own)
    (columns : t.columns = own.map fun c =>
      { c with foreignKey := c.foreignKey || t.isForeignKeyColumn c.name })
    (texts : ∀ n ∈ ns, ∃ raw, n.typeName? = some raw) : ¬ t.HasLongDefault := by
  rintro ⟨-, c, hc, enumeration, -⟩
  rw [columns] at hc
  obtain ⟨o, ho, rfl⟩ := List.mem_map.1 hc
  obtain ⟨n, hn, read⟩ := exists_of_forall₂_right reads ho
  obtain ⟨raw, text⟩ := texts n hn
  have none := TypeMapping.isEnumeration_normalizeType raw
  rw [← read.type raw text] at none
  exact absurd enumeration (by simp [none])

theorem keyTyped_of_column {c : Column}
    (type : ∀ raw, n.typeName? = some raw → c.type = normalizeType raw)
    (key : c.context.isKey = true ↔ IsKeyColumn t n c.name) :
    KeyTyped t n (c.toField ⟨some .postgres, some (.named "map")⟩) := by
  have choice : some (.named "map") ∈ TypeMapping.bareTypes := by decide
  have mapped (raw : String) := TypeMapping.fieldType_keys c.context choice
    (TypeMapping.leaves_normalize .postgres raw)
  constructor
  · intro raw text
    show TypeMapping.fieldType _ c.context c.type = _ ↔ _ ∧ IsKeyColumn t n c.name
    rw [type raw text, ← key]
    exact (mapped raw).1
  · intro raw text
    show TypeMapping.fieldType _ c.context c.type = _ ↔ _ ∧ IsKeyColumn t n c.name
    rw [type raw text, ← key]
    exact (mapped raw).2

/-- A column that is read from its node and then marked becomes a field with the type of its
key. -/
theorem keyTyped_toField {c : Column} (reads : Table.Reads n c) :
    KeyTyped t n (Column.toField ⟨some .postgres, some (.named "map")⟩
      { c with foreignKey := c.foreignKey || t.isForeignKeyColumn c.name }) := by
  refine keyTyped_of_column reads.type ?_
  show (c.primaryKey || (c.foreignKey || t.isForeignKeyColumn c.name)) = true ↔ _
  rw [reads.primaryKey, reads.foreignKey, Bool.or_eq_true, Bool.or_eq_true]
  rfl

/-- The fields of a tree, its column nodes and its table. -/
theorem keyTyped_ofTable {tree dialect : Value} {ns : List ColumnNode} {s : Schema}
    (postgres : Registry.find dialect = .ok .postgres)
    (built : Table.build tree dialect = .ok t)
    (nodes : columnNodes? tree = some ns)
    (compiled : ofTable ({} : InferenceSettings).bareDocument t = .ok s) :
    List.Forall₂ (KeyTyped t) ns s.fields := by
  obtain ⟨rules, ns', own, nodes', reads, columns⟩ := Table.columns_of_build postgres built
  obtain rfl := Option.some.inj (nodes'.symm.trans nodes)
  rw [ofTable_default] at compiled
  split at compiled
  case isTrue => cases compiled
  cases compiled
  rw [compile, columns, rules, List.map_map, List.forall₂_map_right_iff]
  exact reads.imp fun n c read => keyTyped_toField read

/-- Two fields of key columns that are normalized to the same type for keys have the same
type. -/
theorem KeyTyped.type_eq {t' : Table} {n' : ColumnNode} {f' : Field} {raw raw' : String}
    (typed : KeyTyped t n f) (typed' : KeyTyped t' n' f') (text : n.typeName? = some raw)
    (text' : n'.typeName? = some raw') (key : IsKeyColumn t n f.name)
    (key' : IsKeyColumn t' n' f'.name) (same : normalizeType raw = normalizeType raw')
    (kind : normalizeType raw = .named "integer" ∨ normalizeType raw = .named "uuid") :
    f.type = f'.type := by
  rcases kind with integer | uuid
  · rw [(typed.id raw text).2 ⟨integer, key⟩, (typed'.id raw' text').2 ⟨same ▸ integer, key'⟩]
  · rw [(typed.binaryId raw text).2 ⟨uuid, key⟩,
      (typed'.binaryId raw' text').2 ⟨same ▸ uuid, key'⟩]

/-- Every tree that builds a table of Postgres lists its column nodes. If the types of all
columns are given as plain texts, the table compiles to a schema, and so does any other
without a default that is too long. A schema has a field for each node, in order, and a field
whose type is given as a plain text has the type of a surrogate key exactly if the type is one
of those for keys and the column belongs to a key. A column that a foreign key pairs with a
key column of the same such type has the type of this column. -/
theorem keyTypes_ofTable {tree dialect : Value}
    (postgres : Registry.find dialect = .ok .postgres)
    (built : Table.build tree dialect = .ok t) :
    ∃ ns, columnNodes? tree = some ns ∧
      ((∀ n ∈ ns, ∃ raw, n.typeName? = some raw) → ¬ t.HasLongDefault) ∧
      (¬ t.HasLongDefault → ∃ s, ofTable ({} : InferenceSettings).bareDocument t = .ok s) ∧
      ∀ s, ofTable ({} : InferenceSettings).bareDocument t = .ok s →
        List.Forall₂ (KeyTyped t) ns s.fields ∧
        ∀ {tree' dialect' t' ns' s'}, Registry.find dialect' = .ok .postgres →
          Table.build tree' dialect' = .ok t' → columnNodes? tree' = some ns' →
          ofTable ({} : InferenceSettings).bareDocument t' = .ok s' →
          ∀ n f n' f' raw raw', (n, f) ∈ ns.zip s.fields → (n', f') ∈ ns'.zip s'.fields →
            n.typeName? = some raw → n'.typeName? = some raw' →
            References t f.name t' f'.name → IsKeyColumn t' n' f'.name →
            normalizeType raw = normalizeType raw' →
            normalizeType raw = .named "integer" ∨ normalizeType raw = .named "uuid" →
            f.type = f'.type := by
  obtain ⟨-, ns, own, nodes, reads, columns⟩ := Table.columns_of_build postgres built
  refine ⟨ns, nodes, not_hasLongDefault_of_typeNames reads columns,
    fun short => ⟨_, (ofTable_default t).trans (if_neg short)⟩, fun s compiled => ?_⟩
  have typed := keyTyped_ofTable postgres built nodes compiled
  refine ⟨typed, ?_⟩
  intro tree' dialect' t' ns' s' postgres' built' nodes' compiled' n f n' f' raw raw'
    here there text
    text' references key' same kind
  have typed' := keyTyped_ofTable postgres' built' nodes' compiled'
  have key : IsKeyColumn t n f.name := .inr (.inr references.isForeignKeyColumn)
  exact (List.forall₂_zip typed here).type_eq
    (List.forall₂_zip typed' there) text text' key key'
    same kind

/-- The tree of a table with a column that no key is over, and with two that a foreign key is
over in another order than the table has them. -/
def enrolmentsTree : Value :=
  .tagged "table" (.list [
    .text "enrolments",
    .list [
      .tagged "column" (.list [.text "mark", .text "integer"]),
      .tagged "column" (.list [.text "tenant", .tagged "type" (.text "uuid")]),
      .tagged "column" (.list [.text "course", .text "integer",
        .dict [(.text "default", .int 0)]])],
    .list [
      .tagged "foreign_key" (.list [.null, .list [.text "course", .text "tenant"],
        .text "courses", .list [.text "number", .text "tenant"], .null])],
    .list []])

/-- The table of that tree. -/
def enrolmentsTable : Table where
  name := "enrolments"
  dialect := .postgres
  columns := [
    { name := "mark", type := .named "integer" },
    { name := "tenant", type := .named "uuid", foreignKey := true },
    { name := "course", type := .named "integer", default := .int 0, foreignKey := true }]
  foreignKeys := [⟨none, ["course", "tenant"], "courses", ["number", "tenant"], none, none⟩]
  indices := []

theorem build_enrolmentsTree :
    Table.build enrolmentsTree (.dialect .postgres) = .ok enrolmentsTable := by
  have postgres : Registry.find (.dialect .postgres) = .ok .postgres := rfl
  have mark : Table.columnPart (some .postgres) (.list [.text "mark", .text "integer"]) =
      .ok (.column { name := "mark", type := .named "integer" }) := by cbv
  have tenant : Table.columnPart (some .postgres)
      (.list [.text "tenant", .tagged "type" (.text "uuid")]) =
        .ok (.column { name := "tenant", type := .named "uuid" }) := by cbv
  have course : Table.columnPart (some .postgres)
      (.list [.text "course", .text "integer", .dict [(.text "default", .int 0)]]) =
      .ok (.column { name := "course", type := .named "integer", default := .int 0 }) := by
    cbv
  simp only [Table.build, postgres, ok_bind, enrolmentsTree, Table.visit_table,
    Table.tablePart_list, Table.listComponent_list, Table.visit_list, List.mapM_cons,
    List.mapM_nil, Table.visit_column, Table.visit_foreignKey, Table.foreignKeyPart_list,
    Table.visit_null, Table.visit_text, mark, tenant, course]
  rfl

/-- The tree of the table that the foreign key is to, with a key over two columns. -/
def coursesTree : Value :=
  .tagged "table" (.list [
    .text "courses",
    .list [
      .tagged "column" (.list [.text "number", .text "bigint",
        .dict [(.text "primary_key", .bool true), (.text "default", .int 1)]]),
      .tagged "column" (.list [.text "tenant", .tagged "type" (.text "uuid"),
        .dict [(.text "primary_key", .bool true)]])],
    .list [],
    .list []])

/-- The table of that tree. -/
def coursesTable : Table where
  name := "courses"
  dialect := .postgres
  columns := [
    { name := "number", type := .named "integer", default := .int 1, primaryKey := true },
    { name := "tenant", type := .named "uuid", primaryKey := true }]
  foreignKeys := []
  indices := []

theorem build_coursesTree :
    Table.build coursesTree (.dialect .postgres) = .ok coursesTable := by
  have postgres : Registry.find (.dialect .postgres) = .ok .postgres := rfl
  have number : Table.columnPart (some .postgres) (.list [.text "number", .text "bigint",
      .dict [(.text "primary_key", .bool true), (.text "default", .int 1)]]) =
      .ok (.column
        { name := "number", type := .named "integer", primaryKey := true,
          default := .int 1 }) := by
    cbv
  have tenant : Table.columnPart (some .postgres)
      (.list [.text "tenant", .tagged "type" (.text "uuid"),
        .dict [(.text "primary_key", .bool true)]]) =
      .ok (.column { name := "tenant", type := .named "uuid", primaryKey := true }) := by
    cbv
  simp only [Table.build, postgres, ok_bind, coursesTree, Table.visit_table,
    Table.tablePart_list, Table.listComponent_list, Table.visit_list, List.mapM_cons,
    List.mapM_nil, Table.visit_column, Table.visit_text, number, tenant]
  rfl

theorem columnNodes?_enrolmentsTree :
    columnNodes? enrolmentsTree = some [
      ⟨.text "mark", .text "integer", .null⟩,
      ⟨.text "tenant", .tagged "type" (.text "uuid"), .null⟩,
      ⟨.text "course", .text "integer", .dict [(.text "default", .int 0)]⟩] := by
  cbv

theorem columnNodes?_coursesTree :
    columnNodes? coursesTree = some [
      ⟨.text "number", .text "bigint",
        .dict [(.text "primary_key", .bool true), (.text "default", .int 1)]⟩,
      ⟨.text "tenant", .tagged "type" (.text "uuid"),
        .dict [(.text "primary_key", .bool true)]⟩] := by
  cbv

theorem typeName?_text (name flags : Value) (raw : String) :
    (ColumnNode.mk name (.text raw) flags).typeName? = some raw := rfl

theorem typeName?_uuid (name flags : Value) :
    (ColumnNode.mk name (.tagged "type" (.text "uuid")) flags).typeName? = some "uuid" := by
  cbv

/-- The number of a course and the course of an enrolment are of one type, whatever their
defaults and the names of their types are. -/
theorem keyTypes_ofTable_enrolments :
    Table.build enrolmentsTree (.dialect .postgres) = .ok enrolmentsTable ∧
      Table.build coursesTree (.dialect .postgres) = .ok coursesTable ∧
      References enrolmentsTable "course" coursesTable "number" ∧
      ∃ s s', ofTable ({} : InferenceSettings).bareDocument enrolmentsTable = .ok s ∧
        ofTable ({} : InferenceSettings).bareDocument coursesTable = .ok s' ∧
        s.fields.map (·.type) = [.named "integer", .named "binary_id", .named "id"] ∧
        ∃ f ∈ s.fields, ∃ f' ∈ s'.fields, f.name = "course" ∧ f'.name = "number" ∧
          f.type = f'.type := by
  obtain ⟨ns, nodes, texts, total, typed⟩ := keyTypes_ofTable rfl build_enrolmentsTree
  obtain ⟨ns', nodes', texts', total', -⟩ := keyTypes_ofTable rfl build_coursesTree
  obtain rfl := Option.some.inj (nodes.symm.trans columnNodes?_enrolmentsTree)
  obtain rfl := Option.some.inj (nodes'.symm.trans columnNodes?_coursesTree)
  have short := texts (by simp [typeName?_text, typeName?_uuid])
  have short' := texts' (by simp [typeName?_text, typeName?_uuid])
  obtain ⟨s, compiled⟩ := total short
  obtain ⟨s', compiled'⟩ := total' short'
  have references : References enrolmentsTable "course" coursesTable "number" :=
    ⟨_, .head _, rfl, .head _⟩
  have alike := (typed s compiled).2 rfl build_coursesTree nodes' compiled'
  have made := (ofTable_default enrolmentsTable).trans (if_neg short)
  have made' := (ofTable_default coursesTable).trans (if_neg short')
  obtain rfl := Except.ok.inj (made.symm.trans compiled)
  obtain rfl := Except.ok.inj (made'.symm.trans compiled')
  refine ⟨build_enrolmentsTree, build_coursesTree, references, _, _, compiled,
    compiled', rfl, _,
    .tail _ (.tail _ (.head _)), _, .head _, rfl, rfl, ?_⟩
  -- the third column references the first one of the other table
  exact alike _ _ _ _ "integer" "bigint" (.tail _ (.tail _ (.head _))) (.head _)
    (typeName?_text _ _ _) (typeName?_text _ _ _) references (.inl (by cbv)) (by cbv)
    (.inl (by cbv))

end Schema

end Schemata
