/-
Merging with nothing.

A schema without fields, keys and indices adds nothing to a merge. What a merge does to the
other side all the same comes from its own form: fields are united by name, keys and indices
take up the united fields, and foreign keys are kept one for each field. Of this only the last
can be seen in a well-formed schema (`merge_empty`, `empty_merge`): names that are distinct
leave the fields as they are, and keys and indices hold these fields already.

The foreign keys of a compiled schema may share a field, because a composite constraint is
compiled to its first column and two constraints may begin with the same one. So the empty
schema is neutral for the schema of a table exactly if no two constraints of the table begin
with one column (`merge?_empty_compiled`).
-/
import Schemata.Proofs.Schema.WellFormed

namespace Schemata

/-- The first columns of the foreign keys of a table. -/
def Table.leadingColumns (t : Table) : List String :=
  t.foreignKeys.filterMap (·.columns.head?)

namespace Schema

/-! ## Fields that are found where they are -/

section

variable {fields : List Field} (distinct : (fields.map (·.name)).Nodup)

include distinct

theorem resolve_eq_self {f : Field} (h : f ∈ fields) : resolve fields f = f := by
  rw [resolve, (mem_iff_find? Field.name distinct).1 h, Option.getD_some]

theorem map_resolve_eq_self {held : List Field} (h : ∀ f ∈ held, f ∈ fields) :
    held.map (resolve fields) = held := by
  rw [List.map_congr_left fun f hf => resolve_eq_self distinct (h f hf), List.map_id'']
  exact fun _ => rfl

theorem PrimaryKey.over_eq_self {k : PrimaryKey} (h : ∀ f ∈ k.fields, f ∈ fields) :
    k.over fields = k := by
  rw [PrimaryKey.over, map_resolve_eq_self distinct h]

theorem Index.over_eq_self {i : Index} (h : ∀ f ∈ i.fields, f ∈ fields) :
    i.over fields = i := by
  rw [Index.over, map_resolve_eq_self distinct h]

theorem mergeFields_nil_right : mergeFields fields [] = fields :=
  lastByKey_of_nodup Field.name distinct

theorem mergeFields_nil_left : mergeFields [] fields = fields := by
  have none : (([] : List Field).map (·.name)).Nodup := List.nodup_nil
  have names : (mergeFields [] fields).map (·.name) = fields.map (·.name) := by
    rw [names_mergeFields none distinct]
    simp
  rw [← List.forall₂_eq_eq_eq]
  refine forall₂_of_find? Field.name names (nodup_mergeFields _ _) fun k => ?_
  rw [find?_mergeFields none distinct, List.find?_nil]
  cases fields.find? (·.name == k) with
  | none => exact .none
  | some f => exact .some rfl

end

/-! ## The empty schema -/

section

variable {s : Schema} (h : s.WellFormed)

include h

theorem WellFormed.key_over : s.primaryKey.map (·.over s.fields) = s.primaryKey := by
  cases hk : s.primaryKey with
  | none => rfl
  | some k => rw [Option.map_some, PrimaryKey.over_eq_self h.distinct (h.key k hk)]

theorem WellFormed.indices_over : s.indices.map (·.over s.fields) = s.indices := by
  rw [List.map_congr_left fun i hi => Index.over_eq_self h.distinct (h.indices i hi),
    List.map_id'']
  exact fun _ => rfl

/-- On the right the empty schema changes nothing but foreign keys over one field. -/
theorem merge_empty (source : String) :
    s.merge (empty source) = { s with foreignKeys := lastByKey (·.field) s.foreignKeys } := by
  have fields : mergeFields s.fields (empty source).fields = s.fields :=
    mergeFields_nil_right h.distinct
  rw [merge, fields]
  simp [empty, h.key_over, h.indices_over]

/-- On the left it changes nothing else either. -/
theorem empty_merge :
    (empty s.source).merge s =
      { s with foreignKeys := lastByKey (·.field) s.foreignKeys } := by
  have fields : mergeFields (empty s.source).fields s.fields = s.fields :=
    mergeFields_nil_left h.distinct
  rw [merge, fields]
  simp [empty, h.key_over, h.indices_over]

end

/-- A list is what is kept of it exactly if its keys are distinct. -/
theorem lastByKey_eq_self_iff {α : Type} (key : α → String) {xs : List α} :
    lastByKey key xs = xs ↔ (xs.map key).Nodup := by
  refine ⟨fun same => ?_, lastByKey_of_nodup key⟩
  have kept := nodup_lastByKey key xs
  rwa [same] at kept

/-- The foreign keys of a compiled schema are over the first columns of the constraints. -/
theorem foreignKeyFieldNames_compile (r : TypeMapping.Rules) (t : Table) :
    (compile r t).foreignKeyFieldNames = t.leadingColumns := by
  simp only [compile, foreignKeyFieldNames, Table.leadingColumns, List.map_filterMap,
    compileForeignKey, Option.map_map]
  congr 1
  funext k
  cases k.columns.head? <;> rfl

/-- Merging the schema of a table with the empty schema, on either side, gives the schema with
one foreign key for each field: the last one over it, at the place of the first. All else is
as it was. So the schema is unchanged if no two foreign keys of the table begin with the same
column, and another one if two do. -/
theorem merge?_empty_compiled {t : Table} (distinct : t.columnNames.Nodup)
    {bare : Value} {s : Schema}
    (compiled : ofTable bare t = .ok s) :
    ∃ m, s.merge? (empty s.source) = .ok m ∧ (empty s.source).merge? s = .ok m ∧
      m = { s with foreignKeys := m.foreignKeys } ∧
      m.foreignKeyFieldNames = s.foreignKeyFieldNames.eraseDups ∧
      (∀ n, m.foreignKey? n = s.foreignKeys.reverse.find? (·.field == n)) ∧
      (t.leadingColumns.Nodup → m = s) ∧
      (¬ t.leadingColumns.Nodup → m.same s = false) := by
  have wellFormed := ofTable_wellFormed distinct compiled
  have leading : s.foreignKeyFieldNames = t.leadingColumns := by
    obtain ⟨r, rfl⟩ := eq_compile_of_ofTable compiled
    exact foreignKeyFieldNames_compile r t
  refine ⟨{ s with foreignKeys := lastByKey (·.field) s.foreignKeys }, ?_, ?_, rfl,
    keys_lastByKey _ _, fun n => find?_lastByKey _ _ _, fun once => ?_, fun twice => ?_⟩
  · rw [← merge_empty wellFormed]
    exact merge?_of_source_eq rfl
  · rw [← empty_merge wellFormed]
    exact merge?_of_source_eq rfl
  · rw [← leading] at once
    rw [lastByKey_of_nodup _ once]
  · have changed : lastByKey (·.field) s.foreignKeys ≠ s.foreignKeys := by
      rw [← leading] at twice
      rwa [Ne, lastByKey_eq_self_iff]
    simp [Schema.same, changed]

/-- The tree of a table of bookings: each is of a slot of a room, and of the room. -/
def bookingsTree : Value :=
  .tagged "table" (.list [
    .text "bookings",
    .list [
      .tagged "column" (.list [.text "room", .tagged "enum" (.list [])]),
      .tagged "column" (.list [.text "slot", .tagged "enum" (.list [])])],
    .list [
      .tagged "foreign_key" (.list [.null, .list [.text "room", .text "slot"], .text "slots",
        .list [.text "room", .text "number"]]),
      .tagged "foreign_key" (.list [.null, .list [.text "room"], .text "rooms",
        .list [.text "id"]])]])

/-- The table of that tree. -/
def bookingsTable : Table where
  name := "bookings"
  dialect := .postgres
  columns := [
    { name := "room", type := .enum [], foreignKey := true },
    { name := "slot", type := .enum [], foreignKey := true }]
  foreignKeys := [
    ⟨none, ["room", "slot"], "slots", ["room", "number"], none, none⟩,
    ⟨none, ["room"], "rooms", ["id"], none, none⟩]
  indices := []

theorem not_hasLongDefault_bookings : ¬ bookingsTable.HasLongDefault := by
  decide

/-- Merged with the empty schema, the schema of the table has one of its foreign keys left. -/
theorem merge?_empty_bookings : ∃ s m, ofTable .null bookingsTable = .ok s ∧
    s.foreignKeyFieldNames = ["room", "room"] ∧ s.merge? (empty s.source) = .ok m ∧
    m.foreignKeys = [⟨"room", "rooms", some "id", none⟩] ∧ m.same s = false := by
  obtain ⟨r, compiled⟩ := ofTable_eq_ok (.inl rfl) not_hasLongDefault_bookings
  have distinct : bookingsTable.columnNames.Nodup := by decide
  obtain ⟨m, right, -, -, -, last, -, other⟩ := merge?_empty_compiled distinct compiled
  have kept : m = (compile r bookingsTable).merge (empty _) := eq_merge_of_merge? right
  exact ⟨_, m, compiled, rfl, right, by rw [kept]; rfl, other (by decide)⟩

/-- The empty schema is not neutral for the schema of every tree. -/
theorem not_neutral_sharedColumn :
    Table.build bookingsTree (.dialect .postgres) = .ok bookingsTable ∧
      bookingsTable.columnNames.Nodup ∧ ∃ s, ofTable .null bookingsTable = .ok s ∧
        s.foreignKeys.map (·.table) = ["slots", "rooms"] ∧
        (s.merge (empty s.source)).foreignKeys.map (·.table) = ["rooms"] ∧
        ((empty s.source).merge s).foreignKeys.map (·.table) = ["rooms"] := by
  obtain ⟨r, compiled⟩ := ofTable_eq_ok (.inl rfl) not_hasLongDefault_bookings
  exact ⟨by cbv, by decide, _, compiled, rfl, rfl, rfl⟩

end Schema

end Schemata
