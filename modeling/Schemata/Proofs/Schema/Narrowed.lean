/-
The indices of compiled tables.

What an index of a table is over need not be a column: a catalogue lists the expressions of an
index as they are written, in between the columns. A field is compiled of a column only, so
that an expression has no field. The compilation looks up name after name and passes over what
it does not find (`names_lookUp_eq_filter`). An index therefore keeps its place, its name and
its uniqueness, but it is over the columns among its names alone, and over all of its names
exactly if these are columns (`Narrows`). A unique index over an expression and a column
becomes one over the column, which admits fewer rows, and a model states it so.

A projection meets the same case where a field of an index is left out, and drops the index
(`whole_of_project`).
-/
import Schemata.Model.Source
import Schemata.Proofs.Schema.Projected

namespace Schemata.Schema

/-- An index of a schema is that of a table so far as it is over columns. -/
structure Narrows (t : Table) (s : Schema) (j : Table.Index) (i : Index) : Prop where
  name : i.name = j.name
  unique : i.unique = j.unique
  method : i.method = j.method
  columns : i.fieldNames = j.columns.filter fun n => t.columnNames.contains n
  whole : i.fieldNames = j.columns ↔ j.columns ⊆ t.columnNames
  held : i.fields ⊆ s.fields

theorem narrows_compileIndex (r : TypeMapping.Rules) (t : Table) (j : Table.Index) :
    Narrows t (compile r t) j (compileIndex (compile r t).fields j) := by
  have columns : (compileIndex (compile r t).fields j).fieldNames =
      j.columns.filter fun n => t.columnNames.contains n := by
    rw [← fieldNames_compile r t]
    exact names_lookUp_eq_filter _ _
  refine ⟨rfl, rfl, rfl, columns, ?_, fun f hf => lookUp_subset hf⟩
  rw [columns, List.filter_eq_self]
  exact forall₂_congr fun n _ => by simp

/-- Compiling keeps the indices of a table one by one, each over the columns among its
names. -/
theorem narrows_indices {bare : Value} {t : Table} {s : Schema} (h : ofTable bare t = .ok s) :
    List.Forall₂ (Narrows t s) t.indices s.indices := by
  obtain ⟨r, rfl⟩ := eq_compile_of_ofTable h
  refine List.forall₂_map_right_iff.2 (List.forall₂_same.2 ?_)
  intro j _
  exact narrows_compileIndex r t j

/-- A model states indices as its schema has them. -/
theorem indices_of_model {s : Schema} {d : Declarations} {m : Model}
    (h : Model.ofSchema s d = .ok m) :
    m.indices = s.indices.map fun i => ⟨i.name, i.fieldNames, i.unique⟩ := by
  obtain ⟨_, _, h⟩ := bind_eq_ok.1 h
  split at h
  · cases h
  · cases h
    rfl

/-- No index is kept in part by a projection. -/
theorem whole_of_project {s : Schema} {names : List String} {i : Index}
    (h : i ∈ (s.project names).indices) : ∃ j ∈ s.indices, i.fieldNames = j.fieldNames := by
  rw [project_indices] at h
  split at h
  · cases h
  · obtain ⟨j, hj, rfl⟩ := List.mem_map.1 h
    exact ⟨j, (List.mem_filter.1 hj).1, Index.fieldNames_over j _⟩

/-- A table has a schema unless a default of it is too long to be written, if the configured
type is a text or none. Each of its indices stands in the schema with the name and the
uniqueness it had, over the columns among its names in their order, and a model of the schema
states it over these. It is over all of its names exactly if all of them are columns. -/
theorem indices_ofTable (t : Table) :
    (∀ bare, bare = .null ∨ (∃ n, bare = .text n) →
      ((∃ s, ofTable bare t = .ok s) ↔ ¬ t.HasLongDefault)) ∧
      ∀ bare s, ofTable bare t = .ok s →
        List.Forall₂ (Narrows t s) t.indices s.indices ∧
        ∀ d m, Model.ofSchema s d = .ok m →
          m.indices = t.indices.map fun j =>
            ⟨j.name, j.columns.filter fun n => t.columnNames.contains n, j.unique⟩ := by
  refine ⟨fun bare hb => exists_ofTable_iff hb, fun bare s hs => ⟨narrows_indices hs, ?_⟩⟩
  intro d m hm
  obtain ⟨r, rfl⟩ := eq_compile_of_ofTable hs
  rw [indices_of_model hm]
  refine (List.map_map ..).trans (List.map_congr_left fun j _ => ?_)
  exact congrArg (Model.IndexLine.mk j.name · j.unique) (narrows_compileIndex r t j).columns

/-- The tree of a table whose unique index is over an expression and a column. -/
def tenantsTree : Value :=
  .tagged "table" (.list [
    .tagged "identifier" (.text "members"),
    .list [
      .tagged "column" (.list [.tagged "identifier" (.text "tenant"),
        .tagged "type" (.text "integer"), .tagged "meta" (.dict [])])],
    .list [],
    .list [
      .tagged "index" (.list [.tagged "identifier" (.text "members_mail"),
        .list [.tagged "identifier" (.text "lower(mail)"),
          .tagged "identifier" (.text "tenant")],
        .tagged "meta" (.dict [(.text "unique", .bool true)])])]])

/-- The table of that tree. -/
def tenantsTable : Table where
  name := "members"
  dialect := .postgres
  columns := [{ name := "tenant", type := .named "integer" }]
  foreignKeys := []
  indices :=
    [{ name := "members_mail", columns := ["lower(mail)", "tenant"], unique := true }]

theorem build_tenantsTree :
    Table.build tenantsTree (.dialect .postgres) = .ok tenantsTable := by
  cbv

theorem not_hasLongDefault_tenants : ¬ tenantsTable.HasLongDefault := by
  decide

theorem indices_ofTable_tenants :
    Table.build tenantsTree (.dialect .postgres) = .ok tenantsTable ∧
      ∃ s, ofTable .null tenantsTable = .ok s ∧
        List.Forall₂ (Narrows tenantsTable s) tenantsTable.indices s.indices := by
  obtain ⟨exists_schema, narrowed⟩ := indices_ofTable tenantsTable
  obtain ⟨s, hs⟩ := (exists_schema .null (.inl rfl)).2 not_hasLongDefault_tenants
  exact ⟨build_tenantsTree, s, hs, (narrowed .null s hs).1⟩

/-- The unique index over an expression and a column is compiled to a unique index over the
column. -/
theorem not_whole_tenants :
    ¬ ∀ (tree dialect : Value) (t : Table) (s : Schema),
      Table.build tree dialect = .ok t → ofTable .null t = .ok s →
        ∀ i ∈ s.indices, ∃ j ∈ t.indices, j.name = i.name ∧ i.fieldNames = j.columns := by
  intro whole
  obtain ⟨r, hr⟩ := ofTable_eq_ok (.inl rfl) not_hasLongDefault_tenants
  obtain ⟨j, hj, -, columns⟩ := whole _ _ _ _ build_tenantsTree hr _ (.head _)
  obtain rfl := List.mem_singleton.1 hj
  have listed := (narrows_compileIndex r tenantsTable _).whole.1 columns (.head _)
  exact absurd listed (by decide)

end Schemata.Schema
