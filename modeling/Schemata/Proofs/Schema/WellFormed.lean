/-
Well-formed schemas.

Keys and indices hold fields, not names, so a schema can hold a definition of a field that its
own list of fields does not have. A schema is well formed if that is not so and no name occurs
twice.

There are four makers of schemas, and each finds the fields of keys and indices in its own
way. The compilation of a table looks them up among the fields of the columns, so that what it
finds is there by itself (`lookUp_subset`); distinct names come from the columns. A definition
refuses names that it cannot find and names that occur twice. A merge is over the union of the
fields: it need not know how the two sides found theirs, only that every field of a key is by
name among the fields of its side (`over_mem`). A projection keeps an index only if all its
names are kept, and leaves the keys alone, so that it does not keep schemas well formed: a key
may name what was left out.
-/
import Schemata.Proofs.Schema.Compiled
import Schemata.Proofs.Schema.Keyed
import Schemata.Schema.Definition
import Schemata.Table.Build

namespace Schemata

namespace Schema

/-- No two fields have one name, and keys and indices hold fields of the schema. -/
structure WellFormed (s : Schema) : Prop where
  distinct : s.fieldNames.Nodup
  key : ∀ k ∈ s.primaryKey, ∀ f ∈ k.fields, f ∈ s.fields
  indices : ∀ i ∈ s.indices, ∀ f ∈ i.fields, f ∈ s.fields

/-! ## Looking up fields by name -/

theorem find?_reverse {fields : List Field}
    (distinct : (fields.map (·.name)).Nodup) {f : Field}
    (h : f ∈ fields) : fields.reverse.find? (·.name == f.name) = some f := by
  rw [find?_reverse_of_nodup Field.name distinct]
  exact (mem_iff_find? Field.name distinct).1 h

theorem lookUp_cons {fields : List Field} {name : String} {f : Field}
    (h : fields.reverse.find? (·.name == name) = some f) (names : List String) :
    lookUp fields (name :: names) = f :: lookUp fields names := by
  rw [lookUp, List.filterMap_cons, h, lookUp]

/-- Fields are found under their names. -/
theorem lookUp_names {fields found : List Field} (distinct : (fields.map (·.name)).Nodup)
    (h : found ⊆ fields) : lookUp fields (found.map (·.name)) = found := by
  induction found with
  | nil => rfl
  | cons f found ih =>
    rw [List.map_cons, lookUp_cons (find?_reverse distinct (h (.head _))),
      ih fun g hg => h (.tail _ hg)]

theorem lookUp_cons_of_missing {fields : List Field} {name : String}
    (h : fields.reverse.find? (·.name == name) = none) (names : List String) :
    lookUp fields (name :: names) = lookUp fields names := by
  rw [lookUp, List.filterMap_cons, h, lookUp]

/-- Of a list of names those are found that are names of fields, in their order and as often
as they stand there. -/
theorem names_lookUp_eq_filter (fields : List Field) (names : List String) :
    (lookUp fields names).map (·.name) = names.filter fun n =>
      (fields.map (·.name)).contains n := by
  induction names with
  | nil => rfl
  | cons n names ih =>
    by_cases h : n ∈ fields.map (·.name)
    · obtain ⟨g, hg, name⟩ := List.mem_map.1 h
      obtain ⟨f, hf⟩ : ∃ f, fields.reverse.find? (·.name == n) = some f := by
        rw [← Option.isSome_iff_exists, List.find?_isSome]
        exact ⟨g, List.mem_reverse.2 hg, by simpa using name⟩
      have found : f.name = n := by simpa using List.find?_some hf
      rw [lookUp_cons hf, List.map_cons, found, ih,
        List.filter_cons_of_pos (by simpa using h)]
    · have missing : fields.reverse.find? (·.name == n) = none := by
        rw [List.find?_eq_none]
        intro g hg name
        exact h (List.mem_map.2 ⟨g, List.mem_reverse.1 hg, by simpa using name⟩)
      rw [lookUp_cons_of_missing missing, ih, List.filter_cons_of_neg (by simpa using h)]

/-- Names of fields are the names of what they find. -/
theorem names_lookUp {fields : List Field} {names : List String}
    (h : names ⊆ fields.map (·.name)) : (lookUp fields names).map (·.name) = names := by
  rw [names_lookUp_eq_filter, List.filter_eq_self]
  exact fun n hn => by simpa using h hn

/-! ## Compilation -/

theorem names_fields (r : TypeMapping.Rules) (columns : List Column) :
    (columns.map (·.toField r)).map (·.name) = columns.map (·.name) := by
  simp [Column.toField, Function.comp_def]

/-- A key is compiled of its columns: over the fields of these, and none of no column. -/
theorem names_compileKey {r : TypeMapping.Rules} {columns marked : List Column}
    (distinct : (columns.map (·.name)).Nodup) (h : marked ⊆ columns) :
    (compileKey (columns.map (·.toField r)) marked).map (·.fieldNames) =
      if marked.map (·.name) = [] then none else some (marked.map (·.name)) := by
  have looked : lookUp (columns.map (·.toField r)) (marked.map (·.name)) =
      marked.map (·.toField r) := by
    rw [← names_fields r marked]
    refine lookUp_names ?_ (List.map_subset _ h)
    rwa [names_fields]
  rw [compileKey, looked]
  cases marked with
  | nil => rfl
  | cons c cs => simp [PrimaryKey.fieldNames, Column.toField]

theorem lookUp_subset {fields : List Field} {names : List String} {f : Field}
    (h : f ∈ lookUp fields names) : f ∈ fields := by
  obtain ⟨n, _, hf⟩ := List.mem_filterMap.1 h
  exact List.mem_reverse.1 (List.mem_of_find?_eq_some hf)

theorem compile_key_mem {r : TypeMapping.Rules} {t : Table} {k : PrimaryKey}
    (hk : k ∈ (compile r t).primaryKey) {f : Field} (hf : f ∈ k.fields) :
    f ∈ (compile r t).fields := by
  simp only [compile, compileKey] at hk
  split at hk
  · cases hk
  · cases hk
    exact lookUp_subset hf

theorem compile_indices_mem {r : TypeMapping.Rules} {t : Table} {i : Index}
    (hi : i ∈ (compile r t).indices) {f : Field} (hf : f ∈ i.fields) :
    f ∈ (compile r t).fields := by
  obtain ⟨j, _, rfl⟩ := List.mem_map.1 hi
  exact lookUp_subset hf

theorem fieldNames_compile (r : TypeMapping.Rules) (t : Table) :
    (compile r t).fieldNames = t.columnNames :=
  names_fields r t.columns

theorem compile_wellFormed (r : TypeMapping.Rules) {t : Table} (h : t.columnNames.Nodup) :
    (compile r t).WellFormed where
  distinct := by
    rw [fieldNames_compile]
    exact h
  key := fun _ hk _ hf => compile_key_mem hk hf
  indices := fun _ hi _ hf => compile_indices_mem hi hf

end Schema

/-! ## Definitions -/

namespace Definition

open Schema (WellFormed)

theorem nodup_of_distinctNames {fields : List Field} (h : distinctNames fields = true) :
    (fields.map (·.name)).Nodup := by
  induction fields with
  | nil => exact List.nodup_nil
  | cons f fs ih =>
    simp only [distinctNames, Bool.and_eq_true, Bool.not_eq_true', List.any_eq_false,
      beq_iff_eq] at h
    rw [List.map_cons, List.nodup_cons]
    refine ⟨?_, ih h.2⟩
    intro hm
    obtain ⟨g, hg, e⟩ := List.mem_map.1 hm
    exact h.1 g hg e

theorem fieldNamed_mem {fields : List Field} {v : Value} {f : Field}
    (h : fieldNamed fields v = .ok (some f)) : f ∈ fields := by
  unfold fieldNamed at h
  split at h
  · obtain ⟨n, _, hf⟩ := Option.bind_eq_some_iff.1 (Except.ok.inj h)
    exact List.mem_of_find?_eq_some hf
  · cases h

/-- The fields that a list of names finds are fields of the definition. -/
theorem fieldsNamed_subset {fields found : List Field} {vs missing : List Value}
    (h : fieldsNamed fields vs = .ok (found, missing)) {f : Field} (hf : f ∈ found) :
    f ∈ fields := by
  induction vs generalizing found missing with
  | nil =>
    cases h
    cases hf
  | cons v vs ih =>
    obtain ⟨o, ho, h⟩ := bind_eq_ok.1 h
    obtain ⟨⟨fs, ms⟩, hfs, h⟩ := bind_eq_ok.1 h
    cases o with
    | none =>
      cases h
      exact ih hfs hf
    | some g =>
      cases h
      rcases List.mem_cons.1 hf with rfl | hf
      · exact fieldNamed_mem ho
      · exact ih hfs hf

/-- A key is read where names are given for it, and then all of them are found. -/
theorem primaryKey_cases {source : Value} {fields : List Field} {names : List Value}
    {o : Option Schema.PrimaryKey} (h : primaryKey source fields names = .ok o) :
    (names = [] ∧ o = none) ∨
      (names ≠ [] ∧ ∃ found, fieldsNamed fields names = .ok (found, []) ∧
        o = some ⟨found⟩) := by
  unfold primaryKey at h
  split at h
  · rename_i empty
    exact .inl ⟨List.isEmpty_iff.1 empty, (Except.ok.inj h).symm⟩
  · rename_i given
    obtain ⟨⟨found, missing⟩, named, h⟩ := bind_eq_ok.1 h
    dsimp only at h
    split at h
    · rename_i complete
      rw [List.isEmpty_iff] at complete
      subst complete
      exact .inr ⟨mt List.isEmpty_iff.2 given, found, named, (Except.ok.inj h).symm⟩
    · obtain ⟨_, _, h⟩ := bind_eq_ok.1 h
      cases h

theorem primaryKey_subset {source : Value} {fields : List Field} {names : List Value}
    {k : Schema.PrimaryKey} (h : primaryKey source fields names = .ok (some k)) {f : Field}
    (hf : f ∈ k.fields) : f ∈ fields := by
  rcases primaryKey_cases h with ⟨-, nothing⟩ | ⟨-, found, named, key⟩
  · cases nothing
  · cases key
    exact fieldsNamed_subset named hf

theorem index_subset {source : Value} {fields : List Field} {v : Value} {i : Schema.Index}
    (h : index source fields v = .ok i) {f : Field} (hf : f ∈ i.fields) : f ∈ fields := by
  obtain ⟨es, _, h⟩ := bind_eq_ok.1 h
  obtain ⟨names, _, h⟩ := bind_eq_ok.1 h
  obtain ⟨⟨found, missing⟩, hfound, h⟩ := bind_eq_ok.1 h
  have hi : i.fields = found := by
    dsimp only at h
    split at h
    · obtain ⟨_, _, h⟩ := bind_eq_ok.1 h
      obtain ⟨_, _, h⟩ := bind_eq_ok.1 h
      cases h
    · split at h
      · cases h
      · rename_i name _
        cases hn : name.text? with
        | none => simp [hn, Value.require] at h
        | some n =>
          cases hm : Value.optional Value.text? (Value.getD es "type") with
          | none => simp [hn, hm, Value.require] at h
          | some m =>
            simp only [hn, hm, Value.require, Option.bind_eq_bind, Option.bind_some,
              Except.ok.injEq] at h
            exact h ▸ rfl
  exact fieldsNamed_subset hfound (hi ▸ hf)

theorem read_wellFormed {given : Option String} {definition : Value} {s : Schema}
    (h : read given definition = .ok s) : s.WellFormed := by
  obtain ⟨source, _, h⟩ := bind_eq_ok.1 h
  obtain ⟨es, _, h⟩ := bind_eq_ok.1 h
  obtain ⟨keys, _, h⟩ := bind_eq_ok.1 h
  obtain ⟨items, _, h⟩ := bind_eq_ok.1 h
  obtain ⟨fields, _, h⟩ := bind_eq_ok.1 h
  split at h
  · cases h
  · rename_i hd
    obtain ⟨key, hkey, h⟩ := bind_eq_ok.1 h
    obtain ⟨ks, _, h⟩ := bind_eq_ok.1 h
    obtain ⟨foreignKeys, _, h⟩ := bind_eq_ok.1 h
    obtain ⟨is, _, h⟩ := bind_eq_ok.1 h
    obtain ⟨indices, hindices, h⟩ := bind_eq_ok.1 h
    split at h
    · cases h
      refine ⟨nodup_of_distinctNames (by simpa using hd), ?_, ?_⟩
      · intro k hk f hf
        obtain rfl : key = some k := hk
        exact primaryKey_subset hkey hf
      · intro i hi f hf
        obtain ⟨v, _, hv⟩ := mem_of_mapM_ok hindices hi
        exact index_subset hv hf
    · cases h

end Definition

/-! ## Merging and projecting -/

namespace Schema

/-- Fields that are by name among those of a list resolve to fields of the list. -/
theorem over_mem {fields held : List Field} {f : Field}
    (h : ∀ g ∈ held, g.name ∈ fields.map (·.name)) (hf : f ∈ held.map (resolve fields)) :
    f ∈ fields := by
  obtain ⟨g, hg, rfl⟩ := List.mem_map.1 hf
  exact resolve_mem (h g hg)

/-- The key of a merge is that of the right side, or else of the left one, over the merged
fields. -/
theorem primaryKey_merge (a b : Schema) : (a.merge b).primaryKey =
    (b.primaryKey.or a.primaryKey).map (·.over (a.merge b).fields) :=
  rfl

/-- Its names are those of the right side, if that one has a key. -/
theorem fieldNames_primaryKey_merge (a b : Schema) :
    (a.merge b).primaryKey.map (·.fieldNames) =
      (b.primaryKey.map (·.fieldNames)).or (a.primaryKey.map (·.fieldNames)) := by
  have names : ∀ (k : PrimaryKey) (fields : List Field),
      (k.over fields).fieldNames = k.fieldNames := by
    intro k fields
    simp [PrimaryKey.over, PrimaryKey.fieldNames, resolve_name]
  rw [primaryKey_merge, Option.map_map, ← Option.map_or]
  exact congrArg (Option.map · _) (funext fun k => names k _)

theorem indices_merge (a b : Schema) :
    (a.merge b).indices = (a.indices ++ b.indices).map (·.over (a.merge b).fields) :=
  rfl

theorem merge_wellFormed {a b : Schema} (ha : a.WellFormed) (hb : b.WellFormed) :
    (a.merge b).WellFormed where
  distinct := nodup_mergeFields a.fields b.fields
  key := by
    intro k hk f hf
    obtain ⟨l, hl, rfl⟩ := Option.map_eq_some_iff.1 hk
    refine over_mem (fun g hg => mem_names_mergeFields.2 ?_) hf
    -- the key of the right side, or of the left one where the right one has none
    rcases Option.or_eq_some_iff.1 hl with hl | ⟨_, hl⟩
    · exact .inr (List.mem_map_of_mem (hb.key l hl g hg))
    · exact .inl (List.mem_map_of_mem (ha.key l hl g hg))
  indices := by
    intro i hi f hf
    obtain ⟨j, hj, rfl⟩ := List.mem_map.1 hi
    refine over_mem (fun g hg => mem_names_mergeFields.2 ?_) hf
    rcases List.mem_append.1 hj with hj | hj
    · exact .inl (List.mem_map_of_mem (ha.indices j hj g hg))
    · exact .inr (List.mem_map_of_mem (hb.indices j hj g hg))

theorem merge?_of_source_eq {a b : Schema} (h : a.source = b.source) :
    a.merge? b = .ok (a.merge b) := by
  simp [merge?, h]

theorem eq_merge_of_merge? {a b m : Schema} (h : a.merge? b = .ok m) : m = a.merge b := by
  unfold merge? at h
  split at h
  · exact (Except.ok.inj h).symm
  · cases h

theorem field?_name {s : Schema} {n : String} {f : Field} (h : s.field? n = some f) :
    f.name = n := by
  simpa using List.find?_some h

/-- A projection selects no name twice, because it looks before it takes. -/
theorem nodup_selected (s : Schema) (names : List String) :
    ((s.selected names).map (·.name)).Nodup := by
  refine List.foldlRecOn names _ (motive := fun fs => (List.map Field.name fs).Nodup)
    List.nodup_nil ?_
  intro fs h n _
  split
  · rename_i f hf
    split
    · exact h
    · rename_i hn
      have hnew : f.name ∉ fs.map (·.name) := by
        rw [field?_name hf]
        intro hm
        obtain ⟨g, hg, e⟩ := List.mem_map.1 hm
        exact hn (List.any_eq_true.2 ⟨g, hg, by simpa using e⟩)
      rw [← putBy_of_notMem Field.name hnew]
      exact nodup_putBy Field.name h
  · exact h

theorem selected_subset (s : Schema) (names : List String) :
    ∀ f ∈ s.selected names, f ∈ s.fields := by
  refine List.foldlRecOn names _ (motive := fun fs => ∀ f ∈ fs, f ∈ s.fields) (by simp) ?_
  intro fs h name _
  split
  · rename_i f hf
    split
    · exact h
    · intro g hg
      rcases List.mem_append.1 hg with hg | hg
      · exact h g hg
      · rw [List.mem_singleton.1 hg]
        exact List.mem_of_find?_eq_some hf
  · exact h

theorem nodup_project (s : Schema) (names : List String) :
    (s.project names).fieldNames.Nodup := by
  unfold project
  dsimp only
  split
  · exact List.nodup_nil
  · exact nodup_selected s names

theorem project_indices_mem {s : Schema} {names : List String} {i : Index} {f : Field}
    (hi : i ∈ (s.project names).indices) (hf : f ∈ i.fields) :
      f ∈ (s.project names).fields := by
  unfold project at hi ⊢
  dsimp only at hi ⊢
  split at hi
  · cases hi
  · rename_i hne
    rw [if_neg hne]
    obtain ⟨j, hj, rfl⟩ := List.mem_map.1 hi
    refine over_mem (fun g hg => ?_) hf
    have hall := List.all_eq_true.1 (List.mem_filter.1 hj).2 g.name (List.mem_map_of_mem hg)
    obtain ⟨k, hk, e⟩ := List.any_eq_true.1 hall
    exact List.mem_map.2 ⟨k, hk, by simpa using e⟩

@[simp] theorem project_primaryKey (s : Schema) (names : List String) :
    (s.project names).primaryKey = s.primaryKey := by
  unfold project
  dsimp only
  split <;> rfl

@[simp] theorem project_foreignKeys (s : Schema) (names : List String) :
    (s.project names).foreignKeys = s.foreignKeys := by
  unfold project
  dsimp only
  split <;> rfl

/-! ## Whatever is produced is well formed -/

/-- A schema that is produced by compiling tables with distinct column names, reading
definitions, and merging what was produced. -/
inductive Produced : Schema → Prop where
  | compiled {tree dialect bare : Value} {t : Table} {s : Schema}
      (built : Table.build tree dialect = .ok t) (distinct : t.columnNames.Nodup)
      (compiled : ofTable bare t = .ok s) : Produced s
  | defined {given : Option String} {definition : Value} {s : Schema}
      (read : Definition.read given definition = .ok s) : Produced s
  | merged {a b m : Schema} (left : Produced a) (right : Produced b)
      (merged : a.merge? b = .ok m) : Produced m

theorem ofTable_wellFormed {bare : Value} {t : Table} {s : Schema} (hd : t.columnNames.Nodup)
    (h : ofTable bare t = .ok s) : s.WellFormed := by
  obtain ⟨r, rfl⟩ := eq_compile_of_ofTable h
  exact compile_wellFormed r hd

theorem Produced.wellFormed {s : Schema} (h : Produced s) : s.WellFormed := by
  induction h with
  | compiled _ hd hs => exact ofTable_wellFormed hd hs
  | defined hs => exact Definition.read_wellFormed hs
  | merged _ _ hm iha ihb => exact eq_merge_of_merge? hm ▸ merge_wellFormed iha ihb

/-- Compiling, reading a definition and merging make well-formed schemas, and so does every
way to combine them; a projection keeps its fields distinct and its indices inside them, and
leaves the keys as they are. A table is compiled exactly if it has no default that is too long
to be written, where the configured type of a bare document is a text or none. -/
theorem makers_wellFormed :
    (∀ (tree dialect : Value) (t : Table),
      Table.build tree dialect = .ok t → t.columnNames.Nodup →
        (∀ bare, bare = .null ∨ (∃ n, bare = .text n) →
          (¬ t.HasLongDefault → ∃ s, ofTable bare t = .ok s ∧ s.WellFormed) ∧
          (t.HasLongDefault → ofTable bare t = .error .badValue)) ∧
        ∀ bare s, ofTable bare t = .ok s → s.WellFormed) ∧
    (∀ given definition, (∃ f, Definition.read given definition = .error f) ∨
      ∃ s, Definition.read given definition = .ok s ∧ s.WellFormed) ∧
    (∀ a b : Schema, a.WellFormed → b.WellFormed → a.source = b.source →
      ∃ m, a.merge? b = .ok m ∧ m.WellFormed) ∧
    (∀ (s : Schema) (names : List String), s.WellFormed →
      (s.project names).fieldNames.Nodup ∧
      (∀ i ∈ (s.project names).indices, ∀ f ∈ i.fields, f ∈ (s.project names).fields) ∧
      (s.project names).primaryKey = s.primaryKey ∧
      (s.project names).foreignKeys = s.foreignKeys) ∧
    ∀ s, Produced s → s.WellFormed := by
  refine ⟨?_, ?_, ?_, ?_, fun s h => h.wellFormed⟩
  · intro tree dialect t _ hd
    refine ⟨fun bare hb => ⟨?_, ofTable_eq_error hb⟩,
      fun bare s hs => ofTable_wellFormed hd hs⟩
    intro short
    obtain ⟨r, compiled⟩ := ofTable_eq_ok hb short
    exact ⟨_, compiled, compile_wellFormed r hd⟩
  · intro given definition
    cases h : Definition.read given definition with
    | error f => exact .inl ⟨f, rfl⟩
    | ok s => exact .inr ⟨s, rfl, Definition.read_wellFormed h⟩
  · intro a b ha hb hs
    exact ⟨_, merge?_of_source_eq hs, merge_wellFormed ha hb⟩
  · intro s names _
    exact ⟨nodup_project s names, fun i hi f hf => project_indices_mem hi hf,
      project_primaryKey s names, project_foreignKeys s names⟩

/-- The tree of a table with a key and an address. -/
def membersTree : Value :=
  .tagged "table" (.list [
    .text "members",
    .list [
      .tagged "column" (.list [.text "id", .tagged "enum" (.list []),
        .dict [(.text "primary_key", .bool true)]]),
      .tagged "column" (.list [.text "mail", .tagged "enum" (.list [])])]])

/-- The table of that tree. -/
def membersTable : Table where
  name := "members"
  dialect := .postgres
  columns := [
    { name := "id", type := .enum [], primaryKey := true },
    { name := "mail", type := .enum [] }]
  foreignKeys := []
  indices := []

/-- A definition that overrides the address and adds an index over it. -/
def membersDefinition : Value := .dict [
  (.text "source", .text "members"),
  (.text "fields",
    .list [.dict [(.text "name", .text "mail"), (.text "nullable", .bool false)]]),
  (.text "indices", .list [
    .dict [(.text "name", .text "by_mail"), (.text "fields", .list [.text "mail"])]])]

/-- The schema of that definition. -/
def membersOverride : Schema :=
  let mail : Field :=
    { name := "mail", type := .named "string", facts := { nullable := some false } }
  { source := "members", fields := [mail],
    indices := [{ name := "by_mail", fields := [mail] }] }

theorem not_hasLongDefault_members : ¬ membersTable.HasLongDefault := by
  decide

theorem makers_wellFormed_members :
    ∃ s m, Table.build membersTree (.dialect .postgres) = .ok membersTable ∧
      membersTable.columnNames.Nodup ∧ ¬ membersTable.HasLongDefault ∧
      ofTable .null membersTable = .ok s ∧
      Definition.read none membersDefinition = .ok membersOverride ∧
      s.merge? membersOverride = .ok m ∧ Produced m ∧ m.WellFormed ∧
      (m.project ["mail"]).fieldNames.Nodup := by
  obtain ⟨hc, _, hm, hp, hall⟩ := makers_wellFormed
  have hb : Table.build membersTree (.dialect .postgres) = .ok membersTable := by cbv
  have hd : membersTable.columnNames.Nodup := by decide
  have hr : Definition.read none membersDefinition = .ok membersOverride := by cbv
  have short := not_hasLongDefault_members
  obtain ⟨s, hs, hws⟩ :=
    ((hc membersTree (.dialect .postgres) membersTable hb hd).1 .null (.inl rfl)).1 short
  have hsource : s.source = "members" := by
    obtain ⟨r, rfl⟩ := eq_compile_of_ofTable hs
    rfl
  obtain ⟨m, hmerge, hwm⟩ := hm s membersOverride hws (hall _ (.defined hr)) hsource
  have hmade : Produced m := .merged (.compiled hb hd hs) (.defined hr) hmerge
  exact ⟨s, m, hb, hd, short, hs, hr, hmerge, hmade, hall m hmade, (hp m ["mail"] hwm).1⟩

/-- The tree of a table whose one column is an enumeration with a whole number as its
default. -/
def levelsTree (n : Int) : Value :=
  .tagged "table" (.list [
    .text "levels",
    .list [
      .tagged "column"
        (.list [.text "level", .tagged "enum" (.list [.text "low", .text "high"]),
        .dict [(.text "default", .int n)]])]])

/-- The table of that tree. -/
def levelsTable (n : Int) : Table where
  name := "levels"
  dialect := .postgres
  columns := [{ name := "level", type := .enum ["low", "high"], default := .int n }]
  foreignKeys := []
  indices := []

theorem build_levelsTree (n : Int) :
    Table.build (levelsTree n) (.dialect .postgres) = .ok (levelsTable n) := by
  cbv

theorem hasLongDefault_levels : (levelsTable (10 ^ Text.maxDigits)).HasLongDefault :=
  ⟨rfl, _, .head _, rfl, Value.hasLongInt_tenPower⟩

/-- Not every table that is built with distinct column names has a schema: a number may be too
long to be the default of an enumeration. -/
theorem not_compiled_longDefault :
    ¬ ∀ (tree dialect : Value) (t : Table), Table.build tree dialect = .ok t →
      t.columnNames.Nodup → ∃ s, ofTable .null t = .ok s ∧ s.WellFormed := by
  intro total
  obtain ⟨s, compiled, -⟩ := total _ _ _ (build_levelsTree (10 ^ Text.maxDigits))
    (List.nodup_singleton "level")
  rw [ofTable_eq_error (.inl rfl) hasLongDefault_levels] at compiled
  cases compiled

end Schema

end Schemata
