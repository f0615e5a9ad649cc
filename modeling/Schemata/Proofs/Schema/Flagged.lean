/-
Which fields of a schema are marked as foreign keys.

That a field belongs to a foreign key is said twice: by a flag of the field, which
declarations are made by, and by the list of foreign keys. The two are not kept in step. The
compilation of a table sets the flag, and does so for every column of a foreign key; a
definition lists foreign keys and sets no flag; and a merge unites the lists, but takes the
flag from the last side that sets one. So the flag of a field is what the last table says that
has a column of its name (`Assembled.follows`).

It follows when the type of foreign keys is declared. A foreign key counts if it is one of the
last table with its column; a foreign key of a definition does not count by itself.
-/
import Schemata.Proofs.Schema.Override
import Schemata.Proofs.Table.Marked

namespace Schemata

/-! ## The flags of a field that is read -/

namespace Definition

open Value (get? getD)

/-- The words for the flags of a field. -/
def flagWords : List String := ["primary_key", "foreign_key"]

theorem word?_of_stated {es : List (Value × Value)} :
    ∀ e ∈ stated es, ∀ word ∈ flagWords, e.1.word? ≠ some word := by
  intro e he
  obtain ⟨key, hkey, found⟩ := List.mem_filterMap.1 he
  obtain ⟨v, -, rfl⟩ := Option.map_eq_some_iff.1 found
  revert key
  simp [Value.word?, flagWords]

/-- What a form states, it states of embedded schemas and associations. -/
theorem word?_of_form {source name : Value} {es facts : List (Value × Value)}
    {type : FieldType}
    (formed : form source name es = .ok (facts, type)) :
    ∀ e ∈ facts, ∀ word ∈ flagWords, e.1.word? ≠ some word := by
  unfold form at formed
  split at formed
  · split at formed
    · cases formed
      simp [Value.word?, flagWords]
    · cases formed
      simp
  · split at formed
    · cases formed
      simp [embedFacts, Value.word?, flagWords]
    split at formed
    · cases formed
      simp [embedFacts, Value.word?, flagWords]
    · obtain ⟨_, -, formed⟩ := bind_eq_ok.1 formed
      cases formed

/-- An entry of a definition cannot set the flag of its field. -/
theorem foreignKey_of_field {source v : Value} {keys : List Value} {f : Field}
    (read : field source keys v = .ok f) : f.facts.foreignKey = none := by
  obtain ⟨es, formed, implied, -, form, known, -, -, -⟩ := facts_of_field read
  have silent : ∀ e ∈ stated es ++ formed ++ keyEntry keys (getD es "name"),
      e.1.word? ≠ some "foreign_key" := by
    intro e he
    have word : "foreign_key" ∈ flagWords := by decide
    rcases List.mem_append.1 he with he | he
    · rcases List.mem_append.1 he with he | he
      · exact word?_of_stated e he _ word
      · exact word?_of_form form e he _ word
    · unfold keyEntry at he
      split at he
      · rw [List.mem_singleton.1 he]
        decide
      · cases he
  have flag := (FieldMeta.readFrom_of_ofEntries? known).foreignKey
  rw [Value.optionalAt, Value.get?_eq_none_iff.2 silent] at flag
  exact (Option.some.inj flag).symm

theorem fieldsOf_eq_mapM (source : Value) (keys vs : List Value) :
    fieldsOf source keys vs = vs.mapM (field source keys) := by
  induction vs with
  | nil => rfl
  | cons v vs ih =>
    rw [fieldsOf, List.mapM_cons, ih]
    rfl

theorem foreignKey_of_read {given : Option String} {definition : Value} {s : Schema}
    (read : Definition.read given definition = .ok s) :
      ∀ f ∈ s.fields, f.facts.foreignKey = none := by
  obtain ⟨source, keys, ds, items, -, -, made, -⟩ := parts_of_read read
  rw [fieldsOf_eq_mapM] at made
  intro f hf
  obtain ⟨v, -, own⟩ := mem_of_mapM_ok made hf
  exact foreignKey_of_field own

end Definition

namespace Schema

/-! ## Tables that a schema is made of -/

/-- The last of the tables that has a column of this name. -/
def lastWith (ts : List Table) (n : String) : Option Table :=
  ts.reverse.find? fun t => t.columnNames.contains n

theorem lastWith_append (as bs : List Table) (n : String) :
    lastWith (as ++ bs) n = (lastWith bs n).or (lastWith as n) := by
  rw [lastWith, List.reverse_append, List.find?_append]
  rfl

theorem lastWith_eq_none_iff {ts : List Table} {n : String} :
    lastWith ts n = none ↔ ∀ t ∈ ts, n ∉ t.columnNames := by
  simp [lastWith]

/-- A schema that is compiled from a table, read from a definition, or merged from two such
schemas, with the tables in it in the order of the merges. -/
inductive Assembled : List Table → Schema → Prop
  | compiled {tree dialect bare : Value} {t : Table} {s : Schema}
    (built : Table.build tree dialect = .ok t) (made : ofTable bare t = .ok s) :
      Assembled [t] s
  | defined {given : Option String} {definition : Value} {s : Schema}
    (read : Definition.read given definition = .ok s) : Assembled [] s
  | merged {as bs : List Table} {a b s : Schema} (left : Assembled as a)
    (right : Assembled bs b)
    (made : a.merge? b = .ok s) : Assembled (as ++ bs) s

/-- The flag of a field is that of a column of its name in the last table with one. -/
def Told (ts : List Table) (f : Field) : Prop :=
  match lastWith ts f.name with
  | none => f.facts.foreignKey = none
  | some t => ∃ c ∈ t.columns, c.name = f.name ∧ f.facts.foreignKey = some c.foreignKey

/-! ## Unions of fields -/

section Unions

variable {left right : List Field} {p : Field → Prop}

/-- Some fields of the right side have been taken up: what is there now is a field of the left
side that was not met, or came of one that was. -/
theorem mem_left_or_of_find?
    (onRight : ∀ f ∈ right, f.name ∉ left.map (·.name) → p f)
    (onBoth : ∀ f ∈ left, ∀ g ∈ right, g.name = f.name → p (f.merge g))
    (again : ∀ f, p f → ∀ g ∈ right, g.name = f.name → p (f.merge g))
    {taken : List Field} (within : taken ⊆ right) {n : String} {f : Field}
    (found : (taken.foldl addField (lastByKey (·.name) left)).find? (·.name == n) = some f) :
    n ∉ taken.map (·.name) ∧ f ∈ left ∨ p f := by
  induction taken using List.reverseRecOn generalizing f with
  | nil =>
    rw [List.foldl_nil, find?_lastByKey Field.name] at found
    exact .inl ⟨by simp, List.mem_reverse.1 (List.mem_of_find?_eq_some found)⟩
  | append_singleton taken g ih =>
    obtain ⟨earlier, own⟩ := List.append_subset.1 within
    have hg : g ∈ right := own (.head _)
    rw [List.foldl_append, List.foldl_cons, List.foldl_nil, find?_addField] at found
    by_cases same : g.name = n
    · subst same
      rw [List.find?_singleton, if_pos (beq_self_eq_true _)] at found
      cases before : (taken.foldl addField (lastByKey (·.name) left)).find?
          (·.name == g.name) with
      | none =>
        rw [before] at found
        cases found
        have unknown : g.name ∉
            (taken.foldl addField (lastByKey (·.name) left)).map (·.name) := by
          simpa using before
        exact .inr (onRight _ hg fun onLeft => unknown
          (mem_names_foldl_addField.2 (.inl ((mem_keys_lastByKey Field.name).2 onLeft))))
      | some e =>
        rw [before] at found
        cases found
        have named : e.name = g.name := by simpa using List.find?_some before
        rcases ih earlier before with ⟨-, he⟩ | he
        · exact .inr (onBoth e he g hg named.symm)
        · exact .inr (again e he g hg named.symm)
    · have other : ¬ (g.name == n) = true := by simpa using same
      rw [List.find?_singleton, if_neg other, Option.merge_none_right] at found
      rcases ih earlier found with ⟨notMem, hf⟩ | hf
      · refine .inl ⟨fun named => ?_, hf⟩
        rcases List.mem_append.1 (List.map_append ▸ named) with named | named
        · exact notMem named
        · exact same (List.mem_singleton.1 named).symm
      · exact .inr hf

/-- What holds of the fields of one side alone, and is kept when a field of the right side is
merged into one, holds of the fields of a union. -/
theorem mergeFields_induction
    (onLeft : ∀ f ∈ left, f.name ∉ right.map (·.name) → p f)
    (onRight : ∀ f ∈ right, f.name ∉ left.map (·.name) → p f)
    (onBoth : ∀ f ∈ left, ∀ g ∈ right, g.name = f.name → p (f.merge g))
    (again : ∀ f, p f → ∀ g ∈ right, g.name = f.name → p (f.merge g)) :
    ∀ f ∈ mergeFields left right, p f := by
  intro f hf
  have found := (mem_iff_find? Field.name (nodup_mergeFields left right)).1 hf
  rcases mem_left_or_of_find? onRight onBoth again
    (List.Subset.refl _) found with ⟨unmet, hf⟩ | hf
  · exact onLeft f hf unmet
  · exact hf

end Unions

/-! ## What the tables tell -/

theorem told_of_right {as bs : List Table} {f : Field} (told : Told bs f)
    (none : lastWith as f.name = none) : Told (as ++ bs) f := by
  rw [Told, lastWith_append, none, Option.or_none]
  exact told

theorem told_of_left {as bs : List Table} {f : Field} (told : Told as f)
    (none : lastWith bs f.name = none) : Told (as ++ bs) f := by
  rw [Told, lastWith_append, none, Option.none_or]
  exact told

/-- A merge takes the flag from the right side if that one has it from a table, and else from
the left side. -/
theorem Told.merge {as bs : List Table} {f g : Field} (left : Told as f) (right : Told bs g)
    (named : g.name = f.name) : Told (as ++ bs) (f.merge g) := by
  have name : (f.merge g).name = g.name := rfl
  have flag : (f.merge g).facts.foreignKey = g.facts.foreignKey.or f.facts.foreignKey := rfl
  rw [Told, name, flag, lastWith_append]
  rw [Told, ← named] at left
  rw [Told] at right
  cases last : lastWith bs g.name with
  | none =>
    rw [last] at right
    rw [right, Option.none_or, Option.none_or]
    exact left
  | some t =>
    rw [last] at right
    obtain ⟨c, hc, same, set⟩ := right
    rw [Option.some_or]
    exact ⟨c, hc, same, by rw [set, Option.some_or]⟩

/-- The flags of a schema are those of its tables, all columns of which it has. -/
structure Follows (ts : List Table) (s : Schema) : Prop where
  columns : ∀ t ∈ ts, t.columnNames ⊆ s.fieldNames
  flags : ∀ f ∈ s.fields, Told ts f

theorem Follows.lastWith_eq_none {ts : List Table} {s : Schema}
    (h : Follows ts s) {n : String}
    (unknown : n ∉ s.fieldNames) : lastWith ts n = none :=
  lastWith_eq_none_iff.2 fun t ht known => unknown (h.columns t ht known)

/-- The only table of a compiled schema has a column for every field. -/
theorem lastWith_compile {r : TypeMapping.Rules} {t : Table} {f : Field}
    (hf : f ∈ (compile r t).fields) : lastWith [t] f.name = some t := by
  obtain ⟨c, hc, rfl⟩ := List.mem_map.1 hf
  simpa [lastWith, Table.columnNames] using ⟨c, hc, rfl⟩

theorem follows_compile (r : TypeMapping.Rules) (t : Table) : Follows [t] (compile r t) where
  columns := by simp [fieldNames_compile]
  flags := by
    intro f hf
    rw [Told, lastWith_compile hf]
    obtain ⟨c, hc, rfl⟩ := List.mem_map.1 hf
    exact ⟨c, hc, rfl, rfl⟩

theorem follows_read {given : Option String} {definition : Value} {s : Schema}
    (read : Definition.read given definition = .ok s) : Follows [] s where
  columns := by simp
  flags := fun f hf => Definition.foreignKey_of_read read f hf

theorem Follows.merge {as bs : List Table} {a b : Schema} (left : Follows as a)
    (right : Follows bs b) : Follows (as ++ bs) (a.merge b) where
  columns := by
    intro t ht n hn
    refine mem_names_mergeFields.2 ?_
    rcases List.mem_append.1 ht with ht | ht
    · exact .inl (left.columns t ht hn)
    · exact .inr (right.columns t ht hn)
  flags := by
    refine mergeFields_induction ?_ ?_ ?_ ?_
    · exact fun f hf unknown =>
        told_of_left (left.flags f hf) (right.lastWith_eq_none unknown)
    · exact fun g hg unknown =>
        told_of_right (right.flags g hg) (left.lastWith_eq_none unknown)
    · exact fun f hf g hg named => (left.flags f hf).merge (right.flags g hg) named
    · intro f told g hg named
      -- the right side has its say once more
      have twice := told.merge (right.flags g hg) named
      rw [Told, lastWith_append, lastWith_append, ← Option.or_assoc, Option.or_self] at twice
      rw [Told, lastWith_append]
      exact twice

/-- However a schema is put together, its flags are those of its tables. -/
theorem Assembled.follows {ts : List Table} {s : Schema} (h : Assembled ts s) :
    Follows ts s := by
  induction h with
  | compiled _ made =>
    obtain ⟨r, rfl⟩ := eq_compile_of_ofTable made
    exact follows_compile r _
  | defined read => exact follows_read read
  | merged _ _ made left right =>
    rw [eq_merge_of_merge? made]
    exact left.merge right

theorem Assembled.marksKeys {ts : List Table} {s : Schema} (h : Assembled ts s) :
    ∀ t ∈ ts, t.MarksKeys := by
  induction h with
  | compiled built _ => simpa using Table.built_marksKeys built
  | defined _ => simp
  | merged _ _ _ left right => exact fun t ht =>
    (List.mem_append.1 ht).elim (left t) (right t)

/-! ## The type of foreign keys -/

theorem mem_of_lastWith {ts : List Table} {n : String} {t : Table}
    (h : lastWith ts n = some t) :
    t ∈ ts :=
  List.mem_reverse.1 (List.mem_of_find?_eq_some h)

/-- A field is marked if the last table with a column of its name has a foreign key over
it. -/
theorem Assembled.isForeignKey {ts : List Table} {s : Schema} (h : Assembled ts s) {f : Field}
    (hf : f ∈ s.fields) {t : Table} (last : lastWith ts f.name = some t)
    (keyed : t.isForeignKeyColumn f.name = true) : f.isForeignKey = true := by
  have told := h.follows.flags f hf
  rw [Told, last] at told
  obtain ⟨c, hc, named, flag⟩ := told
  have marked : c.foreignKey = true :=
    h.marksKeys t (mem_of_lastWith last) c hc (named ▸ keyed)
  rw [Field.isForeignKey, flag, marked]
  rfl

/-- A field is marked only if the last table with a column of its name marks such a column. -/
theorem Assembled.exists_column {ts : List Table} {s : Schema}
    (h : Assembled ts s) {f : Field}
    (hf : f ∈ s.fields) (marked : f.isForeignKey = true) :
    ∃ t, lastWith ts f.name = some t ∧ ∃ c ∈ t.columns, c.name = f.name ∧
      c.foreignKey = true := by
  have told := h.follows.flags f hf
  rw [Field.isForeignKey, beq_iff_eq] at marked
  rw [Told, marked] at told
  cases last : lastWith ts f.name with
  | none =>
    rw [last] at told
    cases told
  | some t =>
    rw [last] at told
    obtain ⟨c, hc, named, flag⟩ := told
    exact ⟨t, rfl, c, hc, named, (Option.some.inj flag).symm⟩

/-- However a schema is put together of tables and definitions: a foreign key over a field of
a binary type has the type of foreign keys declared, if it is one of the last table with such
a column. And the type is declared only for a field of a binary type that the last table with
such a column marks. -/
theorem Assembled.hasBinaryForeignKey {ts : List Table} {s : Schema} (h : Assembled ts s) :
    (∀ k ∈ s.foreignKeys, ∀ f ∈ s.fields, f.name = k.field → f.type.isBinaryKey = true →
      (∃ t, lastWith ts k.field = some t ∧ t.isForeignKeyColumn k.field = true) →
        (Declarations.ofSchema s).hasBinaryForeignKey = true) ∧
    ((Declarations.ofSchema s).hasBinaryForeignKey = true →
      ∃ f ∈ s.fields, f.type.isBinaryKey = true ∧ ∃ t, lastWith ts f.name = some t ∧
        ∃ c ∈ t.columns, c.name = f.name ∧ c.foreignKey = true) := by
  constructor
  · rintro k - f hf named binary ⟨t, last, keyed⟩
    rw [← named] at last keyed
    refine List.any_eq_true.2 ⟨f, hf, ?_⟩
    rw [h.isForeignKey hf last keyed, binary]
    rfl
  · intro declared
    obtain ⟨f, hf, both⟩ := List.any_eq_true.1 declared
    rw [Bool.and_eq_true] at both
    exact ⟨f, hf, both.2, h.exists_column hf both.1⟩

/-- A table by itself keeps its flags and its foreign keys in step. -/
theorem hasBinaryForeignKey_compiled {tree dialect bare : Value} {t : Table} {s : Schema}
    (built : Table.build tree dialect = .ok t) (made : ofTable bare t = .ok s) :
    ∀ k ∈ s.foreignKeys, ∀ f ∈ s.fields, f.name = k.field → f.type.isBinaryKey = true →
      (Declarations.ofSchema s).hasBinaryForeignKey = true := by
  intro k hk f hf named binary
  have assembled : Assembled [t] s := .compiled built made
  obtain ⟨r, rfl⟩ := eq_compile_of_ofTable made
  have keyed : t.isForeignKeyColumn f.name = true := by
    obtain ⟨constraint, mem, compiled⟩ := List.mem_filterMap.1 hk
    obtain ⟨column, first, rfl⟩ := Option.map_eq_some_iff.1 compiled
    refine List.any_eq_true.2 ⟨constraint, mem, ?_⟩
    rw [named]
    exact List.contains_iff_mem.2 (List.mem_of_head? first)
  refine List.any_eq_true.2 ⟨f, hf, ?_⟩
  rw [assembled.isForeignKey hf (lastWith_compile hf) keyed, binary]
  rfl

section Badges

open Value (tagged)
open Table

/-- A column for the owner of a badge. -/
def ownerColumn : Value :=
  tagged "column" (.list [.text "owner", tagged "enum" (.list []), .null])

/-- A foreign key over that column. -/
def ownerKey : Value :=
  tagged "foreign_key"
    (.list [.null, .list [.text "owner"], .text "owners", .list [.text "id"], .null])

/-- The table of badges that the two make. -/
def badgesTable : Table where
  name := "badges"
  dialect := .postgres
  columns := [{ name := "owner", type := .enum [], foreignKey := true }]
  foreignKeys := [⟨none, ["owner"], "owners", ["id"], none, none⟩]
  indices := []

theorem visit_ownerColumn :
    visit (some .postgres) ownerColumn =
      .ok (.column { name := "owner", type := .enum [] }) := by
  have raw : rawFlags .null = .ok [] := rfl
  have dropped : (Value.drop [] "default").mapM (visitEntry (some .postgres)) = .ok [] := rfl
  have own : Value.getD [] "default" = .null := rfl
  have default : plainDefault (some .postgres) .null = .ok .null := rfl
  have name : visit (some .postgres) (.text "owner") = .ok (.value (.text "owner")) :=
    visit_leaf rfl (by simp)
  have type : visit (some .postgres) (tagged "enum" (.list [])) =
      .ok (.value (.type (.enum []))) := by
    rw [visit_known (t := .enum) rfl, handle.eq_def]
    rfl
  have missing (key : String) : Value.get? [] key = none := rfl
  rw [ownerColumn, visit_column, columnPart_list, raw, ok_bind, dropped, own,
    defaultComponent_of_plain rfl, default, name, typeComponent_of_tagged rfl, type]
  simp [columnOf, Value.any_put, Value.withDefault, Value.get?_put, Value.getD_put_self,
    Part.toValue, Value.require, missing]

theorem build_badgesTable :
    build (tagged "table"
      (.list [.text "badges", .list [ownerColumn], .list [ownerKey], .list []]))
      (.dialect .postgres) = .ok badgesTable := by
  have found : Registry.find (.dialect .postgres) = .ok .postgres := rfl
  have text (s : String) : visit (some .postgres) (.text s) = .ok (.value (.text s)) :=
    visit_leaf rfl (by simp)
  have null : visit (some .postgres) .null = .ok (.value .null) := visit_leaf rfl (by simp)
  have nil : visit (some .postgres) (.list []) = .ok (.items []) := by
    rw [visit_list]
    rfl
  have key : visit (some .postgres) ownerKey =
      .ok (.foreignKey ⟨none, ["owner"], "owners", ["id"], none, none⟩) := by
    rw [ownerKey, visit_foreignKey, foreignKeyPart_list, null, text, visit_list, visit_list,
      List.mapM_cons, List.mapM_cons, text, text]
    rfl
  rw [build, found, ok_bind, visit_table, tablePart_list, text, listComponent_list,
    listComponent_list, listComponent_list, nil, visit_list, visit_list, List.mapM_cons,
    List.mapM_cons, visit_ownerColumn, key]
  rfl

/-- A definition of badges, with the foreign keys that it lists. -/
def badgesDefinition (keys : List Value) : Value := .dict [
  (.text "source", .text "badges"),
  (.text "fields",
    .list [.dict [(.text "name", .text "owner"), (.text "type", .text "binary_id")]]),
  (.text "foreign_keys", .list keys)]

/-- What is read from that definition. -/
def badges (keys : List ForeignKey) : Schema where
  source := "badges"
  fields := [{ name := "owner", type := .named "binary_id" }]
  foreignKeys := keys

/-- The foreign key of a table counts although the type of its field comes from a
definition. -/
theorem hasBinaryForeignKey_badges : ∃ s, Assembled [badgesTable] s ∧
    s.foreignKeyFieldNames = ["owner"] ∧
      (Declarations.ofSchema s).hasBinaryForeignKey = true ∧
      ∃ f ∈ s.fields, f.type.isBinaryKey = true ∧
        ∃ t, lastWith [badgesTable] f.name = some t := by
  obtain ⟨r, compiled⟩ := ofTable_eq_ok (.inl rfl) (by decide : ¬ badgesTable.HasLongDefault)
  have read : Definition.read none (badgesDefinition []) = .ok (badges []) := by cbv
  have assembled : Assembled [badgesTable] ((compile r badgesTable).merge (badges [])) :=
    .merged (.compiled build_badgesTable compiled) (.defined read) rfl
  obtain ⟨emitted, only⟩ := assembled.hasBinaryForeignKey
  have declared := emitted ⟨"owner", "owners", some "id", none⟩ (.head _) _ (.head _) rfl rfl
    ⟨badgesTable, rfl, rfl⟩
  obtain ⟨f, hf, binary, t, last, -⟩ := only declared
  exact ⟨_, assembled, rfl, declared, f, hf, binary, t, last⟩

/-- The foreign key of a definition does not count by itself, although its field is of a
binary type. -/
theorem not_hasBinaryForeignKey_defined :
    ¬ ∀ ts s, Assembled ts s → ∀ k ∈ s.foreignKeys, ∀ f ∈ s.fields, f.name = k.field →
      f.type.isBinaryKey = true → (Declarations.ofSchema s).hasBinaryForeignKey = true := by
  intro claim
  have read : Definition.read none (badgesDefinition
      [.dict [(.text "field", .text "owner"), (.text "references_table", .text "owners")]]) =
        .ok (badges [⟨"owner", "owners", none, none⟩]) := by cbv
  have declared := claim [] _ (.defined read) _ (.head _) _ (.head _) rfl rfl
  exact absurd declared (by decide)

end Badges

end Schema

end Schemata
