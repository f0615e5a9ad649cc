/-
Primary keys in generated models.

A composite key is declared field by field: no field is left to the convention, and a mark
says which ones belong to the key. The mark is set where a field is declared like others, and
the rules on timestamps, embedded schemas and associations come before that
(`filter_ofField?`). So a field of the key is without a mark exactly if one of them applies to
it; all others are marked, once each and in the order of the schema (`marked_ofSchema`).

Whether a schema has a key at all is decided twice. The declarations take a key over no field
for none; the writer of the key's line takes it for a single one and looks for its first
field. So a schema with such a key (`Schema.HasBareKey`) has no model. Every other schema has
one, and there the two agree. What is compiled, defined, merged and projected never has such a
key. Besides, a default that is stated must not be too long to be written
(`Schema.HasLongDefault`).
-/
import Schemata.Proofs.Model.Attributes
import Schemata.Proofs.Schema.KeyAgreement
import Schemata.Proofs.Schema.Projected
import Schemata.Schema.Record

namespace Schemata

/-! ## The marks of a composite key -/

namespace Declaration

/-- A declaration says that its field belongs to a composite key. -/
def isMarked (d : Declaration) : Bool :=
  match d.options.lookup "primary_key" with
  | some (.bool true) => true
  | _ => false

/-- A field is no timestamp, not embedded and no association. -/
def isOrdinary (f : Field) : Bool :=
  !timestampNames.contains f.name && !f.isEmbed && !f.isAssociation

theorem lookup_valuesOption (t : FieldType) :
    (valuesOption t).lookup "primary_key" = none := by
  cases t <;> rfl

theorem lookup_columnOption (f : Field) : (columnOption f).lookup "primary_key" = none := by
  unfold columnOption
  split
  · split <;> rfl
  · rfl

theorem lookup_defaultOption (v : Value) : (defaultOption v).lookup "primary_key" = none := by
  unfold defaultOption
  split
  · rfl
  · split <;> rfl

/-- The mark is the option of its name: no other option is called so. -/
@[simp] theorem isMarked_ofPlain (f : Field) (inKey : Bool) :
    (ofPlain f inKey).isMarked = inKey := by
  cases inKey with
  | true => simp [isMarked, ofPlain, List.lookup_append, lookup_valuesOption]
  | false =>
    by_cases generated : f.facts.functionDefault = some true <;>
      simp [isMarked, ofPlain, List.lookup, List.lookup_append, lookup_valuesOption,
        lookup_columnOption, lookup_defaultOption, generated]

@[simp] theorem isMarked_ofEmbed (f : Field) : (ofEmbed f).isMarked = false := by
  cases replaced : present f.facts.embedOnReplace <;>
    simp [isMarked, ofEmbed, List.lookup, lookup_columnOption, replaced]

/-- A field is declared with a mark exactly if it is ordinary and in a composite key. -/
theorem filter_ofField? (s : Schema) (f : Field) :
    (ofField? s f).filter isMarked =
      if isOrdinary f && s.isPrimaryKeyField f.name && s.hasCompositeKey then
        some (ofPlain f true)
      else none := by
  unfold ofField? isOrdinary
  cases timestampNames.contains f.name
  · cases f.isEmbed <;> cases f.isAssociation <;> cases s.isPrimaryKeyField f.name <;>
      cases s.hasCompositeKey <;> simp
  · rfl

theorem keyOf_of_isComposite {k : Schema.PrimaryKey} (composite : k.isComposite = true) :
    keyOf (some k) = some .composite := by
  obtain ⟨_ | ⟨_, _ | ⟨_, _⟩⟩⟩ := k
  · simp [Schema.PrimaryKey.isComposite] at composite
  · simp [Schema.PrimaryKey.isComposite] at composite
  · rfl

end Declaration

/-- Nothing is left out of a list exactly if as much is left of it. -/
theorem map_filter_eq_map_iff {α β : Type} {p : α → Bool} {f : α → β} {xs : List α} :
    (xs.filter p).map f = xs.map f ↔ ∀ x ∈ xs, p x = true := by
  constructor
  · intro same
    have lengths := congrArg List.length same
    rwa [List.length_map, List.length_map, List.length_filter_eq_length_iff] at lengths
  · intro all
    rw [List.filter_eq_self.2 all]

namespace Declarations

open Declaration (isOrdinary ofPlain ofField? filter_ofField?)

/-- The declarations that are marked as belonging to a composite key. -/
def marked (d : Declarations) : List Declaration :=
  d.fields.filter (·.isMarked)

theorem marked_ofSchema (s : Schema) :
    (ofSchema s).marked =
      (s.fields.filter fun f =>
        isOrdinary f && s.isPrimaryKeyField f.name && s.hasCompositeKey).map
          (ofPlain · true) := by
  simp only [marked, ofSchema, List.filter_filterMap, filter_ofField?]
  rw [← List.filterMap_eq_filter, List.map_filterMap]
  refine List.filterMap_congr fun f _ => ?_
  simp only [Option.guard, Option.map_if]

theorem names_map_ofPlain (fields : List Field) :
    (fields.map (ofPlain · true)).map (·.name) = fields.map (·.name) := by
  simp [ofPlain, Function.comp_def]

section Composite

variable {s : Schema} {k : Schema.PrimaryKey}

/-- Where a key is over fields of the schema, a field is in it by name exactly if it is in
it. -/
theorem isPrimaryKeyField_iff_mem (distinct : s.fieldNames.Nodup)
    (key : s.primaryKey = some k)
    (held : k.fields ⊆ s.fields) {f : Field} (hf : f ∈ s.fields) :
    s.isPrimaryKeyField f.name = true ↔ f ∈ k.fields := by
  simp only [Schema.isPrimaryKeyField, key, Option.map_some, Option.getD_some,
    List.contains_iff_mem, Schema.PrimaryKey.fieldNames, List.mem_map]
  constructor
  · rintro ⟨g, hg, name⟩
    rwa [← List.inj_on_of_nodup_map distinct (held hg) hf name]
  · intro member
    exact ⟨f, member, rfl⟩

/-- For a schema whose fields have distinct names and whose primary key is over two of them or
more: its key is declared as composite, and the marked declarations are those of the fields of
the key that are neither timestamps nor embedded nor associations, each once and in the order
of the schema. These are all fields of the key exactly if none of them is of another kind. -/
theorem marked_composite (distinct : s.fieldNames.Nodup) (key : s.primaryKey = some k)
    (composite : 2 ≤ k.fields.length) (held : k.fields ⊆ s.fields) :
    (ofSchema s).key = some .composite ∧
      (ofSchema s).marked =
        (s.fields.filter fun f => isOrdinary f && s.isPrimaryKeyField f.name).map
          (ofPlain · true) ∧
      (∀ f ∈ s.fields, s.isPrimaryKeyField f.name = true ↔ f ∈ k.fields) ∧
      ((ofSchema s).marked.map (·.name)).Nodup ∧
      ((ofSchema s).marked.map (·.name) = s.fieldNames.filter s.isPrimaryKeyField ↔
        ∀ f ∈ k.fields, isOrdinary f = true) := by
  have many : k.isComposite = true := decide_eq_true composite
  have several : s.hasCompositeKey = true := by
    rw [Schema.hasCompositeKey, key, Option.map_some, Option.getD_some, many]
  have marks : (ofSchema s).marked = (s.fields.filter fun f =>
      isOrdinary f && s.isPrimaryKeyField f.name).map (ofPlain · true) := by
    simp only [marked_ofSchema, several, Bool.and_true]
  have members := fun f (hf : f ∈ s.fields) => isPrimaryKeyField_iff_mem distinct key held hf
  refine ⟨?declared, marks, members, ?once, ?all⟩
  case declared =>
    exact (congrArg Declaration.keyOf key).trans (Declaration.keyOf_of_isComposite many)
  case once =>
    rw [marks, names_map_ofPlain]
    exact distinct.sublist (List.filter_sublist.map _)
  case all =>
    have chosen : (s.fields.filter fun f => isOrdinary f && s.isPrimaryKeyField f.name) =
        (s.fields.filter fun f => s.isPrimaryKeyField f.name).filter isOrdinary :=
      List.filter_filter.symm
    have names : s.fieldNames.filter s.isPrimaryKeyField =
        (s.fields.filter fun f => s.isPrimaryKeyField f.name).map (·.name) := List.filter_map
    rw [marks, names_map_ofPlain, chosen, names, map_filter_eq_map_iff]
    constructor
    · intro ordinary f hf
      exact ordinary f (List.mem_filter.2 ⟨held hf, (members f (held hf)).2 hf⟩)
    · intro ordinary f hf
      obtain ⟨mem, member⟩ := List.mem_filter.1 hf
      exact ordinary f ((members f mem).1 member)

end Composite

/-- The key of a table between members and roles. -/
def grantsKey : Schema.PrimaryKey where
  fields :=
    [{ name := "role_id", type := .named "id" }, { name := "user_id", type := .named "id" }]

/-- That table; its key is in another order than its fields. -/
def grants : Schema where
  source := "grants"
  fields := [
    { name := "user_id", type := .named "id" },
    { name := "note", type := .named "string" },
    { name := "role_id", type := .named "id" }]
  primaryKey := some grantsKey

theorem marked_composite_grants :
    (ofSchema grants).key = some .composite ∧
      (ofSchema grants).marked.map (·.name) = ["user_id", "role_id"] ∧
      ((ofSchema grants).marked.map (·.name)).Nodup := by
  have held : grantsKey.fields ⊆ grants.fields := by simp [grantsKey, grants]
  obtain ⟨declared, marks, -, once, -⟩ := marked_composite (by decide) rfl (by decide) held
  refine ⟨declared, ?_, once⟩
  rw [marks]
  rfl

/-- A table whose key is over one of the timestamps. -/
def datedGrants : Schema where
  source := "grants"
  fields := [
    { name := "role_id", type := .named "id" },
    { name := "inserted_at", type := .named "naive_datetime" }]
  primaryKey := some ⟨[
    { name := "role_id", type := .named "id" },
    { name := "inserted_at", type := .named "naive_datetime" }]⟩

/-- A timestamp of a composite key is not declared by itself, and so not marked. -/
theorem not_marked_datedGrants :
    ¬ ∀ (s : Schema) (k : Schema.PrimaryKey),
      s.fieldNames.Nodup → s.primaryKey = some k → 2 ≤ k.fields.length → k.fieldNames.Nodup →
        k.fields ⊆ s.fields →
        (ofSchema s).marked.map (·.name) = s.fieldNames.filter k.fieldNames.contains := by
  intro full
  have marks := full datedGrants ⟨datedGrants.fields⟩ (by decide) rfl (by decide) (by decide)
    (List.Subset.refl _)
  exact absurd marks (by decide)

end Declarations

/-! ## Keys over no field -/

namespace Schema

/-- The primary key is over no field. -/
def HasBareKey (s : Schema) : Prop :=
  s.primaryKey = some ⟨[]⟩

/-- A schema without its primary key. -/
def withoutKey (s : Schema) : Schema :=
  { s with primaryKey := none }

theorem not_hasBareKey_iff {s : Schema} :
    ¬ s.HasBareKey ↔ ∀ k ∈ s.primaryKey, k.fields ≠ [] := by
  unfold HasBareKey
  cases s.primaryKey with
  | none => simp
  | some k =>
    obtain ⟨fields⟩ := k
    simp

/-- A projection states no default that the schema does not state. -/
theorem HasLongDefault.of_project {s : Schema} {names : List String}
    (h : (s.project names).HasLongDefault) : s.HasLongDefault := by
  obtain ⟨f, hf, stated, long⟩ := h
  have key : (s.project names).singleKey? = s.singleKey? := by
    rw [singleKey?, project_primaryKey, singleKey?]
  rw [project_fields] at hf
  refine ⟨f, selected_subset s names f hf, ?_, long⟩
  rw [StatesDefault, key] at stated
  exact stated

/-- The declarations take a key over no field for none. -/
theorem ofSchema_withoutKey {s : Schema} (bare : s.HasBareKey) :
    Declarations.ofSchema s = .ofSchema s.withoutKey := by
  have key : s.primaryKey = some ⟨[]⟩ := bare
  have fields : Declaration.ofField? s = Declaration.ofField? s.withoutKey := by
    funext f
    simp [Declaration.ofField?, isPrimaryKeyField, withoutKey, key, PrimaryKey.fieldNames]
  unfold Declarations.ofSchema
  rw [key, fields]
  rfl

theorem fields_ne_nil_over {k : PrimaryKey} {fields : List Field} :
    (k.over fields).fields ≠ [] ↔ k.fields ≠ [] := by
  simp [PrimaryKey.over]

theorem fields_ne_nil_compile {r : TypeMapping.Rules} {t : Table}
    (distinct : t.columnNames.Nodup)
    {k : PrimaryKey} (hk : k ∈ (compile r t).primaryKey) : k.fields ≠ [] := by
  have marked : t.primaryKey ⊆ t.columns := List.filter_subset_self _
  have names := names_compileKey (r := r) distinct marked
  have key : compileKey (t.columns.map (·.toField r)) t.primaryKey = some k := hk
  intro bare
  rw [key, Option.map_some, PrimaryKey.fieldNames, bare] at names
  split at names
  · cases names
  · rename_i named
    exact named (Option.some.inj names).symm

/-- Names are given for every key that is read, and each of them is found. -/
theorem fields_ne_nil_primaryKey {source : Value} {fields : List Field} {names : List Value}
    {k : PrimaryKey} (h : Definition.primaryKey source fields names = .ok (some k)) :
    k.fields ≠ [] := by
  rcases Definition.primaryKey_cases h with ⟨-, nothing⟩ | ⟨given, found, named, key⟩
  · cases nothing
  · cases key
    rintro rfl
    have none_given := Definition.words_of_fieldsNamed named
    exact given (by simpa using none_given)

/-- No schema that is compiled, defined or merged has a key over no field. -/
theorem Produced.not_hasBareKey {s : Schema} (h : Produced s) : ¬ s.HasBareKey := by
  rw [not_hasBareKey_iff]
  induction h with
  | compiled _ distinct compiled =>
    obtain ⟨r, rfl⟩ := eq_compile_of_ofTable compiled
    exact fun k hk => fields_ne_nil_compile distinct hk
  | defined read =>
    obtain ⟨_, _, _, _, -, -, -, keyed⟩ := Definition.parts_of_read read
    intro k hk
    rw [Option.mem_def.1 hk] at keyed
    exact fields_ne_nil_primaryKey keyed
  | @merged a b m _ _ merged left right =>
    intro k hk
    rw [eq_merge_of_merge? merged, primaryKey_merge] at hk
    obtain ⟨l, hl, rfl⟩ := Option.map_eq_some_iff.1 hk
    rw [fields_ne_nil_over]
    rcases Option.or_eq_some_iff.1 hl with hl | ⟨-, hl⟩
    · exact right l hl
    · exact left l hl

end Schema

namespace Model

/-- A model that says nothing of a key: it states none, and has a line for each declaration
only. -/
def IsKeyless (m : Model) (d : Declarations) : Prop :=
  m.key = none ∧ m.lines = d.fields.map lineOf

theorem ofSchema_error {s : Schema} (bare : s.HasBareKey) :
    ofSchema s (.ofSchema s) = .error .badIndex := by
  have key : s.primaryKey = some ⟨[]⟩ := bare
  simp [ofSchema, keyLines, key, Schema.PrimaryKey.isComposite, Declarations.ofSchema,
    Declaration.keyOf]

/-- A model states the key of its schema; without one, it has no line for it. -/
theorem isKeyless_iff {s : Schema} {m : Model} (h : ofSchema s (.ofSchema s) = .ok m) :
    m.IsKeyless (.ofSchema s) ↔ s.primaryKey = none := by
  obtain ⟨lines, written, h⟩ := bind_eq_ok.1 h
  split at h
  case isTrue => cases h
  cases h
  unfold IsKeyless
  cases key : s.primaryKey with
  | none =>
    rw [keyLines, key] at written
    cases written
    simp
  | some k => simp

/-- Other than for a key over no field, the declarations say nothing of a key exactly if there
is none. -/
theorem key_eq_none_iff {s : Schema} (keyed : ¬ s.HasBareKey) :
    (Declarations.ofSchema s).key = none ∧ s.singleKey? = none ↔ s.primaryKey = none := by
  unfold Schema.HasBareKey at keyed
  unfold Schema.singleKey? Declarations.ofSchema
  match key : s.primaryKey with
  | none => simp [Declaration.keyOf]
  | some ⟨[]⟩ => exact absurd key keyed
  | some ⟨[f]⟩ => simp
  | some ⟨_ :: _ :: _⟩ => simp [Declaration.keyOf]

/-- A schema whose key can be stated has a text if all defaults that it states can be
written. -/
theorem exists_renderModel {s : Schema} (keyed : ¬ s.HasBareKey)
    (short : ¬ s.HasLongDefault) :
    ∃ text, s.renderModel = .ok text := by
  obtain ⟨m, made, -⟩ := ofSchema_eq_ok (Schema.not_hasBareKey_iff.1 keyed) short
  exact ⟨m.render, by rw [Schema.renderModel, made, ok_bind]⟩

theorem renderModel_error_of_bare {s : Schema} (bare : s.HasBareKey) :
    s.renderModel = .error .badIndex := by
  rw [Schema.renderModel, ofSchema_error bare, error_bind]

theorem renderModel_error_of_long {s : Schema} (keyed : ¬ s.HasBareKey)
    (long : s.HasLongDefault) :
    s.renderModel = .error .badValue := by
  obtain ⟨ls, written, -⟩ := names_keyLines (Schema.not_hasBareKey_iff.1 keyed)
  rw [Schema.renderModel, ofSchema_eq_error written long, error_bind]

/-- Every schema has a model and a text of it, unless its key is over no field or a default
that it states is too long to be written. Where the key is over no field, the declarations
take it for none, and there is no text. Everywhere else the model says nothing of a key
exactly if the declarations neither state one nor leave a field to the line of a single key.
What is compiled, defined and merged has a text if its defaults can be written, and so has
every projection of it. -/
theorem renderModel_total (s : Schema) :
    ((∃ text, s.renderModel = .ok text) ↔ ¬ s.HasBareKey ∧ ¬ s.HasLongDefault) ∧
      (s.HasBareKey → s.renderModel = .error .badIndex ∧
        Declarations.ofSchema s = .ofSchema s.withoutKey) ∧
      (¬ s.HasBareKey → s.HasLongDefault → s.renderModel = .error .badValue) ∧
      (∀ m, ofSchema s (.ofSchema s) = .ok m → s.renderModel = .ok m.render ∧
        (m.IsKeyless (.ofSchema s) ↔
          (Declarations.ofSchema s).key = none ∧ s.singleKey? = none)) ∧
      (s.Produced → ¬ s.HasLongDefault → ∀ names, (∃ text, s.renderModel = .ok text) ∧
        ∃ text, (s.project names).renderModel = .ok text) := by
  refine ⟨⟨?_, fun h => exists_renderModel h.1 h.2⟩,
    fun bare => ⟨renderModel_error_of_bare bare, Schema.ofSchema_withoutKey bare⟩,
    renderModel_error_of_long, ?_, ?_⟩
  · rintro ⟨written, h⟩
    have keyed : ¬ s.HasBareKey := by
      intro bare
      rw [renderModel_error_of_bare bare] at h
      cases h
    refine ⟨keyed, fun long => ?_⟩
    rw [renderModel_error_of_long keyed long] at h
    cases h
  · intro m made
    have keyed : ¬ s.HasBareKey := by
      intro bare
      rw [ofSchema_error bare] at made
      cases made
    refine ⟨by rw [Schema.renderModel, made, ok_bind], ?_⟩
    rw [isKeyless_iff made, key_eq_none_iff keyed]
  · intro produced short names
    have keyed : ¬ (s.project names).HasBareKey := by
      rw [Schema.HasBareKey, Schema.project_primaryKey]
      exact produced.not_hasBareKey
    exact ⟨exists_renderModel produced.not_hasBareKey short,
      exists_renderModel keyed fun long => short long.of_project⟩

/-- A schema as data, with a key over no field. -/
def bareKeyValue : Value := .dict [
  (.text "source", .text "events"),
  (.text "primary_key", .dict [(.text "fields", .list [])])]

/-- The schema of that data. -/
def bareKeySchema : Schema where
  source := "events"
  primaryKey := some ⟨[]⟩

theorem ofValue?_bareKeyValue : Schema.ofValue? bareKeyValue = some bareKeySchema := by
  cbv

theorem renderModel_total_members :
    (Schema.membersOverride.Produced ∧ ¬ Schema.membersOverride.HasLongDefault ∧
      (∃ text, Schema.membersOverride.renderModel = .ok text) ∧
      ∃ text, (Schema.membersOverride.project ["mail"]).renderModel = .ok text) ∧
      bareKeySchema.HasBareKey ∧ bareKeySchema.renderModel = .error .badIndex ∧
      Declarations.ofSchema bareKeySchema = .ofSchema bareKeySchema.withoutKey ∧
      (weighted (10 ^ Text.maxDigits)).HasLongDefault ∧
      (weighted (10 ^ Text.maxDigits)).renderModel = .error .badValue := by
  have read :
      Definition.read none Schema.membersDefinition = .ok Schema.membersOverride := by cbv
  have short : ¬ Schema.membersOverride.HasLongDefault := by decide
  have keyed : ¬ (weighted (10 ^ Text.maxDigits)).HasBareKey := fun bare => by cases bare
  obtain ⟨-, -, -, -, made⟩ := renderModel_total Schema.membersOverride
  obtain ⟨-, bare, -⟩ := renderModel_total bareKeySchema
  obtain ⟨-, -, long, -⟩ := renderModel_total (weighted (10 ^ Text.maxDigits))
  exact ⟨⟨.defined read, short, made (.defined read) short ["mail"]⟩, rfl,
    (bare rfl).1, (bare rfl).2,
    hasLongDefault_weighted, long keyed hasLongDefault_weighted⟩

/-- A schema as data, with a whole number as the default of its field. -/
def weightedValue (n : Int) : Value := .dict [
  (.text "source", .text "events"),
  (.text "fields", .list [.dict [
    (.text "name", .text "weight"), (.text "type", .text "integer"),
    (.text "meta", .dict [(.text "default", .int n)])]])]

theorem ofValue?_weightedValue (n : Int) :
    Schema.ofValue? (weightedValue n) = some (weighted n) := by
  cbv

/-- Data that is a schema need not have a text: its key may be over no field, and a default
may be too long to be written. -/
theorem not_rendered_bareKey :
    (¬ ∀ v s, Schema.ofValue? v = some s → ∃ text, s.renderModel = .ok text) ∧
      ¬ ∀ v s, Schema.ofValue? v = some s → ¬ s.HasBareKey →
        ∃ text, s.renderModel = .ok text := by
  constructor
  · intro total
    obtain ⟨text, written⟩ := total _ _ ofValue?_bareKeyValue
    cases written
  · intro total
    have keyed : ¬ (weighted (10 ^ Text.maxDigits)).HasBareKey := fun bare => by cases bare
    obtain ⟨text, written⟩ := total _ _ (ofValue?_weightedValue _) keyed
    rw [renderModel_error_of_long keyed hasLongDefault_weighted] at written
    cases written

end Model

end Schemata
