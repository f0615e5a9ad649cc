/-
The attributes of a generated model.

Three makers write the lines of a class: the one for a single key, the one for declarations,
and the block for the timestamps. Each leaves out what another one writes, so that no field
should be lost and none written twice. What has to balance is told in two steps: which names
each maker writes (`names_keyLines`, `fieldNames_ofSchema`, `writtenNames`), and which fields
these are (`Schema.Keeps`).

A timestamp is declared with the other one or not at all, so that a schema with one of the two
loses it. That no name is written twice is said of a single key that is neither embedded nor a
timestamp: the line of a key is written without a look at either.

There is a model to speak of only if each default that it states can be written
(`Schema.HasLongDefault`); of all that a declaration says, nothing else can be too long.
-/
import Schemata.Model.Source
import Schemata.Proofs.Steps
import Schemata.Proofs.Value.Written

namespace Schemata

/-! ## What is kept -/

namespace Schema

/-- The name of the field of a single key. -/
def singleKey? (s : Schema) : Option String :=
  match s.primaryKey with
  | some ⟨[k]⟩ => some k.name
  | _ => none

/-- The schema has both timestamps. -/
def HasTimestamps (s : Schema) : Prop :=
  ∀ n ∈ Declaration.timestampNames, n ∈ s.fieldNames

/-- The model of a schema has an attribute for a field. -/
@[mk_iff]
inductive Keeps (s : Schema) (f : Field) : Prop
  /-- The field of a single key has a line of its own. -/
  | key (single : s.singleKey? = some f.name)
  /-- A timestamp is kept together with the other one. -/
  | timestamp (named : f.name ∈ Declaration.timestampNames) (both : s.HasTimestamps)
  /-- Other fields are kept unless they only stand for an association. -/
  | declared (named : f.name ∉ Declaration.timestampNames)
      (held : f.isEmbed = true ∨ f.isAssociation = false)

/-- A primary key is over at least one field, and its fields are by name among those of the
schema. -/
def KeyWithin (s : Schema) : Prop :=
  ∀ k ∈ s.primaryKey, k.fields ≠ [] ∧ ∀ f ∈ k.fields, f.name ∈ s.fieldNames

/-- The field of a single key is neither embedded nor named like a timestamp. -/
def HasPlainKey (s : Schema) : Prop :=
  ∀ f ∈ s.fields, s.singleKey? = some f.name →
    f.isEmbed = false ∧ f.name ∉ Declaration.timestampNames

/-- A field is declared with its default: it is no timestamp, not embedded, no association,
and not left to the line of a single key. -/
def StatesDefault (s : Schema) (f : Field) : Prop :=
  f.name ∉ Declaration.timestampNames ∧ f.isEmbed = false ∧ f.isAssociation = false ∧
    s.singleKey? ≠ some f.name

/-- Some field is declared with a default that is too long to be written. -/
def HasLongDefault (s : Schema) : Prop :=
  ∃ f ∈ s.fields, s.StatesDefault f ∧ f.facts.default.hasLongInt = true

instance (s : Schema) : Decidable s.HasTimestamps :=
  inferInstanceAs (Decidable (∀ n ∈ Declaration.timestampNames, n ∈ s.fieldNames))

instance (s : Schema) (f : Field) : Decidable (s.Keeps f) :=
  decidable_of_iff _ (keeps_iff s f).symm

instance (s : Schema) : Decidable s.KeyWithin :=
  inferInstanceAs
    (Decidable (∀ k ∈ s.primaryKey, k.fields ≠ [] ∧ ∀ f ∈ k.fields, f.name ∈ s.fieldNames))

instance (s : Schema) : Decidable s.HasPlainKey :=
  inferInstanceAs (Decidable (∀ f ∈ s.fields, s.singleKey? = some f.name →
    f.isEmbed = false ∧ f.name ∉ Declaration.timestampNames))

instance (s : Schema) (f : Field) : Decidable (s.StatesDefault f) :=
  inferInstanceAs (Decidable (_ ∧ _))

instance (s : Schema) : Decidable s.HasLongDefault :=
  inferInstanceAs
    (Decidable (∃ f ∈ s.fields, s.StatesDefault f ∧ f.facts.default.hasLongInt = true))

/-- The field of a single key is the one that is in the key while no other one is. -/
theorem singleKey?_eq_some_iff {s : Schema} {n : String} :
    s.singleKey? = some n ↔ s.isPrimaryKeyField n = true ∧ s.hasCompositeKey = false := by
  unfold singleKey? isPrimaryKeyField hasCompositeKey
  match s.primaryKey with
  | none => simp
  | some ⟨[]⟩ => simp [PrimaryKey.fieldNames]
  | some ⟨[f]⟩ => simp [PrimaryKey.fieldNames, PrimaryKey.isComposite, eq_comm]
  | some ⟨_ :: _ :: _⟩ => simp [PrimaryKey.isComposite]

theorem mem_fieldNames_of_singleKey? {s : Schema} (within : s.KeyWithin) {n : String}
    (single : s.singleKey? = some n) : n ∈ s.fieldNames := by
  unfold singleKey? at single
  split at single
  · rename_i f key
    rw [← Option.some.inj single]
    exact (within _ key).2 f (.head _)
  · cases single

end Schema

/-! ## Declarations -/

namespace Declaration

theorem name_of_ofField? {s : Schema} {f : Field} {d : Declaration}
    (h : ofField? s f = some d) :
    d.name = f.name := by
  unfold ofField? at h
  split at h
  · cases h
  split at h
  · cases h
    rfl
  split at h
  · cases h
  split at h
  · split at h
    · cases h
      rfl
    · cases h
  · cases h
    rfl

/-- A field has a declaration of its own if it is kept, but neither as a timestamp nor by the
line of a single key. -/
theorem isSome_ofField? {s : Schema} {f : Field} :
    (ofField? s f).isSome = true ↔
      f.name ∉ timestampNames ∧
        (f.isEmbed = true ∨ f.isAssociation = false ∧ s.singleKey? ≠ some f.name) := by
  rw [ne_eq, Schema.singleKey?_eq_some_iff]
  unfold ofField?
  by_cases named : f.name ∈ timestampNames
  · simp [named]
  · cases embedded : f.isEmbed <;> cases association : f.isAssociation <;>
      cases member : s.isPrimaryKeyField f.name <;> cases composite : s.hasCompositeKey <;>
      simp [named]

end Declaration

namespace Declarations

/-- The declared names are those of the fields that have a declaration of their own, in their
order. -/
theorem fieldNames_ofSchema (s : Schema) :
    (ofSchema s).fieldNames =
      (s.fields.filter fun f => (Declaration.ofField? s f).isSome).map (·.name) := by
  simp only [fieldNames, ofSchema]
  induction s.fields with
  | nil => rfl
  | cons f fs ih =>
    cases h : Declaration.ofField? s f with
    | none => simpa [h] using ih
    | some d => simpa [h, Declaration.name_of_ofField? h] using ih

theorem mem_fieldNames_ofSchema {s : Schema} {n : String} :
    n ∈ (ofSchema s).fieldNames ↔
      ∃ f ∈ s.fields, f.name = n ∧ f.name ∉ Declaration.timestampNames ∧
        (f.isEmbed = true ∨ f.isAssociation = false ∧ s.singleKey? ≠ some f.name) := by
  rw [fieldNames_ofSchema]
  simp only [List.mem_map, List.mem_filter, Declaration.isSome_ofField?]
  exact ⟨fun ⟨f, ⟨mem, held⟩, name⟩ => ⟨f, mem, name, held⟩,
    fun ⟨f, mem, name, held⟩ => ⟨f, ⟨mem, held⟩, name⟩⟩

theorem nodup_fieldNames_ofSchema {s : Schema} (distinct : s.fieldNames.Nodup) :
    (ofSchema s).fieldNames.Nodup := by
  rw [fieldNames_ofSchema]
  exact distinct.sublist (List.filter_sublist.map _)

theorem timestamps_ofSchema (s : Schema) :
    (ofSchema s).timestamps = true ↔ s.HasTimestamps := by
  simp [ofSchema, Schema.HasTimestamps, Schema.field?, Schema.fieldNames]

end Declarations

/-! ## Defaults that are stated -/

namespace Declaration

open Model (isRefused)

/-- What is the same as a generated default is a word, and no number. -/
theorem hasLongInt_of_same {v : Value} {d : SqlDefault}
    (same : v.same (.generated d) = true) :
    v.hasLongInt = false := by
  cases v with
  | int _ | list _ | tuple _ | set _ | dict _ | record _ _ =>
    simp [Value.same, Value.sameLeaf, Value.word?, Value.int?] at same
  | _ => rfl

/-- An option that is stated cannot be written. -/
def isLong (o : String × Value) : Bool :=
  o.1 != "values" && o.2.hasLongInt

theorem isRefused_eq_any (d : Declaration) : isRefused d = d.options.any isLong := rfl

theorem any_isLong_valuesOption (t : FieldType) : (valuesOption t).any isLong = false := by
  cases t <;> rfl

theorem any_isLong_columnOption (f : Field) : (columnOption f).any isLong = false := by
  unfold columnOption
  split
  · split <;> rfl
  · rfl

theorem any_isLong_defaultOption (v : Value) :
    (defaultOption v).any isLong = v.hasLongInt := by
  unfold defaultOption
  split
  · rfl
  · split
    case isTrue same => rw [hasLongInt_of_same same]; rfl
    case isFalse => simp [isLong]

/-- Of a field only the default may be too long: its other options are texts and marks. -/
theorem isRefused_ofPlain (f : Field) (inKey : Bool) :
    isRefused (ofPlain f inKey) = f.facts.default.hasLongInt := by
  have mark :
      (if inKey then [("primary_key", Value.bool true)] else []).any isLong = false := by
    cases inKey <;> rfl
  have reading : (if f.facts.functionDefault == some true then
      [("read_after_writes", Value.bool true)] else []).any isLong = false := by
    split <;> rfl
  simp only [isRefused_eq_any, ofPlain, List.any_append, any_isLong_valuesOption, mark,
    any_isLong_columnOption, any_isLong_defaultOption, reading, Bool.false_or, Bool.or_false]

theorem isRefused_ofEmbed (f : Field) : isRefused (ofEmbed f) = false := by
  simp only [isRefused_eq_any, ofEmbed, List.any_append, any_isLong_columnOption,
    Bool.or_false]
  split <;> rfl

/-- The declaration of a field is refused exactly if the field is declared with a default that
is too long. -/
theorem any_isRefused_ofField? {s : Schema} {f : Field} :
    (ofField? s f).any isRefused = true ↔
      s.StatesDefault f ∧ f.facts.default.hasLongInt = true := by
  rw [Schema.StatesDefault, ne_eq, Schema.singleKey?_eq_some_iff]
  unfold ofField?
  by_cases named : f.name ∈ timestampNames
  · simp [named]
  · cases embedded : f.isEmbed <;> cases association : f.isAssociation <;>
      cases member : s.isPrimaryKeyField f.name <;> cases composite : s.hasCompositeKey <;>
      simp [named, isRefused_ofPlain, isRefused_ofEmbed]

end Declaration

/-- Some declaration of a schema is refused exactly if the schema has a default that is too
long. -/
theorem Declarations.any_isRefused_iff {s : Schema} :
    (ofSchema s).fields.any Model.isRefused = true ↔ s.HasLongDefault := by
  simp only [ofSchema, List.any_filterMap, List.any_eq_true, Schema.HasLongDefault,
    ← Declaration.any_isRefused_ofField?]
  refine exists_congr fun f => and_congr_right fun _ => ?_
  cases Declaration.ofField? s f <;> rfl

/-! ## Lines -/

namespace Model

/-- The lines of the timestamps. -/
def Line.timestamps : List Line :=
  Declaration.timestampNames.map fun n => ⟨n, "Optional[datetime]", "None"⟩

/-- A line as it stands in the body of a class. -/
def Line.indented (l : Line) : String := "    " ++ l.text

/-- The lines of a class that state attributes of it. -/
def attributes (m : Model) : List Line :=
  m.lines ++ if m.timestamps then Line.timestamps else []

theorem name_lineOf (d : Declaration) : (lineOf d).name = d.name := by
  exact (apply_ite Line.name _ _ _).trans (ite_self _)

/-- A schema whose key has fields has the line of a single key, and no other one. -/
theorem names_keyLines {s : Schema} (h : ∀ k ∈ s.primaryKey, k.fields ≠ []) :
    ∃ ls, keyLines s (.ofSchema s) = .ok ls ∧ ls.map (·.name) = s.singleKey?.toList := by
  unfold keyLines Schema.singleKey? Declarations.ofSchema
  match hk : s.primaryKey with
  | none => exact ⟨_, rfl, rfl⟩
  | some ⟨[]⟩ => exact absurd rfl (h _ hk)
  | some ⟨[f]⟩ =>
    cases integer : f.type.isIntegerKey <;>
      simp [Schema.PrimaryKey.isComposite, Declaration.keyOf, integer]
  | some ⟨_ :: _ :: _⟩ => simp [Schema.PrimaryKey.isComposite]

theorem names_attributes (m : Model) :
    m.attributes.map (·.name) =
      m.lines.map (·.name) ++ if m.timestamps then Declaration.timestampNames else [] := by
  unfold attributes
  split <;> simp [Line.timestamps, Function.comp_def]

/-- The text in front of the lines that state attributes. -/
def head (m : Model) : String :=
  String.join
    ((m.opening ++ m.tableLines ++
      ["", "    model_config = \x7b\"populate_by_name\": True\x7d", ""]).map
      (· ++ "\n"))

/-- The text of the lines that state attributes, with a heading for the timestamps. -/
def body (m : Model) : String :=
  String.join
    ((m.lines.map Line.indented ++
      if m.timestamps then ["", "    # Timestamps"] ++ Line.timestamps.map Line.indented
      else []).map (· ++ "\n"))

theorem render_eq (m : Model) : m.render = m.head ++ m.body := by
  have heading :
      timestampLines = ["", "    # Timestamps"] ++ Line.timestamps.map Line.indented := rfl
  rw [render, head, body, ← String.join_append, ← List.map_append, heading]
  simp only [List.append_assoc]
  rfl

/-- What the three makers write: the line of a single key, those of the declarations, and the
timestamps, in this order. -/
def writtenNames (s : Schema) : List String :=
  s.singleKey?.toList ++ (Declarations.ofSchema s).fieldNames ++
    if (Declarations.ofSchema s).timestamps then Declaration.timestampNames else []

theorem ofSchema_eq_ok {s : Schema} (h : ∀ k ∈ s.primaryKey, k.fields ≠ [])
    (short : ¬ s.HasLongDefault) :
    ∃ m, ofSchema s (.ofSchema s) = .ok m ∧ m.attributes.map (·.name) = writtenNames s := by
  obtain ⟨ls, written, names⟩ := names_keyLines h
  unfold ofSchema
  rw [written, ok_bind, if_neg (mt Declarations.any_isRefused_iff.1 short)]
  refine ⟨_, rfl, ?_⟩
  rw [names_attributes, List.map_append, names, List.map_map, writtenNames]
  simp only [Declarations.fieldNames, Function.comp_def, name_lineOf]

/-- A default that is too long leaves nothing of a model whose key can be stated. -/
theorem ofSchema_eq_error {s : Schema} {ls : List Line}
    (written : keyLines s (.ofSchema s) = .ok ls) (long : s.HasLongDefault) :
    ofSchema s (.ofSchema s) = .error .badValue := by
  unfold ofSchema
  rw [written, ok_bind, if_pos (Declarations.any_isRefused_iff.2 long)]

/-- What one of the three makers writes is kept, and what is kept one of them writes. -/
theorem mem_writtenNames {s : Schema} (within : s.KeyWithin) {n : String} :
    n ∈ writtenNames s ↔ ∃ f ∈ s.fields, f.name = n ∧ s.Keeps f := by
  rw [writtenNames, List.mem_append, List.mem_append, Option.mem_toList,
    List.mem_ite_nil_right, Declarations.timestamps_ofSchema,
    Declarations.mem_fieldNames_ofSchema]
  constructor
  · rintro ((single | ⟨f, mem, rfl, named, held⟩) | ⟨both, named⟩)
    · obtain ⟨f, mem, rfl⟩ :=
        List.mem_map.1 (Schema.mem_fieldNames_of_singleKey? within single)
      exact ⟨f, mem, rfl, .key single⟩
    · exact ⟨f, mem, rfl, .declared named (held.imp_right And.left)⟩
    · obtain ⟨f, mem, rfl⟩ := List.mem_map.1 (both n named)
      exact ⟨f, mem, rfl, .timestamp named both⟩
  · rintro ⟨f, mem, rfl, single | ⟨named, both⟩ | ⟨named, held⟩⟩
    · exact .inl (.inl single)
    · exact .inr ⟨both, named⟩
    · by_cases single : s.singleKey? = some f.name
      · exact .inl (.inl single)
      · exact .inl (.inr ⟨f, mem, rfl, named, held.imp_right fun own => ⟨own, single⟩⟩)

/-- No two makers write one name, unless the line of a key is written for an embedded field or
a timestamp. -/
theorem nodup_writtenNames {s : Schema} (distinct : s.fieldNames.Nodup) (within : s.KeyWithin)
    (plain : s.HasPlainKey) : (writtenNames s).Nodup := by
  have block : (if (Declarations.ofSchema s).timestamps then Declaration.timestampNames
      else []).Nodup := by
    split <;> decide
  refine List.nodup_append'.2 ⟨List.nodup_append'.2
    ⟨?_, Declarations.nodup_fieldNames_ofSchema distinct, ?_⟩, block, ?_⟩
  · cases s.singleKey? <;> simp
  · intro n single declared
    rw [Option.mem_toList] at single
    obtain ⟨f, mem, rfl, -, embedded | ⟨-, other⟩⟩ :=
      Declarations.mem_fieldNames_ofSchema.1 declared
    · rw [(plain f mem single).1] at embedded
      cases embedded
    · exact other single
  · intro n own stamped
    have named := (List.mem_ite_nil_right.1 stamped).2
    rcases List.mem_append.1 own with single | declared
    · rw [Option.mem_toList] at single
      obtain ⟨f, mem, rfl⟩ :=
        List.mem_map.1 (Schema.mem_fieldNames_of_singleKey? within single)
      exact (plain f mem single).2 named
    · obtain ⟨f, -, rfl, other, -⟩ := Declarations.mem_fieldNames_ofSchema.1 declared
      exact other named

/-- For every schema whose fields have distinct names, whose primary key, if it has one, is
over fields of it, and that states no default that is too long: its model is written, and has
an attribute for exactly the fields that it keeps. No two attributes have one name, provided
that the field of a single key is neither embedded nor a timestamp. -/
theorem attributes_ofSchema {s : Schema} (distinct : s.fieldNames.Nodup)
    (within : s.KeyWithin)
    (short : ¬ s.HasLongDefault) :
    ∃ m, ofSchema s (.ofSchema s) = .ok m ∧ s.renderModel = .ok (m.head ++ m.body) ∧
      (∀ n, n ∈ m.attributes.map (·.name) ↔ ∃ f ∈ s.fields, f.name = n ∧ s.Keeps f) ∧
      (s.HasPlainKey → (m.attributes.map (·.name)).Nodup) := by
  obtain ⟨m, made, names⟩ := ofSchema_eq_ok (fun k hk => (within k hk).1) short
  refine ⟨m, made, ?_, ?_, ?_⟩
  · rw [Schema.renderModel, made, ok_bind, render_eq]
  · intro n
    rw [names, mem_writtenNames within]
  · intro plain
    rw [names]
    exact nodup_writtenNames distinct within plain

/-- A table whose fields are kept or left out for every reason but one: there is no composite
key. -/
def articles : Schema where
  source := "articles"
  fields := [
    { name := "id", type := .named "binary_id" },
    { name := "author", type := .named "user", facts := { association := some true } },
    { name := "settings", type := .named "map",
      facts := { association := some true, embed := some true } },
    { name := "inserted_at", type := .named "naive_datetime" },
    { name := "title", type := .named "string" },
    { name := "updated_at", type := .named "naive_datetime" }]
  primaryKey := some ⟨[{ name := "id", type := .named "binary_id" }]⟩

theorem attributes_articles :
    articles.fieldNames.Nodup ∧ articles.KeyWithin ∧ ¬ articles.HasLongDefault ∧
      articles.HasPlainKey ∧
      ∃ m, ofSchema articles (.ofSchema articles) = .ok m ∧
        (m.attributes.map (·.name)).Nodup ∧
        (∀ n ∈ ["id", "settings", "title", "inserted_at", "updated_at"],
          n ∈ m.attributes.map (·.name)) ∧
        "author" ∉ m.attributes.map (·.name) := by
  have distinct : articles.fieldNames.Nodup := by decide
  have within : articles.KeyWithin := by decide
  have short : ¬ articles.HasLongDefault := by decide
  have plain : articles.HasPlainKey := by decide
  obtain ⟨m, made, -, kept, nodup⟩ := attributes_ofSchema distinct within short
  refine ⟨distinct, within, short, plain, m, made, nodup plain, ?_, ?_⟩
  · intro n hn
    rw [kept]
    revert n
    decide
  · rw [kept]
    decide

/-- The model of a schema has one attribute for each field that is embedded or no association,
and no other one. -/
def Balances (s : Schema) : Prop :=
  ∃ m, ofSchema s (.ofSchema s) = .ok m ∧ (m.attributes.map (·.name)).Nodup ∧
    ∀ n, n ∈ m.attributes.map (·.name) ↔
      ∃ f ∈ s.fields, f.name = n ∧ (f.isEmbed = true ∨ f.isAssociation = false)

theorem Balances.written {s : Schema} (h : Balances s)
    (keyed : ∀ k ∈ s.primaryKey, k.fields ≠ [])
    (short : ¬ s.HasLongDefault) :
    (writtenNames s).Nodup ∧ ∀ n, n ∈ writtenNames s ↔
      ∃ f ∈ s.fields, f.name = n ∧ (f.isEmbed = true ∨ f.isAssociation = false) := by
  obtain ⟨m, made, balanced⟩ := h
  obtain ⟨m', made', names⟩ := ofSchema_eq_ok keyed short
  rw [made] at made'
  cases made'
  rwa [names] at balanced

/-- A table with one timestamp alone. -/
def logged : Schema where
  source := "events"
  fields := [{ name := "inserted_at", type := .named "naive_datetime" }]

/-- A table with a single key, and its other fields. -/
def keyedBy (f : Field) (others : List Field) : Schema where
  source := "events"
  fields := f :: others
  primaryKey := some ⟨[f]⟩

/-- The fields have distinct names, and the fields of the primary key are among them. -/
def HoldsKey (s : Schema) : Prop :=
  s.fieldNames.Nodup ∧ ∀ k ∈ s.primaryKey, ∀ f ∈ k.fields, f ∈ s.fields

theorem holdsKey_keyedBy {f : Field} {others : List Field}
    (distinct : (keyedBy f others).fieldNames.Nodup) : HoldsKey (keyedBy f others) :=
  ⟨distinct, by simp [keyedBy]⟩

/-- A single key that stands for an association. -/
def linkedKey : Schema :=
  keyedBy { name := "owner", type := .named "id", facts := { association := some true } } []

/-- A single key that is embedded. -/
def embeddedKey : Schema :=
  keyedBy { name := "id", type := .named "map", facts := { embed := some true } } []

/-- A single key that is one of the timestamps. -/
def stampedKey : Schema :=
  keyedBy { name := "inserted_at", type := .named "id" }
    [{ name := "updated_at", type := .named "naive_datetime" }]

/-- A key over nothing. -/
def emptyKey : Schema := { logged with primaryKey := some ⟨[]⟩ }

/-- A table of one field, with a whole number as its default. -/
def weighted (n : Int) : Schema where
  source := "events"
  fields := [{ name := "weight", type := .named "integer", facts := { default := .int n } }]

theorem hasLongDefault_weighted : (weighted (10 ^ Text.maxDigits)).HasLongDefault :=
  ⟨_, .head _, by decide, Value.hasLongInt_tenPower⟩

/-- A lone timestamp is lost, and a key has its line even if it only stands for an
association. The line of a key is written once more for an embedded field and for a timestamp,
and cannot be written for a key over nothing. A default that is too long cannot be written
either. -/
theorem not_balances :
    (HoldsKey logged ∧ ¬ Balances logged) ∧ (HoldsKey linkedKey ∧ ¬ Balances linkedKey) ∧
      (HoldsKey embeddedKey ∧ ¬ Balances embeddedKey) ∧
      (HoldsKey stampedKey ∧ ¬ Balances stampedKey) ∧
      (HoldsKey emptyKey ∧ ¬ Balances emptyKey) ∧
      HoldsKey (weighted (10 ^ Text.maxDigits)) ∧
        ¬ Balances (weighted (10 ^ Text.maxDigits)) := by
  refine ⟨⟨⟨by decide, by simp [logged]⟩, fun h => ?lost⟩,
    ⟨holdsKey_keyedBy (by decide), fun h => ?linked⟩,
    ⟨holdsKey_keyedBy (by decide), fun h => ?embedded⟩,
    ⟨holdsKey_keyedBy (by decide), fun h => ?stamped⟩,
    ⟨⟨by decide, by simp [emptyKey]⟩, fun h => ?empty⟩,
    ⟨List.nodup_singleton "weight", by simp [weighted]⟩, fun h => ?long⟩
  case lost =>
    have named := (h.written (by decide) (by decide)).2 "inserted_at"
    exact absurd (named.2 (by decide)) (by decide)
  case linked =>
    have named := (h.written (by decide) (by decide)).2 "owner"
    exact absurd (named.1 (by decide)) (by decide)
  case embedded =>
    exact absurd (h.written (by decide) (by decide)).1 (by decide)
  case stamped =>
    exact absurd (h.written (by decide) (by decide)).1 (by decide)
  case empty =>
    obtain ⟨m, made, -⟩ := h
    cases made
  case long =>
    obtain ⟨m, made, -⟩ := h
    rw [ofSchema_eq_error rfl hasLongDefault_weighted] at made
    cases made

end Model

end Schemata
