/-
Generated defaults as words.

A schema fresh from the database holds a generated default as a constant, and the same schema
from the cache holds the word for it. `Schema.worded` puts the word in the place of the
constant wherever the default of a field is one. It commutes with all that is done to a schema
before it is used: a default that is replaced in a merge is gone in either form, and one that
stays is carried along as it is. So whatever two schemas with the same words are completed
with, they have the same words afterwards (`complete_eq_of_worded`).

The text of a model is the same for a constant and for its word, since a word that stands for
a generated default is recognised as one (`renderModel_worded`), and equality of values takes
them for the same (`same_of_worded`).
-/
import Schemata.Inference
import Schemata.Model.Source
import Schemata.Proofs.Schema.Keyed
import Schemata.Proofs.Steps
import Schemata.Proofs.Value.Same

namespace Schemata

/-! ## Values -/

namespace Value

/-- A value with the word for a generated default in its place. -/
def worded : Value → Value
  | .generated d => .text d.word
  | v => v

theorem worded_worded (v : Value) : v.worded.worded = v.worded := by
  cases v <;> rfl

/-- A word and what it stands for are both written. -/
theorem hasLongInt_worded (v : Value) : v.worded.hasLongInt = v.hasLongInt := by
  cases v <;> rfl

theorem worded_dumped (v : Value) : v.dumped.worded = v.worded.dumped := by
  cases v with
  | type t => cases t <;> rfl
  | _ => rfl

theorem word?_worded (v : Value) : v.worded.word? = v.word? := by
  cases v <;> rfl

theorem same_worded_left (v w : Value) : v.worded.same w = v.same w := by
  cases v with
  | generated d => cases w <;> simp [worded, same, sameLeaf, word?, int?]
  | _ => rfl

theorem same_worded_right (v w : Value) : v.same w.worded = v.same w := by
  cases w with
  | generated d => cases v <;> simp [worded, same, sameLeaf, word?, int?]
  | _ => rfl

/-- Values with one word are the same, if they have an end. -/
theorem same_of_worded {v w : Value} (h : v.worded = w.worded) (hv : v.hasEnd = true) :
    v.same w = true := by
  rw [← same_worded_right, ← h, same_worded_right]
  exact same_self v hv

end Value

/-! ## Fields -/

/-- Facts with the word for a generated default. -/
def FieldMeta.worded (m : FieldMeta) : FieldMeta :=
  { m with default := m.default.worded }

theorem FieldMeta.worded_worded (m : FieldMeta) : m.worded.worded = m.worded := by
  simp [worded, Value.worded_worded]

/-- A default that is stated and one that is left out are not confused by their words. -/
theorem FieldMeta.worded_merge (a b : FieldMeta) :
    (a.merge b).worded = a.worded.merge b.worded := by
  have choice : (a.merge b).default.worded = (a.worded.merge b.worded).default := by
    cases hb : b.default with
    | null =>
      simp only [merge, worded, hb]
      exact Value.worded_dumped a.default
    | type t =>
      cases t <;> simp [merge, worded, hb, Value.worded, Value.dumped, FieldType.dumped]
    | _ => simp [merge, worded, hb, Value.worded, Value.dumped]
  simp only [worded, choice]
  rfl

namespace Field

/-- A field with the word for a generated default. -/
def worded (f : Field) : Field :=
  { f with facts := f.facts.worded }

theorem worded_name (f : Field) : f.worded.name = f.name := rfl

theorem worded_worded (f : Field) : f.worded.worded = f.worded := by
  simp [worded, FieldMeta.worded_worded]

theorem worded_merge (a b : Field) : (a.merge b).worded = a.worded.merge b.worded := by
  simp only [worded, merge, FieldMeta.worded_merge]

theorem find?_worded (fields : List Field) (name : String) :
    (fields.map worded).find? (·.name == name) =
      (fields.find? (·.name == name)).map worded := by
  rw [List.find?_map]
  rfl

end Field

/-! ## Schemas -/

namespace Schema

/-- A primary key with the words for generated defaults. -/
def PrimaryKey.worded (k : PrimaryKey) : PrimaryKey :=
  ⟨k.fields.map Field.worded⟩

/-- An index with the words for generated defaults. -/
def Index.worded (i : Index) : Index :=
  { i with fields := i.fields.map Field.worded }

/-- A schema with the words for generated defaults. -/
def worded (s : Schema) : Schema :=
  { s with
    fields := s.fields.map Field.worded
    primaryKey := s.primaryKey.map PrimaryKey.worded
    indices := s.indices.map Index.worded }

theorem map_worded_worded (fs : List Field) :
    (fs.map Field.worded).map Field.worded = fs.map Field.worded := by
  rw [List.map_map]
  exact List.map_congr_left fun f _ => f.worded_worded

theorem worded_worded (s : Schema) : s.worded.worded = s.worded := by
  have key : (s.primaryKey.map PrimaryKey.worded).map PrimaryKey.worded =
      s.primaryKey.map PrimaryKey.worded := by
    cases s.primaryKey with
    | none => rfl
    | some k => simp [PrimaryKey.worded, Function.comp_def, Field.worded_worded]
  have indices :
      (s.indices.map Index.worded).map Index.worded = s.indices.map Index.worded := by
    rw [List.map_map]
    refine List.map_congr_left fun i _ => ?_
    simp [Index.worded, Function.comp_def, Field.worded_worded]
  simp only [worded, map_worded_worded, key, indices]

/-! ## Merging -/

theorem worded_addField (fields : List Field) (f : Field) :
    (addField fields f).map Field.worded = addField (fields.map Field.worded) f.worded := by
  unfold addField
  rw [Field.worded_name, Field.find?_worded]
  cases fields.find? (·.name == f.name) with
  | none => simp
  | some g =>
    simp only [Option.map_some]
    rw [map_putBy Field.name Field.worded_name, Field.worded_merge]

theorem worded_foldl_addField (left right : List Field) :
    (right.foldl addField left).map Field.worded =
      (right.map Field.worded).foldl addField (left.map Field.worded) := by
  induction right generalizing left with
  | nil => rfl
  | cons f fs ih => rw [List.foldl_cons, ih, worded_addField, List.map_cons, List.foldl_cons]

theorem worded_mergeFields (left right : List Field) :
    (mergeFields left right).map Field.worded =
      mergeFields (left.map Field.worded) (right.map Field.worded) := by
  unfold mergeFields
  rw [worded_foldl_addField, map_lastByKey Field.name Field.worded_name]

theorem worded_resolve (fields : List Field) (f : Field) :
    (resolve fields f).worded = resolve (fields.map Field.worded) f.worded := by
  unfold resolve
  rw [Field.worded_name, Field.find?_worded]
  cases fields.find? (·.name == f.name) <;> rfl

theorem PrimaryKey.worded_over (k : PrimaryKey) (fields : List Field) :
    (k.over fields).worded = k.worded.over (fields.map Field.worded) := by
  simp [worded, PrimaryKey.over, Function.comp_def, worded_resolve]

theorem Index.worded_over (i : Index) (fields : List Field) :
    (i.over fields).worded = i.worded.over (fields.map Field.worded) := by
  simp [worded, Index.over, Function.comp_def, worded_resolve]

theorem worded_merge (a b : Schema) : (a.merge b).worded = a.worded.merge b.worded := by
  have fields := worded_mergeFields a.fields b.fields
  have key : ((b.primaryKey.or a.primaryKey).map (·.over (mergeFields a.fields b.fields))).map
      PrimaryKey.worded =
      ((b.primaryKey.map PrimaryKey.worded).or (a.primaryKey.map PrimaryKey.worded)).map
        (·.over (mergeFields (a.fields.map Field.worded) (b.fields.map Field.worded))) := by
    rw [← fields]
    cases b.primaryKey <;> cases a.primaryKey <;> simp [PrimaryKey.worded_over]
  have indices : ((a.indices ++ b.indices).map (·.over (mergeFields a.fields b.fields))).map
      Index.worded =
      (a.indices.map Index.worded ++ b.indices.map Index.worded).map
        (·.over (mergeFields (a.fields.map Field.worded) (b.fields.map Field.worded))) := by
    rw [← fields]
    simp [Function.comp_def, Index.worded_over]
  simp only [worded, merge, fields, key, indices]

/-! ## Projecting -/

theorem field?_worded (s : Schema) (name : String) :
    s.worded.field? name = (s.field? name).map Field.worded :=
  Field.find?_worded s.fields name

theorem any_worded (fields : List Field) (name : String) :
    (fields.map Field.worded).any (·.name == name) = fields.any (·.name == name) := by
  rw [List.any_map]
  rfl

theorem selected_worded (s : Schema) (names : List String) :
    s.worded.selected names = (s.selected names).map Field.worded := by
  unfold selected
  rw [← List.map_nil (f := Field.worded)]
  refine List.foldl_hom (List.map Field.worded) fun fs name => ?_
  rw [field?_worded]
  cases s.field? name with
  | none => rfl
  | some f =>
    simp only [Option.map_some, any_worded]
    split <;> simp

theorem worded_project (s : Schema) (names : List String) :
    (s.project names).worded = s.worded.project names := by
  unfold project
  simp only [selected_worded, List.isEmpty_map]
  split
  · rfl
  · have kept (i : Index) : (i.worded.fieldNames.all fun n =>
        ((s.selected names).map Field.worded).any (·.name == n)) =
        (i.fieldNames.all fun n => (s.selected names).any (·.name == n)) := by
      simp [Index.fieldNames, Index.worded, Field.worded_name, Function.comp_def]
    simp only [worded, List.filter_map, Function.comp_def, kept, List.map_map]
    simp [Index.worded_over]

end Schema

/-! ## Completing -/

namespace Inference

open Schema (worded)

theorem worded_merge? (a b : Schema) :
    (a.merge? b).map worded = a.worded.merge? b.worded := by
  have sources : (a.worded.source == b.worded.source) = (a.source == b.source) := rfl
  unfold Schema.merge?
  rw [sources]
  split
  · exact congrArg Except.ok (Schema.worded_merge a b)
  · rfl

theorem worded_projectOn (s : Schema) (names : Value) :
    (s.projectOn names).map worded = s.worded.projectOn names := by
  have empty : s.worded.isEmpty = s.isEmpty := List.isEmpty_map
  unfold Schema.projectOn
  rw [empty]
  split
  · rfl
  · cases names.items with
    | error f => rfl
    | ok xs =>
      rw [ok_bind, ok_bind]
      cases xs.mapM (·.plain) with
      | error f => rfl
      | ok ns => exact congrArg Except.ok (Schema.worded_project s ns)

/-- A schema is completed in two steps: it is merged, then narrowed. -/
theorem complete_eq (s : Schema) (custom : Option Schema) (fields : Value) :
    complete s custom fields =
      (match custom with
       | some c => s.merge? c
       | none => .ok s) >>= fun m =>
        match fields with
        | .null => .ok m
        | names => m.projectOn names := by
  cases custom <;> rfl

/-- Completing a schema commutes with putting words. -/
theorem worded_complete (s : Schema) (custom : Option Schema) (fields : Value) :
    (complete s custom fields).map worded = complete s.worded (custom.map worded) fields := by
  have narrowed (m : Schema) : (match fields with
      | .null => Except.ok m
      | names => m.projectOn names).map worded =
      (match fields with
      | .null => Except.ok m.worded
      | names => m.worded.projectOn names) := by
    cases fields with
    | null => rfl
    | _ => exact worded_projectOn m _
  rw [complete_eq, complete_eq]
  cases custom with
  | none => exact narrowed s
  | some c =>
    simp only [Option.map_some, ← worded_merge?]
    cases s.merge? c with
    | error f => rfl
    | ok m => exact narrowed m

/-- Schemas with the same words have the same words when they are completed. -/
theorem complete_eq_of_worded {s t : Schema} (h : s.worded = t.worded)
    (custom : Option Schema)
    (fields : Value) :
    (complete s custom fields).map worded = (complete t custom fields).map worded := by
  rw [worded_complete, worded_complete, h]

end Inference

/-! ## Rendering -/

namespace Declaration

/-- An option with the word for a generated default, if it is the default. -/
def wordedOption (o : String × Value) : String × Value :=
  if o.1 == "default" then (o.1, o.2.worded) else o

theorem fst_wordedOption (o : String × Value) : (wordedOption o).1 = o.1 := by
  unfold wordedOption
  split <;> rfl

/-- A declaration with the word for a generated default. -/
def worded (d : Declaration) : Declaration :=
  { d with options := d.options.map wordedOption }

theorem defaultOption_worded (v : Value) :
    defaultOption v.worded = (defaultOption v).map wordedOption := by
  cases v with
  | generated d =>
    have same : (Value.text d.word).same (.generated .autoIncrement) =
        (Value.generated d).same (.generated .autoIncrement) :=
      Value.same_worded_left (.generated d) _
    simp only [Value.worded, defaultOption, same]
    split <;> rfl
  | null => rfl
  | _ =>
    simp only [Value.worded, defaultOption]
    split <;> rfl

theorem map_wordedOption (os : List (String × Value)) (h : ∀ o ∈ os, o.1 ≠ "default") :
    os.map wordedOption = os := by
  refine (List.map_congr_left fun o ho => ?_).trans (List.map_id os)
  simp [wordedOption, h o ho]

theorem columnOption_ne_default {f : Field} {o : String × Value} (h : o ∈ columnOption f) :
    o.1 ≠ "default" := by
  unfold columnOption at h
  split at h
  · split at h
    · cases h
    · rw [List.mem_singleton.1 h]
      exact (by decide : "source" ≠ "default")
  · cases h

theorem ofPlain_worded (f : Field) (inKey : Bool) :
    ofPlain f.worded inKey = (ofPlain f inKey).worded := by
  have values : (valuesOption f.type).map wordedOption = valuesOption f.type := by
    cases f.type <;> rfl
  have key : (if inKey then [("primary_key", Value.bool true)] else []).map wordedOption =
      if inKey then [("primary_key", Value.bool true)] else [] := by
    cases inKey <;> rfl
  have read : (if f.facts.functionDefault == some true then
        [("read_after_writes", Value.bool true)] else []).map wordedOption =
      if f.facts.functionDefault == some true then [("read_after_writes", Value.bool true)]
        else [] := by
    split <;> rfl
  have column := map_wordedOption (columnOption f) fun _ => columnOption_ne_default
  have default := defaultOption_worded f.facts.default
  simp only [worded, ofPlain, List.map_append, values, key, read, column, ← default]
  rfl

theorem ofEmbed_worded (f : Field) : ofEmbed f.worded = (ofEmbed f).worded := by
  have options : (ofEmbed f).options.map wordedOption = (ofEmbed f).options := by
    refine map_wordedOption _ fun o ho => ?_
    rcases List.mem_append.1 ho with ho | ho
    · split at ho
      · rw [List.mem_singleton.1 ho]
        exact (by decide : "on_replace" ≠ "default")
      · cases ho
    · exact columnOption_ne_default ho
  rw [worded, options]
  rfl

theorem keyNames_worded (s : Schema) :
    s.worded.primaryKey.map (·.fieldNames) = s.primaryKey.map (·.fieldNames) := by
  cases h : s.primaryKey with
  | none => simp [Schema.worded, h]
  | some k =>
    simp [Schema.worded, h, Schema.PrimaryKey.worded, Schema.PrimaryKey.fieldNames,
      Function.comp_def, Field.worded_name]

theorem hasCompositeKey_worded (s : Schema) :
    s.worded.hasCompositeKey = s.hasCompositeKey := by
  cases h : s.primaryKey with
  | none => simp [Schema.worded, h, Schema.hasCompositeKey]
  | some k =>
    simp [Schema.worded, h, Schema.PrimaryKey.worded, Schema.hasCompositeKey,
      Schema.PrimaryKey.isComposite]

theorem isPrimaryKeyField_worded (s : Schema) (name : String) :
    s.worded.isPrimaryKeyField name = s.isPrimaryKeyField name := by
  have names := keyNames_worded s
  unfold Schema.isPrimaryKeyField
  cases hw : s.worded.primaryKey <;> cases h : s.primaryKey <;> simp_all

theorem ofField?_worded (s : Schema) (f : Field) :
    ofField? s.worded f.worded = (ofField? s f).map worded := by
  have name : f.worded.name = f.name := rfl
  have embed : f.worded.isEmbed = f.isEmbed := rfl
  have association : f.worded.isAssociation = f.isAssociation := rfl
  unfold ofField?
  rw [name, embed, association, isPrimaryKeyField_worded, hasCompositeKey_worded,
    ofEmbed_worded, ofPlain_worded, ofPlain_worded]
  repeat' split
  all_goals rfl

end Declaration

namespace Model

open Declaration (wordedOption fst_wordedOption)

/-- Under each key stands the same option, or the word for it. -/
theorem lookup_wordedOption (key : String) (os : List (String × Value)) :
    (os.map wordedOption).lookup key =
      (os.lookup key).map fun v => (wordedOption (key, v)).2 := by
  induction os with
  | nil => rfl
  | cons o os ih =>
    have name : (wordedOption o).1 = o.1 := fst_wordedOption o
    rw [List.map_cons, ← Prod.mk.eta (p := wordedOption o), List.lookup_cons, name,
      ← Prod.mk.eta (p := o), List.lookup_cons]
    by_cases same : key = o.1
    · subst same
      simp
    · have other : (key == o.1) = false := by simpa using same
      simp only [other]
      exact ih

theorem option_worded_default (d : Declaration) :
    option d.worded "default" = (option d "default").worded := by
  rw [option, option, Declaration.worded, lookup_wordedOption]
  cases d.options.lookup "default" <;> rfl

theorem option_worded {key : String} (hk : key ≠ "default") (d : Declaration) :
    option d.worded key = option d key := by
  rw [option, option, Declaration.worded, lookup_wordedOption]
  simp [wordedOption, hk]

theorem otherOptions_worded (d : Declaration) : otherOptions d.worded = otherOptions d := by
  have named : (fun o : String × Value => !(["default", "source", "values"].contains o.1)) ∘
      wordedOption = fun o => !(["default", "source", "values"].contains o.1) :=
    funext fun o => by rw [Function.comp_apply, fst_wordedOption]
  rw [otherOptions, otherOptions, Declaration.worded, List.filter_map, named]
  refine Declaration.map_wordedOption _ fun o ho default => ?_
  have other := (List.mem_filter.1 ho).2
  rw [default] at other
  exact absurd other (by decide)

theorem serverDefault?_worded (v : Value) : serverDefault? v.worded = serverDefault? v := by
  rw [serverDefault?, Value.word?_worded, serverDefault?]

/-- A default that the database does not generate is its own word. -/
theorem worded_of_serverDefault? {v : Value} (h : serverDefault? v = none) :
    v.worded = v := by
  cases v with
  | generated d => cases d <;> cases h
  | _ => rfl

theorem isRequired_worded (d : Declaration) : isRequired d.worded = isRequired d := by
  unfold isRequired
  rw [option_worded_default]
  cases option d "default" <;> rfl

theorem defaultArgument_worded (d : Declaration) :
    defaultArgument d.worded = defaultArgument d := by
  have hint : hintOf d.worded = hintOf d := rfl
  unfold defaultArgument
  rw [isRequired_worded, hint, option_worded_default, serverDefault?_worded]
  cases h : serverDefault? (option d "default") with
  | some w => rfl
  | none => rw [worded_of_serverDefault? h]

/-- The line of a declaration is the same for a constant and for its word. -/
theorem lineOf_worded (d : Declaration) : lineOf d.worded = lineOf d := by
  have extra : extraOptions d.worded = extraOptions d := by
    unfold extraOptions
    rw [option_worded_default, serverDefault?_worded, otherOptions_worded]
    rfl
  unfold lineOf
  rw [defaultArgument_worded, option_worded (by decide), extra]
  rfl

theorem isRefused_worded (d : Declaration) : isRefused d.worded = isRefused d := by
  rw [isRefused, isRefused, Declaration.worded, List.any_map]
  refine congrArg (List.any d.options) (funext fun o => ?_)
  rw [Function.comp_apply, fst_wordedOption, wordedOption]
  split
  · rw [Value.hasLongInt_worded]
  · rfl

end Model

namespace Declarations

theorem ofSchema_worded (s : Schema) :
    ofSchema s.worded =
      { ofSchema s with fields := (ofSchema s).fields.map Declaration.worded } := by
  have key : Declaration.keyOf s.worded.primaryKey = Declaration.keyOf s.primaryKey := by
    match h : s.primaryKey with
    | none => simp [Schema.worded, h]
    | some ⟨[]⟩ => simp [Schema.worded, h, Schema.PrimaryKey.worded, Declaration.keyOf]
    | some ⟨[k]⟩ =>
      simp [Schema.worded, h, Schema.PrimaryKey.worded, Declaration.keyOf, Field.worded]
    | some ⟨_ :: _ :: _⟩ =>
      simp [Schema.worded, h, Schema.PrimaryKey.worded, Declaration.keyOf]
  have fields : s.worded.fields.filterMap (Declaration.ofField? s.worded) =
      (s.fields.filterMap (Declaration.ofField? s)).map Declaration.worded := by
    rw [Schema.worded, List.filterMap_map, List.map_filterMap]
    exact congrArg (s.fields.filterMap ·) (funext fun f => Declaration.ofField?_worded s f)
  have binary : (s.worded.fields.any fun f => f.isForeignKey && f.type.isBinaryKey) =
      s.fields.any fun f => f.isForeignKey && f.type.isBinaryKey := by
    rw [Schema.worded, List.any_map]
    rfl
  have timestamps : (Declaration.timestampNames.all fun n => (s.worded.field? n).isSome) =
      Declaration.timestampNames.all fun n => (s.field? n).isSome := by
    simp only [Schema.field?_worded, Option.isSome_map]
  simp only [ofSchema, key, fields, binary, timestamps]

end Declarations

namespace Model

theorem keyLines_worded (s : Schema) (d : Declarations) :
    keyLines s.worded d = keyLines s d := by
  unfold keyLines
  match h : s.primaryKey with
  | none => simp [Schema.worded, h]
  | some ⟨[]⟩ => simp [Schema.worded, h, Schema.PrimaryKey.worded]
  | some ⟨[k]⟩ =>
    simp only [Schema.worded, h, Option.map_some, Schema.PrimaryKey.worded, List.map_cons,
      List.map_nil]
    rcases d.key with _ | _ | _ <;> rfl
  | some ⟨_ :: _ :: _⟩ =>
    simp [Schema.worded, h, Schema.PrimaryKey.worded, Schema.PrimaryKey.isComposite]

theorem ofSchema_worded (s : Schema) :
    ofSchema s.worded (.ofSchema s.worded) = ofSchema s (.ofSchema s) := by
  have key : keyLines s (.ofSchema s.worded) = keyLines s (.ofSchema s) := by
    rw [Declarations.ofSchema_worded]
    rfl
  have indices :
      (s.worded.indices.map fun i => (⟨i.name, i.fieldNames, i.unique⟩ : IndexLine)) =
      s.indices.map fun i => ⟨i.name, i.fieldNames, i.unique⟩ := by
    simp [Schema.worded, Schema.Index.worded, Schema.Index.fieldNames, Function.comp_def,
      Field.worded_name]
  have lines : (Declarations.ofSchema s.worded).fields.map lineOf =
      (Declarations.ofSchema s).fields.map lineOf := by
    rw [Declarations.ofSchema_worded, List.map_map]
    exact List.map_congr_left fun d _ => lineOf_worded d
  have refusal : (Declarations.ofSchema s.worded).fields.any isRefused =
      (Declarations.ofSchema s).fields.any isRefused := by
    rw [Declarations.ofSchema_worded, List.any_map]
    exact congrArg (List.any _) (funext isRefused_worded)
  have others : (Declarations.ofSchema s.worded).hasBinaryForeignKey =
      (Declarations.ofSchema s).hasBinaryForeignKey ∧
      (Declarations.ofSchema s.worded).timestamps = (Declarations.ofSchema s).timestamps := by
    rw [Declarations.ofSchema_worded]
    exact ⟨rfl, rfl⟩
  unfold ofSchema
  rw [keyLines_worded, key, Declaration.keyNames_worded, indices, lines, refusal, others.1,
    others.2]
  rfl

end Model

/-- The text of a model is the same for constants and for their words. -/
theorem Schema.renderModel_worded (s : Schema) : s.worded.renderModel = s.renderModel := by
  rw [renderModel, Model.ofSchema_worded, renderModel]

/-! ## Equality -/

theorem entriesEnd_extraEntries {extra : List (String × Value)} :
    Value.entriesEnd (extraEntries extra) = true ↔ ∀ e ∈ extra, e.2.hasEnd = true := by
  induction extra with
  | nil => simp [extraEntries, Value.entriesEnd]
  | cons e extra ih =>
    unfold extraEntries at ih ⊢
    simp [Value.entriesEnd, ih, show (Value.text e.1).hasEnd = true from rfl]

/-- No default and no other fact of a field holds itself. -/
def Field.hasEnd (f : Field) : Bool :=
  f.facts.default.hasEnd && Value.entriesEnd (extraEntries f.facts.extra)

theorem Field.same_of_worded {f g : Field} (h : f.worded = g.worded) (hf : f.hasEnd = true) :
    f.same g = true := by
  obtain ⟨name, type, source, facts⟩ := f
  obtain ⟨name', type', source', facts'⟩ := g
  obtain ⟨n, d, c, p, k, a, u, e, ec, er, eo, t, x⟩ := facts
  obtain ⟨n', d', c', p', k', a', u', e', ec', er', eo', t', x'⟩ := facts'
  simp only [Field.worded, FieldMeta.worded, Field.mk.injEq, FieldMeta.mk.injEq] at h
  obtain ⟨rfl, rfl, rfl, rfl, hd, rfl, rfl, rfl, rfl, rfl, rfl, rfl, rfl, rfl, rfl, rfl⟩ := h
  simp only [hasEnd, Bool.and_eq_true] at hf
  have default := Value.same_of_worded hd hf.1
  have extra := Value.same_self (.dict (extraEntries x)) hf.2
  simp [Field.same, FieldMeta.same, default, extra]

/-- Lists that a function takes to one list agree item by item, if the items do. -/
theorem sameList_of_map {α β : Type} {same : α → α → Bool} {g : α → β} {xs ys : List α}
    (h : xs.map g = ys.map g) (hs : ∀ x ∈ xs, ∀ y, g x = g y → same x y = true) :
    sameList same xs ys = true := by
  induction xs generalizing ys with
  | nil =>
    cases ys with
    | nil => rfl
    | cons y ys => cases h
  | cons x xs ih =>
    cases ys with
    | nil => cases h
    | cons y ys =>
      rw [List.map_cons, List.map_cons, List.cons.injEq] at h
      rw [sameList, hs x (.head _) y h.1, ih h.2 fun z hz => hs z (.tail _ hz)]
      rfl

namespace Schema

theorem PrimaryKey.same_of_worded {k l : PrimaryKey} (h : k.worded = l.worded)
    (hk : ∀ f ∈ k.fields, f.hasEnd = true) : k.same l = true := by
  simp only [worded, PrimaryKey.mk.injEq] at h
  exact sameList_of_map h fun f hf _ e => Field.same_of_worded e (hk f hf)

theorem Index.same_of_worded {i j : Index} (h : i.worded = j.worded)
    (hi : ∀ f ∈ i.fields, f.hasEnd = true) : i.same j = true := by
  simp only [worded, Index.mk.injEq] at h
  obtain ⟨name, fields, unique, method⟩ := h
  have same := sameList_of_map fields fun f hf _ e => Field.same_of_worded e (hi f hf)
  simp [Index.same, name, unique, method, same]

/-- No default and no other fact of any field, wherever it stands, holds itself. -/
structure HasEnd (s : Schema) : Prop where
  fields : ∀ f ∈ s.fields, f.hasEnd = true
  key : ∀ k ∈ s.primaryKey, ∀ f ∈ k.fields, f.hasEnd = true
  indices : ∀ i ∈ s.indices, ∀ f ∈ i.fields, f.hasEnd = true

/-- Schemas with the same words are the same, if what they hold has an end. -/
theorem same_of_worded {s t : Schema} (h : s.worded = t.worded) (hs : s.HasEnd) :
    s.same t = true := by
  obtain ⟨source, fields, key, foreignKeys, indices⟩ := s
  obtain ⟨source', fields', key', foreignKeys', indices'⟩ := t
  simp only [worded, Schema.mk.injEq] at h
  obtain ⟨rfl, hf, hk, rfl, hi⟩ := h
  have sameFields :=
    sameList_of_map hf fun f hm _ e => Field.same_of_worded e (hs.fields f hm)
  have sameIndices :=
    sameList_of_map hi fun i hm _ e => Index.same_of_worded e (hs.indices i hm)
  unfold same
  simp only [sameFields, sameIndices, beq_self_eq_true, Bool.true_and, Bool.and_true]
  cases key <;> cases key' <;> simp only [Option.map_none, Option.map_some,
    reduceCtorEq] at hk
  · rfl
  · rename_i k l
    exact PrimaryKey.same_of_worded (Option.some.inj hk) (hs.key k rfl)

end Schema

end Schemata
