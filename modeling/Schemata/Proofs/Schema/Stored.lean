/-
Schemas after they were stored.

A schema is stored as the text of its record, and read back from that text. `Schema.stored`
says what comes back without a word about texts: the schema with its defaults and other facts
as a document holds them. That it does come back is `reread_eq`, for the text of a schema
alone, and `within_text`, for the text of a schema with its digest. It is asked of the facts
of a field that their names are those of different attributes (`Representable`), as in every
record, of the numbers in the defaults that they are short enough to be written, and of the
reader that there is room for all that stands inside one another (`within_entryText`).

The reading of a record asks for its attributes by name. What it finds is said once, for the
entries that any record is stored as: `get?_storedEntries`.
-/
import Schemata.Cache.StoredSchema
import Schemata.Proofs.Json.RoundTrip
import Schemata.Proofs.Steps
import Schemata.Proofs.Value.Entries

namespace Schemata

/-! ## Values -/

/-- A type in a document has no double. -/
theorem FieldType.isFinite_toJson (t : FieldType) : t.toJson.isFinite = true := by
  induction t with
  | named n => rfl
  | array t ih => simp [toJson, Json.isFinite, Json.membersAreFinite, ih]
  | enum vs =>
    have texts : Json.areFinite (vs.map .text) = true := by
      induction vs with
      | nil => rfl
      | cons v vs ih => simp [Json.areFinite, Json.isFinite, ih]
    simp [toJson, Json.isFinite, Json.membersAreFinite, texts]

namespace Value

/-- A value after it was written in a document and read back. -/
def stored (v : Value) : Value :=
  v.toJson.distinct.toValue

mutual

/-- A document never holds a double that is not finite. -/
theorem isFinite_toJson : ∀ v : Value, v.toJson.isFinite = true
  | .null => rfl
  | .bool _ => rfl
  | .int _ => rfl
  | .float x => by
    rw [toJson]
    split
    · rename_i h
      exact h
    · rfl
  | .nan _ => rfl
  | .text _ => rfl
  | .generated _ => rfl
  | .action _ => rfl
  | .dialect _ => rfl
  | .type t => t.isFinite_toJson
  | .date _ => rfl
  | .moment _ => rfl
  | .bytes _ => rfl
  | .loop _ => rfl
  | .list xs => areFinite_itemsToJson xs
  | .tuple xs => areFinite_itemsToJson xs
  | .set xs => areFinite_itemsToJson xs
  | .dict es => areFinite_entriesToJson [] es rfl
  | .record _ fs => areFinite_fieldsToJson fs

theorem areFinite_itemsToJson : ∀ xs : List Value, Json.areFinite (itemsToJson xs) = true
  | [] => rfl
  | x :: xs => by
    rw [itemsToJson, Json.areFinite, isFinite_toJson x, areFinite_itemsToJson xs]
    rfl

theorem areFinite_entriesToJson :
    ∀ (before : List (String × Json)) (es : List (Value × Value)),
    Json.membersAreFinite before = true →
    Json.membersAreFinite (entriesToJson before es) = true
  | _, [], h => h
  | _, (_, v) :: es, h =>
    areFinite_entriesToJson _ es (Json.membersAreFinite_putMember h (isFinite_toJson v))

theorem areFinite_fieldsToJson : ∀ fs : List (String × Value),
    Json.membersAreFinite (fieldsToJson fs) = true
  | [] => rfl
  | (_, v) :: fs => by
    rw [fieldsToJson, Json.membersAreFinite, isFinite_toJson v, areFinite_fieldsToJson fs]
    rfl

end

theorem itemsToJson_eq_map (xs : List Value) : itemsToJson xs = xs.map toJson := by
  induction xs with
  | nil => rfl
  | cons x xs ih => rw [itemsToJson, ih, List.map_cons]

theorem fieldsToJson_eq_map (fs : List (String × Value)) :
    fieldsToJson fs = fs.map fun f => (f.1, f.2.toJson) := by
  induction fs with
  | nil => rfl
  | cons f fs ih => rw [fieldsToJson, ih, List.map_cons]

theorem stored_list (xs : List Value) : (Value.list xs).stored = .list (xs.map stored) := by
  rw [stored, toJson, Json.distinct, Json.toValue, itemsToJson_eq_map,
    Json.distinctItems_eq_map, Json.itemsToValue_eq_map]
  simp [Function.comp_def, stored]

/-- The entries that attributes are stored as. -/
def storedEntries (fs : List (String × Value)) : List (Value × Value) :=
  fs.map fun f => (.text f.1, f.2.stored)

/-- A record is stored as a mapping from the names of its attributes. -/
theorem stored_record (kind : String) {fs : List (String × Value)}
    (h : (fs.map (·.1)).Nodup) :
    (Value.record kind fs).stored = .dict (storedEntries fs) := by
  rw [stored, toJson, Json.distinct, fieldsToJson_eq_map, Json.distinctMembers_of_nodup,
    Json.toValue, Json.membersToValue_eq_map]
  · simp [storedEntries, stored, Function.comp_def]
  · simpa [Function.comp_def] using h

/-- What is found under a name in stored attributes is the attribute of that name, stored. -/
theorem get?_storedEntries (fs : List (String × Value)) (key : String) :
    get? (storedEntries fs) key = (fs.lookup key).map stored := by
  induction fs with
  | nil => rfl
  | cons f fs ih =>
    have flip : (key == f.1) = (f.1 == key) := by
      rw [Bool.eq_iff_iff, beq_iff_eq, beq_iff_eq, eq_comm]
    obtain ⟨k, v⟩ := f
    unfold get? find? at ih ⊢
    rw [storedEntries, List.map_cons, List.find?_cons, List.lookup_cons, same_text, flip]
    cases hk : k == key
    · exact ih
    · rfl

/-! ## Attributes

What is read under a name is what was written there. -/

section Attributes

variable {fs : List (String × Value)} {key : String}

theorem textAt?_stored {s : String} (h : fs.lookup key = some (.text s)) :
    textAt? (storedEntries fs) key = some s := by
  rw [textAt?, get?_storedEntries, h]
  rfl

/-- Items that are read one by one are read as a list. -/
theorem listOf?_stored {α : Type} {f : Value → Option α} {g : α → Value}
    {r : α → α} (xs : List α)
    (h : ∀ x ∈ xs, f (g x).stored = some (r x)) :
    listOf? f (Value.list (xs.map g)).stored = some (xs.map r) := by
  rw [stored_list, listOf?]
  induction xs with
  | nil => rfl
  | cons x xs ih =>
    simp only [List.map_cons, List.mapM_cons, h x (.head _), Option.bind_eq_bind,
      Option.bind_some]
    rw [ih fun y hy => h y (.tail _ hy)]
    rfl

theorem texts?_stored (ss : List String) :
    texts? (Value.list (ss.map .text)).stored = some ss := by
  have read := listOf?_stored (f := text?) (g := .text) (r := id) ss fun _ _ => rfl
  rwa [List.map_id] at read

theorem withDefault_stored {α : Type} {f : Value → Option α} {d a : α} {v : Value}
    (h : fs.lookup key = some v) (hf : f v.stored = some a) :
    withDefault f d (storedEntries fs) key = some a := by
  rw [withDefault, get?_storedEntries, h]
  exact hf

theorem optional_of_ne_null {α : Type} {f : Value → Option α} {v : Value} (h : v ≠ .null) :
    optional f v = (f v).map some := by
  unfold optional
  split
  · exact absurd rfl h
  · rfl

/-- An attribute that may be null is read as null, or as what its value is read as. -/
theorem optionalAt_stored {α : Type} {f : Value → Option α} {g : α → Value} {r : α → α}
    {o : Option α} (h : fs.lookup key = some ((o.map g).getD .null))
    (hn : ∀ a ∈ o, (g a).stored ≠ .null) (hf : ∀ a ∈ o, f (g a).stored = some (r a)) :
    optionalAt f (storedEntries fs) key = some (o.map r) := by
  rw [optionalAt, get?_storedEntries, h]
  cases o with
  | none => rfl
  | some a =>
    simp only [Option.map_some, Option.getD_some]
    rw [optional_of_ne_null (hn a rfl), hf a rfl]
    rfl

theorem ofOption_eq_getD (o : Option String) :
    Value.ofOption o = (o.map .text).getD .null := by
  cases o <;> rfl

theorem ofOptionBool_eq_getD (o : Option Bool) :
    Value.ofOptionBool o = (o.map .bool).getD .null := by
  cases o <;> rfl

theorem optionalAt_text {o : Option String} (h : fs.lookup key = some (.ofOption o)) :
    optionalAt text? (storedEntries fs) key = some o := by
  rw [ofOption_eq_getD] at h
  rw [optionalAt_stored (r := id) h (fun _ _ => Value.noConfusion) fun _ _ => rfl,
    Option.map_id]
  rfl

theorem optionalAt_bool {o : Option Bool} (h : fs.lookup key = some (.ofOptionBool o)) :
    optionalAt bool? (storedEntries fs) key = some o := by
  rw [ofOptionBool_eq_getD] at h
  rw [optionalAt_stored (r := id) h (fun _ _ => Value.noConfusion) fun _ _ => rfl,
    Option.map_id]
  rfl

theorem stored_list_ne_null (xs : List Value) : (Value.list xs).stored ≠ .null := by
  rw [stored_list]
  exact Value.noConfusion

theorem optionalAt_texts {o : Option (List String)}
    (h : fs.lookup key = some ((o.map fun ss => .list (ss.map .text)).getD .null)) :
    optionalAt texts? (storedEntries fs) key = some o := by
  rw [optionalAt_stored (r := id) h (fun _ _ => stored_list_ne_null _)
    fun ss _ => texts?_stored ss, Option.map_id]
  rfl

/-! ## Types -/

theorem stored_array (t : FieldType) :
    (Value.type (.array t)).stored =
      .dict (storedEntries [("kind", .text "array"), ("of", .type t)]) := by
  rw [stored, toJson, FieldType.toJson, Json.distinct, Json.distinctMembers_of_nodup]
  · simp [Json.toValue, Json.membersToValue, storedEntries, stored, toJson, Json.distinct]
  · simp

theorem stored_enum (vs : List String) :
    (Value.type (.enum vs)).stored =
      .dict (storedEntries [("kind", .text "enum"), ("values", .list (vs.map .text))]) := by
  rw [stored, toJson, FieldType.toJson, Json.distinct, Json.distinctMembers_of_nodup]
  · have items : itemsToJson (vs.map .text) = vs.map .text := by
      rw [itemsToJson_eq_map]
      simp [Function.comp_def, toJson]
    simp [Json.toValue, Json.membersToValue, storedEntries, stored, toJson,
      Json.distinct, items]
  · simp

/-- A type is read back. -/
theorem type?_stored (t : FieldType) : type? (Value.type t).stored = some t := by
  induction t with
  | named n =>
    have e : (Value.type (.named n)).stored = .text n := rfl
    rw [e, type?]
    · rfl
    all_goals
      intro _ h
      cases h
  | array t ih =>
    have kind : get? (storedEntries [("kind", .text "array"), ("of", .type t)]) "kind" =
        some (.text "array") := by
      rw [get?_storedEntries]
      rfl
    have member : get? (storedEntries [("kind", .text "array"), ("of", .type t)]) "of" =
        some (Value.type t).stored := by
      rw [get?_storedEntries]
      rfl
    rw [stored_array, type?]
    simp only [kind, Option.bind_some, word?]
    split
    · rename_i v hv
      rw [member] at hv
      obtain rfl := Option.some.inj hv
      rw [ih]
      rfl
    · rename_i hv
      rw [member] at hv
      cases hv
  | enum vs =>
    have kind :
        get? (storedEntries [("kind", .text "enum"), ("values", .list (vs.map .text))])
        "kind" = some (.text "enum") := by
      rw [get?_storedEntries]
      rfl
    have values : withDefault texts? [] (storedEntries
        [("kind", .text "enum"), ("values", .list (vs.map .text))]) "values" = some vs :=
      withDefault_stored (v := .list (vs.map .text)) rfl (texts?_stored vs)
    rw [stored_enum, type?]
    simp only [kind, Option.bind_some, word?, values, Option.map_some]

theorem stored_toValue (t : FieldType) : t.toValue.stored = (Value.type t).stored := by
  cases t <;> rfl

theorem stored_type_ne_null (t : FieldType) : t.toValue.stored ≠ .null := by
  rw [stored_toValue]
  cases t with
  | named n => exact Value.noConfusion
  | array t =>
    rw [stored_array]
    exact Value.noConfusion
  | enum vs =>
    rw [stored_enum]
    exact Value.noConfusion

theorem optionalAt_type {o : Option FieldType}
    (h : fs.lookup key = some ((o.map (·.toValue)).getD .null)) :
    optionalAt type? (storedEntries fs) key = some o := by
  rw [optionalAt_stored (r := id) h (fun t _ => stored_type_ne_null t)
    (fun t _ => (congrArg type? (stored_toValue t)).trans (type?_stored t)), Option.map_id]
  rfl

end Attributes

end Value

open Value (storedEntries)

/-! ## Facts -/

namespace FieldMeta

/-- Other facts after they were stored. -/
def storedExtra (extra : List (String × Value)) : List (String × Value) :=
  extra.map fun e => (e.1, e.2.stored)

/-- Facts after they were stored. -/
def stored (m : FieldMeta) : FieldMeta :=
  { m with default := m.default.stored, extra := storedExtra m.extra }

/-- Facts without a place of their own have names that no other fact has. -/
structure Representable (m : FieldMeta) : Prop where
  distinct : (m.extra.map (·.1)).Nodup
  unknown : ∀ e ∈ m.extra, e.1 ∉ known

/-- The attributes of facts. -/
def attributes (m : FieldMeta) : List (String × Value) :=
  [("nullable", .ofOptionBool m.nullable),
    ("default", m.default),
    ("check_constraints", (m.checks.map fun cs => .list (cs.map .text)).getD .null),
    ("primary_key", .ofOptionBool m.primaryKey),
    ("foreign_key", .ofOptionBool m.foreignKey),
    ("association", .ofOptionBool m.association),
    ("function_default", .ofOptionBool m.functionDefault),
    ("embed", .ofOptionBool m.embed),
    ("embed_cardinality", .ofOption m.embedCardinality),
    ("embed_related", .ofOption m.embedRelated),
    ("embed_on_replace", .ofOption m.embedOnReplace),
    ("type", (m.columnType.map (·.toValue)).getD .null)] ++ m.extra

theorem toValue_eq (m : FieldMeta) : m.toValue = .record "FieldMeta" m.attributes := by
  obtain ⟨_, _, checks, _, _, _, _, _, _, _, _, columnType, _⟩ := m
  cases checks <;> cases columnType <;> rfl

theorem nodup_attributes {m : FieldMeta} (h : m.Representable) :
    (m.attributes.map (·.1)).Nodup := by
  have names : m.attributes.map (·.1) = known ++ m.extra.map (·.1) := rfl
  rw [names, List.nodup_append]
  refine ⟨by decide, h.distinct, ?_⟩
  intro k hk l hl e
  obtain ⟨x, hx, rfl⟩ := List.mem_map.1 hl
  exact h.unknown x hx (e ▸ hk)

theorem extraOf_storedEntries (fs : List (String × Value)) :
    extraOf (storedEntries fs) =
      some (storedExtra (fs.filter fun f => !known.contains f.1)) := by
  induction fs with
  | nil => rfl
  | cons f fs ih =>
    rw [storedEntries, List.map_cons, extraOf, ← storedEntries, ih]
    simp only [Value.word?, Option.bind_eq_bind, Option.bind_some]
    rw [List.filter_cons]
    cases known.contains f.1 <;> rfl

theorem filter_attributes {m : FieldMeta} (h : m.Representable) :
    m.attributes.filter (fun f => !known.contains f.1) = m.extra := by
  have places : ((m.attributes.take 12).filter fun f => !known.contains f.1) = [] := by
    rw [List.filter_eq_nil_iff]
    intro f hf
    have : f.1 ∈ (m.attributes.take 12).map (·.1) := List.mem_map_of_mem hf
    have names : (m.attributes.take 12).map (·.1) = known := rfl
    rw [names] at this
    simpa using this
  have split : m.attributes = m.attributes.take 12 ++ m.extra := rfl
  rw [split, List.filter_append, places, List.nil_append, List.filter_eq_self]
  intro f hf
  simpa using h.unknown f hf

/-- Facts are read back. -/
theorem ofValue?_stored {m : FieldMeta} (h : m.Representable) :
    ofValue? m.toValue.stored = some m.stored := by
  have extra := extraOf_storedEntries m.attributes
  rw [filter_attributes h] at extra
  have default : Value.getD (storedEntries m.attributes) "default" = m.default.stored := by
    rw [Value.getD, Value.get?_storedEntries]
    rfl
  rw [toValue_eq, Value.stored_record _ (nodup_attributes h), ofValue?, ofEntries?, extra,
    Value.optionalAt_bool (o := m.nullable) rfl, Value.optionalAt_texts (o := m.checks) rfl,
    Value.optionalAt_bool (o := m.primaryKey) rfl,
    Value.optionalAt_bool (o := m.foreignKey) rfl,
    Value.optionalAt_bool (o := m.association) rfl,
    Value.optionalAt_bool (o := m.functionDefault) rfl, Value.optionalAt_bool
    (o := m.embed) rfl, Value.optionalAt_text (o := m.embedCardinality) rfl,
      Value.optionalAt_text (o := m.embedRelated) rfl,
    Value.optionalAt_text (o := m.embedOnReplace) rfl,
    Value.optionalAt_type (o := m.columnType) rfl, default]
  rfl

end FieldMeta

/-! ## Fields -/

namespace Field

/-- A field after it was stored. -/
def stored (f : Field) : Field :=
  { f with facts := f.facts.stored }

theorem ofValue?_stored {f : Field} (h : f.facts.Representable) :
    ofValue? f.toValue.stored = some f.stored := by
  have type : (Value.get? (storedEntries [
      ("name", .text f.name), ("type", f.type.toValue), ("source", .ofOption f.source),
      ("meta", f.facts.toValue)]) "type").bind Value.type? = some f.type := by
    rw [Value.get?_storedEntries]
    exact (congrArg Value.type? (Value.stored_toValue f.type)).trans
      (Value.type?_stored f.type)
  rw [toValue, Value.stored_record _ (by simp), ofValue?,
    Value.textAt?_stored (s := f.name) rfl, type, Value.optionalAt_text (o := f.source) rfl,
    Value.withDefault_stored (v := f.facts.toValue) rfl (FieldMeta.ofValue?_stored h)]
  rfl

theorem listOf?_stored {fs : List Field} (h : ∀ f ∈ fs, f.facts.Representable) :
    listOf? (Value.list (fs.map (·.toValue))).stored = some (fs.map stored) :=
  Value.listOf?_stored fs fun f hf => ofValue?_stored (h f hf)

end Field

/-! ## Schemas -/

namespace Schema

/-- A primary key after it was stored. -/
def PrimaryKey.stored (k : PrimaryKey) : PrimaryKey :=
  ⟨k.fields.map Field.stored⟩

/-- An index after it was stored. -/
def Index.stored (i : Index) : Index :=
  { i with fields := i.fields.map Field.stored }

/-- A schema after it was stored. -/
def stored (s : Schema) : Schema :=
  { s with
    fields := s.fields.map Field.stored
    primaryKey := s.primaryKey.map PrimaryKey.stored
    indices := s.indices.map Index.stored }

/-- Every field, wherever it stands, has facts that a record can hold. -/
structure Representable (s : Schema) : Prop where
  fields : ∀ f ∈ s.fields, f.facts.Representable
  key : ∀ k ∈ s.primaryKey, ∀ f ∈ k.fields, f.facts.Representable
  indices : ∀ i ∈ s.indices, ∀ f ∈ i.fields, f.facts.Representable

theorem representable_empty (source : String) : (empty source).Representable where
  fields _ hf := absurd hf List.not_mem_nil
  key _ hk := nomatch hk
  indices _ hi := absurd hi List.not_mem_nil

theorem PrimaryKey.ofValue?_stored {k : PrimaryKey}
    (h : ∀ f ∈ k.fields, f.facts.Representable) :
    ofValue? k.toValue.stored = some k.stored := by
  rw [toValue, Value.stored_record _ (by simp), ofValue?,
    Value.withDefault_stored (v := .list (k.fields.map (·.toValue))) rfl
      (Field.listOf?_stored h)]
  rfl

theorem PrimaryKey.stored_toValue_ne_null (k : PrimaryKey) : k.toValue.stored ≠ .null := by
  rw [toValue, Value.stored_record _ (by simp)]
  exact Value.noConfusion

theorem ForeignKey.ofValue?_stored (k : ForeignKey) : ofValue? k.toValue.stored = some k := by
  rw [toValue, Value.stored_record _ (by simp), ofValue?, ofEntries?,
    Value.textAt?_stored (s := k.field) rfl, Value.textAt?_stored (s := k.table) rfl,
    Value.optionalAt_text (o := k.target) rfl, Value.optionalAt_text (o := k.association) rfl]
  rfl

theorem Index.ofValue?_stored {i : Index} (h : ∀ f ∈ i.fields, f.facts.Representable) :
    ofValue? i.toValue.stored = some i.stored := by
  rw [toValue, Value.stored_record _ (by simp), ofValue?,
    Value.textAt?_stored (s := i.name) rfl, Value.withDefault_stored
    (v := .list (i.fields.map (·.toValue))) rfl (Field.listOf?_stored h),
      Value.withDefault_stored (v := .bool i.unique) (a := i.unique) rfl rfl,
    Value.optionalAt_text (o := i.method) rfl]
  rfl

/-- The record of a schema is read back. -/
theorem ofValue?_stored {s : Schema} (h : s.Representable) :
    ofValue? s.toValue.stored = some s.stored := by
  have key : s.toValue = .record "Schema" [
      ("source", .text s.source), ("fields", .list (s.fields.map (·.toValue))),
      ("primary_key", (s.primaryKey.map (·.toValue)).getD .null),
      ("foreign_keys", .list (s.foreignKeys.map (·.toValue))),
      ("indices", .list (s.indices.map (·.toValue)))] := by
    unfold toValue
    cases s.primaryKey <;> rfl
  have foreignKeys := Value.listOf?_stored (g := ForeignKey.toValue) (r := id)
    s.foreignKeys fun k _ => k.ofValue?_stored
  have indices := Value.listOf?_stored (g := Index.toValue) (r := Index.stored)
    s.indices fun i hi => Index.ofValue?_stored (h.indices i hi)
  rw [key, Value.stored_record _ (by simp), ofValue?,
    Value.textAt?_stored (s := s.source) rfl,
    Value.withDefault_stored (v := .list (s.fields.map (·.toValue))) rfl
      (Field.listOf?_stored h.fields),
    Value.optionalAt_stored (o := s.primaryKey) (g := PrimaryKey.toValue) rfl
      (fun k _ => k.stored_toValue_ne_null) fun k hk =>
        PrimaryKey.ofValue?_stored (h.key k hk),
    Value.withDefault_stored (v := .list (s.foreignKeys.map (·.toValue))) rfl foreignKeys,
    Value.withDefault_stored (v := .list (s.indices.map (·.toValue))) rfl indices]
  rw [List.map_id]
  rfl

theorem ofJson?_stored {s : Schema} (h : s.Representable) :
    ofJson? s.toJson.distinct = some s.stored :=
  ofValue?_stored h

/-- The text of a schema whose numbers are short enough is read as what it is written from,
with the last of the values of a key. -/
theorem reread_eq_require {s : Schema} (hw : s.toJson.isWritable = true) :
    s.reread = Value.require (ofJson? s.toJson.distinct) := by
  unfold reread
  rw [Json.parse?_print Json.inline_isBlank Json.ascii_isSafe hw
    (Value.isFinite_toJson s.toValue)]

/-- A schema whose numbers are short enough is read back from its text. -/
theorem reread_eq {s : Schema} (h : s.Representable) (hw : s.toJson.isWritable = true) :
    s.reread = .ok s.stored := by
  rw [reread_eq_require hw, ofJson?_stored h]
  rfl

end Schema

/-! ## Stored texts -/

namespace StoredSchema

/-- A schema that has a text has numbers that are short enough. -/
theorem isWritable_of_text {s : StoredSchema} {t : String} (h : s.text = .ok t) :
    s.schema.toJson.isWritable = true ∧ t = Json.print Json.indented Json.ascii s.toJson := by
  unfold text at h
  split at h
  · cases h
  split at h
  · rename_i hw
    refine ⟨?_, (Except.ok.inj h).symm⟩
    simp only [toJson, Json.isWritable, Json.membersAreWritable, Bool.and_eq_true] at hw
    exact hw.1
  · cases h

theorem isFinite_toJson (s : StoredSchema) : s.toJson.isFinite = true := by
  have schema : s.schema.toJson.isFinite = true := Value.isFinite_toJson s.schema.toValue
  simp [toJson, Json.isFinite, Json.membersAreFinite, schema]

theorem distinct_toJson (s : StoredSchema) : s.toJson.distinct =
    .object [("schema", s.schema.toJson.distinct), ("digest", .text s.digest)] := by
  rw [toJson, Json.distinct, Json.distinctMembers_of_nodup]
  · rfl
  · simp

/-- The text is that of an object with the schema and the digest, for a reader who has room
for it. -/
theorem read_text {s : StoredSchema} {t : String} (h : s.text = .ok t) {room : Nat}
    (fits : s.toJson.nesting ≤ room) :
    Json.read room t =
      .ok (.object [("schema", s.schema.toJson.distinct), ("digest", .text s.digest)]) := by
  obtain ⟨hw, rfl⟩ := isWritable_of_text h
  have writable : s.toJson.isWritable = true := by
    simp [toJson, Json.isWritable, Json.membersAreWritable, hw]
  rw [Json.read_print Json.indented_isBlank Json.ascii_isSafe writable s.isFinite_toJson fits,
    distinct_toJson]

/-- A text has as many characters as it opens brackets, at the least. -/
theorem nesting_le_length {s : StoredSchema} {t : String} (h : s.text = .ok t) :
    s.toJson.nesting ≤ t.length := by
  obtain ⟨-, rfl⟩ := isWritable_of_text h
  rw [Json.print, String.length_ofList]
  exact Json.nesting_le_length Json.indented Json.ascii 0 s.toJson

theorem parse?_text {s : StoredSchema} {t : String} (h : s.text = .ok t) :
    Json.parse? t =
      some (.object [("schema", s.schema.toJson.distinct), ("digest", .text s.digest)]) := by
  rw [Json.parse?, read_text h (nesting_le_length h)]
  rfl

/-- What is written to a file is the text, and it can be read from there. -/
theorem entryText_eq_ok {s : StoredSchema} {t : String} :
    s.entryText = .ok t ↔ s.text = .ok t ∧ s.toJson.nesting ≤ Json.readingRoom := by
  rw [entryText, bind_eq_ok]
  constructor
  · rintro ⟨text, written, h⟩
    split at h
    · rename_i fits
      cases h
      exact ⟨written, fits⟩
    · cases h
  · rintro ⟨written, fits⟩
    exact ⟨t, written, if_pos fits⟩

end StoredSchema

/-- What a schema is found as: as it is read back, if what is read is valid. -/
def Reading.ofReread (s : Schema) : Reading :=
  match s.reread with
  | .ok s' => .fresh s'
  | .error _ => .stale

/-- A schema is found only as what is read back. -/
theorem Reading.ofReread_eq_fresh {s s' : Schema} (h : Reading.ofReread s = .fresh s') :
    s.reread = .ok s' := by
  unfold ofReread at h
  split at h
  · rename_i reread
    rw [reread, Reading.fresh.inj h]
  · cases h

theorem Reading.ofReread_of_reread {s s' : Schema} (h : s.reread = .ok s') :
    Reading.ofReread s = .fresh s' := by
  unfold ofReread
  rw [h]

/-- What is read back is never nested too deeply. -/
theorem Reading.ofReread_ne_tooDeep (s : Schema) : Reading.ofReread s ≠ .tooDeep := by
  unfold ofReread
  split <;> exact Reading.noConfusion

/-- What the text of a stored schema says later to a reader who has room for it: the schema as
it is read back while the digest is the same, and nothing else. -/
theorem Reading.within_text {s : Schema} {d digest t : String} {room : Nat}
    (h : StoredSchema.text ⟨s, d⟩ = .ok t)
    (fits : (StoredSchema.toJson ⟨s, d⟩).nesting ≤ room) :
    Reading.within room digest t = if d = digest then .ofReread s else .stale := by
  obtain ⟨hw, -⟩ := StoredSchema.isWritable_of_text h
  have schema : Reading.schema? [("schema", s.toJson.distinct), ("digest", .text d)] =
      Schema.ofJson? s.toJson.distinct := rfl
  have own : Reading.hasDigest digest [("schema", s.toJson.distinct), ("digest", .text d)] =
      (d == digest) := rfl
  rw [Reading.within, StoredSchema.read_text h fits]
  unfold ofReread
  simp only [ofJson, own, schema, Schema.reread_eq_require hw, beq_iff_eq]
  split
  · cases Schema.ofJson? s.toJson.distinct <;> rfl
  · rfl

theorem Reading.ofText_text {s : Schema} {d digest t : String}
    (h : StoredSchema.text ⟨s, d⟩ = .ok t) :
    Reading.ofText digest t = if d = digest then .ofReread s else .stale :=
  within_text h (StoredSchema.nesting_le_length h)

/-- What is in a file of the cache is always read. -/
theorem Reading.within_entryText {s : Schema} {d digest t : String}
    (h : StoredSchema.entryText ⟨s, d⟩ = .ok t) :
    Reading.within Json.readingRoom digest t = if d = digest then .ofReread s else .stale :=
  within_text (StoredSchema.entryText_eq_ok.1 h).1 (StoredSchema.entryText_eq_ok.1 h).2

end Schemata
