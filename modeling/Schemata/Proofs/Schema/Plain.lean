/-
Schemas that hold plain data.

What a document can hold as it is comes back from the cache unchanged: `IsDocument` says which
values these are. If the defaults of a schema are plain data or generated, and the facts
without a place of their own are plain data, it has a text, and what is read back from the
text is the schema with the words for its generated defaults: `stored_eq_worded`. A schema
compiled from a table has no facts beyond those that have a place.
-/
import Schemata.Proofs.Schema.Stored
import Schemata.Proofs.Schema.WellFormed
import Schemata.Proofs.Schema.Worded

namespace Schemata

/-! ## Plain data -/

/-- Data that a document holds as they are: the entries of a mapping have texts for keys, each
key once. -/
inductive Value.IsDocument : Value → Prop
  | null : IsDocument .null
  | bool (b : Bool) : IsDocument (.bool b)
  | int {n : Int} (short : (toString n.natAbs).length ≤ Text.maxDigits) : IsDocument (.int n)
  | float {x : Float} (finite : x.isFinite = true) : IsDocument (.float x)
  | text (s : String) : IsDocument (.text s)
  | list {xs : List Value} (items : ∀ x ∈ xs, IsDocument x) : IsDocument (.list xs)
  | dict {ms : List (String × Value)} (values : ∀ m ∈ ms, IsDocument m.2)
      (distinct : (ms.map (·.1)).Nodup) : IsDocument (.dict (extraEntries ms))

namespace Value

/-- A value can be written in a document. -/
structure Writes (v : Value) : Prop where
  accepted : v.refusal? = none
  writable : v.toJson.isWritable = true

theorem entriesToJson_of_nodup (before : List (String × Json)) {ms : List (String × Value)}
    (h : (before.map (·.1) ++ ms.map (·.1)).Nodup) :
    entriesToJson before (extraEntries ms) = before ++ ms.map fun m => (m.1, m.2.toJson) := by
  induction ms generalizing before with
  | nil => simp [extraEntries, entriesToJson]
  | cons m ms ih =>
    obtain ⟨k, v⟩ := m
    have hk : k ∉ before.map (·.1) := by
      rw [List.map_cons, List.nodup_append] at h
      exact fun hm => h.2.2 k hm k (List.mem_cons_self ..) rfl
    have key : jsonKey (.text k) = k := rfl
    rw [extraEntries, List.map_cons, entriesToJson, key, Json.putMember_of_notMem hk,
      ← extraEntries, ih]
    · simp
    · simpa using h

namespace Writes

theorem null : Writes .null := ⟨rfl, rfl⟩

theorem bool (b : Bool) : Writes (.bool b) := ⟨rfl, rfl⟩

theorem text (s : String) : Writes (.text s) := ⟨rfl, rfl⟩

theorem refusalOfItems? {xs : List Value} (h : ∀ x ∈ xs, Writes x) :
    Value.refusalOfItems? xs = none := by
  induction xs with
  | nil => rfl
  | cons x xs ih =>
    rw [Value.refusalOfItems?, (h x (.head _)).accepted, ih fun y hy => h y (.tail _ hy)]
    rfl

theorem areWritable (xs : List Value) (h : ∀ x ∈ xs, Writes x) :
    Json.areWritable (itemsToJson xs) = true := by
  induction xs with
  | nil => rfl
  | cons x xs ih =>
    rw [itemsToJson, Json.areWritable, (h x (.head _)).writable,
      ih fun y hy => h y (.tail _ hy)]
    rfl

theorem list {xs : List Value} (h : ∀ x ∈ xs, Writes x) : Writes (.list xs) :=
  ⟨refusalOfItems? h, areWritable _ h⟩

theorem refusalOfFields? {fs : List (String × Value)} (h : ∀ f ∈ fs, Writes f.2) :
    Value.refusalOfFields? fs = none := by
  induction fs with
  | nil => rfl
  | cons f fs ih =>
    rw [Value.refusalOfFields?, (h f (.head _)).accepted, ih fun g hg => h g (.tail _ hg)]
    rfl

theorem membersAreWritable {fs : List (String × Value)} (h : ∀ f ∈ fs, Writes f.2) :
    Json.membersAreWritable (fs.map fun f => (f.1, f.2.toJson)) = true := by
  induction fs with
  | nil => rfl
  | cons f fs ih =>
    rw [List.map_cons, Json.membersAreWritable, (h f (.head _)).writable,
      ih fun g hg => h g (.tail _ hg)]
    rfl

theorem record (kind : String) {fs : List (String × Value)} (h : ∀ f ∈ fs, Writes f.2) :
    Writes (.record kind fs) where
  accepted := refusalOfFields? h
  writable := by
    rw [toJson, fieldsToJson_eq_map, Json.isWritable]
    exact membersAreWritable h

theorem refusalOfEntries? {ms : List (String × Value)} (h : ∀ m ∈ ms, Writes m.2) :
    Value.refusalOfEntries? (extraEntries ms) = none := by
  induction ms with
  | nil => rfl
  | cons m ms ih =>
    have tail := ih fun n hn => h n (.tail _ hn)
    rw [extraEntries, List.map_cons, Value.refusalOfEntries?, (h m (.head _)).accepted,
      ← extraEntries, tail]
    rfl

theorem dict {ms : List (String × Value)} (h : ∀ m ∈ ms, Writes m.2)
    (distinct : (ms.map (·.1)).Nodup) : Writes (.dict (extraEntries ms)) where
  accepted := refusalOfEntries? h
  writable := by
    rw [toJson, entriesToJson_of_nodup [] distinct, Json.isWritable]
    exact membersAreWritable h

theorem option (o : Option String) : Writes (.ofOption o) := by
  cases o with
  | none => exact null
  | some s => exact text s

theorem optionBool (o : Option Bool) : Writes (.ofOptionBool o) := by
  cases o with
  | none => exact null
  | some b => exact bool b

theorem texts (ss : List String) : Writes (.list (ss.map .text)) := by
  refine list fun x hx => ?_
  obtain ⟨s, -, rfl⟩ := List.mem_map.1 hx
  exact text s

theorem type (t : FieldType) : Writes t.toValue := by
  have writable (t : FieldType) : t.toJson.isWritable = true := by
    induction t with
    | named n => rfl
    | array t ih => simp [FieldType.toJson, Json.isWritable, Json.membersAreWritable, ih]
    | enum vs =>
      have items := areWritable (vs.map .text) fun x hx => by
        obtain ⟨s, -, rfl⟩ := List.mem_map.1 hx
        exact text s
      have e : itemsToJson (vs.map .text) = vs.map .text := by
        rw [itemsToJson_eq_map]
        simp [Function.comp_def, toJson]
      rw [e] at items
      simp [FieldType.toJson, Json.isWritable, Json.membersAreWritable, items]
  cases t with
  | named n => exact text n
  | array t => exact ⟨rfl, writable (.array t)⟩
  | enum vs => exact ⟨rfl, writable (.enum vs)⟩

end Writes

namespace IsDocument

theorem writes {v : Value} (h : v.IsDocument) : Writes v := by
  induction h with
  | null => exact .null
  | bool b => exact .bool b
  | int short => exact ⟨rfl, decide_eq_true short⟩
  | float finite =>
    refine ⟨rfl, ?_⟩
    rw [toJson, if_pos finite]
    rfl
  | text s => exact .text s
  | list _ ih => exact .list ih
  | dict _ distinct ih => exact .dict ih distinct

theorem stored_dict {ms : List (String × Value)} (h : (ms.map (·.1)).Nodup) :
    (Value.dict (extraEntries ms)).stored = .dict (storedEntries ms) := by
  have entries := entriesToJson_of_nodup [] h
  rw [stored, toJson, entries, List.nil_append, Json.distinct, Json.distinctMembers_of_nodup,
    Json.toValue, Json.membersToValue_eq_map]
  · simp [storedEntries, stored, Function.comp_def]
  · simpa [Function.comp_def] using h

/-- Plain data come back unchanged. -/
theorem stored_eq {v : Value} (h : v.IsDocument) : v.stored = v := by
  induction h with
  | float finite =>
    have number := Decimal.isNaN_of_isFinite finite
    have written (x : Float) : Json.distinct (.float x) = .float x := rfl
    rw [stored, toJson, if_pos finite, written, Json.toValue, ofFloat, number]
    rfl
  | list _ ih => rw [stored_list, List.map_congr_left ih, List.map_id']
  | dict _ distinct ih =>
    rw [stored_dict distinct]
    refine congrArg Value.dict (List.map_congr_left fun m hm => ?_)
    rw [ih m hm]
  | _ => rfl

theorem hasEnd {v : Value} (h : v.IsDocument) : v.hasEnd = true := by
  induction h with
  | list _ ih => exact allEnd_iff.2 ih
  | dict _ _ ih => exact entriesEnd_extraEntries.2 ih
  | _ => rfl

theorem worded_eq {v : Value} (h : v.IsDocument) : v.worded = v := by
  cases h <;> rfl

end IsDocument

end Value

/-! ## Schemas -/

/-- A default that the database generates, or plain data. -/
def Value.IsPlainDefault (v : Value) : Prop :=
  (∃ d, v = .generated d) ∨ v.IsDocument

namespace Value.IsPlainDefault

theorem writes {v : Value} (h : v.IsPlainDefault) : v.Writes := by
  rcases h with ⟨d, rfl⟩ | h
  · exact ⟨rfl, rfl⟩
  · exact h.writes

theorem stored_eq_worded {v : Value} (h : v.IsPlainDefault) : v.stored = v.worded := by
  rcases h with ⟨d, rfl⟩ | h
  · rfl
  · rw [h.stored_eq, h.worded_eq]

theorem hasEnd {v : Value} (h : v.IsPlainDefault) : v.hasEnd = true := by
  rcases h with ⟨d, rfl⟩ | h
  · rfl
  · exact h.hasEnd

end Value.IsPlainDefault

/-- A field with a plain default and plain data for the facts that have no place of their
own. -/
structure Field.IsPlain (f : Field) : Prop where
  default : f.facts.default.IsPlainDefault
  representable : f.facts.Representable
  extra : ∀ e ∈ f.facts.extra, e.2.IsDocument

namespace Field.IsPlain

variable {f : Field}

theorem stored_eq_worded (h : f.IsPlain) : f.stored = f.worded := by
  have extra : FieldMeta.storedExtra f.facts.extra = f.facts.extra := by
    have each : ∀ e ∈ f.facts.extra, (e.1, e.2.stored) = e := by
      intro e he
      rw [(h.extra e he).stored_eq]
    rw [FieldMeta.storedExtra, List.map_congr_left each, List.map_id']
  rw [stored, FieldMeta.stored, h.default.stored_eq_worded, extra]
  rfl

theorem hasEnd (h : f.IsPlain) : f.hasEnd = true := by
  have extra := entriesEnd_extraEntries.2 fun e he => (h.extra e he).hasEnd
  rw [Field.hasEnd, h.default.hasEnd, extra]
  rfl

theorem writes (h : f.IsPlain) : f.toValue.Writes := by
  have facts : f.facts.toValue.Writes := by
    rw [FieldMeta.toValue_eq]
    refine .record _ fun a ha => ?_
    have texts :
        ((f.facts.checks.map fun cs => Value.list (cs.map .text)).getD
          Value.null).Writes := by
      cases f.facts.checks with
      | none => exact .null
      | some cs => exact .texts cs
    have type : ((f.facts.columnType.map FieldType.toValue).getD Value.null).Writes := by
      cases f.facts.columnType with
      | none => exact .null
      | some t => exact .type t
    rcases List.mem_append.1 ha with ha | ha
    case inr => exact (h.extra a ha).writes
    simp only [List.mem_cons, List.not_mem_nil, or_false] at ha
    rcases ha with rfl | rfl | rfl | rfl | rfl | rfl | rfl | rfl | rfl | rfl | rfl | rfl
    all_goals first
      | exact .optionBool _
      | exact .option _
      | exact h.default.writes
      | exact texts
      | exact type
  refine .record _ fun a ha => ?_
  simp only [List.mem_cons, List.not_mem_nil, or_false] at ha
  rcases ha with rfl | rfl | rfl | rfl
  · exact .text f.name
  · exact .type f.type
  · exact .option f.source
  · exact facts

end Field.IsPlain

namespace Schema

/-- Every field, wherever it stands, is plain. -/
structure IsPlain (s : Schema) : Prop where
  fields : ∀ f ∈ s.fields, f.IsPlain
  key : ∀ k ∈ s.primaryKey, ∀ f ∈ k.fields, f.IsPlain
  indices : ∀ i ∈ s.indices, ∀ f ∈ i.fields, f.IsPlain

/-- The facts of a column all have a place. -/
theorem representable_toField (r : TypeMapping.Rules) (c : Column) :
    (c.toField r).facts.Representable :=
  ⟨List.nodup_nil, fun _ he => nomatch he⟩

/-- A compiled schema has no facts but those that have a place. -/
theorem compile_representable (r : TypeMapping.Rules) (t : Table) :
    (compile r t).Representable := by
  have fields : ∀ f ∈ (compile r t).fields, f.facts.Representable := by
    intro f hf
    obtain ⟨c, -, rfl⟩ := List.mem_map.1 hf
    exact representable_toField r c
  exact ⟨fields, fun _ hk f hf => fields f (compile_key_mem hk hf),
    fun _ hi f hf => fields f (compile_indices_mem hi hf)⟩

theorem ofTable_representable {bare : Value} {t : Table} {s : Schema}
    (h : ofTable bare t = .ok s) : s.Representable := by
  obtain ⟨_, rfl⟩ := eq_compile_of_ofTable h
  exact compile_representable _ t

/-- A schema compiled from a table is plain if the defaults of its fields are. -/
theorem compile_isPlain {r : TypeMapping.Rules} {t : Table}
    (h : ∀ f ∈ (compile r t).fields, f.facts.default.IsPlainDefault) :
      (compile r t).IsPlain := by
  have fields : ∀ f ∈ (compile r t).fields, f.IsPlain := by
    intro f hf
    have default := h f hf
    obtain ⟨c, -, rfl⟩ := List.mem_map.1 hf
    exact ⟨default, representable_toField r c, fun _ he => nomatch he⟩
  exact ⟨fields, fun _ hk f hf => fields f (compile_key_mem hk hf),
    fun _ hi f hf => fields f (compile_indices_mem hi hf)⟩

namespace IsPlain

variable {s : Schema}

theorem representable (h : s.IsPlain) : s.Representable where
  fields := fun f hf => (h.fields f hf).representable
  key := fun k hk f hf => (h.key k hk f hf).representable
  indices := fun i hi f hf => (h.indices i hi f hf).representable

theorem hasEnd (h : s.IsPlain) : s.HasEnd where
  fields := fun f hf => (h.fields f hf).hasEnd
  key := fun k hk f hf => (h.key k hk f hf).hasEnd
  indices := fun i hi f hf => (h.indices i hi f hf).hasEnd

theorem writes_fields {fs : List Field} (h : ∀ f ∈ fs, f.IsPlain) :
    (Value.list (fs.map (·.toValue))).Writes := by
  refine .list fun x hx => ?_
  obtain ⟨f, hf, rfl⟩ := List.mem_map.1 hx
  exact (h f hf).writes

theorem writes (h : s.IsPlain) : s.toValue.Writes := by
  have foreignKeys : (Value.list (s.foreignKeys.map (·.toValue))).Writes := by
    refine .list fun x hx => ?_
    obtain ⟨k, -, rfl⟩ := List.mem_map.1 hx
    refine .record _ fun a ha => ?_
    simp only [List.mem_cons, List.not_mem_nil, or_false] at ha
    rcases ha with rfl | rfl | rfl | rfl
    · exact .text k.field
    · exact .text k.table
    · exact .option k.target
    · exact .option k.association
  have indices : (Value.list (s.indices.map (·.toValue))).Writes := by
    refine .list fun x hx => ?_
    obtain ⟨i, hi, rfl⟩ := List.mem_map.1 hx
    refine .record _ fun a ha => ?_
    simp only [List.mem_cons, List.not_mem_nil, or_false] at ha
    rcases ha with rfl | rfl | rfl | rfl
    · exact .text i.name
    · exact writes_fields (h.indices i hi)
    · exact .bool i.unique
    · exact .option i.method
  refine .record _ fun a ha => ?_
  simp only [List.mem_cons, List.not_mem_nil, or_false] at ha
  rcases ha with rfl | rfl | rfl | rfl | rfl
  · exact .text s.source
  · exact writes_fields h.fields
  · cases hk : s.primaryKey with
    | none => exact .null
    | some k =>
      refine .record _ fun a ha => ?_
      rw [List.mem_singleton.1 ha]
      exact writes_fields (h.key k hk)
  · exact foreignKeys
  · exact indices

/-- What comes back of a plain schema has the words for its generated defaults. -/
theorem stored_eq_worded (h : s.IsPlain) : s.stored = s.worded := by
  have fields {fs : List Field} (hf : ∀ f ∈ fs, f.IsPlain) :
      fs.map Field.stored = fs.map Field.worded :=
    List.map_congr_left fun f hm => (hf f hm).stored_eq_worded
  have key : s.primaryKey.map PrimaryKey.stored = s.primaryKey.map PrimaryKey.worded := by
    cases hk : s.primaryKey with
    | none => rfl
    | some k =>
      rw [Option.map_some, PrimaryKey.stored, fields (h.key k hk)]
      rfl
  have indices : s.indices.map Index.stored = s.indices.map Index.worded := by
    refine List.map_congr_left fun i hi => ?_
    rw [Index.stored, fields (h.indices i hi)]
    rfl
  rw [stored, fields h.fields, key, indices]
  rfl

/-- A plain schema has a text, and comes back from it. -/
theorem text_ofText (h : s.IsPlain) (digest : String) :
    ∃ text, StoredSchema.text ⟨s, digest⟩ = .ok text ∧
      Reading.ofText digest text = .fresh s.stored := by
  have writable : (StoredSchema.toJson ⟨s, digest⟩).isWritable = true := by
    simp [StoredSchema.toJson, Json.isWritable, Json.membersAreWritable,
      show s.toJson.isWritable = true from h.writes.writable]
  have text : StoredSchema.text ⟨s, digest⟩ =
      .ok (Json.print Json.indented Json.ascii (StoredSchema.toJson ⟨s, digest⟩)) := by
    simp only [StoredSchema.text, h.writes.accepted, writable, if_true]
  refine ⟨_, text, ?_⟩
  rw [Reading.ofText_text text, if_pos rfl]
  exact Reading.ofReread_of_reread (reread_eq h.representable h.writes.writable)

end IsPlain

end Schema

end Schemata
