/-
What a merge says, point by point.

A merge is made of five unions, each with a precedence and an order of its own.
`Schema.Unites` says what is found at each point of the outcome: under each name the field,
under each key of a field the fact, over each field the foreign key, at each place of a key or
an index the definition. All of it is read off the two sides, without a word about how the
unions are made.

Facts are the one point at which a value is not just taken over. What a side says of a key is
taken apart on the way (`FieldMeta.fact?_merge`): a type or a record that it holds becomes a
mapping. Plain data stay as they are, and so does the type of the column, which is read back.
-/
import Schemata.Proofs.Schema.Override
import Schemata.Proofs.Schema.Stored

namespace Schemata

/-! ## Facts by key -/

namespace FieldMeta

/-- What facts say under a key; nothing if the key is neither an attribute nor among the other
facts. -/
def fact? (m : FieldMeta) (key : String) : Option Value :=
  (m.attributes.find? (·.1 == key)).map (·.2)

/-- Of what two definitions of a field say under a key: the right side if it says
something. -/
def chosen? (a b : FieldMeta) (key : String) : Option Value :=
  ((b.fact? key).filter (·.isStated)).or (a.fact? key)

/-- A value as a merge hands it on under a key: all but the type of the column is taken
apart. -/
def handedOn (key : String) (v : Value) : Value :=
  if key = "type" then v else v.dumped

/-- A value is handed on as it is exactly if it is plain data or the type of the column. -/
theorem handedOn_eq_self_iff (key : String) (v : Value) :
    handedOn key v = v ↔ key = "type" ∨ v.isData = true := by
  unfold handedOn
  by_cases h : key = "type"
  · simp [h]
  · simp [h, Value.dumped_eq_self_iff]

/-- A key that is no attribute is looked up among the other facts. -/
theorem fact?_of_notMem {m : FieldMeta} {key : String} (h : key ∉ known) :
    m.fact? key = (m.extra.find? (·.1 == key)).map (·.2) := by
  have none : (m.attributes.take 12).find? (·.1 == key) = none :=
    find?_eq_none_of_notMem Prod.fst h
  have split : m.attributes = m.attributes.take 12 ++ m.extra := rfl
  rw [fact?, split, List.find?_append, none, Option.none_or]

/-! ### Attributes

What an attribute says is null if it is unknown, and of two sides the right one's if it is
known there. -/

section

variable {α : Type} {g : α → Value} {key : String}

theorem attribute_or (stated : ∀ x, (g x).isStated = true)
    (kept : ∀ x, handedOn key (g x) = g x)
    (o p : Option α) :
    some (((p.or o).map g).getD .null) =
      (((some ((p.map g).getD .null)).filter (·.isStated)).or
        (some ((o.map g).getD .null))).map (handedOn key) := by
  have null : handedOn key .null = .null := (handedOn_eq_self_iff key .null).2 (.inr rfl)
  cases p with
  | some x => simp [Option.filter_some, stated, kept]
  | none =>
    have unsaid : (some Value.null).filter (·.isStated) = none := rfl
    cases o <;> simp [unsaid, null, kept]

theorem flag_or (o p : Option Bool) :
    some (Value.ofOptionBool (p.or o)) =
      (((some (Value.ofOptionBool p)).filter (·.isStated)).or
        (some (Value.ofOptionBool o))).map (handedOn key) := by
  simp only [Value.ofOptionBool_eq_getD]
  exact attribute_or (fun _ => rfl) (fun _ => (handedOn_eq_self_iff _ _).2 (.inr rfl)) o p

theorem word_or (o p : Option String) :
    some (Value.ofOption (p.or o)) =
      (((some (Value.ofOption p)).filter (·.isStated)).or
        (some (Value.ofOption o))).map (handedOn key) := by
  simp only [Value.ofOption_eq_getD]
  exact attribute_or (fun _ => rfl) (fun _ => (handedOn_eq_self_iff _ _).2 (.inr rfl)) o p

end

theorem areData_texts (ss : List String) : Value.areData (ss.map .text) = true := by
  induction ss with
  | nil => rfl
  | cons s ss ih => simp [Value.areData, Value.isData, ih]

theorem default_fact (a b : FieldMeta) :
    some (a.merge b).default =
      (((some b.default).filter (·.isStated)).or (some a.default)).map
        (handedOn "default") := by
  rw [default_merge]
  cases h : b.default.isStated <;> simp [Option.filter_some, h, handedOn]

/-- Of a fact it is told by its value whether it is stated. -/
theorem filter_stated_snd (o : Option (String × Value)) :
    (o.filter (·.2.isStated)).map (·.2) = (o.map (·.2)).filter (·.isStated) := by
  cases o with
  | none => rfl
  | some e => cases h : e.2.isStated <;> simp [h, Option.filter_some]

/-- The law of a merge for every key of a field: what the right side says of it if that is
stated, and else what the left side says, handed on. -/
theorem fact?_merge {a b : FieldMeta} (hb : b.IsKeyed) (key : String) :
    (a.merge b).fact? key = (a.chosen? b key).map (handedOn key) := by
  by_cases h : key ∈ known
  · simp only [known, List.mem_cons, List.not_mem_nil, or_false] at h
    rcases h with rfl | rfl | rfl | rfl | rfl | rfl | rfl | rfl | rfl | rfl | rfl | rfl
    · exact flag_or a.nullable b.nullable
    · exact default_fact a b
    · refine attribute_or (fun _ => rfl) (fun cs => ?_) a.checks b.checks
      exact (handedOn_eq_self_iff _ _).2 (.inr (areData_texts cs))
    · exact flag_or a.primaryKey b.primaryKey
    · exact flag_or a.foreignKey b.foreignKey
    · exact flag_or a.association b.association
    · exact flag_or a.functionDefault b.functionDefault
    · exact flag_or a.embed b.embed
    · exact word_or a.embedCardinality b.embedCardinality
    · exact word_or a.embedRelated b.embedRelated
    · exact word_or a.embedOnReplace b.embedOnReplace
    · exact attribute_or Definition.Attribute.isStated_toValue (fun _ => rfl) a.columnType
        b.columnType
  · rw [chosen?, fact?_of_notMem h, fact?_of_notMem h, fact?_of_notMem h, find?_merge hb]
    have other : ∀ v : Value, handedOn key v = v.dumped := by
      intro v
      have notType : key ≠ "type" := fun e => h (by rw [e]; decide)
      exact if_neg notType
    rw [← filter_stated_snd, ← Option.map_or, Option.map_map, Option.map_map]
    simp [Function.comp_def, other]

end FieldMeta

namespace Schema

/-! ## The law of a merge -/

/-- One definition of a field takes up another on its left: its type stands, and of the column
and of every fact it is told which side is heard. -/
structure Overrides (f g h : Field) : Prop where
  type : h.type = g.type
  source : h.source = g.source.or f.source
  facts : ∀ key, h.facts.fact? key =
    (f.facts.chosen? g.facts key).map (FieldMeta.handedOn key)
  unchanged : ∀ key v, f.facts.chosen? g.facts key = some v →
    (h.facts.fact? key = some v ↔ key = "type" ∨ v.isData = true)

/-- The fields that a key or an index of `m` holds where a side had `held`: under each name
the definition of `m`, or the one that was held if `m` has no field of the name. -/
def TakenUp (m : Schema) (held now : List Field) : Prop :=
  List.Forall₂ (fun f g => g.name = f.name ∧ g = (m.field? f.name).getD f) held now

/-- What is found at each point of a merge `m` of `a` and `b`. -/
structure Unites (a b m : Schema) : Prop where
  source : m.source = a.source
  names : m.fieldNames = a.fieldNames ++ b.fieldNames.filter (· ∉ a.fieldNames)
  both : ∀ n f g, a.field? n = some f → b.field? n = some g →
    ∃ h, m.field? n = some h ∧ Overrides f g h
  left : ∀ n f, a.field? n = some f → b.field? n = none → m.field? n = some f
  right : ∀ n g, a.field? n = none → b.field? n = some g → m.field? n = some g
  /-- Over each field there is at most one foreign key, the last one of the right side that
  has one. -/
  foreignKeys : ∀ n, m.foreignKeys.filter (·.field == n) =
    ((b.foreignKeys.reverse.find? (·.field == n)).or
      (a.foreignKeys.reverse.find? (·.field == n))).toList
  key : Option.Rel (fun k l => TakenUp m k.fields l.fields) (b.primaryKey.or a.primaryKey)
    m.primaryKey
  keyNames : m.primaryKey.map (·.fieldNames) =
    (b.primaryKey.map (·.fieldNames)).or (a.primaryKey.map (·.fieldNames))
  indices : List.Forall₂
    (fun i j => { j with fields := [] } = { i with fields := ([] : List Field) } ∧
      TakenUp m i.fields j.fields)
    (a.indices ++ b.indices) m.indices

theorem takenUp_map_resolve (m : Schema) (held : List Field) :
    TakenUp m held (held.map (resolve m.fields)) := by
  simpa [TakenUp, List.forall₂_map_right_iff, List.forall₂_same] using
    fun f _ => ⟨resolve_name m.fields f, rfl⟩

theorem overrides_merge {f g : Field} (hg : g.facts.IsKeyed) : Overrides f g (f.merge g) where
  type := rfl
  source := rfl
  facts := FieldMeta.fact?_merge hg
  unchanged key v chosen := by
    have found := FieldMeta.fact?_merge (a := f.facts) hg key
    rw [chosen, Option.map_some] at found
    rw [Field.merge, found, Option.some.injEq, FieldMeta.handedOn_eq_self_iff]

theorem foreignKeys_merge (a b : Schema) (n : String) :
    (a.merge b).foreignKeys.filter (·.field == n) =
      ((b.foreignKeys.reverse.find? (·.field == n)).or
        (a.foreignKeys.reverse.find? (·.field == n))).toList := by
  rw [merge, filter_eq_find? ForeignKey.field (nodup_lastByKey _ _), find?_lastByKey,
    List.reverse_append, List.find?_append]

theorem field?_merge {a b : Schema} (ha : a.fieldNames.Nodup) (hb : b.fieldNames.Nodup)
    (n : String) :
      (a.merge b).field? n = Option.merge Field.merge (a.field? n) (b.field? n) :=
  find?_mergeFields ha hb n

theorem unites_merge {a b : Schema} (ha : a.fieldNames.Nodup) (hb : b.IsKeyed) :
    Unites a b (a.merge b) where
  source := rfl
  names := names_mergeFields ha hb.names
  both n f g hf hg := by
    refine ⟨f.merge g, ?_, overrides_merge (hb.facts g (List.mem_of_find?_eq_some hg))⟩
    rw [field?_merge ha hb.names, hf, hg]
    rfl
  left n f hf hg := by
    rw [field?_merge ha hb.names, hf, hg]
    rfl
  right n g hf hg := by
    rw [field?_merge ha hb.names, hf, hg]
    rfl
  foreignKeys := foreignKeys_merge a b
  key := by
    rw [primaryKey_merge]
    cases b.primaryKey.or a.primaryKey with
    | none => exact .none
    | some k => exact .some (takenUp_map_resolve _ k.fields)
  keyNames := fieldNames_primaryKey_merge a b
  indices := by
    rw [indices_merge, List.forall₂_map_right_iff, List.forall₂_same]
    exact fun i _ => ⟨rfl, takenUp_map_resolve _ i.fields⟩

/-- Two schemas of one table with distinct names are merged, and the outcome has at each point
what the two sides say of it, where values of facts are handed on as plain data. Schemas of
two tables are not merged. -/
theorem merge?_unites {a b : Schema} (ha : a.fieldNames.Nodup) (hb : b.IsKeyed) :
    (a.source = b.source → ∃ m, a.merge? b = .ok m ∧ Unites a b m) ∧
      (a.source ≠ b.source → a.merge? b = .error (.sourceMismatch a.source b.source)) := by
  refine ⟨fun source => ⟨_, merge?_of_source_eq source, unites_merge ha hb⟩, fun source => ?_⟩
  rw [merge?, if_neg (by simpa using source)]

/-- The found table of users and what was said of it by hand, united. -/
theorem merge?_unites_users :
    (∃ m h, foundUsers.merge? annotatedUsers = .ok m ∧
      m.fieldNames = ["id", "team", "email"] ∧
      m.field? "id" = foundUsers.field? "id" ∧ m.field? "team" = some h ∧
      h.type = .named "string" ∧ h.facts.fact? "note" = some (.text "old") ∧
      h.facts.fact? "label" = none ∧ h.facts.fact? "rank" = some (.int 1) ∧
      m.foreignKeys.filter (·.field == "team") = [⟨"team", "teams", some "id", none⟩] ∧
      m.primaryKey.map (·.fieldNames) = some ["email"]) ∧
    foundUsers.merge? (empty "people") = .error (.sourceMismatch "users" "people") := by
  have distinct : foundUsers.fieldNames.Nodup := by decide
  obtain ⟨united, -⟩ := merge?_unites (b := annotatedUsers) distinct (by decide)
  obtain ⟨-, refused⟩ := merge?_unites (b := empty "people") distinct (by decide)
  obtain ⟨m, merged, law⟩ := united rfl
  obtain ⟨h, found, overrides⟩ := law.both "team" _ _ rfl rfl
  refine ⟨⟨m, h, merged, law.names, law.left _ _ rfl rfl, found, overrides.type, ?_, ?_, ?_,
    law.foreignKeys _, law.keyNames⟩, refused (by decide)⟩
  · exact overrides.facts "note"
  · exact overrides.facts "label"
  · exact overrides.facts "rank"

/-- A field with a default that is a type. -/
def typedTags : Schema where
  source := "posts"
  fields := [{
    name := "tags", type := .named "string"
    facts := { default := .type (.array (.named "integer")) } }]

/-- The same field, without a default. -/
def bareTags : Schema where
  source := "posts"
  fields := [{ name := "tags", type := .named "string" }]

/-- Not every value that the right side states is the one that the merge has. -/
theorem not_unchanged_typedTags :
    bareTags.source = typedTags.source ∧ bareTags.IsKeyed ∧ typedTags.IsKeyed ∧
      ∃ m g h v w, bareTags.merge? typedTags = .ok m ∧ typedTags.field? "tags" = some g ∧
        m.field? "tags" = some h ∧ g.facts.fact? "default" = some v ∧ v.isStated = true ∧
        h.facts.fact? "default" = some w ∧ w.same v = false ∧ m.same typedTags = false :=
  ⟨rfl, by decide, by decide, _, _, _, _, _, rfl, rfl, rfl, rfl, rfl, rfl, by cbv, by cbv⟩

end Schema

end Schemata
