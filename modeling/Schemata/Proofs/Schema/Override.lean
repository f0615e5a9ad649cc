/-
What a definition overrides.

A definition is merged to the right of what the database says, and is meant to override what
its author has written and nothing else. That rests on each attribute of a field having a
value that stands for "not written": it must come out of the reading of an entry
(`value_of_field`) and must lose against every value of the left side (`value_merge`). For all
attributes but one this value is null. A type has none: where an entry writes no type, the
form of the field implies one, and the implied type wins like a written one. The default of
the left side is taken apart when it is taken over, so that it is the same only if it was
plain data.

`unwritten_kept_iff` puts this together: which attributes that an entry does not write are
kept, and what the other ones become.
-/
import Schemata.Proofs.Schema.Associative
import Schemata.Proofs.Value.Entries

namespace Schemata

/-! ## Plain data -/

namespace Value

mutual

/-- The value holds no type and no record. -/
def isData : Value → Bool
  | .type _ => false
  | .record _ _ => false
  | .list xs => areData xs
  | .tuple xs => areData xs
  | .set xs => areData xs
  | .dict es => entriesAreData es
  | _ => true

/-- No item holds a type or a record. -/
def areData : List Value → Bool
  | [] => true
  | x :: xs => isData x && areData xs

/-- No value of a mapping holds a type or a record. -/
def entriesAreData : List (Value × Value) → Bool
  | [] => true
  | (_, v) :: es => isData v && entriesAreData es

end

mutual

/-- Taking a value apart leaves it as it is exactly if it is plain data. -/
theorem dumped_eq_self_iff : ∀ v : Value, v.dumped = v ↔ v.isData = true
  | .null | .bool _ | .int _ | .float _ | .nan _ | .text _ | .generated _ | .action _
    | .dialect _
  | .date _ | .moment _ | .bytes _ | .loop _ => by simp [dumped, isData]
  | .type t => by cases t <;> simp [dumped, FieldType.dumped, isData]
  | .record _ _ => by simp [dumped, isData]
  | .list xs => by simp [dumped, isData, dumpedItems_eq_self_iff xs]
  | .tuple xs => by simp [dumped, isData, dumpedItems_eq_self_iff xs]
  | .set xs => by simp [dumped, isData, dumpedItems_eq_self_iff xs]
  | .dict es => by simp [dumped, isData, dumpedEntries_eq_self_iff es]

theorem dumpedItems_eq_self_iff : ∀ xs : List Value, dumpedItems xs = xs ↔ areData xs = true
  | [] => by simp [dumpedItems, areData]
  | x :: xs => by
    simp [dumpedItems, areData, dumped_eq_self_iff x, dumpedItems_eq_self_iff xs]

theorem dumpedEntries_eq_self_iff : ∀ es : List (Value × Value),
    dumpedEntries es = es ↔ entriesAreData es = true
  | [] => by simp [dumpedEntries, entriesAreData]
  | (k, v) :: es => by
    simp [dumpedEntries, entriesAreData, dumped_eq_self_iff v, dumpedEntries_eq_self_iff es]

end

/-- A key is missing exactly if no entry answers to it. -/
theorem get?_eq_none_iff {es : List (Value × Value)} {key : String} :
    get? es key = none ↔ ∀ e ∈ es, e.1.word? ≠ some key := by
  induction es with
  | nil => simp
  | cons e es ih =>
    rw [get?_cons, List.forall_mem_cons]
    by_cases h : e.1.word? = some key
    · simp [h]
    · simp [h, ih]

end Value

/-! ## Facts that are read -/

namespace FieldMeta

/-- The facts are what the entries say of them, place by place. -/
structure ReadFrom (m : FieldMeta) (es : List (Value × Value)) : Prop where
  nullable : Value.optionalAt Value.bool? es "nullable" = some m.nullable
  default : Value.getD es "default" = m.default
  checks : Value.optionalAt Value.texts? es "check_constraints" = some m.checks
  primaryKey : Value.optionalAt Value.bool? es "primary_key" = some m.primaryKey
  foreignKey : Value.optionalAt Value.bool? es "foreign_key" = some m.foreignKey
  functionDefault :
    Value.optionalAt Value.bool? es "function_default" = some m.functionDefault

theorem readFrom_of_ofEntries? {es : List (Value × Value)} {m : FieldMeta}
    (read : ofEntries? es = some m) : m.ReadFrom es := by
  -- one step for each fact, in the order in which they are read
  obtain ⟨_, -, read⟩ := Option.bind_eq_some_iff.1 read
  obtain ⟨_, nullable, read⟩ := Option.bind_eq_some_iff.1 read
  obtain ⟨_, checks, read⟩ := Option.bind_eq_some_iff.1 read
  obtain ⟨_, primaryKey, read⟩ := Option.bind_eq_some_iff.1 read
  obtain ⟨_, foreignKey, read⟩ := Option.bind_eq_some_iff.1 read
  obtain ⟨_, -, read⟩ := Option.bind_eq_some_iff.1 read
  obtain ⟨_, functionDefault, read⟩ := Option.bind_eq_some_iff.1 read
  obtain ⟨_, -, read⟩ := Option.bind_eq_some_iff.1 read
  obtain ⟨_, -, read⟩ := Option.bind_eq_some_iff.1 read
  obtain ⟨_, -, read⟩ := Option.bind_eq_some_iff.1 read
  obtain ⟨_, -, read⟩ := Option.bind_eq_some_iff.1 read
  obtain ⟨_, -, read⟩ := Option.bind_eq_some_iff.1 read
  cases read
  exact { nullable, default := rfl, checks, primaryKey, foreignKey, functionDefault }

end FieldMeta

/-! ## Attributes -/

namespace Definition

open Value (get? getD)

/-- An attribute of a field that an entry of a definition writes under its own name. -/
inductive Attribute where
  | type
  | source
  | nullable
  | default
  | checks
  | functionDefault
deriving DecidableEq

namespace Attribute

/-- The key that an attribute is written under. -/
def key : Attribute → String
  | .type => "type"
  | .source => "source"
  | .nullable => "nullable"
  | .default => "default"
  | .checks => "check_constraints"
  | .functionDefault => "function_default"

/-- What a field says of an attribute; null if it says nothing. -/
def value (f : Field) : Attribute → Value
  | .type => f.type.toValue
  | .source => .ofOption f.source
  | .nullable => .ofOptionBool f.facts.nullable
  | .default => f.facts.default
  | .checks =>
    match f.facts.checks with
    | none => .null
    | some cs => .ofTexts cs
  | .functionDefault => .ofOptionBool f.facts.functionDefault

/-- A value as a merge hands it on: a default is taken apart. -/
def handedOn (v : Value) : Attribute → Value
  | .default => v.dumped
  | _ => v

/-- What a field says of an attribute that its entry does not write. -/
def implied : Attribute → Value
  | .type => .text "string"
  | _ => .null

/-- The attribute of a field outlives a merge with an entry that does not write it. -/
def Survives (f : Field) : Attribute → Prop
  | .type => f.type = .named "string"
  | .default => f.facts.default.isData = true
  | _ => True

theorem toValue_injective {t u : FieldType} (h : t.toValue = u.toValue) : t = u := by
  cases t <;> cases u <;> simp_all [FieldType.toValue]

theorem isStated_toValue (t : FieldType) : t.toValue.isStated = true := by
  cases t <;> rfl

/-- A merge takes an attribute from the right side if that one says something of it, and else
from the left side. -/
theorem value_merge (f g : Field) (a : Attribute) :
    a.value (f.merge g) =
      if (a.value g).isStated then a.handedOn (a.value g) else a.handedOn (a.value f) := by
  cases a with
  | type =>
    have stated : (value g .type).isStated = true := isStated_toValue g.type
    rw [if_pos stated]
    rfl
  | default => exact FieldMeta.default_merge f.facts g.facts
  | source =>
    cases h : g.source <;>
      simp [value, handedOn, Field.merge, h, Value.ofOption, Value.isStated]
  | nullable =>
    cases h : g.facts.nullable <;>
      simp [value, handedOn, Field.merge, FieldMeta.merge, h, Value.ofOptionBool,
        Value.isStated]
  | checks =>
    cases h : g.facts.checks <;>
      simp [value, handedOn, Field.merge, FieldMeta.merge, h, Value.ofTexts, Value.isStated]
  | functionDefault =>
    cases h : g.facts.functionDefault <;>
      simp [value, handedOn, Field.merge, FieldMeta.merge, h, Value.ofOptionBool,
        Value.isStated]

/-- What an entry does not write is kept exactly if the attribute survives. -/
theorem value_merge_eq_iff {f g : Field} {a : Attribute} (unwritten : a.value g = a.implied) :
    a.value (f.merge g) = a.value f ↔ a.Survives f := by
  rw [value_merge, unwritten]
  cases a with
  | type =>
    have same : Value.text "string" = f.type.toValue ↔ f.type = .named "string" :=
      ⟨fun h => (toValue_injective (t := .named "string") h).symm, fun h => by rw [h]; rfl⟩
    simpa [implied, handedOn, value, Survives, Value.isStated] using same
  | default => simpa [implied, handedOn, value, Survives, Value.isStated] using
      Value.dumped_eq_self_iff f.facts.default
  | source | nullable | checks | functionDefault =>
    simp [implied, handedOn, Survives, Value.isStated]

end Attribute

/-! ## Reading an entry -/

/-- The form of a field that is neither embedded nor an association. -/
theorem form_plain {source name : Value} {es : List (Value × Value)}
    (noEmbed : get? es "embed" = none) (noAssociation : get? es "association" = none) :
    form source name es = .ok ([], .named "string") := by
  rw [form, getD, noEmbed]
  simp [getD, noAssociation, Value.isTruthy]

/-- The entry of a field that belongs to the primary key. -/
def keyEntry (keys : List Value) (name : Value) : List (Value × Value) :=
  if keys.any fun k => k.same name then [(.text "primary_key", .bool true)] else []

/-- A field is made of the facts that its entry states, of those that follow from its form,
and of its place in the primary key. -/
theorem facts_of_field {source v : Value} {keys : List Value} {f : Field}
    (read : field source keys v = .ok f) : ∃ es formed implied, v = .dict es ∧
      form source (getD es "name") es = .ok (formed, implied) ∧
      FieldMeta.ofEntries? (stated es ++ formed ++ keyEntry keys (getD es "name")) =
        some f.facts ∧
      (getD es "name").text? = some f.name ∧
      Value.optional Value.text? (getD es "source") = some f.source ∧
      (get? es "type" = none → f.type = implied) := by
  obtain ⟨es, mapped, read⟩ := bind_eq_ok.1 read
  have entries : v = .dict es := by
    cases v with
    | dict _ => cases mapped; rfl
    | _ => cases mapped
  dsimp only at read
  split at read
  · obtain ⟨_, -, read⟩ := bind_eq_ok.1 read
    cases read
  · obtain ⟨⟨formed, implied⟩, form, read⟩ := bind_eq_ok.1 read
    refine ⟨es, formed, implied, entries, form, ?_⟩
    -- the type is implied or written
    dsimp only at read
    split at read
    all_goals
      rename_i written
      obtain ⟨type, typed, read⟩ := bind_eq_ok.1 read
      rw [Value.require_eq_ok] at read
      obtain ⟨facts, known, read⟩ := Option.bind_eq_some_iff.1 read
      obtain ⟨name, named, read⟩ := Option.bind_eq_some_iff.1 read
      obtain ⟨column, sourced, made⟩ := Option.bind_eq_some_iff.1 read
      obtain rfl := Option.some.inj made
      refine ⟨known, named, sourced, ?_⟩
    · exact fun _ => (Except.ok.inj typed).symm
    · intro missing
      exact absurd (by rw [getD, missing]; rfl) written

/-- A field that is neither embedded nor an association is made of what its entry states, and
of its place in the primary key. -/
theorem field_plain {source : Value} {keys : List Value}
    {es : List (Value × Value)} {f : Field}
    (noEmbed : get? es "embed" = none) (noAssociation : get? es "association" = none)
    (read : field source keys (.dict es) = .ok f) :
    (getD es "name").text? = some f.name ∧
      Value.optional Value.text? (getD es "source") = some f.source ∧
      (get? es "type" = none → f.type = .named "string") ∧
      FieldMeta.ofEntries? (stated es ++ keyEntry keys (getD es "name")) =
        some f.facts := by
  obtain ⟨_, formed, implied, entries, form, known, named, sourced, typed⟩ :=
    facts_of_field read
  cases entries
  rw [form_plain noEmbed noAssociation] at form
  cases form
  rw [List.append_nil] at known
  exact ⟨named, sourced, typed, known⟩

/-- A fact whose key is missing stays unknown. -/
theorem value_of_facts {facts : List (Value × Value)} {f : Field}
    (read : FieldMeta.ofEntries? facts = some f.facts) {a : Attribute} (type : a ≠ .type)
    (source : a ≠ .source) (missing : get? facts a.key = none) : a.value f = .null := by
  have parts := FieldMeta.readFrom_of_ofEntries? read
  cases a with
  | type => contradiction
  | source => contradiction
  | default =>
    rw [Attribute.value, ← parts.default, getD,
      show get? facts "default" = none from missing]
    rfl
  | nullable =>
    have unknown := parts.nullable
    rw [Value.optionalAt, show get? facts "nullable" = none from missing] at unknown
    rw [Attribute.value, ← Option.some.inj unknown]
    rfl
  | checks =>
    have unknown := parts.checks
    rw [Value.optionalAt, show get? facts "check_constraints" = none from missing] at unknown
    rw [Attribute.value, ← Option.some.inj unknown]
  | functionDefault =>
    have unknown := parts.functionDefault
    rw [Value.optionalAt, show get? facts "function_default" = none from missing] at unknown
    rw [Attribute.value, ← Option.some.inj unknown]
    rfl

/-- What an entry states holds no key that the entry does not have. -/
theorem get?_stated {es : List (Value × Value)} {keys : List Value} {name : Value}
    {key : String} (missing : get? es key = none) (other : key ≠ "primary_key") :
    get? (stated es ++ keyEntry keys name) key = none := by
  rw [Value.get?_eq_none_iff]
  intro e he
  rcases List.mem_append.1 he with he | he
  · obtain ⟨k, _, hk⟩ := List.mem_filterMap.1 he
    obtain ⟨v, hv, rfl⟩ := Option.map_eq_some_iff.1 hk
    intro same
    obtain rfl : k = key := Option.some.inj same
    rw [missing] at hv
    cases hv
  · unfold keyEntry at he
    split at he
    · rw [List.mem_singleton.1 he]
      exact fun same => other (Option.some.inj same).symm
    · cases he

/-- What an entry does not write is unknown, the type apart. -/
theorem value_of_field {source : Value} {keys : List Value}
    {es : List (Value × Value)} {f : Field}
    (noEmbed : get? es "embed" = none) (noAssociation : get? es "association" = none)
    (read : field source keys (.dict es) = .ok f) {a : Attribute}
    (unwritten : get? es a.key = none) : a.value f = a.implied := by
  obtain ⟨-, sourced, typed, known⟩ := field_plain noEmbed noAssociation read
  have missing : get? (stated es ++ keyEntry keys (getD es "name")) a.key = none :=
    get?_stated unwritten (by cases a <;> decide)
  cases a with
  | type => rw [Attribute.value, typed unwritten]; rfl
  | source =>
    rw [getD, show get? es "source" = none from unwritten] at sourced
    rw [Attribute.value, ← Option.some.inj sourced]
    rfl
  | nullable | default | checks | functionDefault =>
    exact value_of_facts known (by decide) (by decide) missing

/-! ## Reading a definition -/

/-- The mapping has these entries for the field of this name. -/
def Describes (definition : Value) (name : String) (es : List (Value × Value)) : Prop :=
  ∃ ds items, definition = .dict ds ∧ itemsOf (getD ds "fields") = .ok items ∧
    .dict es ∈ items ∧ (getD es "name").text? = some name

theorem exists_of_fieldsOf {source : Value} {keys items : List Value} {fields : List Field}
    (read : fieldsOf source keys items = .ok fields) {v : Value} (hv : v ∈ items) :
    ∃ f ∈ fields, field source keys v = .ok f := by
  induction items generalizing fields with
  | nil => cases hv
  | cons w items ih =>
    obtain ⟨g, first, read⟩ := bind_eq_ok.1 read
    obtain ⟨gs, rest, read⟩ := bind_eq_ok.1 read
    cases read
    rcases List.mem_cons.1 hv with rfl | hv
    · exact ⟨g, .head _, first⟩
    · obtain ⟨f, hf, made⟩ := ih rest hv
      exact ⟨f, .tail _ hf, made⟩

/-- A schema that is read has the fields of a list, read one by one, and the key that is read
over them. -/
theorem parts_of_read {given : Option String} {definition : Value} {d : Schema}
    (read : Definition.read given definition = .ok d) : ∃ source keys ds items,
      definition = .dict ds ∧ itemsOf (getD ds "fields") = .ok items ∧
      fieldsOf source keys items = .ok d.fields ∧
      primaryKey source d.fields keys = .ok d.primaryKey := by
  obtain ⟨source, -, read⟩ := bind_eq_ok.1 read
  obtain ⟨ds, mapped, read⟩ := bind_eq_ok.1 read
  have entries : definition = .dict ds := by
    cases definition with
    | dict _ => cases mapped; rfl
    | _ => cases mapped
  obtain ⟨keys, -, read⟩ := bind_eq_ok.1 read
  obtain ⟨items, listed, read⟩ := bind_eq_ok.1 read
  obtain ⟨fields, made, read⟩ := bind_eq_ok.1 read
  refine ⟨source, keys, ds, items, entries, listed, ?_⟩
  split at read
  · cases read
  · obtain ⟨key, isKey, read⟩ := bind_eq_ok.1 read
    obtain ⟨_, -, read⟩ := bind_eq_ok.1 read
    obtain ⟨_, -, read⟩ := bind_eq_ok.1 read
    obtain ⟨_, -, read⟩ := bind_eq_ok.1 read
    obtain ⟨_, -, read⟩ := bind_eq_ok.1 read
    split at read
    · cases read
      exact ⟨made, isKey⟩
    · cases read

/-- The field that is made of an entry says nothing of what the entry does not write, the type
apart. -/
theorem exists_field_of_describes {given : Option String} {definition : Value} {d : Schema}
    (read : Definition.read given definition = .ok d) {name : String}
    {es : List (Value × Value)}
    (entry : Describes definition name es) (noEmbed : get? es "embed" = none)
    (noAssociation : get? es "association" = none) :
    ∃ e, d.field? name = some e ∧
      ∀ a : Attribute, get? es a.key = none → a.value e = a.implied := by
  obtain ⟨ds, items, rfl, listed, mem, named⟩ := entry
  obtain ⟨source, keys, _, _, own, listed', made, -⟩ := parts_of_read read
  cases own
  cases listed.symm.trans listed'
  obtain ⟨e, he, made⟩ := exists_of_fieldsOf made mem
  have own : e.name = name :=
    Option.some.inj ((field_plain noEmbed noAssociation made).1.symm.trans named)
  have found := (mem_iff_find? Field.name (read_wellFormed read).distinct).1 he
  rw [own] at found
  exact ⟨e, found, fun a unwritten => value_of_field noEmbed noAssociation made unwritten⟩

/-- A schema with distinct names and a definition of the same table are merged, and in a field
of both that the definition neither embeds nor makes an association, what the definition
states has won. Of what its entry does not write everything is kept but the type, which
becomes that of a text, and a default that is no plain data, which is taken apart. -/
theorem unwritten_kept_iff {s d : Schema} {given : Option String} {definition : Value}
    {name : String} {es : List (Value × Value)} {f : Field} (distinct : s.fieldNames.Nodup)
    (read : Definition.read given definition = .ok d) (source : s.source = d.source)
    (entry : Describes definition name es) (noEmbed : get? es "embed" = none)
    (noAssociation : get? es "association" = none) (present : s.field? name = some f) :
    ∃ m e g, s.merge? d = .ok m ∧ d.field? name = some e ∧ m.field? name = some g ∧
      (∀ a : Attribute, (a.value e).isStated → a.value g = a.handedOn (a.value e)) ∧
      ∀ a : Attribute, get? es a.key = none →
        (a = .type → a.value g = .text "string") ∧
        (a ≠ .type → a.value g = a.handedOn (a.value f)) ∧
        (a.value g = a.value f ↔ a.Survives f) := by
  obtain ⟨e, found, implied⟩ := exists_field_of_describes read entry noEmbed noAssociation
  refine ⟨s.merge d, e, f.merge e, Schema.merge?_of_source_eq source, found, ?_, ?_, ?_⟩
  · have united := Schema.find?_mergeFields distinct (read_wellFormed read).distinct name
    rw [← Schema.field?, ← Schema.field?, present, found] at united
    exact united
  · intro a stated
    rw [Attribute.value_merge, if_pos stated]
  · intro a unwritten
    have unsaid := implied a unwritten
    refine ⟨fun type => ?_, fun other => ?_, Attribute.value_merge_eq_iff unsaid⟩
    · subst type
      rw [Attribute.value_merge, unsaid]
      rfl
    · rw [Attribute.value_merge, unsaid]
      cases a with
      | type => contradiction
      | source | nullable | default | checks | functionDefault => rfl

/-- A table of people as it was found, with an age that has a default. -/
def foundPeople : Schema where
  source := "people"
  fields := [
    { name := "age", type := .named "integer", source := some "age_in_years",
      facts := { nullable := some true, default := .int 18, checks := some ["age > 0"] } }]

/-- The entry by which the age becomes mandatory. -/
def ageEntry : List (Value × Value) :=
  [(.text "name", .text "age"), (.text "nullable", .bool false)]

/-- The definition that holds that entry alone. -/
def peopleDefinition : Value := .dict [
  (.text "source", .text "people"), (.text "fields", .list [.dict ageEntry])]

/-- The schema of that definition. -/
def peopleOverride : Schema where
  source := "people"
  fields := [{ name := "age", type := .named "string", facts := { nullable := some false } }]

theorem describes_peopleDefinition : Describes peopleDefinition "age" ageEntry :=
  ⟨_, _, rfl, by cbv, .head _, by cbv⟩

/-- The age is mandatory and keeps its default, but is no number any more. -/
theorem unwritten_kept_people :
    Definition.read none peopleDefinition = .ok peopleOverride ∧
      ∃ m g, foundPeople.merge? peopleOverride = .ok m ∧ m.field? "age" = some g ∧
        Attribute.nullable.value g = .bool false ∧ Attribute.default.value g = .int 18 ∧
        Attribute.source.value g = .text "age_in_years" ∧
        Attribute.type.value g = .text "string" := by
  have read : Definition.read none peopleDefinition = .ok peopleOverride := by cbv
  have missing : ∀ key ∈ ["embed", "association", "type", "default", "source"],
      get? ageEntry key = none := by decide +kernel
  obtain ⟨m, e, g, merged, found, united, stated, kept⟩ :=
    unwritten_kept_iff (s := foundPeople) (by decide) read rfl describes_peopleDefinition
      (missing _ (by decide)) (missing _ (by decide)) rfl
  obtain rfl := Option.some.inj found
  refine ⟨read, m, g, merged, united, stated .nullable rfl, ?_, ?_, ?_⟩
  · exact (kept .default (missing _ (by decide))).2.1 (by decide)
  · exact (kept .source (missing _ (by decide))).2.1 (by decide)
  · exact (kept .type (missing _ (by decide))).1 rfl

/-- Not everything that an entry does not write is kept. -/
theorem not_kept_type :
    foundPeople.fieldNames.Nodup ∧
      Definition.read none peopleDefinition = .ok peopleOverride ∧
      foundPeople.source = peopleOverride.source ∧ Describes peopleDefinition "age" ageEntry ∧
      get? ageEntry "embed" = none ∧ get? ageEntry "association" = none ∧
      get? ageEntry Attribute.type.key = none ∧
      (foundPeople.field? "age").map (·.type) = some (.named "integer") ∧
      ∃ m, foundPeople.merge? peopleOverride = .ok m ∧
        (m.field? "age").map (·.type) = some (.named "string") :=
  ⟨by decide, by cbv, rfl, describes_peopleDefinition, by cbv, by cbv, by cbv, rfl,
    _, rfl, rfl⟩

end Definition

end Schemata
