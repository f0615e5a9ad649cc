/-
Which fields are marked as fields of the primary key.

That a field belongs to the primary key is said twice: by a flag of the field, and by the key.
A table and a definition say the same in both places (`compile_keyAgrees`,
`Definition.read_keyAgrees`). A merge does not keep that. It takes the key from the last side
that has one, as a whole, and the flag of each field from the last side that sets it. So a key
that is replaced leaves its flags behind, and a table without a key takes the flags off the
key that it leaves in place.

A schema that is merged of parts is followed through both rules: its flags are the last words
of its parts on each name, and its key is the last key (`Composed.keyFlag_eq`,
`Composed.key_eq`). The two agree on the whole exactly if, for each name in the key of a part,
the later parts are silent on the name exactly when they have no key (`keyAgrees_composed`).
-/
import Schemata.Proofs.Schema.Flagged

namespace Schemata

/-! ## Definitions -/

namespace Definition

open Value (get? getD)

/-- The names of the fields are given as words, not as bytes. -/
def NamesAreWords (definition : Value) : Prop :=
  ∀ ds items, definition = .dict ds → itemsOf (getD ds "fields") = .ok items →
    ∀ es, .dict es ∈ items → (getD es "name").word?.isSome = true

theorem text?_of_word? {v : Value} {s : String} (h : v.word? = some s) :
    v.text? = some s := by
  cases v with
  | bytes _ => cases h
  | _ => exact h

theorem get?_keyEntry (keys : List Value) (name : Value) :
    get? (keyEntry keys name) "primary_key" =
      if keys.any fun k => k.same name then some (.bool true) else none := by
  unfold keyEntry
  split
  · simp [Value.get?_cons, Value.word?]
  · rfl

/-- A field is marked if its name is among those of the key, and not marked otherwise. -/
theorem primaryKey_of_field {source v : Value} {keys : List Value} {f : Field}
    (read : field source keys v = .ok f) : ∃ es, v = .dict es ∧
      (getD es "name").text? = some f.name ∧
      f.facts.primaryKey =
        if keys.any fun k => k.same (getD es "name") then some true else none := by
  obtain ⟨es, formed, implied, entries, form, known, named, -, -⟩ := facts_of_field read
  refine ⟨es, entries, named, ?_⟩
  have silent : get? (stated es ++ formed) "primary_key" = none := by
    rw [Value.get?_eq_none_iff]
    intro e he
    have word : "primary_key" ∈ flagWords := by decide
    rcases List.mem_append.1 he with he | he
    · exact word?_of_stated e he _ word
    · exact word?_of_form form e he _ word
  have flag := (FieldMeta.readFrom_of_ofEntries? known).primaryKey
  rw [Value.optionalAt, Value.get?_append, silent, Option.none_or, get?_keyEntry] at flag
  by_cases among : keys.any fun k => k.same (getD es "name")
  · rw [if_pos among] at flag ⊢
    exact (Option.some.inj flag).symm
  · rw [if_neg among] at flag ⊢
    exact (Option.some.inj flag).symm

/-- Names all of which are found are the names of what is found. -/
theorem words_of_fieldsNamed {fields found : List Field} {vs : List Value}
    (h : fieldsNamed fields vs = .ok (found, [])) :
    vs.map Value.word? = found.map fun f => some f.name := by
  induction vs generalizing found with
  | nil =>
    cases h
    rfl
  | cons v vs ih =>
    obtain ⟨o, own, h⟩ := bind_eq_ok.1 h
    obtain ⟨⟨fs, missing⟩, rest, h⟩ := bind_eq_ok.1 h
    cases o with
    | none => cases h
    | some g =>
      cases h
      unfold fieldNamed at own
      split at own
      · obtain ⟨n, word, looked⟩ := Option.bind_eq_some_iff.1 (Except.ok.inj own)
        have name : g.name = n := by simpa using List.find?_some looked
        rw [List.map_cons, List.map_cons, word, name, ih rest]
      · cases own

/-- The key that is read has the names that were given for it. -/
theorem mem_keyNames_of_primaryKey {source : Value} {fields : List Field} {names : List Value}
    {o : Option Schema.PrimaryKey} (h : primaryKey source fields names = .ok o) (n : String) :
    n ∈ (o.map (·.fieldNames)).getD [] ↔ ∃ v ∈ names, v.word? = some n := by
  rcases primaryKey_cases h with ⟨rfl, rfl⟩ | ⟨-, found, named, rfl⟩
  · simp
  · have words := words_of_fieldsNamed named
    have mem : some n ∈ names.map Value.word? ↔ some n ∈ found.map fun f => some f.name := by
      rw [words]
    simpa [Schema.PrimaryKey.fieldNames] using mem.symm

end Definition

namespace Schema

/-! ## Flags and keys -/

/-- What a schema says of the field of a name: that it belongs to the primary key, that it
does not, or nothing. -/
def keyFlag (s : Schema) (n : String) : Option Bool :=
  (s.field? n).bind (·.facts.primaryKey)

/-- The names of the primary key. -/
def keyNames (s : Schema) : List String :=
  (s.primaryKey.map (·.fieldNames)).getD []

/-- The fields that are marked are those of the primary key. -/
def KeyAgrees (s : Schema) : Prop :=
  ∀ f ∈ s.fields, f.isPrimaryKey = s.isPrimaryKeyField f.name

theorem isPrimaryKeyField_iff {s : Schema} {n : String} :
    s.isPrimaryKeyField n = true ↔ n ∈ s.keyNames := by
  unfold isPrimaryKeyField keyNames
  cases s.primaryKey <;> simp

theorem mem_keyNames {s : Schema} {n : String} :
    n ∈ s.keyNames ↔ ∃ names, s.primaryKey.map (·.fieldNames) = some names ∧ n ∈ names := by
  unfold keyNames
  cases s.primaryKey <;> simp

theorem keyFlag_of_mem {s : Schema} (h : s.WellFormed) {f : Field} (hf : f ∈ s.fields) :
    s.keyFlag f.name = f.facts.primaryKey := by
  have found := (mem_iff_find? Field.name h.distinct).1 hf
  rw [keyFlag, field?, found, Option.bind_some]

/-- The fields of the key of a well-formed schema are fields of the schema. -/
theorem WellFormed.exists_of_mem_keyNames {s : Schema} (h : s.WellFormed) {n : String}
    (hn : n ∈ s.keyNames) : ∃ f ∈ s.fields, f.name = n := by
  obtain ⟨names, keyed, hn⟩ := mem_keyNames.1 hn
  obtain ⟨k, hk, rfl⟩ := Option.map_eq_some_iff.1 keyed
  obtain ⟨f, hf, named⟩ := List.mem_map.1 hn
  exact ⟨f, h.key k hk f hf, named⟩

/-- Agreement by names: those that are marked are those of the key. -/
theorem WellFormed.keyAgrees_iff {s : Schema} (h : s.WellFormed) :
    s.KeyAgrees ↔ ∀ n, s.keyFlag n = some true ↔ n ∈ s.keyNames := by
  have each : ∀ f ∈ s.fields, f.isPrimaryKey = s.isPrimaryKeyField f.name ↔
      (s.keyFlag f.name = some true ↔ f.name ∈ s.keyNames) := by
    intro f hf
    rw [Bool.eq_iff_iff, isPrimaryKeyField_iff, keyFlag_of_mem h hf,
      Field.isPrimaryKey, beq_iff_eq]
  constructor
  · intro agrees n
    constructor
    · intro marked
      obtain ⟨f, found, -⟩ := Option.bind_eq_some_iff.1 marked
      obtain rfl := field?_name found
      have hf := List.mem_of_find?_eq_some found
      exact ((each f hf).1 (agrees f hf)).1 marked
    · intro keyed
      obtain ⟨f, hf, rfl⟩ := h.exists_of_mem_keyNames keyed
      exact ((each f hf).1 (agrees f hf)).2 keyed
  · intro byName f hf
    exact (each f hf).2 (byName f.name)

/-! ## Tables and definitions -/

/-- The key of a table is over the columns that are marked. -/
theorem compile_keyAgrees (r : TypeMapping.Rules) {t : Table}
    (distinct : t.columnNames.Nodup) :
    (compile r t).KeyAgrees := by
  have names : (compile r t).keyNames = t.primaryKey.map (·.name) := by
    have within : t.primaryKey ⊆ t.columns := fun _ => List.mem_of_mem_filter
    rw [keyNames]
    show ((compileKey _ t.primaryKey).map (·.fieldNames)).getD [] = _
    rw [names_compileKey distinct within]
    split
    · rename_i none
      rw [none, Option.getD_none]
    · rw [Option.getD_some]
  intro f hf
  obtain ⟨c, hc, rfl⟩ := List.mem_map.1 hf
  rw [Bool.eq_iff_iff, isPrimaryKeyField_iff, names]
  have flag : (c.toField r).isPrimaryKey = c.primaryKey := by
    simp [Field.isPrimaryKey, Column.toField]
  rw [flag]
  constructor
  · intro marked
    exact List.mem_map_of_mem (List.mem_filter.2 ⟨hc, marked⟩)
  · intro keyed
    obtain ⟨d, hd, named⟩ := List.mem_map.1 keyed
    obtain ⟨hd, marked⟩ := List.mem_filter.1 hd
    -- the names are distinct, so that the column of the key is this one
    have same : d = c := List.inj_on_of_nodup_map distinct hd hc named
    exact same ▸ marked

end Schema

/-- A definition marks the fields that it names in its key. -/
theorem Definition.read_keyAgrees {given : Option String} {definition : Value} {s : Schema}
    (words : NamesAreWords definition) (read : Definition.read given definition = .ok s) :
    s.KeyAgrees := by
  obtain ⟨source, keys, ds, items, entries, listed, made, keyed⟩ := parts_of_read read
  rw [fieldsOf_eq_mapM] at made
  intro f hf
  obtain ⟨v, hv, own⟩ := mem_of_mapM_ok made hf
  obtain ⟨es, rfl, named, flag⟩ := primaryKey_of_field own
  obtain ⟨n, word⟩ := Option.isSome_iff_exists.1 (words ds items entries listed es hv)
  obtain rfl : n = f.name := Option.some.inj ((text?_of_word? word).symm.trans named)
  rw [Bool.eq_iff_iff, Schema.isPrimaryKeyField_iff, Schema.keyNames,
    mem_keyNames_of_primaryKey keyed, Field.isPrimaryKey, flag]
  have among : (keys.any fun k => k.same (Value.getD es "name")) = true ↔
      ∃ k ∈ keys, k.word? = some f.name := by
    rw [List.any_eq_true]
    simp only [Value.same_iff_word? word]
  rw [← among]
  split <;> simp_all

namespace Schema

/-! ## Merges -/

/-- A flag is that of the right side, if that one sets it. -/
theorem keyFlag_merge {a b : Schema} (ha : a.WellFormed) (hb : b.WellFormed) (n : String) :
    (a.merge b).keyFlag n = (b.keyFlag n).or (a.keyFlag n) := by
  have found : (a.merge b).field? n = Option.merge Field.merge (a.field? n) (b.field? n) :=
    find?_mergeFields ha.distinct hb.distinct n
  rw [keyFlag, keyFlag, keyFlag, found]
  cases a.field? n <;> cases b.field? n <;> simp [Field.merge, FieldMeta.merge]

/-- A schema that is compiled of a table with distinct columns, read from a definition, or
merged of two such schemas, with its parts in the order of the merges. -/
inductive Composed : List Schema → Schema → Prop
  | compiled {tree dialect bare : Value} {t : Table} {s : Schema}
    (built : Table.build tree dialect = .ok t) (distinct : t.columnNames.Nodup)
    (made : ofTable bare t = .ok s) : Composed [s] s
  | defined {given : Option String} {definition : Value} {s : Schema}
    (read : Definition.read given definition = .ok s) : Composed [s] s
  | merged {as bs : List Schema} {a b s : Schema} (left : Composed as a)
    (right : Composed bs b)
    (made : a.merge? b = .ok s) : Composed (as ++ bs) s

section Composition

variable {ps : List Schema} {s : Schema}

theorem Composed.produced (h : Composed ps s) : Produced s := by
  induction h with
  | compiled built distinct made => exact .compiled built distinct made
  | defined read => exact .defined read
  | merged _ _ made left right => exact .merged left right made

theorem Composed.wellFormed (h : Composed ps s) : s.WellFormed :=
  h.produced.wellFormed

theorem Composed.parts_wellFormed (h : Composed ps s) : ∀ p ∈ ps, p.WellFormed := by
  induction h with
  | compiled _ distinct made => simpa using ofTable_wellFormed distinct made
  | defined read => simpa using Definition.read_wellFormed read
  | merged _ _ _ left right => exact fun p hp =>
    (List.mem_append.1 hp).elim (left p) (right p)

/-- The flag under a name is the last one that a part sets. -/
theorem Composed.keyFlag_eq (h : Composed ps s) (n : String) :
    s.keyFlag n = ps.reverse.findSome? (·.keyFlag n) := by
  induction h with
  | compiled | defined => simp
  | merged left right made ihLeft ihRight =>
    rw [eq_merge_of_merge? made, keyFlag_merge left.wellFormed right.wellFormed,
      ihLeft, ihRight, List.reverse_append, List.findSome?_append]

/-- The key is the last one that a part has. -/
theorem Composed.key_eq (h : Composed ps s) :
    s.primaryKey.map (·.fieldNames) =
      ps.reverse.findSome? fun p => p.primaryKey.map (·.fieldNames) := by
  induction h with
  | compiled | defined => simp
  | merged _ _ made ihLeft ihRight =>
    rw [eq_merge_of_merge? made, fieldNames_primaryKey_merge, ihLeft, ihRight,
      List.reverse_append, List.findSome?_append]

end Composition

/-! ## The last of a list -/

section Last

variable {α β : Type} {xs : List α}

/-- There is a marked item after which all are silent. -/
def LastIn (marked silent : α → Prop) (xs : List α) : Prop :=
  ∃ as x bs, xs = as ++ x :: bs ∧ marked x ∧ ∀ b ∈ bs, silent b

/-- What is found from the end is found in an item after which nothing is found. -/
theorem findSome?_reverse_eq_some_iff {f : α → Option β} {y : β} :
    xs.reverse.findSome? f = some y ↔ LastIn (f · = some y) (f · = none) xs := by
  rw [List.findSome?_eq_some_iff]
  constructor
  · rintro ⟨cs, x, ds, split, found, silent⟩
    refine ⟨ds.reverse, x, cs.reverse, ?_, found, by simpa using silent⟩
    simpa using congrArg List.reverse split
  · rintro ⟨as, x, bs, rfl, found, silent⟩
    exact ⟨bs.reverse, x, as.reverse, by simp, found, by simpa using silent⟩

/-- Two places in a list: one is after the other, or they are the same. -/
theorem mem_or_mem_or_eq {as bs cs ds : List α} {x y : α}
    (h : as ++ x :: bs = cs ++ y :: ds) :
    y ∈ bs ∨ x ∈ ds ∨ bs = ds := by
  rcases List.append_eq_append_iff.1 h with ⟨es, -, tail⟩ | ⟨es, -, tail⟩ <;>
    cases es <;> simp_all

variable {marked marked' silent keyless : α → Prop}

theorem lastIn_congr (h : ∀ x ∈ xs, marked x ↔ marked' x) :
    LastIn marked silent xs ↔ LastIn marked' silent xs := by
  constructor
  · rintro ⟨as, x, bs, rfl, hx, quiet⟩
    exact ⟨as, x, bs, rfl, (h x (by simp)).1 hx, quiet⟩
  · rintro ⟨as, x, bs, rfl, hx, quiet⟩
    exact ⟨as, x, bs, rfl, (h x (by simp)).2 hx, quiet⟩

/-- If what is last by one measure is always last by another, then it is so at every place. -/
theorem forall_of_lastIn (h : ∀ x ∈ xs, marked x → ¬ silent x ∧ ¬ keyless x)
    (moves : LastIn marked silent xs → LastIn marked keyless xs) {as bs : List α} {x : α}
    (split : xs = as ++ x :: bs) (hx : marked x) (quiet : ∀ b ∈ bs, silent b) :
    ∀ b ∈ bs, keyless b := by
  obtain ⟨cs, y, ds, split', hy, last⟩ := moves ⟨as, x, bs, split, hx, quiet⟩
  rcases mem_or_mem_or_eq (split.symm.trans split') with after | before | rfl
  · exact absurd (quiet y after) (h y (by simp [split']) hy).1
  · exact absurd (last x before) (h x (by simp [split]) hx).2
  · exact last

/-- The two measures have the same last items exactly if they tell the same at every marked
place. -/
theorem lastIn_iff (h : ∀ x ∈ xs, marked x → ¬ silent x ∧ ¬ keyless x) :
    (LastIn marked silent xs ↔ LastIn marked keyless xs) ↔
    ∀ as x bs, xs = as ++ x :: bs → marked x →
      ((∀ b ∈ bs, silent b) ↔ ∀ b ∈ bs, keyless b) := by
  constructor
  · intro same as x bs split hx
    exact ⟨forall_of_lastIn h same.1 split hx,
      forall_of_lastIn (fun y hy my => (h y hy my).symm) same.2 split hx⟩
  · intro each
    constructor
    · rintro ⟨as, x, bs, split, hx, quiet⟩
      exact ⟨as, x, bs, split, hx, (each as x bs split hx).1 quiet⟩
    · rintro ⟨as, x, bs, split, hx, last⟩
      exact ⟨as, x, bs, split, hx, (each as x bs split hx).2 last⟩

end Last

/-! ## Agreement -/

section Agreement

variable {ps : List Schema} {s : Schema}

/-- What a composed schema marks is in the key of a part, and no later part sets the flag. -/
theorem Composed.marks_iff (h : Composed ps s) (parts : ∀ p ∈ ps, p.KeyAgrees) (n : String) :
    s.keyFlag n = some true ↔ LastIn (n ∈ ·.keyNames) (·.keyFlag n = none) ps := by
  rw [h.keyFlag_eq, findSome?_reverse_eq_some_iff]
  exact lastIn_congr fun p hp => (h.parts_wellFormed p hp).keyAgrees_iff.1 (parts p hp) n

/-- What is in the key of a composed schema is in the key of a part, and no later part has a
key. -/
theorem Composed.mem_keyNames_iff (h : Composed ps s) (n : String) :
    n ∈ s.keyNames ↔ LastIn (n ∈ ·.keyNames) (·.primaryKey = none) ps := by
  rw [mem_keyNames, h.key_eq]
  simp only [findSome?_reverse_eq_some_iff, LastIn, Option.map_eq_none_iff]
  constructor
  · rintro ⟨names, ⟨as, p, bs, split, keyed, last⟩, hn⟩
    exact ⟨as, p, bs, split, mem_keyNames.2 ⟨names, keyed, hn⟩, last⟩
  · rintro ⟨as, p, bs, split, hn, last⟩
    obtain ⟨names, keyed, hn⟩ := mem_keyNames.1 hn
    exact ⟨names, ⟨as, p, bs, split, keyed, last⟩, hn⟩

/-- Flags and key of a composed schema agree if the later parts change both or none of
them. -/
theorem Composed.keyAgrees_iff (h : Composed ps s) (parts : ∀ p ∈ ps, p.KeyAgrees) :
    s.KeyAgrees ↔ ∀ as p bs, ps = as ++ p :: bs → ∀ n ∈ p.keyNames,
      ((∀ b ∈ bs, b.keyFlag n = none) ↔ ∀ b ∈ bs, b.primaryKey = none) := by
  rw [h.wellFormed.keyAgrees_iff]
  simp only [h.marks_iff parts, h.mem_keyNames_iff]
  have marked : ∀ n, ∀ p ∈ ps, n ∈ p.keyNames → ¬ p.keyFlag n = none ∧
      ¬ p.primaryKey = none := by
    intro n p hp hn
    have flag := ((h.parts_wellFormed p hp).keyAgrees_iff.1 (parts p hp) n).2 hn
    refine ⟨by simp [flag], fun none => ?_⟩
    simp [keyNames, none] at hn
  simp only [fun n => lastIn_iff (marked n)]
  constructor
  · intro each as p bs split n hn
    exact each n as p bs split hn
  · intro each n as p bs split hn
    exact each as p bs split n hn

/-- The flags of fields and the primary key agree in every schema of a table with distinct
columns and in every definition that gives the names of its fields as words. They agree in a
schema that is merged of parts in which they agree exactly if, for every name in the key of a
part, the later parts do not set the flag under that name just if they have no key. -/
theorem keyAgrees_composed :
    (∀ (tree dialect bare : Value) (t : Table) (s : Schema),
      Table.build tree dialect = .ok t →
      t.columnNames.Nodup → ofTable bare t = .ok s → s.KeyAgrees) ∧
    (∀ (given : Option String) (definition : Value) (s : Schema),
      Definition.NamesAreWords definition → Definition.read given definition = .ok s →
      s.KeyAgrees) ∧
    ∀ (ps : List Schema) (s : Schema), Composed ps s → (∀ p ∈ ps, p.KeyAgrees) →
      (s.KeyAgrees ↔ ∀ as p bs, ps = as ++ p :: bs → ∀ n ∈ p.keyNames,
        ((∀ b ∈ bs, b.keyFlag n = none) ↔ ∀ b ∈ bs, b.primaryKey = none)) := by
  refine ⟨?_, fun _ _ _ => Definition.read_keyAgrees, fun _ _ => Composed.keyAgrees_iff⟩
  intro tree dialect bare t s _ distinct made
  obtain ⟨r, rfl⟩ := eq_compile_of_ofTable made
  exact compile_keyAgrees r distinct

theorem namesAreWords_members : Definition.NamesAreWords membersDefinition := by
  intro ds items own listed es mem
  cases own
  cases (by cbv : Definition.itemsOf _ =
    .ok [.dict [(.text "name", .text "mail"),
      (.text "nullable", .bool false)]]).symm.trans listed
  cases List.mem_singleton.1 mem
  cbv

/-- The members with another address, which leaves their key as it is. -/
theorem keyAgrees_composed_members :
    ∃ s m, Table.build membersTree (.dialect .postgres) = .ok membersTable ∧
      membersTable.columnNames.Nodup ∧ ofTable .null membersTable = .ok s ∧
      Definition.NamesAreWords membersDefinition ∧
      Definition.read none membersDefinition = .ok membersOverride ∧
      Composed [s, membersOverride] m ∧ s.KeyAgrees ∧ membersOverride.KeyAgrees ∧
        m.KeyAgrees := by
  obtain ⟨ofTables, ofDefinitions, ofMerges⟩ := keyAgrees_composed
  have built : Table.build membersTree (.dialect .postgres) = .ok membersTable := by cbv
  have distinct : membersTable.columnNames.Nodup := by decide
  obtain ⟨r, made⟩ := ofTable_eq_ok (.inl rfl) not_hasLongDefault_members
  have read : Definition.read none membersDefinition = .ok membersOverride := by cbv
  have merged : (compile r membersTable).merge? membersOverride = .ok _ :=
    merge?_of_source_eq rfl
  have composed := Composed.merged (.compiled built distinct made) (.defined read) merged
  have left := ofTables _ _ _ _ _ built distinct made
  have right := ofDefinitions _ _ _ namesAreWords_members read
  have silent : ∀ n, membersOverride.keyFlag n = none := by
    intro n
    by_cases own : "mail" = n <;> simp [keyFlag, field?, membersOverride, own]
  have keyless : membersOverride.primaryKey = none := rfl
  refine ⟨_, _, built, distinct, made, namesAreWords_members, read, composed, left, right, ?_⟩
  refine (ofMerges _ _ composed (by simp [left, right])).2 ?_
  intro as p bs split n _
  -- nothing comes after the definition, and the definition comes after the table
  rcases as with _ | ⟨_, _ | ⟨_, as⟩⟩
  · cases split
    simp [silent, keyless]
  · cases split
    simp
  · simp at split

/-- A definition that makes the address of the members their key. -/
def rekeyedMembers : Value := .dict [
  (.text "source", .text "members"), (.text "primary_key", .list [.text "mail"]),
  (.text "fields", .list [.dict [(.text "name", .text "mail")]])]

/-- The schema of that definition. -/
def rekeyedOverride : Schema :=
  let mail : Field :=
    { name := "mail", type := .named "string", facts := { primaryKey := some true } }
  { source := "members", fields := [mail], primaryKey := some ⟨[mail]⟩ }

/-- A definition that names its only field by bytes, and by a text in its key. -/
def encodedMembers : Value := .dict [
  (.text "source", .text "members"), (.text "primary_key", .list [.text "mail"]),
  (.text "fields", .list [.dict [(.text "name", .bytes [109, 97, 105, 108])]])]

/-- A key that is replaced leaves its flag behind. And a field is not marked whose name is
bytes, since these are not the name in the key, but then it is found by that name. -/
theorem not_keyAgrees_rekeyed :
    (∃ s m, Table.build membersTree (.dialect .postgres) = .ok membersTable ∧
      membersTable.columnNames.Nodup ∧ ofTable .null membersTable = .ok s ∧
      Definition.read none rekeyedMembers = .ok rekeyedOverride ∧
      s.merge? rekeyedOverride = .ok m ∧ ¬ m.KeyAgrees) ∧
    ∃ s, Definition.read none encodedMembers = .ok s ∧ ¬ s.KeyAgrees := by
  constructor
  · refine ⟨compile ⟨some .postgres, none⟩ membersTable, _, by cbv, by decide,
      rfl, by cbv, rfl, ?_⟩
    intro agrees
    -- the former key is the first field
    have former := agrees _ (.head _)
    revert former
    decide
  · refine ⟨_, by cbv, fun agrees => ?_⟩
    have encoded := agrees _ (.head _)
    revert encoded
    decide

end Agreement

end Schema

end Schemata
