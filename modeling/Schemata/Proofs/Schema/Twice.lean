/-
Merging a schema with itself.

Each of the five unions of a merge meets the same list twice. Fields with distinct names and
foreign keys over distinct fields are found again at their places; the key is that of both
sides; the indices come twice, since a list of indices is not united by name. What a merge
does to a field even then is to take its default and its other facts apart
(`Field.merge_self`), so that a schema comes back as it is exactly if these are plain data.

Keys and indices hold definitions of their own, which need only be equal, as data, to fields
of the schema. They come back as those fields.
-/
import Schemata.Proofs.Schema.Neutral
import Schemata.Proofs.Schema.Override

namespace Schemata

/-! ## Facts and fields -/

namespace FieldMeta

/-- Facts with their values taken apart. -/
def dumped (m : FieldMeta) : FieldMeta :=
  { m with default := m.default.dumped, extra := dumpedExtra m.extra }

/-- Stating anew what is stated already, or as unknown, changes nothing. -/
theorem mergeExtra_of_subset {a b : List (String × Value)} (distinct : (a.map (·.1)).Nodup)
    (h : b ⊆ a) : mergeExtra a b = a := by
  induction b with
  | nil => rfl
  | cons e b ih =>
    have rest : mergeExtra a b = a := ih fun x hx => h (.tail _ hx)
    rw [mergeExtra_cons, putBy_of_mem Prod.fst distinct (h (.head _)), ite_self, rest]

theorem merge_self {m : FieldMeta} (h : m.IsKeyed) : m.merge m = m.dumped := by
  have default : (m.merge m).default = m.default.dumped := by rw [default_merge, ite_self]
  have extra : (m.merge m).extra = dumpedExtra m.extra :=
    mergeExtra_of_subset (by rw [keys_dumpedExtra]; exact h) fun _ => id
  have attributes : m.merge m =
      { m with default := (m.merge m).default, extra := (m.merge m).extra } := by
    simp only [merge, Option.or_self]
  rw [attributes, default, extra, dumped]

/-- The default and the other facts are plain data. -/
def IsData (m : FieldMeta) : Prop :=
  m.default.isData = true ∧ ∀ e ∈ m.extra, e.2.isData = true

instance (m : FieldMeta) : Decidable m.IsData :=
  inferInstanceAs (Decidable (_ ∧ _))

theorem dumpedExtra_eq_self_iff (es : List (String × Value)) :
    dumpedExtra es = es ↔ ∀ e ∈ es, e.2.isData = true := by
  induction es with
  | nil => simp [dumpedExtra]
  | cons e es ih =>
    obtain ⟨k, v⟩ := e
    simp only [dumpedExtra, List.map_cons, List.cons.injEq, Prod.mk.injEq, true_and,
      Value.dumped_eq_self_iff, List.forall_mem_cons] at ih ⊢
    rw [ih]

theorem dumped_eq_self_iff (m : FieldMeta) : m.dumped = m ↔ m.IsData := by
  obtain ⟨_, default, _, _, _, _, _, _, _, _, _, _, extra⟩ := m
  simp [dumped, IsData, Value.dumped_eq_self_iff, dumpedExtra_eq_self_iff]

end FieldMeta

namespace Field

/-- A field with the values of its facts taken apart. -/
def dumped (f : Field) : Field :=
  { f with facts := f.facts.dumped }

theorem merge_self {f : Field} (h : f.facts.IsKeyed) : f.merge f = f.dumped := by
  rw [merge, FieldMeta.merge_self h, Option.or_self, dumped]

theorem dumped_eq_self_iff (f : Field) : f.dumped = f ↔ f.facts.IsData := by
  obtain ⟨_, _, _, facts⟩ := f
  simp [dumped, FieldMeta.dumped_eq_self_iff]

/-- Fields that are the same have one name. -/
theorem name_eq_of_same {f g : Field} (h : f.same g = true) : f.name = g.name := by
  simp only [same, Bool.and_eq_true, beq_iff_eq] at h
  exact h.1.1.1

end Field

namespace Schema

/-! ## Components -/

/-- Fields united with themselves are the fields, taken apart. -/
theorem mergeFields_self {s : Schema} (h : s.IsKeyed) :
    mergeFields s.fields s.fields = s.fields.map (·.dumped) := by
  have own : (s.fields.map (·.dumped)).map (·.name) = s.fieldNames := by
    simp [Field.dumped, fieldNames, Function.comp_def]
  have names : (mergeFields s.fields s.fields).map (·.name) = s.fieldNames := by
    rw [names_mergeFields h.names h.names, List.filter_eq_nil_iff.2, List.append_nil]
    · rfl
    · intro n hn
      simpa using hn
  rw [← List.forall₂_eq_eq_eq]
  refine forall₂_of_find? Field.name (names.trans own.symm)
    (nodup_mergeFields _ _) fun k => ?_
  have found : (s.fields.map (·.dumped)).find? (·.name == k) =
      (s.fields.find? (·.name == k)).map (·.dumped) := List.find?_map
  rw [find?_mergeFields h.names h.names, found]
  cases hf : s.fields.find? (·.name == k) with
  | none => exact .none
  | some f => exact .some (Field.merge_self (h.facts f (List.mem_of_find?_eq_some hf)))

theorem map_dumped_eq_self_iff (fields : List Field) :
    fields.map (·.dumped) = fields ↔ ∀ f ∈ fields, f.facts.IsData := by
  conv_lhs => rhs; rw [← List.map_id fields]
  simp only [List.map_inj_left, id, Field.dumped_eq_self_iff]

theorem foreignKeys_self {ks : List ForeignKey} (once : (ks.map (·.field)).Nodup) :
    lastByKey (·.field) (ks ++ ks) = ks := by
  rw [lastByKey_append, lastByKey_of_nodup ForeignKey.field once]
  exact foldl_putBy_of_subset ForeignKey.field once fun _ => id

/-! ## The law -/

/-- Every field that a key or an index holds is equal, as data, to a field of the schema. -/
structure HoldsOwn (s : Schema) : Prop where
  key : ∀ k ∈ s.primaryKey, ∀ f ∈ k.fields, ∃ g ∈ s.fields, g.same f = true
  indices : ∀ i ∈ s.indices, ∀ f ∈ i.fields, ∃ g ∈ s.fields, g.same f = true

/-- Each of the held fields comes back as the field of the schema that it is equal to, taken
apart. -/
def Renewed (s : Schema) (held now : List Field) : Prop :=
  List.Forall₂ (fun f h => ∃ g ∈ s.fields, g.same f = true ∧ h = g.dumped) held now

/-- A field resolves to the field of its name. -/
theorem resolve_of_name {fields : List Field} (distinct : (fields.map (·.name)).Nodup)
    {f g : Field} (hg : g ∈ fields) (name : g.name = f.name) : resolve fields f = g := by
  rw [resolve, ← name, (mem_iff_find? Field.name distinct).1 hg, Option.getD_some]

theorem renewed_map_resolve {s : Schema} (distinct : s.fieldNames.Nodup) {held : List Field}
    (own : ∀ f ∈ held, ∃ g ∈ s.fields, g.same f = true) :
    s.Renewed held (held.map (resolve (s.fields.map (·.dumped)))) := by
  have names : ((s.fields.map (·.dumped)).map (·.name)).Nodup := by
    simpa [Field.dumped, fieldNames, Function.comp_def] using distinct
  rw [Renewed, List.forall₂_map_right_iff, List.forall₂_same]
  intro f hf
  obtain ⟨g, hg, same⟩ := own f hf
  have name : g.name = f.name := Field.name_eq_of_same same
  exact ⟨g, hg, same, resolve_of_name names (List.mem_map_of_mem hg) name⟩

/-- What comes back of plain data is what was held, as data. -/
theorem Renewed.same {s : Schema} (data : ∀ f ∈ s.fields, f.facts.IsData)
    {held now : List Field}
    (h : s.Renewed held now) : sameList Field.same now held = true := by
  induction h with
  | nil => rfl
  | cons head _ ih =>
    obtain ⟨g, hg, same, rfl⟩ := head
    rw [sameList, (Field.dumped_eq_self_iff g).2 (data g hg), same, ih]
    rfl

section

variable {s : Schema} (h : s.IsKeyed) (own : s.HoldsOwn)

include h own

theorem primaryKey_merge_self :
    Option.Rel (fun k l => s.Renewed k.fields l.fields) s.primaryKey
      (s.merge s).primaryKey := by
  have fields : (s.merge s).fields = s.fields.map (·.dumped) := mergeFields_self h
  rw [primaryKey_merge, fields, Option.or_self]
  cases hk : s.primaryKey with
  | none => exact .none
  | some k => exact .some (renewed_map_resolve h.names (own.key k hk))

theorem indices_merge_self :
    List.Forall₂
      (fun i j => { j with fields := [] } = { i with fields := ([] : List Field) } ∧
        s.Renewed i.fields j.fields)
      (s.indices ++ s.indices) (s.merge s).indices := by
  have fields : (s.merge s).fields = s.fields.map (·.dumped) := mergeFields_self h
  rw [indices_merge, fields, List.forall₂_map_right_iff, List.forall₂_same]
  intro i hi
  have mem : i ∈ s.indices := (List.mem_append.1 hi).elim id id
  exact ⟨rfl, renewed_map_resolve h.names (own.indices i mem)⟩

end

/-- A schema that is merged with itself comes back with its fields, their facts taken apart,
with its foreign keys, with its key and twice with its indices, each over the fields that come
back. The fields are the same exactly if their facts are plain data, and then so are key and
indices. -/
theorem merge?_self {s : Schema} (h : s.IsKeyed) (once : s.foreignKeyFieldNames.Nodup)
    (own : s.HoldsOwn) :
    ∃ m, s.merge? s = .ok m ∧ m.source = s.source ∧ m.fields = s.fields.map (·.dumped) ∧
      m.foreignKeys = s.foreignKeys ∧
      Option.Rel (fun k l => s.Renewed k.fields l.fields) s.primaryKey m.primaryKey ∧
      List.Forall₂
        (fun i j => { j with fields := [] } = { i with fields := ([] : List Field) } ∧
          s.Renewed i.fields j.fields)
        (s.indices ++ s.indices) m.indices ∧
      (m.fields = s.fields ↔ ∀ f ∈ s.fields, f.facts.IsData) ∧
      ((∀ f ∈ s.fields, f.facts.IsData) →
        Option.Rel (fun k l => l.same k = true) s.primaryKey m.primaryKey ∧
        sameList Index.same m.indices (s.indices ++ s.indices) = true) := by
  have fields : (s.merge s).fields = s.fields.map (·.dumped) := mergeFields_self h
  have key := primaryKey_merge_self h own
  have indices := indices_merge_self h own
  refine ⟨s.merge s, merge?_of_source_eq rfl, rfl, fields, foreignKeys_self once,
    key, indices, ?_,
    fun data => ⟨?_, ?_⟩⟩
  · rw [fields, map_dumped_eq_self_iff]
  · generalize s.primaryKey = before, (s.merge s).primaryKey = after at key ⊢
    cases key with
    | none => exact .none
    | some renewed => exact .some (renewed.same data)
  · refine sameList_of_forall₂ indices.flip fun j _ i related => ?_
    obtain ⟨attributes, renewed⟩ := related
    simp only [Index.mk.injEq] at attributes
    simp [Index.same, attributes, renewed.same data]

/-- Members of groups: the key holds a definition of its own, whose default is the number for
true. -/
def groupMembers : Schema where
  source := "members"
  fields := [
    { name := "active", type := .named "boolean",
      facts := { default := .bool true, extra := [("note", .null), ("rank", .int 1)] } },
    { name := "group", type := .named "integer", source := some "group_id" }]
  primaryKey := some ⟨[
    { name := "active", type := .named "boolean",
      facts := { default := .int 1, extra := [("rank", .int 1), ("note", .null)] } }]⟩
  foreignKeys := [⟨"group", "groups", some "id", none⟩]
  indices :=
    [⟨"by_group", [{ name := "group", type := .named "integer", source := some "group_id" }],
    false, none⟩]

theorem holdsOwn_groupMembers : groupMembers.HoldsOwn where
  key := by
    rintro k ⟨⟩ f hf
    obtain rfl := List.mem_singleton.1 hf
    exact ⟨_, .head _, by cbv⟩
  indices := by
    intro i hi f hf
    obtain rfl := List.mem_singleton.1 hi
    obtain rfl := List.mem_singleton.1 hf
    exact ⟨_, .tail _ (.head _), by cbv⟩

theorem merge?_self_groupMembers :
    groupMembers.HoldsOwn ∧ ∃ m, groupMembers.merge? groupMembers = .ok m ∧
      m.fields = groupMembers.fields ∧ m.foreignKeys = groupMembers.foreignKeys ∧
      Option.Rel (fun k l => l.same k = true) groupMembers.primaryKey m.primaryKey ∧
      sameList Index.same m.indices (groupMembers.indices ++ groupMembers.indices) =
        true := by
  obtain ⟨m, merged, -, -, foreignKeys, -, -, fields, same⟩ :=
    merge?_self (s := groupMembers) (by decide) (by decide) holdsOwn_groupMembers
  have data : ∀ f ∈ groupMembers.fields, f.facts.IsData := by decide
  exact ⟨holdsOwn_groupMembers, m, merged, fields.2 data, foreignKeys, same data⟩

/-- A field with a default that is a type. -/
def listedSizes : Schema where
  source := "sizes"
  fields := [{
    name := "size", type := .named "string"
    facts := { default := .type (.enum ["small", "large"]) } }]

/-- Not every schema that is merged with itself comes back as it is. -/
theorem not_same_listedSizes :
    listedSizes.IsKeyed ∧ listedSizes.foreignKeyFieldNames.Nodup ∧ listedSizes.HoldsOwn ∧
      ∃ m, listedSizes.merge? listedSizes = .ok m ∧
        m.same { listedSizes with indices := listedSizes.indices ++ listedSizes.indices } =
          false :=
  ⟨by decide, by decide, ⟨by rintro k ⟨⟩, by rintro i ⟨⟩⟩, _, rfl, by cbv⟩

end Schema

end Schemata
