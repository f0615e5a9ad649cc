/-
Merging is associative.

Several definitions of one table can be merged in any grouping. The five components of a
schema follow different rules, and each rule is associative for a reason of its own: fields
are united by name, and where three sides have a field, their facts are merged twice either
way; of foreign keys over one field the last one wins, at the place of the first; a key is
that of the rightmost side that has one; indices are appended. Keys and indices take up the
merged fields after each merge, and the second time undoes nothing, since the names of the
first union are among those of the second (`resolve_resolve`).

One thing does depend on the grouping: the order in which facts without an attribute of their
own are kept. A fact that is stated as unknown holds a place only until it is merged to the
right. So the two groupings agree (`Schema.Agrees`) in all but that order, which is not part
of what a schema says: data that agree are the same (`Schema.Agrees.same`).
-/
import Mathlib
import Schemata.Proofs.Schema.Served

namespace Schemata

/-! ## Values that state something -/

namespace Value

theorem dumped_dumpedType (t : FieldType) : t.dumped.dumped = t.dumped := by
  induction t with
  | named n => rfl
  | array t ih => simp [FieldType.dumped, dumped, dumpedEntries, ih]
  | enum vs =>
    have texts : dumpedItems (vs.map .text) = vs.map .text := by
      induction vs with
      | nil => rfl
      | cons v vs ih => simp [dumpedItems, dumped, ih]
    simp [FieldType.dumped, dumped, dumpedEntries, texts]

mutual

/-- What has been taken apart stays as it is. -/
theorem dumped_dumped : ∀ v : Value, v.dumped.dumped = v.dumped
  | .null => rfl
  | .bool _ => rfl
  | .int _ => rfl
  | .float _ => rfl
  | .nan _ => rfl
  | .text _ => rfl
  | .generated _ => rfl
  | .action _ => rfl
  | .dialect _ => rfl
  | .type t => dumped_dumpedType t
  | .date _ => rfl
  | .moment _ => rfl
  | .bytes _ => rfl
  | .loop _ => rfl
  | .list xs => congrArg Value.list (dumpedItems_dumpedItems xs)
  | .tuple xs => congrArg Value.tuple (dumpedItems_dumpedItems xs)
  | .set xs => congrArg Value.set (dumpedItems_dumpedItems xs)
  | .dict es => congrArg Value.dict (dumpedEntries_dumpedEntries es)
  | .record _ fs => congrArg Value.dict (dumpedEntries_dumpedFields fs)

theorem dumpedItems_dumpedItems : ∀ xs : List Value,
    dumpedItems (dumpedItems xs) = dumpedItems xs
  | [] => rfl
  | x :: xs => by
    rw [dumpedItems, dumpedItems, dumped_dumped x, dumpedItems_dumpedItems xs]

theorem dumpedEntries_dumpedEntries : ∀ es : List (Value × Value),
    dumpedEntries (dumpedEntries es) = dumpedEntries es
  | [] => rfl
  | (k, v) :: es => by
    rw [dumpedEntries, dumpedEntries, dumped_dumped v, dumpedEntries_dumpedEntries es]

theorem dumpedEntries_dumpedFields : ∀ fs : List (String × Value),
    dumpedEntries (dumpedFields fs) = dumpedFields fs
  | [] => rfl
  | (k, v) :: fs => by
    rw [dumpedFields, dumpedEntries, dumped_dumped v, dumpedEntries_dumpedFields fs]

end

/-- The value is not null. -/
def isStated : Value → Bool
  | .null => false
  | _ => true

/-- Taking a value apart makes it neither null nor stated. -/
theorem isStated_dumped (v : Value) : v.dumped.isStated = v.isStated := by
  cases v with
  | type t => cases t <;> rfl
  | _ => rfl

end Value

/-! ## Facts -/

namespace FieldMeta

/-- No fact without an attribute is stated twice. -/
def IsKeyed (m : FieldMeta) : Prop :=
  (m.extra.map (·.1)).Nodup

instance (m : FieldMeta) : Decidable m.IsKeyed :=
  inferInstanceAs (Decidable (List.Nodup _))

/-- Facts that agree: those without an attribute may come in another order. -/
structure Agrees (a b : FieldMeta) : Prop where
  attributes : { a with extra := [] } = { b with extra := [] }
  extra : a.extra.Perm b.extra

theorem Agrees.refl (m : FieldMeta) : m.Agrees m :=
  ⟨rfl, .refl _⟩

theorem find?_dumpedExtra (es : List (String × Value)) (k : String) :
    (dumpedExtra es).find? (·.1 == k) =
      (es.find? (·.1 == k)).map fun e => (e.1, e.2.dumped) :=
  List.find?_map

theorem keys_dumpedExtra (es : List (String × Value)) :
    (dumpedExtra es).map (·.1) = es.map (·.1) := by
  simp [dumpedExtra, Function.comp_def]

theorem mergeExtra_cons (a b : List (String × Value)) (e : String × Value) :
    mergeExtra a (e :: b) = mergeExtra (if e.2.isStated then putBy (·.1) e a else a) b := by
  obtain ⟨k, v⟩ := e
  cases v <;> rfl

/-- A fact of a merge is the one that the right side states, or else that of the left side. -/
theorem find?_mergeExtra {a b : List (String × Value)} (hb : (b.map (·.1)).Nodup)
    (k : String) :
    (mergeExtra a b).find? (·.1 == k) =
      ((b.find? (·.1 == k)).filter (·.2.isStated)).or (a.find? (·.1 == k)) := by
  induction b generalizing a with
  | nil => rfl
  | cons e b ih =>
    obtain ⟨notMem, nodup⟩ := List.nodup_cons.1 hb
    rw [mergeExtra_cons, ih nodup]
    by_cases hk : e.1 = k
    · subst hk
      rw [find?_eq_none_of_notMem Prod.fst notMem]
      cases h : e.2.isStated <;> simp [h, Option.filter_some, find?_putBy Prod.fst]
    · cases e.2.isStated <;> simp [hk, find?_putBy Prod.fst]

theorem nodup_mergeExtra {a b : List (String × Value)} (ha : (a.map (·.1)).Nodup) :
    ((mergeExtra a b).map (·.1)).Nodup := by
  induction b generalizing a with
  | nil => exact ha
  | cons e b ih =>
    rw [mergeExtra_cons]
    refine ih ?_
    cases e.2.isStated
    · exact ha
    · exact nodup_putBy Prod.fst ha

/-- Of a fact taken apart, as of the fact itself, it is told whether it is stated. -/
theorem filter_stated_map (o : Option (String × Value)) :
    (o.map fun e => (e.1, e.2.dumped)).filter (·.2.isStated) =
      (o.filter (·.2.isStated)).map fun e => (e.1, e.2.dumped) := by
  cases o with
  | none => rfl
  | some e => cases h : e.2.isStated <;> simp [h, Option.filter_some, Value.isStated_dumped]

theorem filter_stated_or (o p : Option (String × Value)) :
    ((o.filter (·.2.isStated)).or p).filter (·.2.isStated) =
      (o.filter (·.2.isStated)).or (p.filter (·.2.isStated)) := by
  cases o with
  | none => rfl
  | some e => cases h : e.2.isStated <;> simp [h, Option.filter_some]

theorem IsKeyed.merge {a : FieldMeta} (ha : a.IsKeyed) (b : FieldMeta) :
    (a.merge b).IsKeyed :=
  nodup_mergeExtra (by rw [keys_dumpedExtra]; exact ha)

theorem find?_merge {a b : FieldMeta} (hb : b.IsKeyed) (k : String) :
    (a.merge b).extra.find? (·.1 == k) =
      (((b.extra.find? (·.1 == k)).filter (·.2.isStated)).or (a.extra.find? (·.1 == k))).map
        fun e => (e.1, e.2.dumped) := by
  have keyed : ((dumpedExtra b.extra).map (·.1)).Nodup := by
    rw [keys_dumpedExtra]
    exact hb
  rw [FieldMeta.merge, find?_mergeExtra keyed, find?_dumpedExtra, find?_dumpedExtra]
  rw [filter_stated_map, Option.map_or]

theorem default_merge (a b : FieldMeta) :
    (a.merge b).default = if b.default.isStated then b.default.dumped
      else a.default.dumped := by
  cases h : b.default <;> simp [merge, h, Value.isStated]

theorem default_merge_assoc (a b c : FieldMeta) :
    ((a.merge b).merge c).default = (a.merge (b.merge c)).default := by
  simp only [default_merge]
  cases hc : c.default.isStated <;> cases hb : b.default.isStated <;>
    simp [hb, hc, Value.isStated_dumped, Value.dumped_dumped]

/-- The facts of three definitions of a field agree, however they are grouped. -/
theorem merge_assoc {a b c : FieldMeta} (ha : a.IsKeyed) (hb : b.IsKeyed) (hc : c.IsKeyed) :
    ((a.merge b).merge c).Agrees (a.merge (b.merge c)) where
  attributes := by
    have default := default_merge_assoc a b c
    simp only [merge, Option.or_assoc] at default ⊢
    rw [default]
  extra := by
    refine perm_of_find? Prod.fst ((ha.merge b).merge c) (ha.merge (b.merge c)) fun k => ?_
    rw [find?_merge hc, find?_merge hb, find?_merge (hb.merge c), find?_merge hc,
      filter_stated_map, filter_stated_or]
    simp [Option.map_or, Option.or_assoc, Function.comp_def, Value.dumped_dumped]

/-- Facts that agree are the same data, if no fact holds itself. -/
theorem Agrees.same {a b : FieldMeta} (h : a.Agrees b) (hd : a.default.hasEnd = true)
    (he : Value.entriesEnd (extraEntries a.extra) = true) : a.same b = true := by
  obtain ⟨n, d, c, p, k, s, u, e, ec, er, eo, t, x⟩ := a
  obtain ⟨n', d', c', p', k', s', u', e', ec', er', eo', t', x'⟩ := b
  obtain ⟨attributes, extra⟩ := h
  simp only [FieldMeta.mk.injEq] at attributes
  obtain ⟨rfl, rfl, rfl, rfl, rfl, rfl, rfl, rfl, rfl, rfl, rfl, rfl, -⟩ := attributes
  have entries : (extraEntries x).Perm (extraEntries x') := extra.map _
  have others : (Value.dict (extraEntries x)).same (.dict (extraEntries x')) = true := by
    rw [Value.same, Value.sameEntries_of_subset _ _ he entries.subset, entries.length_eq]
    simp
  simp [FieldMeta.same, Value.same_self d hd, others]

end FieldMeta

namespace Field

/-- Definitions of a field that agree. -/
structure Agrees (f g : Field) : Prop where
  name : f.name = g.name
  type : f.type = g.type
  source : f.source = g.source
  facts : f.facts.Agrees g.facts

theorem Agrees.refl (f : Field) : f.Agrees f :=
  ⟨rfl, rfl, rfl, .refl _⟩

/-- Three definitions of a field agree, however they are grouped. -/
theorem merge_assoc {f g h : Field} (hf : f.facts.IsKeyed) (hg : g.facts.IsKeyed)
    (hh : h.facts.IsKeyed) : ((f.merge g).merge h).Agrees (f.merge (g.merge h)) :=
  ⟨rfl, rfl, Option.or_assoc.symm, FieldMeta.merge_assoc hf hg hh⟩

theorem Agrees.same {f g : Field} (h : f.Agrees g) (hf : f.hasEnd = true) :
    f.same g = true := by
  simp only [hasEnd, Bool.and_eq_true] at hf
  simp [Field.same, h.name, h.type, h.source, h.facts.same hf.1 hf.2]

end Field

/-! ## Schemas -/

namespace Schema

/-- The fields of a schema have distinct names, and each has distinct facts. -/
structure IsKeyed (s : Schema) : Prop where
  names : s.fieldNames.Nodup
  facts : ∀ f ∈ s.fields, f.facts.IsKeyed

instance (s : Schema) : Decidable s.IsKeyed :=
  decidable_of_iff (s.fieldNames.Nodup ∧ ∀ f ∈ s.fields, f.facts.IsKeyed)
    ⟨fun h => ⟨h.1, h.2⟩, fun h => ⟨h.names, h.facts⟩⟩

/-- Indices that agree. -/
structure Index.Agrees (i j : Index) : Prop where
  attributes : { i with fields := [] } = { j with fields := [] }
  fields : List.Forall₂ Field.Agrees i.fields j.fields

/-- Schemas that agree in everything but the order of facts without an attribute. -/
structure Agrees (s t : Schema) : Prop where
  source : s.source = t.source
  fields : List.Forall₂ Field.Agrees s.fields t.fields
  key : Option.Rel (fun k l => List.Forall₂ Field.Agrees k.fields l.fields)
    s.primaryKey t.primaryKey
  foreignKeys : s.foreignKeys = t.foreignKeys
  indices : List.Forall₂ Index.Agrees s.indices t.indices

/-! ### Fields -/

/-- The names of three sides, in the order in which they are first met. -/
theorem names_assoc (a b c : List String) :
    (a ++ b.filter (· ∉ a)) ++ c.filter (· ∉ a ++ b.filter (· ∉ a)) =
      a ++ (b ++ c.filter (· ∉ b)).filter (· ∉ a) := by
  rw [List.append_assoc, List.filter_append, List.filter_filter]
  congr 2
  refine List.filter_congr fun n _ => ?_
  by_cases n ∈ a <;> simp [*]

/-- The fields of three schemas agree, however they are united. -/
theorem mergeFields_assoc {a b c : Schema} (ha : a.IsKeyed) (hb : b.IsKeyed)
    (hc : c.IsKeyed) :
    List.Forall₂ Field.Agrees (mergeFields (mergeFields a.fields b.fields) c.fields)
      (mergeFields a.fields (mergeFields b.fields c.fields)) := by
  have hab := nodup_mergeFields a.fields b.fields
  have hbc := nodup_mergeFields b.fields c.fields
  refine forall₂_of_find? Field.name ?_ (nodup_mergeFields _ _) fun k => ?_
  · rw [names_mergeFields hab hc.names, names_mergeFields ha.names hbc,
      names_mergeFields ha.names hb.names, names_mergeFields hb.names hc.names]
    exact names_assoc _ _ _
  · rw [find?_mergeFields hab hc.names, find?_mergeFields ha.names hbc,
      find?_mergeFields ha.names hb.names, find?_mergeFields hb.names hc.names]
    cases hf : a.fields.find? (·.name == k) <;> cases hg : b.fields.find? (·.name == k) <;>
      cases hh : c.fields.find? (·.name == k)
    case some.some.some f g h =>
      exact .some (Field.merge_assoc (ha.facts f (List.mem_of_find?_eq_some hf))
        (hb.facts g (List.mem_of_find?_eq_some hg))
        (hc.facts h (List.mem_of_find?_eq_some hh)))
    case none.none.none => exact .none
    all_goals exact .some (.refl _)

/-! ### Keys and indices -/

/-- What was resolved in fewer names is resolved as if it had not been. -/
theorem resolve_resolve {fields more : List Field}
    (h : fields.map (·.name) ⊆ more.map (·.name)) (f : Field) :
    resolve more (resolve fields f) = resolve more f := by
  by_cases hm : f.name ∈ more.map (·.name)
  · exact resolve_resolve_of_mem hm fields
  · have hf : fields.find? (·.name == f.name) = none :=
      find?_eq_none_of_notMem Field.name fun hf => hm (h hf)
    rw [resolve.eq_1 fields, hf, Option.getD_none]

theorem PrimaryKey.over_over {fields more : List Field}
    (h : fields.map (·.name) ⊆ more.map (·.name)) (k : PrimaryKey) :
    (k.over fields).over more = k.over more := by
  simp [PrimaryKey.over, Function.comp_def, resolve_resolve h]

theorem Index.over_over {fields more : List Field}
    (h : fields.map (·.name) ⊆ more.map (·.name)) (i : Index) :
    (i.over fields).over more = i.over more := by
  simp [Index.over, Function.comp_def, resolve_resolve h]

/-- A field resolves alike in fields that agree. -/
theorem resolve_agrees {fs gs : List Field}
    (h : List.Forall₂ Field.Agrees fs gs) (f : Field) :
    (resolve fs f).Agrees (resolve gs f) := by
  unfold resolve
  induction h with
  | nil => exact .refl f
  | @cons g g' _ _ head _ ih =>
    by_cases hf : g.name = f.name
    · have hg : g'.name = f.name := head.name ▸ hf
      simpa [hf, hg] using head
    · have hg : ¬ g'.name = f.name := head.name ▸ hf
      simpa [hf, hg] using ih

theorem map_resolve_agrees {fs gs : List Field} (h : List.Forall₂ Field.Agrees fs gs)
    (own : List Field) :
    List.Forall₂ Field.Agrees (own.map (resolve fs)) (own.map (resolve gs)) := by
  simpa [List.forall₂_map_left_iff, List.forall₂_map_right_iff, List.forall₂_same] using
    fun f _ => resolve_agrees h f

/-- Every name of one side is a name of the union. -/
theorem names_subset_left (left right : List Field) :
    left.map (·.name) ⊆ (mergeFields left right).map (·.name) :=
  fun _ h => mem_names_mergeFields.2 (.inl h)

theorem names_subset_right (left right : List Field) :
    right.map (·.name) ⊆ (mergeFields left right).map (·.name) :=
  fun _ h => mem_names_mergeFields.2 (.inr h)

theorem key_merge_merge_left (a b c : Schema) :
    ((a.merge b).merge c).primaryKey =
      ((c.primaryKey.or b.primaryKey).or a.primaryKey).map
        (·.over (mergeFields (mergeFields a.fields b.fields) c.fields)) := by
  have names := names_subset_left (mergeFields a.fields b.fields) c.fields
  cases hc : c.primaryKey <;> cases hb : b.primaryKey <;>
    simp [merge, hb, hc, Function.comp_def, PrimaryKey.over_over names]

theorem key_merge_merge_right (a b c : Schema) :
    (a.merge (b.merge c)).primaryKey =
      ((c.primaryKey.or b.primaryKey).or a.primaryKey).map
        (·.over (mergeFields a.fields (mergeFields b.fields c.fields))) := by
  have names := names_subset_right a.fields (mergeFields b.fields c.fields)
  cases hc : c.primaryKey <;> cases hb : b.primaryKey <;>
    simp [merge, hb, hc, PrimaryKey.over_over names]

theorem indices_merge_merge_left (a b c : Schema) :
    ((a.merge b).merge c).indices =
      (a.indices ++ (b.indices ++ c.indices)).map
        (·.over (mergeFields (mergeFields a.fields b.fields) c.fields)) := by
  have names := names_subset_left (mergeFields a.fields b.fields) c.fields
  simp [merge, Function.comp_def, Index.over_over names]

theorem indices_merge_merge_right (a b c : Schema) :
    (a.merge (b.merge c)).indices =
      (a.indices ++ (b.indices ++ c.indices)).map
        (·.over (mergeFields a.fields (mergeFields b.fields c.fields))) := by
  have names := names_subset_right a.fields (mergeFields b.fields c.fields)
  simp [merge, Function.comp_def, Index.over_over names]

theorem merge_merge_agrees {a b c : Schema} (ha : a.IsKeyed) (hb : b.IsKeyed)
    (hc : c.IsKeyed) :
    ((a.merge b).merge c).Agrees (a.merge (b.merge c)) := by
  have fields := mergeFields_assoc ha hb hc
  refine ⟨rfl, fields, ?_, lastByKey_assoc _ _ _ _, ?_⟩
  · rw [key_merge_merge_left, key_merge_merge_right]
    cases (c.primaryKey.or b.primaryKey).or a.primaryKey with
    | none => exact .none
    | some k => exact .some (map_resolve_agrees fields k.fields)
  · rw [indices_merge_merge_left, indices_merge_merge_right, List.forall₂_map_left_iff,
      List.forall₂_map_right_iff, List.forall₂_same]
    exact fun i _ => ⟨rfl, map_resolve_agrees fields i.fields⟩

/-! ### Agreement as equality of data -/

theorem sameList_of_forall₂ {α : Type} {same : α → α → Bool} {xs ys : List α}
    {r : α → α → Prop} (h : List.Forall₂ r xs ys)
    (hs : ∀ x ∈ xs, ∀ y, r x y → same x y = true) :
    sameList same xs ys = true := by
  induction h with
  | nil => rfl
  | cons head _ ih =>
    rw [sameList, hs _ (.head _) _ head, ih fun x hx => hs x (.tail _ hx)]
    rfl

/-- Schemas that agree are the same data, if nothing that they hold holds itself. -/
theorem Agrees.same {s t : Schema} (h : s.Agrees t) (hs : s.HasEnd) : s.same t = true := by
  have fields := sameList_of_forall₂ h.fields fun f hf _ e => e.same (hs.fields f hf)
  have indices : sameList Index.same s.indices t.indices = true := by
    refine sameList_of_forall₂ h.indices fun i hi j e => ?_
    have attributes := e.attributes
    simp only [Index.mk.injEq] at attributes
    have own := sameList_of_forall₂ e.fields fun f hf _ e => e.same (hs.indices i hi f hf)
    simp [Index.same, attributes, own]
  have key := h.key
  unfold Schema.same
  rw [h.source, fields, h.foreignKeys, indices]
  cases hk : s.primaryKey <;> cases hl : t.primaryKey <;> rw [hk, hl] at key <;> cases key
  · simp
  · rename_i k l e
    have own := sameList_of_forall₂ e fun f hf _ e => e.same (hs.key k hk f hf)
    simp [PrimaryKey.same, own]

/-! ### Merging is associative -/

/-- Three schemas of one table are merged in any grouping, and the outcomes agree: in the
fields and their order, each with its type, source and facts, in the key, in the foreign keys
and the indices and their order, and in every field that a key or an index holds. As data they
are equal. -/
theorem merge?_assoc {a b c : Schema} (hab : a.source = b.source) (hbc : b.source = c.source)
    (ha : a.IsKeyed) (hb : b.IsKeyed) (hc : c.IsKeyed) :
    ∃ m n, (a.merge? b >>= fun s => s.merge? c) = .ok m ∧
      (b.merge? c >>= fun s => a.merge? s) = .ok n ∧ m.Agrees n ∧
      (a.HasEnd → b.HasEnd → c.HasEnd → m.same n = true) := by
  have agrees := merge_merge_agrees ha hb hc
  refine ⟨(a.merge b).merge c, a.merge (b.merge c), ?_, ?_, agrees, ?_⟩
  · have source : (a.merge b).source = c.source := hab.trans hbc
    rw [merge?, if_pos (by simp [hab]), ok_bind, merge?, if_pos (by simp [source])]
  · have source : a.source = (b.merge c).source := hab
    rw [merge?, if_pos (by simp [hbc]), ok_bind, merge?, if_pos (by simp [source])]
  · exact fun endA endB endC => agrees.same ((endA.merge endB).merge endC)

/-- A table as it was found: a key, a foreign key and an index over a field with a note. -/
def foundUsers : Schema where
  source := "users"
  fields := [
    { name := "id", type := .named "integer", facts := { nullable := some false } },
    { name := "team", type := .named "integer",
      facts := { extra := [("note", .text "old")] } }]
  primaryKey := some ⟨[{ name := "id", type := .named "integer" }]⟩
  foreignKeys := [⟨"team", "groups", none, none⟩]
  indices := [⟨"by_team", [{ name := "team", type := .named "integer" }], false, none⟩]

/-- What was said of it by hand: a label that is unknown, and a key and an index over what is
new. -/
def annotatedUsers : Schema where
  source := "users"
  fields := [
    { name := "email", type := .named "string",
      facts := { default := .generated .currentTimestamp } },
    { name := "team", type := .named "string",
      facts := { extra := [("label", .null), ("rank", .int 1)] } }]
  primaryKey := some ⟨[{ name := "email", type := .named "text" }]⟩
  foreignKeys := [⟨"team", "teams", some "id", none⟩, ⟨"email", "mailboxes", none, none⟩]
  indices := [⟨"by_email", [{ name := "email", type := .named "text" }], true, some "hash"⟩]

/-- What was said last: the label is known. -/
def correctedUsers : Schema where
  source := "users"
  fields := [
    { name := "team", type := .named "string",
      facts := { extra := [("label", .text "Team"), ("note", .null)] } }]
  foreignKeys := [⟨"id", "people", none, none⟩, ⟨"team", "teams", none, none⟩]

theorem merge?_assoc_users :
    ∃ m n, (foundUsers.merge? annotatedUsers >>= fun s => s.merge? correctedUsers) = .ok m ∧
      (annotatedUsers.merge? correctedUsers >>= fun s => foundUsers.merge? s) = .ok n ∧
      m.Agrees n ∧ m.same n = true := by
  have found : foundUsers.HasEnd := by constructor <;> decide
  have annotated : annotatedUsers.HasEnd := by constructor <;> decide
  have corrected : correctedUsers.HasEnd := by constructor <;> decide
  obtain ⟨m, n, left, right, agrees, same⟩ :=
    merge?_assoc (a := foundUsers) (b := annotatedUsers)
      (c := correctedUsers) rfl rfl (by decide)
      (by decide) (by decide)
  exact ⟨m, n, left, right, agrees, same found annotated corrected⟩

/-- The label, which was stated as unknown on the way, comes last or does not. -/
example :
    ((foundUsers.merge annotatedUsers).merge correctedUsers).fields.map
        (·.facts.extra.map (·.1)) = [[], ["note", "rank", "label"], []] ∧
      (foundUsers.merge (annotatedUsers.merge correctedUsers)).fields.map
        (·.facts.extra.map (·.1)) = [[], ["note", "label", "rank"], []] := by
  decide

end Schema

end Schemata
