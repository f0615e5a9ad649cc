/-
What a visit does with each kind of node.

`visit` and its companions recur together by the depth of a tree. Here each of them is said in
terms of the visits of what it visits, without the bounds by which the recursion ends: a node
with a known word is handled, one with an unknown word is its payload, a list is visited item
by item, and a mapping value by value. Whoever reasons about trees uses these equations and
need not unfold the recursion again.
-/
import Mathlib
import Schemata.Proofs.Steps
import Schemata.Proofs.Value.Entries
import Schemata.Proofs.Value.Written
import Schemata.Table.Build

namespace Schemata

/-! ## Nodes as values -/

namespace Value

variable (word : String) (v : Value)

@[simp] theorem tagged?_tagged : (tagged word v).tagged? = some (word, v) := rfl

@[simp] theorem isTruthy_tagged : (tagged word v).isTruthy = true := rfl

@[simp] theorem text?_text (s : String) : (text s).text? = some s := rfl

@[simp] theorem type?_type (t : FieldType) : (type t).type? = some t := by
  rw [type?]

end Value

namespace Table

open Value (tagged)

variable {r : Rules}

/-! ## Visits -/

/-- A node with an unknown word is its payload. -/
theorem visit_unknown {word : String} (h : Tag.ofWord? r word = none) (v : Value) :
    visit r (tagged word v) = visit r v := by
  rw [tagged, visit]
  simp only [Value.word?, h]

/-- A node with a known word is handled. -/
theorem visit_known {word : String} {t : Tag} (h : Tag.ofWord? r word = some t) (v : Value) :
    visit r (tagged word v) = handle r t v := by
  rw [tagged, visit]
  simp only [Value.word?, h]

theorem visit_of_tagged? {v payload : Value} {word : String}
    (node : v.tagged? = some (word, payload)) :
    visit r v =
      match Tag.ofWord? r word with
      | none => visit r payload
      | some tag => handle r tag payload := by
  unfold Value.tagged? at node
  split at node
  · obtain ⟨w, known, same⟩ := Option.map_eq_some_iff.1 node
    cases same
    rw [visit]
    cases read : Tag.ofWord? r word with
    | none => simp only [known, read]
    | some tag => simp only [known, read]
  · cases node

theorem visitItems_eq_mapM (xs : List Value) : visitItems r xs = xs.mapM (visit r) := by
  induction xs with
  | nil => rw [visitItems]; rfl
  | cons x xs ih => rw [visitItems, List.mapM_cons, ih]; rfl

theorem visit_list (xs : List Value) :
    visit r (.list xs) = xs.mapM (visit r) >>= fun ps => .ok (.items ps) := by
  rw [visit, visitItems_eq_mapM]

/-- What is neither a node nor a list is left as it is. -/
theorem visit_leaf {v : Value} (node : v.tagged? = none) (list : ∀ xs, v ≠ .list xs) :
    visit r v = .ok (.value v) := by
  unfold visit
  split
  · rename_i t payload
    cases h : t.word? with
    | none => rfl
    | some word => simp [Value.tagged?, h] at node
  · exact absurd rfl (list _)
  · rfl

theorem visit_text (s : String) : visit r (.text s) = .ok (.value (.text s)) :=
  visit_leaf rfl (by simp)

theorem visit_null : visit r .null = .ok (.value .null) :=
  visit_leaf rfl (by simp)

theorem visit_bool (b : Bool) : visit r (.bool b) = .ok (.value (.bool b)) :=
  visit_leaf rfl (by simp)

/-- An entry of a mapping, with its value visited. -/
def visitEntry (r : Rules) (e : Value × Value) : Except Fault (Value × Value) := do
  let p ← visit r e.2
  .ok (e.1, p.toValue)

theorem visitEntries_eq_mapM (es : List (Value × Value)) :
    visitEntries r es = es.mapM (visitEntry r) := by
  induction es with
  | nil => rw [visitEntries]; rfl
  | cons e es ih =>
    rw [visitEntries, List.mapM_cons, ih, visitEntry]
    cases visit r e.2 <;> rfl

/-! ## Components -/

theorem typeComponent_of_tagged {v : Value} (h : v.tagged?.isSome = true) :
    typeComponent r v = visit r v := by
  obtain ⟨node, h⟩ := Option.isSome_iff_exists.1 h
  rw [typeComponent, h]

/-- A type may be a node wherever Postgres reads one. -/
theorem typeComponent_postgres (v : Value) :
    typeComponent (some .postgres) v = typePart (some .postgres) v := by
  rw [typeComponent, typePart]
  cases v.tagged? <;> rfl

/-- A node inside a type is visited. -/
theorem typePart_of_tagged {v : Value} (h : v.tagged?.isSome = true) :
    typePart (some .postgres) v = visit (some .postgres) v := by
  obtain ⟨node, h⟩ := Option.isSome_iff_exists.1 h
  rw [typePart, h]

theorem defaultComponent_of_tagged {v : Value} (h : v.tagged?.isSome = true) :
    defaultComponent r v = visit r v >>= fun p => .ok p.toValue := by
  obtain ⟨node, h⟩ := Option.isSome_iff_exists.1 h
  rw [defaultComponent, h]

theorem defaultComponent_of_plain {v : Value} (h : v.tagged? = none) :
    defaultComponent r v = plainDefault r v := by
  rw [defaultComponent, h]

theorem listComponent_of_truthy {v : Value} (h : v.isTruthy = true) :
    listComponent r v = visit r v := by
  rw [listComponent, if_pos h]

theorem listComponent_list (xs : List Value) :
    listComponent r (.list xs) = visit r (.list xs) := by
  cases xs with
  | nil => rw [listComponent, visit_list]; rfl
  | cons x xs => exact listComponent_of_truthy rfl

/-! ## Handlers -/

theorem flagsPart_dict (es : List (Value × Value)) :
    flagsPart r (.dict es) = es.mapM (visitEntry r) >>= fun fs =>
      .ok (.value (.dict fs)) := by
  rw [flagsPart, visitEntries_eq_mapM]
  cases es <;> rfl

theorem columnPart_eq (payload : Value) :
    columnPart r payload = (do
      let n ← ColumnNode.ofPayload payload
      let raw ← rawFlags n.flags
      let flags ← (Value.drop raw "default").mapM (visitEntry r)
      let default ← defaultComponent r (Value.getD raw "default")
      let name ← visit r n.name
      let type ← typeComponent r n.type
      columnOf name type (Value.put flags (.text "default") default)) := by
  rw [columnPart]
  split
  · rename_i f h
    rw [h]
    rfl
  · rename_i n h
    rw [h, ok_bind]
    split
    · rename_i f h
      rw [h]
      rfl
    · rename_i raw h
      rw [h, ok_bind, visitEntries_eq_mapM]

theorem foreignKeyPart_eq (payload : Value) :
    foreignKeyPart r payload = (do
      let n ← ForeignKeyNode.ofPayload payload
      let flags ← visit r n.flags
      let name ← visit r n.name
      let columns ← visit r n.columns >>= namesOf
      let table ← visit r n.table >>= nameOf
      let targets ← visit r n.targets >>= namesOf
      foreignKeyOf name columns table targets flags) := by
  rw [foreignKeyPart]
  split
  · rename_i f h
    rw [h]
    rfl
  · rename_i n h
    simp only [h, ok_bind, bind_assoc]

theorem indexPart_eq (payload : Value) :
    indexPart r payload = (do
      let n ← IndexNode.ofPayload payload
      let flags ← visit r n.flags
      let name ← visit r n.name
      let columns ← visit r n.columns >>= namesOf
      indexOf name columns flags) := by
  rw [indexPart]
  split
  · rename_i f h
    rw [h]
    rfl
  · rename_i n h
    simp only [h, ok_bind, bind_assoc]

theorem tablePart_eq (payload : Value) :
    tablePart r payload = (do
      let n ← TableNode.ofPayload payload
      let name ← visit r n.name
      let columns ← listComponent r n.columns
      let foreignKeys ← listComponent r n.foreignKeys
      let indices ← listComponent r n.indices
      tableOf r name columns foreignKeys indices) := by
  rw [tablePart]
  split
  · rename_i f h
    rw [h]
    rfl
  · rename_i n h
    rw [h, ok_bind]

/-! ## Structural nodes -/

section Nodes

variable (v : Value)

@[simp] theorem visit_table : visit r (tagged "table" v) = tablePart r v := by
  rw [visit_known (t := .table) rfl, handle.eq_def]

@[simp] theorem visit_identifier :
    visit r (tagged "identifier" v) = v.plain >>= fun s => .ok (.value (.text s)) := by
  rw [visit_known (t := .identifier) rfl, handle.eq_def]

@[simp] theorem visit_column : visit r (tagged "column" v) = columnPart r v := by
  rw [visit_known (t := .column) rfl, handle.eq_def]

@[simp] theorem visit_type : visit r (tagged "type" v) = typePart r v := by
  rw [visit_known (t := .type) rfl, handle.eq_def]

@[simp] theorem visit_flags : visit r (tagged "meta" v) = flagsPart r v := by
  rw [visit_known (t := .flags) rfl, handle.eq_def]

@[simp] theorem visit_foreignKey : visit r (tagged "foreign_key" v) = foreignKeyPart r v := by
  rw [visit_known (t := .foreignKey) rfl, handle.eq_def]

@[simp] theorem visit_index : visit r (tagged "index" v) = indexPart r v := by
  rw [visit_known (t := .index) rfl, handle.eq_def]

end Nodes

/-! ## Columns from their parts -/

/-- A type is read back from itself as data. -/
theorem type?_toValue (t : FieldType) : t.toValue.type? = some t := by
  cases t with
  | named n => simp [FieldType.toValue, Value.type?]
  | _ => exact Value.type?_type _

/-- The default of a column says nothing of its other attributes. -/
theorem columnOf_default {name type : Part} {flags : List (Value × Value)} {d d' : Value}
    {c : Column}
    (h : columnOf name type (Value.put flags (.text "default") d) = .ok (.column c)) :
    columnOf name type (Value.put flags (.text "default") d') =
      .ok (.column { c with default := d' }) := by
  have other (key : String) (ne : ¬ key = "default") (d : Value) :
      Value.get? (Value.put flags (.text "default") d) key = Value.get? flags key := by
    rw [Value.get?_put, if_neg ne]
  simp only [columnOf, Value.any_put, Value.withDefault, Value.getD_put_self,
    other "nullable" (by decide), other "primary_key" (by decide),
    other "foreign_key" (by decide), other "check_constraints" (by decide)] at h ⊢
  split
  · rename_i bad
    rw [if_pos bad] at h
    cases h
  · rename_i good
    rw [if_neg good, Value.require_eq_ok] at h
    simp only [Option.bind_eq_bind, Option.bind_eq_some_iff, Option.some.injEq,
      Part.column.injEq] at h
    obtain ⟨n, hn, p, hp, f, hf, k, hk, name, hname, type, htype, rfl⟩ := h
    simp [hn, hp, hf, hk, hname, htype, Value.require]

/-- Nor does its type: with another one it is the same column, if that is a type. -/
theorem columnOf_type {name type type' : Part} {flags : List (Value × Value)} {c : Column}
    (h : columnOf name type flags = .ok (.column c)) :
    columnOf name type' flags =
      Value.require (type'.toValue.type?.map fun t => .column { c with type := t }) := by
  unfold columnOf at h ⊢
  split at h
  · cases h
  · rename_i good
    rw [if_neg good]
    rw [Value.require_eq_ok] at h
    simp only [Option.bind_eq_bind, Option.bind_eq_some_iff, Option.some.injEq,
      Part.column.injEq] at h
    obtain ⟨n, hn, p, hp, f, hf, k, hk, name, hname, type, -, rfl⟩ := h
    cases type'.toValue.type? <;> simp [hn, hp, hf, hk, hname]

/-! ## Tables from their parts -/

theorem eq_of_listed {p : Part} {ps qs : List Part} (parts : partsOf p = .ok ps)
    (list : listed p = some qs) : ps = qs := by
  unfold listed at list
  split at list
  · cases list
    exact (Except.ok.inj parts).symm
  · cases list
    exact (Except.ok.inj parts).symm
  · cases list
    exact (Except.ok.inj parts).symm
  · cases list

/-- What a table is made of: its foreign keys are those that mention columns, and its columns
are marked by what these mention. -/
theorem tableOf_eq_ok {name columns foreignKeys indices p : Part}
    (made : tableOf r name columns foreignKeys indices = .ok p) :
    ∃ t, p = .table t ∧ r = some t.dialect ∧ ∃ keys names ps qs,
      partsOf foreignKeys = .ok keys ∧
      mentioned keys = .ok names ∧ keys.mapM asForeignKey = some t.foreignKeys ∧
        partsOf columns = .ok ps ∧ marked names ps = .ok qs ∧ columnsOf qs = .ok t.columns ∧
          (listed columns).isSome = true := by
  obtain ⟨keys, keyParts, made⟩ := bind_eq_ok.1 made
  obtain ⟨names, mentions, made⟩ := bind_eq_ok.1 made
  obtain ⟨ps, columnParts, made⟩ := bind_eq_ok.1 made
  obtain ⟨qs, marks, made⟩ := bind_eq_ok.1 made
  obtain ⟨cs, read, made⟩ := bind_eq_ok.1 made
  rw [Value.require_eq_ok] at made
  simp only [Option.bind_eq_bind, Option.bind_eq_some_iff, Option.some.injEq] at made
  obtain ⟨-, -, dialect, rules, _, list, keys', listedKeys, ks, built, -, -, -,
      -, rfl⟩ := made
  rw [← eq_of_listed keyParts listedKeys] at built
  exact ⟨_, rfl, rules, keys, names, ps, qs, keyParts, mentions, built,
    columnParts, marks, read,
    Option.isSome_iff_exists.2 ⟨_, list⟩⟩

/-! ## Handlers of lists -/

theorem tablePart_list (name columns foreignKeys indices : Value) :
    tablePart r (.list [name, columns, foreignKeys, indices]) = (do
      let name ← visit r name
      let columns ← listComponent r columns
      let foreignKeys ← listComponent r foreignKeys
      let indices ← listComponent r indices
      tableOf r name columns foreignKeys indices) := by
  simp [tablePart_eq, TableNode.ofPayload, Value.items, Value.items?, component]

/-- A column has a name and a type at least. -/
theorem columnPart_cons (name type : Value) (rest : List Value) :
    columnPart r (.list (name :: type :: rest)) = (do
      let raw ← rawFlags (component rest 0)
      let fs ← (Value.drop raw "default").mapM (visitEntry r)
      let default ← defaultComponent r (Value.getD raw "default")
      let name ← visit r name
      let type ← typeComponent r type
      columnOf name type (Value.put fs (.text "default") default)) := by
  simp [columnPart_eq, ColumnNode.ofPayload, Value.items, Value.items?, component]

theorem columnPart_list (name type flags : Value) (rest : List Value) :
    columnPart r (.list (name :: type :: flags :: rest)) = (do
      let raw ← rawFlags flags
      let fs ← (Value.drop raw "default").mapM (visitEntry r)
      let default ← defaultComponent r (Value.getD raw "default")
      let name ← visit r name
      let type ← typeComponent r type
      columnOf name type (Value.put fs (.text "default") default)) :=
  columnPart_cons name type (flags :: rest)

theorem foreignKeyPart_list (name columns table targets flags : Value) :
    foreignKeyPart r (.list [name, columns, table, targets, flags]) = (do
      let flags ← visit r flags
      let name ← visit r name
      let columns ← visit r columns >>= namesOf
      let table ← visit r table >>= nameOf
      let targets ← visit r targets >>= namesOf
      foreignKeyOf name columns table targets flags) := by
  simp [foreignKeyPart_eq, ForeignKeyNode.ofPayload, Value.items, Value.items?, component]

theorem indexPart_list (name columns flags : Value) :
    indexPart r (.list [name, columns, flags]) = (do
      let flags ← visit r flags
      let name ← visit r name
      let columns ← visit r columns >>= namesOf
      indexOf name columns flags) := by
  simp [indexPart_eq, IndexNode.ofPayload, Value.items, Value.items?, component]

/-! ## What a node is made into -/

variable {p : Part} {payload : Value} {tag : Tag}

/-- The kind of node that a part is built of. -/
def tagOf? : Part → Option Tag
  | .column _ => some .column
  | .foreignKey _ => some .foreignKey
  | .index _ => some .index
  | .table _ => some .table
  | _ => none

/-- What the parts of a column say of it, where a column is made of them. -/
theorem columnOf_eq_ok {name type : Part} {flags : List (Value × Value)}
    (made : columnOf name type flags = .ok p) :
    ∃ c, p = .column c ∧ type.toValue.type? = some c.type ∧
      Value.withDefault Value.bool? false flags "primary_key" = some c.primaryKey ∧
        Value.withDefault Value.bool? false flags "foreign_key" = some c.foreignKey := by
  unfold columnOf at made
  split at made
  · cases made
  · rw [Value.require_eq_ok] at made
    simp only [Option.bind_eq_bind, Option.bind_eq_some_iff, Option.some.injEq] at made
    obtain ⟨_, -, primaryKey, hp, foreignKey, hf, _, -, _, -, type, ht, rfl⟩ := made
    exact ⟨_, rfl, ht, hp, hf⟩

/-- What a column node says is what its column has. -/
theorem columnPart_eq_ok (made : columnPart r payload = .ok p) :
    ∃ n raw flags default type c, ColumnNode.ofPayload payload = .ok n ∧
      rawFlags n.flags = .ok raw ∧
      (Value.drop raw "default").mapM (visitEntry r) = .ok flags ∧
        typeComponent r n.type = .ok type ∧ p = .column c ∧ type.toValue.type? = some c.type ∧
          Value.withDefault Value.bool? false (Value.put flags (.text "default") default)
            "primary_key" = some c.primaryKey ∧
          Value.withDefault Value.bool? false (Value.put flags (.text "default") default)
            "foreign_key" = some c.foreignKey := by
  rw [columnPart_eq] at made
  obtain ⟨n, node, made⟩ := bind_eq_ok.1 made
  obtain ⟨raw, entries, made⟩ := bind_eq_ok.1 made
  obtain ⟨flags, visited, made⟩ := bind_eq_ok.1 made
  obtain ⟨default, -, made⟩ := bind_eq_ok.1 made
  obtain ⟨name, -, made⟩ := bind_eq_ok.1 made
  obtain ⟨type, typed, made⟩ := bind_eq_ok.1 made
  obtain ⟨c, rfl, facts⟩ := columnOf_eq_ok made
  exact ⟨n, raw, flags, default, type, c, node, entries, visited, typed, rfl, facts⟩

theorem tablePart_eq_table (made : tablePart r payload = .ok p) : ∃ t, p = .table t := by
  rw [tablePart_eq] at made
  iterate 5 obtain ⟨_, -, made⟩ := bind_eq_ok.1 made
  obtain ⟨t, rfl, -⟩ := tableOf_eq_ok made
  exact ⟨t, rfl⟩

theorem foreignKeyPart_eq_foreignKey (made : foreignKeyPart r payload = .ok p) :
    ∃ k, p = .foreignKey k := by
  rw [foreignKeyPart_eq] at made
  iterate 6 obtain ⟨_, -, made⟩ := bind_eq_ok.1 made
  unfold foreignKeyOf at made
  iterate 2 obtain ⟨_, -, made⟩ := bind_eq_ok.1 made
  cases made
  exact ⟨_, rfl⟩

theorem indexPart_eq_index (made : indexPart r payload = .ok p) : ∃ i, p = .index i := by
  rw [indexPart_eq] at made
  iterate 5 obtain ⟨_, -, made⟩ := bind_eq_ok.1 made
  rw [Value.require_eq_ok] at made
  simp only [Option.bind_eq_bind, Option.bind_eq_some_iff, Option.some.injEq] at made
  obtain ⟨_, -, _, -, _, -, rfl⟩ := made
  exact ⟨_, rfl⟩

theorem flagsPart_eq_value (made : flagsPart r payload = .ok p) : ∃ v, p = .value v := by
  unfold flagsPart at made
  split at made
  · split at made
    · obtain ⟨_, -, made⟩ := bind_eq_ok.1 made
      cases made
      exact ⟨_, rfl⟩
    · cases made
  · cases made
    exact ⟨_, rfl⟩

/-- What is made of a node is a part of its kind or plain data, unless the node is that of a
type. -/
theorem handle_cases (made : handle r tag payload = .ok p) (other : tag ≠ .type) :
    tagOf? p = some tag ∨ ∃ v, p = .value v := by
  rw [handle.eq_def] at made
  cases tag with
  | table =>
    obtain ⟨t, rfl⟩ := tablePart_eq_table made
    exact .inl rfl
  | column =>
    obtain ⟨_, _, _, _, _, c, -, -, -, -, rfl, -⟩ := columnPart_eq_ok made
    exact .inl rfl
  | foreignKey =>
    obtain ⟨_, rfl⟩ := foreignKeyPart_eq_foreignKey made
    exact .inl rfl
  | index =>
    obtain ⟨_, rfl⟩ := indexPart_eq_index made
    exact .inl rfl
  | flags => exact .inr (flagsPart_eq_value made)
  | identifier =>
    obtain ⟨_, -, made⟩ := bind_eq_ok.1 made
    cases made
    exact .inr ⟨_, rfl⟩
  | default =>
    obtain ⟨_, -, made⟩ := bind_eq_ok.1 made
    cases made
    exact .inr ⟨_, rfl⟩
  | enum =>
    obtain ⟨_, -, made⟩ := bind_eq_ok.1 made
    cases made
    exact .inr ⟨_, rfl⟩
  | array =>
    iterate 2 obtain ⟨_, -, made⟩ := bind_eq_ok.1 made
    cases made
    exact .inr ⟨_, rfl⟩
  | type => exact absurd rfl other

/-- A part that is built comes from a node of its kind. -/
theorem eq_of_tagOf? {k : Tag} (made : handle r tag payload = .ok p) (other : tag ≠ .type)
    (kind : tagOf? p = some k) : tag = k := by
  rcases handle_cases made other with same | ⟨v, rfl⟩
  · exact Option.some.inj (same.symm.trans kind)
  · cases kind

end Table

end Schemata
