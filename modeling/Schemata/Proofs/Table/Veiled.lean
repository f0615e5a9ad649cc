/-
Nodes under unknown words.

A node with an unknown word is its payload, so that a tree may be annotated: a node is put
under a word that means nothing, and the table is the same. `Veils` lists the places where
this holds, one for each way in which a reader comes to a node by a visit. A reader that looks
at a node itself must be asked what it makes of a veil, and some readers make nothing of it:
the flags of a column are taken out of one node and no more, and a default or a type that
stands alone is read by the rules of the dialect only as long as it does stand alone.

What a veil does is shown for one step (`visit_of_veils`), and follows for any number of them.
-/
import Mathlib
import Schemata.Proofs.Table.Visit

namespace Schemata.Table

open Value (tagged)

variable {r : Rules} {v w : Value}

/-! ## Veils -/

/-- The handler of a node comes to a component by a visit. A component that may be absent is
visited only if it counts as present, and a component that may stand alone only if it does
not. -/
def Tag.Visits : Tag → Nat → Value → Prop
  | .table, 0, _ => True
  | .table, _, v => v.isTruthy = true ∨ v = .list []
  | .column, 0, _ => True
  | .column, 1, v => v.tagged?.isSome = true
  | .foreignKey, _, _ => True
  | .index, _, _ => True
  | _, _, _ => False

/-- The flags of a column, in a node or alone. -/
def flagsNode : Option String → Value → Value
  | none, flags => flags
  | some word, flags => tagged word flags

/-- One node of a tree was put under an unknown word. -/
inductive Veils (r : Rules) : Value → Value → Prop
  | veil {word : String} (unknown : Tag.ofWord? r word = none) (v : Value) :
      Veils r v (tagged word v)
  | under {word : String} {v w : Value} (unknown : Tag.ofWord? r word = none)
    (h : Veils r v w) :
      Veils r (tagged word v) (tagged word w)
  | item {v w : Value} (xs ys : List Value) (h : Veils r v w) :
      Veils r (.list (xs ++ v :: ys)) (.list (xs ++ w :: ys))
  | component {word : String} {t : Tag} {v w : Value} (xs ys : List Value)
      (known : Tag.ofWord? r word = some t) (visits : t.Visits xs.length v)
      (h : Veils r v w) :
      Veils r (tagged word (.list (xs ++ v :: ys))) (tagged word (.list (xs ++ w :: ys)))
  /-- A value among the flags of a foreign key or of an index. -/
  | flag {word : String} {k v w : Value} (es fs : List (Value × Value))
      (known : Tag.ofWord? r word = some .flags) (h : Veils r v w) :
      Veils r (tagged word (.dict (es ++ (k, v) :: fs)))
        (tagged word (.dict (es ++ (k, w) :: fs)))
  /-- A value among the flags of a column: a default only if it does not stand alone. -/
  | columnFlag {word : String} {k v w name type : Value} (node : Option String)
      (es fs : List (Value × Value)) (rest : List Value)
      (known : Tag.ofWord? r word = some .column)
      (visits : k.same (.text "default") = false ∨ v.tagged?.isSome = true)
      (h : Veils r v w) :
      Veils r (tagged word
        (.list (name :: type :: flagsNode node (.dict (es ++ (k, v) :: fs)) :: rest)))
        (tagged word
          (.list (name :: type :: flagsNode node (.dict (es ++ (k, w) :: fs)) :: rest)))
  /-- The flags of a column, if they stand alone. -/
  | columnFlags {word word' : String} {name type flags : Value} (rest : List Value)
      (known : Tag.ofWord? r word = some .column) (unknown : Tag.ofWord? r word' = none)
      (alone : flags.tagged? = none) :
      Veils r (tagged word (.list (name :: type :: flags :: rest)))
        (tagged word (.list (name :: type :: tagged word' flags :: rest)))
  /-- A node inside a type, or the type of the members of an array. -/
  | member {word : String} {t : Tag} {v w : Value} (known : Tag.ofWord? r word = some t)
      (type : t = .type ∨ t = .array) (node : v.tagged?.isSome = true) (h : Veils r v w) :
      Veils r (tagged word v) (tagged word w)

namespace Veils

/-- What comes out of a veil counts as present. -/
theorem isTruthy (h : Veils r v w) : w.isTruthy = true := by
  cases h with
  | item xs ys _ => cases xs <;> rfl
  | _ => rfl

/-- A node stays a node. -/
theorem isSome_tagged (h : Veils r v w) (node : v.tagged?.isSome = true) :
    w.tagged?.isSome = true := by
  cases h with
  | item xs ys _ => cases node
  | _ => rfl

end Veils

/-! ## Places in lists -/

theorem mapM_replace {α β : Type} {f : α → Except Fault β} {x y : α} (h : f y = f x)
    (xs ys : List α) : (xs ++ y :: ys).mapM f = (xs ++ x :: ys).mapM f := by
  rw [List.mapM_append, List.mapM_append, List.mapM_cons, List.mapM_cons, h]

/-- A reader that makes the same of one component makes the same of all. -/
theorem component_replace {β : Type} {f : Value → β} {xs : List Value} {i : ℕ}
    (h : i = xs.length → f w = f v) (ys : List Value) :
    f (component (xs ++ w :: ys) i) = f (component (xs ++ v :: ys) i) := by
  by_cases hi : i = xs.length
  · subst hi
    simpa [component] using h rfl
  · have same : component (xs ++ w :: ys) i = component (xs ++ v :: ys) i := by
      unfold component
      rcases Nat.lt_or_gt_of_ne hi with before | after
      · rw [List.getElem?_append_left before, List.getElem?_append_left before]
      · obtain ⟨k, rfl⟩ := Nat.exists_eq_add_of_lt after
        rw [List.getElem?_append_right (by omega), List.getElem?_append_right (by omega)]
        simp [show xs.length + k + 1 - xs.length = k + 1 by omega]
    rw [same]

theorem visit_component_replace (xs ys : List Value) (same : visit r w = visit r v) (i : ℕ) :
    visit r (component (xs ++ w :: ys) i) = visit r (component (xs ++ v :: ys) i) :=
  component_replace (f := visit r) (fun _ => same) ys

/-! ## What a veil leaves -/

theorem tablePart_replace {xs : List Value} (ys : List Value) (same : visit r w = visit r v)
    (truthy : w.isTruthy = true) (visits : Tag.table.Visits xs.length v) :
    tablePart r (.list (xs ++ w :: ys)) = tablePart r (.list (xs ++ v :: ys)) := by
  have name := visit_component_replace xs ys same 0
  have list : ∀ i, i ≠ 0 → listComponent r (component (xs ++ w :: ys) i) =
      listComponent r (component (xs ++ v :: ys) i) := by
    intro i hi
    refine component_replace (f := listComponent r) (fun at_ => ?_) ys
    rw [listComponent_of_truthy truthy, same]
    cases i with
    | zero => exact absurd rfl hi
    | succ i =>
      rw [← at_] at visits
      rcases visits with present | rfl
      · rw [listComponent_of_truthy present]
      · rw [listComponent_list]
  have long : (xs ++ w :: ys).length = (xs ++ v :: ys).length := by simp
  simp only [tablePart_eq, TableNode.ofPayload, Value.items, Value.items?, ok_bind, long]
  split
  · rfl
  · simp only [ok_bind, name, list 1 (by decide), list 2 (by decide), list 3 (by decide)]

theorem columnPart_replace {xs : List Value} (ys : List Value) (same : visit r w = visit r v)
    (node : v.tagged?.isSome = true → w.tagged?.isSome = true)
    (visits : Tag.column.Visits xs.length v) :
    columnPart r (.list (xs ++ w :: ys)) = columnPart r (.list (xs ++ v :: ys)) := by
  have name := visit_component_replace xs ys same 0
  have type : typeComponent r (component (xs ++ w :: ys) 1) =
      typeComponent r (component (xs ++ v :: ys) 1) := by
    refine component_replace (f := typeComponent r) (fun at_ => ?_) ys
    rw [← at_] at visits
    rw [typeComponent_of_tagged visits, typeComponent_of_tagged (node visits), same]
  have flags : component (xs ++ w :: ys) 2 = component (xs ++ v :: ys) 2 := by
    refine component_replace (f := id) (fun at_ => ?_) ys
    rw [← at_] at visits
    exact visits.elim
  have long : (xs ++ w :: ys).length = (xs ++ v :: ys).length := by simp
  simp only [columnPart_eq, ColumnNode.ofPayload, Value.items, Value.items?, ok_bind, long]
  split
  · rfl
  · simp only [ok_bind, name, type, flags]

theorem foreignKeyPart_replace (xs ys : List Value) (same : visit r w = visit r v) :
    foreignKeyPart r (.list (xs ++ w :: ys)) = foreignKeyPart r (.list (xs ++ v :: ys)) := by
  have long : (xs ++ w :: ys).length = (xs ++ v :: ys).length := by simp
  simp only [foreignKeyPart_eq, ForeignKeyNode.ofPayload, Value.items, Value.items?,
    ok_bind, long]
  split
  · rfl
  · simp only [ok_bind, visit_component_replace xs ys same]

theorem indexPart_replace (xs ys : List Value) (same : visit r w = visit r v) :
    indexPart r (.list (xs ++ w :: ys)) = indexPart r (.list (xs ++ v :: ys)) := by
  have long : (xs ++ w :: ys).length = (xs ++ v :: ys).length := by simp
  simp only [indexPart_eq, IndexNode.ofPayload, Value.items, Value.items?, ok_bind, long]
  split
  · rfl
  · simp only [ok_bind, visit_component_replace xs ys same]

/-! ### Flags -/

theorem rawFlags_flagsNode (node : Option String) (es : List (Value × Value)) :
    rawFlags (flagsNode node (.dict es)) = .ok es := by
  cases node <;> cases es <;> rfl

theorem visitEntry_congr (k : Value) (same : visit r w = visit r v) :
    visitEntry r (k, w) = visitEntry r (k, v) := by
  simp only [visitEntry, same]

theorem visitFlags_replace {k : Value} (es fs : List (Value × Value))
    (same : visit r w = visit r v) :
    (Value.drop (es ++ (k, w) :: fs) "default").mapM (visitEntry r) =
      (Value.drop (es ++ (k, v) :: fs) "default").mapM (visitEntry r) := by
  simp only [Value.drop, List.filter_append, List.filter_cons]
  split
  · exact mapM_replace (visitEntry_congr k same) _ _
  · rfl

theorem defaultComponent_replace {k : Value} (es fs : List (Value × Value))
    (same : visit r w = visit r v) (node : v.tagged?.isSome = true → w.tagged?.isSome = true)
    (visits : k.same (.text "default") = false ∨ v.tagged?.isSome = true) :
    defaultComponent r (Value.getD (es ++ (k, w) :: fs) "default") =
      defaultComponent r (Value.getD (es ++ (k, v) :: fs) "default") := by
  simp only [Value.getD, Value.get?, Value.find?, List.find?_append, List.find?_cons]
  cases es.find? (fun e => e.1.same (.text "default")) with
  | some e => rfl
  | none =>
    cases h : k.same (.text "default") with
    | false => rfl
    | true =>
      have tagged : v.tagged?.isSome = true := by simpa [h] using visits
      show defaultComponent r w = defaultComponent r v
      rw [defaultComponent_of_tagged tagged, defaultComponent_of_tagged (node tagged), same]

/-! ### Nodes -/

/-- A node is visited as before if a component is, and it still is what the handler asks of
it. -/
theorem visit_component {word : String} {t : Tag} (xs ys : List Value)
    (known : Tag.ofWord? r word = some t) (visits : t.Visits xs.length v)
    (same : visit r w = visit r v) (truthy : w.isTruthy = true)
    (node : v.tagged?.isSome = true → w.tagged?.isSome = true) :
    visit r (tagged word (.list (xs ++ w :: ys))) =
      visit r (tagged word (.list (xs ++ v :: ys))) := by
  rw [visit_known known, visit_known known, handle.eq_def, handle.eq_def]
  cases t with
  | table => exact tablePart_replace ys same truthy visits
  | column => exact columnPart_replace ys same node visits
  | foreignKey => exact foreignKeyPart_replace xs ys same
  | index => exact indexPart_replace xs ys same
  | _ => exact visits.elim

theorem visit_flag {word : String} (k : Value) (es fs : List (Value × Value))
    (known : Tag.ofWord? r word = some .flags) (same : visit r w = visit r v) :
    visit r (tagged word (.dict (es ++ (k, w) :: fs))) =
      visit r (tagged word (.dict (es ++ (k, v) :: fs))) := by
  rw [visit_known known, visit_known known, handle.eq_def, handle.eq_def]
  simp only
  rw [flagsPart_dict, flagsPart_dict, mapM_replace (visitEntry_congr k same)]

theorem visit_columnFlag {word : String} {k : Value} (name type : Value)
    (node : Option String)
    (es fs : List (Value × Value)) (rest : List Value)
    (known : Tag.ofWord? r word = some .column)
    (visits : k.same (.text "default") = false ∨ v.tagged?.isSome = true)
    (same : visit r w = visit r v)
    (kept : v.tagged?.isSome = true → w.tagged?.isSome = true) :
    visit r (tagged word
        (.list (name :: type :: flagsNode node (.dict (es ++ (k, w) :: fs)) :: rest))) =
      visit r (tagged word
        (.list (name :: type :: flagsNode node (.dict (es ++ (k, v) :: fs)) :: rest))) := by
  rw [visit_known known, visit_known known, handle.eq_def, handle.eq_def]
  simp only
  rw [columnPart_list, columnPart_list, rawFlags_flagsNode, rawFlags_flagsNode,
    ok_bind, ok_bind, visitFlags_replace es fs same,
    defaultComponent_replace es fs same kept visits]

/-- A node inside a type is visited, or not looked at. -/
theorem typePart_replace (same : visit r w = visit r v) (node : v.tagged?.isSome = true)
    (node' : w.tagged?.isSome = true) : typePart r w = typePart r v := by
  have bytes {u : Value} (node : u.tagged?.isSome = true) :
      typePart (some .sqlite) u = .ok (.value (.text "binary")) := by
    unfold Value.tagged? at node
    split at node
    · rw [typePart]
      rfl
    · cases node
  cases r with
  | none => rw [typePart, typePart, same]
  | some d =>
    cases d with
    | postgres => rw [typePart_of_tagged node', typePart_of_tagged node, same]
    | sqlite => rw [bytes node', bytes node]

theorem visit_member {word : String} {t : Tag} (known : Tag.ofWord? r word = some t)
    (type : t = .type ∨ t = .array) (same : visit r w = visit r v)
    (node : v.tagged?.isSome = true) (node' : w.tagged?.isSome = true) :
    visit r (tagged word w) = visit r (tagged word v) := by
  have types := typePart_replace same node node'
  rw [visit_known known, visit_known known, handle.eq_def, handle.eq_def]
  rcases type with rfl | rfl
  · exact types
  · simp only [types]

/-- A tree and the tree with one veil more are visited alike. -/
theorem visit_of_veils (h : Veils r v w) : visit r w = visit r v := by
  induction h with
  | veil unknown v => exact visit_unknown unknown v
  | under unknown _ ih => rw [visit_unknown unknown, visit_unknown unknown, ih]
  | item xs ys _ ih => rw [visit_list, visit_list, mapM_replace ih]
  | component xs ys known visits h ih =>
    exact visit_component xs ys known visits ih h.isTruthy h.isSome_tagged
  | flag es fs known _ ih => exact visit_flag _ es fs known ih
  | columnFlag node es fs rest known visits h ih =>
    exact visit_columnFlag _ _ node es fs rest known visits ih h.isSome_tagged
  | columnFlags rest known unknown alone =>
    rw [visit_known known, visit_known known, handle.eq_def, handle.eq_def]
    simp only
    rw [columnPart_list, columnPart_list, rawFlags, rawFlags, payloadOf, payloadOf, alone]
    rfl
  | member known type node h ih =>
    exact visit_member known type ih node (h.isSome_tagged node)

/-! ## What a veil changes -/

/-- The flags of a column are taken out of one node: under one word more they are read as a
sequence of pairs, and the word of their node is no pair. -/
theorem visit_veiledFlags (word : String) (name type : Value) (es : List (Value × Value))
    (rest : List Value) :
    visit r (tagged "column"
      (.list (name :: type :: tagged word (tagged "meta" (.dict es)) :: rest))) =
      .error .badValue := by
  have refused : rawFlags (tagged word (tagged "meta" (.dict es))) = .error .badValue := by
    rfl
  rw [visit_column, columnPart_list, refused, error_bind]

/-- A default that stands alone is read by the rules of the dialect; under an unknown word it
is what a visit makes of it. -/
theorem visit_veiledDefault {word : String} (unknown : Tag.ofWord? r word = none)
    {name type default : Value} {es fs : List (Value × Value)} {rest : List Value} {p : Part}
    {c : Column} (first : Value.get? es "default" = none) (visited : visit r default = .ok p)
    (h : visit r (tagged "column" (.list (name :: type ::
      tagged "meta" (.dict (es ++ (.text "default", default) :: fs)) :: rest))) =
        .ok (.column c)) :
    visit r (tagged "column" (.list (name :: type ::
      tagged "meta" (.dict (es ++ (.text "default", tagged word default) :: fs)) :: rest))) =
        .ok (.column { c with default := p.toValue }) := by
  have raw (d : Value) : rawFlags (tagged "meta" (.dict (es ++ (.text "default", d) :: fs))) =
      .ok (es ++ (.text "default", d) :: fs) := rawFlags_flagsNode (some "meta") _
  have dropped (d : Value) : Value.drop (es ++ (.text "default", d) :: fs) "default" =
      Value.drop (es ++ fs) "default" := by
    simp [Value.drop, Value.same_text]
  have own (d : Value) : Value.getD (es ++ (.text "default", d) :: fs) "default" = d := by
    simp only [Value.get?, Value.find?, Option.map_eq_none_iff] at first
    simp [Value.getD, Value.get?, Value.find?, List.find?_append, first, Value.same_text]
  have veiled : defaultComponent r (tagged word default) = .ok p.toValue := by
    rw [defaultComponent_of_tagged rfl, visit_unknown unknown, visited, ok_bind]
  rw [visit_column, columnPart_list, raw, ok_bind, dropped, own] at h ⊢
  rw [veiled]
  obtain ⟨flags, hflags, h⟩ := bind_eq_ok.1 h
  obtain ⟨d, -, h⟩ := bind_eq_ok.1 h
  obtain ⟨n, hname, h⟩ := bind_eq_ok.1 h
  obtain ⟨t, htype, h⟩ := bind_eq_ok.1 h
  rw [hflags, ok_bind, ok_bind, hname, ok_bind, htype, ok_bind]
  exact columnOf_default h

/-! ### Types -/

/-- What is neither a node nor a list, and is left as it is by a visit. -/
def IsLeaf (v : Value) : Prop :=
  v.tagged? = none ∧ ∀ xs, v ≠ .list xs

theorem isLeaf_text (s : String) : IsLeaf (.text s) :=
  ⟨rfl, by simp⟩

theorem isLeaf_null : IsLeaf .null :=
  ⟨rfl, by simp⟩

theorem type?_text (s : String) : (Value.text s).type? = some (.named s) :=
  type?_toValue (.named s)

theorem type?_null : Value.null.type? = none := by
  simp [Value.type?, Value.text?, Value.word?]

/-- The places at which a column has a type that is no node. With each goes the type of a
column whose dialect reads a value there, and the type, if any, of one whose dialect finds the
value there under an unknown word. Under such a word it is not read: it is a type as it is, or
it is none. Postgres comes through nodes to it, and SQLite takes for bytes whatever node there
is. -/
inductive NamesType : Dialect → (Value → Value) → (Value → FieldType) →
    (Value → Option FieldType) → Prop
  | postgres : NamesType .postgres id Postgres.typeOf Value.type?
  | sqlite : NamesType .sqlite id Sqlite.typeOf Value.type?
  | bytes : NamesType .sqlite (tagged "type") Sqlite.typeOf fun _ => some (.named "binary")
  | type {place : Value → Value} {read : Value → FieldType}
      {veiled : Value → Option FieldType} (h : NamesType .postgres place read veiled) :
      NamesType .postgres (fun v => tagged "type" (place v)) read veiled
  | member {place : Value → Value} {read : Value → FieldType}
      {veiled : Value → Option FieldType} (h : NamesType .postgres place read veiled) :
      NamesType .postgres (fun v => tagged "array" (place v)) (fun v => .array (read v))
        fun v => (veiled v).map .array

theorem typeComponent_type (v : Value) :
    typeComponent (some .postgres) (tagged "type" v) = typeComponent (some .postgres) v := by
  rw [typeComponent_of_tagged rfl, visit_type, typeComponent_postgres]

theorem typeComponent_array (v : Value) :
    typeComponent (some .postgres) (tagged "array" v) =
      (typeComponent (some .postgres) v >>= fun p => Value.require p.toValue.type?) >>=
        fun t => .ok (.value (FieldType.array t).toValue) := by
  rw [typeComponent_of_tagged rfl, visit_known (t := .array) rfl, handle.eq_def,
    typeComponent_postgres]
  simp only [bind_assoc]
  rfl

/-- A type that stands under an unknown word is not read. -/
theorem NamesType.typeComponent_eq {d : Dialect} {place : Value → Value}
    {read : Value → FieldType} {veiled : Value → Option FieldType}
    (h : NamesType d place read veiled) {word : String}
    (unknown : Tag.ofWord? (some d) word = none) {v : Value} (leaf : IsLeaf v) :
    typeComponent (some d) (place v) = .ok (.value (read v).toValue) ∧
      (typeComponent (some d) (place (tagged word v)) >>= fun p =>
        Value.require p.toValue.type?) = Value.require (veiled v) := by
  have alone : (typeComponent (some d) (tagged word v) >>= fun p =>
      Value.require p.toValue.type?) = Value.require v.type? := by
    rw [typeComponent_of_tagged rfl, visit_unknown unknown, visit_leaf leaf.1 leaf.2]
    rfl
  induction h with
  | postgres => exact ⟨by rw [id, typeComponent_postgres, typePart, leaf.1], alone⟩
  | sqlite => exact ⟨by rw [id, typeComponent, leaf.1, typePart], alone⟩
  | bytes =>
    rw [typeComponent_of_tagged rfl, typeComponent_of_tagged rfl, visit_type, visit_type,
      typePart, typePart, ok_bind, Part.toValue, type?_toValue, Sqlite.typeOf]
    exact ⟨rfl, rfl⟩
  | type _ ih =>
    rw [typeComponent_type, typeComponent_type]
    exact ih unknown alone
  | @member place read veiled _ ih =>
    obtain ⟨own, under⟩ := ih unknown alone
    rw [typeComponent_array, typeComponent_array, own, under]
    constructor
    · rw [ok_bind, Part.toValue, type?_toValue]
      rfl
    · simp only [bind_assoc, ok_bind, Part.toValue, type?_toValue, Value.require_map]
      rfl

/-- So the column has another type, if the dialect calls it by another name, or has none. -/
theorem visit_veiledType {d : Dialect} {place : Value → Value} {read : Value → FieldType}
    {veiled : Value → Option FieldType} (places : NamesType d place read veiled)
    {word : String} (unknown : Tag.ofWord? (some d) word = none) {name v : Value}
    {rest : List Value} {c : Column} (leaf : IsLeaf v)
    (h : visit (some d) (tagged "column" (.list (name :: place v :: rest))) =
      .ok (.column c)) :
    c.type = read v ∧
      visit (some d) (tagged "column" (.list (name :: place (tagged word v) :: rest))) =
        Value.require ((veiled v).map fun t => .column { c with type := t }) := by
  obtain ⟨own, under⟩ := places.typeComponent_eq unknown leaf
  rw [visit_column, columnPart_cons] at h ⊢
  obtain ⟨raw, hraw, h⟩ := bind_eq_ok.1 h
  obtain ⟨flags, hflags, h⟩ := bind_eq_ok.1 h
  obtain ⟨d, hdefault, h⟩ := bind_eq_ok.1 h
  obtain ⟨n, hname, h⟩ := bind_eq_ok.1 h
  rw [own, ok_bind] at h
  rw [hraw, ok_bind, hflags, ok_bind, hdefault, ok_bind, hname, ok_bind]
  obtain ⟨c', same, typed, -⟩ := columnOf_eq_ok h
  obtain rfl := Part.column.inj same
  rw [Part.toValue, type?_toValue] at typed
  refine ⟨(Option.some.inj typed).symm, ?_⟩
  -- Whatever the visit makes of the veiled type, the column requires a type of it.
  simp only [columnOf_type h, Value.require_map, ← bind_assoc, under]

/-! ## Tables -/

/-- A table is built from a tree under any number of veils as it is built from the tree. Where
a reader takes a node for itself, a veil is seen: flags of a column that have a node of their
own are refused under one more, a default that stands alone is no longer read as an
expression, and a type that is no node is no longer read as one. -/
theorem build_veiled {dialect : Value} {d : Dialect} (found : Registry.find dialect = .ok d) :
    (∀ {v w : Value} {t : Table}, Relation.ReflTransGen (Veils (some d)) v w →
      build v dialect = .ok t → build w dialect = .ok t) ∧
    ∀ word, Tag.ofWord? (some d) word = none →
      (∀ name type es rest, visit (some d) (tagged "column" (.list (name :: type ::
        tagged word (tagged "meta" (.dict es)) :: rest))) = .error .badValue) ∧
      (∀ name type es fs rest default p c, Value.get? es "default" = none →
        visit (some d) default = .ok p →
        visit (some d) (tagged "column" (.list (name :: type ::
          tagged "meta" (.dict (es ++ (.text "default", default) :: fs)) :: rest))) =
            .ok (.column c) →
        visit (some d) (tagged "column" (.list (name :: type ::
          tagged "meta" (.dict (es ++ (.text "default", tagged word default) :: fs)) ::
            rest))) =
            .ok (.column { c with default := p.toValue })) ∧
      ∀ place read veiled, NamesType d place read veiled → ∀ name v rest c, IsLeaf v →
        visit (some d) (tagged "column" (.list (name :: place v :: rest))) =
            .ok (.column c) →
        c.type = read v ∧
          visit (some d) (tagged "column" (.list (name :: place (tagged word v) :: rest))) =
            Value.require ((veiled v).map fun t => .column { c with type := t }) := by
  refine ⟨fun {v w t} veils built => ?_, fun word unknown => ⟨?_, ?_, ?_⟩⟩
  · have alike : visit (some d) w = visit (some d) v := by
      induction veils with
      | refl => rfl
      | tail _ step ih => rw [visit_of_veils step, ih]
    rw [build, found, ok_bind] at built ⊢
    rw [alike]
    obtain ⟨p, visited, built⟩ := bind_eq_ok.1 built
    rw [visited, ok_bind]
    cases p with
    | table t' => exact built
    | _ => cases built
  · exact fun name type es rest => visit_veiledFlags word name type es rest
  · exact fun name type es fs rest default p c first visited =>
      visit_veiledDefault unknown first visited
  · exact fun place read veiled places name v rest c leaf made =>
      visit_veiledType places unknown leaf made

/-! ### A table of ranks -/

/-- A column of ranks. -/
def rankColumn (type flags : Value) : Value :=
  tagged "column" (.list [tagged "identifier" (.text "rank"), type, flags])

/-- The type of ranks that are one of two words. -/
def rankType : Value :=
  tagged "type" (tagged "enum" (.list [.text "1", .text "42"]))

/-- Flags that hold a default alone. -/
def defaultFlags (default : Value) : Value :=
  tagged "meta" (.dict [(.text "default", default)])

/-- The tree of the table, with its name and its column. -/
def ranksTree (name column : Value) : Value :=
  tagged "table" (.list [name, .list [column], .list [], .list []])

/-- The column that is built of a type and a default. -/
def rank (type : FieldType) (default : Value) : Column where
  name := "rank"
  type := type
  default := default

theorem visit_rankColumn {type default d : Value} {t : FieldType}
    (typed : typeComponent (some .postgres) type = .ok (.value t.toValue))
    (read : defaultComponent (some .postgres) default = .ok d) :
    visit (some .postgres) (rankColumn type (defaultFlags default)) =
      .ok (.column (rank t d)) := by
  have raw : rawFlags (defaultFlags default) = .ok [(.text "default", default)] :=
    rawFlags_flagsNode (some "meta") _
  have dropped : Value.drop [(.text "default", default)] "default" = [] := by
    simp [Value.drop, Value.same_text]
  have own : Value.getD [(.text "default", default)] "default" = default := by
    simp [Value.getD, Value.get?_cons, Value.word?]
  rw [rankColumn, visit_column, columnPart_list, raw, ok_bind, dropped, own, read,
    visit_identifier, typed]
  simp [columnOf, rank, Value.any_put, Value.withDefault, Value.get?_put, Value.getD_put_self,
    Part.toValue, type?_toValue, Value.require]

theorem build_ranksTree {column : Value} {c : Column}
    (visited : visit (some .postgres) column = .ok (.column c)) :
    build (ranksTree (tagged "identifier" (.text "ranks")) column) (.dialect .postgres) =
      .ok ⟨"ranks", .postgres, [c], [], []⟩ := by
  have none : listComponent (some .postgres) (.list []) = .ok (.items []) := by
    rw [listComponent]
    rfl
  have found : Registry.find (.dialect .postgres) = .ok .postgres := rfl
  rw [build, found, ok_bind, ranksTree, visit_table, tablePart_list, visit_identifier,
    listComponent_list, visit_list, none, List.mapM_cons, visited]
  rfl

theorem visit_rankWords :
    visit (some .postgres) (rankColumn rankType (defaultFlags (.text "42"))) =
    .ok (.column (rank (.enum ["1", "42"]) (.int 42))) := by
  refine visit_rankColumn ?_ ((defaultComponent_of_plain rfl).trans rfl)
  rw [rankType, typeComponent_type, typeComponent_of_tagged rfl, visit_known (t := .enum) rfl,
    handle.eq_def]
  rfl

/-- Postgres has no node of this word. -/
theorem unknown_x : Tag.ofWord? (some .postgres) "x" = none := by
  decide

/-- A type that is no node, in a column of ranks. -/
theorem visit_rankNamed {place : Value → Value} {read : Value → FieldType}
    {veiled : Value → Option FieldType} (places : NamesType .postgres place read veiled)
    {v : Value} (leaf : IsLeaf v) :
    visit (some .postgres) (rankColumn (place v) (defaultFlags .null)) =
      .ok (.column (rank (read v) .null)) :=
  visit_rankColumn (places.typeComponent_eq unknown_x leaf).1
    ((defaultComponent_of_plain rfl).trans rfl)

/-- The name and the column are veiled and the table is the same; a veil over the flags is
refused, one over the default or over the name of the type of members is seen, and one over a
missing type is refused. -/
theorem build_veiled_ranks :
    build (ranksTree (tagged "x" (tagged "identifier" (.text "ranks")))
        (tagged "y" (rankColumn rankType (defaultFlags (.text "42"))))) (.dialect .postgres) =
      .ok ⟨"ranks", .postgres, [rank (.enum ["1", "42"]) (.int 42)], [], []⟩ ∧
    visit (some .postgres) (rankColumn rankType (tagged "x" (defaultFlags (.text "42")))) =
      .error .badValue ∧
    visit (some .postgres) (rankColumn rankType (defaultFlags (tagged "x" (.text "42")))) =
      .ok (.column (rank (.enum ["1", "42"]) (.text "42"))) ∧
    visit (some .postgres) (rankColumn (tagged "array" (tagged "x" (.text "int4")))
        (defaultFlags .null)) =
      .ok (.column (rank (.array (.named "int4")) .null)) ∧
    visit (some .postgres) (rankColumn (tagged "x" .null) (defaultFlags .null)) =
      .error .invalid := by
  have registered : Registry.find (.dialect .postgres) = .ok .postgres := rfl
  obtain ⟨transparent, seen⟩ := build_veiled (d := .postgres) registered
  obtain ⟨flags, default, type⟩ := seen "x" unknown_x
  have name (column : Value) : Veils (some .postgres)
      (ranksTree (tagged "identifier" (.text "ranks")) column)
      (ranksTree (tagged "x" (tagged "identifier" (.text "ranks"))) column) :=
    .component (t := .table) [] _ rfl trivial (.veil unknown_x _)
  have column (name column : Value) : Veils (some .postgres) (ranksTree name column)
      (ranksTree name (tagged "y" column)) :=
    .component (t := .table) [name] _ rfl (.inl rfl) (.item [] [] (.veil (by decide) _))
  have members : NamesType .postgres (tagged "array") _ _ := .member .postgres
  refine ⟨?_, flags _ _ _ _, ?_, ?_, ?_⟩
  · exact transparent (.tail (.single (name _)) (column _ _))
      (build_ranksTree visit_rankWords)
  · exact default _ _ [] [] _ _ _ _ rfl (visit_text _) visit_rankWords
  · have int4 := visit_rankNamed members (isLeaf_text "int4")
    exact (type _ _ _ members _ _ _ _ (isLeaf_text _) int4).2.trans (by rw [type?_text]; rfl)
  · have missing := visit_rankNamed .postgres isLeaf_null
    exact (type _ _ _ .postgres _ _ _ _ isLeaf_null missing).2.trans
      (by rw [type?_null]; rfl)

/-- A veil over the flags of a column makes a tree that has a table one that has none. A veil
over the name of a type makes it the tree of another table. -/
theorem not_transparent_flags :
    Tag.ofWord? (some .postgres) "x" = none ∧
    (build (ranksTree (tagged "identifier" (.text "ranks"))
        (rankColumn rankType (defaultFlags (.text "42")))) (.dialect .postgres) =
          .ok ⟨"ranks", .postgres, [rank (.enum ["1", "42"]) (.int 42)], [], []⟩ ∧
      build (ranksTree (tagged "identifier" (.text "ranks"))
        (rankColumn rankType (tagged "x" (defaultFlags (.text "42"))))) (.dialect .postgres) =
          .error .badValue) ∧
    build (ranksTree (tagged "identifier" (.text "ranks"))
        (rankColumn (.text "int4") (defaultFlags .null))) (.dialect .postgres) =
          .ok ⟨"ranks", .postgres, [rank (.named "integer") .null], [], []⟩ ∧
      build (ranksTree (tagged "identifier" (.text "ranks"))
        (rankColumn (tagged "x" (.text "int4")) (defaultFlags .null))) (.dialect .postgres) =
          .ok ⟨"ranks", .postgres, [rank (.named "int4") .null], [], []⟩ := by
  have integer : Postgres.typeOf (.text "int4") = .named "integer" := by cbv
  have named := visit_rankNamed .postgres (isLeaf_text "int4")
  have veiled := (visit_veiledType .postgres unknown_x (isLeaf_text _) named).2
  rw [type?_text] at veiled
  rw [integer] at named
  refine ⟨unknown_x, ⟨build_ranksTree visit_rankWords, ?_⟩, build_ranksTree named,
    build_ranksTree veiled⟩
  have found : Registry.find (.dialect .postgres) = .ok .postgres := rfl
  rw [build, found, ok_bind, ranksTree, visit_table, tablePart_list, visit_identifier,
    listComponent_list, visit_list, List.mapM_cons, rankColumn, defaultFlags,
    visit_veiledFlags]
  rfl

end Schemata.Table
