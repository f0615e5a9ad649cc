/-
The columns of a built table and the nodes they are read from.

A table may stand under words that mean nothing and inside the node of a type, and so may each
of its columns. A visit comes to the node inside (`unwrapped`), and only from the node of a
table comes a table and from that of a column a column (`exists_node`). So the columns of
every table that is built come one by one from column nodes that the tree lists
(`columnNodes?`): each has what its own node says, and is marked besides if a foreign key of
the table is over it (`columns_of_build`).
-/
import Mathlib
import Schemata.Proofs.Table.Marked

namespace Schemata.Table

variable {r : Rules} {v payload : Value} {p : Part} {word : String} {tag : Tag}

/-! ## Nodes inside others -/

/-- A word that leaves its payload as it is: an unknown one, and that of a type around a
node. -/
def passes (word : String) (payload : Value) : Bool :=
  match Tag.ofWord? (some .postgres) word with
  | none => true
  | some .type => payload.tagged?.isSome
  | some _ => false

/-- What stands under words that leave it as it is. -/
def unwrapped (v : Value) : Value :=
  match _h : v.tagged? with
  | some (word, payload) => if passes word payload then unwrapped payload else v
  | none => v
termination_by v.depth
decreasing_by exact depth_tagged _h

/-- The payload of a node of this kind, whatever words it stands under. -/
def nodeOf? (tag : Tag) (v : Value) : Option Value :=
  match (unwrapped v).tagged? with
  | some (word, payload) =>
    if Tag.ofWord? (some .postgres) word = some tag then some payload else none
  | none => none

theorem visit_unwrapped (v : Value) :
    visit (some .postgres) (unwrapped v) = visit (some .postgres) v := by
  fun_induction unwrapped v with
  | case1 v word payload node passing ih =>
    rw [ih, visit_of_tagged? node]
    unfold passes at passing
    split at passing
    · rename_i unknown
      rw [unknown]
    · rename_i type
      rw [type]
      simp only [handle.eq_def]
      exact (typePart_of_tagged passing).symm
    · cases passing
  | case2 => rfl
  | case3 => rfl

/-- No more words can be taken off. -/
theorem passes_of_unwrapped (node : (unwrapped v).tagged? = some (word, payload)) :
    passes word payload = false := by
  fun_induction unwrapped v with
  | case1 v word payload _ _ ih => exact ih node
  | case2 v word payload own stays =>
    rw [own, Option.some.injEq, Prod.mk.injEq] at node
    obtain ⟨rfl, rfl⟩ := node
    simpa using stays
  | case3 v none =>
    rw [none] at node
    cases node

/-! ## Parts and their nodes -/

/-- A visit makes a list of a list, plain data of a leaf, and of a node what its handler
makes. -/
theorem visit_cases (made : visit (some .postgres) v = .ok p) :
    (∃ xs, unwrapped v = .list xs) ∨ (∃ w, p = .value w) ∨
      ∃ tag payload, nodeOf? tag v = some payload ∧ tag ≠ .type ∧
        handle (some .postgres) tag payload = .ok p := by
  rw [← visit_unwrapped] at made
  cases node : (unwrapped v).tagged? with
  | none =>
    by_cases list : ∃ xs, unwrapped v = .list xs
    · exact .inl list
    · rw [visit_leaf node fun xs same => list ⟨xs, same⟩] at made
      cases made
      exact .inr (.inl ⟨_, rfl⟩)
  | some inner =>
    obtain ⟨word, payload⟩ := inner
    have stays := passes_of_unwrapped node
    rw [visit_of_tagged? node] at made
    unfold passes at stays
    split at stays
    · cases stays
    · rename_i type
      -- What is no node in place of a type is read as one, and is no part of a table.
      have leaf : payload.tagged? = none := by simpa using stays
      rw [type] at made
      simp only [handle.eq_def, typePart, leaf] at made
      cases made
      exact .inr (.inl ⟨_, rfl⟩)
    · rename_i tag other known
      rw [known] at made
      exact .inr (.inr ⟨tag, payload, by rw [nodeOf?, node]; exact if_pos known, other, made⟩)

theorem exists_items (made : visit (some .postgres) v = .ok p) {xs : List Value}
    (list : unwrapped v = .list xs) :
    ∃ ps, p = .items ps ∧ xs.mapM (visit (some .postgres)) = .ok ps := by
  rw [← visit_unwrapped, list, visit_list] at made
  obtain ⟨ps, visited, made⟩ := bind_eq_ok.1 made
  cases made
  exact ⟨ps, rfl, visited⟩

/-- A part that is built comes from a node of its kind. -/
theorem exists_node {k : Tag} (made : visit (some .postgres) v = .ok p)
    (kind : tagOf? p = some k) :
    ∃ payload, nodeOf? k v = some payload ∧ handle (some .postgres) k payload = .ok p := by
  rcases visit_cases made with ⟨xs, list⟩ | ⟨w, rfl⟩ | ⟨tag, payload, node, other, made⟩
  · obtain ⟨ps, rfl, -⟩ := exists_items made list
    cases kind
  · cases kind
  · obtain rfl := eq_of_tagOf? made other kind
    exact ⟨payload, node, made⟩

theorem visit_of_nodeOf? (node : nodeOf? tag v = some payload) :
    visit (some .postgres) v = handle (some .postgres) tag payload := by
  unfold nodeOf? at node
  split at node
  · rename_i found
    split at node
    · rename_i known
      cases node
      rw [← visit_unwrapped, visit_of_tagged? found, known]
    · cases node
  · cases node

/-! ## What the node of a column says -/

/-- The truth value of a flag, if it is there and reads as one. -/
def ColumnNode.states (n : ColumnNode) (key : String) : Bool :=
  match rawFlags n.flags with
  | .ok raw => (Value.get? raw key).any fun v =>
    match visit (some .postgres) v with
    | .ok p => p.toValue.bool? == some true
    | .error _ => false
  | .error _ => false

/-- The name of the type, if it is given as a plain text, alone or in the node of a type. -/
def ColumnNode.typeName? (n : ColumnNode) : Option String :=
  match n.type.tagged? with
  | some _ => (nodeOf? .type n.type).bind Value.word?
  | none => n.type.word?

theorem get?_drop {es : List (Value × Value)} {k key : String} (other : k ≠ key) :
    Value.get? (Value.drop es key) k = Value.get? es k := by
  induction es with
  | nil => rfl
  | cons e es ih =>
    rw [Value.drop, List.filter_cons]
    cases here : e.1.same (.text key) with
    | true =>
      rw [Value.same_text_iff] at here
      rw [Bool.not_true, if_neg (by simp), Value.get?_cons, here,
        if_neg (by simpa using other.symm)]
      exact ih
    | false =>
      rw [Bool.not_false, if_pos rfl, Value.get?_cons, Value.get?_cons]
      exact if_congr Iff.rfl rfl ih

theorem get?_visitEntry {es fs : List (Value × Value)}
    (visited : es.mapM (visitEntry r) = .ok fs) (key : String) :
    (Value.get? es key = none ∧ Value.get? fs key = none) ∨
      ∃ v p, Value.get? es key = some v ∧ visit r v = .ok p ∧
        Value.get? fs key = some p.toValue := by
  induction es generalizing fs with
  | nil =>
    cases visited
    exact .inl ⟨rfl, rfl⟩
  | cons e es ih =>
    obtain ⟨f, rest, entry, others, rfl⟩ := mapM_cons_eq_ok.1 visited
    obtain ⟨p, own, entry⟩ := bind_eq_ok.1 entry
    cases entry
    rw [Value.get?_cons, Value.get?_cons]
    by_cases found : e.1.word? = some key
    · rw [if_pos found, if_pos found]
      exact .inr ⟨e.2, p, rfl, own, rfl⟩
    · rw [if_neg found, if_neg found]
      exact ih others

/-- A flag of a column is what its node says. -/
theorem states_of_flags {n : ColumnNode} {raw flags : List (Value × Value)} {default : Value}
    {key : String} {b : Bool} (entries : rawFlags n.flags = .ok raw)
    (visited : (Value.drop raw "default").mapM (visitEntry (some .postgres)) = .ok flags)
    (other : key ≠ "default")
    (read :
      Value.withDefault Value.bool? false (Value.put flags (.text "default") default) key =
      some b) : n.states key = b := by
  rw [Value.withDefault, Value.get?_put, if_neg other] at read
  rw [ColumnNode.states, entries]
  simp only
  rcases get?_visitEntry visited key with ⟨absent, gone⟩ | ⟨v, p, given, seen, there⟩
  · rw [get?_drop other] at absent
    rw [gone] at read
    rw [absent]
    simpa using read
  · rw [get?_drop other] at given
    rw [there] at read
    rw [given]
    simp only [Option.any_some, seen]
    simp only at read
    rw [read]
    cases b with
    | true => rfl
    | false => rfl

/-- A column has what its node says of it. -/
structure Reads (n : ColumnNode) (c : Column) : Prop where
  type : ∀ raw, n.typeName? = some raw → c.type = Postgres.normalizeType raw
  primaryKey : c.primaryKey = n.states "primary_key"
  foreignKey : c.foreignKey = n.states "foreign_key"

/-- A plain text in place of a type is normalized. -/
theorem typePart_of_word? {raw : String} (text : v.word? = some raw) :
    typePart (some .postgres) v = .ok (.value (Postgres.normalizeType raw).toValue) := by
  have leaf : v.tagged? = none := by
    unfold Value.tagged?
    split
    · cases text
    · rfl
  have read : Postgres.typeOf v = Postgres.normalizeType raw := by
    unfold Postgres.typeOf
    split
    · cases text
    · rw [text]
  rw [typePart, leaf]
  simp only [read]

theorem typeComponent_of_typeName? {n : ColumnNode} {raw : String}
    (text : n.typeName? = some raw) :
    typeComponent (some .postgres) n.type =
      .ok (.value (Postgres.normalizeType raw).toValue) := by
  unfold ColumnNode.typeName? at text
  split at text
  · rename_i inner node
    obtain ⟨payload, inside, text⟩ := Option.bind_eq_some_iff.1 text
    rw [typeComponent_of_tagged (by rw [node]; rfl), visit_of_nodeOf? inside, handle.eq_def]
    exact typePart_of_word? text
  · rename_i leaf
    rw [typeComponent, leaf]
    exact typePart_of_word? text

theorem reads_of_columnPart {c : Column}
    (made : columnPart (some .postgres) payload = .ok (.column c)) :
    ∃ n, ColumnNode.ofPayload payload = .ok n ∧ Reads n c := by
  obtain ⟨n, raw, flags, default, type, c, node, entries, visited, typed, same, facts⟩ :=
    columnPart_eq_ok made
  cases same
  obtain ⟨hasType, primaryKey, foreignKey⟩ := facts
  refine ⟨n, node, ?_, ?_, ?_⟩
  · intro name text
    rw [typeComponent_of_typeName? text] at typed
    cases typed
    rw [Part.toValue, type?_toValue] at hasType
    exact (Option.some.inj hasType).symm
  · exact (states_of_flags entries visited (by decide) primaryKey).symm
  · exact (states_of_flags entries visited (by decide) foreignKey).symm

/-! ## The columns of a table -/

/-- The node of a column. -/
def columnNode? (v : Value) : Option ColumnNode := do
  let payload ← nodeOf? .column v
  (ColumnNode.ofPayload payload).toOption

/-- The items of a list, whatever words it stands under. -/
def itemsOf (v : Value) : List Value :=
  match unwrapped v with
  | .list xs => xs
  | _ => []

/-- The column nodes of the tree of a table. -/
def columnNodes? (tree : Value) : Option (List ColumnNode) := do
  let payload ← nodeOf? .table tree
  let node ← (TableNode.ofPayload payload).toOption
  (itemsOf node.columns).mapM columnNode?

theorem exists_columnNode {c : Column} (made : visit (some .postgres) v = .ok (.column c)) :
    ∃ n, columnNode? v = some n ∧ Reads n c := by
  obtain ⟨payload, node, made⟩ := exists_node made rfl
  rw [handle.eq_def] at made
  obtain ⟨n, read, reads⟩ := reads_of_columnPart made
  refine ⟨n, ?_, reads⟩
  rw [columnNode?, node, Option.bind_eq_bind, Option.bind_some, read]
  rfl

theorem exists_columnNodes {xs : List Value} {cs : List Column}
    (made : xs.mapM (visit (some .postgres)) = .ok (cs.map .column)) :
    ∃ ns, xs.mapM columnNode? = some ns ∧ List.Forall₂ Reads ns cs := by
  induction xs generalizing cs with
  | nil =>
    cases cs with
    | nil => exact ⟨[], rfl, .nil⟩
    | cons c cs => cases made
  | cons x xs ih =>
    obtain ⟨q, qs, first, others, same⟩ := mapM_cons_eq_ok.1 made
    cases cs with
    | nil => cases same
    | cons c cs =>
      obtain ⟨rfl, rfl⟩ := List.cons.inj same
      obtain ⟨n, node, reads⟩ := exists_columnNode first
      obtain ⟨ns, nodes, all⟩ := ih others
      exact ⟨n :: ns, by rw [List.mapM_cons, node, nodes]; rfl, .cons reads all⟩

theorem itemsOf_eq_nil (other : ∀ xs, unwrapped v ≠ .list xs) : itemsOf v = [] := by
  unfold itemsOf
  split
  · rename_i xs list
    exact absurd list (other xs)
  · rfl

theorem unwrapped_of_absent (absent : v.isTruthy = false) : unwrapped v = v := by
  have leaf : v.tagged? = none := by
    unfold Value.tagged?
    split
    · cases absent
    · rfl
  rw [unwrapped]
  split
  · rename_i node
    rw [leaf] at node
    cases node
  · rfl

/-- A list that counts as absent has no items. -/
theorem itemsOf_of_absent (absent : v.isTruthy = false) : itemsOf v = [] := by
  rw [itemsOf, unwrapped_of_absent absent]
  split
  · rename_i xs
    cases xs with
    | nil => rfl
    | cons x xs => cases absent
  · rfl

/-- Plain data has no columns. -/
theorem eq_nil_of_plain {w : Value} {cs : List Column}
    (parts : partsOf (.value w) = .ok (cs.map .column)) : cs = [] := by
  simp only [partsOf, Part.parts?, Part.toValue] at parts
  cases items : w.items? with
  | none =>
    rw [items] at parts
    cases parts
  | some xs =>
    rw [items] at parts
    cases xs with
    | nil => exact List.map_eq_nil_iff.1 (Except.ok.inj parts).symm
    | cons x xs =>
      cases cs with
      | nil => rfl
      | cons c cs => cases parts

/-- What can be listed was a list or is plain data. -/
theorem visit_listed (made : visit (some .postgres) v = .ok p)
    (list : (listed p).isSome = true) :
    (∃ xs, unwrapped v = .list xs) ∨ ∃ w, p = .value w := by
  rcases visit_cases made with bare | plain | ⟨tag, payload, node, other, built⟩
  · exact .inl bare
  · exact .inr plain
  · rcases handle_cases built other with kind | plain
    · exfalso
      cases p with
      | value w => cases kind
      | items ps => cases kind
      | _ => cases list
    · exact .inr plain

/-- The columns of a component are what its items are visited to. -/
theorem mapM_itemsOf {cs : List Column} (made : listComponent (some .postgres) v = .ok p)
    (parts : partsOf p = .ok (cs.map .column)) (list : (listed p).isSome = true) :
    (itemsOf v).mapM (visit (some .postgres)) = .ok (cs.map .column) := by
  cases present : v.isTruthy with
  | false =>
    rw [listComponent, if_neg (by simp [present])] at made
    cases made
    rw [itemsOf_of_absent present]
    exact parts
  | true =>
    rw [listComponent_of_truthy present] at made
    rcases visit_listed made list with ⟨xs, bare⟩ | ⟨w, rfl⟩
    · obtain ⟨ps, rfl, visited⟩ := exists_items made bare
      cases parts
      rw [itemsOf, bare]
      exact visited
    · have none : ∀ xs, unwrapped v ≠ .list xs := by
        intro xs bare
        obtain ⟨ps, same, -⟩ := exists_items made bare
        cases same
      rw [itemsOf_eq_nil none, eq_nil_of_plain parts]
      rfl

/-- The columns of a table are those of the column nodes of its tree, one by one, and marked
besides if a foreign key of the table is over them. -/
theorem columns_of_build {tree dialect : Value} {t : Table}
    (postgres : Registry.find dialect = .ok .postgres) (built : build tree dialect = .ok t) :
    t.dialect = .postgres ∧ ∃ ns own, columnNodes? tree = some ns ∧
      List.Forall₂ Reads ns own ∧
      t.columns = own.map fun c =>
        { c with foreignKey := c.foreignKey || t.isForeignKeyColumn c.name } := by
  rw [build, postgres, ok_bind] at built
  obtain ⟨p, visited, built⟩ := bind_eq_ok.1 built
  split at built
  case h_2 => cases built
  case h_1 =>
    cases built
    obtain ⟨payload, node, made⟩ := exists_node visited rfl
    rw [handle.eq_def] at made
    simp only [tablePart_eq] at made
    obtain ⟨n, read, made⟩ := bind_eq_ok.1 made
    obtain ⟨name, -, made⟩ := bind_eq_ok.1 made
    obtain ⟨columns, component, made⟩ := bind_eq_ok.1 made
    obtain ⟨foreignKeys, -, made⟩ := bind_eq_ok.1 made
    obtain ⟨indices, -, made⟩ := bind_eq_ok.1 made
    obtain ⟨rules, own, parts, list, marks⟩ := exists_own_columns made
    obtain ⟨ns, nodes, reads⟩ := exists_columnNodes (mapM_itemsOf component parts list)
    refine ⟨(Option.some.inj rules).symm, ns, own, ?_, reads, marks⟩
    simp only [columnNodes?, node, read, Option.bind_eq_bind, Option.bind_some]
    exact nodes

end Schemata.Table
