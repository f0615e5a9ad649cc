/-
Nodes with more components than the known ones.

A description may grow: a newer one says more of a table, of a column, of a foreign key or of
an index at the end of its payload. A node whose known components are all there may be
extended so, wherever in a tree a reader comes to it by a visit, and any number of nodes may
be, one inside another; the table is the same, and so is the fault if there is one.

`Inside` is the replacing of a part of a tree in a place that is visited. What is made of the
tree stays the same if it stays the same for the part, provided that the part keeps the little
that some readers ask of a component before they visit it (`Alike`). `Trailing` is one
extended node, and `Extends` the one in the other. The step is `visit_of_inside`, and what
follows for a whole tree is `build_extended`.
-/
import Mathlib
import Schemata.Proofs.Table.Veiled

namespace Schemata.Table

open Value (tagged)
open Relation (ReflTransGen)

variable {r : Rules} {v w payload payload' : Value} {t : Tag} {n : ℕ}

/-! ## Payloads that are read alike -/

/-- The known components of two payloads are the same. -/
def Tag.ReadsAlike : Tag → Value → Value → Prop
  | .table, payload, payload' => TableNode.ofPayload payload' = TableNode.ofPayload payload
  | .column, payload, payload' => ColumnNode.ofPayload payload' = ColumnNode.ofPayload payload
  | .foreignKey, payload, payload' =>
    ForeignKeyNode.ofPayload payload' = ForeignKeyNode.ofPayload payload
  | .index, payload, payload' => IndexNode.ofPayload payload' = IndexNode.ofPayload payload
  | _, _, _ => False

/-- A handler of components looks at the known ones and at nothing else. -/
theorem handle_of_readsAlike (h : t.ReadsAlike payload payload') :
    handle r t payload' = handle r t payload := by
  rw [handle.eq_def, handle.eq_def]
  cases t with
  | table => simp only [tablePart_eq, show TableNode.ofPayload payload' = _ from h]
  | column => simp only [columnPart_eq, show ColumnNode.ofPayload payload' = _ from h]
  | foreignKey =>
    simp only [foreignKeyPart_eq, show ForeignKeyNode.ofPayload payload' = _ from h]
  | index => simp only [indexPart_eq, show IndexNode.ofPayload payload' = _ from h]
  | _ => exact h.elim

/-- How many components of a node are known, if it is read by its components. -/
def Tag.width? : Tag → Option ℕ
  | .table => some 4
  | .column => some 3
  | .foreignKey => some 5
  | .index => some 3
  | _ => none

/-- What is the same sequence of items is read alike. -/
theorem readsAlike_of_items (width : t.width?.isSome = true)
    (same : payload'.items? = payload.items?) : t.ReadsAlike payload payload' := by
  have items : payload'.items = payload.items := by rw [Value.items, same, Value.items]
  cases t with
  | table => exact congrArg (· >>= _) items
  | column => exact congrArg (· >>= _) items
  | foreignKey => exact congrArg (· >>= _) items
  | index => exact congrArg (· >>= _) items
  | _ => cases width

theorem component_append {xs : List Value} {i : ℕ} (h : i < xs.length) (more : List Value) :
    component (xs ++ more) i = component xs i := by
  rw [component, component, List.getElem?_append_left h]

/-- What is made of the first components is made of them whatever follows them. -/
theorem components_append {α : Type} {k : ℕ} {f : List Value → α} {xs more : List Value}
    (short : k ≤ xs.length) (known : f (xs ++ more) = f xs)
    (read : payload.items? = some (xs ++ more)) :
    (do
      let xs ← payload.items
      if xs.length < k then (.error .badValue : Except Fault α) else .ok (f xs)) =
        .ok (f xs) := by
  have long : ¬ (xs ++ more).length < k := by
    rw [List.length_append]
    omega
  simp only [Value.items, read, ok_bind, known]
  rw [if_neg long]

/-- With all the known components in common, payloads are read alike whatever follows them. -/
theorem readsAlike_of_append {xs more more' : List Value} (width : t.width? = some n)
    (full : n ≤ xs.length) (read : payload.items? = some (xs ++ more))
    (read' : payload'.items? = some (xs ++ more')) : t.ReadsAlike payload payload' := by
  cases t with
  | table =>
    cases width
    have made {v : Value} {more : List Value} (read : v.items? = some (xs ++ more)) :=
      components_append (f := fun xs => TableNode.mk (component xs 0) (component xs 1)
        (component xs 2) (component xs 3)) (show 1 ≤ xs.length by omega)
        (by simp (disch := omega) only [component_append]) read
    exact (made read').trans (made read).symm
  | column =>
    cases width
    have made {v : Value} {more : List Value} (read : v.items? = some (xs ++ more)) :=
      components_append (f := fun xs => ColumnNode.mk (component xs 0) (component xs 1)
        (component xs 2)) (show 2 ≤ xs.length by omega)
        (by simp (disch := omega) only [component_append]) read
    exact (made read').trans (made read).symm
  | foreignKey =>
    cases width
    have made {v : Value} {more : List Value} (read : v.items? = some (xs ++ more)) :=
      components_append (f := fun xs => ForeignKeyNode.mk (component xs 0) (component xs 1)
        (component xs 2) (component xs 3) (component xs 4)) (show 4 ≤ xs.length by omega)
        (by simp (disch := omega) only [component_append]) read
    exact (made read').trans (made read).symm
  | index =>
    cases width
    have made {v : Value} {more : List Value} (read : v.items? = some (xs ++ more)) :=
      components_append (f := fun xs => IndexNode.mk (component xs 0) (component xs 1)
        (component xs 2)) (show 2 ≤ xs.length by omega)
        (by simp (disch := omega) only [component_append]) read
    exact (made read').trans (made read).symm
  | _ => cases width

/-! ## Places that are visited -/

/-- What readers ask of a component before they visit it: that it counts as present, and that
it is a node. -/
structure Alike (v w : Value) : Prop where
  left : v.isTruthy = true
  right : w.isTruthy = true
  node : v.tagged?.isSome = true → w.tagged?.isSome = true

/-- One part of a tree was replaced by a part that a relation allows, in a place to which a
reader comes by a visit. -/
inductive Inside (r : Rules) (R : Value → Value → Prop) : Value → Value → Prop
  | here {v w : Value} (h : R v w) : Inside r R v w
  | under {word : String} {v w : Value} (unknown : Tag.ofWord? r word = none)
      (h : Inside r R v w) : Inside r R (tagged word v) (tagged word w)
  | item {v w : Value} (xs ys : List Value) (h : Inside r R v w) :
      Inside r R (.list (xs ++ v :: ys)) (.list (xs ++ w :: ys))
  | component {word : String} {t : Tag} {v w payload payload' : Value} (xs ys : List Value)
      (known : Tag.ofWord? r word = some t) (visits : t.Visits xs.length v)
      (read : payload.items? = some (xs ++ v :: ys))
      (read' : payload'.items? = some (xs ++ w :: ys)) (h : Inside r R v w) :
      Inside r R (tagged word payload) (tagged word payload')
  /-- A value among the flags of a foreign key or of an index. -/
  | flag {word : String} {k v w : Value} (es fs : List (Value × Value))
      (known : Tag.ofWord? r word = some .flags) (h : Inside r R v w) :
      Inside r R (tagged word (.dict (es ++ (k, v) :: fs)))
        (tagged word (.dict (es ++ (k, w) :: fs)))
  /-- A value among the flags of a column: a default only if it does not stand alone. -/
  | columnFlag {word : String} {k v w name type : Value} (node : Option String)
      (es fs : List (Value × Value)) (rest : List Value)
      (known : Tag.ofWord? r word = some .column)
      (visits : k.same (.text "default") = false ∨ v.tagged?.isSome = true)
      (h : Inside r R v w) :
      Inside r R
        (tagged word
          (.list (name :: type :: flagsNode node (.dict (es ++ (k, v) :: fs)) :: rest)))
        (tagged word
          (.list (name :: type :: flagsNode node (.dict (es ++ (k, w) :: fs)) :: rest)))
  /-- A node inside a type, or the type of the members of an array. -/
  | member {word : String} {t : Tag} {v w : Value} (dialect : r = some .postgres)
      (known : Tag.ofWord? r word = some t) (type : t = .type ∨ t = .array)
      (node : v.tagged?.isSome = true) (h : Inside r R v w) :
      Inside r R (tagged word v) (tagged word w)

section

variable {R : Value → Value → Prop} (shaped : ∀ {v w}, R v w → Alike v w)
  (same : ∀ {v w}, R v w → visit r w = visit r v)

include shaped

theorem Inside.alike (h : Inside r R v w) : Alike v w := by
  cases h with
  | here h => exact shaped h
  | item xs ys h => exact ⟨by cases xs <;> rfl, by cases xs <;> rfl, nofun⟩
  | _ => exact ⟨rfl, rfl, fun _ => rfl⟩

include same

/-- A part that is visited as before leaves the tree to be visited as before. -/
theorem visit_of_inside (h : Inside r R v w) : visit r w = visit r v := by
  induction h with
  | here h => exact same h
  | under unknown _ ih => rw [visit_unknown unknown, visit_unknown unknown, ih]
  | item xs ys _ ih => rw [visit_list, visit_list, mapM_replace ih]
  | @component word t v w payload payload' xs ys known visits read read' h ih =>
    have width : t.width?.isSome = true := by
      cases t <;> first | rfl | exact visits.elim
    have listed {ws : List Value} {payload : Value} (read : payload.items? = some ws) :
        visit r (tagged word payload) = visit r (tagged word (.list ws)) := by
      rw [visit_known known, visit_known known]
      exact handle_of_readsAlike (readsAlike_of_items width read)
    have shape := h.alike shaped
    calc visit r (tagged word payload')
      _ = visit r (tagged word (.list (xs ++ w :: ys))) := listed read'
      _ = visit r (tagged word (.list (xs ++ v :: ys))) :=
        visit_component xs ys known visits ih shape.right shape.node
      _ = visit r (tagged word payload) := (listed read).symm
  | flag es fs known _ ih => exact visit_flag _ es fs known ih
  | columnFlag node es fs rest known visits h ih =>
    exact visit_columnFlag _ _ node es fs rest known visits ih (h.alike shaped).node
  | member dialect known type node h ih =>
    subst dialect
    exact visit_member known type ih node ((h.alike shaped).node node)

end

/-! ## Extended nodes -/

/-- A node with all the known components has others after them: more of them than before, or
not the same. -/
inductive Trailing (r : Rules) : Value → Value → Prop
  | node {word : String} {t : Tag} {n : ℕ} {payload payload' : Value} {xs : List Value}
      (more more' : List Value) (known : Tag.ofWord? r word = some t)
      (width : t.width? = some n)
      (full : n ≤ xs.length) (read : payload.items? = some (xs ++ more))
      (read' : payload'.items? = some (xs ++ more')) :
      Trailing r (tagged word payload) (tagged word payload')

theorem Trailing.alike (h : Trailing r v w) : Alike v w := by
  obtain ⟨⟩ := h
  exact ⟨rfl, rfl, fun _ => rfl⟩

theorem Trailing.visit (h : Trailing r v w) : visit r w = visit r v := by
  obtain ⟨more, more', known, width, full, read, read'⟩ := h
  rw [visit_known known, visit_known known]
  exact handle_of_readsAlike (readsAlike_of_append width full read read')

/-- One node of a tree was extended, or by other components than before. -/
def Extends (r : Rules) : Value → Value → Prop := Inside r (Trailing r)

theorem Extends.alike (h : Extends r v w) : Alike v w :=
  Inside.alike Trailing.alike h

/-- However many nodes were extended, the tree is visited as before. -/
theorem visit_of_extends (h : ReflTransGen (Extends r) v w) : visit r w = visit r v := by
  induction h with
  | refl => rfl
  | tail _ step ih => rw [visit_of_inside Trailing.alike Trailing.visit step, ih]

/-! ## Trees all of whose nodes are extended -/

/-- All of `n` components, and the same with any number of components after them. -/
def Grown (n : ℕ) (xs ys : List Value) : Prop :=
  n ≤ xs.length ∧ xs <+: ys

/-- Nodes of one word. -/
def nodes (word : String) (payloads : List (List Value)) : Value :=
  .list (payloads.map fun xs => tagged word (.list xs))

/-- A table with all its components, and what is said after them. -/
def documented (name : Value) (columns keys indices : List (List Value)) (more : List Value) :
    Value :=
  tagged "table" (.list ([name, nodes "column" columns, nodes "foreign_key" keys,
    nodes "index" indices] ++ more))

theorem Grown.extends {word : String} {xs ys : List Value} (h : Grown n xs ys)
    (known : Tag.ofWord? r word = some t) (width : t.width? = some n) :
    Extends r (tagged word (.list xs)) (tagged word (.list ys)) := by
  obtain ⟨full, more, rfl⟩ := h
  exact .here (.node [] more known width full (congrArg some (List.append_nil xs).symm) rfl)

theorem extends_nodes {word : String} {ps qs : List (List Value)}
    (known : Tag.ofWord? r word = some t) (width : t.width? = some n)
    (h : List.Forall₂ (Grown n) ps qs) :
    ReflTransGen (Extends r) (nodes word ps) (nodes word qs) := by
  -- One node after the other; those before it are extended already.
  suffices front : ∀ zs : List Value, ReflTransGen (Extends r)
      (.list (zs ++ ps.map fun xs => tagged word (.list xs)))
      (.list (zs ++ qs.map fun xs => tagged word (.list xs))) from front []
  induction h with
  | nil => exact fun zs => .refl
  | @cons xs ys ps qs grown _ ih =>
    intro zs
    have first : Extends r (.list (zs ++ tagged word (.list xs) :: ps.map fun xs =>
        tagged word (.list xs))) (.list (zs ++ tagged word (.list ys) :: ps.map fun xs =>
          tagged word (.list xs))) := .item zs _ (grown.extends known width)
    have rest := ih (zs ++ [tagged word (.list ys)])
    rw [List.append_assoc, List.append_assoc] at rest
    exact .head first rest

/-- In a component of a table after its name, nodes are extended as they are alone. -/
theorem extends_component (xs ys : List Value) (after : xs ≠ [])
    (h : ReflTransGen (Extends r) v w) :
    ReflTransGen (Extends r) (tagged "table" (.list (xs ++ v :: ys)))
      (tagged "table" (.list (xs ++ w :: ys))) := by
  refine h.lift (fun v => tagged "table" (.list (xs ++ v :: ys))) fun v w step => ?_
  have visits : Tag.table.Visits xs.length v := by
    cases xs with
    | nil => exact absurd rfl after
    | cons x xs => exact .inl step.alike.left
  exact .component xs ys rfl visits rfl rfl step

theorem extends_documented {cs ks is cs' ks' is' : List (List Value)} (name : Value)
    (more more' : List Value) (columns : List.Forall₂ (Grown 3) cs cs')
    (keys : List.Forall₂ (Grown 5) ks ks') (indices : List.Forall₂ (Grown 3) is is') :
    ReflTransGen (Extends r) (documented name cs ks is more)
      (documented name cs' ks' is' (more ++ more')) := by
  have cs : ReflTransGen (Extends r) (nodes "column" cs) (nodes "column" cs') :=
    extends_nodes (t := .column) rfl rfl columns
  have ks : ReflTransGen (Extends r) (nodes "foreign_key" ks) (nodes "foreign_key" ks') :=
    extends_nodes (t := .foreignKey) rfl rfl keys
  have is : ReflTransGen (Extends r) (nodes "index" is) (nodes "index" is') :=
    extends_nodes (t := .index) rfl rfl indices
  refine (extends_component [_] _ (List.cons_ne_nil _ _) cs).trans
    ((extends_component [_, _] _ (List.cons_ne_nil _ _) ks).trans
      ((extends_component [_, _, _] _ (List.cons_ne_nil _ _) is).tail ?_))
  have full :
      Grown 4 ([name, nodes "column" cs', nodes "foreign_key" ks', nodes "index" is'] ++ more)
      ([name, nodes "column" cs', nodes "foreign_key" ks', nodes "index" is'] ++
        (more ++ more')) :=
    ⟨by simp, more', List.append_assoc ..⟩
  exact full.extends (t := .table) rfl rfl

/-! ## Tables -/

/-- However many nodes of a tree are extended, wherever they are and whatever they are
extended by, the result is the same: the table, or the fault. Only a tree that is none of a
table is named in its fault with all that it holds. So it is the same if each node of a table
is extended, and the table too. -/
theorem build_extended {dialect : Value} {d : Dialect}
    (found : Registry.find dialect = .ok d) :
    (∀ v w, ReflTransGen (Extends (some d)) v w →
      build w dialect = build v dialect ∨
        build v dialect = .error (notTable v) ∧
          build w dialect = .error (notTable w)) ∧
    (∀ payload w, ReflTransGen (Extends (some d)) (tagged "table" payload) w →
      build w dialect = build (tagged "table" payload) dialect) ∧
    ∀ name cs ks is cs' ks' is' more more', List.Forall₂ (Grown 3) cs cs' →
      List.Forall₂ (Grown 5) ks ks' → List.Forall₂ (Grown 3) is is' →
        build (documented name cs' ks' is' (more ++ more')) dialect =
          build (documented name cs ks is more) dialect := by
  have whole (v w : Value) (h : ReflTransGen (Extends (some d)) v w) :
      build w dialect = build v dialect ∨
        build v dialect = .error (notTable v) ∧
          build w dialect = .error (notTable w) := by
    rw [build, build, found, ok_bind, ok_bind, visit_of_extends h]
    cases visit (some d) v with
    | error f => exact .inl rfl
    | ok p => cases p <;> first | exact .inl rfl | exact .inr ⟨rfl, rfl⟩
  have table (payload w : Value)
      (h : ReflTransGen (Extends (some d)) (tagged "table" payload) w) :
      build w dialect = build (tagged "table" payload) dialect := by
    rw [build, build, found, ok_bind, ok_bind, visit_of_extends h, visit_table]
    cases made : tablePart (some d) payload with
    | error f => rfl
    | ok p =>
      obtain ⟨t, rfl⟩ := tablePart_eq_table made
      rfl
  exact ⟨whole, table, fun name cs ks is cs' ks' is' more more' columns keys indices =>
    table _ _ (extends_documented name more more' columns keys indices)⟩

/-! ### A table of events -/

/-- The tree of a table, what is said after the known components of it and of each of its
nodes. -/
def eventsTree (extra : List Value) : Value :=
  documented (tagged "identifier" (.text "events"))
    [[tagged "identifier" (.text "label"), tagged "type" (.text "text"),
      tagged "meta" (.dict [(.text "nullable", .bool false)])] ++ extra]
    [[.null, .list [tagged "identifier" (.text "label")],
      tagged "identifier" (.text "labels"),
      .list [tagged "identifier" (.text "id")], tagged "meta" (.dict [])] ++ extra]
    [[tagged "identifier" (.text "by_label"), .list [tagged "identifier" (.text "label")],
      tagged "meta" (.dict [(.text "unique", .bool true)])] ++ extra] extra

/-- The table of that tree. -/
def eventsTable (dialect : Dialect) : Table where
  name := "events"
  dialect := dialect
  columns :=
    [{ name := "label", type := .named "string", nullable := false, foreignKey := true }]
  foreignKeys := [⟨none, ["label"], "labels", ["id"], none, none⟩]
  indices := [{ name := "by_label", columns := ["label"], unique := true }]

theorem visit_textType (d : Dialect) :
    visit (some d) (tagged "type" (.text "text")) = .ok (.value (.text "string")) := by
  rw [visit_type]
  cases d with
  | postgres => cbv
  | sqlite =>
    have written : (Text.trimBlank "text".toList).isEmpty = false := by cbv
    have name :
        String.ofList (Text.upper (Text.trimBlank (Text.dropParameters "text".toList))) =
        "TEXT" := by cbv
    have known : Sqlite.typeTable.lookup "TEXT" = some "string" := by decide
    have normal : Sqlite.typeOf (.text "text") = Sqlite.normalizeType "text" := rfl
    rw [typePart, normal]
    simp only [Sqlite.normalizeType, written, name, known, Option.getD_some]
    rfl

theorem visit_labelColumn (d : Dialect) :
    visit (some d) (tagged "column" (.list [tagged "identifier" (.text "label"),
      tagged "type" (.text "text"),
      tagged "meta" (.dict [(.text "nullable", .bool false)])])) =
      .ok (.column { name := "label", type := .named "string", nullable := false }) := by
  rw [visit_column, columnPart_list, typeComponent_of_tagged rfl, visit_textType,
    visit_identifier, Value.plain_text]
  cases d <;> cbv

theorem visit_labelKey (d : Dialect) :
    visit (some d)
      (tagged "foreign_key" (.list [.null, .list [tagged "identifier" (.text "label")],
      tagged "identifier" (.text "labels"), .list [tagged "identifier" (.text "id")],
      tagged "meta" (.dict [])])) =
      .ok (.foreignKey ⟨none, ["label"], "labels", ["id"], none, none⟩) := by
  simp only [visit_foreignKey, foreignKeyPart_list, visit_flags, flagsPart_dict, visit_list,
    visit_identifier, visit_null, List.mapM_cons, List.mapM_nil]
  rfl

theorem visit_labelIndex (d : Dialect) :
    visit (some d) (tagged "index" (.list [tagged "identifier" (.text "by_label"),
      .list [tagged "identifier" (.text "label")],
      tagged "meta" (.dict [(.text "unique", .bool true)])])) =
      .ok (.index { name := "by_label", columns := ["label"], unique := true }) := by
  have flags : visit (some d) (tagged "meta" (.dict [(.text "unique", .bool true)])) =
      .ok (.value (.dict [(.text "unique", .bool true)])) := by
    rw [visit_flags, flagsPart_dict, List.mapM_cons, visitEntry, visit_bool]
    rfl
  have names : namesOf (.items [.value (.text "label")]) = .ok ["label"] := rfl
  have columns : visit (some d) (.list [tagged "identifier" (.text "label")]) =
      .ok (.items [.value (.text "label")]) := by
    rw [visit_list, List.mapM_cons, visit_identifier]
    rfl
  rw [visit_index, indexPart_list, flags, columns, visit_identifier, Value.plain_text]
  simp only [ok_bind, names]
  cbv

theorem build_eventsTree (d : Dialect) :
    build (eventsTree []) (.dialect d) = .ok (eventsTable d) := by
  have found : Registry.find (.dialect d) = .ok d := rfl
  have one {v : Value} {p : Part} (made : visit (some d) v = .ok p) :
      visit (some d) (.list [v]) = .ok (.items [p]) := by
    rw [visit_list, List.mapM_cons, made]
    rfl
  rw [build, found, ok_bind, eventsTree, documented, visit_table]
  simp only [nodes, List.map_singleton, List.append_nil]
  rw [tablePart_list, visit_identifier, listComponent_list, listComponent_list,
    listComponent_list, one (visit_labelColumn d), one (visit_labelKey d),
    one (visit_labelIndex d)]
  rfl

/-- A comment after the components of the table and of each of its nodes changes nothing, in
either dialect. -/
theorem build_extended_events :
    build (eventsTree [tagged "comment" (.text "x")]) (.dialect .postgres) =
        .ok (eventsTable .postgres) ∧
      build (eventsTree [tagged "comment" (.text "x")]) (.dialect .sqlite) =
        .ok (eventsTable .sqlite) := by
  have grown {n : ℕ} {xs : List Value} (full : n ≤ xs.length) :
      List.Forall₂ (Grown n) [xs ++ []] [xs ++ [tagged "comment" (.text "x")]] :=
    .cons ⟨by simpa using full, by simp⟩ .nil
  have postgres : Registry.find (.dialect .postgres) = .ok .postgres := rfl
  have sqlite : Registry.find (.dialect .sqlite) = .ok .sqlite := rfl
  rw [← build_eventsTree, ← build_eventsTree]
  obtain ⟨-, -, postgres⟩ := build_extended postgres
  obtain ⟨-, -, sqlite⟩ := build_extended sqlite
  exact ⟨postgres _ _ _ _ _ _ _ [] _ (grown (by decide)) (grown (by decide))
    (grown (by decide)),
    sqlite _ _ _ _ _ _ _ [] _ (grown (by decide)) (grown (by decide)) (grown (by decide))⟩

end Schemata.Table
