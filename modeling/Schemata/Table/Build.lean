/-
Tables from trees.

A tree is plain data whose pairs of a word and a payload are nodes. The structural nodes are
read by `handle`, each by its components: a table is its name, columns, foreign keys and
indices; a column its name, type and flags; and so on. Components that are missing at the end
count as absent, and components beyond the known ones are left alone, so that a description
may grow. A node with an unknown word is its payload. The rules of a dialect say how type
names and defaults are read, and which further nodes are types.

All parts of a tree are visited, and a part may be built where data is expected and the other
way round. The builder therefore works on `Part`, and `tableOf` decides at the end what the
parts of a table may be.
-/
import Schemata.Postgres.ColumnDefault
import Schemata.Postgres.TypeName
import Schemata.Registry
import Schemata.Sqlite.ColumnDefault
import Schemata.Sqlite.TypeName
import Schemata.Table.Part
import Schemata.Value.Shown

namespace Schemata.Table

/-- The rules that a tree is read by: those of a dialect, or none but the structural ones. -/
abbrev Rules := Option Dialect

/-- The nodes that have a meaning. -/
inductive Tag where
  | table
  | identifier
  | column
  | type
  | default
  | flags
  | foreignKey
  | index
  | enum
  | array
deriving DecidableEq, Repr

namespace Tag

/-- The words of the structural nodes. -/
def structural : List (String × Tag) := [
  ("table", .table), ("identifier", .identifier), ("column", .column), ("type", .type),
  ("default", .default), ("meta", .flags), ("foreign_key", .foreignKey), ("index", .index)]

/-- The words of the nodes that a dialect adds. -/
def added : Rules → List (String × Tag)
  | some .postgres => [("enum", .enum), ("array", .array)]
  | _ => []

/-- The node that a word stands for. -/
def ofWord? (r : Rules) (word : String) : Option Tag :=
  (structural ++ added r).lookup word

end Tag

/-! ## Leaves -/

/-- A default that stands alone, by the rules of the dialect. -/
def plainDefault : Rules → Value → Except Fault Value
  | some .postgres, v => Postgres.parseDefault v
  | some .sqlite, v => Sqlite.parseDefault v
  | none, v => .ok v

/-- The words of an enumeration. -/
def enumWords (payload : Value) : Except Fault (List String) :=
  if payload.isTruthy then do
    let xs ← payload.items
    xs.mapM (·.plain)
  else .ok []

/-- The payload of a node, or what is no node itself. -/
def payloadOf (v : Value) : Value :=
  match v.tagged? with
  | some (_, payload) => payload
  | none => v

/-- The entries that a component of flags holds, its node unread. -/
def rawFlags (v : Value) : Except Fault (List (Value × Value)) :=
  let payload := payloadOf v
  if payload.isTruthy then payload.entries else .ok []

/-- The deepest value of the entries. -/
def depthValues : List (Value × Value) → Nat
  | [] => 0
  | (_, v) :: es => max v.depth (depthValues es)

theorem depthValues_le {n : Nat} {es : List (Value × Value)} (h : ∀ e ∈ es, e.2.depth ≤ n) :
    depthValues es ≤ n := by
  induction es with
  | nil => simp [depthValues]
  | cons e es ih =>
    have h1 := h e (.head _)
    have h2 := ih fun f hf => h f (.tail _ hf)
    simp only [depthValues]
    omega

theorem depth_tagged {v payload : Value} {t : String} (h : v.tagged? = some (t, payload)) :
    payload.depth < v.depth := by
  unfold Value.tagged? at h
  split at h
  · obtain ⟨w, _, hw⟩ := Option.map_eq_some_iff.1 h
    cases hw
    simp only [Value.depth, Value.depthItems]
    omega
  · cases h

theorem depth_payloadOf (v : Value) : (payloadOf v).depth ≤ v.depth := by
  unfold payloadOf
  split
  · exact Nat.le_of_lt (depth_tagged ‹_›)
  · exact Nat.le_refl _

theorem depth_rawFlags {v : Value} {es : List (Value × Value)} (h : rawFlags v = .ok es) :
    ∀ e ∈ es, e.2.depth ≤ v.depth := by
  unfold rawFlags at h
  dsimp only at h
  split at h
  · exact fun e he => Nat.le_trans (Value.depth_of_entries h e he) (depth_payloadOf v)
  · cases h
    simp

theorem depth_getD {n : Nat} {es : List (Value × Value)} (h : ∀ e ∈ es, e.2.depth ≤ n)
    (key : String) : (Value.getD es key).depth ≤ n := by
  unfold Value.getD Value.get? Value.find?
  cases hf : es.find? fun e => e.1.same (.text key) with
  | none => simp [Value.depth]
  | some e => exact h e (List.mem_of_find?_eq_some hf)

theorem depth_drop {n : Nat} {es : List (Value × Value)} (h : ∀ e ∈ es, e.2.depth ≤ n)
    (key : String) : depthValues (Value.drop es key) ≤ n :=
  depthValues_le fun e he => h e (List.mem_filter.1 he).1

/-! ## Components

A missing component at the end is null; a component beyond the known ones is not looked at. -/

/-- The components of a table node. -/
structure TableNode where
  name : Value
  columns : Value
  foreignKeys : Value
  indices : Value

/-- The components of a column node. -/
structure ColumnNode where
  name : Value
  type : Value
  flags : Value

/-- The components of a foreign key node. -/
structure ForeignKeyNode where
  name : Value
  columns : Value
  table : Value
  targets : Value
  flags : Value

/-- The components of an index node. -/
structure IndexNode where
  name : Value
  columns : Value
  flags : Value

/-- The component at a position, or null. -/
def component (xs : List Value) (i : Nat) : Value :=
  (xs[i]?).getD .null

/-- The components of a table: the name at least. -/
def TableNode.ofPayload (payload : Value) : Except Fault TableNode := do
  let xs ← payload.items
  if xs.length < 1 then .error .badValue
  else .ok ⟨component xs 0, component xs 1, component xs 2, component xs 3⟩

/-- The components of a column: name and type at least. -/
def ColumnNode.ofPayload (payload : Value) : Except Fault ColumnNode := do
  let xs ← payload.items
  if xs.length < 2 then .error .badValue
  else .ok ⟨component xs 0, component xs 1, component xs 2⟩

/-- The components of a foreign key: all but the flags at least. -/
def ForeignKeyNode.ofPayload (payload : Value) : Except Fault ForeignKeyNode := do
  let xs ← payload.items
  if xs.length < 4 then .error .badValue
  else .ok ⟨component xs 0, component xs 1, component xs 2, component xs 3, component xs 4⟩

/-- The components of an index: name and columns at least. -/
def IndexNode.ofPayload (payload : Value) : Except Fault IndexNode := do
  let xs ← payload.items
  if xs.length < 2 then .error .badValue
  else .ok ⟨component xs 0, component xs 1, component xs 2⟩

theorem depth_component {v : Value} {xs : List Value} (h : v.items? = some xs) (i : Nat) :
    (component xs i).depth ≤ v.depth := by
  unfold component
  cases hx : xs[i]? with
  | none => simp [Value.depth]
  | some x => exact Value.depth_of_items h (List.mem_of_getElem? hx)

/-- The common shape of the readers of components. -/
theorem ok_of_components {α : Type} {payload : Value} {n : Nat} {f : List Value → α} {a : α}
    (h : (do
      let xs ← payload.items
      if xs.length < n then (.error .badValue : Except Fault α) else .ok (f xs)) = .ok a) :
    ∃ xs, payload.items? = some xs ∧ n ≤ xs.length ∧ a = f xs := by
  unfold Value.items at h
  cases hx : payload.items? with
  | none => simp [hx, bind, Except.bind] at h
  | some xs =>
    simp only [hx, bind, Except.bind] at h
    split at h
    · cases h
    · cases h
      exact ⟨xs, rfl, by omega, rfl⟩

theorem TableNode.depth_le {payload : Value} {n : TableNode} (h : ofPayload payload = .ok n) :
    n.name.depth ≤ payload.depth ∧ n.columns.depth ≤ payload.depth ∧
      n.foreignKeys.depth ≤ payload.depth ∧ n.indices.depth ≤ payload.depth := by
  obtain ⟨xs, hx, _, rfl⟩ := ok_of_components h
  exact ⟨depth_component hx 0, depth_component hx 1, depth_component hx 2,
    depth_component hx 3⟩

theorem ColumnNode.depth_le {payload : Value} {n : ColumnNode}
    (h : ofPayload payload = .ok n) :
    n.name.depth ≤ payload.depth ∧ n.type.depth ≤ payload.depth ∧
      n.flags.depth ≤ payload.depth := by
  obtain ⟨xs, hx, _, rfl⟩ := ok_of_components h
  exact ⟨depth_component hx 0, depth_component hx 1, depth_component hx 2⟩

theorem ForeignKeyNode.depth_le {payload : Value} {n : ForeignKeyNode}
    (h : ofPayload payload = .ok n) :
    n.name.depth ≤ payload.depth ∧ n.columns.depth ≤ payload.depth ∧
      n.table.depth ≤ payload.depth ∧ n.targets.depth ≤ payload.depth ∧
        n.flags.depth ≤ payload.depth := by
  obtain ⟨xs, hx, _, rfl⟩ := ok_of_components h
  exact ⟨depth_component hx 0, depth_component hx 1, depth_component hx 2,
    depth_component hx 3,
    depth_component hx 4⟩

theorem IndexNode.depth_le {payload : Value} {n : IndexNode} (h : ofPayload payload = .ok n) :
    n.name.depth ≤ payload.depth ∧ n.columns.depth ≤ payload.depth ∧
      n.flags.depth ≤ payload.depth := by
  obtain ⟨xs, hx, _, rfl⟩ := ok_of_components h
  exact ⟨depth_component hx 0, depth_component hx 1, depth_component hx 2⟩

/-! ## Building from visited components -/

/-- A part whose entries are asked for: one that does not count as present has none. -/
def flagsOf (p : Part) : Except Fault (List (Value × Value)) :=
  let v := p.toValue
  if v.isTruthy then
    match v with
    | .dict es => .ok es
    | _ => .error .noAttribute
  else .ok []

/-- The parts of a sequence. -/
def partsOf (p : Part) : Except Fault (List Part) :=
  match p.parts? with
  | some ps => .ok ps
  | none => .error .wrongKind

/-- A part as plain text. -/
def nameOf (p : Part) : Except Fault String :=
  p.toValue.plain

/-- The items of a sequence, as plain texts. -/
def namesOf (p : Part) : Except Fault (List String) := do
  let ps ← partsOf p
  ps.mapM nameOf

/-- A referential action of the flags; what is neither an action nor a text is none. -/
def actionOf : Value → Option ReferentialAction
  | .action a => some a
  | v => v.word?.bind ReferentialAction.parse

/-- A column from its name, its type and its flags. -/
def columnOf (name type : Part) (flags : List (Value × Value)) : Except Fault Part :=
  if flags.any fun e => e.1.word?.isNone then .error .wrongKind
  else
    Value.require do
      let nullable ← Value.withDefault Value.bool? true flags "nullable"
      let primaryKey ← Value.withDefault Value.bool? false flags "primary_key"
      let foreignKey ← Value.withDefault Value.bool? false flags "foreign_key"
      let checks ← Value.withDefault Value.texts? [] flags "check_constraints"
      let name ← name.toValue.text?
      let type ← type.toValue.type?
      some (.column {
        name, type, nullable, default := Value.getD flags "default", primaryKey, foreignKey,
        checks })

/-- A foreign key from its visited components. -/
def foreignKeyOf (name : Part) (columns : List String) (table : String)
    (targets : List String)
    (flags : Part) : Except Fault Part := do
  let es ← flagsOf flags
  let name ← Value.require (name.toValue.optional Value.text?)
  .ok (.foreignKey {
    name, columns, table, targets
    onDelete := actionOf (Value.getD es "on_delete")
    onUpdate := actionOf (Value.getD es "on_update") })

/-- An index from its visited components. -/
def indexOf (name : Part) (columns : List String) (flags : Part) : Except Fault Part := do
  let es ← flagsOf flags
  Value.require do
    let method ← Value.optional Value.text? (Value.getD es "type")
    let condition ← Value.optional Value.text? (Value.getD es "where_clause")
    let name ← name.toValue.text?
    some (.index {
      name, columns, unique := (Value.getD es "unique").isTruthy, method, condition })

/-- The columns that a component of foreign keys mentions: an index mentions its columns as
well. -/
def mentioned : List Part → Except Fault (List String)
  | [] => .ok []
  | .foreignKey k :: ps => do
    let names ← mentioned ps
    .ok (k.columns ++ names)
  | .index i :: ps => do
    let names ← mentioned ps
    .ok (i.columns ++ names)
  | .table t :: ps => if t.columns.isEmpty then mentioned ps else .error .wrongKind
  | _ :: _ => .error .noAttribute

/-- Marks the columns that a foreign key mentions. What is no column cannot be marked. -/
def marked (names : List String) : List Part → Except Fault (List Part)
  | [] => .ok []
  | .column c :: ps => do
    let rest ← marked names ps
    .ok (.column (if names.contains c.name then { c with foreignKey := true } else c) :: rest)
  | .index i :: ps =>
    if names.contains i.name then .error .badValue
    else do
      let rest ← marked names ps
      .ok (.index i :: rest)
  | .foreignKey k :: ps =>
    if (k.name.map names.contains).getD false then .error .noAttribute
    else do
      let rest ← marked names ps
      .ok (.foreignKey k :: rest)
  | .table t :: ps =>
    if names.contains t.name then .error .noAttribute
    else do
      let rest ← marked names ps
      .ok (.table t :: rest)
  | _ :: _ => .error .noAttribute

/-- Parts all of which are columns. -/
def columnsOf : List Part → Except Fault (List Column)
  | [] => .ok []
  | .column c :: ps => do
    let cs ← columnsOf ps
    .ok (c :: cs)
  | _ :: _ => .error .noAttribute

/-- A foreign key that has been built. -/
def asForeignKey : Part → Option ForeignKey
  | .foreignKey k => some k
  | _ => none

/-- An index that has been built, or that is given by its attributes. -/
def asIndex : Part → Option Index
  | .index i => some i
  | .value (.dict es) => do
    let name ← (Value.get? es "name").bind Value.word?
    let columns ← Value.withDefault Value.texts? [] es "columns"
    let flags ← match Value.get? es "meta" with
      | none => some []
      | some (.dict fs) => some fs
      | some _ => none
    let unique ← Value.withDefault Value.bool? false flags "unique"
    let method ← Value.optionalAt Value.word? flags "type"
    let condition ← Value.optionalAt Value.word? flags "where_clause"
    some { name, columns, unique, method, condition }
  | _ => none

/-- The items of a component that must be a list. -/
def listed : Part → Option (List Part)
  | .items ps => some ps
  | .value (.list xs) => some (xs.map .value)
  | .value (.tuple xs) => some (xs.map .value)
  | _ => none

/-- A table from its visited components. -/
def tableOf (r : Rules) (name columns foreignKeys indices : Part) : Except Fault Part := do
  let names ← mentioned (← partsOf foreignKeys)
  let cs ← columnsOf (← marked names (← partsOf columns))
  Value.require do
    let name ← name.toValue.text?
    let dialect ← r
    let _ ← listed columns
    let ks ← (← listed foreignKeys).mapM asForeignKey
    let is ← (← listed indices).mapM asIndex
    some (.table { name, dialect, columns := cs, foreignKeys := ks, indices := is })

/-! ## Visiting -/

/-- A step of a visit that goes no deeper ends at an earlier stage. -/
theorem lex_of_stage {m n s t : Nat} (k l : Nat) (h : m ≤ n) (hs : s < t) :
    Prod.Lex (fun a b : Nat => a < b)
      (Prod.Lex (fun a b : Nat => a < b) fun a b : Nat => a < b)
      (m, s, k) (n, t, l) := by
  rcases Nat.lt_or_eq_of_le h with h | rfl
  · exact Prod.Lex.left _ _ h
  · exact Prod.Lex.right _ (Prod.Lex.left _ _ hs)

/-- A step along a list goes no deeper and leaves fewer items. -/
theorem lex_of_length {m n k l : Nat} (s : Nat) (h : m ≤ n) (hk : k < l) :
    Prod.Lex (fun a b : Nat => a < b)
      (Prod.Lex (fun a b : Nat => a < b) fun a b : Nat => a < b)
      (m, s, k) (n, s, l) := by
  rcases Nat.lt_or_eq_of_le h with h | rfl
  · exact Prod.Lex.left _ _ h
  · exact Prod.Lex.right _ (Prod.Lex.right _ hk)

mutual

/-- Visits a tree. -/
def visit (r : Rules) (v : Value) : Except Fault Part :=
  match v with
  | .tuple [t, payload] =>
    match t.word? with
    | none => .ok (.value (.tuple [t, payload]))
    | some word =>
      match Tag.ofWord? r word with
      | none => visit r payload
      | some tag => handle r tag payload
  | .list xs => do
    let ps ← visitItems r xs
    .ok (.items ps)
  | v => .ok (.value v)
termination_by (v.depth, 0, 0)
decreasing_by
  · apply Prod.Lex.left; simp only [Value.depth, Value.depthItems]; omega
  · apply Prod.Lex.left; simp only [Value.depth, Value.depthItems]; omega
  · apply Prod.Lex.left; simp only [Value.depth]; omega

/-- Visits the items of a list, in order. -/
def visitItems (r : Rules) (xs : List Value) : Except Fault (List Part) :=
  match xs with
  | [] => .ok []
  | x :: xs => do
    let p ← visit r x
    let ps ← visitItems r xs
    .ok (p :: ps)
termination_by (Value.depthItems xs, 1, xs.length)
decreasing_by
  · exact lex_of_stage _ _ (by simp only [Value.depthItems]; omega) (by omega)
  · exact lex_of_length _ (by simp only [Value.depthItems]; omega) (by simp)

/-- Visits the values of a mapping, in order, and keeps the keys. -/
def visitEntries (r : Rules) (es : List (Value × Value)) :
    Except Fault (List (Value × Value)) :=
  match es with
  | [] => .ok []
  | (k, v) :: es => do
    let p ← visit r v
    let rest ← visitEntries r es
    .ok ((k, p.toValue) :: rest)
termination_by (depthValues es, 1, es.length)
decreasing_by
  · exact lex_of_stage _ _ (by simp only [depthValues]; omega) (by omega)
  · exact lex_of_length _ (by simp only [depthValues]; omega) (by simp)

/-- Reads a type: a node inside it is visited where the dialect has types that are nodes. -/
def typePart (r : Rules) (payload : Value) : Except Fault Part :=
  match r with
  | none => visit r payload
  | some .postgres =>
    match payload.tagged? with
    | some _ => visit r payload
    | none => .ok (.value (Postgres.typeOf payload).toValue)
  | some .sqlite => .ok (.value (Sqlite.typeOf payload).toValue)
termination_by (payload.depth, 1, 0)
decreasing_by
  all_goals exact lex_of_stage _ _ (Nat.le_refl _) (by omega)

/-- Reads a type where a component may be a node or stand alone. -/
def typeComponent (r : Rules) (v : Value) : Except Fault Part :=
  match v.tagged? with
  | some _ => visit r v
  | none => typePart r v
termination_by (v.depth, 2, 0)
decreasing_by
  all_goals exact lex_of_stage _ _ (Nat.le_refl _) (by omega)

/-- Reads a default where a component may be a node or stand alone. -/
def defaultComponent (r : Rules) (v : Value) : Except Fault Value :=
  match v.tagged? with
  | some _ => do
    let p ← visit r v
    .ok p.toValue
  | none => plainDefault r v
termination_by (v.depth, 2, 0)
decreasing_by
  exact lex_of_stage _ _ (Nat.le_refl _) (by omega)

/-- Visits a component that counts as an empty list where it is absent. -/
def listComponent (r : Rules) (v : Value) : Except Fault Part :=
  if v.isTruthy then visit r v else .ok (.items [])
termination_by (v.depth, 2, 0)
decreasing_by
  exact lex_of_stage _ _ (Nat.le_refl _) (by omega)

/-- Reads the flags of a node. -/
def flagsPart (r : Rules) (payload : Value) : Except Fault Part :=
  if payload.isTruthy then
    match payload with
    | .dict es => do
      let fs ← visitEntries r es
      .ok (.value (.dict fs))
    | _ => .error .noAttribute
  else .ok (.value (.dict []))
termination_by (payload.depth, 3, 0)
decreasing_by
  apply Prod.Lex.left
  have : depthValues es ≤ Value.depthEntries es :=
    depthValues_le fun e he => (Value.depth_le_depthEntries he).2
  simp only [Value.depth]; omega

/-- Reads a column: the default among its flags has rules of its own. -/
def columnPart (r : Rules) (payload : Value) : Except Fault Part :=
  match _h : ColumnNode.ofPayload payload with
  | .error f => .error f
  | .ok n =>
    match _hf : rawFlags n.flags with
    | .error f => .error f
    | .ok raw => do
      let flags ← visitEntries r (Value.drop raw "default")
      let default ← defaultComponent r (Value.getD raw "default")
      let name ← visit r n.name
      let type ← typeComponent r n.type
      columnOf name type (Value.put flags (.text "default") default)
termination_by (payload.depth, 3, 0)
decreasing_by
  · have h1 := (ColumnNode.depth_le _h).2.2
    have h2 := depth_drop (fun e he => Nat.le_trans (depth_rawFlags _hf e he) h1) "default"
    exact lex_of_stage _ _ h2 (by omega)
  · have h1 := (ColumnNode.depth_le _h).2.2
    have h2 := depth_getD (fun e he => Nat.le_trans (depth_rawFlags _hf e he) h1) "default"
    exact lex_of_stage _ _ h2 (by omega)
  · exact lex_of_stage _ _ (ColumnNode.depth_le _h).1 (by omega)
  · exact lex_of_stage _ _ (ColumnNode.depth_le _h).2.1 (by omega)

/-- Reads a foreign key. -/
def foreignKeyPart (r : Rules) (payload : Value) : Except Fault Part :=
  match _h : ForeignKeyNode.ofPayload payload with
  | .error f => .error f
  | .ok n => do
    let flags ← visit r n.flags
    let name ← visit r n.name
    let columns ← namesOf (← visit r n.columns)
    let table ← nameOf (← visit r n.table)
    let targets ← namesOf (← visit r n.targets)
    foreignKeyOf name columns table targets flags
termination_by (payload.depth, 3, 0)
decreasing_by
  all_goals
    obtain ⟨h1, h2, h3, h4, h5⟩ := ForeignKeyNode.depth_le _h
    exact lex_of_stage _ _ (by assumption) (by omega)

/-- Reads an index. -/
def indexPart (r : Rules) (payload : Value) : Except Fault Part :=
  match _h : IndexNode.ofPayload payload with
  | .error f => .error f
  | .ok n => do
    let flags ← visit r n.flags
    let name ← visit r n.name
    let columns ← namesOf (← visit r n.columns)
    indexOf name columns flags
termination_by (payload.depth, 3, 0)
decreasing_by
  all_goals
    obtain ⟨h1, h2, h3⟩ := IndexNode.depth_le _h
    exact lex_of_stage _ _ (by assumption) (by omega)

/-- Reads a table. -/
def tablePart (r : Rules) (payload : Value) : Except Fault Part :=
  match _h : TableNode.ofPayload payload with
  | .error f => .error f
  | .ok n => do
    let name ← visit r n.name
    let columns ← listComponent r n.columns
    let foreignKeys ← listComponent r n.foreignKeys
    let indices ← listComponent r n.indices
    tableOf r name columns foreignKeys indices
termination_by (payload.depth, 3, 0)
decreasing_by
  all_goals
    obtain ⟨h1, h2, h3, h4⟩ := TableNode.depth_le _h
    exact lex_of_stage _ _ (by assumption) (by omega)

/-- Reads a node. -/
def handle (r : Rules) (tag : Tag) (payload : Value) : Except Fault Part :=
  match tag with
  | .table => tablePart r payload
  | .identifier => do .ok (.value (.text (← payload.plain)))
  | .column => columnPart r payload
  | .type => typePart r payload
  | .default => do
    let d ← plainDefault r payload
    .ok (.value d)
  | .flags => flagsPart r payload
  | .foreignKey => foreignKeyPart r payload
  | .index => indexPart r payload
  | .enum => do
    let words ← enumWords payload
    .ok (.value (.type (.enum words)))
  | .array => do
    let p ← typePart r payload
    let t ← Value.require p.toValue.type?
    .ok (.value (.type (.array t)))
termination_by (payload.depth, 4, 0)
decreasing_by
  all_goals exact lex_of_stage _ _ (Nat.le_refl _) (by omega)

end

/-! ## Tables -/

/-- A tree that is not the tree of a table. -/
def notTable (tree : Value) : Fault :=
  .about tree.shown .notTable

/-- The table of a tree, in the dialect that a value names. -/
def build (tree dialect : Value) : Except Fault Table := do
  let d ← Registry.find dialect
  match ← visit (some d) tree with
  | .table t => .ok t
  | _ => .error (notTable tree)

end Schemata.Table
