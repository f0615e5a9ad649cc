/-
What building a table can fail for.

The builder takes any tree, and checks nothing before it uses it. A tree that is not as it
should be is refused where a value is missing or of the wrong kind, and the refusal says no
more than that. No other fault comes out of the builder: every function of it is shown to fail
by refusals only (`OnlyRefuses`), one after the other in the order of the builder, and the
visit by induction on the depth of a tree.
-/
import Schemata.Proofs.Table.Number
import Schemata.Proofs.Table.Visit

namespace Schemata

/-- Refusals of malformed data. -/
def Fault.isRefusal : Fault → Bool
  | .invalid => true
  | .wrongKind => true
  | .noAttribute => true
  | .missingKey => true
  | .badValue => true
  | .endless => true
  | _ => false

/-- A step that may fail does so by refusing. -/
def OnlyRefuses {α : Type} (x : Except Fault α) : Prop :=
  ∀ f, x = .error f → f.isRefusal = true

/-! ## Chains of steps -/

namespace OnlyRefuses

variable {α β : Type}

theorem ok (a : α) : OnlyRefuses (.ok a) := nofun

theorem error {f : Fault} (h : f.isRefusal = true) :
    OnlyRefuses (.error f : Except Fault α) := by
  rintro _ ⟨⟩
  exact h

theorem bind {x : Except Fault α} {g : α → Except Fault β} (first : OnlyRefuses x)
    (rest : ∀ a, x = .ok a → OnlyRefuses (g a)) : OnlyRefuses (x >>= g) := by
  cases x with
  | error f => exact error (first f rfl)
  | ok a => exact rest a rfl

theorem mapM {g : α → Except Fault β} {xs : List α} (each : ∀ x ∈ xs, OnlyRefuses (g x)) :
    OnlyRefuses (xs.mapM g) := by
  induction xs with
  | nil => exact ok []
  | cons x xs ih =>
    rw [List.mapM_cons]
    refine bind (each x (.head _)) fun y _ => ?_
    exact bind (ih fun z hz => each z (.tail _ hz)) fun ys _ => ok _

theorem ite {c : Prop} [Decidable c] {x y : Except Fault α} (hx : OnlyRefuses x)
    (hy : OnlyRefuses y) : OnlyRefuses (if c then x else y) := by
  split
  · exact hx
  · exact hy

theorem require (o : Option α) : OnlyRefuses (Value.require o) := by
  cases o with
  | none => exact error rfl
  | some a => exact ok a

end OnlyRefuses

/-! ## Values -/

namespace Value

theorem onlyRefuses_plain (v : Value) : OnlyRefuses v.plain :=
  .ite (.error rfl) (.ok _)

theorem onlyRefuses_items (v : Value) : OnlyRefuses v.items := by
  unfold items
  split
  · exact .ok _
  · exact .error rfl

theorem onlyRefuses_pair (v : Value) : OnlyRefuses (pair v) := by
  unfold pair
  split
  · exact .error rfl
  · split
    · exact .ok _
    · exact .error rfl
  · exact .error rfl

theorem onlyRefuses_pairsInto (es : List (Value × Value)) (xs : List Value) :
    OnlyRefuses (pairsInto es xs) := by
  induction xs generalizing es with
  | nil => exact .ok es
  | cons x xs ih =>
    unfold pairsInto
    split
    · rename_i f failed
      exact .error (onlyRefuses_pair x f failed)
    · exact ih _

theorem onlyRefuses_entries (v : Value) : OnlyRefuses v.entries := by
  unfold entries
  split
  · exact .ok _
  · split
    · exact .error rfl
    · exact onlyRefuses_pairsInto _ _

end Value

/-! ## Defaults -/

/-- What is no word with a meaning is a number, unless it is too long, or a truth value, or a
text. -/
theorem onlyRefuses_ofLiteral (cs : List Char) : OnlyRefuses (Value.ofLiteral cs) := by
  unfold Value.ofLiteral
  cases Text.digitLiteral? cs with
  | some ds => exact .ite (.error rfl) (.ok _)
  | none =>
    cases Text.fractionLiteral? cs with
    | some parts => exact .ok _
    | none => exact .ite (.ok _) (.ite (.ok _) (.ok _))

theorem Postgres.onlyRefuses_defaultOf (cs : List Char) :
    OnlyRefuses (Postgres.defaultOf cs) := by
  unfold Postgres.defaultOf
  iterate 7 refine .ite (.ok _) ?_
  exact onlyRefuses_ofLiteral cs

theorem Postgres.onlyRefuses_parseDefault (v : Value) :
    OnlyRefuses (Postgres.parseDefault v) := by
  unfold Postgres.parseDefault
  split
  · exact .ite (.ok _) (Postgres.onlyRefuses_defaultOf _)
  · exact .ok _

theorem Sqlite.onlyRefuses_defaultOf (cs : List Char) :
    OnlyRefuses (Sqlite.defaultOf cs) := by
  unfold Sqlite.defaultOf
  split
  case h_7 => exact onlyRefuses_ofLiteral cs
  all_goals exact .ok _

theorem Sqlite.onlyRefuses_parseDefault (v : Value) :
    OnlyRefuses (Sqlite.parseDefault v) := by
  unfold Sqlite.parseDefault
  split
  · exact .ite (.ok _) (Sqlite.onlyRefuses_defaultOf _)
  · exact .ok _

namespace Table

variable {r : Rules}

theorem onlyRefuses_plainDefault (v : Value) : OnlyRefuses (plainDefault r v) := by
  match r with
  | some .postgres => exact Postgres.onlyRefuses_parseDefault v
  | some .sqlite => exact Sqlite.onlyRefuses_parseDefault v
  | none => exact .ok v

/-! ## Components -/

section Components

variable {payload : Value}

theorem onlyRefuses_components {α : Type} {n : Nat} {make : List Value → α} :
    OnlyRefuses (do
      let xs ← payload.items
      if xs.length < n then (.error .badValue : Except Fault α) else .ok (make xs)) := by
  exact .bind payload.onlyRefuses_items fun xs _ => .ite (.error rfl) (.ok _)

theorem onlyRefuses_enumWords : OnlyRefuses (enumWords payload) := by
  exact .ite (.bind payload.onlyRefuses_items fun xs _ => .mapM fun x _ =>
    x.onlyRefuses_plain)
    (.ok _)

theorem onlyRefuses_rawFlags (v : Value) : OnlyRefuses (rawFlags v) := by
  exact .ite (Value.onlyRefuses_entries _) (.ok _)

theorem onlyRefuses_flagsOf (p : Part) : OnlyRefuses (flagsOf p) := by
  refine .ite ?_ (.ok _)
  split
  · exact .ok _
  · exact .error rfl

theorem onlyRefuses_partsOf (p : Part) : OnlyRefuses (partsOf p) := by
  unfold partsOf
  split
  · exact .ok _
  · exact .error rfl

theorem onlyRefuses_namesOf (p : Part) : OnlyRefuses (namesOf p) :=
  .bind (onlyRefuses_partsOf p) fun _ _ => .mapM fun q _ => q.toValue.onlyRefuses_plain

end Components

/-! ## Parts from their components -/

section Making

variable {name type columns foreignKeys indices flags : Part}

theorem onlyRefuses_columnOf {es : List (Value × Value)} :
    OnlyRefuses (columnOf name type es) := by
  exact .ite (.error rfl) (.require _)

theorem onlyRefuses_foreignKeyOf {ns ms : List String} {table : String} :
    OnlyRefuses (foreignKeyOf name ns table ms flags) :=
  .bind (onlyRefuses_flagsOf flags) fun _ _ => .bind (.require _) fun _ _ => .ok _

theorem onlyRefuses_indexOf {ns : List String} : OnlyRefuses (indexOf name ns flags) :=
  .bind (onlyRefuses_flagsOf flags) fun _ _ => .require _

theorem onlyRefuses_mentioned (ps : List Part) : OnlyRefuses (mentioned ps) := by
  induction ps with
  | nil => exact .ok []
  | cons p ps ih =>
    cases p with
    | foreignKey k => exact .bind ih fun _ _ => .ok _
    | index i => exact .bind ih fun _ _ => .ok _
    | table t => exact .ite ih (.error rfl)
    | _ => exact .error rfl

theorem onlyRefuses_marked (names : List String) (ps : List Part) :
    OnlyRefuses (marked names ps) := by
  induction ps with
  | nil => exact .ok []
  | cons p ps ih =>
    cases p with
    | column c => exact .bind ih fun _ _ => .ok _
    | index i => exact .ite (.error rfl) (.bind ih fun _ _ => .ok _)
    | foreignKey k => exact .ite (.error rfl) (.bind ih fun _ _ => .ok _)
    | table t => exact .ite (.error rfl) (.bind ih fun _ _ => .ok _)
    | _ => exact .error rfl

theorem onlyRefuses_columnsOf (ps : List Part) : OnlyRefuses (columnsOf ps) := by
  induction ps with
  | nil => exact .ok []
  | cons p ps ih =>
    cases p with
    | column c => exact .bind ih fun _ _ => .ok _
    | _ => exact .error rfl

theorem onlyRefuses_tableOf : OnlyRefuses (tableOf r name columns foreignKeys indices) := by
  refine .bind (onlyRefuses_partsOf foreignKeys) fun keys _ => ?_
  refine .bind (onlyRefuses_mentioned keys) fun names _ => ?_
  refine .bind (onlyRefuses_partsOf columns) fun ps _ => ?_
  refine .bind (onlyRefuses_marked names ps) fun qs _ => ?_
  exact .bind (onlyRefuses_columnsOf qs) fun cs _ => .require _

end Making

/-! ## Visits -/

section Visits

variable {payload : Value}

/-- What is no deeper than a value is visited without another fault. -/
def Visits (r : Rules) (bound : Value) : Prop :=
  ∀ v : Value, v.depth ≤ bound.depth → OnlyRefuses (visit r v)

theorem Visits.of_le {v w : Value} (h : Visits r v) (le : w.depth ≤ v.depth) : Visits r w :=
  fun u hu => h u (Nat.le_trans hu le)

theorem Visits.self {v : Value} (h : Visits r v) : OnlyRefuses (visit r v) :=
  h v (Nat.le_refl _)

theorem Visits.entries {es : List (Value × Value)}
    (h : ∀ e ∈ es, Visits r e.2) : OnlyRefuses (es.mapM (visitEntry r)) :=
  .mapM fun e he => .bind (h e he).self fun _ _ => .ok _

theorem Visits.typePart (h : Visits r payload) : OnlyRefuses (typePart r payload) := by
  unfold Table.typePart
  split
  · exact h.self
  · split
    · exact h.self
    · exact .ok _
  · exact .ok _

theorem Visits.typeComponent (h : Visits r payload) :
    OnlyRefuses (typeComponent r payload) := by
  unfold Table.typeComponent
  split
  · exact h.self
  · exact h.typePart

theorem Visits.defaultComponent (h : Visits r payload) :
    OnlyRefuses (defaultComponent r payload) := by
  unfold Table.defaultComponent
  split
  · exact .bind h.self fun _ _ => .ok _
  · exact onlyRefuses_plainDefault payload

theorem Visits.listComponent (h : Visits r payload) :
    OnlyRefuses (listComponent r payload) := by
  unfold Table.listComponent
  exact .ite h.self (.ok _)

theorem Visits.name (h : Visits r payload) : OnlyRefuses (visit r payload >>= nameOf) :=
  .bind h.self fun p _ => p.toValue.onlyRefuses_plain

theorem Visits.names (h : Visits r payload) : OnlyRefuses (visit r payload >>= namesOf) :=
  .bind h.self fun p _ => onlyRefuses_namesOf p

theorem Visits.flagsPart (h : Visits r payload) : OnlyRefuses (flagsPart r payload) := by
  unfold Table.flagsPart
  split
  · split
    · rename_i es
      rw [visitEntries_eq_mapM]
      refine .bind (entries fun e he => h.of_le ?_) fun _ _ => .ok _
      have inside := (Value.depth_le_depthEntries he).2
      simp only [Value.depth]
      omega
    · exact .error rfl
  · exact .ok _

theorem Visits.columnPart (h : Visits r payload) : OnlyRefuses (columnPart r payload) := by
  rw [columnPart_eq]
  refine .bind onlyRefuses_components fun n read => ?_
  obtain ⟨name, type, flags⟩ := ColumnNode.depth_le read
  refine .bind (onlyRefuses_rawFlags _) fun raw listed => ?_
  have within : ∀ e ∈ raw, e.2.depth ≤ payload.depth :=
    fun e he => Nat.le_trans (depth_rawFlags listed e he) flags
  refine .bind (entries fun e he => h.of_le (within e (List.mem_filter.1 he).1)) fun _ _ => ?_
  refine .bind (h.of_le (depth_getD within "default")).defaultComponent fun _ _ => ?_
  refine .bind (h.of_le name).self fun _ _ => ?_
  exact .bind (h.of_le type).typeComponent fun _ _ => onlyRefuses_columnOf

theorem Visits.foreignKeyPart (h : Visits r payload) :
    OnlyRefuses (foreignKeyPart r payload) := by
  rw [foreignKeyPart_eq]
  refine .bind onlyRefuses_components fun n read => ?_
  obtain ⟨name, columns, table, targets, flags⟩ := ForeignKeyNode.depth_le read
  refine .bind (h.of_le flags).self fun _ _ => ?_
  refine .bind (h.of_le name).self fun _ _ => ?_
  refine .bind (h.of_le columns).names fun _ _ => ?_
  refine .bind (h.of_le table).name fun _ _ => ?_
  exact .bind (h.of_le targets).names fun _ _ => onlyRefuses_foreignKeyOf

theorem Visits.indexPart (h : Visits r payload) : OnlyRefuses (indexPart r payload) := by
  rw [indexPart_eq]
  refine .bind onlyRefuses_components fun n read => ?_
  obtain ⟨name, columns, flags⟩ := IndexNode.depth_le read
  refine .bind (h.of_le flags).self fun _ _ => ?_
  refine .bind (h.of_le name).self fun _ _ => ?_
  exact .bind (h.of_le columns).names fun _ _ => onlyRefuses_indexOf

theorem Visits.tablePart (h : Visits r payload) : OnlyRefuses (tablePart r payload) := by
  rw [tablePart_eq]
  refine .bind onlyRefuses_components fun n read => ?_
  obtain ⟨name, columns, foreignKeys, indices⟩ := TableNode.depth_le read
  refine .bind (h.of_le name).self fun _ _ => ?_
  refine .bind (h.of_le columns).listComponent fun _ _ => ?_
  refine .bind (h.of_le foreignKeys).listComponent fun _ _ => ?_
  exact .bind (h.of_le indices).listComponent fun _ _ => onlyRefuses_tableOf

theorem Visits.handle (h : Visits r payload) (tag : Tag) :
    OnlyRefuses (handle r tag payload) := by
  rw [handle.eq_def]
  cases tag with
  | table => exact h.tablePart
  | identifier => exact .bind payload.onlyRefuses_plain fun _ _ => .ok _
  | column => exact h.columnPart
  | type => exact h.typePart
  | default => exact .bind (onlyRefuses_plainDefault payload) fun _ _ => .ok _
  | flags => exact h.flagsPart
  | foreignKey => exact h.foreignKeyPart
  | index => exact h.indexPart
  | enum => exact .bind onlyRefuses_enumWords fun _ _ => .ok _
  | array => exact .bind h.typePart fun _ _ => .bind (.require _) fun _ _ => .ok _

/-- A visit refuses what it cannot use, and has no other fault. -/
theorem onlyRefuses_visit (r : Rules) (v : Value) : OnlyRefuses (visit r v) := by
  induction depth : v.depth using Nat.strong_induction_on generalizing v with
  | _ n ih =>
    subst depth
    unfold visit
    split
    · rename_i t payload
      have inner : Visits r payload := by
        intro w hw
        refine ih _ ?_ w rfl
        simp only [Value.depth, Value.depthItems]
        omega
      split
      · exact .ok _
      · split
        · exact inner.self
        · exact inner.handle _
    · rename_i xs
      rw [visitItems_eq_mapM]
      refine .bind (.mapM fun x hx => ih _ ?_ x rfl) fun _ _ => .ok _
      have inside := Value.depth_le_depthItems hx
      simp only [Value.depth]
      omega
    · exact .ok _

end Visits

/-! ## Tables -/

/-- The tree of a table is refused, or it is built. -/
theorem onlyRefuses_build (payload : Value) (d : Dialect) :
    OnlyRefuses (build (.tagged "table" payload) (.dialect d)) := by
  have found : Registry.find (.dialect d) = .ok d := rfl
  rw [build, found, ok_bind]
  refine .bind (onlyRefuses_visit _ _) fun p visited => ?_
  rw [visit_table, tablePart_eq] at visited
  obtain ⟨_, -, visited⟩ := bind_eq_ok.1 visited
  obtain ⟨_, -, visited⟩ := bind_eq_ok.1 visited
  obtain ⟨_, -, visited⟩ := bind_eq_ok.1 visited
  obtain ⟨_, -, visited⟩ := bind_eq_ok.1 visited
  obtain ⟨_, -, visited⟩ := bind_eq_ok.1 visited
  obtain ⟨t, rfl, -⟩ := tableOf_eq_ok visited
  exact .ok t

end Table

end Schemata
