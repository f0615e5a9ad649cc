/-
The marks of a built table.

A column says of itself whether it belongs to a foreign key, and the table says it once more
in its list of foreign keys. The builder of a table keeps the two in step: whatever the flags
of a column state, a column that a foreign key of the table is over is marked
(`built_marksKeys`). A column may be marked without a foreign key.

The tree of a table may stand under unknown words and inside the node of a type. So it is
shown first that every table that a visit results in was put together by `tableOf`.
-/
import Schemata.Proofs.Table.Visit

namespace Schemata.Table

variable {r : Rules}

/-- The columns that the foreign keys of a table are over are marked. -/
def MarksKeys (t : Table) : Prop :=
  ∀ c ∈ t.columns, t.isForeignKeyColumn c.name = true → c.foreignKey = true

/-! ## What the parts of a table are -/

/-- Foreign keys mention their columns, and nothing else is mentioned. -/
theorem mentioned_eq_flatMap {ps : List Part} {names : List String} {ks : List ForeignKey}
    (read : mentioned ps = .ok names) (keys : ps.mapM asForeignKey = some ks) :
    names = ks.flatMap (·.columns) := by
  induction ps generalizing names ks with
  | nil =>
    cases keys
    cases read
    rfl
  | cons p ps ih =>
    rw [List.mapM_cons] at keys
    obtain ⟨k, own, keys⟩ := Option.bind_eq_some_iff.1 keys
    obtain ⟨rest, others, keys⟩ := Option.bind_eq_some_iff.1 keys
    cases keys
    cases p with
    | foreignKey k' =>
      cases own
      obtain ⟨more, readMore, read⟩ := bind_eq_ok.1 read
      cases read
      rw [List.flatMap_cons, ih readMore others]
    | _ => cases own

/-- Only columns can be marked, and marking leaves all else of them as it is. -/
theorem exists_marked {names : List String} {ps qs : List Part} {cs : List Column}
    (marks : marked names ps = .ok qs) (columns : columnsOf qs = .ok cs) :
    ∃ own : List Column, ps = own.map .column ∧
      cs = own.map fun c =>
        { c with foreignKey := c.foreignKey || names.contains c.name } := by
  induction ps generalizing qs cs with
  | nil =>
    cases marks
    cases columns
    exact ⟨[], rfl, rfl⟩
  | cons p ps ih =>
    cases p with
    | column c =>
      obtain ⟨rest, others, marks⟩ := bind_eq_ok.1 marks
      cases marks
      obtain ⟨ds, more, columns⟩ := bind_eq_ok.1 columns
      cases columns
      obtain ⟨own, rfl, rfl⟩ := ih others more
      refine ⟨c :: own, rfl, ?_⟩
      rw [List.map_cons, List.cons.injEq]
      refine ⟨?_, rfl⟩
      split
      · rename_i named
        rw [named, Bool.or_true]
      · rename_i other
        rw [Bool.not_eq_true] at other
        rw [other, Bool.or_false]
    | index _ | foreignKey _ | table _ =>
      unfold marked at marks
      split at marks
      · cases marks
      · obtain ⟨rest, -, marks⟩ := bind_eq_ok.1 marks
        cases marks
        cases columns
    | _ => cases marks

/-- The columns of a table as they were before the foreign keys were looked at. -/
theorem exists_own_columns {name columns foreignKeys indices : Part} {t : Table}
    (made : tableOf r name columns foreignKeys indices = .ok (.table t)) :
    r = some t.dialect ∧ ∃ own : List Column, partsOf columns = .ok (own.map .column) ∧
      (listed columns).isSome = true ∧
        t.columns = own.map fun c =>
          { c with foreignKey := c.foreignKey || t.isForeignKeyColumn c.name } := by
  obtain ⟨u, same, rules, keys, names, ps, qs, -, mentions, built, parts, marks,
      read, list⟩ :=
    tableOf_eq_ok made
  cases same
  obtain ⟨own, rfl, cs⟩ := exists_marked marks read
  refine ⟨rules, own, parts, list, ?_⟩
  have isForeign (n : String) : names.contains n = t.isForeignKeyColumn n := by
    rw [mentioned_eq_flatMap mentions built, isForeignKeyColumn, List.contains_eq_any_beq,
      List.any_flatMap]
    simp only [List.contains_eq_any_beq]
  simpa only [isForeign] using cs

theorem tableOf_marksKeys {name columns foreignKeys indices : Part} {t : Table}
    (made : tableOf r name columns foreignKeys indices = .ok (.table t)) : t.MarksKeys := by
  obtain ⟨-, own, -, -, columns⟩ := exists_own_columns made
  rw [MarksKeys, columns, List.forall_mem_map]
  intro c _ named
  exact Bool.or_eq_true_iff.2 (.inr named)

/-! ## Where tables come from -/

/-- A type is a table only if what stands in its place is visited and is one. -/
theorem visit_of_typePart {payload : Value} {t : Table}
    (made : typePart r payload = .ok (.table t)) : visit r payload = .ok (.table t) := by
  unfold typePart at made
  split at made
  · exact made
  · split at made
    · exact made
    · cases made
  · cases made

theorem tableOf_of_tablePart {payload : Value} {p : Part}
    (made : tablePart r payload = .ok p) :
    ∃ name columns foreignKeys indices,
      tableOf r name columns foreignKeys indices = .ok p := by
  rw [tablePart_eq] at made
  obtain ⟨node, -, made⟩ := bind_eq_ok.1 made
  obtain ⟨name, -, made⟩ := bind_eq_ok.1 made
  obtain ⟨columns, -, made⟩ := bind_eq_ok.1 made
  obtain ⟨foreignKeys, -, made⟩ := bind_eq_ok.1 made
  obtain ⟨indices, -, made⟩ := bind_eq_ok.1 made
  exact ⟨name, columns, foreignKeys, indices, made⟩

/-- The nodes that may be a table are tables and types. -/
theorem handle_eq_table {tag : Tag} {payload : Value} {t : Table}
    (made : handle r tag payload = .ok (.table t)) :
    (∃ name columns foreignKeys indices,
      tableOf r name columns foreignKeys indices = .ok (.table t)) ∨
        visit r payload = .ok (.table t) := by
  by_cases type : tag = .type
  · subst type
    rw [handle.eq_def] at made
    exact .inr (visit_of_typePart made)
  · obtain rfl := eq_of_tagOf? made type rfl
    rw [handle.eq_def] at made
    exact .inl (tableOf_of_tablePart made)

/-- Every table that a visit results in was put together of its components. -/
theorem exists_tableOf {v : Value} {t : Table} (made : visit r v = .ok (.table t)) :
    ∃ name columns foreignKeys indices,
      tableOf r name columns foreignKeys indices = .ok (.table t) := by
  induction depth : v.depth using Nat.strong_induction_on generalizing v with
  | _ n ih =>
    unfold visit at made
    split at made
    · rename_i word payload
      have deeper : payload.depth < n := by
        rw [← depth]
        simp only [Value.depth, Value.depthItems]
        omega
      split at made
      · cases made
      split at made
      · exact ih _ deeper made rfl
      · rcases handle_eq_table made with found | made
        · exact found
        · exact ih _ deeper made rfl
    · obtain ⟨ps, -, made⟩ := bind_eq_ok.1 made
      cases made
    · cases made

/-- In a built table the columns of foreign keys are marked. -/
theorem built_marksKeys {tree dialect : Value} {t : Table}
    (built : build tree dialect = .ok t) :
    t.MarksKeys := by
  obtain ⟨d, -, built⟩ := bind_eq_ok.1 built
  obtain ⟨p, visited, built⟩ := bind_eq_ok.1 built
  split at built
  · cases built
    obtain ⟨name, columns, foreignKeys, indices, made⟩ := exists_tableOf visited
    exact tableOf_marksKeys made
  · cases built

end Schemata.Table
