/-
The union of fields by name.

`addField` puts a field into a list of fields with distinct names, merged with the field of
its name, and `mergeFields` adds all fields of one list to another. A name is therefore among
those of a union exactly if it is among those of one side, and under each name the union has
what the two sides have, merged.
-/
import Schemata.Proofs.Keyed
import Schemata.Schema.Merge

namespace Schemata

/-! ## Fields by name -/

namespace Schema

/-- Replacing a field by one of its own name changes no name. -/
theorem mem_names_addField {fields : List Field} {f : Field} {n : String} :
    n ∈ (addField fields f).map (·.name) ↔ n = f.name ∨ n ∈ fields.map (·.name) := by
  unfold addField
  split
  · exact mem_keys_putBy Field.name
  · simp [or_comm]

theorem nodup_addField {fields : List Field} (f : Field) (h : (fields.map (·.name)).Nodup) :
    ((addField fields f).map (·.name)).Nodup := by
  unfold addField
  split
  · exact nodup_putBy Field.name h
  · rename_i hf
    have hn : f.name ∉ fields.map (·.name) := by
      intro hm
      obtain ⟨g, hg, e⟩ := List.mem_map.1 hm
      exact absurd e (by simpa using List.find?_eq_none.1 hf g hg)
    rw [← putBy_of_notMem Field.name hn]
    exact nodup_putBy Field.name h

/-- Fields added one by one to fields with distinct names leave distinct names. -/
theorem nodup_foldl_addField {fields right : List Field} (h : (fields.map (·.name)).Nodup) :
    ((right.foldl addField fields).map (·.name)).Nodup := by
  induction right generalizing fields with
  | nil => exact h
  | cons f fs ih => exact ih (nodup_addField f h)

theorem mem_names_foldl_addField {fields right : List Field} {n : String} :
    n ∈ (right.foldl addField fields).map (·.name) ↔
      n ∈ fields.map (·.name) ∨ n ∈ right.map (·.name) := by
  induction right generalizing fields with
  | nil => simp
  | cons f fs ih =>
    rw [List.foldl_cons, ih, mem_names_addField, List.map_cons, List.mem_cons, or_assoc,
      or_left_comm]

theorem nodup_mergeFields (left right : List Field) :
    ((mergeFields left right).map (·.name)).Nodup :=
  nodup_foldl_addField (nodup_lastByKey Field.name left)

/-- A name is among those of a union exactly if one side has it. -/
theorem mem_names_mergeFields {left right : List Field} {n : String} :
    n ∈ (mergeFields left right).map (·.name) ↔
      n ∈ left.map (·.name) ∨ n ∈ right.map (·.name) := by
  unfold mergeFields
  rw [mem_names_foldl_addField, mem_keys_lastByKey Field.name]

/-! ### What a union has under a name -/

theorem names_addField (fields : List Field) (f : Field) :
    (addField fields f).map (·.name) =
      fields.map (·.name) ++ [f.name].filter (· ∉ fields.map (·.name)) := by
  unfold addField
  cases h : fields.find? (·.name == f.name) with
  | some g =>
    have found : f.name ∈ fields.map (·.name) :=
      List.mem_map.2 ⟨g, List.mem_of_find?_eq_some h, by simpa using List.find?_some h⟩
    rw [List.filter_cons_of_neg (by simpa using found), List.filter_nil, List.append_nil]
    exact keys_putBy_of_mem Field.name found
  | none =>
    have missing : f.name ∉ fields.map (·.name) := by simpa using h
    rw [List.filter_cons_of_pos (by simpa using missing), List.filter_nil, List.map_append,
      List.map_singleton]

theorem find?_addField (fields : List Field) (f : Field) (k : String) :
    (addField fields f).find? (·.name == k) =
      Option.merge Field.merge (fields.find? (·.name == k))
        ([f].find? (·.name == k)) := by
  unfold addField
  cases h : fields.find? (·.name == f.name) with
  | some g =>
    simp only []
    rw [find?_putBy Field.name]
    by_cases hk : f.name = k
    · subst hk
      simp [h, Field.merge]
    · simp [hk, Field.merge]
  | none =>
    by_cases hk : f.name = k
    · subst hk
      simp [h]
    · simp [hk]

/-- The names of a union are those of the left side, and after them the new ones of the
right. -/
theorem names_mergeFields {left right : List Field} (hl : (left.map (·.name)).Nodup)
    (hr : (right.map (·.name)).Nodup) :
    (mergeFields left right).map (·.name) =
      left.map (·.name) ++ (right.map (·.name)).filter (· ∉ left.map (·.name)) := by
  unfold mergeFields
  rw [lastByKey_of_nodup Field.name hl]
  clear hl
  induction right generalizing left with
  | nil => simp
  | cons f fs ih =>
    obtain ⟨notMem, nodup⟩ := List.nodup_cons.1 hr
    have rest : ∀ n ∈ fs.map (·.name), n ≠ f.name := by
      rintro n hn rfl
      exact notMem hn
    rw [List.foldl_cons, ih nodup, names_addField, List.map_cons, List.append_assoc]
    congr 1
    by_cases h : f.name ∈ left.map (·.name)
    · rw [List.filter_cons_of_neg (by simpa using h),
        List.filter_cons_of_neg (by simpa using h)]
      simp
    · rw [List.filter_cons_of_pos (by simpa using h),
        List.filter_cons_of_pos (by simpa using h)]
      refine congrArg (f.name :: ·) (List.filter_congr fun n hn => ?_)
      simp [rest n hn]

/-- Under each name a union has what both sides have, merged, or what one side has. -/
theorem find?_mergeFields {left right : List Field} (hl : (left.map (·.name)).Nodup)
    (hr : (right.map (·.name)).Nodup) (k : String) :
    (mergeFields left right).find? (·.name == k) =
      Option.merge Field.merge (left.find? (·.name == k)) (right.find? (·.name == k)) := by
  unfold mergeFields
  rw [lastByKey_of_nodup Field.name hl]
  clear hl
  induction right generalizing left with
  | nil => simp
  | cons f fs ih =>
    obtain ⟨notMem, nodup⟩ := List.nodup_cons.1 hr
    rw [List.foldl_cons, ih nodup, find?_addField]
    by_cases hk : f.name = k
    · subst hk
      rw [find?_eq_none_of_notMem Field.name notMem]
      simp
    · simp [hk]

/-- A field whose name is among those of a list resolves to a field of the list. -/
theorem resolve_mem {fields : List Field} {f : Field} (h : f.name ∈ fields.map (·.name)) :
    resolve fields f ∈ fields := by
  obtain ⟨g, hg, e⟩ := List.mem_map.1 h
  have hs : (fields.find? (·.name == f.name)).isSome :=
    List.find?_isSome.2 ⟨g, hg, by simpa using e⟩
  obtain ⟨found, hfound⟩ := Option.isSome_iff_exists.1 hs
  unfold resolve
  rw [hfound]
  exact List.mem_of_find?_eq_some hfound

/-- Resolving keeps the name of a field. -/
theorem resolve_name (fields : List Field) (f : Field) :
    (resolve fields f).name = f.name := by
  unfold resolve
  cases h : fields.find? (·.name == f.name) with
  | none => rfl
  | some g => simpa using List.find?_some h

/-- A field that is found by name resolves to what is found, whatever it was resolved to
before. -/
theorem resolve_resolve_of_mem {fields : List Field} {f : Field}
    (h : f.name ∈ fields.map (·.name)) (before : List Field) :
    resolve fields (resolve before f) = resolve fields f := by
  obtain ⟨g, hg⟩ : ∃ g, fields.find? (·.name == f.name) = some g := by
    simpa [List.find?_isSome, ← Option.isSome_iff_exists] using h
  have found : ∀ e : Field, e.name = f.name → resolve fields e = g := by
    intro e he
    unfold resolve
    rw [he, hg, Option.getD_some]
  rw [found _ (resolve_name before f), found f rfl]

end Schema

end Schemata
