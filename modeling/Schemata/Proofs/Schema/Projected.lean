/-
Projecting a projection.

What a projection keeps is told by look-up alone: under a name it has the field that the
schema has, if the name is among the selected ones, and nothing else (`field?_project`). So a
second projection finds what the first one would have found for those of its names that the
first one was asked for, and the two together are one projection on these names
(`selected_project`). The same holds of the indices, since an index that survives the second
selection would have survived the first, which is larger.

Nothing is asked of the schema. Names may repeat or be unknown, fields may share a name, and
indices may be over fields that the schema does not have, or over none. A projection that
selects nothing drops all indices and is no exception: what is selected from it is nothing
again.
-/
import Schemata.Proofs.Schema.WellFormed

namespace Schemata

attribute [ext] Schema

namespace Schema

/-! ## What is selected -/

theorem selected_concat (s : Schema) (names : List String) (n : String) :
    s.selected (names ++ [n]) =
      match s.field? n with
      | some f =>
        if (s.selected names).any (·.name == n) then s.selected names
        else s.selected names ++ [f]
      | none => s.selected names := by
  rw [selected, List.foldl_append]
  rfl

/-- Under a selected name is what the schema has there, and nothing is under any other
name. -/
theorem find?_selected (s : Schema) (names : List String) (n : String) :
    (s.selected names).find? (·.name == n) = if n ∈ names then s.field? n else none := by
  induction names using List.reverseRecOn generalizing n with
  | nil => rfl
  | append_singleton names m ih =>
    rw [selected_concat]
    cases hm : s.field? m with
    | none =>
      by_cases h : n = m
      · subst h
        simp [ih, hm]
      · simp [ih, h]
    | some f =>
      have own := field?_name hm
      -- a name that has a field is taken exactly if it was selected before
      have taken : (s.selected names).any (·.name == m) = decide (m ∈ names) := by
        rw [← List.isSome_find?, ih]
        by_cases before : m ∈ names <;> simp [before, hm]
      dsimp only
      rw [taken]
      by_cases before : m ∈ names
      · by_cases h : n = m
        · subst h
          simp [ih, before]
        · simp [ih, h, before]
      · by_cases h : n = m
        · subst h
          simp [ih, before, own, hm]
        · have other : ¬ f.name = n := fun e => h (e.symm.trans own)
          simp [ih, h, before, other]

theorem mem_names_selected {s : Schema} {names : List String} {n : String} :
    n ∈ (s.selected names).map (·.name) ↔ n ∈ names ∧ (s.field? n).isSome := by
  have found : n ∈ (s.selected names).map (·.name) ↔
      ((s.selected names).find? (·.name == n)).isSome := by
    simp [List.find?_isSome]
  rw [found, find?_selected]
  by_cases h : n ∈ names <;> simp [h]

/-! ## Look-up in a projection -/

theorem project_fields (s : Schema) (names : List String) :
    (s.project names).fields = s.selected names := by
  unfold project
  dsimp only
  split
  · rename_i nothing
    exact (List.isEmpty_iff.1 nothing).symm
  · rfl

@[simp] theorem project_source (s : Schema) (names : List String) :
    (s.project names).source = s.source := by
  unfold project
  dsimp only
  split <;> rfl

/-- A projection has the field of the schema under each name that it was asked for. -/
theorem field?_project (s : Schema) (names : List String) (n : String) :
    (s.project names).field? n = if n ∈ names then s.field? n else none := by
  rw [field?, project_fields, find?_selected]

/-- What is selected from a projection is what is selected from the schema, of the names that
the projection was asked for. -/
theorem selected_project (s : Schema) (A B : List String) :
    (s.project A).selected B = s.selected (B.filter (A.contains ·)) := by
  unfold selected
  rw [List.foldl_filter]
  congr 1
  funext fs n
  rw [field?_project]
  by_cases h : n ∈ A <;> simp [h]

/-! ## Indices -/

/-- All fields of an index are, by name, among these. -/
def Index.isWithin (fields : List Field) (i : Index) : Bool :=
  i.fieldNames.all fun n => fields.any (·.name == n)

theorem Index.fieldNames_over (i : Index) (fields : List Field) :
    (i.over fields).fieldNames = i.fieldNames := by
  simp [Index.fieldNames, Index.over, Function.comp_def, resolve_name]

theorem Index.isWithin_iff {fields : List Field} {i : Index} :
    i.isWithin fields = true ↔ ∀ f ∈ i.fields, f.name ∈ fields.map (·.name) := by
  simp [Index.isWithin, Index.fieldNames]

/-- Fields that are found by name in a list resolve to what is there, whatever they were
resolved to before. -/
theorem Index.over_over_of_isWithin {fields : List Field} {i : Index}
    (within : i.isWithin fields = true) (more : List Field) :
    (i.over more).over fields = i.over fields := by
  have resolved :
      ∀ f ∈ i.fields, resolve fields (resolve more f) = resolve fields f := fun f hf =>
    resolve_resolve_of_mem (Index.isWithin_iff.1 within f hf) more
  simpa [Index.over] using resolved

theorem project_indices (s : Schema) (names : List String) :
    (s.project names).indices =
      if s.selected names = [] then []
      else (s.indices.filter (Index.isWithin (s.selected names))).map
        (·.over (s.selected names)) := by
  unfold project
  dsimp only
  by_cases nothing : s.selected names = []
  · simp [nothing, withoutFields]
  · rw [if_neg (by simpa using nothing), if_neg nothing]
    rfl

/-- A projection of a projection is one projection, on those of its names that the first one
was asked for. -/
theorem project_project (s : Schema) (A B : List String) :
    (s.project A).project B = s.project (B.filter (A.contains ·)) := by
  have fields :
      ((s.project A).project B).fields = (s.project (B.filter (A.contains ·))).fields := by
    rw [project_fields, project_fields, selected_project]
  have indices :
      ((s.project A).project B).indices = (s.project (B.filter (A.contains ·))).indices := by
    rw [project_indices, selected_project, project_indices s (B.filter _)]
    -- the fields of the two selections, the second within the first
    generalize first : s.selected A = more
    generalize second : s.selected (B.filter (A.contains ·)) = kept
    have subset : kept.map (·.name) ⊆ more.map (·.name) := by
      intro n hn
      rw [← second, mem_names_selected] at hn
      rw [← first, mem_names_selected]
      exact ⟨by simpa using (List.mem_filter.1 hn.1).2, hn.2⟩
    by_cases nothing : kept = []
    · rw [if_pos nothing, if_pos nothing]
    · have something : more ≠ [] := by
        rintro rfl
        exact nothing (List.map_eq_nil_iff.1 (List.subset_nil.1 subset))
      rw [if_neg nothing, if_neg nothing, project_indices, first, if_neg something,
        List.filter_map, List.filter_filter, List.map_map]
      have within :
          ∀ i ∈ s.indices, ((Index.isWithin kept ∘ (·.over more)) i && i.isWithin more) =
          i.isWithin kept := by
        intro i _
        rw [Function.comp_apply, Index.isWithin, Index.fieldNames_over, ← Index.isWithin]
        by_cases h : i.isWithin kept = true
        · have larger : i.isWithin more = true :=
            Index.isWithin_iff.2 fun f hf => subset (Index.isWithin_iff.1 h f hf)
          rw [h, larger]
          rfl
        · rw [Bool.not_eq_true] at h
          rw [h, Bool.false_and]
      rw [List.filter_congr within]
      refine List.map_congr_left fun i hi => ?_
      exact Index.over_over_of_isWithin (List.mem_filter.1 hi).2 more
  exact Schema.ext (by simp) fields (by simp) (by simp) indices

/-! ## Projections as they are asked for -/

/-- A projection on a list of texts is always made. -/
theorem projectOn_ofTexts (s : Schema) (names : List String) :
    s.projectOn (.ofTexts names) = .ok (s.project names) := by
  unfold projectOn
  split
  · rename_i empty
    have unknown : ∀ n, s.field? n = none := by
      intro n
      rw [field?, List.isEmpty_iff.1 empty, List.find?_nil]
    have nothing : s.selected names = [] := by
      rw [← List.map_eq_nil_iff (f := (·.name)), List.eq_nil_iff_forall_not_mem]
      intro n
      simp [-List.mem_map, mem_names_selected, unknown]
    rw [project]
    simp [nothing]
  · have read : (Value.ofTexts names).items = .ok (names.map .text) := rfl
    rw [read, ok_bind, Value.mapM_plain_text, ok_bind]

/-- For every schema and all lists of names: both projections are made, and the second of the
first is the projection on those of its names that the first was asked for, in their order. In
particular nothing changes if the first projection is made again. -/
theorem projectOn_projectOn (s : Schema) (A B : List String) :
    ∃ p, s.projectOn (.ofTexts A) = .ok p ∧
      p.projectOn (.ofTexts B) = s.projectOn (.ofTexts (B.filter (A.contains ·))) ∧
      p.projectOn (.ofTexts A) = .ok p := by
  refine ⟨s.project A, projectOn_ofTexts s A, ?_, ?_⟩
  · rw [projectOn_ofTexts, projectOn_ofTexts, project_project]
  · have all : A.filter (A.contains ·) = A := by
      rw [List.filter_eq_self]
      simp
    rw [projectOn_ofTexts, project_project, all]

end Schema

end Schemata
