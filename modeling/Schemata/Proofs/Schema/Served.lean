/-
A schema from the cache in the place of a fresh one.

A schema is inferred once and served from the cache afterwards. The two differ: what comes
back has words where the database generates a default. `served_alike` says that nobody who
uses the schema can tell. Completed with the same hand-written schema and narrowed to the same
names, both are refused for the same reason, or both give the same text of a model; and they
are equal as data, before and after.

The one condition of the last part is about the hand-written schema: data that hold themselves
are not equal to anything, so a default that does is not equal to itself.
-/
import Schemata.Proofs.Schema.Plain

namespace Schemata

/-! ## What is in a merged schema -/

section Keyed

variable {α : Type} {key : α → String} {p : α → Prop}

theorem forall_putBy {x : α} {ys : List α} (hx : p x) (hy : ∀ y ∈ ys, p y) :
    ∀ y ∈ putBy key x ys, p y := by
  induction ys with
  | nil => simpa [putBy] using hx
  | cons y ys ih =>
    have tail := ih fun z hz => hy z (.tail _ hz)
    unfold putBy
    split
    · intro z hz
      rcases List.mem_cons.1 hz with rfl | hz
      · exact hx
      · exact hy z (.tail _ hz)
    · intro z hz
      rcases List.mem_cons.1 hz with rfl | hz
      · exact hy z (.head _)
      · exact tail z hz

theorem forall_foldl_putBy {xs ys : List α} (hx : ∀ x ∈ xs, p x) (hy : ∀ y ∈ ys, p y) :
    ∀ z ∈ xs.foldl (fun zs x => putBy key x zs) ys, p z := by
  induction xs generalizing ys with
  | nil => exact hy
  | cons x xs ih =>
    exact ih (fun z hz => hx z (.tail _ hz)) (forall_putBy (hx x (.head _)) hy)

end Keyed

namespace Schema

theorem forall_addField {p : Field → Prop} (hp : ∀ f g, p f → p g → p (f.merge g))
    {fields : List Field} {f : Field} (hf : p f) (hs : ∀ g ∈ fields, p g) :
    ∀ g ∈ addField fields f, p g := by
  unfold addField
  split
  · rename_i g hg
    exact forall_putBy (hp g f (hs g (List.mem_of_find?_eq_some hg)) hf) hs
  · intro g hg
    rcases List.mem_append.1 hg with hg | hg
    · exact hs g hg
    · rw [List.mem_singleton.1 hg]
      exact hf

/-- What holds of all fields of two schemas and is kept by merging fields holds of their
union. -/
theorem forall_mergeFields {p : Field → Prop} (hp : ∀ f g, p f → p g → p (f.merge g))
    {left right : List Field} (hl : ∀ f ∈ left, p f) (hr : ∀ f ∈ right, p f) :
    ∀ f ∈ mergeFields left right, p f := by
  have step : ∀ {fs : List Field}, (∀ f ∈ fs, p f) →
      ∀ f ∈ right.foldl addField fs, p f := by
    induction right with
    | nil => exact fun h => h
    | cons f fs ih =>
      exact fun h =>
        ih (fun g hg => hr g (.tail _ hg)) (forall_addField hp (hr f (.head _)) h)
  exact step (forall_foldl_putBy hl fun _ h => nomatch h)

theorem resolve_mem_or (fields : List Field) (f : Field) :
    resolve fields f ∈ fields ∨ resolve fields f = f := by
  unfold resolve
  cases h : fields.find? (·.name == f.name) with
  | none => exact .inr rfl
  | some g => exact .inl (List.mem_of_find?_eq_some h)

theorem forall_map_resolve {p : Field → Prop} {fields fs : List Field}
    (hf : ∀ f ∈ fields, p f)
    (hs : ∀ f ∈ fs, p f) : ∀ f ∈ fs.map (resolve fields), p f := by
  intro f hm
  obtain ⟨g, hg, rfl⟩ := List.mem_map.1 hm
  rcases resolve_mem_or fields g with h | h
  · exact hf _ h
  · rw [h]
    exact hs g hg

end Schema

/-! ## What has an end -/

theorem FieldMeta.hasEnd_mergeExtra {a b : List (String × Value)}
    (ha : ∀ e ∈ a, e.2.hasEnd = true) (hb : ∀ e ∈ b, e.2.hasEnd = true) :
    ∀ e ∈ mergeExtra a b, e.2.hasEnd = true := by
  unfold mergeExtra
  induction b generalizing a with
  | nil => exact ha
  | cons x b ih =>
    refine ih ?_ fun e he => hb e (.tail _ he)
    dsimp only
    split
    · exact ha
    · rename_i hx
      exact forall_putBy (hb x (.head _)) ha

theorem FieldMeta.hasEnd_dumpedExtra {extra : List (String × Value)}
    (h : ∀ e ∈ extra, e.2.hasEnd = true) : ∀ e ∈ dumpedExtra extra, e.2.hasEnd = true := by
  intro e he
  obtain ⟨x, hx, rfl⟩ := List.mem_map.1 he
  exact Value.hasEnd_dumped x.2 (h x hx)

theorem Field.hasEnd_merge (f g : Field) (hf : f.hasEnd = true) (hg : g.hasEnd = true) :
    (f.merge g).hasEnd = true := by
  simp only [hasEnd, Bool.and_eq_true, entriesEnd_extraEntries] at hf hg ⊢
  refine ⟨?_, FieldMeta.hasEnd_mergeExtra (FieldMeta.hasEnd_dumpedExtra hf.2)
    (FieldMeta.hasEnd_dumpedExtra hg.2)⟩
  simp only [merge, FieldMeta.merge]
  split
  · exact Value.hasEnd_dumped _ hf.1
  · exact Value.hasEnd_dumped _ hg.1

namespace Schema.HasEnd

variable {s c m : Schema}

theorem merge (hs : s.HasEnd) (hc : c.HasEnd) : (s.merge c).HasEnd := by
  have fields := forall_mergeFields Field.hasEnd_merge hs.fields hc.fields
  refine ⟨fields, ?_, ?_⟩
  · intro k hk
    obtain ⟨l, hl, rfl⟩ := Option.mem_map.1 hk
    refine forall_map_resolve fields ?_
    rcases Option.or_eq_some_iff.1 hl with h | ⟨-, h⟩
    · exact hc.key l h
    · exact hs.key l h
  · intro i hi
    obtain ⟨j, hj, rfl⟩ := List.mem_map.1 hi
    refine forall_map_resolve fields ?_
    rcases List.mem_append.1 hj with h | h
    · exact hs.indices j h
    · exact hc.indices j h

theorem project (hs : s.HasEnd) (names : List String) : (s.project names).HasEnd := by
  unfold Schema.project
  dsimp only
  split
  · exact ⟨(fun _ h => nomatch h), hs.key, (fun _ h => nomatch h)⟩
  · have fields := fun f hf => hs.fields f (selected_subset s names f hf)
    refine ⟨fields, hs.key, ?_⟩
    intro i hi
    obtain ⟨j, hj, rfl⟩ := List.mem_map.1 hi
    exact forall_map_resolve fields (hs.indices j (List.mem_filter.1 hj).1)

theorem merge? (hs : s.HasEnd) (hc : c.HasEnd) (h : s.merge? c = .ok m) : m.HasEnd := by
  rw [eq_merge_of_merge? h]
  exact hs.merge hc

theorem projectOn {names : Value} (hs : s.HasEnd) (h : s.projectOn names = .ok m) :
    m.HasEnd := by
  unfold Schema.projectOn at h
  split at h
  · cases h
    exact ⟨(fun _ h => nomatch h), hs.key, (fun _ h => nomatch h)⟩
  · obtain ⟨xs, -, h⟩ := bind_eq_ok.1 h
    obtain ⟨ns, -, h⟩ := bind_eq_ok.1 h
    cases h
    exact hs.project ns

/-- What is completed has an end if both sides have. -/
theorem complete {custom : Option Schema} {fields : Value} (hs : s.HasEnd)
    (hc : ∀ c ∈ custom, c.HasEnd) (h : Inference.complete s custom fields = .ok m) :
    m.HasEnd := by
  rw [Inference.complete_eq] at h
  obtain ⟨n, hn, h⟩ := bind_eq_ok.1 h
  have merged : n.HasEnd := by
    cases custom with
    | none =>
      cases hn
      exact hs
    | some c => exact hs.merge? (hc c rfl) hn
  split at h
  · cases h
    exact merged
  · exact merged.projectOn h

end Schema.HasEnd

/-! ## Serving -/

open Inference (complete)

/-- A schema compiled from a table, with plain defaults, has a text for the cache. What comes
back from it is equal to it, and completed in any way gives the same text of a model, or the
same refusal. -/
theorem Inference.served_alike {bare : Value} {t : Table} {s : Schema}
    (compiled : Schema.ofTable bare t = .ok s)
    (plain : ∀ f ∈ s.fields, f.facts.default.IsPlainDefault) :
    ∃ s', s.reread = .ok s' ∧
      (∀ digest, ∃ text, StoredSchema.text ⟨s, digest⟩ = .ok text ∧
        Reading.ofText digest text = .fresh s') ∧
      s.same s' = true ∧
      ∀ (custom : Option Schema) (fields : Value),
        (complete s' custom fields >>= fun m => m.renderModel) =
          (complete s custom fields >>= fun m => m.renderModel) ∧
        ∀ m, complete s custom fields = .ok m → ∃ m', complete s' custom fields = .ok m' ∧
          ((∀ c ∈ custom, c.HasEnd) → m.same m' = true) := by
  obtain ⟨r, rfl⟩ := Schema.eq_compile_of_ofTable compiled
  have h := Schema.compile_isPlain plain
  generalize Schema.compile r t = s at *
  have words : s.worded = s.stored.worded := by rw [h.stored_eq_worded, s.worded_worded]
  refine ⟨s.stored, Schema.reread_eq h.representable h.writes.writable, h.text_ofText,
    Schema.same_of_worded words h.hasEnd, fun custom fields => ?_⟩
  have completed := Inference.complete_eq_of_worded words custom fields
  cases hm : complete s custom fields with
  | error e =>
    cases hm' : complete s.stored custom fields with
    | error e' =>
      rw [hm, hm'] at completed
      cases completed
      exact ⟨rfl, fun _ h => nomatch h⟩
    | ok m' =>
      rw [hm, hm'] at completed
      cases completed
  | ok m =>
    cases hm' : complete s.stored custom fields with
    | error e' =>
      rw [hm, hm'] at completed
      cases completed
    | ok m' =>
      rw [hm, hm'] at completed
      have same : m.worded = m'.worded := Except.ok.inj completed
      refine ⟨?_, fun n hn => ?_⟩
      · rw [ok_bind, ok_bind, ← m.renderModel_worded, same, m'.renderModel_worded]
      · cases hn
        exact ⟨m', rfl, fun hc => Schema.same_of_worded same (h.hasEnd.complete hc hm)⟩

/-- A table that counts its rows up and notes when each was made. -/
def visitsTable : Table where
  name := "visits"
  dialect := .sqlite
  columns := [
    { name := "id", type := .enum [], default := .generated .autoIncrement,
      primaryKey := true },
    { name := "seen_at", type := .enum [], default := .generated .currentTimestamp },
    { name := "tags", type := .enum [], default := .list [.text "new", .int 1] }]
  foreignKeys := []
  indices := []

theorem Inference.served_alike_visits :
    ∃ s s', Schema.ofTable .null visitsTable = .ok s ∧ s.reread = .ok s' ∧ s.same s' = true ∧
      (complete s' none (.list [.text "tags", .text "id"]) >>= fun m => m.renderModel) =
        (complete s none (.list [.text "tags", .text "id"]) >>= fun m => m.renderModel) := by
  have compiled : Schema.ofTable .null visitsTable = .ok (Schema.compile ⟨some .sqlite, none⟩
      visitsTable) := rfl
  have plain : ∀ f ∈ (Schema.compile ⟨some .sqlite, none⟩ visitsTable).fields,
      f.facts.default.IsPlainDefault := by
    intro f hf
    simp only [Schema.compile, visitsTable, List.map_cons, List.map_nil, List.mem_cons,
      List.not_mem_nil, or_false] at hf
    rcases hf with rfl | rfl | rfl
    · exact .inl ⟨_, rfl⟩
    · exact .inl ⟨_, rfl⟩
    · refine .inr (.list fun x hx => ?_)
      simp only [List.mem_cons, List.not_mem_nil, or_false] at hx
      rcases hx with rfl | rfl
      · exact .text "new"
      · exact .int (by decide)
  obtain ⟨s', reread, -, same, alike⟩ := served_alike compiled plain
  exact ⟨_, s', compiled, reread, same, (alike none (.list [.text "tags", .text "id"])).1⟩

end Schemata
