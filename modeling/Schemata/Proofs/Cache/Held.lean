/-
What the directory of a repository holds while tables are asked for one after the other.

From an empty directory on, it holds after each table the entries of the tables so far and
nothing else (`Family.Holds`). So a table that is named for the first time is not found, and
its schema is inferred; and a table that is named again is found, and its schema is the one
that was stored a moment before (`Answers`). One step of this is `ensures_obtainAt_holds`, and
a whole list of tables is `ensures_warmUp_holds`.
-/
import Schemata.Proofs.Cache.WarmUp

namespace Schemata

variable {ι : Type} {s : Settings} {home : Location} {F : Family ι s home}
  {i j : ι} {t : String}

/-! ## Schemas that are described -/

namespace Introspector

variable {introspector : Introspector} {repo : Repository} {table : Value} {schema : Schema}

theorem representable_of_describe (h : introspector.describe s repo table = .ok schema) :
    schema.Representable := by
  refine (Caching.infer_cases s repo table (some introspector) ⟨⟨[], []⟩, []⟩).2 schema ?_
  rw [Caching.run_infer]
  exact h

/-- With plain defaults it is equal to what is read back of it. -/
theorem same_stored_of_describe (h : introspector.describe s repo table = .ok schema)
    (plain : ∀ f ∈ schema.fields, f.facts.default.IsPlainDefault) :
    schema.same schema.stored = true := by
  obtain ⟨tree, -, h⟩ := bind_eq_ok.1 h
  obtain ⟨built, -, compiled⟩ := bind_eq_ok.1 h
  obtain ⟨r, rfl⟩ := Schema.eq_compile_of_ofTable compiled
  have isPlain := Schema.compile_isPlain plain
  refine Schema.same_of_worded ?_ isPlain.hasEnd
  rw [isPlain.stored_eq_worded, Schema.worded_worded]

end Introspector

/-! ## What the directory of a repository holds -/

namespace Family

/-- The directory of a repository holds the schemas of tables as a database describes them,
stored with a digest, and no other file. -/
structure Holds (F : Family ι s home) (i : ι) (introspector : Introspector) (D : String)
    (ts : List String) (d : Disk) : Prop where
  entry : ∀ t ∈ ts, ∃ schema text, introspector.describe s (F.repo i) (.text t) = .ok schema ∧
    StoredSchema.entryText ⟨schema, D⟩ = .ok text ∧
      d.readBytes (F.entry i t) = .ok text.toUTF8
  only : ∀ l b, F.place (F.directory i) <+: l → d.HasFile l b → ∃ t ∈ ts, l = F.entryPlace i t

namespace Holds

variable {introspector : Introspector} {D : String} {ts : List String} {d e f : Disk}

/-- A table that is held already may be named again. -/
theorem cons_of_mem (h : F.Holds i introspector D ts d) (ht : t ∈ ts) :
    F.Holds i introspector D (t :: ts) d where
  entry u hu := h.entry u ((List.mem_cons.1 hu).elim (fun e => e ▸ ht) id)
  only l b inside file := by
    obtain ⟨u, hu, place⟩ := h.only l b inside file
    exact ⟨u, .tail _ hu, place⟩

/-- The schema of a table that is held is found as it is read back. -/
theorem reading_of_mem (h : F.Holds i introspector D ts d) (ht : t ∈ ts) :
    ∃ schema, introspector.describe s (F.repo i) (.text t) = .ok schema ∧
      Cache.reading (F.entry i t) D d = .fresh schema.stored := by
  obtain ⟨schema, text, described, wrote, read⟩ := h.entry t ht
  obtain ⟨writable, -⟩ :=
    StoredSchema.isWritable_of_text (StoredSchema.entryText_eq_ok.1 wrote).1
  refine ⟨schema, described, ?_⟩
  rw [reading_of_readBytes wrote read, if_pos rfl]
  exact Reading.ofReread_of_reread
    (Schema.reread_eq (Introspector.representable_of_describe described) writable)

/-- A table that is not held is not found. -/
theorem reading_of_notMem (h : F.Holds i introspector D ts d) (here : d.home = home)
    (table : IsTable t) (ht : t ∉ ts) : Cache.reading (F.entry i t) D d = .unreadable := by
  by_contra found
  obtain ⟨b, -, file⟩ := F.exists_hasFile_of_reading i here table found
  obtain ⟨u, hu, place⟩ := h.only _ b (List.prefix_append _ _) file
  obtain ⟨-, rfl⟩ := (F.entryPlace_eq_iff i i).1 place
  exact ht hu

/-- A table is held with the others after its schema and the marker were written. -/
theorem cons_of_written (h : F.Holds i introspector D ts d) (named : F.IsNamed)
    (here : d.home = home) (tables : ∀ u ∈ t :: ts, IsTable u) {schema : Schema}
    {text : String}
    (described : introspector.describe s (F.repo i) (.text t) = .ok schema)
    (wrote : StoredSchema.entryText ⟨schema, D⟩ = .ok text)
    (written : d.Written (F.directory i) (t ++ ".json") text.toUTF8 e)
    (marks : F.Marks e i D f) :
    F.Holds i introspector D (t :: ts) f := by
  have later : e.home = home := written.home.trans here
  have own : d.place (F.directory i) ++ [t ++ ".json"] = F.entryPlace i t := by
    rw [F.place_eq here, entryPlace]
  have table : IsTable t := tables t (.head _)
  constructor
  · intro u hu
    -- The marker is beside the entries, so that they are read after it was written as before.
    have onward {b : ByteArray} (read : e.readBytes (F.entry i u) = .ok b) :
        f.readBytes (F.entry i u) = .ok b := by
      obtain ⟨_, _, -, marked, -⟩ := marks.written
      refine Disk.readBytes_mono marked.home (fun _ => marked.hasDirectory)
        (fun file => ?_) read
      refine (marks.hasFile_iff later ?_).2 file
      rw [F.place_entry i later (tables u hu)]
      exact (F.markerPlace_ne_entryPlace i i u).symm
    by_cases same : u = t
    · subst same
      refine ⟨schema, text, described, wrote, onward ?_⟩
      have leaves : (F.directory i).LeavesHome := by
        rw [named.directory_eq]
        exact Path.leavesHome_child _ _
      refine Disk.readBytes_of_hasFile written.usable
        (written.reaches_child leaves (isName_entry table).down) ?_
      have file := written.file
      rwa [own, ← F.place_entry i later table] at file
    · obtain ⟨schema', text', described', wrote', read⟩ :=
        h.entry u ((List.mem_cons.1 hu).resolve_left same)
      refine ⟨schema', text', described', wrote', onward ?_⟩
      refine Disk.readBytes_mono written.home (fun _ => written.hasDirectory)
        (fun file => ?_) read
      refine (written.hasFile_iff ?_).2 file
      rw [F.place_entry i here (tables u hu), own]
      exact fun clash => same ((F.entryPlace_eq_iff i i).1 clash).2
  · intro l b inside file
    rcases written.hasFile
      ((marks.file_iff named later inside).1 file) with ⟨place, -⟩ | before
    · exact ⟨t, .head _, place.trans own⟩
    · obtain ⟨u, hu, place⟩ := h.only l b inside before
      exact ⟨u, .tail _ hu, place⟩

end Holds

end Family

/-! ## Answers -/

/-- Schemas are the answers for tables, after others: each is what the database describes, and
what is read back of it where the table was named before. -/
inductive Answers (describe : String → Except Fault Schema) :
    List String → List String → List Schema → Prop where
  | nil {seen : List String} : Answers describe seen [] []
  | cons {seen ts : List String} {t : String} {schema : Schema} {rs : List Schema}
    (described : describe t = .ok schema) (rest : Answers describe (t :: seen) ts rs) :
    Answers describe seen (t :: ts) ((if t ∈ seen then schema.stored else schema) :: rs)

namespace Answers

variable {describe : String → Except Fault Schema} {seen ts : List String} {rs : List Schema}

theorem length_eq (h : Answers describe seen ts rs) : rs.length = ts.length := by
  induction h with
  | nil => rfl
  | cons _ _ ih => rw [List.length_cons, List.length_cons, ih]

/-- The answer at a position. -/
theorem get (h : Answers describe seen ts rs) {before after : List String}
    (split : ts = before ++ t :: after) :
    ∃ schema, describe t = .ok schema ∧
      rs[before.length]? =
        some (if t ∈ before ∨ t ∈ seen then schema.stored else schema) := by
  induction h generalizing before with
  | nil => simp at split
  | @cons seen ts u schema rs described rest ih =>
    cases before with
    | nil =>
      obtain ⟨rfl, -⟩ := List.cons.inj split
      exact ⟨schema, described, by simp⟩
    | cons v before =>
      obtain ⟨rfl, later⟩ := List.cons.inj split
      obtain ⟨schema', described', answer⟩ := ih later
      refine ⟨schema', described', ?_⟩
      rw [List.length_cons, List.getElem?_cons_succ, answer]
      simp only [List.mem_cons, or_assoc, or_left_comm]

end Answers

/-! ## Tables one after the other -/

namespace Noting

open Caching

variable {introspector : Introspector} {D : String} {seen ts : List String}

/-- What is inferred is what the database describes, and no file is changed. -/
theorem ensures_infer_described (introspector : Introspector) {P : Disk → Prop} :
    Ensures (F.Tidy P) (silently (Cache.infer s (F.repo i) (.text t) (some introspector)))
      (fun schema c => introspector.describe s (F.repo i) (.text t) = .ok schema ∧ F.Tidy P c)
      (fun _ => True) := by
  intro c tidy
  unfold silently
  rw [run_infer]
  cases described : introspector.describe s (F.repo i) (.text t) with
  | error e =>
    unfold Introspector.describe at described
    rw [described]
    trivial
  | ok schema =>
    unfold Introspector.describe at described
    rw [described]
    exact ⟨rfl, tidy.home_eq, tidy.holds⟩

/-- A table is found if it is held, and is stored if it is not; then it is held with the
others. Other facts may be carried along. -/
theorem ensures_obtainAt_holds (named : F.IsNamed) (enabled : Cache.isEnabled s = true)
    (solid : Text.IsSolid D) (tables : ∀ u ∈ t :: seen, IsTable u) (disk : Disk) (A : Prop) :
    Ensures (F.Tidy fun d => A ∧ F.Holds i introspector D seen d)
      (obtainAt s F.repo i t (some introspector) disk (some D))
      (fun r => F.Tidy fun d =>
        (A ∧ ∃ schema, introspector.describe s (F.repo i) (.text t) = .ok schema ∧
          r = if t ∈ seen then schema.stored else schema) ∧
        F.Holds i introspector D (t :: seen) d)
      (fun _ => True) := by
  have table : IsTable t := tables t (.head _)
  have looked : Ensures (F.Tidy fun d => A ∧ F.Holds i introspector D seen d)
      (lookupAt s F.repo i t disk D)
      (fun found => F.Tidy fun d => (A ∧ F.Holds i introspector D seen d) ∧
        if t ∈ seen then
          ∃ schema, introspector.describe s (F.repo i) (.text t) = .ok schema ∧
            found = some schema.stored
        else found = none)
      (fun _ => True) := by
    refine ensures_lookupAt_tidy table disk (fun _ _ => trivial) fun d here holds => ?_
    by_cases ht : t ∈ seen
    · obtain ⟨schema, described, reads⟩ := holds.2.reading_of_mem ht
      rw [reads]
      exact ⟨holds, by rw [if_pos ht]; exact ⟨schema, described, rfl⟩⟩
    · rw [holds.2.reading_of_notMem here table ht]
      exact ⟨holds, by rw [if_neg ht]⟩
  unfold obtainAt
  refine looked.bind fun found => ?_
  cases found with
  | some r =>
    refine Ensures.pure fun c tidy => tidy.imp ?_
    rintro d ⟨⟨a, holds⟩, found⟩
    by_cases ht : t ∈ seen
    · rw [if_pos ht] at found
      obtain ⟨schema, described, same⟩ := found
      exact ⟨⟨a, schema, described, by rw [if_pos ht]; exact Option.some.inj same⟩,
        holds.cons_of_mem ht⟩
    · rw [if_neg ht] at found
      cases found
  | none =>
    refine (ensures_infer_described introspector).bind fun schema => ?_
    refine Ensures.given fun described => ?_
    refine Ensures.bind (Q := fun _ => F.Tidy fun d => t ∉ seen ∧ A ∧
      F.Holds i introspector D (t :: seen) d) ?_ fun _ => Ensures.pure
        fun c tidy => tidy.imp ?_
    · unfold store
      rw [if_pos enabled, digestOr_some F.repo i solid]
      refine (ensures_storeWith_writes table).weaken (fun _ h => h) (fun _ _ h => h.imp ?_)
        fun _ _ => trivial
      rintro f ⟨d, e, text, ⟨⟨a, holds⟩, found⟩, here, wrote, written, marks⟩
      refine ⟨fun ht => ?_, a,
        holds.cons_of_written named here tables described wrote written marks⟩
      rw [if_pos ht] at found
      obtain ⟨_, -, none⟩ := found
      cases none
    · rintro d ⟨ht, a, holds⟩
      exact ⟨⟨a, schema, described, by rw [if_neg ht]⟩, holds⟩

/-- Going through tables answers for each, and holds all of them. -/
theorem ensures_mapM_obtainAt_holds (named : F.IsNamed) (enabled : Cache.isEnabled s = true)
    (solid : Text.IsSolid D) (tables : ∀ u ∈ ts ++ seen, IsTable u) (disk : Disk) (A : Prop) :
    Ensures (F.Tidy fun d => A ∧ F.Holds i introspector D seen d)
      (ts.mapM fun t => obtainAt s F.repo i t (some introspector) disk (some D))
      (fun rs => F.Tidy fun d =>
        (A ∧ Answers (fun t => introspector.describe s (F.repo i) (.text t)) seen ts rs) ∧
        F.Holds i introspector D (ts.reverse ++ seen) d)
      (fun _ => True) := by
  induction ts generalizing seen A with
  | nil =>
    refine Ensures.pure fun c tidy => tidy.imp ?_
    rintro d ⟨a, holds⟩
    exact ⟨⟨a, .nil⟩, holds⟩
  | cons t ts ih =>
    rw [List.mapM_cons]
    have first : ∀ u ∈ t :: seen, IsTable u := by
      intro u hu
      rcases List.mem_cons.1 hu with rfl | hu
      · exact tables _ (.head _)
      · exact tables u (List.mem_append_right _ hu)
    refine (ensures_obtainAt_holds named enabled solid first disk A).bind fun r => ?_
    refine (ih (fun u hu => tables u ?_) _).bind fun rs =>
      Ensures.pure fun c tidy => tidy.imp ?_
    · simpa [or_comm, or_left_comm] using hu
    · rintro d ⟨⟨⟨a, schema, described, rfl⟩, answers⟩, holds⟩
      refine ⟨⟨a, .cons described answers⟩, ?_⟩
      rwa [List.reverse_cons, List.append_assoc, List.singleton_append]

end Noting

/-! ## From an empty directory on -/

namespace Family

/-- There is no file in the directory of a repository. -/
def IsBare (F : Family ι s home) (i : ι) (d : Disk) : Prop :=
  ∀ l b, F.place (F.directory i) <+: l → ¬ d.HasFile l b

theorem IsBare.holds {d : Disk} (h : F.IsBare i d) (introspector : Introspector)
    (D : String) :
    F.Holds i introspector D [] d :=
  ⟨nofun, fun l b inside file => absurd file (h l b inside)⟩

/-- Asking for the digest makes no file in the directory. -/
theorem keeps_bare (named : F.IsNamed) :
    F.Keeps (F.IsBare i) (Cache.currentDigest s (F.repo i)) := by
  refine .currentDigest ?_ ?_
  · exact fun d _ bare l b inside file => bare l b inside file.of_eraseTree.2
  · intro D d here bare l b inside file
    refine bare l b inside ((hasFile_write_marker_iff here ?_).1 file)
    rintro rfl
    exact named.not_prefix_marker inside

end Family

namespace Noting

variable {ts : List String} {d : Disk}

theorem ensures_workingDigest_bare (named : F.IsNamed) (enabled : Cache.isEnabled s = true) :
    Ensures (fun c => (c.store.disk.home = home ∧ F.IsBare i c.store.disk) ∧ c.store.disk = d)
      (workingDigest s F.repo i)
      (fun digest c => ∃ D, digest = some D ∧ s.migrationsDigest (F.repo i) d = .ok D ∧
        F.Tidy (F.IsBare i) c)
      (fun _ => True) := by
  rintro c ⟨⟨here, bare⟩, rfl⟩
  have kept := (F.keeps_bare (i := i) named).run here bare
  obtain ⟨result, store⟩ := Erases.workingDigest s F.repo i c
  rw [Cache.workingDigest_eq _ enabled, run_bind] at result store
  cases asked : Cache.currentDigest s (F.repo i) c.store with
  | mk r σ =>
    rw [asked] at result store kept
    cases noted : workingDigest s F.repo i c with
    | mk r' c' =>
      rw [noted] at result store
      cases r with
      | error e =>
        obtain rfl : r' = .error e := result
        trivial
      | ok D =>
        obtain rfl : r' = .ok (some D) := result
        obtain rfl : c'.store = σ := store
        exact ⟨D, rfl, Cache.digest_of_currentDigest asked, kept.1, fun _ => kept.2⟩

/-- A warm-up of a repository without stored schemas infers the schema of every table. -/
theorem ensures_warmUp_holds (named : F.IsNamed) (enabled : Cache.isEnabled s = true)
    (tables : ∀ t ∈ ts, IsTable t) (introspector : Introspector) :
    Ensures (fun c => (c.store.disk.home = home ∧ F.IsBare i c.store.disk) ∧ c.store.disk = d)
      (warmUp s F.repo i ts (some introspector))
      (fun rs c => ∃ D, s.migrationsDigest (F.repo i) d = .ok D ∧
        F.Tidy (fun e =>
          Answers (fun t => introspector.describe s (F.repo i) (.text t)) [] ts rs ∧
          F.Holds i introspector D ts.reverse e) c)
      (fun _ => True) := by
  unfold warmUp
  refine Ensures.bind (Q := fun _ (c : Chronicle ι) =>
    (c.store.disk.home = home ∧ F.IsBare i c.store.disk) ∧ c.store.disk = d) (fun _ h => h)
    fun disk => ?_
  refine (ensures_workingDigest_bare named enabled).bind fun digest => ?_
  rintro c ⟨D, rfl, asked, bare⟩
  have solid := Settings.isSolid_migrationsDigest asked
  refine Ensures.weaken (ensures_mapM_obtainAt_holds named enabled solid
    (by simpa using tables) disk True) (fun _ h => h) (fun rs c h => ⟨D, asked, h.imp ?_⟩)
    (fun _ h => h) c (bare.imp fun d bare => ⟨trivial, bare.holds introspector D⟩)
  rintro e ⟨⟨-, answers⟩, holds⟩
  rw [List.append_nil] at holds
  exact ⟨answers, holds⟩

end Noting

end Schemata
