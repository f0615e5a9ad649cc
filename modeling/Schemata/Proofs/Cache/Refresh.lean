/-
Refreshing a cache.

A refresh removes what is stored for a repository, and then goes through the tables that are
named. After the removal the directory of the repository holds no file, so that only what the
tables leave there has to be followed: the first time a table is named its schema is inferred
and stored, and after that it is found. The files of other repositories stay as they are
(`keeps_others`).

What is found is a stored schema as it is read back. It is equal to the one that was inferred
if the defaults are plain data. A default that a document cannot hold as it is, such as a
tuple, comes back as something else (`refresh_tupleRows`). And what is stored has the digest
that the migrations had right after the removal. It is the digest that they have at the end
where they lie aside of the cache, and need not be where they are above it
(`refresh_migrationsAbove`).
-/
import Schemata.Proofs.Cache.Held
import Schemata.Proofs.Snapshot.Fidelity

namespace Schemata

variable {ι : Type} {s : Settings} {home : Location} {F : Family ι s home}
  {i j : ι} {t : String}

/-! ## The files of other repositories -/

namespace Family

/-- A place belongs to a repository: it is in its directory, or it is the place of its
marker. -/
def IsOf (F : Family ι s home) (j : ι) (l : Location) : Prop :=
  F.place (F.directory j) <+: l ∨ l = F.markerPlace j

/-- No short name is another one with the ending of a marker, since there is a dot in the
ending. -/
theorem name_ne_append (F : Family ι s home) (i j : ι) :
    F.name i ≠ F.name j ++ markerEnding := by
  intro same
  refine F.dot_notMem_name i ?_
  rw [same, String.toList_append]
  exact List.mem_append_right _ (by decide)

/-- What belongs to a repository is not in the directory of another one, and not its
marker. -/
theorem IsNamed.apart (named : F.IsNamed) (ne : j ≠ i) {l : Location} (own : F.IsOf j l) :
    ¬ F.place (F.directory i) <+: l ∧ l ≠ F.markerPlace i := by
  have beside (k m : ι) : F.place (F.directory k) ≠ F.markerPlace m := by
    rw [named.place_directory, named.markerPlace_eq]
    exact fun same =>
      F.name_ne_append k m (List.singleton_inj.1 (List.append_cancel_left same))
  rcases own with inside | rfl
  · constructor
    · intro within
      rcases List.prefix_or_prefix_of_prefix inside within with above | above
      · exact named.not_prefix_directory i j ne above
      · exact named.not_prefix_directory j i ne.symm above
    · rintro rfl
      exact beside j i (named.eq_of_prefix_marker i j inside)
  · exact ⟨fun within => beside i j (named.eq_of_prefix_marker j i within),
      fun same => ne (named.markerPlace_inj j i same)⟩

/-- A refresh leaves the files of other repositories as they are. -/
theorem keeps_others (named : F.IsNamed) (ne : j ≠ i) {ts : List String}
    (tables : ∀ t ∈ ts, IsTable t) (introspector : Option Introspector) (d₀ : Disk) :
    F.Keeps (fun d => ∀ l b, F.IsOf j l → (d.HasFile l b ↔ d₀.HasFile l b))
      (Cache.refresh s (F.repo i) (some (ts.map .text)) introspector) := by
  have below (t : String) : F.place (F.directory i) <+: F.entryPlace i t :=
    List.prefix_append _ _
  refine .refresh ?_ ?_ ?_ ?_ introspector
  · intro d _ same l b own
    refine Iff.trans ⟨fun file => file.of_eraseTree.2, fun file => ?_⟩ (same l b own)
    rw [Disk.HasFile, Disk.entry?_eraseTree file.ne_nil, if_neg (named.apart ne own).1]
    exact file
  · intro D d here same l b own
    exact (hasFile_write_marker_iff here (named.apart ne own).2).trans (same l b own)
  · intro t ht d _ _ same _ l b own
    rw [F.place_file i (tables t ht)]
    refine Iff.trans ⟨fun file => file.of_erase.2, fun file => ?_⟩ (same l b own)
    rw [Disk.HasFile, Disk.entry?_erase file.ne_nil, if_neg]
    · exact file
    · rintro rfl
      exact (named.apart ne own).1 (below t)
  · intro t ht text d here same l b own
    rw [F.file_eq_entry i (tables t ht)]
    refine (hasFile_write_entry_iff here ?_).trans (same l b own)
    rintro rfl
    exact (named.apart ne own).1 (below t)

end Family

/-! ## A refresh -/

/-- What a refresh comes to. The schemas are those that the database describes, in the order
of the tables, and what is read back of them for a table that was named before. The directory
of the repository has the entry of each table, and no other file. Each entry records the
digest, and what is read from it is what is read back of the described schema, and equal to it
if its defaults are plain. -/
structure Family.Refreshed (F : Family ι s home) (i : ι)
    (introspector : Introspector) (D : String)
    (ts : List String) (rs : List Schema) (d : Disk) : Prop where
  length : rs.length = ts.length
  answer : ∀ before t after, ts = before ++ t :: after →
    ∃ schema, introspector.describe s (F.repo i) (.text t) = .ok schema ∧
      rs[before.length]? = some (if t ∈ before then schema.stored else schema)
  entry : ∀ t ∈ ts, ∃ schema b, introspector.describe s (F.repo i) (.text t) = .ok schema ∧
    d.HasFile (F.entryPlace i t) b ∧ Cache.Records D b ∧
    Cache.reading (F.entry i t) D d = .fresh schema.stored ∧
    ((∀ f ∈ schema.fields, f.facts.default.IsPlainDefault) → schema.same schema.stored = true)
  only : ∀ l b, F.place (F.directory i) <+: l → d.HasFile l b → ∃ t ∈ ts, l = F.entryPlace i t

theorem Family.Refreshed.of_holds {introspector : Introspector} {D : String}
    {ts : List String}
    {rs : List Schema} {d : Disk} (tables : ∀ t ∈ ts, IsTable t) (here : d.home = home)
    (answers : Answers (fun t => introspector.describe s (F.repo i) (.text t)) [] ts rs)
    (holds : F.Holds i introspector D ts.reverse d) :
    F.Refreshed i introspector D ts rs d where
  length := answers.length_eq
  answer before t after split := by simpa using answers.get split
  entry t ht := by
    have held : t ∈ ts.reverse := List.mem_reverse.2 ht
    obtain ⟨schema, text, described, wrote, read⟩ := holds.entry t held
    obtain ⟨schema', described', reads⟩ := holds.reading_of_mem held
    obtain rfl := Except.ok.inj (described.symm.trans described')
    have file := (Disk.hasFile_of_readBytes read).2
    rw [F.place_entry i here (tables t ht)] at file
    have records := Cache.records_of_text (StoredSchema.entryText_eq_ok.1 wrote).1
    exact ⟨schema, _, described, file, records, reads,
      Introspector.same_stored_of_describe described⟩
  only l b inside file := by
    obtain ⟨t, ht, place⟩ := holds.only l b inside file
    exact ⟨t, List.mem_reverse.1 ht, place⟩

namespace Cache

variable {introspector : Introspector} {ts : List String} {rs : List Schema} {σ σ' : Store}

/-- A refresh that returns is a removal, after which every schema is inferred. -/
theorem holds_of_refresh (named : F.IsNamed) (enabled : isEnabled s = true)
    (tables : ∀ t ∈ ts, IsTable t) (here : σ.disk.home = home) (housed : F.Housed i σ.disk)
    (returned : refresh s (F.repo i) (some (ts.map .text)) (some introspector) σ =
      (.ok rs, σ'))
    (accepted :
      .refused ∉ (Noting.refresh s F.repo i (some ts) (some introspector) ⟨σ, []⟩).2.events) :
    ∃ D, s.migrationsDigest (F.repo i) (clearRepository s (F.repo i) σ).2.disk = .ok D ∧
      σ'.disk.home = home ∧
      Answers (fun t => introspector.describe s (F.repo i) (.text t)) [] ts rs ∧
      F.Holds i introspector D ts.reverse σ'.disk := by
  have bare : (clearRepository s (F.repo i) σ).2.disk.home = home ∧
      F.IsBare i (clearRepository s (F.repo i) σ).2.disk :=
    ⟨(F.file_of_cleared here i).1, fun l b inside => housed.cleared here inside⟩
  obtain ⟨result, store⟩ :=
    Noting.Erases.refresh s F.repo i (some ts) (some introspector) ⟨σ, []⟩
  rw [Option.map_some, returned] at result store
  cases done : clearRepository s (F.repo i) σ with
  | mk r σ₀ =>
    rw [done] at bare
    have noted : Noting.clear s F.repo i ⟨σ, []⟩ = (r, ⟨σ₀, [.cleared i]⟩) := by
      have silent : (Noting.silently (clearRepository s (F.repo i)) : Noting ι Unit)
          ⟨σ, [.cleared i]⟩ = (r, ⟨σ₀, [.cleared i]⟩) := by
        rw [Noting.silently, done]
      exact silent
    unfold Noting.refresh at result store accepted
    rw [run_bind, noted] at result store accepted
    cases r with
    | error e => cases result
    | ok _ =>
      dsimp only at result store accepted
      have after := Noting.ensures_warmUp_holds named enabled tables introspector
        ⟨σ₀, [.cleared i]⟩ ⟨bare, rfl⟩
      cases warmed : Noting.warmUp s F.repo i ts (some introspector) ⟨σ₀, [.cleared i]⟩ with
      | mk r c =>
        rw [warmed] at result store accepted after
        obtain rfl : r = .ok rs := result
        obtain rfl : c.store = σ' := store
        obtain ⟨D, digest, tidy⟩ := after
        exact ⟨D, digest, tidy.home_eq, tidy.holds accepted⟩

/-- Where the migrations lie aside of the cache, neither the removal nor the rest of a refresh
changes their digest. -/
theorem digest_refresh {p : Path} (aside : F.Aside i p σ.disk) (named : F.IsNamed)
    (tables : ∀ t ∈ ts, IsTable t) (here : σ.disk.home = home)
    (introspector : Option Introspector) :
    s.migrationsDigest (F.repo i) (clearRepository s (F.repo i) σ).2.disk =
        s.migrationsDigest (F.repo i) σ.disk ∧
      s.migrationsDigest (F.repo i)
          (refresh s (F.repo i) (some (ts.map .text)) introspector σ).2.disk =
        s.migrationsDigest (F.repo i) σ.disk := by
  have cleared : F.Keeps (F.Around σ.disk) (clearRepository s (F.repo i)) :=
    .clearRepository (Family.Around.cleared named i)
  have refreshed : F.Keeps (F.Around σ.disk)
      (refresh s (F.repo i) (some (ts.map .text)) introspector) :=
    Family.Around.keeps_refresh named aside.rootDown tables introspector
  exact ⟨aside.digest_eq (cleared.run here (.refl _)).2 here,
    aside.digest_eq (refreshed.run here (.refl _)).2 here⟩

/-- Whatever was stored before, a refresh that returns has inferred every schema again, and
stored it under the digest of the migrations as they were after the removal, if no write was
refused. The files of other repositories are as they were. Where the migrations lie aside of
the cache, the digest is the one before the refresh and after it. -/
theorem refresh_refreshes (named : F.IsNamed) (enabled : isEnabled s = true)
    (tables : ∀ t ∈ ts, IsTable t) (here : σ.disk.home = home) (housed : F.Housed i σ.disk)
    (returned : refresh s (F.repo i) (some (ts.map .text)) (some introspector) σ =
      (.ok rs, σ'))
    (accepted :
      .refused ∉ (Noting.refresh s F.repo i (some ts) (some introspector) ⟨σ, []⟩).2.events) :
    ∃ D, s.migrationsDigest (F.repo i) (clearRepository s (F.repo i) σ).2.disk = .ok D ∧
      F.Refreshed i introspector D ts rs σ'.disk ∧
      (∀ j, j ≠ i → ∀ l b, F.IsOf j l → (σ'.disk.HasFile l b ↔ σ.disk.HasFile l b)) ∧
      ∀ p, F.Aside i p σ.disk → s.migrationsDigest (F.repo i) σ.disk = .ok D ∧
        s.migrationsDigest (F.repo i) σ'.disk = .ok D := by
  obtain ⟨D, digest, home_eq, answers, holds⟩ :=
    holds_of_refresh named enabled tables here housed returned accepted
  refine ⟨D, digest, .of_holds tables home_eq answers holds, fun j ne => ?_,
    fun p aside => ?_⟩
  · have kept := (F.keeps_others named ne tables (some introspector) σ.disk).run here
      fun _ _ _ => Iff.rfl
    rw [returned] at kept
    exact kept.2
  · obtain ⟨before, after⟩ :=
      digest_refresh aside named tables here (some introspector)
    rw [returned] at after
    exact ⟨before.symm.trans digest, after.trans (before.symm.trans digest)⟩

theorem exists_eq_ok_of_isOk {α : Type} {m : Caching α} (h : (m σ).1.isOk = true) :
    ∃ a σ', m σ = (.ok a, σ') := by
  cases run : m σ with
  | mk r σ' =>
    rw [run] at h
    cases r with
    | error e => cases h
    | ok a => exact ⟨a, σ', rfl⟩

/-! ### A schema that was stored before -/

open Reached (twoNames isNamed_twoNames storedOnce)

/-- The directory of the repository that a schema was stored for is found. -/
theorem housed_storedOnce : twoNames.Housed false storedOnce.store.disk :=
  fun _ _ _ _ => ⟨⟨by decide, by decide, by decide⟩, rfl, rfl⟩

/-- A refresh infers the schema that was stored before, and another one. -/
theorem refresh_refreshes_storedOnce : ∃ D rs σ',
    refresh {} (twoNames.repo false) (some [.text "users", .text "posts"])
      (some usersDatabase)
        storedOnce.store = (.ok rs, σ') ∧
      twoNames.Refreshed false usersDatabase D ["users", "posts"] rs σ'.disk := by
  have ended : (refresh {} (twoNames.repo false) (some (["users", "posts"].map .text))
      (some usersDatabase) storedOnce.store).1.isOk = true := by
    unfold refresh warmUp obtainAt
    simp only [infer_usersDatabase {} rfl]
    decide +kernel
  have accepted : .refused ∉ (Noting.refresh {} twoNames.repo false (some ["users", "posts"])
      (some usersDatabase) ⟨storedOnce.store, []⟩).2.events := by
    unfold Noting.refresh Noting.warmUp Noting.obtainAt
    simp only [infer_usersDatabase {} rfl]
    decide +kernel
  obtain ⟨rs, σ', returned⟩ := exists_eq_ok_of_isOk ended
  obtain ⟨D, -, refreshed, -⟩ := refresh_refreshes isNamed_twoNames rfl (by decide) rfl
    housed_storedOnce returned accepted
  exact ⟨D, rs, σ', returned, refreshed⟩

end Cache

/-! ### A default that is not plain -/

open Table in
/-- The table of one row where its default is read as it is. -/
theorem Snapshot.built_rows {default : Value} (alone : default.tagged? = none)
    (plain : plainDefault (some .postgres) default = .ok default) :
    (rows default).built (.text "rows") = .ok ⟨"rows", .postgres,
      [{ name := "row", type := Postgres.typeOf .null, default }], [], []⟩ := by
  have found : Registry.find (.dialect (rows default).dialect) = .ok .postgres := rfl
  have none : visit (some .postgres) (.list []) = .ok (.items []) := by
    rw [visit_list]
    rfl
  have column :
      visit (some .postgres) (ColumnData.tree ⟨"row", true, false, []⟩ .null default) =
      .ok (.column { name := "row", type := Postgres.typeOf .null, default }) := by
    rw [ColumnData.visit_tree _ _ alone, plain, ok_bind,
      typeComponent_of_tagged rfl, visit_type, typePart]
    refine ColumnData.columnOf_ownFlags ⟨"row", true, false, []⟩ ?_ default
    rw [Part.toValue, type?_toValue]
  rw [built, table_rows, ok_bind, build, found, ok_bind, visit_table, tablePart_list,
    listComponent_list, listComponent_list, none, visit_list, List.mapM_cons,
    column, identifier, visit_identifier]
  rfl

namespace Cache

/-- A database with one table, whose one column has a tuple as its default. -/
def tupleRows : Introspector :=
  (Snapshot.rows (.tuple [.int 1, .int 2])).introspector

/-- The schema of the table. -/
def rowsSchema : Schema :=
  .compile ⟨some .postgres, none⟩ ⟨"rows", .postgres,
    [{ name := "row", type := Postgres.typeOf .null, default := .tuple [.int 1, .int 2] }],
    [], []⟩

theorem describe_rows :
    tupleRows.describe {} (oneRepository.repo ()) (.text "rows") = .ok rowsSchema := by
  have built : (tupleRows.table (oneRepository.repo ()) (.text "rows") >>= fun tree =>
      Table.build tree (.dialect .postgres)) = .ok _ :=
    Snapshot.built_rows rfl rfl
  have whole := congrArg (· >>= Schema.ofTable (.text "map")) built
  rw [bind_assoc] at whole
  refine Eq.trans rfl (whole.trans ?_)
  rw [ok_bind]
  cbv

theorem infer_rows : infer {} (oneRepository.repo ()) (.text "rows") (some tupleRows) = (do
    Caching.note (.text "rows")
    pure rowsSchema) := by
  funext σ
  rw [Caching.run_infer]
  exact Prod.ext describe_rows rfl

/-- A refresh of one table where there were no files: the schema is inferred, and is held
after it. -/
theorem refresh_noFiles {F : Family Unit s []} {t D : String} {schema : Schema}
    (named : F.IsNamed)
    (enabled : isEnabled s = true) (table : IsTable t)
    (described : introspector.describe s (F.repo ()) (.text t) = .ok schema)
    (digest : s.migrationsDigest (F.repo ())
      (clearRepository s (F.repo ()) noFiles).2.disk = .ok D)
    (ended :
      (refresh s (F.repo ()) (some [.text t]) (some introspector) noFiles).1.isOk = true)
    (accepted : .refused ∉
      (Noting.refresh s F.repo () (some [t]) (some introspector) ⟨noFiles, []⟩).2.events) :
    ∃ σ, refresh s (F.repo ()) (some [.text t]) (some introspector) noFiles =
      (.ok [schema], σ) ∧
      F.Holds () introspector D [t] σ.disk := by
  have housed : F.Housed () noFiles.disk := by
    intro l b _ file
    cases l <;> cases file
  obtain ⟨rs, σ, returned⟩ : ∃ rs σ, refresh s (F.repo ()) (some ([t].map .text))
      (some introspector) noFiles = (.ok rs, σ) := exists_eq_ok_of_isOk ended
  obtain ⟨E, asked, -, answers, holds⟩ :=
    holds_of_refresh named enabled (by simpa using table) rfl
    housed returned accepted
  obtain rfl := Except.ok.inj (asked.symm.trans digest)
  refine ⟨σ, ?_, holds⟩
  cases answers with
  | cons described' rest =>
    rw [← Except.ok.inj (described.symm.trans described')] at returned
    cases rest
    exact returned

/-- What is stored need not be equal to what is returned: a tuple comes back as a list. -/
theorem refresh_tupleRows : ∃ σ found,
    refresh {} (oneRepository.repo ()) (some [.text "rows"]) (some tupleRows) noFiles =
        (.ok [rowsSchema], σ) ∧
      reading (oneRepository.entry () "rows") "empty" σ.disk = .fresh found ∧
      rowsSchema.same found = false := by
  have digest : Settings.migrationsDigest {} (oneRepository.repo ())
      (clearRepository {} (oneRepository.repo ()) noFiles).2.disk = .ok "empty" := by
    decide +kernel
  have ended : (refresh {} (oneRepository.repo ()) (some [.text "rows"]) (some tupleRows)
      noFiles).1.isOk = true := by
    unfold refresh warmUp obtainAt
    simp only [List.mapM_cons, List.mapM_nil, infer_rows]
    decide +kernel
  have accepted : .refused ∉ (Noting.refresh {} oneRepository.repo () (some ["rows"])
      (some tupleRows) ⟨noFiles, []⟩).2.events := by
    unfold Noting.refresh Noting.warmUp Noting.obtainAt
    simp only [List.mapM_cons, List.mapM_nil, infer_rows]
    decide +kernel
  obtain ⟨σ, returned, holds⟩ := refresh_noFiles Tended.isNamed_oneRepository rfl (by decide)
    describe_rows digest ended accepted
  obtain ⟨schema, described, reads⟩ := holds.reading_of_mem (.head _)
  obtain rfl := Except.ok.inj (described.symm.trans describe_rows)
  exact ⟨σ, _, returned, reads, by decide +kernel⟩

/-! ### Migrations above the cache -/

open Tended (isNamed_oneRepository noMigrations)

theorem isNamed_repositoryBelow : repositoryBelow.IsNamed :=
  ⟨isNamed_oneRepository.name, isNamed_oneRepository.injective⟩

/-- What is stored need not be found by the next look-up: the directory of the migrations was
made by the way, and so the digest is another one than that of the entry. -/
theorem refresh_migrationsAbove : ∃ σ,
    refresh migrationsAbove (repositoryBelow.repo ()) (some [.text "users"])
      (some usersDatabase)
        noFiles = (.ok [.empty "users"], σ) ∧
      migrationsAbove.migrationsDigest (repositoryBelow.repo ()) σ.disk = .ok noMigrations ∧
      reading (repositoryBelow.entry () "users") noMigrations σ.disk = .stale := by
  have digest : migrationsAbove.migrationsDigest (repositoryBelow.repo ())
      (clearRepository migrationsAbove (repositoryBelow.repo ()) noFiles).2.disk =
        .ok "empty" := by
    decide +kernel
  have ended : (refresh migrationsAbove (repositoryBelow.repo ()) (some [.text "users"])
      (some usersDatabase) noFiles).1.isOk = true := by
    unfold refresh warmUp obtainAt
    simp only [List.mapM_cons, List.mapM_nil, infer_usersDatabase migrationsAbove rfl]
    decide +kernel
  have accepted : .refused ∉ (Noting.refresh migrationsAbove repositoryBelow.repo ()
      (some ["users"]) (some usersDatabase) ⟨noFiles, []⟩).2.events := by
    unfold Noting.refresh Noting.warmUp Noting.obtainAt
    simp only [List.mapM_cons, List.mapM_nil, infer_usersDatabase migrationsAbove rfl]
    decide +kernel
  have later : migrationsAbove.migrationsDigest (repositoryBelow.repo ())
      (refresh migrationsAbove (repositoryBelow.repo ()) (some [.text "users"])
        (some usersDatabase) noFiles).2.disk = .ok noMigrations := by
    unfold refresh warmUp obtainAt
    simp only [List.mapM_cons, List.mapM_nil, infer_usersDatabase migrationsAbove rfl]
    decide +kernel
  obtain ⟨σ, returned, holds⟩ := refresh_noFiles isNamed_repositoryBelow rfl (by decide)
    describe_users digest ended accepted
  obtain ⟨schema, text, -, wrote, read⟩ := holds.entry "users" (.head _)
  refine ⟨σ, returned, ?_, ?_⟩
  · rwa [returned] at later
  · rw [reading_of_readBytes wrote read, if_neg (by decide)]

/-- Neither is what a refresh has stored always equal to what it has returned, nor is it
always stored with the digest that the migrations have then. -/
theorem not_refreshed :
    (∃ σ found,
      refresh {} (oneRepository.repo ()) (some [.text "rows"]) (some tupleRows) noFiles =
          (.ok [rowsSchema], σ) ∧
        tupleRows.describe {} (oneRepository.repo ()) (.text "rows") = .ok rowsSchema ∧
        reading (oneRepository.entry () "rows") "empty" σ.disk = .fresh found ∧
        rowsSchema.same found = false) ∧
      ∃ σ, refresh migrationsAbove (repositoryBelow.repo ()) (some [.text "users"])
            (some usersDatabase) noFiles = (.ok [.empty "users"], σ) ∧
          migrationsAbove.migrationsDigest (repositoryBelow.repo ()) σ.disk =
            .ok noMigrations ∧
          reading (repositoryBelow.entry () "users") noMigrations σ.disk = .stale := by
  obtain ⟨σ, found, returned, reads, other⟩ := refresh_tupleRows
  exact ⟨⟨σ, found, returned, describe_rows, reads, other⟩, refresh_migrationsAbove⟩

end Cache

end Schemata
