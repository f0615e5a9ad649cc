/-
Refreshes that are refused.

A refresh of tables without an introspector is refused, but not before the repository was
cleared (`refresh_eq_refused_iff`). So it is no refusal that leaves things as they were. If
the directory of the repository is found, every file in it is gone, and no schema of the
repository is found any more; markers and the files of other repositories stay.
`Family.Dropped` lists what has happened, and `Cache.refused_refresh_clears` says that it has
happened in every refused refresh: that all files are as before needs a directory without
files, or none.
-/
import Schemata.Proofs.Cache.Again
import Schemata.Proofs.Cache.Refresh

namespace Schemata

variable {ι : Type} {s : Settings} {home : Location} {F : Family ι s home} {i : ι}
  {t D : String}
  {σ σ' : Store} {repo : Repository} {tables : List Value}

/-! ## One repository as a family -/

namespace Settings

theorem settingText_ne (v : Value) : Path.settingText v ≠ .error .noIntrospector := by
  have plain (v : Value) : v.plain ≠ .error .noIntrospector := by
    unfold Value.plain Value.written
    split <;> exact nofun
  unfold Path.settingText
  split
  · exact nofun
  · split
    · exact plain _
    · exact nofun

theorem cacheRoot_ne (d : Disk) : s.cacheRoot d ≠ .error .noIntrospector := by
  have mapped (v : Value) (f : String → Path) :
      (Path.settingText v).map f ≠ .error .noIntrospector := by
    cases text : Path.settingText v with
    | ok x => exact nofun
    | error e =>
      rintro ⟨⟩
      exact settingText_ne v text
  have base : s.cache.base d.homePath ≠ .error .noIntrospector := by
    unfold CacheSettings.base
    split
    · exact mapped _ _
    · exact nofun
  unfold Settings.cacheRoot CacheSettings.cacheRoot
  cases root : s.cache.base d.homePath with
  | error e =>
    rw [root] at base
    exact base
  | ok p =>
    rw [ok_bind]
    cases environment : ((p.below "tmp").below "cache").belowSetting s.cache.environment with
    | error e =>
      rintro ⟨⟩
      exact mapped _ _ environment
    | ok q => exact nofun

/-- The path of a repository is made of settings and a name. Where there is one, the
repository is a family of its own. -/
theorem exists_family_or_fault (s : Settings) (repo : Repository) (d : Disk) :
    (∃ F : Family Unit s d.home, F.repo () = repo) ∨
      ∃ f, s.repositoryPath repo d = .error f ∧ f ≠ .noIntrospector := by
  unfold repositoryPath
  cases root : s.cacheRoot d with
  | error f => exact .inr ⟨f, rfl, fun same => cacheRoot_ne d (same ▸ root)⟩
  | ok p =>
    cases name : repo.shortName with
    | error f =>
      refine .inr ⟨f, rfl, ?_⟩
      unfold Repository.shortName at name
      split at name
      · cases name
      · split at name
        · split at name <;> cases name
          exact nofun
        · cases name
    | ok n => exact .inl ⟨⟨fun _ => repo, p, fun _ => n, root, fun _ => name⟩, rfl⟩

end Settings

/-! ## Clearing without a directory -/

namespace Disk

/-- Whether something is there is refused for names that are too long. -/
theorem hasEntry_ne (d : Disk) (p : Path) : d.hasEntry p ≠ .error .noIntrospector := by
  unfold hasEntry entryAt
  split
  · exact nofun
  · split <;> exact nofun

/-- Nothing is removed where there is no directory. -/
theorem removeTree_of_not {d : Disk} {p : Path} (readable : p.hasNull = false)
    (absent : d.isDirectory p ≠ .ok true) : d.removeTree p = d := by
  unfold removeTree
  split
  · rename_i l found
    refine absurd ?_ absent
    rw [isDirectory, entryAt, readable, found]
    rfl
  · rfl

end Disk

/-- A clearing that does not find the directory of the repository changes nothing. -/
theorem Cache.clearRepository_of_not (here : σ.disk.home = home)
    (absent : σ.disk.isDirectory (F.directory i) ≠ .ok true) :
    (clearRepository s (F.repo i) σ).2 = σ := by
  rw [Caching.run_clear F i here, removeDirectory, run_bind, Caching.run_ask]
  cases there : σ.disk.hasEntry (F.directory i) with
  | error e => rfl
  | ok r =>
    cases r with
    | false => rfl
    | true =>
      have readable : (F.directory i).hasNull = false := by
        by_contra null
        rw [Disk.hasEntry, Disk.entryAt, if_pos (Bool.of_not_eq_false null)] at there
        cases there
      dsimp only
      rw [if_pos rfl, Caching.run_change, Disk.removeTree_of_not readable absent]

/-! ## Entries that are gone -/

namespace Family

/-- No schema of a repository is stored. -/
def IsUnstored (F : Family ι s home) (i : ι) (d : Disk) : Prop :=
  ∀ t b, IsTable t → ¬ d.HasFile (F.entryPlace i t) b

theorem isUnstored_eraseTree (F : Family ι s home) (i : ι) (d : Disk) :
    F.IsUnstored i (d.eraseTree (F.place (F.directory i))) :=
  fun _ _ _ file => file.of_eraseTree.1 (List.prefix_append _ _)

/-- Asking for the digest stores no schema. -/
theorem keeps_unstored : F.Keeps (F.IsUnstored i) (Cache.currentDigest s (F.repo i)) := by
  refine .currentDigest (fun d _ _ => F.isUnstored_eraseTree i d) ?_
  intro D d here unstored t b table file
  have apart : F.entryPlace i t ≠ F.markerPlace i := (F.markerPlace_ne_entryPlace i i t).symm
  exact unstored t b table ((hasFile_write_marker_iff here apart).1 file)

/-- What is not stored is not found. -/
theorem IsUnstored.lookup (h : F.IsUnstored i σ.disk) (here : σ.disk.home = home)
    (table : IsTable t) (schema : Schema) :
    (Cache.lookup s (F.repo i) (.text t) σ).1 ≠ .ok (some schema) := by
  intro looked
  by_cases enabled : Cache.isEnabled s = true
  · obtain ⟨D, τ, asked, found⟩ := (Cache.lookup_eq_ok enabled).1 (Prod.ext looked rfl)
    have kept := (F.keeps_unstored (i := i)).run here h
    rw [asked] at kept
    rw [Noting.run_lookupAt F i table D kept.1] at found
    cases reads : Cache.reading (F.entry i t) D τ.disk with
    | unreadable | tooDeep | stale =>
      rw [reads] at found
      cases found
    | fresh schema =>
      obtain ⟨b, -, file⟩ :=
        F.exists_hasFile_of_reading i kept.1 table (by rw [reads]; exact nofun)
      exact kept.2 t b table file
  · rw [Cache.lookup_of_disabled enabled] at looked
    cases looked

end Family

/-! ## Refused refreshes -/

namespace Family

/-- What a refused refresh of a repository has done. -/
structure Dropped (F : Family ι s home) (i : ι) (σ σ' : Store) : Prop where
  /-- No table was asked for. -/
  asked : σ'.asked = σ.asked
  /-- Where the directory of the repository is not found, everything is as before. -/
  absent : σ.disk.isDirectory (F.directory i) ≠ .ok true → σ' = σ
  /-- The files that are left are those outside of it, where it is found. -/
  file : ∀ l b, σ'.disk.HasFile l b ↔
    σ.disk.HasFile l b ∧
      ¬ (σ.disk.isDirectory (F.directory i) = .ok true ∧ F.place (F.directory i) <+: l)
  /-- So all are left only if there was none in it. -/
  intact : (∀ l b, σ'.disk.HasFile l b ↔ σ.disk.HasFile l b) ↔
    (σ.disk.isDirectory (F.directory i) = .ok true → F.IsBare i σ.disk)
  /-- Where it is found, no schema of the repository is found after it. -/
  lookup : σ.disk.isDirectory (F.directory i) = .ok true → ∀ t, IsTable t →
    ∀ schema, (Cache.lookup s (F.repo i) (.text t) σ').1 ≠ .ok (some schema)
  /-- The markers and the other repositories keep their files. -/
  others : F.IsNamed → ∀ l b, (l = F.markerPlace i ∨ ∃ j, j ≠ i ∧ F.IsOf j l) →
    (σ'.disk.HasFile l b ↔ σ.disk.HasFile l b)

/-- A clearing drops the files in the directory of the repository. -/
theorem dropped_of_clear (here : σ.disk.home = home)
    (cleared : Cache.clearRepository s (F.repo i) σ = (.ok (), σ')) : F.Dropped i σ σ' := by
  by_cases there : σ.disk.isDirectory (F.directory i) = .ok true
  · rw [Cache.run_clearRepository here there] at cleared
    cases cleared
    have file (l : Location) (b : ByteArray) :
        (σ.disk.eraseTree (F.place (F.directory i))).HasFile l b ↔
          σ.disk.HasFile l b ∧ ¬ F.place (F.directory i) <+: l := by
      refine ⟨fun file => file.of_eraseTree.symm, fun ⟨file, outside⟩ => ?_⟩
      rw [Disk.HasFile, Disk.entry?_eraseTree file.ne_nil, if_neg outside]
      exact file
    exact {
      asked := rfl
      absent := fun absent => absurd there absent
      file := fun l b => by
        rw [file, and_iff_right there]
      intact := by
        constructor
        · exact fun all _ l b inside before => ((file l b).1 ((all l b).2 before)).2 inside
        · intro bare l b
          rw [file]
          exact and_iff_left_of_imp fun before inside => bare there l b inside before
      lookup := fun _ t table =>
        (F.isUnstored_eraseTree i σ.disk).lookup here table
      others := by
        intro named l b own
        rw [file]
        refine and_iff_left ?_
        rcases own with rfl | ⟨j, ne, own⟩
        · exact named.not_prefix_marker
        · exact (named.apart ne own).1 }
  · have same : σ' = σ := by
      have kept := Cache.clearRepository_of_not here there
      rwa [cleared] at kept
    subst same
    exact {
      asked := rfl
      absent := fun _ => rfl
      file := fun l b => (and_iff_left fun gone => there gone.1).symm
      intact := ⟨fun _ found => absurd found there, fun _ _ _ => Iff.rfl⟩
      lookup := fun found => absurd found there
      others := fun _ _ _ _ => Iff.rfl }

end Family

namespace Cache

/-- A clearing that fails does so for other reasons. -/
theorem clearRepository_ne (s : Settings) (repo : Repository) (σ : Store) :
    (clearRepository s repo σ).1 ≠ .error .noIntrospector := by
  rcases s.exists_family_or_fault repo σ.disk with ⟨F, rfl⟩ | ⟨f, fault, other⟩
  · rw [Caching.run_clear F () rfl, removeDirectory, run_bind, Caching.run_ask]
    cases there : σ.disk.hasEntry (F.directory ()) with
    | error e =>
      rintro ⟨⟩
      exact Disk.hasEntry_ne _ _ there
    | ok r =>
      intro refused
      cases r <;> cases refused
  · rw [clearRepository, run_bind, Caching.run_ask, fault]
    rintro ⟨⟩
    exact other rfl

/-- A refresh of tables without an introspector is refused exactly if the clearing, which
comes first, is not; and it leaves what the clearing leaves. -/
theorem refresh_eq_refused_iff :
    refresh s repo (some tables) none σ = (.error .noIntrospector, σ') ↔
      clearRepository s repo σ = (.ok (), σ') := by
  unfold refresh
  rw [run_bind]
  cases cleared : clearRepository s repo σ with
  | mk r τ =>
    cases r with
    | ok _ =>
      have thrown : (throw .noIntrospector : Caching (List Schema)) τ =
          (.error .noIntrospector, τ) := rfl
      dsimp only
      rw [thrown, Prod.mk.injEq, Prod.mk.injEq]
      exact and_congr_left fun _ => ⟨fun _ => rfl, fun _ => rfl⟩
    | error e =>
      refine ⟨fun refused => absurd ?_ (clearRepository_ne s repo σ), nofun⟩
      cases refused
      rw [cleared]

/-- What a refused refresh of tables has done, whatever the files were. The repository was
cleared. The clearing was not refused, and so the repository has a place, in a family of its
own and in those of all repositories that share the cache; what was dropped is the same in
each. -/
theorem refused_refresh_clears
    (refused : refresh s repo (some tables) none σ = (.error .noIntrospector, σ')) :
    clearRepository s repo σ = (.ok (), σ') ∧
      (∃ F : Family Unit s σ.disk.home, F.repo () = repo) ∧
      ∀ (ι : Type) (F : Family ι s σ.disk.home) (i : ι), F.repo i = repo →
        F.Dropped i σ σ' := by
  have cleared := refresh_eq_refused_iff.1 refused
  refine ⟨cleared, ?_, ?_⟩
  · rcases s.exists_family_or_fault repo σ.disk with own | ⟨f, fault, -⟩
    · exact own
    · rw [clearRepository, run_bind, Caching.run_ask, fault] at cleared
      cases cleared
  · rintro ι F i rfl
    exact F.dropped_of_clear rfl cleared

/-! ### A schema that was stored before -/

open Reached (twoNames isNamed_twoNames storedOnce reached_storedOnce clean_storedOnce
  lastStored_storedOnce undisturbed_storedOnce digest_storedOnce)

/-- The files after the refusal of a refresh where one schema was stored. -/
def droppedOnce : Store :=
  (clearRepository {} (twoNames.repo false) storedOnce.store).2

theorem refresh_storedOnce :
    refresh {} (twoNames.repo false) (some [.text "users"]) none storedOnce.store =
      (.error .noIntrospector, droppedOnce) :=
  rfl

/-- The directory of the repository was found, and so the schema is gone. -/
theorem refused_refresh_clears_storedOnce :
    storedOnce.store.disk.isDirectory (twoNames.directory false) = .ok true ∧
      twoNames.Dropped false storedOnce.store droppedOnce :=
  ⟨rfl, (refused_refresh_clears refresh_storedOnce).2.2 Bool twoNames false rfl⟩

/-- A refused refresh does not leave the files as they were, nor what is found: the schema
that was stored is found before it and not after it. -/
theorem not_kept_of_refused :
    refresh {} (twoNames.repo false) (some [.text "users"]) none storedOnce.store =
        (.error .noIntrospector, droppedOnce) ∧
      (∃ b, storedOnce.store.disk.HasFile (twoNames.entryPlace false "users") b ∧
        ¬ droppedOnce.disk.HasFile (twoNames.entryPlace false "users") b) ∧
      (∃ schema, (lookup {} (twoNames.repo false) (.text "users") storedOnce.store).1 =
        .ok (some schema)) ∧
      (lookup {} (twoNames.repo false) (.text "users") droppedOnce).1 = .ok none := by
  obtain ⟨schema, -, found⟩ := reached_storedOnce.lookup_kept isNamed_twoNames rfl (by decide)
    clean_storedOnce lastStored_storedOnce undisturbed_storedOnce digest_storedOnce
  exact ⟨refresh_storedOnce, ⟨_, rfl, nofun⟩, ⟨schema, found⟩, rfl⟩

end Cache

end Schemata
