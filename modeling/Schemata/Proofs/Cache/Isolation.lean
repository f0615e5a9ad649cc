/-
Repositories beside each other.

What an operation on a repository can do to the stored schemas of another one is decided by
where their directories are. If the directory of the one is not at or above the directory of
the other, every step leaves every entry of the other as it is (`Step.hasFile_iff`), and a
lookup returns only what was stored for its own repository. If it is, a single clearing
removes whatever was stored for the other.

The place of a directory comes from the short name of its repository, and identifiers share a
short name as soon as their last parts differ in nothing but case: such repositories are one
repository to the cache (`Cache.lookup_congr`). For names that are single components there is
no other way to share (`isApart_iff`).
-/
import Schemata.Proofs.Cache.Coherence

namespace Schemata

namespace Family

variable {ι : Type} {s : Settings} {home : Location} (F : Family ι s home)

/-- No repository has its directory at or above that of another one. -/
def IsApart : Prop :=
  ∀ i j, F.place (F.directory i) <+: F.place (F.directory j) → i = j

variable {F}

theorem IsApart.separate (h : F.IsApart) : F.Separate := by
  intro i j same
  exact h i j (same ▸ List.prefix_refl _)

/-- Repositories whose names are single components are apart if their names differ. -/
theorem isApart_iff (name : ∀ i, Path.IsName (F.name i)) :
    F.IsApart ↔ ∀ i j, F.name i = F.name j → i = j := by
  have place (i : ι) : F.place (F.directory i) = F.place F.root ++ [F.name i] := by
    rw [directory, Path.below_of_isName (name i)]
    exact Disk.place_child _ _ (name i).down
  constructor
  · intro h i j same
    refine h i j ?_
    rw [place, place, same]
  · intro injective i j above
    rw [place, place, List.prefix_append_right_inj, List.cons_prefix_cons] at above
    exact injective i j above.1

end Family

/-! ## Steps beside a repository -/

section

variable {ι : Type} [DecidableEq ι] {s : Settings} {home : Location} {F : Family ι s home}
  {i j : ι} {x y : Scene ι}

/-- A step of an operation on a repository leaves the entries of another one as they are. -/
theorem Step.hasFile_iff (h : Step F (some i) x y) (here : x.disk.home = home)
    (apart : ¬ F.place (F.directory i) <+: F.place (F.directory j)) (t : String)
    (b : ByteArray) :
    y.disk.HasFile (F.entryPlace j t) b ↔ x.disk.HasFile (F.entryPlace j t) b := by
  have entry (u : String) : F.entryPlace j t ≠ F.entryPlace i u := by
    rw [Ne, F.entryPlace_eq_iff]
    rintro ⟨same, -⟩
    exact apart (same ▸ List.prefix_refl _)
  have marks {d e : Disk} {D : String} (here : d.home = home) (h : F.Marks d i D e) :
      e.HasFile (F.entryPlace j t) b ↔ d.HasFile (F.entryPlace j t) b :=
    h.hasFile_iff here (F.markerPlace_ne_entryPlace i j t).symm
  have writes {u : String} {schema : Schema} {D : String} {e : Disk}
      (h : F.Writes x i u schema D e) : e.home = home ∧
        (e.HasFile (F.entryPlace j t) b ↔ x.disk.HasFile (F.entryPlace j t) b) := by
    obtain ⟨text, -, written⟩ := h.written
    refine ⟨written.home.trans here, written.hasFile_iff ?_⟩
    rw [F.place_eq here]
    exact entry u
  cases h with
  | used => exact Iff.rfl
  | cleared => exact Iff.rfl
  | removed _ _ there =>
    refine ⟨fun hf => hf.of_eraseTree.2, fun hf => ?_⟩
    rw [Disk.HasFile, Disk.entry?_eraseTree (Disk.HasFile.ne_nil hf), if_neg]
    · exact hf
    · intro above
      rcases List.prefix_concat_iff.1 above with same | above
      · rw [Disk.HasDirectory, same] at there
        have clash := there.symm.trans hf
        cases clash
      · exact apart above
  | marked _ h => exact marks here h
  | refused grows => exact grows.hasFile_iff
  | stored wrote marked => exact (marks (writes wrote).1 marked).trans (writes wrote).2
  | halfStored wrote grows => exact grows.hasFile_iff.trans (writes wrote).2
  | found => exact Iff.rfl
  | missed => exact Iff.rfl
  | discarded =>
    refine ⟨fun hf => hf.of_erase.2, fun hf => ?_⟩
    rw [Disk.HasFile, Disk.entry?_erase (Disk.HasFile.ne_nil hf), if_neg (entry _)]
    exact hf

/-- So does every operation on the repository. -/
theorem Operation.hasFile_iff {op : Operation ι} (valid : op.IsValid) (on : op.on = some i)
    {σ : Store} (here : σ.disk.home = home)
    (apart : ¬ F.place (F.directory i) <+: F.place (F.directory j)) (t : String)
    (b : ByteArray) :
    (op.run s F.repo σ).2.disk.HasFile (F.entryPlace j t) b ↔
      σ.disk.HasFile (F.entryPlace j t) b := by
  have steps := op.record_steps F (c := ⟨σ, []⟩) valid here
  rw [on] at steps
  have kept := steps.keeps
    (P := fun x => x.disk.home = home ∧
      (x.disk.HasFile (F.entryPlace j t) b ↔ σ.disk.HasFile (F.entryPlace j t) b))
    (fun step hx => ⟨step.home_eq.trans hx.1, (step.hasFile_iff hx.1 apart t b).trans hx.2⟩)
    ⟨here, Iff.rfl⟩
  rw [← (op.record_erases s F.repo ⟨σ, []⟩).2]
  exact kept.2

/-! ## Repositories that are not apart -/

omit [DecidableEq ι] in
/-- A clearing that finds the directory of the repository removes it. -/
theorem Cache.run_clearRepository {σ : Store} (here : σ.disk.home = home)
    (there : σ.disk.isDirectory (F.directory i) = .ok true) :
    Cache.clearRepository s (F.repo i) σ =
      (.ok (), { σ with disk := σ.disk.eraseTree (F.place (F.directory i)) }) := by
  obtain ⟨entry, found⟩ := Disk.find_of_isDirectory there
  rw [Caching.run_clear F i here, Cache.removeDirectory, run_bind, Caching.run_ask,
    Disk.hasEntry, entry, ok_bind]
  dsimp only [Option.isSome_some]
  rw [if_pos rfl, Caching.run_change, Disk.removeTree, found, F.place_eq here]

omit [DecidableEq ι] in
/-- So it removes whatever is below the directory. -/
theorem Cache.clearRepository_removes {σ : Store} (here : σ.disk.home = home)
    (there : σ.disk.isDirectory (F.directory i) = .ok true)
    (above : F.place (F.directory i) <+: F.place (F.directory j)) (t : String)
    (b : ByteArray) :
    ¬ (Cache.clearRepository s (F.repo i) σ).2.disk.HasFile (F.entryPlace j t) b := by
  rw [Cache.run_clearRepository here there]
  intro hf
  exact hf.of_eraseTree.1 (above.trans (List.prefix_append _ _))

end

section

variable {s : Settings} {r r' : Repository}

theorem Settings.repositoryPath_congr (name : r.shortName = r'.shortName) :
    s.repositoryPath r = s.repositoryPath r' := by
  unfold repositoryPath
  rw [name]

/-- Repositories with one short name are one repository to a clearing. -/
theorem Cache.clearRepository_congr (name : r.shortName = r'.shortName) :
    Cache.clearRepository s r = Cache.clearRepository s r' := by
  unfold Cache.clearRepository
  rw [Settings.repositoryPath_congr name]

/-- If they have their migrations in one place as well, they are one repository to a
lookup. -/
theorem Cache.lookup_congr (name : r.shortName = r'.shortName)
    (migrations : s.cache.migrationsSetting r = s.cache.migrationsSetting r')
    (table : Value) :
    Cache.lookup s r table = Cache.lookup s r' table := by
  have directory := Settings.repositoryPath_congr (s := s) name
  have digest : s.migrationsDigest r = s.migrationsDigest r' := by
    unfold Settings.migrationsDigest Settings.migrationsPath CacheSettings.migrationsPath
    rw [migrations]
  have entry : s.entryPath r = s.entryPath r' := by
    unfold Settings.entryPath
    rw [directory]
  have marker : s.markerPath r = s.markerPath r' := by
    unfold Settings.markerPath
    rw [name]
  have stored : s.storedDigest r = s.storedDigest r' := by
    unfold Settings.storedDigest
    rw [marker]
  unfold Cache.lookup Cache.currentDigest Cache.lookupAt
  rw [Cache.clearRepository_congr name, entry, marker, stored, digest]

end

namespace Reached

variable {ι : Type} [DecidableEq ι] {s : Settings} {home : Location} {F : Family ι s home}
  {c : Chronicle ι}

/-- Repositories are isolated exactly while they are apart. If no repository has its directory
at or above that of another one, a lookup returns only what was stored last for its own
repository, and an operation on one repository leaves the entries of the others as they are.
If one has, and its directory is there, clearing it removes every entry of the other; and if
the two have one name, and their migrations in one place, what a lookup returns for the one it
returns for the other. -/
theorem isolation (run : Reached F c) :
    (F.IsApart →
      (EveryLook F.Backed c.events ∧ ∀ i t, IsTable t → ∀ schema',
        (Cache.lookup s (F.repo i) (.text t) c.store).1 = .ok (some schema') →
        ∃ schema D, lastStored c.events i t = some (schema, D) ∧
          schema.reread = .ok schema') ∧
      ∀ (op : Operation ι) i j t b, op.IsValid → op.on = some i → i ≠ j →
        ((op.run s F.repo c.store).2.disk.HasFile (F.entryPlace j t) b ↔
          c.store.disk.HasFile (F.entryPlace j t) b)) ∧
    (∀ i j, F.place (F.directory i) <+: F.place (F.directory j) →
      c.store.disk.isDirectory (F.directory i) = .ok true →
      ∀ t b,
        ¬ (Cache.clearRepository s (F.repo i) c.store).2.disk.HasFile (F.entryPlace j t) b) ∧
    ∀ i j, F.name i = F.name j →
      s.cache.migrationsSetting (F.repo i) = s.cache.migrationsSetting (F.repo j) →
      ∀ table, Cache.lookup s (F.repo i) table = Cache.lookup s (F.repo j) table := by
  have here : c.store.disk.home = home :=
    (run.keeps (P := fun _ => True) (fun _ _ _ => trivial) (fun _ _ _ => trivial)
      fun _ _ => trivial).1
  refine ⟨fun apart => ⟨⟨(run.backed apart.separate).2.2, ?_⟩, ?_⟩, ?_, ?_⟩
  · intro i t ht schema' found
    obtain ⟨schema, D, last, reread, -⟩ := run.lookup_backed apart.separate ht schema' found
    exact ⟨schema, D, last, reread⟩
  · intro op i j t b valid on ne
    exact op.hasFile_iff valid on here (fun above => ne (apart i j above)) t b
  · intro i j above there
    exact Cache.clearRepository_removes here there above
  · intro i j name migrations
    refine Cache.lookup_congr ?_ migrations
    rw [F.shortName, F.shortName, name]

/-- Repositories of different names are isolated: clearing the one leaves what is stored for
the other. -/
theorem isolation_twoNames :
    ∃ b, storedOnce.store.disk.HasFile (twoNames.entryPlace false "users") b ∧
    (Cache.clearRepository {} (twoNames.repo true) storedOnce.store).2.disk.HasFile
      (twoNames.entryPlace false "users") b := by
  have stored : ∃ b, storedOnce.store.disk.HasFile (twoNames.entryPlace false "users") b :=
    ⟨_, rfl⟩
  obtain ⟨b, stored⟩ := stored
  have apart : twoNames.IsApart :=
    (Family.isApart_iff isName_twoNames).2 isNamed_twoNames.injective
  refine ⟨b, stored, ?_⟩
  exact ((reached_storedOnce.isolation.1 apart).2
    (.clear true) true false "users" b trivial rfl
    nofun).2 stored

/-- Repositories that share a name are not isolated: what is stored for the one is returned
for the other, and is gone when the other is cleared. -/
theorem not_isolated_sharedName :
    (∃ schema', (Schema.empty "users").reread = .ok schema' ∧
      (Cache.lookup {} (.identifier "Other.Repo") (.text "users") storedOnce.store).1 =
        .ok (some schema')) ∧
    (∃ b, storedOnce.store.disk.HasFile (twoNames.entryPlace false "users") b) ∧
    ∀ b,
      ¬ (Cache.clearRepository {} (.identifier "Other.Repo") storedOnce.store).2.disk.HasFile
      (twoNames.entryPlace false "users") b := by
  have name : Repository.shortName (.identifier "Other.Repo") = .ok "repo" := rfl
  have own : (twoNames.repo false).shortName = .ok "repo" := rfl
  have migrations : CacheSettings.migrationsSetting {} (.identifier "Other.Repo") =
      .ok (.text "migrations") := rfl
  have ownMigrations : CacheSettings.migrationsSetting {} (twoNames.repo false) =
      .ok (.text "migrations") := rfl
  refine ⟨?_, ⟨_, rfl⟩, fun b => ?_⟩
  · rw [Cache.lookup_congr (name.trans own.symm) (migrations.trans ownMigrations.symm)]
    exact reached_storedOnce.lookup_kept isNamed_twoNames rfl (by decide) clean_storedOnce
      lastStored_storedOnce undisturbed_storedOnce digest_storedOnce
  · rw [Cache.clearRepository_congr (name.trans own.symm)]
    have there :
        storedOnce.store.disk.isDirectory (twoNames.directory false) = .ok true := rfl
    have here : storedOnce.store.disk.home = [] := rfl
    exact Cache.clearRepository_removes here there (List.prefix_refl _) "users" b

end Reached

end Schemata
