/-
Looking again.

A look-up writes: it sweeps and renews the marker, and it removes an entry that is stale. What
it leaves gives a second look-up nothing to do. Under one digest this is so at once, because
no entry is left where a stale one was (`lookupAt_again`). A second look-up asks for the
digest again, and finds it in the marker if it is still the same (`stored_of_lookup`).

It need not be the same. The first write of a marker makes the directories on the way to it,
and these may be what the migrations are looked for in. Then the second look-up sweeps where
the first one had nothing to remove, and a schema that was found by the first may be gone
(`not_settled`). Migrations that lie aside of the cache have the digest they had
(`digest_lookup`).
-/
import Schemata.Proofs.Cache.WarmUp

namespace Schemata

namespace Cache

variable {ι : Type} {s : Settings} {home : Location} {F : Family ι s home} {i : ι}
  {t D : String}
  {σ σ₁ : Store} {found : Option Schema}

/-! ## Under one digest -/

/-- Where an entry was removed, there is nothing to read. -/
theorem reading_erase (p : Path) (D : String) (d : Disk) :
    reading p D (d.erase (d.place p)) = .unreadable := by
  unfold reading
  split
  · rename_i text read
    obtain ⟨b, read, -⟩ := bind_eq_ok.1 read
    exact absurd (Disk.place_congr rfl p) (Disk.hasFile_of_readBytes read).2.of_erase.1
  · rfl

theorem lookupAt_again (ht : IsTable t) (here : σ.disk.home = home)
    (looked : lookupAt s (F.repo i) (.text t) D σ = (.ok found, σ₁)) :
    lookupAt s (F.repo i) (.text t) D σ₁ = (.ok found, σ₁) := by
  rw [Noting.run_lookupAt F i ht D here] at looked
  cases reads : reading (F.entry i t) D σ.disk with
  | unreadable =>
    rw [reads] at looked
    cases looked
    rw [Noting.run_lookupAt F i ht D here, reads]
  | tooDeep =>
    rw [reads] at looked
    cases looked
  | fresh schema =>
    rw [reads] at looked
    cases looked
    rw [Noting.run_lookupAt F i ht D here, reads]
  | stale =>
    rw [reads] at looked
    cases looked
    have gone : reading (F.entry i t) D (σ.disk.erase (F.entryPlace i t)) = .unreadable := by
      rw [← F.place_entry i here ht]
      exact reading_erase _ D σ.disk
    rw [Noting.run_lookupAt F i ht D (by exact here)]
    dsimp only
    rw [gone]

/-! ## With the question for the digest -/

theorem lookup_of_disabled {repo : Repository} (disabled : ¬ isEnabled s = true) :
    lookup s repo (.text t) σ = (.ok none, σ) := by
  unfold lookup
  rw [if_neg disabled]
  rfl

/-- A look-up that returns was one under the digest of the migrations, and leaves it in the
marker unless the write of the marker was refused. -/
theorem stored_of_lookup (enabled : isEnabled s = true) (ht : IsTable t)
    (here : σ.disk.home = home)
    (looked : lookup s (F.repo i) (.text t) σ = (.ok found, σ₁))
    (accepted : .refused ∉ (Noting.currentDigest s F.repo i ⟨σ, []⟩).2.events) :
    ∃ D σ', s.migrationsDigest (F.repo i) σ.disk = .ok D ∧ σ'.disk.home = home ∧
      lookupAt s (F.repo i) (.text t) D σ' = (.ok found, σ₁) ∧
      σ₁.disk.home = home ∧ s.storedDigest (F.repo i) σ₁.disk = .ok (some D) := by
  obtain ⟨D, σ', asked, under⟩ := (lookup_eq_ok enabled).1 looked
  obtain ⟨here', stored⟩ := stored_of_currentDigest here asked accepted
  have kept : F.Keeps (fun d => s.storedDigest (F.repo i) d = .ok (some D))
      (lookupAt s (F.repo i) (.text t) D) := by
    refine .lookupAt ?_ D
    rw [F.place_file i ht]
    exact fun d b here stored file => Family.storedDigest_erase here file stored
  have after := kept.run here' stored
  rw [under] at after
  exact ⟨D, σ', digest_of_currentDigest asked, here', under, after⟩

/-- A second look-up finds the same and changes nothing, if the digest is still that of the
first. -/
theorem lookup_again (ht : IsTable t) (here : σ.disk.home = home)
    (looked : lookup s (F.repo i) (.text t) σ = (.ok found, σ₁))
    (accepted : .refused ∉ (Noting.currentDigest s F.repo i ⟨σ, []⟩).2.events)
    (steady : s.migrationsDigest (F.repo i) σ₁.disk = s.migrationsDigest (F.repo i) σ.disk) :
    lookup s (F.repo i) (.text t) σ₁ = (.ok found, σ₁) := by
  by_cases enabled : isEnabled s = true
  · obtain ⟨D, σ', digest, here', under, here₁, stored⟩ :=
      stored_of_lookup enabled ht here looked accepted
    have asked := currentDigest_of_stored (steady.trans digest) stored
    exact (lookup_eq_ok enabled).2 ⟨D, σ₁, asked, lookupAt_again ht here' under⟩
  · rw [lookup_of_disabled enabled] at looked ⊢
    cases looked
    rfl

/-- Migrations that lie aside of the cache have the same digest after a look-up. -/
theorem digest_lookup {p : Path} (aside : F.Aside i p σ.disk) (named : F.IsNamed)
    (ht : IsTable t)
    (here : σ.disk.home = home) :
    s.migrationsDigest (F.repo i) (lookup s (F.repo i) (.text t) σ).2.disk =
      s.migrationsDigest (F.repo i) σ.disk := by
  have kept : F.Keeps (F.Around σ.disk) (lookup s (F.repo i) (.text t)) :=
    .lookup (Family.Around.cleared named i) (Family.Around.marked named aside.rootDown i)
      (Family.Around.erased named i ht)
  exact aside.digest_eq (kept.run here (.refl _)).2 here

/-- While the marker has the digest, a look-up changes nothing, or removes the entry of its
table and finds nothing. It fails only because of an entry that is nested too deeply. -/
theorem lookup_frame (ht : IsTable t) (here : σ.disk.home = home)
    (digest : s.migrationsDigest (F.repo i) σ.disk = .ok D)
    (stored : s.storedDigest (F.repo i) σ.disk = .ok (some D)) :
    (∃ found, lookup s (F.repo i) (.text t) σ = (.ok found, σ)) ∨
      ((∃ b, σ.disk.HasFile (F.entryPlace i t) b) ∧
        lookup s (F.repo i) (.text t) σ =
          (.ok none, { σ with disk := σ.disk.erase (F.entryPlace i t) })) ∨
      (σ.disk.IsTooDeep (F.entry i t) ∧
        lookup s (F.repo i) (.text t) σ = (.error .tooDeep, σ)) := by
  by_cases enabled : isEnabled s = true
  · rw [run_lookup enabled ht here digest stored]
    cases reads : reading (F.entry i t) D σ.disk with
    | unreadable => exact .inl ⟨none, rfl⟩
    | tooDeep => exact .inr (.inr ⟨reading_eq_tooDeep_iff.1 reads, rfl⟩)
    | fresh schema => exact .inl ⟨some schema, rfl⟩
    | stale =>
      obtain ⟨b, -, file⟩ :=
        F.exists_hasFile_of_reading i here ht (by rw [reads]; exact nofun)
      exact .inr (.inl ⟨⟨b, file⟩, rfl⟩)
  · exact .inl ⟨none, lookup_of_disabled enabled⟩

/-- A look-up that returns and whose marker can be written is followed by one that finds the
same and changes nothing, if the digest of the migrations is still the same. So it is where
the migrations lie aside of the cache. And while the marker has the digest, a look-up changes
no file but, at most, removes the entry of its table, also where it fails because the entry is
nested too deeply. -/
theorem lookups_settle (ht : IsTable t) (here : σ.disk.home = home) :
    (∀ found σ₁, lookup s (F.repo i) (.text t) σ = (.ok found, σ₁) →
      .refused ∉ (Noting.currentDigest s F.repo i ⟨σ, []⟩).2.events →
      s.migrationsDigest (F.repo i) σ₁.disk = s.migrationsDigest (F.repo i) σ.disk →
        lookup s (F.repo i) (.text t) σ₁ = (.ok found, σ₁)) ∧
      (F.IsNamed → ∀ p, F.Aside i p σ.disk →
        s.migrationsDigest (F.repo i) (lookup s (F.repo i) (.text t) σ).2.disk =
          s.migrationsDigest (F.repo i) σ.disk) ∧
      ∀ D, s.migrationsDigest (F.repo i) σ.disk = .ok D →
        s.storedDigest (F.repo i) σ.disk = .ok (some D) →
          (∃ found, lookup s (F.repo i) (.text t) σ = (.ok found, σ)) ∨
            ((∃ b, σ.disk.HasFile (F.entryPlace i t) b) ∧
              lookup s (F.repo i) (.text t) σ =
                (.ok none, { σ with disk := σ.disk.erase (F.entryPlace i t) })) ∨
            (σ.disk.IsTooDeep (F.entry i t) ∧
              lookup s (F.repo i) (.text t) σ = (.error .tooDeep, σ)) :=
  ⟨fun _ _ looked accepted steady => lookup_again ht here looked accepted steady,
    fun named _ aside => digest_lookup aside named ht here,
    fun _ digest stored => lookup_frame ht here digest stored⟩

/-! ### A stale entry -/

/-- The entry of users is stale. The first look-up removes it, and the second has nothing to
do. -/
theorem lookups_settle_staleEntry :
    ∃ text σ₁, StoredSchema.entryText ⟨.empty "users", "old"⟩ = .ok text ∧
      lookup {} (oneRepository.repo ()) (.text "users") (stockedCache text) = (.ok none, σ₁) ∧
      σ₁.disk = (stockedCache text).disk.erase (oneRepository.entryPlace () "users") ∧
      lookup {} (oneRepository.repo ()) (.text "users") σ₁ = (.ok none, σ₁) := by
  obtain ⟨text, wrote⟩ :
      ∃ text, StoredSchema.entryText ⟨.empty "users", "old"⟩ = .ok text := ⟨_, rfl⟩
  have table : IsTable "users" := by decide
  obtain ⟨again, steady, -⟩ := lookups_settle (F := oneRepository) (i := ()) table
    (σ := stockedCache text) rfl
  have read : (stockedCache text).disk.readBytes (oneRepository.entry () "users") =
      .ok text.toUTF8 := rfl
  have looked : lookup {} (oneRepository.repo ()) (.text "users") (stockedCache text) =
      (.ok none, { stockedCache text with
        disk := (stockedCache text).disk.erase (oneRepository.entryPlace () "users") }) := by
    rw [run_lookup (F := oneRepository) (i := ()) rfl table rfl (D := "empty") rfl rfl,
      reading_of_readBytes wrote read, if_neg (by decide)]
  have accepted :
      (Noting.currentDigest {} oneRepository.repo () ⟨stockedCache text, []⟩).2.events =
        [] := by
    rw [Noting.run_currentDigest (c := ⟨stockedCache text, []⟩) rfl rfl]
  have same := steady Tended.isNamed_oneRepository _ (aside_stockedCache text)
  rw [looked] at same
  refine ⟨text, _, wrote, looked, rfl, again _ _ looked ?_ same⟩
  rw [accepted]
  exact List.not_mem_nil

/-! ### Migrations on the way to the cache -/

/-- Where the marker has another digest, it is renewed after a clearing. -/
theorem run_currentDigest_of_ne {c : Chronicle ι} {σ : Store} {e : Disk}
    {stored : Option String}
    (digest : s.migrationsDigest (F.repo i) c.store.disk = .ok D)
    (marker : s.storedDigest (F.repo i) c.store.disk = .ok stored) (other : stored ≠ some D)
    (cleared : clearRepository s (F.repo i) c.store = (.ok (), σ)) (here : σ.disk.home = home)
    (written : σ.disk.write (F.marker i) D.toUTF8 = (.ok (), e)) :
    Noting.currentDigest s F.repo i c = (.ok D, ⟨{ σ with disk := e }, c.events⟩) ∧
      currentDigest s (F.repo i) c.store = (.ok D, { σ with disk := e }) := by
  have noted :
      Noting.currentDigest s F.repo i c = (.ok D, ⟨{ σ with disk := e }, c.events⟩) := by
    unfold Noting.currentDigest
    rw [run_bind, Noting.run_silently_ask, digest]
    dsimp only
    rw [run_bind, Noting.run_silently_ask, marker]
    dsimp only
    rw [if_pos (by simpa using other), run_bind, Noting.silently, cleared]
    dsimp only
    rw [run_bind, Noting.run_silently_ask, F.marker_eq i here]
    dsimp only
    rw [run_bind, Noting.writeText, Caching.writeText, Caching.run_attempt, written]
    rfl
  obtain ⟨result, store⟩ := Noting.Erases.currentDigest s F.repo i c
  rw [noted] at result store
  exact ⟨noted, Prod.ext result.symm store.symm⟩

/-- Settings under which the way to the cache leads through the directory of the migrations,
and out of it again. -/
def migrationsOnTheWay : Settings where
  cache := { environment := .text "ghost/..", migrationsDir := .text "tmp/cache/ghost" }

/-- A repository under these settings. -/
def repositoryBeyond : Family Unit migrationsOnTheWay [] where
  repo := oneRepository.repo
  root := ⟨.slash, ["tmp", "cache", "ghost", "..", CacheSettings.cacheName]⟩
  name := oneRepository.name
  cacheRoot := rfl
  shortName _ := rfl

/-- A cache with an entry of users and no marker, and further files. -/
def unmarkedCache (text : String) (added : List (Location × Entry)) : Store where
  disk := {
    home := []
    entries := added ++ [
      (["tmp"], .directory), (["tmp", "cache"], .directory),
      (["tmp", "cache", "drops_relation_schema"], .directory),
      (["tmp", "cache", "drops_relation_schema", "repo"], .directory),
      (["tmp", "cache", "drops_relation_schema", "repo", "users.json"], .file text.toUTF8)] }

/-- The same cache, with a directory of migrations and the marker of a time when there was
none. -/
def markedCache (text : String) : Store :=
  unmarkedCache text [
    (["tmp", "cache", "drops_relation_schema", "repo_migrations_digest.txt"],
      .file "empty".toUTF8),
    (["tmp", "cache", "ghost"], .directory)]

section

variable (text : String)

/-- The first to ask makes the directory of the migrations, since the way to the marker leads
through it. -/
theorem currentDigest_unmarkedCache :
    Noting.currentDigest migrationsOnTheWay repositoryBeyond.repo ()
      ⟨unmarkedCache text [], []⟩ =
        (.ok "empty", ⟨markedCache text, []⟩) ∧
      currentDigest migrationsOnTheWay (repositoryBeyond.repo ()) (unmarkedCache text []) =
        (.ok "empty", markedCache text) := by
  have marker : migrationsOnTheWay.storedDigest (repositoryBeyond.repo ())
      (unmarkedCache text []).disk = .ok none := rfl
  exact run_currentDigest_of_ne (F := repositoryBeyond) (i := ())
    (c := ⟨unmarkedCache text [], []⟩)
    (σ := unmarkedCache text []) (e := (markedCache text).disk) rfl marker
      (by simp) rfl rfl rfl

/-- What the migrations are after that. -/
theorem migrationsDigest_markedCache :
    migrationsOnTheWay.migrationsDigest (repositoryBeyond.repo ()) (markedCache text).disk =
      .ok (Migrations.digestWith Sha256.hash []) := by
  have path :
      migrationsOnTheWay.migrationsPath (repositoryBeyond.repo ()) (markedCache text).disk =
      .ok ⟨.slash, ["tmp", "cache", "ghost"]⟩ := rfl
  have listed :
      (markedCache text).disk.list ⟨.slash, ["tmp", "cache", "ghost"]⟩ = .ok [] := rfl
  rw [Settings.migrationsDigest, path, ok_bind]
  refine Migrations.digest_of_files rfl ?_
  rw [Migrations.files, listed, ok_bind, Migrations.chosen, ok_bind, Migrations.inOrder,
    List.mergeSort_nil]

/-- The files of a cache without entries, with a marker. -/
def emptiedCache (D : String) : Disk where
  home := []
  entries := [
    (["tmp", "cache", "drops_relation_schema", "repo_migrations_digest.txt"], .file D.toUTF8),
    (["tmp", "cache", "ghost"], .directory), (["tmp"], .directory),
    (["tmp", "cache"], .directory),
    (["tmp", "cache", "drops_relation_schema"], .directory)]

/-- The second to ask finds other migrations, and removes what the first one found. -/
theorem lookup_markedCache
    (digest : migrationsOnTheWay.migrationsDigest (repositoryBeyond.repo ())
    (markedCache text).disk = .ok D) (other : some "empty" ≠ some D) :
    lookup migrationsOnTheWay (repositoryBeyond.repo ()) (.text "users") (markedCache text) =
      (.ok none, ⟨emptiedCache D, []⟩) := by
  have enabled : isEnabled migrationsOnTheWay = true := rfl
  have cleared :=
    run_clearRepository (F := repositoryBeyond) (i := ()) (σ := markedCache text) rfl rfl
  have asked := (run_currentDigest_of_ne (F := repositoryBeyond) (i := ())
    (c := ⟨markedCache text, []⟩) (e := emptiedCache D) digest rfl other cleared rfl rfl).2
  refine (lookup_eq_ok enabled).2 ⟨D, _, asked, ?_⟩
  rw [Noting.run_lookupAt repositoryBeyond () (by decide) D rfl]
  rfl

variable {text} (wrote : StoredSchema.entryText ⟨.empty "users", "empty"⟩ = .ok text)

include wrote

/-- The first look-up finds the schema of users. -/
theorem lookup_unmarkedCache :
    lookup migrationsOnTheWay (repositoryBeyond.repo ()) (.text "users")
      (unmarkedCache text []) =
      (.ok (some (.empty "users")), markedCache text) := by
  have enabled : isEnabled migrationsOnTheWay = true := rfl
  have read : (markedCache text).disk.readBytes (repositoryBeyond.entry () "users") =
      .ok text.toUTF8 := rfl
  have reread : (Schema.empty "users").reread = .ok (.empty "users") :=
    Schema.reread_eq (Schema.representable_empty _) rfl
  refine (lookup_eq_ok enabled).2 ⟨"empty", _, (currentDigest_unmarkedCache text).2, ?_⟩
  rw [Noting.run_lookupAt repositoryBeyond () (by decide) _ rfl,
    reading_of_readBytes wrote read, if_pos rfl, Reading.ofReread_of_reread reread]

end

/-- A look-up that finds a schema, with nothing refused, can be followed by one that removes
it. -/
theorem not_settled :
    repositoryBeyond.IsNamed ∧ ∃ text σ₁ σ₂,
      StoredSchema.entryText ⟨.empty "users", "empty"⟩ = .ok text ∧
      lookup migrationsOnTheWay (repositoryBeyond.repo ()) (.text "users")
        (unmarkedCache text []) =
        (.ok (some (.empty "users")), σ₁) ∧
      .refused ∉ (Noting.currentDigest migrationsOnTheWay repositoryBeyond.repo ()
        ⟨unmarkedCache text [], []⟩).2.events ∧
      lookup migrationsOnTheWay (repositoryBeyond.repo ()) (.text "users") σ₁ =
        (.ok none, σ₂) ∧
      σ₁.disk.entry? (repositoryBeyond.entryPlace () "users") ≠ none ∧
      σ₂.disk.entry? (repositoryBeyond.entryPlace () "users") = none := by
  obtain ⟨text, wrote⟩ :
      ∃ text, StoredSchema.entryText ⟨.empty "users", "empty"⟩ = .ok text := ⟨_, rfl⟩
  have named : repositoryBeyond.IsNamed :=
    ⟨fun | () => ⟨by decide, by decide, by decide⟩, fun _ _ _ => rfl⟩
  have other : some "empty" ≠ some (Migrations.digestWith Sha256.hash []) :=
    fun same => Migrations.digestWith_ne_emptyDigest _ _ (Option.some.inj same).symm
  refine ⟨named, text, markedCache text, _, wrote, lookup_unmarkedCache wrote, ?_,
    lookup_markedCache text (migrationsDigest_markedCache text) other, nofun, rfl⟩
  rw [(currentDigest_unmarkedCache text).1]
  exact List.not_mem_nil

end Cache

end Schemata
