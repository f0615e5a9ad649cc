/-
What a look-up can fail for.

Nothing, a directory, or a file of any bytes can be where the cache expects a stored schema or
a marker. A look-up takes each of them for what it is: what cannot be read is not there, what
does not decode is stale, and what stands in the way of a write is left. So it comes to an
answer, and a schema that is asked for is what the look-up found, or what the database
describes.

There are two exceptions. One is a marker whose bytes are no text (`Disk.IsGarbled`). A marker
is read apart from stored schemas, and there only a refusal by the file system counts as
absence. While such a file lies there, no operation that asks for the digest of the repository
gets past it, and none replaces it. The other is a stored schema that is nested too deeply to
be read (`Disk.IsTooDeep`), which is neither absent nor stale. It too stays where it is, until
a sweep removes it with all others.
-/
import Mathlib
import Schemata.Proofs.Cache.Entries
import Schemata.Proofs.Cache.Operations
import Schemata.Proofs.Table.Visit

namespace Schemata

/-! ## Files -/

namespace Disk

/-- There is a file at a path, and its bytes are no text. -/
def IsGarbled (d : Disk) (p : Path) : Prop :=
  ∃ b, d.readBytes p = .ok b ∧ String.fromUTF8? b = none

/-- There is a text at a path, and it is nested too deeply to be read. -/
def IsTooDeep (d : Disk) (p : Path) : Prop :=
  ∃ text, d.readText p = .ok text ∧ Json.read Json.readingRoom text = .error .tooDeep

variable {d : Disk} {p : Path}

/-- A file is read, or the file system refuses to. -/
theorem readBytes_cases (d : Disk) (noNull : p.hasNull = false) :
    (∃ b, d.readBytes p = .ok b) ∨ ∃ t, d.readBytes p = .error (.file t p.text) := by
  rw [readBytes, locate, noNull]
  cases d.resolve p with
  | error t => exact .inr ⟨t, rfl⟩
  | ok l =>
    show (∃ b, _ = Except.ok b) ∨ _
    simp only [Bool.false_eq_true, if_false, reported, ok_bind]
    cases d.entry? l with
    | none => exact .inr ⟨_, rfl⟩
    | some x =>
      cases x with
      | directory => exact .inr ⟨_, rfl⟩
      | file b => exact .inl ⟨b, rfl⟩

/-- What is no garbled file is read as a text, or refused by the file system. -/
theorem readText_cases (noNull : p.hasNull = false) (h : ¬ d.IsGarbled p) :
    (∃ text, d.readText p = .ok text) ∨ ∃ t, d.readText p = .error (.file t p.text) := by
  rcases d.readBytes_cases noNull with ⟨b, read⟩ | ⟨t, refused⟩
  · cases decoded : String.fromUTF8? b with
    | none => exact absurd ⟨b, read, decoded⟩ h
    | some text =>
      refine .inl ⟨Text.withPlainBreaks text, ?_⟩
      rw [readText, read, ok_bind, decode, decoded]
  · exact .inr ⟨t, by rw [readText, refused, error_bind]⟩

/-- Of a usable path it can be told whether it leads to anything. -/
theorem exists_hasEntry (d : Disk) (usable : p.IsUsable) :
    ∃ there, d.hasEntry p = .ok there := by
  by_cases reaches : d.Reaches p
  · have resolved : d.resolve p = .ok (d.place p) := by
      rw [resolve, if_neg (Nat.not_le.2 usable.short), reaches]
    rw [hasEntry, entryAt, usable.noNull, find, resolved, ok_bind]
    cases d.entry? (d.place p) with
    | none => exact ⟨false, rfl⟩
    | some x => exact ⟨true, rfl⟩
  · exact ⟨false, hasEntry_of_not_reaches usable reaches⟩

/-- A write to a path without a null is done, or refused by the file system. -/
theorem write_accepted (d : Disk) (noNull : p.hasNull = false) (bytes : ByteArray) :
    Caching.accepted (d.write p bytes).1 = .ok () := by
  have parent : p.parent.hasNull = false := by
    simp only [Path.hasNull, List.any_eq_false, Path.parent] at noNull ⊢
    exact fun s hs => noNull s (List.mem_of_mem_dropLast hs)
  unfold write makeDirectories
  simp only [parent, noNull, Bool.false_eq_true, if_false]
  by_cases long : maxPath ≤ p.parent.text.utf8ByteSize
  · rw [if_pos long]
    rfl
  · rw [if_neg long]
    cases d.makeAlong (d.start p.parent.root) p.parent.parts with
    | mk r e =>
      cases r with
      | error t => rfl
      | ok l =>
        simp only [reported]
        split
        · rfl
        · split <;> rfl

end Disk

/-! ## Texts that are nested too deeply -/

namespace Json

/-- A text that opens so many arrays inside one another. -/
def brackets (n : Nat) : String :=
  String.ofList (List.replicate n '[')

end Json

theorem Cache.reading_eq_tooDeep_iff {d : Disk} {p : Path} {D : String} :
    reading p D d = .tooDeep ↔ d.IsTooDeep p := by
  unfold reading Disk.IsTooDeep
  cases d.readText p with
  | error e => simp
  | ok text =>
    simp only [Except.ok.injEq, exists_eq_left']
    unfold Reading.within
    cases Json.read Json.readingRoom text with
    | error e => cases e <;> simp
    | ok j =>
      have answered : Reading.ofJson D j ≠ .tooDeep := by
        unfold Reading.ofJson
        repeat' split
        all_goals simp
      simpa using answered

/-! ## Steps that come to an end -/

namespace Caching

/-- Removing a directory that may be missing comes to an end. -/
theorem run_removeDirectory {p : Path} (usable : p.IsUsable) (σ : Store) :
    ∃ σ', Cache.removeDirectory p σ = (.ok (), σ') ∧ σ'.disk.home = σ.disk.home := by
  have home : (Cache.removeDirectory p σ).2.disk.home = σ.disk.home := by
    rcases removeDirectory_cases p σ with same | ⟨-, -, gone⟩
    · rw [same]
    · rw [gone]
      rfl
  have result : (Cache.removeDirectory p σ).1 = .ok () := by
    obtain ⟨there, hthere⟩ := σ.disk.exists_hasEntry usable
    unfold Cache.removeDirectory
    rw [run_bind, run_ask, hthere]
    cases there with
    | false => rfl
    | true => simp only [if_true, run_change]
  exact ⟨_, Prod.ext result rfl, home⟩

/-- Writing a text to a file comes to an end. -/
theorem run_writeText {p : Path} {n : String} (noNull : (p.child n).hasNull = false)
    (text : String) (σ : Store) :
    ∃ σ', writeText (p.child n) text σ = (.ok (), σ') ∧ σ'.disk.home = σ.disk.home := by
  unfold writeText
  rw [run_attempt, σ.disk.write_accepted noNull]
  exact ⟨_, rfl, σ.disk.home_write p n text.toUTF8⟩

end Caching

/-! ## What an operation comes to -/

/-- What a database describes a table as, if it can. -/
def Introspector.describe (i : Introspector) (s : Settings) (repo : Repository)
    (table : Value) :
    Except Fault Schema :=
  i.table repo table >>= fun tree => Table.build tree (.dialect i.dialect) >>=
    Schema.ofTable s.inference.bareDocument

/-- The files of a table of a repository can be looked for: their paths are such that the
system does not refuse them before it looks. -/
structure Family.Admits {ι : Type} {s : Settings} {home : Location}
    (F : Family ι s home) (i : ι)
    (t : String) : Prop where
  table : IsTable t
  directory : (F.directory i).IsUsable
  marker : (F.marker i).IsUsable
  entry : (F.entry i t).hasNull = false

namespace Cache

open Caching

variable {ι : Type} {s : Settings} {home : Location} {F : Family ι s home} {i : ι}
  {t D : String}
  {σ : Store}

/-- Where the marker is not garbled, the digest is that of the migrations, whatever the marker
says. If it says the same, nothing is changed. -/
theorem run_currentDigest (paths : F.Admits i t) (here : σ.disk.home = home)
    (digest : s.migrationsDigest (F.repo i) σ.disk = .ok D)
    (clear : ¬ σ.disk.IsGarbled (F.marker i)) :
    ∃ σ', currentDigest s (F.repo i) σ = (.ok D, σ') ∧ σ'.disk.home = home ∧
      (s.storedDigest (F.repo i) σ.disk = .ok (some D) → σ' = σ) := by
  obtain ⟨stored, marker⟩ : ∃ stored, s.storedDigest (F.repo i) σ.disk = .ok stored := by
    rw [F.storedDigest_eq i here]
    rcases Disk.readText_cases paths.marker.noNull clear with ⟨text, read⟩ | ⟨t, refused⟩
    · exact ⟨_, by rw [read]⟩
    · exact ⟨_, by rw [refused]⟩
  unfold currentDigest
  rw [run_bind, run_ask, digest]
  dsimp only
  rw [run_bind, run_ask, marker]
  dsimp only
  by_cases same : stored = some D
  · rw [if_neg (by simp [same])]
    exact ⟨σ, rfl, here, fun _ => rfl⟩
  · rw [if_pos (by simpa using same)]
    obtain ⟨σ₁, swept, home₁⟩ := run_removeDirectory paths.directory σ
    have home₁ := home₁.trans here
    obtain ⟨p, n, child, -⟩ := F.exists_marker i
    obtain ⟨σ₂, written, home₂⟩ :=
      run_writeText (child ▸ paths.marker.noNull) D σ₁
    refine ⟨σ₂, ?_, home₂.trans home₁, fun own => absurd (Except.ok.inj own) same⟩
    have cleared : clearRepository s (F.repo i) σ = (.ok (), σ₁) := by
      unfold clearRepository
      rw [run_bind, run_ask, F.directory_eq i here]
      exact swept
    rw [run_bind, cleared]
    dsimp only
    rw [run_bind, run_ask, F.marker_eq i home₁, child]
    dsimp only
    rw [run_bind, written]
    rfl

theorem workingDigest_eq (repo : Repository) (enabled : isEnabled s = true) :
    workingDigest s repo = currentDigest s repo >>= fun D => pure (some D) := by
  unfold workingDigest
  rw [if_pos enabled]
  rfl

/-- What looks for a schema asks for the digest first, and then looks under it. -/
theorem lookup_of_asked {σ₁ : Store} (enabled : isEnabled s = true)
    (asked : currentDigest s (F.repo i) σ = (.ok D, σ₁)) :
    lookup s (F.repo i) (.text t) σ = lookupAt s (F.repo i) (.text t) D σ₁ := by
  unfold lookup
  rw [if_pos enabled, run_bind, asked]

/-- A repository under default settings. -/
def oneRepository : Family Unit {} [] :=
  .ofIdentifiers fun _ => "MyApp.Repo"

/-- The files of a cache, with something as the marker of the repository, and something as a
stored schema. -/
def strangeCache (marker stored : Entry) : Store where
  disk := {
    home := []
    entries := [
      (["tmp"], .directory), (["tmp", "cache"], .directory),
      (["tmp", "cache", "dev"], .directory),
      (["tmp", "cache", "dev", "drops_relation_schema"], .directory),
      (["tmp", "cache", "dev", "drops_relation_schema", "repo"], .directory),
      (["tmp", "cache", "dev", "drops_relation_schema", "repo", "users.json"], stored),
      (["tmp", "cache", "dev", "drops_relation_schema", "repo_migrations_digest.txt"],
        marker)] }

/-- A database in which every table is an empty table of users. -/
def usersDatabase : Introspector where
  dialect := .sqlite
  table _ _ := .ok (.tagged "table" (.list [
    .tagged "identifier" (.text "users"), .list [], .list [], .list []]))

theorem describe_users : usersDatabase.describe {} (oneRepository.repo ()) (.text "users") =
    .ok (.empty "users") := by
  have none : Table.visit (some .sqlite) (.list []) = .ok (.items []) := by
    rw [Table.visit_list]
    rfl
  have built : Table.build (.tagged "table" (.list [
      .tagged "identifier" (.text "users"), .list [], .list [], .list []]))
        (.dialect .sqlite) =
      .ok ⟨"users", .sqlite, [], [], []⟩ := by
    have found : Registry.find (.dialect .sqlite) = .ok .sqlite := rfl
    rw [Table.build, found, ok_bind, Table.visit_table, Table.tablePart_list,
      Table.visit_identifier, Table.listComponent_list, none]
    rfl
  rw [Introspector.describe, usersDatabase, ok_bind, built, ok_bind]
  cbv

end Cache

end Schemata
