/-
Where cached schemas are kept.

Each repository has a directory under the root of the cache that goes by its short name. A
schema is stored there in a file named after its table. Beside the directory is the marker of
the repository, a file with the digest of the migrations for which its schemas were stored.
-/
import Schemata.Migrations
import Schemata.Settings

namespace Schemata

/-- The path of the working directory. -/
def Disk.homePath (d : Disk) : Path :=
  ⟨.slash, d.home⟩

namespace Settings

/-- The root of the cache. -/
def cacheRoot (s : Settings) (d : Disk) : Except Fault Path :=
  s.cache.cacheRoot d.homePath

/-- The directory of the stored schemas of a repository. -/
def repositoryPath (s : Settings) (repo : Repository) (d : Disk) : Except Fault Path := do
  let root ← s.cacheRoot d
  .ok (root.below (← repo.shortName))

/-- The file of the stored schema of a table. -/
def entryPath (s : Settings) (repo : Repository) (table : Value) (d : Disk) :
    Except Fault Path := do
  .ok ((← s.repositoryPath repo d).below ((← table.plain) ++ ".json"))

/-- The marker of a repository. -/
def markerPath (s : Settings) (repo : Repository) (d : Disk) : Except Fault Path := do
  let root ← s.cacheRoot d
  .ok (root.below ((← repo.shortName) ++ "_migrations_digest.txt"))

/-- The directory of the migrations of a repository. -/
def migrationsPath (s : Settings) (repo : Repository) (d : Disk) : Except Fault Path :=
  s.cache.migrationsPath d.homePath repo

/-- The digest of the migrations of a repository as they are now. -/
def migrationsDigest (s : Settings) (repo : Repository) (d : Disk) : Except Fault String := do
  Migrations.digest d (← s.migrationsPath repo d) s.cache.migrationExtension

/-- The digest in the marker of a repository, if the marker can be opened. -/
def storedDigest (s : Settings) (repo : Repository) (d : Disk) :
    Except Fault (Option String) := do
  match d.readText (← s.markerPath repo d) with
  | .ok text => .ok (some (Text.stripped text))
  | .error (.file _ _) => .ok none
  | .error f => .error f

end Settings

end Schemata
