/-
What can be set: where schemas are cached, where migrations are found, and what becomes of
documents without a default.

Settings come from the environment, and a description file may override them. They are taken
as they come: a setting of the wrong kind is a fault where it is used, not where it is set.
Only the names of settings are checked.
-/
import Schemata.Files.Path
import Schemata.Repository
import Schemata.Text.Blank
import Schemata.Value.Basic
import Schemata.Yaml.Data

namespace Schemata

/-- The variables of the environment. -/
abbrev Environment := List (String × String)

/-- Where schemas are cached and migrations are found. -/
structure CacheSettings where
  enabled : Value := .bool true
  environment : Value := .text "dev"
  /-- The directory that holds caches and migrations; null for the working directory. -/
  rootDir : Value := .null
  migrationsDir : Value := .text "migrations"
  migrationExtension : Value := .text ".py"
  /-- Directories of the migrations of single repositories. -/
  migrationsDirs : Value := .dict []

/-- What the mapping of types leaves open. -/
structure InferenceSettings where
  /-- The type of a document without a default; null for a type of its own. -/
  bareDocument : Value := .text "map"

/-- All that can be set. -/
structure Settings where
  cache : CacheSettings := {}
  inference : InferenceSettings := {}

/-! ## Overrides -/

/-- Sets the settings of a mapping one after the other. -/
def applySettings {σ : Type} (set? : σ → String → Value → Option σ) (s : σ) :
    List (Value × Value) → Except Fault σ
  | [] => .ok s
  | (k, v) :: es =>
    match k.word?.bind fun name => set? s name v with
    | some s => applySettings set? s es
    | none => .error .wrongKind

namespace CacheSettings

/-- The settings by name. -/
def toFields (s : CacheSettings) : List (String × Value) := [
  ("enabled", s.enabled), ("environment", s.environment), ("root_dir", s.rootDir),
  ("migrations_dir", s.migrationsDir), ("migration_extension", s.migrationExtension),
  ("migrations_dirs", s.migrationsDirs)]

/-- Changes a setting, if there is one of that name. -/
def set? (s : CacheSettings) (name : String) (v : Value) : Option CacheSettings :=
  match name with
  | "enabled" => some { s with enabled := v }
  | "environment" => some { s with environment := v }
  | "root_dir" => some { s with rootDir := v }
  | "migrations_dir" => some { s with migrationsDir := v }
  | "migration_extension" => some { s with migrationExtension := v }
  | "migrations_dirs" => some { s with migrationsDirs := v }
  | _ => none

/-- Overrides settings by those of a mapping. -/
def override (s : CacheSettings) (es : List (Value × Value)) : Except Fault CacheSettings :=
  applySettings set? s es

end CacheSettings

namespace InferenceSettings

/-- The settings by name. -/
def toFields (s : InferenceSettings) : List (String × Value) := [
  ("json_nil_default_type", s.bareDocument)]

/-- Changes a setting, if there is one of that name. -/
def set? (_ : InferenceSettings) (name : String) (v : Value) : Option InferenceSettings :=
  match name with
  | "json_nil_default_type" => some ⟨v⟩
  | _ => none

/-- Overrides settings by those of a mapping. -/
def override (s : InferenceSettings) (es : List (Value × Value)) :
    Except Fault InferenceSettings :=
  applySettings set? s es

end InferenceSettings

/-! ## Places -/

namespace CacheSettings

/-- The directory in the cache of an environment that belongs to this library. -/
def cacheName : String := "drops_relation_schema"

/-- The directory that caches and migrations are in. -/
def base (s : CacheSettings) (home : Path) : Except Fault Path :=
  if s.rootDir.isTruthy then Path.ofSetting s.rootDir else .ok home

/-- The directory that holds cached schemas and markers. -/
def cacheRoot (s : CacheSettings) (home : Path) : Except Fault Path := do
  let base ← s.base home
  let environment ← ((base.below "tmp").below "cache").belowSetting s.environment
  .ok (environment.below cacheName)

/-- The setting of the directory of the migrations of a repository: one for its identifier,
else one for its short name, else the common one. -/
def migrationsSetting (s : CacheSettings) (repo : Repository) : Except Fault Value :=
  match s.migrationsDirs with
  | .dict dirs =>
    let own := Value.getD dirs repo.text
    if own.isTruthy then .ok own
    else do
      let short ← repo.shortName
      .ok ((Value.getD dirs short).orElse s.migrationsDir)
  | _ => .error .noAttribute

/-- The directory of the migrations of a repository. -/
def migrationsPath (s : CacheSettings) (home : Path) (repo : Repository) :
    Except Fault Path := do
  let base ← s.base home
  base.belowSetting (← s.migrationsSetting repo)

end CacheSettings

/-! ## The environment -/

/-- A variable of the environment. -/
def Environment.get? (e : Environment) (name : String) : Option String :=
  e.lookup name

/-- The variables that settings come from. -/
def Environment.names : List String := [
  "RELATION_SCHEMA_CACHE_ENABLED", "RELATION_SCHEMA_ENV", "APP_ENV",
  "RELATION_SCHEMA_CACHE_ROOT",
  "RELATION_SCHEMA_MIGRATIONS_DIR", "RELATION_SCHEMA_MIGRATION_EXT",
  "RELATION_SCHEMA_JSON_NIL_DEFAULT"]

/-- The words that switch something on. -/
def switchedOnWords : List String := ["1", "true", "yes", "on"]

/-- A variable switches something on. -/
def isSwitchedOn (s : String) : Bool :=
  switchedOnWords.contains (Text.lowercase (Text.stripped s))

namespace CacheSettings

/-- The settings of an environment. -/
def ofEnvironment (e : Environment) : CacheSettings where
  enabled := .bool (((e.get? "RELATION_SCHEMA_CACHE_ENABLED").map isSwitchedOn).getD true)
  environment :=
    .text ((e.get? "RELATION_SCHEMA_ENV").getD ((e.get? "APP_ENV").getD "dev"))
  rootDir :=
    match (e.get? "RELATION_SCHEMA_CACHE_ROOT").getD "" with
    | "" => .null
    | s => .text s
  migrationsDir := .text ((e.get? "RELATION_SCHEMA_MIGRATIONS_DIR").getD "migrations")
  migrationExtension := .text ((e.get? "RELATION_SCHEMA_MIGRATION_EXT").getD ".py")

end CacheSettings

namespace InferenceSettings

/-- The settings of an environment; the word `none` in any case stands for null. -/
def ofEnvironment (e : Environment) : InferenceSettings :=
  let s := (e.get? "RELATION_SCHEMA_JSON_NIL_DEFAULT").getD "map"
  ⟨if Text.lowercase s == "none" then .null else .text s⟩

end InferenceSettings

namespace Settings

/-- The settings of an environment. -/
def ofEnvironment (e : Environment) : Settings :=
  ⟨.ofEnvironment e, .ofEnvironment e⟩

/-- The settings that hold unless others are given: those of the environment when they were
first asked for. -/
def standing (kept : Option Settings) (e : Environment) : Settings :=
  kept.getD (ofEnvironment e)

/-! ## Description files -/

/-- A section of a description: a mapping, or nothing. -/
def sectionOf (es : List (Value × Value)) (key : String) :
    Except Fault (List (Value × Value)) :=
  match (Value.getD es key).orElse (.dict []) with
  | .dict entries => .ok entries
  | _ => .error .wrongKind

/-- Overrides settings by those of a description. -/
def override (s : Settings) (data : Value) : Except Fault Settings :=
  match data.orElse (.dict []) with
  | .dict es => do
    let cache ← s.cache.override (← sectionOf es "cache")
    let inference ← s.inference.override (← sectionOf es "inference")
    .ok ⟨cache, inference⟩
  | _ => .error .noAttribute

/-- Overrides settings by those of the text of a description file. -/
def overrideText (s : Settings) (text : String) : Except Fault Settings := do
  s.override (← Yaml.load text)

end Settings

end Schemata
