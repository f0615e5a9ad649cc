/-
The cache of inferred schemas.

A cached schema holds for the migrations of its repository as they were when it was stored.
Two checks guard a lookup. The repository is swept: if the migrations are not those of the
marker, every stored schema of the repository is removed and the marker renewed. Then the
digest that is stored with the schema itself is compared, and a schema with another one is
removed.

Reading does not fail because of what a file holds: what cannot be read is not there, with two
exceptions, a marker that is no text and a stored schema that is nested too deeply. Writing
never fails because of the file system either: what cannot be written is left out. Faults in
settings, and faults of inference, pass through; the files are then as far as the operation
came.
-/
import Schemata.Cache.Layout
import Schemata.Cache.StoredSchema
import Schemata.Schema.Compile
import Schemata.Snapshot

namespace Schemata

/-- What can describe the tables of a database as trees. -/
structure Introspector where
  dialect : Dialect
  /-- The tree of a table of a repository. -/
  table : Repository → Value → Except Fault Value

/-- A snapshot describes the same tables for every repository. -/
def Snapshot.introspector (s : Snapshot) : Introspector where
  dialect := s.dialect
  table := fun _ name => s.table name

/-- The files, and the tables that an introspector was asked for, in order. -/
structure Store where
  disk : Disk
  asked : List Value := []

/-- An operation on files that may fail, and whose changes stay if it fails. -/
abbrev Caching := ExceptT Fault (StateM Store)

namespace Caching

/-- Asks about the files. -/
def ask {α : Type} (f : Disk → Except Fault α) : Caching α := do
  match f (← get).disk with
  | .ok a => pure a
  | .error e => throw e

/-- Changes the files. -/
def change {α : Type} (f : Disk → Except Fault α × Disk) : Caching α := do
  let s ← get
  let (r, d) := f s.disk
  set { s with disk := d }
  match r with
  | .ok a => pure a
  | .error e => throw e

/-- Changes the files, and accepts a refusal by the file system. -/
def attempt (f : Disk → Except Fault Unit × Disk) : Caching Unit := do
  try change f
  catch
    | .file _ _ => pure ()
    | e => throw e

/-- Writes a text to a file, if the file system allows it. -/
def writeText (p : Path) (text : String) : Caching Unit :=
  attempt fun d => d.write p text.toUTF8

/-- Notes that an introspector is asked for a table. -/
def note (table : Value) : Caching Unit :=
  modify fun s => { s with asked := s.asked ++ [table] }

end Caching

namespace Cache

open Caching

variable (s : Settings) (repo : Repository)

/-- The cache is in use. -/
def isEnabled : Bool :=
  s.cache.enabled.isTruthy

/-! ## Clearing -/

/-- Removes a directory with everything in it, if it is there. -/
def removeDirectory (p : Path) : Caching Unit := do
  if ← ask fun d => d.hasEntry p then
    change fun d => (.ok (), d.removeTree p)

/-- Removes every stored schema of a repository. -/
def clearRepository : Caching Unit := do
  removeDirectory (← ask (s.repositoryPath repo))

/-- Removes the whole cache with its markers. -/
def clearAll : Caching Unit := do
  removeDirectory (← ask s.cacheRoot)

/-! ## Reading -/

/-- The digest of the migrations, after a sweep if the marker does not have it. -/
def currentDigest : Caching String := do
  let digest ← ask (s.migrationsDigest repo)
  let stored ← ask (s.storedDigest repo)
  if stored != some digest then
    clearRepository s repo
    writeText (← ask (s.markerPath repo)) digest
  pure digest

/-- What the file of a stored schema says. -/
def reading (p : Path) (digest : String) (d : Disk) : Reading :=
  match d.readText p with
  | .ok text => .within Json.readingRoom digest text
  | .error _ => .unreadable

/-- The stored schema of a table that holds for a digest. A stale one is removed. -/
def lookupAt (table : Value) (digest : String) : Caching (Option Schema) := do
  let p ← ask (s.entryPath repo table)
  match reading p digest (← get).disk with
  | .unreadable => pure none
  | .tooDeep => throw .tooDeep
  | .fresh schema => pure (some schema)
  | .stale =>
    attempt fun d => d.remove p
    pure none

/-- The stored schema of a table, if there is one that holds now. -/
def lookup (table : Value) : Caching (Option Schema) := do
  if isEnabled s then lookupAt s repo table (← currentDigest s repo) else pure none

/-- The stored schema of a table, or an empty one. -/
def lookupOrEmpty (table : Value) : Caching Schema := do
  match ← lookup s repo table with
  | some schema => pure schema
  | none =>
    match table.word? with
    | some name => pure (.empty name)
    | none => throw .invalid

/-! ## Writing -/

/-- Stores a schema for a digest, or for the migrations as they are now if none is given. -/
def store (table : Value) (schema : Schema) (digest : Option String) : Caching Unit := do
  if isEnabled s then
    let digest ← match digest.filter (· != "") with
      | some d => pure d
      | none => ask (s.migrationsDigest repo)
    let p ← ask (s.entryPath repo table)
    let text ← ask fun _ => StoredSchema.entryText ⟨schema, digest⟩
    writeText p text
    writeText (← ask (s.markerPath repo)) digest

/-! ## Inferring -/

/-- The schema of a table as the database describes it, whatever is stored. -/
def infer (table : Value) (i : Option Introspector) : Caching Schema := do
  match i with
  | none => throw .noAttribute
  | some i =>
    note table
    ask fun _ => do
      let tree ← i.table repo table
      let t ← Table.build tree (.dialect i.dialect)
      Schema.ofTable s.inference.bareDocument t

/-- The digest under which an operation works; none if the cache is not in use. -/
def workingDigest : Caching (Option String) := do
  if isEnabled s then some <$> currentDigest s repo else pure none

/-- The stored schema of a table that holds for a digest, else an inferred one that is
stored. -/
def obtainAt (table : Value) (i : Option Introspector) (digest : Option String) :
    Caching Schema := do
  let found ← match digest with
    | some d => lookupAt s repo table d
    | none => pure none
  match found with
  | some schema => pure schema
  | none =>
    let schema ← infer s repo table i
    store s repo table schema digest
    pure schema

/-- The schema of a table, inferred and stored if it is not stored yet. -/
def obtain (table : Value) (i : Option Introspector) : Caching Schema := do
  obtainAt s repo table i (← workingDigest s repo)

/-- The schemas of tables, each inferred and stored if it is not stored yet. -/
def warmUp (tables : List Value) (i : Option Introspector) : Caching (List Schema) := do
  let digest ← workingDigest s repo
  tables.mapM fun table => obtainAt s repo table i digest

/-- Forgets the stored schemas of a repository and infers those of the given tables again. -/
def refresh (tables : Option (List Value)) (i : Option Introspector) :
    Caching (List Schema) := do
  clearRepository s repo
  match tables, i with
  | none, _ => pure []
  | some _, none => throw .noIntrospector
  | some ts, some i => warmUp s repo ts (some i)

end Cache

end Schemata
