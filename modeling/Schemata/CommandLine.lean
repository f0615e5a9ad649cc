/-
The command that refreshes the cache of a repository from a snapshot.

The command tells where it works, forgets the cached schemas of the repository, infers those
of the tables again, and lists them. What it tells is a sequence of lines, each told before
the next step is taken, so that a failure leaves the lines before it. Failures that a user can
act on end the command with a line of their own; any other fault ends it as it is.
-/
import Schemata.Cache
import Schemata.CommandLine.Request
import Schemata.Model.Source

namespace Schemata.CommandLine

/-- How the command is called. -/
def usage : String :=
  "usage: schemata --repo REPO [--snapshot FILE] [--tables TABLE ...] [--config FILE] " ++
    "[--clear] [--render] [--verbose]"

/-! ## Telling -/

/-- The files, and what has been told. -/
structure Session where
  store : Store
  told : String := ""

/-- A part of the command. -/
abbrev Telling := ExceptT Fault (StateM Session)

/-- Tells a line. -/
def tell (line : String) : Telling Unit :=
  modify fun s => { s with told := s.told ++ line ++ "\n" }

/-- Works on the files, and gives what came of it. -/
def outcome {α : Type} (work : Caching α) : Telling (Except Fault α) := do
  let s ← get
  let (r, store) := work.run.run s.store
  set { s with store }
  return r

/-- Works on the files. -/
def working {α : Type} (work : Caching α) : Telling α := do
  match ← outcome work with
  | .ok a => return a
  | .error f => throw f

/-- A ruled line. -/
def rule (c : Char) : String :=
  String.ofList (List.replicate 70 c)

/-! ## Settings and snapshots -/

/-- An argument that is there and says something. -/
def present (argument : Option String) : Option String :=
  argument.filter (· != "")

/-- The settings of the environment, under those of a description file if one is named. -/
def settingsOf (e : Environment) (config : Option String) (d : Disk) :
    Except Fault Settings :=
  match present config with
  | none => .ok (.ofEnvironment e)
  | some path => do (Settings.ofEnvironment e).overrideText (← d.readWritten path)

/-- The snapshot of a file. A file that cannot be read is a failure to describe tables. -/
def snapshotAt (path : String) (d : Disk) : Except Fault Snapshot :=
  let p := Path.ofText path
  match d.readText p with
  | .ok text => Snapshot.ofText p.text text
  | .error (.file t place) => .error (.introspection p.text (t.report place))
  | .error f => .error f

/-- The faults that a user can act on. -/
def isFailure : Fault → Bool
  | .introspection _ _ => true
  | .snapshotSyntax _ _ => true
  | .unsupportedDialect _ _ => true
  | .sourceMismatch _ _ => true
  | .fieldMismatch _ _ => true
  | .definition _ _ => true
  | .cacheFile _ _ => true
  | .digest _ _ => true
  | _ => false

/-! ## The command -/

/-- Tells where the command works. -/
def tellPlaces (s : Settings) (repo : Repository) : Telling Unit := do
  tell (rule '=')
  tell "RELATION SCHEMA - Cache Refresh"
  tell (rule '=')
  tell ("Repository: " ++ repo.text)
  tell ("Cache root: " ++ (← working (Caching.ask s.cacheRoot)).text)
  tell ("Migrations: " ++ (← working (Caching.ask (s.migrationsPath repo))).text)
  tell ("Digest: " ++ (← working (Caching.ask (s.migrationsDigest repo))))
  tell (rule '=')

/-- Refreshes the schemas of tables, or of all tables that a snapshot describes. -/
def refreshed (s : Settings) (repo : Repository) (path : String)
    (tables : Option (List String)) :
    Caching (List Schema) := do
  let snapshot ← Caching.ask (snapshotAt path)
  let names ← match tables with
    | some ts => pure (ts.map Value.text)
    | none => Caching.ask fun _ => snapshot.names
  Cache.refresh s repo (some names) (some snapshot.introspector)

/-- Tells what a schema holds. -/
def tellSchema (verbose : Bool) (s : Schema) : Telling Unit := do
  let key := (s.primaryKey.map (·.fieldNames)).getD []
  tell ("  - " ++ s.source ++ ": " ++ toString s.fields.length ++ " fields, primary key " ++
    shownTexts key)
  if verbose then
    s.fields.forM fun f => tell ("      " ++ f.name ++ ": " ++ f.type.label)

/-- Tells the model of a schema. -/
def tellModel (s : Schema) : Telling Unit := do
  tell ("\n" ++ rule '-')
  tell (← working (Caching.ask fun _ => s.renderModel (.ofSchema s)))

/-- Tells the schemas that were refreshed. -/
def tellSchemas (r : Request) (schemas : List Schema) : Telling Unit := do
  tell ("\n[RESULTS] (" ++ toString schemas.length ++ " tables)\n")
  schemas.forM (tellSchema r.verbose)
  if r.render then schemas.forM tellModel
  tell ("\n" ++ rule '=')

/-- Refreshes the cache, and gives the code with which the command ends. -/
def refresh (s : Settings) (r : Request) (path : String) : Telling Nat := do
  match ← outcome (refreshed s (.identifier r.repo) path r.tables) with
  | .ok schemas =>
    tellSchemas r schemas
    return 0
  | .error f =>
    if isFailure f then
      tell ("\nError: " ++ f.message.getD "")
      return 1
    else throw f

/-- Carries out a request, and gives the code with which the command ends. -/
def carryOut (e : Environment) (r : Request) : Telling Nat := do
  let s ← working (Caching.ask (settingsOf e r.config))
  let repo := Repository.identifier r.repo
  tellPlaces s repo
  if r.clear then
    working (Cache.clearRepository s repo)
    tell "\nRepository cache cleared"
    return 0
  match present r.snapshot with
  | none => return 2
  | some path => refresh s r path

/-- The places that the command looks at, each with the depth to which it looks below it, as
far as the files that are known tell. -/
def places (e : Environment) (arguments : List String) (d : Disk) : List (Path × Nat) :=
  match Request.ofArguments arguments with
  | .error _ => []
  | .ok r =>
    let files := (present r.config).toList ++ (present r.snapshot).toList
    let directories := match settingsOf e r.config d with
      | .error _ => []
      | .ok s =>
        (s.migrationsPath (.identifier r.repo) d).toOption.toList.map (fun p => (p, 1)) ++
          (s.cacheRoot d).toOption.toList.map (fun p => (p, Disk.maxPath))
    files.map (fun f => (Path.ofText f, 0)) ++ directories

/-- How the command ended. -/
structure Ending where
  /-- The code, or the fault that stopped the command. -/
  code : Except Fault Nat
  told : String
  disk : Disk

/-- Runs the command. -/
def run (e : Environment) (arguments : List String) (d : Disk) : Ending :=
  match Request.ofArguments arguments with
  | .error .help => ⟨.ok 0, usage ++ "\n", d⟩
  | .error .usage => ⟨.ok 2, "", d⟩
  | .ok r =>
    let (code, s) := (carryOut e r).run.run ⟨⟨d, []⟩, ""⟩
    ⟨code, s.told, s.store.disk⟩

end Schemata.CommandLine
