/-
The program: it reads the files that the command looks at, runs the command on them, makes the
changes that the command made, and tells what the command told.
-/
import Schemata.CommandLine
import Schemata.Files.Change

namespace Schemata.Program

/-- The text of a location. -/
def textOf (l : Location) : String :=
  "/" ++ "/".intercalate l

/-- Reads the entry at a location, if there is one. -/
def readEntry (d : Disk) (l : Location) : IO Disk := do
  let place := (← IO.currentDir) / textOf l
  if ← place.isDir then return d.put l .directory
  if ← place.pathExists then return d.put l (.file (← IO.FS.readBinFile place))
  return d

/-- Reads what is below a location, down to a depth. -/
def readBelow (d : Disk) (l : Location) : Nat → IO Disk
  | 0 => return d
  | depth + 1 => do
    let place := (← IO.currentDir) / textOf l
    unless ← place.isDir do return d
    let mut d := d
    for entry in ← place.readDir do
      let m := l ++ [entry.fileName]
      d ← readBelow (← readEntry d m) m depth
    return d

/-- Reads the entries along components from a location, and what is below the last one. -/
def readAlong (d : Disk) (l : Location) (depth : Nat) : List String → IO Disk
  | [] => readBelow d l depth
  | p :: ps => do
    let m := if p == ".." then l.dropLast else l ++ [p]
    readAlong (← readEntry d m) m depth ps

/-- Reads places. -/
def readPlaces (d : Disk) : List (Path × Nat) → IO Disk
  | [] => return d
  | (p, depth) :: places => do
    readPlaces (← readAlong d (d.start p.root) depth p.parts) places

/-- Makes a change. A file is written beside its place and then moved there. -/
def make : Change → IO Unit
  | .removeFile l => IO.FS.removeFile (textOf l)
  | .removeDirectory l => IO.FS.removeDir (textOf l)
  | .makeDirectory l => IO.FS.createDirAll (textOf l)
  | .writeFile l bytes => do
    let draft := textOf l ++ ".draft"
    IO.FS.writeBinFile draft bytes
    IO.FS.rename draft (textOf l)

/-- The variables of the environment that matter. -/
def environment : IO Environment := do
  let mut e := []
  for name in Environment.names do
    if let some s ← IO.getEnv name then e := (name, s) :: e
  return e

/-- Tells how the command ended, and gives the code of the program. -/
def report (ending : CommandLine.Ending) : IO UInt32 := do
  IO.print ending.told
  match ending.code with
  | .ok code =>
    if code == 2 then IO.eprintln CommandLine.usage
    return UInt32.ofNat code
  | .error f =>
    IO.eprintln (f.message.getD "the command failed")
    return 1

end Schemata.Program

open Schemata Program in
/-- Runs the command with the arguments of the program. -/
def main (arguments : List String) : IO UInt32 := do
  let e ← environment
  let here := (← IO.currentDir).toString
  let d := Disk.empty (Path.ofText here).parts
  let d ← readPlaces d (CommandLine.places e arguments d)
  let d ← readPlaces d (CommandLine.places e arguments d)
  let ending := CommandLine.run e arguments d
  for change in d.changes ending.disk do make change
  report ending
