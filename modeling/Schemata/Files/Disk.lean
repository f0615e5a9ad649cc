/-
The part of a file system that matters here: a tree of directories and files, and the
directory in which one works.

A tree is kept as the list of its entries by location, the components from the top; the top
itself is always a directory. A path is followed one component at a time, so that it fails
where the system would: at a component that is missing, that is a file, or whose name is too
long. Two dots lead back up from a directory that was reached.

What changes the tree gives the tree after it also when it fails, because directories made on
the way to a failure stay. `Disk.write` replaces a file as a whole or not at all; it needs
room beside the file for a draft, whose name is a little longer than the name of the file and
whose path is as long as the location of the file makes it.
-/
import Schemata.Files.Path
import Schemata.Text.LineBreak

namespace Schemata

/-- Where an entry is: its components from the top. -/
abbrev Location := List String

/-- What can be at a location. -/
inductive Entry where
  | directory
  | file (bytes : ByteArray)

/-- A tree of entries, and the directory where relative paths begin. -/
structure Disk where
  home : Location
  entries : List (Location × Entry)

namespace Disk

/-- The longest name, in bytes. -/
def maxName : Nat := 255

/-- The length, in bytes, from which on a path is too long. -/
def maxPath : Nat := 4096

/-- How much longer the name of a draft is than the name of its file. -/
def draftMargin : Nat := 14

/-! ## Entries -/

/-- The entry at a location. -/
def entry? (d : Disk) (l : Location) : Option Entry :=
  match l with
  | [] => some .directory
  | l => d.entries.lookup l

/-- Puts an entry at a location, in the place of what was there. -/
def put (d : Disk) (l : Location) (e : Entry) : Disk :=
  { d with entries := (l, e) :: d.entries.filter fun x => x.1 != l }

/-- Removes the entry at a location. -/
def erase (d : Disk) (l : Location) : Disk :=
  { d with entries := d.entries.filter fun x => x.1 != l }

/-- Removes a location and everything below it. -/
def eraseTree (d : Disk) (l : Location) : Disk :=
  { d with entries := d.entries.filter fun x => !l.isPrefixOf x.1 }

/-- The name of an entry directly below a location. -/
def childName? (l m : Location) : Option String :=
  if m.dropLast == l then m.getLast? else none

/-- The entries directly below a location, by name, in no particular order. -/
def children (d : Disk) (l : Location) : List (String × Entry) :=
  d.entries.filterMap fun x => (childName? l x.1).map fun n => (n, x.2)

/-- The entries below a location at any depth, by their components from there. -/
def descendants (d : Disk) (l : Location) : List (Location × Entry) :=
  d.entries.filterMap fun x =>
    if l.isPrefixOf x.1 && x.1 != l then some (x.1.drop l.length, x.2) else none

/-! ## Paths -/

/-- Follows components from a location. The location that is reached may have no entry; all
before it are directories. -/
def follow (d : Disk) (l : Location) : List String → Except FileTrouble Location
  | [] => .ok l
  | p :: ps =>
    match d.entry? l with
    | none => .error .notFound
    | some (.file _) => .error .notDirectory
    | some .directory =>
      if p == ".." then d.follow l.dropLast ps
      else if maxName < p.utf8ByteSize then .error .nameTooLong
      else d.follow (l ++ [p]) ps

/-- Where a path begins. -/
def start (d : Disk) : Path.Root → Location
  | .relative => d.home
  | _ => []

/-- The location that a path leads to. -/
def resolve (d : Disk) (p : Path) : Except FileTrouble Location :=
  if maxPath ≤ p.text.utf8ByteSize then .error .nameTooLong
  else d.follow (d.start p.root) p.parts

/-- The entry that a path leads to, with its location. -/
def find (d : Disk) (p : Path) : Except FileTrouble (Location × Entry) := do
  let l ← d.resolve p
  match d.entry? l with
  | some e => .ok (l, e)
  | none => .error .notFound

/-- Reports a refusal at a path. -/
def reported {α : Type} (p : Path) : Except FileTrouble α → Except Fault α
  | .ok a => .ok a
  | .error t => .error (.file t p.text)

/-- The location that a path leads to, for an operation that the path is given to. -/
def locate (d : Disk) (p : Path) : Except Fault Location :=
  if p.hasNull then .error .badValue else reported p (d.resolve p)

/-! ## Questions -/

/-- What a path leads to, if anything. A name that is too long is a refusal, not an
absence. -/
def entryAt (d : Disk) (p : Path) : Except Fault (Option Entry) :=
  if p.hasNull then .ok none
  else
    match d.find p with
    | .ok (_, e) => .ok (some e)
    | .error .nameTooLong => .error (.file .nameTooLong p.text)
    | .error _ => .ok none

/-- A path leads to something. -/
def hasEntry (d : Disk) (p : Path) : Except Fault Bool := do
  .ok (← d.entryAt p).isSome

/-- A path leads to a directory. -/
def isDirectory (d : Disk) (p : Path) : Except Fault Bool := do
  match ← d.entryAt p with
  | some .directory => .ok true
  | _ => .ok false

/-! ## Reading -/

/-- The bytes of a file. -/
def readBytes (d : Disk) (p : Path) : Except Fault ByteArray := do
  let l ← d.locate p
  match d.entry? l with
  | some (.file b) => .ok b
  | some .directory => .error (.file .isDirectory p.text)
  | none => .error (.file .notFound p.text)

/-- The text of bytes, with plain line breaks. -/
def decode (b : ByteArray) : Except Fault String :=
  match String.fromUTF8? b with
  | some s => .ok (Text.withPlainBreaks s)
  | none => .error .undecodable

/-- The text of a file. -/
def readText (d : Disk) (p : Path) : Except Fault String := do
  decode (← d.readBytes p)

/-- The path of a text that demands a directory leads to one. -/
def readWritten (d : Disk) (written : String) : Except Fault String := do
  let p := Path.ofText written
  match d.locate p with
  | .error (.file t _) => .error (.file t written)
  | .error f => .error f
  | .ok l =>
    match d.entry? l with
    | none => .error (.file .notFound written)
    | some .directory => .error (.file .isDirectory written)
    | some (.file b) =>
      if demandsDirectory written.toList then .error (.file .notDirectory written)
      else decode b
where
  /-- A text ends in a slash or in a component that is a dot. -/
  demandsDirectory (cs : List Char) : Bool :=
    match cs.reverse with
    | '/' :: _ => true
    | '.' :: '/' :: _ => true
    | _ => false

/-- The entries of a directory by name. -/
def list (d : Disk) (p : Path) : Except Fault (List (String × Entry)) := do
  let l ← d.locate p
  match d.entry? l with
  | some .directory => .ok (d.children l)
  | some (.file _) => .error (.file .notDirectory p.text)
  | none => .error (.file .notFound p.text)

/-! ## Changes -/

/-- Makes the directory at a location, if it is not there. -/
def makeDirectory (d : Disk) (l : Location) : Except FileTrouble Disk :=
  match d.entry? l with
  | some .directory => .ok d
  | some (.file _) => .error .notDirectory
  | none => .ok (d.put l .directory)

/-- Makes the directories that the components from a location lead through. -/
def makeAlong (d : Disk) (l : Location) : List String → Except FileTrouble Location × Disk
  | [] => (.ok l, d)
  | p :: ps =>
    match d.follow l [p] with
    | .error t => (.error t, d)
    | .ok m =>
      match d.makeDirectory m with
      | .error t => (.error t, d)
      | .ok d => d.makeAlong m ps

/-- A tree with nothing in it but the working directory. -/
def empty (home : Location) : Disk :=
  (makeAlong ⟨home, []⟩ [] home).2

/-- Makes the directory that a path leads to, and those on the way. -/
def makeDirectories (d : Disk) (p : Path) : Except Fault Location × Disk :=
  if p.hasNull then (.error .badValue, d)
  else if maxPath ≤ p.text.utf8ByteSize then (.error (.file .nameTooLong p.text), d)
  else
    let (r, d) := d.makeAlong (d.start p.root) p.parts
    (reported p r, d)

/-- A directory has room for the file of a path and for its draft, whose path begins at the
top. -/
def hasRoom (l : Location) (p : Path) : Bool :=
  p.name.utf8ByteSize + draftMargin ≤ maxName && p.text.utf8ByteSize < maxPath &&
    (Path.text ⟨p.topRoot, l ++ [p.name]⟩).utf8ByteSize + draftMargin < maxPath

/-- Writes a file as a whole, in a directory that is made if it is not there. -/
def write (d : Disk) (p : Path) (bytes : ByteArray) : Except Fault Unit × Disk :=
  match d.makeDirectories p.parent with
  | (.error f, d) => (.error f, d)
  | (.ok l, d) =>
    if p.hasNull then (.error .badValue, d)
    else if !hasRoom l p then (.error (.file .nameTooLong p.text), d)
    else
      match d.entry? (l ++ [p.name]) with
      | some .directory => (.error (.file .isDirectory p.text), d)
      | _ => (.ok (), d.put (l ++ [p.name]) (.file bytes))

/-- Removes a file. -/
def remove (d : Disk) (p : Path) : Except Fault Unit × Disk :=
  match d.locate p with
  | .error f => (.error f, d)
  | .ok l =>
    match d.entry? l with
    | some (.file _) => (.ok (), d.erase l)
    | some .directory => (.error (.file .isDirectory p.text), d)
    | none => (.error (.file .notFound p.text), d)

/-- Removes a directory with everything in it; a file is left alone. -/
def removeTree (d : Disk) (p : Path) : Disk :=
  match d.find p with
  | .ok (l, .directory) => d.eraseTree l
  | _ => d

end Disk

end Schemata
