/-
What has to be done to a tree of files to make another one of it.

Removals come first, what is deepest before what is above it; then directories and files are
made, what is highest first. A file is made where the two trees do not have the same bytes.
-/
import Schemata.Files.Disk

namespace Schemata

/-- One thing to be done at a location. -/
inductive Change where
  | removeFile (l : Location)
  | removeDirectory (l : Location)
  | makeDirectory (l : Location)
  | writeFile (l : Location) (bytes : ByteArray)

/-- Two entries are of one kind and hold the same bytes. -/
def Entry.same : Entry → Entry → Bool
  | .directory, .directory => true
  | .file a, .file b => a == b
  | _, _ => false

namespace Disk

/-- The entries by the depth of their locations, the highest first. -/
def byDepth (d : Disk) : List (Location × Entry) :=
  d.entries.mergeSort fun a b => a.1.length ≤ b.1.length

/-- An entry is in a tree as it is. -/
def hasSame (d : Disk) (x : Location × Entry) : Bool :=
  (d.entry? x.1).any x.2.same

/-- The removal of an entry. -/
def removal : Location × Entry → Change
  | (l, .directory) => .removeDirectory l
  | (l, .file _) => .removeFile l

/-- The making of an entry. -/
def making : Location × Entry → Change
  | (l, .directory) => .makeDirectory l
  | (l, .file b) => .writeFile l b

/-- An entry stands in the way of a tree: there is nothing at its location, or another kind of
entry. -/
def isInTheWay (after : Disk) : Location × Entry → Bool
  | (l, .directory) => !((after.entry? l) matches some .directory)
  | (l, .file _) => !((after.entry? l) matches some (.file _))

/-- What has to be done to make one tree of another. -/
def changes (before after : Disk) : List Change :=
  (before.byDepth.reverse.filter after.isInTheWay).map removal ++
    (after.byDepth.filter fun x => !before.hasSame x).map making

end Disk

end Schemata
