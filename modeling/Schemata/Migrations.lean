/-
The migrations of a repository, and the digest that tells whether they changed.

The migrations are the files of one directory whose names end as a setting says, in the order
of their names; the order in which the directory is listed does not matter, and directories in
it do not count. Each file is hashed by itself. The digest is the hash of a list of names and
hashes, written so that the list can be read back from the text: two sets of migrations with
one digest are the same set, as far as the hash tells two texts apart. `digestWith` and
`calculateWith` therefore take the hash.
-/
import Schemata.Digest.Sha256
import Schemata.Files.Disk
import Schemata.Json.Printer

namespace Schemata.Migrations

/-- The digest of migrations that are not there. -/
def emptyDigest : String := "empty"

/-! ## Files -/

/-- A name ends as one of several texts. -/
def endsLikeAny (name : String) : List Value → Except Fault Bool
  | [] => .ok false
  | x :: xs =>
    match x.word? with
    | none => .error .wrongKind
    | some e => if e.toList.isSuffixOf name.toList then .ok true else endsLikeAny name xs

/-- A name ends as the setting of an extension says. -/
def hasExtension (extension : Value) (name : String) : Except Fault Bool :=
  match extension with
  | .tuple xs => endsLikeAny name xs
  | v => endsLikeAny name [v]

/-- The files among entries whose names have the extension. -/
def chosen (extension : Value) :
    List (String × Entry) → Except Fault (List (String × ByteArray))
  | [] => .ok []
  | (_, .directory) :: es => chosen extension es
  | (name, .file bytes) :: es => do
    let takes ← hasExtension extension name
    let rest ← chosen extension es
    .ok (if takes then (name, bytes) :: rest else rest)

/-- Files in the order of their names. -/
def inOrder (files : List (String × ByteArray)) : List (String × ByteArray) :=
  files.mergeSort fun a b => decide (a.1 ≤ b.1)

/-- The migrations in a directory, in order. -/
def files (d : Disk) (directory : Path) (extension : Value) :
    Except Fault (List (String × ByteArray)) := do
  let entries ← d.list directory
  .ok (inOrder (← chosen extension entries))

/-! ## Digests -/

/-- A file as its name and its hash. -/
def fingerprint (hash : List UInt8 → List UInt8) (file : String × ByteArray) : Json :=
  .array [.text file.1, .text (Sha256.hexOf (hash file.2.data.toList))]

/-- The text of names and hashes. -/
def manifest (hash : List UInt8 → List UInt8) (files : List (String × ByteArray)) : String :=
  Json.print Json.compact Json.unicode (.array (files.map (fingerprint hash)))

/-- The digest of files under a hash. -/
def digestWith (hash : List UInt8 → List UInt8) (files : List (String × ByteArray)) :
    String :=
  Sha256.hexOf (hash (manifest hash files).toUTF8.data.toList)

/-- The digest of the migrations in a directory under a hash, or why they cannot be read. -/
def calculateWith (hash : List UInt8 → List UInt8) (d : Disk) (directory : Path)
    (extension : Value) : Except Fault String :=
  match files d directory extension with
  | .ok fs => .ok (digestWith hash fs)
  | .error (.file t p) => .error (.digest directory.text (t.report p))
  | .error f => .error f

/-- The digest of the migrations in a directory. -/
def calculate (d : Disk) (directory : Path) (extension : Value) : Except Fault String :=
  calculateWith Sha256.hash d directory extension

/-- The digest of the migrations in a directory that may be missing. -/
def digest (d : Disk) (directory : Path) (extension : Value) : Except Fault String := do
  if ← d.isDirectory directory then
    match calculate d directory extension with
    | .error (.digest _ _) => .ok emptyDigest
    | r => r
  else .ok emptyDigest

end Schemata.Migrations
