/-
Paths as they are written and joined, before anything is looked up.

A path has a root and components. Blank components and single dots say nothing and are
dropped; two dots are kept, because where they lead depends on what is there. A path that
begins with a slash is absolute, and one that begins with exactly two slashes has a root of
its own. Joining an absolute path to another leaves the absolute path: `Path.join` says when a
result stays below its base.
-/
import Schemata.Fault
import Schemata.Text.Split
import Schemata.Value.Shown

namespace Schemata

/-- Where a path begins. -/
inductive Path.Root where
  /-- At the working directory. -/
  | relative
  | slash
  | doubleSlash
deriving DecidableEq, Repr, Inhabited

/-- A path. -/
structure Path where
  root : Path.Root
  parts : List String
deriving DecidableEq, Repr, Inhabited

namespace Path

/-- The text of a root. -/
def Root.text : Root → String
  | .relative => ""
  | .slash => "/"
  | .doubleSlash => "//"

/-- The root of a text: exactly two slashes are not the same as one. -/
def rootOf : List Char → Root
  | '/' :: '/' :: '/' :: _ => .slash
  | '/' :: '/' :: _ => .doubleSlash
  | '/' :: _ => .slash
  | _ => .relative

/-- A component that says where to go. -/
def isPart (s : String) : Bool :=
  s != "" && s != "."

/-- The path that a text writes. -/
def ofText (s : String) : Path :=
  ⟨rootOf s.toList, (Text.splitText '/' s).filter isPart⟩

/-- The text of a path; an empty path is a single dot. -/
def text (p : Path) : String :=
  match p.root, p.parts with
  | .relative, [] => "."
  | r, ps => r.text ++ "/".intercalate ps

/-- A path below another one, unless it is absolute. -/
def join (base p : Path) : Path :=
  match p.root with
  | .relative => ⟨base.root, base.parts ++ p.parts⟩
  | _ => p

/-- A text as a path below another one. -/
def below (base : Path) (s : String) : Path :=
  base.join (ofText s)

/-- The last component. -/
def name (p : Path) : String :=
  p.parts.getLast?.getD ""

/-- The path without its last component. -/
def parent (p : Path) : Path :=
  ⟨p.root, p.parts.dropLast⟩

/-- The root of the path from the top to the same place. -/
def topRoot (p : Path) : Root :=
  if p.root = .doubleSlash then .doubleSlash else .slash

/-- A path holds a character that no name can have. -/
def hasNull (p : Path) : Bool :=
  p.parts.any fun s => s.toList.contains '\x00'

/-- The text that a setting writes where a path is expected. -/
def settingText : Value → Except Fault String
  | .text s => .ok s
  | v => if v.word?.isSome then v.plain else .error .wrongKind

/-- A setting as a path. -/
def ofSetting (v : Value) : Except Fault Path :=
  (settingText v).map ofText

/-- A setting as a path below another one. -/
def belowSetting (base : Path) (v : Value) : Except Fault Path :=
  (settingText v).map base.below

end Path

end Schemata
