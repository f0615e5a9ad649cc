/-
Repositories: what a schema is inferred for.

A repository is given by an identifier, or by an object that has a kind and may have a name.
On disk it goes by a short name, the last dotted part of its identifier in small letters, so
that different identifiers can have the same short name.
-/
import Schemata.Fault
import Schemata.Text.Case
import Schemata.Text.Split
import Schemata.Value.Basic

namespace Schemata

/-- A repository. -/
inductive Repository where
  | identifier (text : String)
  /-- An object of a kind, with its name where it has one, and null where it has none. -/
  | object (kind : String) (name : Value)

namespace Repository

/-- The last dotted part of an identifier, in small letters. -/
def lastPart (s : String) : String :=
  Text.lowercase ((Text.splitText '.' s).getLast?.getD "")

/-- The name by which a repository goes on disk. -/
def shortName : Repository → Except Fault String
  | .identifier s => .ok (lastPart s)
  | .object kind name =>
    if name.isTruthy then
      match name.word? with
      | some s => .ok (lastPart s)
      | none => .error .noAttribute
    else .ok (lastPart kind)

/-- The identifier of a repository, blank for an object. -/
def text : Repository → String
  | .identifier s => s
  | .object _ _ => ""

end Repository

end Schemata
