/-
Why an operation failed.

A fault is a cause. Those that a user can meet carry what their text needs, and
`Fault.message` writes the text; the others are refusals of malformed data, for which the kind
says enough.
-/
import Schemata.Yaml.Complaint

namespace Schemata

/-- Why the file system refused. -/
inductive FileTrouble where
  | notFound
  | notDirectory
  | isDirectory
  | nameTooLong
deriving DecidableEq, Repr

namespace FileTrouble

/-- The number under which the system reports a refusal. -/
def code : FileTrouble → Nat
  | .notFound => 2
  | .notDirectory => 20
  | .isDirectory => 21
  | .nameTooLong => 36

/-- The system's words for a refusal. -/
def words : FileTrouble → String
  | .notFound => "No such file or directory"
  | .notDirectory => "Not a directory"
  | .isDirectory => "Is a directory"
  | .nameTooLong => "File name too long"

/-- The report of a refusal at a path. -/
def report (t : FileTrouble) (path : String) : String :=
  "[Errno " ++ toString t.code ++ "] " ++ t.words ++ ": " ++ Text.quoted path

end FileTrouble

/-- Why an operation failed. -/
inductive Fault where
  /-- A table cannot be described. -/
  | introspection (table reason : String)
  /-- A snapshot is a malformed description file. -/
  | snapshotSyntax (path : String) (complaint : Yaml.Complaint)
  /-- No rules are known for a dialect. -/
  | unsupportedDialect (shown : String) (available : List String)
  /-- Two schemas of different tables were merged. -/
  | sourceMismatch (left right : String)
  /-- Two fields of different names were merged. -/
  | fieldMismatch (left right : String)
  /-- A hand-written definition is malformed. -/
  | definition (source reason : String)
  /-- A stored schema could not be read, decoded or written. -/
  | cacheFile (path reason : String)
  /-- The migrations could not be read. -/
  | digest (path reason : String)
  /-- A tree is not the tree of a table. -/
  | notTable (shown : String)
  /-- Tables are to be refreshed and nothing can describe them. -/
  | noIntrospector
  /-- A dialect has its rules already. -/
  | alreadyRegistered (what dialect : String)
  /-- A word names no dialect. -/
  | notDialect (shown : String)
  /-- A model refuses its attributes. -/
  | invalid
  /-- A value of the wrong kind. -/
  | wrongKind
  /-- A value lacks an attribute. -/
  | noAttribute
  /-- A mapping lacks a key. -/
  | missingKey
  /-- A value of the right kind that cannot be used. -/
  | badValue
  /-- A number that is too large for its use. -/
  | outOfRange
  /-- A sequence is too short. -/
  | badIndex
  /-- Data that hold themselves were followed and never ended. -/
  | endless
  /-- Data stand too deep inside one another to be followed to the end. -/
  | tooDeep
  /-- A file holds bytes that are no text. -/
  | undecodable
  /-- A description file is malformed. -/
  | syntaxError (complaint : Yaml.Complaint)
  /-- The file system refused. -/
  | file (trouble : FileTrouble) (path : String)
deriving DecidableEq, Repr

namespace Fault

/-- The text of a fault, where it has one. -/
def message : Fault → Option String
  | .introspection table reason => some (failed table reason)
  | .snapshotSyntax path complaint => some (failed path (complaint.report path))
  | .unsupportedDialect shown available =>
    some ("Unsupported database dialect: " ++ shown ++
      (if available.isEmpty then "" else ". Available: " ++ ", ".intercalate available))
  | .sourceMismatch left right =>
    some ("Cannot merge schemas with different sources: " ++ left ++ " != " ++ right)
  | .fieldMismatch left right =>
    some ("Cannot merge fields with different names: " ++ left ++ " and " ++ right)
  | .definition source reason =>
    some ("Invalid schema definition for " ++ source ++ ": " ++ reason)
  | .cacheFile path reason => some ("Cache I/O failed for " ++ path ++ ": " ++ reason)
  | .digest path reason =>
    some ("Cannot compute migration digest for " ++ path ++ ": " ++ reason)
  | .notTable shown => some ("Expected a table node, got " ++ shown)
  | .noIntrospector => some "refresh with table names requires an introspector"
  | .alreadyRegistered what dialect =>
    some (what ++ " already registered for dialect: " ++ dialect)
  | .notDialect shown => some (shown ++ " is not a valid Dialect")
  | _ => none
where
  /-- The report of a table that cannot be described. -/
  failed (table reason : String) : String :=
    "Failed to introspect table " ++ table ++ ": " ++ reason

end Fault

end Schemata
