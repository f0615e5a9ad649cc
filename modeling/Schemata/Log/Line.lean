/-
Log lines.

A line says when, how much it matters, who logs, what happened, and what was being worked on.
It has two forms. The structured form is a JSON object on one line, for programs: parts that
are empty are left out, and values that JSON does not know are written as plain text. The
human form is a sentence with the time in front, which names the repository, the table and the
dialect only.

A component may complete the details of a line by its own name and by what is being worked on;
those win over details of the same name.
-/
import Schemata.Calendar
import Schemata.Json.Printer
import Schemata.Log.Context
import Schemata.Text.Split
import Schemata.Value.Document

namespace Schemata.Log

/-- A failure that is reported with a line. -/
structure Failure where
  kind : String
  message : String

/-- A line before it is written. -/
structure Line where
  logger : String
  level : String
  /-- The file that the line comes from. -/
  path : String
  number : Int
  function : Option String
  message : String
  /-- Further data; what does not count as present is not written. -/
  details : Value
  failure : Option Failure

/-- The text of a failure: its kind, and its message if it has one. -/
def Failure.text (f : Failure) : String :=
  "core.errors." ++ f.kind ++ (if f.message.isEmpty then "" else ": " ++ f.message)

/-- The name of the file, without its directory. -/
def Line.file (l : Line) : String :=
  (Text.splitText '/' l.path).getLast?.getD ""

/-! ## Details -/

/-- What logs. -/
inductive Component where
  | sql
  | relation
  | cache
  | cli
deriving DecidableEq, Repr

namespace Component

/-- Every component. -/
def all : List Component := [.sql, .relation, .cache, .cli]

/-- The word for a component. -/
def word : Component → String
  | .sql => "sql"
  | .relation => "relation"
  | .cache => "cache"
  | .cli => "cli"

/-- The component of a word. -/
def ofWord? (s : String) : Option Component :=
  all.find? fun c => c.word == s

end Component

/-- The details of a line, completed by the component that logs and by the context. -/
def completed (component : Option Component) (c : Context) (details : Value) :
    Except Fault Value := do
  let es ← details.entries
  let own := component.toList.map fun k => (.text "component", .text k.word)
  .ok (.dict (overlaid (overlaid es own) c.toEntries))

/-! ## The structured form -/

mutual

/-- A value as a document for programs that read lines. -/
def datum : Value → Json
  | .null => .null
  | .bool b => .bool b
  | .int n => .int n
  | .float x => .float x
  | .nan _ => .float (0.0 / 0.0)
  | .list xs => .array (dataOf xs)
  | .tuple xs => .array (dataOf xs)
  | .dict es => .object (memberData es)
  | v => .text v.labelText

/-- Items as documents. -/
def dataOf : List Value → List Json
  | [] => []
  | x :: xs => datum x :: dataOf xs

/-- Entries as members. -/
def memberData : List (Value × Value) → List (String × Json)
  | [] => []
  | (k, v) :: es => (k.jsonKey, datum v) :: memberData es

end

namespace Line

/-- Where a line comes from. -/
def source (l : Line) : Json :=
  .object [("file", .text l.file), ("line", .int l.number),
    ("function", (l.function.map Json.text).getD .null)]

/-- A line as a document, with the time and with a context where they are wanted. -/
def document (l : Line) (now : Option Moment) (c : Option Context) : Json :=
  let present (name : String) (v : Value) : List (String × Json) :=
    if v.isTruthy then [(name, datum v)] else []
  .object (
    (now.toList.map fun m => ("timestamp", .text m.stored)) ++
    [("level", .text l.level), ("logger", .text l.logger), ("message", .text l.message)] ++
    (c.toList.flatMap fun c => present "context" (.dict c.toEntries)) ++
    present "data" l.details ++
    (l.failure.toList.map fun f => ("exception", .text f.text)) ++
    [("source", l.source)])

/-- The structured form of a line. -/
def structured (l : Line) (now : Option Moment) (c : Option Context) : Except Fault String :=
  let written := l.details :: c.toList.map fun c => .dict c.toEntries
  if written.any (·.hasLongInt) then .error .badValue
  else .ok (Json.print Json.inline Json.ascii (l.document now c))

/-! ## The human form -/

/-- The time in front of a line, to the second. -/
def clock (m : Moment) : String :=
  toString m.date.year ++ "-" ++ Calendar.padded 2 m.date.month ++ "-" ++
    Calendar.padded 2 m.date.day ++ " " ++ Calendar.padded 2 m.hour ++ ":" ++
    Calendar.padded 2 m.minute ++ ":" ++ Calendar.padded 2 m.second

/-- A text with at least `width` characters. -/
def paddedRight (width : Nat) (s : String) : String :=
  s ++ String.ofList (List.replicate (width - s.length) ' ')

/-- The keys that a human line names. -/
def namedKeys : List Key := [.repo, .table, .dialect]

/-- What is being worked on, between brackets. -/
def subject (c : Context) : Except Fault String := do
  let known := namedKeys.filter fun k => (c.value k).isTruthy
  let parts ← known.mapM fun k => do .ok (k.word ++ "=" ++ (← (c.value k).plain))
  .ok (if parts.isEmpty then "" else " [" ++ ", ".intercalate parts ++ "]")

/-- The human form of a line. -/
def human (l : Line) (now : Moment) (c : Context) : Except Fault String := do
  let subject ← subject c
  let details ← l.details.plain
  .ok (clock now ++ " " ++ paddedRight 8 l.level ++ " " ++ l.logger ++ subject ++ ": " ++
    l.message ++ (if l.details.isTruthy then " " ++ details else "") ++
    (match l.failure with
     | some f => "\n" ++ f.text
     | none => ""))

end Line

end Schemata.Log
