/-
Generated models as source text.

A model says which table it is for, its key, the type of its foreign keys, what they point at,
and its indices; then it has one line for each field, and a block for the timestamps.
`Model.ofSchema` decides what stands there, `Model.render` writes it down.

Names and texts come from the database and may hold anything. Where the text needs a literal,
one of two writers makes it: the markup-safe document writer for the attributes of the table,
and `Text.quoted` for the rest. A default that holds a whole number of too many digits cannot
be written, and then there is no model.
-/
import Schemata.Fault
import Schemata.Json.Printer
import Schemata.Model.TypeHint
import Schemata.Model.Declaration

namespace Schemata

namespace Model

/-- The line of a field: its name, its annotation and what it is set to. -/
structure Line where
  name : String
  hint : String
  value : String

/-- The text of a line. -/
def Line.text (l : Line) : String :=
  l.name ++ ": " ++ l.hint ++ " = " ++ l.value

/-- An index as a model states it. -/
structure IndexLine where
  name : String
  fields : List String
  unique : Bool

/-- The text of an index. -/
def IndexLine.text (i : IndexLine) : String :=
  "(" ++
    ", ".intercalate
      ([Text.quoted i.name, shownTexts i.fields] ++
        (if i.unique then ["True"] else [])) ++ ")"

end Model

/-- What a generated model states. -/
structure Model where
  source : String
  key : Option (List String)
  foreignKeyType : Option String
  foreignKeys : List (String × String)
  indices : List Model.IndexLine
  lines : List Model.Line
  timestamps : Bool

namespace Model

/-! ## Lines -/

/-- A mapping from texts, as it is shown. -/
def shownOptions (options : List (String × Value)) : String :=
  (Value.dict (options.map fun o => (.text o.1, o.2))).shownText

/-- A default that the database generates: as a constant, or as the word for one that a stored
schema holds. -/
def serverDefault? (v : Value) : Option String :=
  match v.word? with
  | some s => (SqlDefault.ofWord? s).map (·.word)
  | none => none

/-- The annotation of a declaration. -/
def hintOf (d : Declaration) : String :=
  match d.kind with
  | .field => typeHint d.type
  | .embedsMany => "List[Dict[str, Any]]"
  | .embedsOne => "Dict[str, Any]"

/-- What a declaration of an embedded schema says of it. -/
def embedOptions (d : Declaration) : List (String × Value) :=
  match d.kind with
  | .field => []
  | .embedsMany => [("embed", .text "many"), ("related", d.type.toValue)]
  | .embedsOne => [("embed", .text "one"), ("related", d.type.toValue)]

/-- The value of an option, or null. -/
def option (d : Declaration) (key : String) : Value :=
  (d.options.lookup key).getD .null

/-- The options that are stated as they are. -/
def otherOptions (d : Declaration) : List (String × Value) :=
  d.options.filter fun o => !(["default", "source", "values"].contains o.1)

/-- All that a declaration states beside its default and its column. -/
def extraOptions (d : Declaration) : List (String × Value) :=
  embedOptions d ++
    (match serverDefault? (option d "default") with
     | some w => [("server_default", .text w)]
     | none => []) ++
    otherOptions d

/-- A field that must be given a value. -/
def isRequired (d : Declaration) : Bool :=
  !d.nullable && d.kind == .field &&
    (match option d "default" with
     | .null => true
     | _ => false)

/-- How a line begins: its annotation, and the argument that states its default. -/
def defaultArgument (d : Declaration) : String × String :=
  let plain := hintOf d
  let orNone := "Optional[" ++ plain ++ "]"
  if isRequired d then (plain, "...")
  else
    match serverDefault? (option d "default") with
    | some _ => (orNone, "default=None")
    | none =>
      match option d "default" with
      | .dict es => (plain, "default_factory=lambda: " ++ (Value.dict es).shownText)
      | .list xs => (plain, "default_factory=lambda: " ++ (Value.list xs).shownText)
      | v => (orNone, "default=" ++ v.shownText)

/-- The line of a declaration. -/
def lineOf (d : Declaration) : Line :=
  let (hint, default) := defaultArgument d
  let column := option d "source"
  let extra := extraOptions d
  let others :=
    (if column.isTruthy then ["alias=" ++ column.shownText] else []) ++
      (if extra.isEmpty then [] else ["json_schema_extra=" ++ shownOptions extra])
  if default == "default=None" && others.isEmpty then ⟨d.name, hint, "None"⟩
  else ⟨d.name, hint, "Field(" ++ ", ".intercalate (default :: others) ++ ")"⟩

/-- A declaration states something that cannot be written; the words of an enumeration are not
stated. -/
def isRefused (d : Declaration) : Bool :=
  d.options.any fun o => o.1 != "values" && o.2.hasLongInt

/-- The line of a single primary key, which is not among the declarations. A key over no field
has no line and cannot be stated. -/
def keyLines (s : Schema) (d : Declarations) : Except Fault (List Line) :=
  match s.primaryKey with
  | none => .ok []
  | some k =>
    if k.isComposite then .ok []
    else
      match d.key, k.fields with
      | some (.single name type), _ =>
        let extra := [("primary_key", .bool true), ("autogenerate", .bool true)]
        .ok [⟨name, "Optional[" ++ typeHint type ++ "]",
          "Field(default=None, json_schema_extra=" ++ shownOptions extra ++ ")"⟩]
      | _, f :: _ => .ok [⟨f.name, "Optional[int]", "None"⟩]
      | _, [] => .error .badIndex

/-! ## Models -/

/-- What a foreign key points at. -/
def targetOf (k : Schema.ForeignKey) : String :=
  match Declaration.present k.target with
  | some field => k.table ++ "(" ++ field ++ ")"
  | none => k.table

/-- The model of a schema, with the given declarations. -/
def ofSchema (s : Schema) (d : Declarations) : Except Fault Model := do
  let key ← keyLines s d
  if d.fields.any isRefused then .error .badValue
  else
    .ok {
      source := s.source
      key := s.primaryKey.map (·.fieldNames)
      foreignKeyType := if d.hasBinaryForeignKey then some "binary_id" else none
      foreignKeys := s.foreignKeys.map fun k => (k.field, targetOf k)
      indices := s.indices.map fun i => ⟨i.name, i.fieldNames, i.unique⟩
      lines := key ++ d.fields.map lineOf
      timestamps := d.timestamps }

/-- A text as a literal that is safe in markup. -/
def literal (s : String) : String :=
  Json.print Json.inline Json.markupSafe (.text s)

/-- A list of texts as a literal that is safe in markup. -/
def literalList (ss : List String) : String :=
  Json.print Json.inline Json.markupSafe (.array (ss.map .text))

/-- The lines in front of the class. -/
def opening (m : Model) : List String := [
  "\"\"\"",
  className m.source ++ " model generated from table \"" ++ m.source ++ "\".",
  "\"\"\"",
  "",
  "from datetime import date, datetime, time",
  "from decimal import Decimal",
  "from typing import Any, ClassVar, Dict, List, Literal, Optional",
  "from uuid import UUID",
  "",
  "from pydantic import BaseModel, Field",
  "",
  "",
  "class " ++ className m.source ++ "(BaseModel):"]

/-- The attributes that describe the table. -/
def tableLines (m : Model) : List String :=
  ["    __sql_table__: ClassVar[str] = " ++ literal m.source] ++
    (match m.key with
     | some names => ["    __sql_primary_key__: ClassVar[List[str]] = " ++ literalList names]
     | none => []) ++
    (match m.foreignKeyType with
     | some t => ["    __sql_foreign_key_type__: ClassVar[str] = " ++ literal t]
     | none => []) ++
    (if m.foreignKeys.isEmpty then []
     else
      ["    __sql_foreign_keys__: ClassVar[Dict[str, str]] = \x7b"] ++
        m.foreignKeys.map (fun k => "        " ++ literal k.1 ++ ": " ++
          literal k.2 ++ ",") ++
        ["    \x7d"]) ++
    (if m.indices.isEmpty then []
     else
      ["    __sql_indexes__: ClassVar[List[tuple]] = ["] ++
        m.indices.map (fun i => "        " ++ i.text ++ ",") ++
        ["    ]"])

/-- The lines of the timestamps. -/
def timestampLines : List String := [
  "",
  "    # Timestamps",
  "    inserted_at: Optional[datetime] = None",
  "    updated_at: Optional[datetime] = None"]

/-- The text of a model. -/
def render (m : Model) : String :=
  let lines :=
    m.opening ++ m.tableLines ++
      ["", "    model_config = \x7b\"populate_by_name\": True\x7d", ""] ++
      m.lines.map (fun l => "    " ++ l.text) ++ (if m.timestamps then timestampLines else [])
  String.join (lines.map (· ++ "\n"))

end Model

/-- The text of the model of a schema. -/
def Schema.renderModel (s : Schema) (d : Declarations := .ofSchema s) :
    Except Fault String := do
  let m ← Model.ofSchema s d
  .ok m.render

end Schemata
