/-
Hand-written schemas.

A definition is a mapping with a source, fields, a primary key by name, foreign keys and
indices. It states what the author wants to override and no more: a fact that is not written
stays unknown, so that merging keeps what the database says. Types are names, or mappings with
the one key `array` or `enum`.

A definition is checked while it is read, from the source to the indices, and the first fault
is reported. Names are looked up as values, because what a file holds need not be a text.
-/
import Schemata.Schema.Merge
import Schemata.Schema.Record
import Schemata.Value.Shown

namespace Schemata.Definition

/-- The entries of a mapping; what is no mapping cannot be asked for attributes. -/
def mapping : Value → Except Fault (List (Value × Value))
  | .dict es => .ok es
  | _ => .error .noAttribute

/-- The items of an attribute that may be missing, null or empty. -/
def itemsOf (v : Value) : Except Fault (List Value) :=
  if v.isTruthy then v.items else .ok []

/-- Refuses the definition of a source. -/
def refused {α : Type} (source : Value) (reason : String) : Except Fault α :=
  .error (.about source.plain (.definition · reason))

/-! ## Types -/

/-- Reads a type as it is written; faults are reported for `source`. -/
def parseType (source : Value) : Value → Except Fault FieldType
  | .dict [(kind, v)] =>
    if kind.same (.text "array") then do
      let t ← parseType source v
      .ok (.array t)
    else
      match kind.same (.text "enum"), v with
      | true, .list xs => do .ok (.enum (← xs.mapM (·.plain)))
      | _, _ => unsupported (.dict [(kind, v)])
  | .loop _ => .error .endless
  | v =>
    match v.word? with
    | some n => .ok (.named n)
    | none => unsupported v
where
  /-- The fault of a value that is no type. -/
  unsupported (v : Value) : Except Fault FieldType := do
    refused source ("unsupported type spec " ++ (← v.shown))

/-! ## Fields -/

/-- How many embedded schemas a field may hold. -/
def cardinalities : List String := ["one", "many"]

/-- The facts that a field states under their own names. -/
def stated (es : List (Value × Value)) : List (Value × Value) :=
  ["nullable", "default", "check_constraints", "function_default"].filterMap fun key =>
    (Value.get? es key).map fun v => (.text key, v)

/-- The facts of an embedded schema. -/
def embedFacts (es : List (Value × Value)) (cardinality : Value) : List (Value × Value) := [
  (.text "embed", .bool true),
  (.text "association", .bool true),
  (.text "embed_cardinality", cardinality),
  (.text "embed_related", Value.getD es "related"),
  (.text "embed_on_replace", Value.getD es "on_replace")]

/-- The facts that follow from the form of a field, and the type that it has if none is
written. -/
def form (source name : Value) (es : List (Value × Value)) :
    Except Fault (List (Value × Value) × FieldType) :=
  match Value.getD es "embed" with
  | .null =>
    if (Value.getD es "association").isTruthy then
      .ok ([(.text "association", .bool true)], .named "any")
    else .ok ([], .named "string")
  | embed =>
    if embed.same (.text "one") then .ok (embedFacts es embed, .named "map")
    else if embed.same (.text "many") then .ok (embedFacts es embed, .array (.named "map"))
    else do
      refused source ("field " ++ (← name.plain) ++ ": embed must be one of " ++
        (Value.tuple (cardinalities.map .text)).plainText)

/-- Reads a field; `keys` are the names of the primary key. -/
def field (source : Value) (keys : List Value) (v : Value) : Except Fault Field := do
  let es ← mapping v
  let name := Value.getD es "name"
  if !name.isTruthy then
    refused source ("field without a name: " ++ (← v.shown))
  else
    let (formed, implied) ← form source name es
    let inKey : List (Value × Value) :=
      if keys.any fun k => k.same name then [(.text "primary_key", .bool true)] else []
    let type ← match Value.getD es "type" with
      | .null => .ok implied
      | spec => parseType source spec
    Value.require do
      let facts ← FieldMeta.ofEntries? (stated es ++ formed ++ inKey)
      let name ← name.text?
      let column ← Value.optional Value.text? (Value.getD es "source")
      some { name, type, source := column, facts }

/-- Reads fields in order. -/
def fieldsOf (source : Value) (keys : List Value) : List Value → Except Fault (List Field)
  | [] => .ok []
  | v :: vs => do
    let f ← field source keys v
    let fs ← fieldsOf source keys vs
    .ok (f :: fs)

/-- No two fields have one name. -/
def distinctNames (fields : List Field) : Bool :=
  match fields with
  | [] => true
  | f :: fs => !(fs.any fun g => g.name == f.name) && distinctNames fs

/-! ## Keys and indices -/

/-- The field that a value names. A value that cannot be a key names nothing, and asking for
it is a fault. -/
def fieldNamed (fields : List Field) (v : Value) : Except Fault (Option Field) :=
  if v.isKey then .ok (v.word?.bind fun n => fields.find? (·.name == n))
  else .error .wrongKind

/-- The named fields, and the names that no field has. -/
def fieldsNamed (fields : List Field) : List Value → Except Fault (List Field × List Value)
  | [] => .ok ([], [])
  | v :: vs => do
    let found ← fieldNamed fields v
    let (fs, missing) ← fieldsNamed fields vs
    match found with
    | some f => .ok (f :: fs, missing)
    | none => .ok (fs, v :: missing)

/-- The names of the primary key: one text, or a sequence. -/
def keyNames (v : Value) : Except Fault (List Value) :=
  match v.word? with
  | some _ => .ok [v]
  | none => itemsOf v

/-- Reads the primary key. -/
def primaryKey (source : Value) (fields : List Field) (names : List Value) :
    Except Fault (Option Schema.PrimaryKey) :=
  if names.isEmpty then .ok none
  else do
    let (found, missing) ← fieldsNamed fields names
    if missing.isEmpty then .ok (some ⟨found⟩)
    else
      refused source ("primary key names unknown fields: " ++ (← (Value.list missing).shown))

/-- Reads a foreign key, which is given by its attributes. -/
def foreignKey (v : Value) : Except Fault Schema.ForeignKey :=
  match v with
  | .dict es =>
    if es.any fun e => e.1.word?.isNone then .error .wrongKind
    else Value.require (Schema.ForeignKey.ofEntries? es)
  | _ => .error .wrongKind

/-- Reads an index. -/
def index (source : Value) (fields : List Field) (v : Value) : Except Fault Schema.Index := do
  let es ← mapping v
  let names ← itemsOf (Value.getD es "fields")
  let (found, missing) ← fieldsNamed fields names
  if !missing.isEmpty then
    refused source ("index " ++ (← (Value.getD es "name").plain) ++
      " names unknown fields: " ++
      (← (Value.list missing).shown))
  else
    match Value.get? es "name" with
    | none => .error .missingKey
    | some name =>
      Value.require do
        let name ← name.text?
        let method ← Value.optional Value.text? (Value.getD es "type")
        some {
          name, fields := found, unique := (Value.getD es "unique").isTruthy, method }

/-! ## Definitions -/

/-- The source of a definition: the given one, or the one that the definition names. -/
def sourceOf (given : Option String) (definition : Value) : Except Fault Value :=
  match given with
  | some s => if s.isEmpty then named else .ok (.text s)
  | none => named
where
  /-- The source that the definition names. -/
  named : Except Fault Value := do
    let es ← mapping definition
    let source := Value.getD es "source"
    if source.isTruthy then .ok source
    else .error (.definition "<unknown>" "definition has no source table")

/-- Reads a definition. -/
def read (given : Option String) (definition : Value) : Except Fault Schema := do
  let source ← sourceOf given definition
  let es ← mapping definition
  let keys ← keyNames (Value.getD es "primary_key")
  let fields ← fieldsOf source keys (← itemsOf (Value.getD es "fields"))
  if !distinctNames fields then
    refused source "duplicate field names"
  else
    let primaryKey ← primaryKey source fields keys
    let foreignKeys ← (← itemsOf (Value.getD es "foreign_keys")).mapM foreignKey
    let indices ← (← itemsOf (Value.getD es "indices")).mapM (index source fields)
    match source.text? with
    | some source => .ok { source, fields, primaryKey, foreignKeys, indices }
    | none => .error .invalid

/-- Reads the definitions of a file: one, or a list. Of two with one source the later one is
kept, at the place of the first one. -/
def readAll (data : Value) : Except Fault (List Schema) := do
  let definitions := match data with
    | .list xs => xs
    | v => if v.isTruthy then [v] else []
  let schemas ← definitions.mapM (read none)
  .ok (lastByKey (·.source) schemas)

end Schemata.Definition
