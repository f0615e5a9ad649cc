/-
The text in which a schema is stored, and what such a text says later.

A schema is stored with the digest of the migrations for which it holds. What is found in its
place later can be anything. `Reading.within` sorts it: a text that is no object says nothing,
an object with another digest or without a valid schema is stale, and anything else is the
schema. A text whose arrays and objects stand too deep inside one another is not read to its
end; what would be such a text is not stored either.
-/
import Schemata.Schema.Record
import Schemata.Text.Literal

namespace Schemata

namespace Json

mutual

/-- Every whole number in a document is short enough to be written. -/
def isWritable : Json → Bool
  | .int n => (toString n.natAbs).length ≤ Text.maxDigits
  | .array js => areWritable js
  | .object ms => membersAreWritable ms
  | _ => true

/-- Every item can be written. -/
def areWritable : List Json → Bool
  | [] => true
  | j :: js => isWritable j && areWritable js

/-- Every member can be written. -/
def membersAreWritable : List (String × Json) → Bool
  | [] => true
  | (_, j) :: ms => isWritable j && membersAreWritable ms

end

end Json

/-- A schema with the digest of the migrations for which it holds. -/
structure StoredSchema where
  schema : Schema
  digest : String

namespace StoredSchema

/-- A stored schema as a document. -/
def toJson (s : StoredSchema) : Json :=
  .object [("schema", s.schema.toJson), ("digest", .text s.digest)]

/-- A stored schema as text. What has no document cannot be written, and neither can numbers
that are too long. -/
def text (s : StoredSchema) : Except Fault String :=
  match s.schema.toValue.refusal? with
  | some f => .error f
  | none =>
    if s.toJson.isWritable then .ok (Json.print Json.indented Json.ascii s.toJson)
    else .error .badValue

/-- The text of the file of a stored schema. What the reader has no room for cannot be
written. -/
def entryText (s : StoredSchema) : Except Fault String := do
  let text ← s.text
  if s.toJson.nesting ≤ Json.readingRoom then .ok text else .error .tooDeep

end StoredSchema

/-- What a text in the place of a stored schema says. -/
inductive Reading where
  /-- It says nothing. -/
  | unreadable
  /-- It cannot be read to its end. -/
  | tooDeep
  /-- It is no schema that holds now. -/
  | stale
  | fresh (schema : Schema)

namespace Reading

/-- The digest among the members of a document is the given one. -/
def hasDigest (digest : String) (members : List (String × Json)) : Bool :=
  match Json.get? members "digest" with
  | some (.text d) => d == digest
  | _ => false

/-- The schema among the members of a document, if it is valid. -/
def schema? (members : List (String × Json)) : Option Schema :=
  Schema.ofJson? ((Json.get? members "schema").getD .null)

/-- What a document says while the migrations have a digest. -/
def ofJson (digest : String) : Json → Reading
  | .object members =>
    if hasDigest digest members then
      match schema? members with
      | some s => .fresh s
      | none => .stale
    else .stale
  | _ => .unreadable

/-- What a text says to a reader with so much room. -/
def within (room : Nat) (digest text : String) : Reading :=
  match Json.read room text with
  | .ok j => ofJson digest j
  | .error .malformed => .unreadable
  | .error .tooDeep => .tooDeep

/-- What a text says to a reader with room enough. -/
def ofText (digest text : String) : Reading :=
  within text.length digest text

end Reading

end Schemata
