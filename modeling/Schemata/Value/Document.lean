/-
Values as documents.

A document holds less than a value: constants become their words, records and types with
parameters become objects, tuples and sets become arrays, bytes become the text that they
encode, a double that is no number or infinite becomes null, and every key becomes a text.
`Value.toJson` says how, and `Value.refusal?` which values have no document; `Json.toValue`
reads a document back as plain data.

`Value.dumped` goes half of the way. It takes records and types apart into mappings and leaves
all else as it is, which is what becomes of a default when the facts of two fields are merged.
-/
import Schemata.Fault
import Schemata.Json.Basic
import Schemata.Value.Shown

namespace Schemata

/-- A type as a document. -/
def FieldType.toJson : FieldType → Json
  | .named n => .text n
  | .array t => .object [("kind", .text "array"), ("of", t.toJson)]
  | .enum vs => .object [("kind", .text "enum"), ("values", .array (vs.map .text))]

/-- A type as plain data. -/
def FieldType.dumped : FieldType → Value
  | .named n => .text n
  | .array t => .dict [(.text "kind", .text "array"), (.text "of", t.dumped)]
  | .enum vs => .dict [(.text "kind", .text "enum"), (.text "values", .list (vs.map .text))]

namespace Value

mutual

/-- A value with its records and types taken apart. -/
def dumped : Value → Value
  | .type t => t.dumped
  | .list xs => .list (dumpedItems xs)
  | .tuple xs => .tuple (dumpedItems xs)
  | .set xs => .set (dumpedItems xs)
  | .dict es => .dict (dumpedEntries es)
  | .record _ fs => .dict (dumpedFields fs)
  | v => v

/-- Items with their records and types taken apart. -/
def dumpedItems : List Value → List Value
  | [] => []
  | x :: xs => dumped x :: dumpedItems xs

/-- Entries with their records and types taken apart. -/
def dumpedEntries : List (Value × Value) → List (Value × Value)
  | [] => []
  | (k, v) :: es => (k, dumped v) :: dumpedEntries es

/-- Attributes as the entries of a mapping. -/
def dumpedFields : List (String × Value) → List (Value × Value)
  | [] => []
  | (k, v) :: fs => (.text k, dumped v) :: dumpedFields fs

end

/-- The text that bytes encode; bytes that encode none have no document. -/
def encoded (bs : List UInt8) : String :=
  (String.fromUTF8? ⟨bs.toArray⟩).getD ""

mutual

/-- The text of a key in a document. -/
def jsonKey : Value → String
  | .bool b => if b then "true" else "false"
  | .float x => if x.isFinite then (Value.float x).plainText else Value.null.plainText
  | .nan _ => Value.null.plainText
  | .moment m => m.stored
  | .bytes bs => encoded bs
  | .tuple xs => ",".intercalate (jsonKeys xs)
  | v => v.labelText

/-- The texts of keys. -/
def jsonKeys : List Value → List String
  | [] => []
  | x :: xs => jsonKey x :: jsonKeys xs

end

mutual

/-- A value as a document. -/
def toJson : Value → Json
  | .null => .null
  | .bool b => .bool b
  | .int n => .int n
  | .float x => if x.isFinite then .float x else .null
  | .nan _ => .null
  | .text s => .text s
  | .generated d => .text d.word
  | .action a => .text a.word
  | .dialect d => .text d.word
  | .type t => t.toJson
  | .date d => .text d.iso
  | .moment m => .text m.stored
  | .bytes bs => .text (encoded bs)
  | .loop _ => .null
  | .list xs => .array (itemsToJson xs)
  | .tuple xs => .array (itemsToJson xs)
  | .set xs => .array (itemsToJson xs)
  | .dict es => .object (entriesToJson [] es)
  | .record _ fs => .object (fieldsToJson fs)

/-- Items as documents. -/
def itemsToJson : List Value → List Json
  | [] => []
  | x :: xs => toJson x :: itemsToJson xs

/-- Entries as members after the members before them. -/
def entriesToJson (before : List (String × Json)) :
    List (Value × Value) → List (String × Json)
  | [] => before
  | (k, v) :: es => entriesToJson (Json.putMember before (jsonKey k) (toJson v)) es

/-- Attributes as members. -/
def fieldsToJson : List (String × Value) → List (String × Json)
  | [] => []
  | (k, v) :: fs => (k, toJson v) :: fieldsToJson fs

end

/-! ## What has no document -/

mutual

/-- Why a value has no document: it holds itself, bytes that encode no text, or a key that
cannot be written. -/
def refusal? : Value → Option Fault
  | .loop _ => some .badValue
  | .bytes bs => if (String.fromUTF8? ⟨bs.toArray⟩).isSome then none else some .undecodable
  | .list xs => refusalOfItems? xs
  | .tuple xs => refusalOfItems? xs
  | .set xs => refusalOfItems? xs
  | .dict es => refusalOfEntries? es
  | .record _ fs => refusalOfFields? fs
  | _ => none

/-- Why some item has no document. -/
def refusalOfItems? : List Value → Option Fault
  | [] => none
  | x :: xs => (refusal? x).or (refusalOfItems? xs)

/-- Why some key or value of a mapping has no document. -/
def refusalOfEntries? : List (Value × Value) → Option Fault
  | [] => none
  | (k, v) :: es =>
    (if k.hasLongInt then some .badValue else refusal? k).or
      ((refusal? v).or (refusalOfEntries? es))

/-- Why some attribute has no document. -/
def refusalOfFields? : List (String × Value) → Option Fault
  | [] => none
  | (_, v) :: fs => (refusal? v).or (refusalOfFields? fs)

end

end Value

namespace Json

mutual

/-- A document as plain data. -/
def toValue : Json → Value
  | .null => .null
  | .bool b => .bool b
  | .int n => .int n
  | .float x => .ofFloat 0 x
  | .text s => .text s
  | .array js => .list (itemsToValue js)
  | .object ms => .dict (membersToValue ms)

/-- Items as plain data. -/
def itemsToValue : List Json → List Value
  | [] => []
  | j :: js => toValue j :: itemsToValue js

/-- Members as entries. -/
def membersToValue : List (String × Json) → List (Value × Value)
  | [] => []
  | (k, j) :: ms => (.text k, toValue j) :: membersToValue ms

end

end Json

end Schemata
