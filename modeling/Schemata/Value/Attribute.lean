/-
Reading a value as an attribute of a model.

A model says what it takes for each attribute: a text, a truth value, a list of texts, a type.
The readers accept the few other spellings that data files use, above all the words and
numbers that stand for truth values, and refuse the rest. An attribute that may be missing is
read through `optional`.
-/
import Schemata.Value.Items

namespace Schemata.Value

/-- Letters of the first plane in small form. -/
def lowered (s : String) : String :=
  String.ofList (s.toList.map Char.toLower)

/-- The words that stand for yes. -/
def yesWords : List String := ["1", "on", "t", "true", "y", "yes"]

/-- The words that stand for no. -/
def noWords : List String := ["0", "off", "f", "false", "n", "no"]

/-- Reads a text: a word, or bytes that encode a text. -/
def text? : Value → Option String
  | .bytes bs => String.fromUTF8? ⟨bs.toArray⟩
  | v => v.word?

/-- Reads a truth value. -/
def bool? : Value → Option Bool
  | .bool b => some b
  | .int n => if n = 1 then some true else if n = 0 then some false else none
  | .float x => if x == 1 then some true else if x == 0 then some false else none
  | v =>
    match v.text? with
    | none => none
    | some s =>
      if yesWords.contains (lowered s) then some true
      else if noWords.contains (lowered s) then some false
      else none

/-- Reads a sequence whose items the reader `f` takes. -/
def listOf? {α : Type} (f : Value → Option α) : Value → Option (List α)
  | .list xs => xs.mapM f
  | .tuple xs => xs.mapM f
  | .set xs => xs.mapM f
  | _ => none

/-- Reads a list of texts. -/
def texts? (v : Value) : Option (List String) :=
  v.listOf? text?

/-- Reads an attribute that may be null. -/
def optional {α : Type} (f : Value → Option α) : Value → Option (Option α)
  | .null => some none
  | v => (f v).map some

/-- Reads an attribute that may be missing from the entries, but not null. -/
def withDefault {α : Type} (f : Value → Option α) (d : α) (entries : List (Value × Value))
    (key : String) : Option α :=
  match get? entries key with
  | none => some d
  | some v => f v

/-- Reads an attribute that may be missing from the entries or null. -/
def optionalAt {α : Type} (f : Value → Option α) (entries : List (Value × Value))
    (key : String) :
    Option (Option α) :=
  match get? entries key with
  | none => some none
  | some v => optional f v

/-- Reads a type: a name, or a mapping that tells its kind. -/
def type? : Value → Option FieldType
  | .type t => some t
  | .dict es =>
    match (get? es "kind").bind word? with
    | some "array" =>
      match _h : get? es "of" with
      | some v => (type? v).map .array
      | none => none
    | some "enum" => (withDefault texts? [] es "values").map .enum
    | _ => none
  | v => v.text?.map .named
termination_by v => v.depth
decreasing_by
  have := depth_find? _h
  simp only [depth]
  omega

/-- A value that a model must be able to read. -/
def require {α : Type} : Option α → Except Fault α
  | some a => .ok a
  | none => .error .invalid

/-! ## Writing -/

/-- A text that may be missing, as data. -/
def ofOption : Option String → Value
  | none => .null
  | some s => .text s

/-- A truth value that may be missing, as data. -/
def ofOptionBool : Option Bool → Value
  | none => .null
  | some b => .bool b

/-- A list of texts, as data. -/
def ofTexts (ss : List String) : Value :=
  .list (ss.map .text)

end Schemata.Value
