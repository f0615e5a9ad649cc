/-
How values are written: as plain text, and as they are shown inside other text.

The two differ at the top only. `Value.plain` writes a text as it is and a constant by its
full name; `Value.shown` puts a text between quotes and marks a constant as one. Inside a
list, a mapping or a record everything is shown.

A whole number of too many digits cannot be written, and neither can anything that it stands
in. `Value.plainText` and `Value.shownText` are the texts where there is no such number.
-/
import Schemata.Decimal.Notation
import Schemata.Fault
import Schemata.Text.Literal
import Schemata.Value.Basic

namespace Schemata

/-- A truth value as it is written. -/
def boolWord (b : Bool) : String :=
  if b then "True" else "False"

/-- A list of texts as it is shown. -/
def shownTexts (ss : List String) : String :=
  "[" ++ ", ".intercalate (ss.map Text.quoted) ++ "]"

/-- A type as it is shown inside other text. -/
def FieldType.shown : FieldType → String
  | .named n => Text.quoted n
  | .array t => "ArrayType(kind='array', of=" ++ t.shown ++ ")"
  | .enum vs => "EnumType(kind='enum', values=" ++ shownTexts vs ++ ")"

namespace Value

/-- A constant as it is shown: its kind, its name and its word. -/
def shownConstant (kind name word : String) : String :=
  "<" ++ kind ++ "." ++ name ++ ": " ++ Text.quoted word ++ ">"

mutual

/-- The text that shows a value. -/
def shownText : Value → String
  | .null => "None"
  | .bool b => boolWord b
  | .int n => toString n
  | .float x => Decimal.plainLayout.write x
  | .nan _ => Decimal.plainLayout.write (0.0 / 0.0)
  | .text s => Text.quoted s
  | .generated d => shownConstant "SqlDefault" d.constant d.word
  | .action a => shownConstant "ForeignKeyAction" a.constant a.word
  | .dialect d => shownConstant "Dialect" d.constant d.word
  | .type t => t.shown
  | .date d => d.shown
  | .moment m => m.shown
  | .bytes bs => Text.quotedBytes bs
  | .loop isList => if isList then "[...]" else "\x7b...\x7d"
  | .list xs => "[" ++ ", ".intercalate (shownItems xs) ++ "]"
  | .tuple [x] => "(" ++ shownText x ++ ",)"
  | .tuple xs => "(" ++ ", ".intercalate (shownItems xs) ++ ")"
  | .set [] => "set()"
  | .set xs => "\x7b" ++ ", ".intercalate (shownItems xs) ++ "\x7d"
  | .dict es => "\x7b" ++ ", ".intercalate (shownEntries es) ++ "\x7d"
  | .record kind fs => kind ++ "(" ++ ", ".intercalate (shownFields fs) ++ ")"

/-- The items of a list, shown. -/
def shownItems : List Value → List String
  | [] => []
  | x :: xs => shownText x :: shownItems xs

/-- The entries of a mapping, shown. -/
def shownEntries : List (Value × Value) → List String
  | [] => []
  | (k, v) :: es => (shownText k ++ ": " ++ shownText v) :: shownEntries es

/-- The attributes of a record, shown. -/
def shownFields : List (String × Value) → List String
  | [] => []
  | (k, v) :: fs => (k ++ "=" ++ shownText v) :: shownFields fs

end

/-- The plain text of a value. -/
def plainText : Value → String
  | .text s => s
  | .generated d => "SqlDefault." ++ d.constant
  | .action a => "ForeignKeyAction." ++ a.constant
  | .dialect d => "Dialect." ++ d.constant
  | .type t => t.label
  | .date d => d.iso
  | .moment m => m.isoWith " "
  | .record _ fs => " ".intercalate (shownFields fs)
  | v => v.shownText

/-- The readable label of anything that stands for a type: a constant is labelled by its
word. -/
def labelText (v : Value) : String :=
  v.word?.getD v.plainText

/-! ## Numbers that are too long -/

mutual

/-- A value is a whole number of more digits than are ever written, or holds one. -/
def hasLongInt : Value → Bool
  | .int n => Text.maxDigits < (toString n.natAbs).length
  | .list xs => haveLongInt xs
  | .tuple xs => haveLongInt xs
  | .set xs => haveLongInt xs
  | .dict es => entriesHaveLongInt es
  | .record _ fs => fieldsHaveLongInt fs
  | _ => false

/-- Some item cannot be written. -/
def haveLongInt : List Value → Bool
  | [] => false
  | x :: xs => hasLongInt x || haveLongInt xs

/-- Some key or value of a mapping cannot be written. -/
def entriesHaveLongInt : List (Value × Value) → Bool
  | [] => false
  | (k, v) :: es => hasLongInt k || (hasLongInt v || entriesHaveLongInt es)

/-- Some attribute cannot be written. -/
def fieldsHaveLongInt : List (String × Value) → Bool
  | [] => false
  | (_, v) :: fs => hasLongInt v || fieldsHaveLongInt fs

end

/-- A text that is made of a value, if the value can be written. -/
def written (v : Value) (text : String) : Except Fault String :=
  if v.hasLongInt then .error .badValue else .ok text

/-- A value as it is shown inside other text. -/
def shown (v : Value) : Except Fault String :=
  v.written v.shownText

/-- A value as plain text. -/
def plain (v : Value) : Except Fault String :=
  v.written v.plainText

/-- A value by its label. -/
def label (v : Value) : Except Fault String :=
  v.written v.labelText

end Value

/-- The fault that tells about a value, or why the value cannot be written. -/
def Fault.about (text : Except Fault String) (tell : String → Fault) : Fault :=
  match text with
  | .ok s => tell s
  | .error f => f

end Schemata
