/-
Line breaks in the text of a file.

Files come from several systems. Whatever ends a line in the file, a reader sees one plain
line break.
-/

namespace Schemata.Text

/-- A carriage return, alone or before a line break, becomes a line break. -/
def unifyBreaks : List Char → List Char
  | [] => []
  | '\r' :: '\n' :: cs => '\n' :: unifyBreaks cs
  | '\r' :: cs => '\n' :: unifyBreaks cs
  | c :: cs => c :: unifyBreaks cs

/-- A text with plain line breaks. -/
def withPlainBreaks (s : String) : String :=
  String.ofList (unifyBreaks s.toList)

end Schemata.Text
