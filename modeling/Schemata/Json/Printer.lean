/-
The writing of JSON documents.

What varies between the places where documents are written is in two records. A `Style` says
what stands between the parts: nothing, blanks, or line breaks with two more blanks of
indentation at each level. An `Alphabet` says which characters are written as they are and how
the others are: everything outside ASCII by number for stored entries and log lines, nothing
but controls for the text that is hashed. A character beyond the first plane is written as the
numbers of its two surrogates.
-/
import Schemata.Decimal.Notation
import Schemata.Json.Basic
import Schemata.Text.Quoted

namespace Schemata.Json

/-- What stands between the parts of a document. -/
structure Style where
  /-- After an opening bracket, and before a closing one, at a level of nesting. -/
  gap : Nat → List Char
  /-- After a comma, at a level of nesting. -/
  next : Nat → List Char
  /-- After the colon of a member. -/
  colon : List Char

/-- Everything on one line, with blanks after commas and colons. -/
def inline : Style where
  gap := fun _ => []
  next := fun _ => [' ']
  colon := [' ']

/-- Everything on one line, without blanks. -/
def compact : Style where
  gap := fun _ => []
  next := fun _ => []
  colon := []

/-- A line break and two blanks for each level. -/
def lineBreak (level : Nat) : List Char :=
  '\n' :: List.replicate (2 * level) ' '

/-- One part on each line. -/
def indented : Style where
  gap := lineBreak
  next := lineBreak
  colon := [' ']

/-- Which characters may stand for themselves inside a text. -/
structure Alphabet where
  keeps : Char → Bool

/-- Printable ASCII. -/
def ascii : Alphabet where
  keeps := fun c => 32 ≤ c.toNat && c.toNat < 127

/-- Everything but controls. -/
def unicode : Alphabet where
  keeps := fun c => 32 ≤ c.toNat

/-- Printable ASCII without the characters that have a meaning in markup. -/
def markupSafe : Alphabet where
  keeps := fun c => ascii.keeps c && !(['<', '>', '&', '\''].contains c)

/-- A 16-bit unit by number. -/
def unit (n : Nat) : List Char :=
  '\\' :: 'u' :: Text.Quoted.hex 4 n

/-- A character by number: one unit, or the two surrogates. -/
def byNumber (c : Char) : List Char :=
  let n := c.toNat
  if n < 0x10000 then unit n
  else unit (0xD800 + (n - 0x10000) / 0x400) ++ unit (0xDC00 + (n - 0x10000) % 0x400)

/-- One character inside a text. -/
def Alphabet.escape (a : Alphabet) (c : Char) : List Char :=
  if c == '"' then ['\\', '"']
  else if c == '\\' then ['\\', '\\']
  else if c == '\n' then ['\\', 'n']
  else if c == '\r' then ['\\', 'r']
  else if c == '\t' then ['\\', 't']
  else if c == '\x0c' then ['\\', 'f']
  else if c == '\x08' then ['\\', 'b']
  else if a.keeps c then [c]
  else byNumber c

/-- A text between its quotes. -/
def Alphabet.text (a : Alphabet) (s : String) : List Char :=
  '"' :: (s.toList.flatMap a.escape ++ ['"'])

mutual

/-- A document at a level of nesting. -/
def chars (st : Style) (a : Alphabet) (level : Nat) : Json → List Char
  | .null => ['n', 'u', 'l', 'l']
  | .bool true => ['t', 'r', 'u', 'e']
  | .bool false => ['f', 'a', 'l', 's', 'e']
  | .int n => (toString n).toList
  | .float x => (Decimal.dataLayout.write x).toList
  | .text s => a.text s
  | .array [] => ['[', ']']
  | .array (j :: js) =>
    '[' :: (st.gap (level + 1) ++ chars st a (level + 1) j ++ itemsAfter st a level js)
  | .object [] => ['\x7b', '\x7d']
  | .object ((k, j) :: ms) =>
    '\x7b' ::
      (st.gap (level + 1) ++ a.text k ++ ':' :: st.colon ++ chars st a (level + 1) j ++
        membersAfter st a level ms)

/-- The items after the first one, and the closing bracket. -/
def itemsAfter (st : Style) (a : Alphabet) (level : Nat) : List Json → List Char
  | [] => st.gap level ++ [']']
  | j :: js =>
    ',' :: (st.next (level + 1) ++ chars st a (level + 1) j ++ itemsAfter st a level js)

/-- The members after the first one, and the closing brace. -/
def membersAfter (st : Style) (a : Alphabet) (level : Nat) : List (String × Json) → List Char
  | [] => st.gap level ++ ['\x7d']
  | (k, j) :: ms =>
    ',' :: (st.next (level + 1) ++ a.text k ++ ':' :: st.colon ++ chars st a (level + 1) j ++
      membersAfter st a level ms)

end

/-- A document as text. -/
def print (st : Style) (a : Alphabet) (j : Json) : String :=
  String.ofList (chars st a 0 j)

end Schemata.Json
