/-
A place in a YAML text.

A cursor holds the characters that are still to be read, and where the next one stands: its
line, its column and its distance from the start. Columns decide about indentation, and the
distance bounds the length of a key. A mark for the byte order, which may open a text, takes
no column.
-/
import Schemata.Fault

namespace Schemata.Yaml

/-- A character that ends a line. -/
def isBreak (c : Char) : Bool :=
  c == '\n' || c == '\r' || c == '\u0085' || c == '\u2028' || c == '\u2029'

/-- A blank inside a line. -/
def isBlank (c : Char) : Bool :=
  c == ' ' || c == '\t'

/-- A character that may stand in the text of a file. -/
def isAllowed (c : Char) : Bool :=
  let n := c.toNat
  n == 9 || n == 10 || n == 13 || (0x20 ≤ n && n ≤ 0x7E) || n == 0x85 ||
    (0xA0 ≤ n && n ≤ 0xD7FF) ||
    (0xE000 ≤ n && n ≤ 0xFFFD) || 0x10000 ≤ n

/-- A place in a text. -/
structure Cursor where
  rest : List Char
  line : Nat := 0
  column : Nat := 0
  index : Nat := 0

namespace Cursor

/-- The next character. -/
def peek (c : Cursor) : Option Char :=
  c.rest.head?

/-- The line and the column. -/
def mark (c : Cursor) : Mark :=
  ⟨c.line, c.column⟩

/-- What is wrong here, inside something that began at a mark. -/
def complain (c : Cursor) (context : String) (start : Mark) (what : String) : Fault :=
  .syntaxError (.within context start what c.mark)

/-- Something else was expected here. -/
def expected (c : Cursor) (context : String) (start : Mark) (what : String) : Fault :=
  c.complain context start ("expected " ++ what ++ ", but found " ++ Complaint.shown c.peek)

/-- The character at a distance. -/
def ahead (c : Cursor) (n : Nat) : Option Char :=
  c.rest[n]?

/-- The character at a distance is a blank, ends a line, or is past the end. -/
def isGap (c : Cursor) (n : Nat) : Bool :=
  match c.ahead n with
  | none => true
  | some ch => isBlank ch || isBreak ch

/-- The next character ends a line, or there is none. -/
def atLineEnd (c : Cursor) : Bool :=
  (c.peek.map isBreak).getD true

/-- A space, the end of a line, or the end of the text. -/
def atSpaceOrEnd (c : Cursor) : Bool :=
  (c.peek.map fun ch => ch == ' ' || isBreak ch).getD true

/-- Moves past one character. -/
def next (c : Cursor) : Cursor :=
  match c.rest with
  | [] => c
  | ch :: rest =>
    let index := c.index + 1
    if isBreak ch && !(ch == '\r' && rest.head? == some '\n') then
      { rest, line := c.line + 1, column := 0, index }
    else if ch == '\uFEFF' then { rest, line := c.line, column := c.column, index }
    else { rest, line := c.line, column := c.column + 1, index }

/-- Moves past some characters. -/
def skip (c : Cursor) : Nat → Cursor
  | 0 => c
  | n + 1 => c.next.skip n

/-- The characters of a class that follow, and the place behind them. -/
def span (c : Cursor) (p : Char → Bool) : List Char × Cursor :=
  let run := c.rest.takeWhile p
  (run, c.skip run.length)

/-- The place behind the characters of a class. -/
def skipWhile (c : Cursor) (p : Char → Bool) : Cursor :=
  (c.span p).2

/-- Moves past one character, if a given one follows. -/
def drop? (c : Cursor) (ch : Char) : Option Cursor :=
  if c.peek == some ch then some c.next else none

/-- Moves past the end of a line. What it stands for in a text is a plain line break, but for
the two separators of lines and paragraphs, which are kept. -/
def lineBreak? (c : Cursor) : Option (Char × Cursor) :=
  match c.rest with
  | '\r' :: '\n' :: _ => some ('\n', c.skip 2)
  | ch :: _ =>
    if ch == '\u2028' || ch == '\u2029' then some (ch, c.next)
    else if isBreak ch then some ('\n', c.next)
    else none
  | [] => none

/-- Moves past the end of a line, if there is one. -/
def skipBreak (c : Cursor) : Cursor :=
  match c.lineBreak? with
  | some (_, c) => c
  | none => c

/-- A mark of three characters that stands alone follows. -/
def atMark (c : Cursor) (mark : String) : Bool :=
  mark.toList.isPrefixOf c.rest && c.isGap 3

/-- A mark between documents follows. -/
def atSeparator (c : Cursor) : Bool :=
  c.atMark "---" || c.atMark "..."

/-- Moves past a comment up to the end of the line. -/
def skipComment (c : Cursor) : Cursor :=
  if c.peek == some '#' then c.skipWhile fun ch => !isBreak ch else c

end Cursor

end Schemata.Yaml
