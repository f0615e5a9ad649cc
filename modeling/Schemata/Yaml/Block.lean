/-
Block scalars: texts that are set off by their indentation.

The header tells how the text is read. A bar keeps its line breaks and a bracket folds them; a
plus keeps the breaks at the end, a minus leaves them all out, and without either one is kept;
a digit gives the indentation, which else is that of the first line.
-/
import Schemata.Yaml.Cursor

namespace Schemata.Yaml.Block

/-- What becomes of the line breaks at the end. -/
inductive Tail where
  | one
  | none
  | all
deriving DecidableEq

/-- The sign of a header. -/
def sign? : Option Char → Option Tail
  | some '+' => some .all
  | some '-' => some .none
  | _ => .none

/-- What is being read. -/
def context : String := "while scanning a block scalar"

/-- The digit of a header; zero is no indentation. -/
def digit? (start : Mark) (c : Cursor) : Except Fault (Option Nat) :=
  match c.peek with
  | some ch =>
    if ch == '0' then
      .error (c.complain context start
        "expected indentation indicator in the range 1-9, but found 0")
    else if '1' ≤ ch && ch ≤ '9' then .ok (some (ch.toNat - '0'.toNat))
    else .ok .none
  | none => .ok .none

/-- Reads the signs of a header, in either order, and the rest of its line. -/
def header (start : Mark) (c : Cursor) : Except Fault (Tail × Option Nat × Cursor) := do
  let (tail, digit, c) ← signs
  if !c.atSpaceOrEnd then
    .error (c.expected context start "chomping or indentation indicators")
  else
    let c := (c.skipWhile (· == ' ')).skipComment
    if c.atLineEnd then .ok (tail, digit, c.skipBreak)
    else .error (c.expected context start "a comment or a line break")
where
  /-- The signs alone. -/
  signs : Except Fault (Tail × Option Nat × Cursor) :=
    match sign? c.peek with
    | some t => do
      match ← digit? start c.next with
      | some d => .ok (t, some d, c.skip 2)
      | .none => .ok (t, .none, c.next)
    | .none => do
      match ← digit? start c with
      | some d =>
        match sign? c.next.peek with
        | some t => .ok (t, some d, c.skip 2)
        | .none => .ok (.one, some d, c.next)
      | .none => .ok (.one, .none, c)

/-- Moves past blanks up to a column. -/
def skipIndent (indent : Nat) : Nat → Cursor → Cursor
  | 0, c => c
  | fuel + 1, c =>
    if c.column < indent && c.peek == some ' ' then skipIndent indent fuel c.next else c

/-- Empty lines, and the indentation of the line behind them. -/
def breaks (indent : Nat) : Nat → Cursor → List Char × Cursor
  | 0, c => ([], c)
  | fuel + 1, c =>
    let c := skipIndent indent indent c
    match c.lineBreak? with
    | some (b, c) =>
      let (bs, c) := breaks indent fuel c
      (b :: bs, c)
    | none => ([], c)

/-- Empty lines before the first line, and the deepest column that their blanks reach. -/
def leading : Nat → Nat → Cursor → List Char × Nat × Cursor
  | 0, deepest, c => ([], deepest, c)
  | fuel + 1, deepest, c =>
    if c.peek == some ' ' then leading fuel (max deepest c.next.column) c.next
    else
      match c.lineBreak? with
      | some (b, c) =>
        let (bs, deepest, c) := leading fuel deepest c
        (b :: bs, deepest, c)
      | none => ([], deepest, c)

/-- A text, its last line break, the empty lines after it, and the place behind. -/
structure Lines where
  chars : List Char
  last : List Char
  empties : List Char
  behind : Cursor

/-- The next character is no blank. -/
def atText (c : Cursor) : Bool :=
  (c.peek.map fun ch => !isBlank ch).getD true

/-- The lines of a text at an indentation, after some empty lines. -/
def lines (fold : Bool) (indent : Nat) : Nat → List Char → List Char → Cursor → Lines
  | 0, last, empties, c => ⟨[], last, empties, c⟩
  | fuel + 1, last, empties, c =>
    if c.column == indent && !c.rest.isEmpty then
      let startsText := atText c
      let (line, c) := c.span fun ch => !isBreak ch
      let (last, c) :=
        match c.lineBreak? with
        | some (b, c) => ([b], c)
        | none => ([], c)
      let (next, c) := breaks indent (c.rest.length + 1) c
      if c.column == indent && !c.rest.isEmpty then
        let joint :=
          if fold && last == ['\n'] && startsText && atText c then
            if next.isEmpty then [' '] else []
          else last
        let more := lines fold indent fuel last next c
        { more with chars := empties ++ line ++ joint ++ more.chars }
      else ⟨empties ++ line, last, next, c⟩
    else ⟨[], last, empties, c⟩

/-- A block scalar from its sign, inside a collection that is indented by `indent`. -/
def scan (fold : Bool) (indent : Int) (c : Cursor) : Except Fault (String × Cursor) := do
  let (tail, digit, c) ← header c.mark c.next
  let least := max 1 (indent + 1).toNat
  let fuel := c.rest.length + 1
  let (empties, column, c) :=
    match digit with
    | some d =>
      let column := least + d - 1
      let (bs, c) := breaks column fuel c
      (bs, column, c)
    | none =>
      let (bs, deepest, c) := leading fuel 0 c
      (bs, max least deepest, c)
  let text := lines fold column fuel [] empties c
  let ending :=
    match tail with
    | .none => []
    | .one => text.last
    | .all => text.last ++ text.empties
  .ok (String.ofList (text.chars ++ ending), text.behind)

end Schemata.Yaml.Block
