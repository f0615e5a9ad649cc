/-
Quoted scalars.

A line break inside quotes is folded: alone it is a blank, and of several the first is left
out. Blanks around it are left out as well. Between single quotes a quote is written twice;
between double quotes a backslash introduces a character by a letter or by its number, or
hides a line break.

The readers carry a fuel that the length of the text bounds, because each of their steps reads
at least one character. They carry the place of the opening quote as well, which a complaint
names.
-/
import Schemata.Json.Parser
import Schemata.Yaml.Cursor

namespace Schemata.Yaml.Quoted

/-- The character that a letter after a backslash stands for. -/
def letter? : Char → Option Char
  | '0' => some '\x00'
  | 'a' => some '\x07'
  | 'b' => some '\x08'
  | 't' => some '\t'
  | '\t' => some '\t'
  | 'n' => some '\n'
  | 'v' => some '\x0b'
  | 'f' => some '\x0c'
  | 'r' => some '\r'
  | 'e' => some '\x1b'
  | ' ' => some ' '
  | '"' => some '"'
  | '\\' => some '\\'
  | '/' => some '/'
  | 'N' => some '\u0085'
  | '_' => some '\u00a0'
  | 'L' => some '\u2028'
  | 'P' => some '\u2029'
  | _ => none

/-- How many digits follow a letter that introduces a number. -/
def width? : Char → Option Nat
  | 'x' => some 2
  | 'u' => some 4
  | 'U' => some 8
  | _ => none

/-- The number of hexadecimal digits. -/
def number? (ds : List Char) : Option Nat :=
  ds.foldl (fun n d => do some ((← n) * 16 + (← Json.Parser.hexDigit? d))) (some 0)

/-- The character of a number. A lone half of a surrogate pair is no character and becomes the
replacement character; a number past the last character cannot be used. -/
def character (n : Nat) : Except Fault Char :=
  if n.isValidChar then .ok (Char.ofNat n)
  else if n < 0x110000 then .ok '\uFFFD'
  else if n < 0x80000000 then .error .badValue
  else .error .outOfRange

/-- The character of a number and of the escape right behind it, when they are the two halves
of a surrogate pair. -/
def pair? (high : Nat) (c : Cursor) : Option (Char × Cursor) :=
  if 0xD800 ≤ high && high < 0xDC00 then
    (Json.Parser.character? high c.rest).map fun (l, _) => (l, c.skip 6)
  else none

/-- The scalar is not closed before the text ends. -/
def unclosed (start : Mark) (c : Cursor) : Fault :=
  c.complain "while scanning a quoted scalar" start "found unexpected end of stream"

/-- Line breaks and the blanks around them. A mark between documents may not stand there. -/
def breaks (start : Mark) : Nat → Cursor → Except Fault (List Char × Cursor)
  | 0, c => .error (unclosed start c)
  | fuel + 1, c =>
    if c.atSeparator then
      .error (c.complain "while scanning a quoted scalar" start
        "found unexpected document separator")
    else
      match (c.skipWhile isBlank).lineBreak? with
      | some (b, c) => do
        let (bs, c) ← breaks start fuel c
        .ok (b :: bs, c)
      | none => .ok ([], c.skipWhile isBlank)

/-- What line breaks are folded to. -/
def folded (first : Char) (others : List Char) : List Char :=
  if first != '\n' then first :: others
  else if others.isEmpty then [' ']
  else others

/-- Blanks, or a fold of line breaks. -/
def spaces (start : Mark) (fuel : Nat) (c : Cursor) : Except Fault (List Char × Cursor) :=
  let (blanks, c) := c.span isBlank
  match c.lineBreak? with
  | some (b, c) => do
    let (bs, c) ← breaks start fuel c
    .ok (folded b bs, c)
  | none => if c.rest.isEmpty then .error (unclosed start c) else .ok (blanks, c)

/-- What is being read after a backslash. -/
def escapeContext : String := "while scanning a double-quoted scalar"

/-- The character whose number is written in `width` digits. -/
def numbered (start : Mark) (width : Nat) (c : Cursor) : Except Fault (Char × Cursor) :=
  let ds := c.rest.take width
  match number? ds with
  | some n =>
    if ds.length < width then .error (stray none)
    else
      match pair? n (c.skip width) with
      | some found => .ok found
      | none => do
        let l ← character n
        .ok (l, c.skip width)
  | none => .error (stray (ds.find? fun d => (Json.Parser.hexDigit? d).isNone))
where
  /-- Something else stands where a digit is expected. -/
  stray (found : Option Char) : Fault :=
    c.complain escapeContext start ("expected escape sequence of " ++ toString width ++
      " hexadecimal numbers, but found " ++ Complaint.shown found)

/-- What follows a backslash between double quotes. -/
def escape (start : Mark) (fuel : Nat) (c : Cursor) : Except Fault (List Char × Cursor) :=
  match c.peek.bind letter? with
  | some l => .ok ([l], c.next)
  | none =>
    match c.peek.bind width? with
    | some w => do
      let (l, c) ← numbered start w c.next
      .ok ([l], c)
    | none =>
      match c.lineBreak? with
      | some (_, c) => breaks start fuel c
      | none =>
        .error (c.complain escapeContext start
          ("found unknown escape character " ++ Complaint.shown c.peek))

/-- A character that ends a run of plain characters between quotes. -/
def endsRun (ch : Char) : Bool :=
  ch == '\'' || ch == '"' || ch == '\\' || isBlank ch || isBreak ch

/-- Characters up to a blank, a line break or the closing quote. -/
def nonSpaces (start : Mark) (double : Bool) :
    Nat → Cursor → Except Fault (List Char × Cursor)
  | 0, c => .error (unclosed start c)
  | fuel + 1, c => do
    let (run, c) := c.span fun ch => !endsRun ch
    let more (cs : List Char) (c : Cursor) : Except Fault (List Char × Cursor) := do
      let (tail, c) ← nonSpaces start double fuel c
      .ok (run ++ cs ++ tail, c)
    match double, c.rest with
    | false, '\'' :: '\'' :: _ => more ['\''] (c.skip 2)
    | true, '\'' :: _ => more ['\''] c.next
    | false, '"' :: _ => more ['"'] c.next
    | false, '\\' :: _ => more ['\\'] c.next
    | true, '\\' :: _ => do
      let (cs, c) ← escape start fuel c.next
      more cs c
    | _, _ => .ok (run, c)

/-- The rest of a scalar up to its closing quote. -/
def body (start : Mark) (quote : Char) : Nat → Cursor → Except Fault (List Char × Cursor)
  | 0, c => .error (unclosed start c)
  | fuel + 1, c => do
    let (cs, c) ← nonSpaces start (quote == '"') (fuel + 1) c
    if c.peek == some quote then .ok (cs, c.next)
    else
      let (gap, c) ← spaces start fuel c
      let (tail, c) ← body start quote fuel c
      .ok (cs ++ gap ++ tail, c)

/-- A quoted scalar from its opening quote. -/
def scan (quote : Char) (c : Cursor) : Except Fault (String × Cursor) := do
  let (cs, c) ← body c.mark quote (c.rest.length + 1) c.next
  .ok (String.ofList cs, c)

end Schemata.Yaml.Quoted
