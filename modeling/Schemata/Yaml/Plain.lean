/-
Plain scalars: texts without quotes.

A plain scalar goes on over line breaks, which are folded as between quotes, as long as the
lines are indented deeply enough. It ends at a comment, at a colon before a gap, and inside
brackets at any character that has a meaning there.
-/
import Schemata.Yaml.Quoted

namespace Schemata.Yaml.Plain

/-- A character that has a meaning inside brackets. -/
def endsInBrackets (ch : Char) : Bool :=
  [',', '[', ']', '\x7b', '\x7d'].contains ch

/-- The characters of a plain scalar up to a gap. -/
def run (inBrackets : Bool) : List Char → List Char
  | [] => []
  | ch :: rest =>
    let closes :=
      match rest with
      | [] => true
      | d :: _ => isBlank d || isBreak d || (inBrackets && endsInBrackets d)
    if isBlank ch || isBreak ch || (ch == ':' && closes) ||
        (inBrackets && (ch == '?' || endsInBrackets ch)) then []
    else ch :: run inBrackets rest

/-- Line breaks after the first one, with the blanks before each, and the place behind them.
They are nothing where a mark between documents follows. -/
def breaks : Nat → Cursor → Option (List Char) × Cursor
  | 0, c => (some [], c)
  | fuel + 1, c =>
    let c := c.skipWhile (· == ' ')
    match c.lineBreak? with
    | some (b, c) =>
      if c.atSeparator then (none, c)
      else
        let (bs, c) := breaks fuel c
        (bs.map (b :: ·), c)
    | none => (some [], c)

/-- What stands between two runs. -/
structure Gap where
  /-- What the gap is in the text of the scalar; nothing ends the scalar. -/
  chars : List Char
  /-- The gap holds a line break. -/
  broken : Bool
  behind : Cursor

/-- The gap after a run. -/
def gap (c : Cursor) : Gap :=
  let (blanks, c) := c.span (· == ' ')
  match c.lineBreak? with
  | none => ⟨blanks, false, c⟩
  | some (b, c) =>
    if c.atSeparator then ⟨[], true, c⟩
    else
      match breaks c.rest.length c with
      | (some bs, c) => ⟨Quoted.folded b bs, true, c⟩
      | (none, c) => ⟨[], true, c⟩

/-- The rest of a plain scalar after a gap, with the place where it ends and whether it ends
with a line break. -/
def body (inBrackets : Bool) (indent : Int) :
    Nat → List Char → Cursor → Bool → List Char × Cursor × Bool
  | 0, _, c, broken => ([], c, broken)
  | fuel + 1, before, c, broken =>
    if c.peek == some '#' then ([], c, broken)
    else
      let cs := run inBrackets c.rest
      if cs.isEmpty then ([], c, broken)
      else
        let g := gap (c.skip cs.length)
        if g.chars.isEmpty || g.behind.peek == some '#' ||
            (!inBrackets && (g.behind.column : Int) < indent) then
          (before ++ cs, g.behind, g.broken)
        else
          let (tail, behind, broken) := body inBrackets indent fuel g.chars g.behind g.broken
          (before ++ cs ++ tail, behind, broken)

/-- A plain scalar whose lines are indented by `indent` columns at least. The last part of the
result says whether it ends with a line break. -/
def scan (inBrackets : Bool) (indent : Int) (c : Cursor) : String × Cursor × Bool :=
  let (cs, behind, broken) := body inBrackets indent (c.rest.length + 1) [] c false
  (String.ofList cs, behind, broken)

end Schemata.Yaml.Plain
