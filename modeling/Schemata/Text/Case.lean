/-
Capital and small forms of texts, by the full case mappings of Unicode 14.0.

A mapping goes from a character to a list of characters: the sharp s becomes two capitals, the
capital I with a dot becomes a small i and a combining dot. One mapping looks at its
neighbours: a capital sigma becomes the final small sigma when a cased letter stands before it
and none after it, marks and other ignorable characters aside. `lower` therefore keeps the
characters already passed.
-/
import Schemata.Text.Case.Table

namespace Schemata.Text

namespace Case

/-- The run covers a code point. -/
def Run.covers (r : Run) (n : Nat) : Bool :=
  r.first ≤ n && n ≤ r.last && (n - r.first) % r.step == 0

/-- The image of a character under a table of long forms and one of runs. -/
def image (long : List (Nat × List Nat)) (runs : List Run) (c : Char) :
    List Char :=
  match long.lookup c.toNat with
  | some ns => ns.map Char.ofNat
  | none =>
    match runs.find? (·.covers c.toNat) with
    | some r => [Char.ofNat (c.toNat + r.shift).toNat]
    | none => [c]

/-- The capital form of a character. -/
def upperChar (c : Char) : List Char :=
  if c.toNat < 128 then [c.toUpper] else image upperLong upperRuns c

/-- The small form of a character other than the capital sigma. -/
def lowerChar (c : Char) : List Char :=
  if c.toNat < 128 then [c.toLower] else image lowerLong lowerRuns c

/-- The first character that is not ignorable is a cased letter. -/
def seesCased (cs : List Char) : Bool :=
  match cs.dropWhile (fun c => caseIgnorableSet.contains c.toNat) with
  | [] => false
  | c :: _ => casedSet.contains c.toNat

/-- Small forms of the characters after `passed`, which is held in reverse. -/
def lowerAfter (passed : List Char) : List Char → List Char
  | [] => []
  | c :: cs =>
    (if c == 'Σ' then [if seesCased passed && !seesCased cs then 'ς' else 'σ']
    else lowerChar c)
      ++ lowerAfter (c :: passed) cs

end Case

/-- The capital form of a text. -/
def upper (cs : List Char) : List Char :=
  cs.flatMap Case.upperChar

/-- The small form of a text. -/
def lower (cs : List Char) : List Char :=
  Case.lowerAfter [] cs

/-- The capital form of a text. -/
def uppercase (s : String) : String :=
  String.ofList (upper s.toList)

/-- The small form of a text. -/
def lowercase (s : String) : String :=
  String.ofList (lower s.toList)

end Schemata.Text
