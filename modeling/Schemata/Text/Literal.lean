/-
Number literals and parameter lists inside short texts.

A literal may end in one line break, which the reading of a number ignores: the texts come
from catalogues, and a quoted literal can keep a break that trimming did not reach.
-/
import Schemata.Decimal.Binary

namespace Schemata.Text

/-- A decimal digit of the first plane. -/
def isDigit (c : Char) : Bool :=
  '0' ≤ c && c ≤ '9'

/-- The number that digits denote. -/
def natOfDigits (ds : List Char) : Nat :=
  ds.foldl (fun n d => 10 * n + (d.toNat - '0'.toNat)) 0

/-- Leaves out one line break at the end. -/
def withoutFinalBreak (cs : List Char) : List Char :=
  if cs.getLast? == some '\n' then cs.dropLast else cs

/-- The digits of a text that holds nothing else, one final line break aside. -/
def digitLiteral? (cs : List Char) : Option (List Char) :=
  let body := withoutFinalBreak cs
  if !body.isEmpty && body.all isDigit then some body else none

/-- The digits before and after the point of a text that is a decimal fraction, one final line
break aside. -/
def fractionLiteral? (cs : List Char) : Option (List Char × List Char) :=
  let body := withoutFinalBreak cs
  let whole := body.takeWhile isDigit
  match body.dropWhile isDigit with
  | '.' :: rest =>
    if !whole.isEmpty && !rest.isEmpty && rest.all isDigit then some (whole, rest) else none
  | _ => none

/-- The double nearest to a decimal fraction. -/
def floatOfFraction (whole fraction : List Char) : Float :=
  Decimal.floatOf false (natOfDigits (whole ++ fraction)) (-(fraction.length : Int))

/-- The longest text of digits that is read as a whole number. -/
def maxDigits : Nat := 4300

/-- What follows the first closing parenthesis. -/
def afterClosing : List Char → Option (List Char)
  | [] => none
  | c :: cs => if c == ')' then some cs else afterClosing cs

theorem length_afterClosing {cs rest : List Char} (h : afterClosing cs = some rest) :
    rest.length < cs.length := by
  induction cs with
  | nil => simp [afterClosing] at h
  | cons c cs ih =>
    unfold afterClosing at h
    split at h
    · cases h; simp
    · have := ih h; simp; omega

/-- Leaves out every parenthesised list; a parenthesis that is never closed stays. -/
def dropParameters : List Char → List Char
  | [] => []
  | c :: cs =>
    if c == '(' then
      match _h : afterClosing cs with
      | some rest => dropParameters rest
      | none => c :: dropParameters cs
    else c :: dropParameters cs
termination_by cs => cs.length
decreasing_by
  · have := length_afterClosing _h; simp; omega
  · simp
  · simp

/-- The text holds another one as a consecutive part. -/
def holds (part : List Char) : List Char → Bool
  | [] => part.isEmpty
  | c :: cs => part.isPrefixOf (c :: cs) || holds part cs

end Schemata.Text
