/-
The kinds of nodes, and the forms of plain scalars.

Every node has a tag, which stands for its kind. A scalar without quotes and without a tag of
its own gets the tag of its form: the words for yes and no, null, whole numbers in four bases
and in sixties, decimal numbers, days and moments; all else is text. One line break at the end
does not change a form. It takes a mark in front of a quoted text to bring one there.
-/
import Schemata.Yaml.Stamp
import Schemata.Text.Split

namespace Schemata.Yaml

/-- The kinds of nodes. -/
inductive Kind where
  | null
  | bool
  | int
  | float
  | bytes
  | moment
  | text
  | sequence
  | mapping
  | set
  /-- A sequence of mappings with one entry each, which keep their order. -/
  | orderedMap
  /-- A sequence of mappings with one entry each, in which a key may come again. -/
  | pairs
  /-- The key whose value is merged into its mapping. -/
  | merge
  /-- The key of the value that a mapping stands for; in a mapping it stands for itself. -/
  | default
  /-- A sign that begins something else where it is not quoted. -/
  | sign
  | unknown
deriving DecidableEq, Repr

namespace Scalar

open Schemata.Text (isDigit split)

/-! ## Words -/

/-- The words for yes and no, in small letters. -/
def truthWords : List (String × Bool) := [
  ("yes", true), ("no", false), ("true", true), ("false", false), ("on", true),
  ("off", false)]

/-- A word in small letters, with a capital first letter, or in capital letters. -/
def hasUniformCase (s : String) : Bool :=
  let cs := s.toList
  cs.all Char.isLower || cs.all Char.isUpper ||
    (match cs with
     | c :: rest => c.isUpper && rest.all Char.isLower
     | [] => false)

/-- The letters of a text in small form. -/
def lowered (s : String) : String :=
  String.ofList (s.toList.map Char.toLower)

/-- The truth value of a word, in any case. -/
def truth? (s : String) : Option Bool :=
  truthWords.lookup (lowered s)

/-- The words for nothing. -/
def nullWords : List String := ["", "~", "null", "Null", "NULL"]

/-- A word for an infinite number. -/
def isInfinite (cs : List Char) : Bool :=
  [".inf", ".Inf", ".INF"].contains (String.ofList cs)

/-- A word for no number. -/
def isNotANumber (cs : List Char) : Bool :=
  [".nan", ".NaN", ".NAN"].contains (String.ofList cs)

/-! ## Forms of numbers -/

/-- A text without its sign. -/
def unsigned : List Char → List Char
  | '-' :: cs => cs
  | '+' :: cs => cs
  | cs => cs

/-- The text has a minus sign. -/
def isNegative (cs : List Char) : Bool :=
  cs.head? == some '-'

/-- A character between digits that has no meaning. -/
def isDigitOrGap (c : Char) : Bool :=
  isDigit c || c == '_'

/-- Digits with gaps, the first a digit. -/
def isGrouped (cs : List Char) : Bool :=
  (cs.head?.map isDigit).getD false && cs.all isDigitOrGap

/-- A text of one character at least, all of a class. -/
def isSome (p : Char → Bool) (cs : List Char) : Bool :=
  !cs.isEmpty && cs.all p

/-- A number below sixty, of one digit or two. -/
def isSixtieth : List Char → Bool
  | [a] => isDigit a
  | [a, b] => '0' ≤ a && a ≤ '5' && isDigit b
  | _ => false

/-- A hexadecimal digit or a gap. -/
def isHexOrGap (c : Char) : Bool :=
  isDigitOrGap c || ('a' ≤ c && c ≤ 'f') || ('A' ≤ c && c ≤ 'F')

/-- Digits that do not begin with a zero, or a zero alone. -/
def isWhole (cs : List Char) : Bool :=
  cs == ['0'] || (isGrouped cs && cs.head? != some '0')

/-- The form of a whole number. -/
def isInt (cs : List Char) : Bool :=
  let body := unsigned cs
  isWhole body ||
    (match body with
     | '0' :: 'b' :: ds => isSome (fun c => c == '0' || c == '1' || c == '_') ds
     | '0' :: 'x' :: ds => isSome isHexOrGap ds
     | '0' :: ds => isSome (fun c => ('0' ≤ c && c ≤ '7') || c == '_') ds
     | _ => false) ||
    (match split ':' body with
     | first :: second :: more =>
       isWhole first && first != ['0'] && (second :: more).all isSixtieth
     | _ => false)

/-- Nothing, or an exponent with its sign. -/
def isExponentOrEmpty : List Char → Bool
  | [] => true
  | e :: s :: ds => (e == 'e' || e == 'E') && (s == '+' || s == '-') && isSome isDigit ds
  | _ => false

/-- What follows the point of a decimal number. -/
def isFraction (cs : List Char) : Bool :=
  isExponentOrEmpty (cs.dropWhile isDigitOrGap)

/-- The form of a decimal number. -/
def isFloat (cs : List Char) : Bool :=
  let body := unsigned cs
  isInfinite body || isNotANumber cs ||
    (match cs with
     | '.' :: d :: rest => isDigit d && isFraction rest
     | _ => false) ||
    (match split '.' body with
     | [whole, fraction] =>
       (isGrouped whole && isFraction fraction) ||
         (match split ':' whole with
          | first :: second :: more =>
            isGrouped first && (second :: more).all isSixtieth && fraction.all isDigitOrGap
          | _ => false)
     | _ => false)

end Scalar

namespace Kind

/-- The kind of a scalar of some form. -/
def ofForm (s : String) : Kind :=
  let cs := s.toList
  if (Scalar.truth? s).isSome && Scalar.hasUniformCase s then .bool
  else if Scalar.isFloat cs then .float
  else if Scalar.isInt cs then .int
  else if s == "<<" then .merge
  else if Scalar.nullWords.contains s then .null
  else if Stamp.isPlain cs then .moment
  else if s == "=" then .default
  else if ["!", "&", "*"].contains s then .sign
  else .text

/-- The kind of a plain scalar. A line break alone is a text. -/
def ofPlain (s : String) : Kind :=
  if s == "\n" then .text else ofForm (String.ofList (Text.withoutFinalBreak s.toList))

/-- The tags that stand for a kind. -/
def tags : List (String × Kind) := [
  ("null", .null), ("bool", .bool), ("int", .int), ("float", .float), ("binary", .bytes),
  ("timestamp", .moment), ("str", .text), ("seq", .sequence), ("map", .mapping),
  ("set", .set),
  ("omap", .orderedMap), ("pairs", .pairs), ("merge", .merge), ("value", .default),
  ("yaml", .sign)]

/-- What the tags of kinds begin with. -/
def tagStem : String := "tag:yaml.org,2002:"

/-- The kind that a tag stands for. -/
def ofTag (tag : String) : Kind :=
  ((tags.map fun t => (tagStem ++ t.1, t.2)).lookup tag).getD .unknown

/-- The tag that stands for a kind. -/
def tag (k : Kind) : String :=
  tagStem ++ ((tags.find? fun t => t.2 == k).map (·.1)).getD ""

end Kind

end Schemata.Yaml
