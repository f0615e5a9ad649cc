/-
Postgres column defaults, as the catalogue prints the expression.

The forms are tried in a fixed order: nothing, the generated defaults by the words they begin
with, a quoted literal with a cast, a quoted literal, and what both dialects read alike.
-/
import Schemata.Text.Blank
import Schemata.Text.Word
import Schemata.Value.Literal

namespace Schemata.Postgres

/-- Somewhere ahead, on the same line, a closing quote is followed by a cast to a named
type. -/
def closesWithCast : List Char → Bool
  | [] => false
  | c :: cs =>
    (c == '\'' &&
      (match cs with
       | ':' :: ':' :: w :: _ => Text.isWordChar w
       | _ => false)) ||
    (c != '\n' && closesWithCast cs)

/-- A quoted literal followed by a cast. -/
def isCastLiteral : List Char → Bool
  | '\'' :: cs => closesWithCast cs
  | _ => false

/-- A text between single quotes. -/
def isQuotedLiteral : List Char → Bool
  | '\'' :: cs => cs.getLast? == some '\''
  | _ => false

/-- What stands before the first two colons. -/
def beforeCast : List Char → List Char
  | [] => []
  | ':' :: ':' :: _ => []
  | c :: cs => c :: beforeCast cs

/-- A text without the single quotes at its ends. -/
def unquoted (cs : List Char) : Value :=
  .text (String.ofList (Text.trim (· == '\'') cs))

/-- The default that a trimmed expression denotes. -/
def defaultOf (cs : List Char) : Except Fault Value :=
  let begins (s : String) : Bool := s.toList.isPrefixOf cs
  if cs == "NULL".toList then .ok .null
  else if begins "nextval(" then .ok (.generated .autoIncrement)
  else if begins "now()" || begins "CURRENT_TIMESTAMP" then .ok (.generated .currentTimestamp)
  else if begins "CURRENT_DATE" then .ok (.generated .currentDate)
  else if begins "CURRENT_TIME" then .ok (.generated .currentTime)
  else if isCastLiteral cs then .ok (unquoted (beforeCast cs))
  else if isQuotedLiteral cs then .ok (unquoted cs)
  else Value.ofLiteral cs

/-- The default that a column reports: no text is no default, and what is no text stays. -/
def parseDefault (v : Value) : Except Fault Value :=
  match v.word? with
  | some s => if s.isEmpty then .ok .null else defaultOf (Text.trimBlank s.toList)
  | none => .ok v

end Schemata.Postgres
