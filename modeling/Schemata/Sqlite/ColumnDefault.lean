/-
SQLite column defaults, as the table description lists them.

Quotes are cut before the text is looked at, so a quoted pair of braces is an empty mapping
and a quoted number a number.
-/
import Schemata.Text.Blank
import Schemata.Value.Literal

namespace Schemata.Sqlite

/-- A default without the blanks at its ends, then without the quotes. -/
def bare (cs : List Char) : List Char :=
  Text.trim (· == '"') (Text.trim (· == '\'') (Text.trimBlank cs))

/-- The default that a bare text denotes. -/
def defaultOf (cs : List Char) : Except Fault Value :=
  match String.ofList cs with
  | "\x7b\x7d" => .ok (.dict [])
  | "[]" => .ok (.list [])
  | "NULL" => .ok .null
  | "CURRENT_TIMESTAMP" => .ok (.generated .currentTimestamp)
  | "CURRENT_DATE" => .ok (.generated .currentDate)
  | "CURRENT_TIME" => .ok (.generated .currentTime)
  | _ => Value.ofLiteral cs

/-- The default that a column reports: no text is no default, and what is no text stays. -/
def parseDefault (v : Value) : Except Fault Value :=
  match v.word? with
  | some s => if s.isEmpty then .ok .null else defaultOf (bare s.toList)
  | none => .ok v

end Schemata.Sqlite
