/-
How much a log line matters.

Levels are numbers, and some have words. A word in any case that names no level stands for the
level of ordinary information, with two exceptions that are refused: words that name something
of another kind where levels are looked up.
-/
import Schemata.Fault
import Schemata.Text.Case
import Schemata.Value.Basic

namespace Schemata.Log.Level

/-- The numbers of words, the word that is written for a number before its other words. -/
def numbers : List (String × Int) := [
  ("CRITICAL", 50), ("FATAL", 50), ("ERROR", 40), ("WARNING", 30), ("WARN", 30), ("INFO", 20),
  ("DEBUG", 10), ("NOTSET", 0)]

/-- The level of ordinary information. -/
def ordinary : Int := 20

/-- The words that are no levels, and why they are refused: one names a text, one a
mapping. -/
def refusals : List (String × Fault) := [("BASIC_FORMAT", .badValue), ("_STYLES", .wrongKind)]

/-- The level of a word. -/
def ofWord (s : String) : Except Fault Int :=
  let word := Text.uppercase s
  match refusals.lookup word with
  | some f => .error f
  | none => .ok ((numbers.lookup word).getD ordinary)

/-- The level that a value asks for. A number is taken as it is. -/
def ofValue (v : Value) : Except Fault Value :=
  match v.word? with
  | some s => (ofWord s).map .int
  | none => if v.int?.isSome then .ok v else .error .wrongKind

/-- What is written for a level. -/
def name (n : Int) : String :=
  match numbers.find? fun e => e.2 == n with
  | some e => e.1
  | none => "Level " ++ toString n

end Schemata.Log.Level
