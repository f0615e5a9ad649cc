/-
How a program logs: from which level on, and in which form.

The structured form is chosen by the program, or by the environment for every program.
-/
import Schemata.Log.Level
import Schemata.Settings

namespace Schemata.Log

/-- The forms of log lines. -/
inductive Form where
  | structured
  | human
deriving DecidableEq, Repr

/-- How a program logs. -/
structure Output where
  /-- The least level that is written, a number. -/
  level : Value
  form : Form

/-- The environment asks for the structured form. -/
def asksForJson (e : Environment) : Bool :=
  Text.lowercase ((e.get? "LOG_FORMAT").getD "") == "json"

/-- Sets how a program logs. -/
def Output.configure (level : Value) (json : Bool) (e : Environment) :
    Except Fault Output := do
  let level ← Level.ofValue level
  .ok ⟨level, if json || asksForJson e then .structured else .human⟩

end Schemata.Log
