/-
What is wrong with a YAML text, and where.

A complaint names what was being read and where that began, what is wrong there, and the
place. Lines and columns are counted from one in its report. When both places are the same the
first one is left out. A character that may not stand in a text at all is reported by its
number and its distance from the start, because the text is checked for such characters before
any line is read.
-/
import Schemata.Text.Quoted

namespace Schemata.Yaml

/-- A line and a column, counted from zero. -/
structure Mark where
  line : Nat
  column : Nat
deriving DecidableEq, Repr, Inhabited

namespace Mark

/-- The place behind a sign of one character. -/
def behind (m : Mark) : Mark :=
  { m with column := m.column + 1 }

/-- A place in a file, as it is reported. -/
def report (file : String) (m : Mark) : String :=
  "  in \"" ++ file ++ "\", line " ++ toString (m.line + 1) ++ ", column " ++
    toString (m.column + 1)

end Mark

/-- What is wrong with a text. -/
inductive Complaint where
  /-- A character that may not stand in a text, and its distance from the start. -/
  | character (code position : Nat)
  /-- What was being read, where that began, what is wrong, and where. -/
  | problem (context : Option String) (start : Option Mark) (what : String) (place : Mark)
deriving DecidableEq, Repr

namespace Complaint

/-- A complaint about something that began somewhere. -/
def within (context : String) (start : Mark) (what : String) (place : Mark) : Complaint :=
  .problem (some context) (some start) what place

/-- A complaint about a place. -/
def here (what : String) (place : Mark) : Complaint :=
  .problem none none what place

/-- A character as it is shown in a complaint; the end of the text is shown as a character
without a form. -/
def shown (ch : Option Char) : String :=
  Text.quoted (String.singleton (ch.getD '\x00'))

/-- The lines of a report. -/
def lines (file : String) : Complaint → List String
  | .character code position =>
    ["unacceptable character #x" ++ String.ofList (Text.Quoted.hex 4 code) ++
      ": special characters are not allowed",
     "  in \"" ++ file ++ "\", position " ++ toString position]
  | .problem context start what place =>
    context.toList ++
      ((start.filter (· != place)).map (Mark.report file)).toList ++
      [what, place.report file]

/-- The report of a complaint about a file. -/
def report (file : String) (c : Complaint) : String :=
  "\n".intercalate (c.lines file)

end Complaint

end Schemata.Yaml
