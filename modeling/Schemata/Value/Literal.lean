/-
Literals in the texts of column defaults.

Both dialects first look for the texts that have a meaning of their own. What is left they
read alike: digits are a whole number, digits with a point a decimal fraction, two words are
truth values, and all else is text.
-/
import Schemata.Fault
import Schemata.Text.Case
import Schemata.Text.Literal
import Schemata.Value.Basic

namespace Schemata.Value

/-- The value of a literal. A whole number of too many digits is refused. -/
def ofLiteral (cs : List Char) : Except Fault Value :=
  match Text.digitLiteral? cs with
  | some ds =>
    if Text.maxDigits < ds.length then .error .badValue else .ok (.int (Text.natOfDigits ds))
  | none =>
    match Text.fractionLiteral? cs with
    | some (whole, fraction) => .ok (.float (Text.floatOfFraction whole fraction))
    | none =>
      let word := String.ofList (Text.lower cs)
      if word == "true" then .ok (.bool true)
      else if word == "false" then .ok (.bool false)
      else .ok (.text (String.ofList cs))

end Schemata.Value
