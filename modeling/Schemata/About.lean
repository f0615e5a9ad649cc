/-
What this toolkit says of itself.
-/
import Schemata.Registry

namespace Schemata.About

/-- The version, by its parts. -/
def versionParts : List Nat := [0, 1, 0]

/-- The version. -/
def version : String :=
  ".".intercalate (versionParts.map toString)

/-- The day of the release. -/
def buildDate : String := "2026-10-16"

/-- The number of the development stage. -/
def epoch : Nat := 1

/-- The name of the development stage. -/
def codename : String := "Schema Inference"

end Schemata.About
