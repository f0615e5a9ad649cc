/-
Defaults that the database generates itself when a row is inserted.
-/

namespace Schemata

/-- A default value that the database generates. -/
inductive SqlDefault where
  | autoIncrement
  | currentTimestamp
  | currentDate
  | currentTime
deriving DecidableEq, Repr, Inhabited

namespace SqlDefault

/-- The word that stands for a generated default in a stored schema. -/
def word : SqlDefault → String
  | .autoIncrement => "auto_increment"
  | .currentTimestamp => "current_timestamp"
  | .currentDate => "current_date"
  | .currentTime => "current_time"

/-- The name of the constant, as it is shown. -/
def constant : SqlDefault → String
  | .autoIncrement => "AUTO_INCREMENT"
  | .currentTimestamp => "CURRENT_TIMESTAMP"
  | .currentDate => "CURRENT_DATE"
  | .currentTime => "CURRENT_TIME"

/-- Every generated default. -/
def all : List SqlDefault := [.autoIncrement, .currentTimestamp, .currentDate, .currentTime]

/-- The generated default that a word stands for. -/
def ofWord? (s : String) : Option SqlDefault :=
  all.find? (·.word == s)

end SqlDefault

end Schemata
