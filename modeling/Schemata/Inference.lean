/-
The schema of a table, ready for use.

A schema is taken from the cache or inferred, then completed by a hand-written one, and
narrowed to the fields that are wanted.
-/
import Schemata.Cache
import Schemata.Schema.Merge

namespace Schemata.Inference

open Caching

variable (s : Settings) (repo : Repository)

/-- The inferred schema of a table, by way of the cache if it is in use. -/
def inferSchema (table : Value) (i : Option Introspector) : Caching Schema :=
  if Cache.isEnabled s then Cache.obtain s repo table i else Cache.infer s repo table i

/-- A schema under a hand-written one, where there is one, with the fields that are wanted,
where they are named. -/
def complete (schema : Schema) (custom : Option Schema) (fields : Value) :
    Except Fault Schema := do
  let merged ← match custom with
    | some c => schema.merge? c
    | none => .ok schema
  match fields with
  | .null => .ok merged
  | names => merged.projectOn names

/-- The final schema of a table. -/
def loadSchema (table : Value) (i : Option Introspector) (custom : Option Schema)
    (fields : Value) : Caching Schema := do
  let schema ← inferSchema s repo table i
  ask fun _ => complete schema custom fields

end Schemata.Inference
