/-
Which dialects have rules, and how they are asked for.

Every dialect has rules for building tables and for mapping types. They are fixed: asking for
a dialect that has none is a fault, and so is giving a dialect other rules.
-/
import Schemata.Fault
import Schemata.Value.Shown

namespace Schemata.Registry

/-- What the rules of a dialect are for. -/
inductive Kind where
  | tables
  | types
deriving DecidableEq

/-- How a kind of rules is named in a report. -/
def Kind.label : Kind → String
  | .tables => "Compiler"
  | .types => "Type mapper"

/-- The dialects that have rules, in the order in which they are listed. -/
def names : List String :=
  Dialect.all.map (·.word)

/-- The dialect that a value is or names. -/
def find (v : Value) : Except Fault Dialect :=
  match v with
  | .dialect d => .ok d
  | v => do
    match Dialect.ofWord? (← v.plain) with
    | some d => .ok d
    | none => .error (.about v.shown (.unsupportedDialect · names))

/-- A value that names no dialect. -/
def notDialect (v : Value) : Fault :=
  .about v.shown .notDialect

/-- The dialect that a word stands for, where nothing but its word will do. -/
def ofWord (v : Value) : Except Fault Dialect :=
  match v.word?.bind Dialect.ofWord? with
  | some d => .ok d
  | none => .error (notDialect v)

/-- Why a dialect cannot be given other rules. -/
def refusal (k : Kind) (v : Value) : Fault :=
  match ofWord v with
  | .ok d => .alreadyRegistered k.label d.word
  | .error f => f

end Schemata.Registry
