/-
What log lines are about: the context, as the innermost of nested blocks sees it.

A block gives values to some of four keys and may add further entries. A key that it does not
give is inherited from the block around it; one that it gives as null is taken away. Further
entries add to those of the blocks around, and of two entries with one name the inner one
wins.

The open blocks form a stack, each with all that is seen in it, so that looking needs the top
alone and leaving a block shows again what was seen before it. `Log.inBlock` is the one way in
which a program runs something in a block; the block is left however that ends.
-/
import Schemata.Value.Items

namespace Schemata.Log

/-- What a context has a value for. -/
inductive Key where
  | repo
  | table
  | dialect
  | operation
deriving DecidableEq, Repr

namespace Key

/-- Every key, in the order in which contexts are written. -/
def all : List Key := [.repo, .table, .dialect, .operation]

/-- The word for a key. -/
def word : Key → String
  | .repo => "repo"
  | .table => "table"
  | .dialect => "dialect"
  | .operation => "operation"

end Key

/-- What is being worked on. -/
structure Context where
  /-- The value of a key; null where nothing is known. -/
  value : Key → Value := fun _ => .null
  /-- Further entries. -/
  extra : List (Value × Value) := []

/-- What a block gives. -/
structure Scope where
  /-- The value that is given to a key; none where the key is inherited. -/
  given : Key → Option Value := fun _ => none
  /-- Further entries. -/
  extra : List (Value × Value) := []

/-- Entries under later ones: of two entries with one key the later one wins, at the place of
the earlier one. -/
def overlaid (es later : List (Value × Value)) : List (Value × Value) :=
  later.foldl (fun es e => Value.put es e.1 e.2) es

namespace Scope

/-- The block that a mapping describes. Words that are no key say nothing; further entries are
a mapping, or there are none. -/
def ofEntries (es : List (Value × Value)) : Except Fault Scope :=
  match Value.get? es "extra" with
  | none => .ok { given }
  | some (.dict extra) => .ok { given, extra }
  | some _ => .error .wrongKind
where
  /-- The value that the mapping has for a key. -/
  given (k : Key) : Option Value := Value.get? es k.word

end Scope

namespace Context

/-- What is seen in a block. -/
def inside (c : Context) (s : Scope) : Context where
  value := fun k => (s.given k).getD (c.value k)
  extra := overlaid c.extra s.extra

/-- The keys that have a value, as entries. -/
def keyEntries (c : Context) : List (Value × Value) :=
  Key.all.filterMap fun k =>
    match c.value k with
    | .null => none
    | v => some (.text k.word, v)

/-- A context as a mapping. A further entry that has the name of a key wins over it. -/
def toEntries (c : Context) : List (Value × Value) :=
  overlaid c.keyEntries c.extra

end Context

/-! ## Open blocks -/

/-- What is seen in each open block, the innermost first. -/
abbrev Stack := List Context

namespace Stack

/-- What is seen now; nothing outside of all blocks. -/
def current : Stack → Context
  | [] => {}
  | c :: _ => c

/-- Enters a block. -/
def enter (st : Stack) (s : Scope) : Stack :=
  st.current.inside s :: st

/-- Leaves the innermost block, if there is one. -/
def leave (st : Stack) : Option Stack :=
  match st with
  | [] => none
  | _ :: outer => some outer

theorem current_enter (st : Stack) (s : Scope) : (st.enter s).current = st.current.inside s :=
  rfl

theorem leave_enter (st : Stack) (s : Scope) : (st.enter s).leave = some st :=
  rfl

end Stack

/-! ## Sessions -/

/-- The open blocks, and what each line that was written so far is about. -/
structure Session where
  stack : Stack := []
  lines : List Context := []

namespace Session

/-- Enters a block. -/
def enter (σ : Session) (s : Scope) : Session :=
  { σ with stack := σ.stack.enter s }

/-- Leaves the innermost block. -/
def leave (σ : Session) : Session :=
  { σ with stack := σ.stack.leave.getD [] }

/-- Writes a line, which is about what is seen now. -/
def write (σ : Session) : Session :=
  { σ with lines := σ.lines ++ [σ.stack.current] }

end Session

/-- What runs among open blocks and may fail. -/
abbrev Logging := ExceptT Fault (StateM Session)

/-- Writes a line. -/
def write : Logging Unit :=
  modify Session.write

/-- Runs something in a block, and leaves the block also if that fails. -/
def within {α : Type} (s : Scope) (body : Logging α) : Logging α := do
  modify fun σ => σ.enter s
  try body
  finally modify Session.leave

/-- Runs something in the block that a mapping describes. What describes no block is refused
before anything is run. -/
def inBlock {α : Type} (given : List (Value × Value)) (body : Logging α) : Logging α :=
  match Scope.ofEntries given with
  | .ok s => within s body
  | .error f => throw f

end Schemata.Log
