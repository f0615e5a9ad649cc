/-
Nested contexts.

A program opens blocks inside blocks and after blocks, and may leave any of them by a fault,
which may be caught further out. What its lines are about is said twice. `Program.run` works
on the stack of open blocks: it enters, writes what is on top, and leaves. `Program.lines`
knows no stack: it goes down the text of the program with the blocks around each line, and
`Context.under` reads off them what the line is about, key by key from the innermost block
that gives the key, and the further entries from all of them. `Program.run_of_under` says that
the two agree, whatever was open before, and that the stack afterwards is the one before.
-/
import Schemata.Log.Context
import Schemata.Proofs.State
import Schemata.Proofs.Value.Entries

namespace Schemata.Log

/-- What is given to a block: a mapping from names. -/
abbrev Given := List (Value × Value)

/-! ## What blocks say -/

/-- The further entries that a block gives. -/
def extraOf (given : Given) : List (Value × Value) :=
  match Value.get? given "extra" with
  | some (.dict extra) => extra
  | _ => []

theorem Scope.ofEntries_eq_ok {given : Given} {s : Scope} (read : ofEntries given = .ok s) :
    (∀ k, s.given k = Value.get? given k.word) ∧ s.extra = extraOf given := by
  unfold ofEntries at read
  unfold extraOf
  split at read
  all_goals rename_i h
  · cases read
    rw [h]
    exact ⟨fun _ => rfl, rfl⟩
  · cases read
    rw [h]
    exact ⟨fun _ => rfl, rfl⟩
  · cases read

namespace Context

variable (c : Context) (around : List Given) (key : String)

/-- What is seen under blocks, the innermost first, that were opened in a context. -/
def under : Context where
  value k := (around.findSome? fun given => Value.get? given k.word).getD (c.value k)
  extra := overlaid c.extra (around.reverse.flatMap extraOf)

/-- One block more is seen as the block in what is seen without it. -/
theorem under_cons {given : Given} {s : Scope} (read : Scope.ofEntries given = .ok s) :
    c.under (given :: around) = (c.under around).inside s := by
  obtain ⟨own, extra⟩ := Scope.ofEntries_eq_ok read
  have value (k : Key) :
      ((given :: around).findSome? fun given => Value.get? given k.word).getD
      (c.value k) = (s.given k).getD ((c.under around).value k) := by
    rw [own, List.findSome?_cons]
    cases Value.get? given k.word <;> rfl
  have entries : overlaid c.extra ((given :: around).reverse.flatMap extraOf) =
      overlaid (c.under around).extra s.extra := by
    simp only [under, overlaid, extra, List.reverse_cons, List.flatMap_append,
      List.flatMap_cons, List.flatMap_nil, List.append_nil, List.foldl_append]
  simp only [under, inside, Context.mk.injEq]
  exact ⟨funext value, entries⟩

/-- Of two entries with one name the later one is found. -/
theorem get?_overlaid (es later : List (Value × Value)) :
    Value.get? (overlaid es later) key =
      (Value.get? later.reverse key).or (Value.get? es key) := by
  induction later generalizing es with
  | nil => rfl
  | cons e later ih =>
    have first : overlaid es (e :: later) = overlaid (Value.put es e.1 e.2) later := rfl
    rw [first, ih, Value.get?_put_key, List.reverse_cons, Value.get?_append, Option.or_assoc,
      Value.get?_cons, Value.get?_nil]
    split <;> rfl

/-- A further entry is that of the innermost block that has one of its name. -/
theorem get?_extra_under :
    Value.get? (c.under around).extra key =
      (around.findSome? fun given => Value.get? (extraOf given).reverse key).or
        (Value.get? c.extra key) := by
  rw [under, get?_overlaid]
  congr 1
  induction around with
  | nil => rfl
  | cons given around ih =>
    rw [List.reverse_cons, List.flatMap_append, List.reverse_append, Value.get?_append, ih,
      List.findSome?_cons, List.flatMap_cons, List.flatMap_nil, List.append_nil]
    cases Value.get? (extraOf given).reverse key <;> rfl

end Context

/-! ## Steps of a session -/

theorem run_write (σ : Session) : write σ = (.ok (), σ.write) := rfl

/-- However a block ends, it is left. -/
theorem run_within {α : Type} (s : Scope) (body : Logging α) (σ : Session) :
    within s body σ = ((body (σ.enter s)).1, (body (σ.enter s)).2.leave) := by
  have entered : (modify fun σ => σ.enter s : Logging PUnit) σ = (.ok (), σ.enter s) := rfl
  rw [within, run_bind, entered]
  exact run_tryFinally body Session.leave (σ.enter s)

/-- Leaving a block takes back the entering, and none of the lines. -/
theorem Session.leave_enter (σ : Session) (s : Scope) (ls : List Context) :
    Session.leave { σ.enter s with lines := ls } = { σ with lines := ls } := by
  simp only [Session.leave, Session.enter, Stack.leave_enter, Option.getD_some]

/-! ## Programs -/

/-- What a program does with its log: it writes lines, fails, opens blocks, and catches
faults. The last part of each step is what comes after it. -/
inductive Program where
  | done
  | write (next : Program)
  | fail (f : Fault)
  | block (given : Given) (body next : Program)
  /-- A part whose fault is caught. -/
  | attempt (body next : Program)

namespace Program

/-- Runs a program. What describes no block is refused before a block is entered. -/
def run : Program → Logging Unit
  | done => pure ()
  | write next => do
    Log.write
    next.run
  | fail f => throw f
  | block given body next => do
    inBlock given body.run
    next.run
  | attempt body next => do
    tryCatch body.run fun _ => pure ()
    next.run

/-- How a program ends. -/
def outcome : Program → Except Fault Unit
  | done => .ok ()
  | write next => next.outcome
  | fail f => .error f
  | block given body next => do
    let _ ← Scope.ofEntries given
    body.outcome
    next.outcome
  | attempt _ next => next.outcome

/-- The lines that a program comes to, each by the blocks around it, the innermost first. -/
def lines (around : List Given) : Program → List (List Given)
  | done => []
  | write next => around :: next.lines around
  | fail _ => []
  | block given body next =>
    match Scope.ofEntries given with
    | .error _ => []
    | .ok _ =>
      body.lines (given :: around) ++
        match body.outcome with
        | .error _ => []
        | .ok _ => next.lines around
  | attempt body next => body.lines around ++ next.lines around

section

variable {c : Context} {around : List Given} {σ : Session}

/-- From a place under blocks, a program writes lines that are about what the blocks around
each of them say, and leaves the stack as it was. The induction goes over all places, since a
body is run one block further in. -/
theorem run_of_under (p : Program) (seen : σ.stack.current = c.under around) :
    p.run σ = (p.outcome, { σ with lines := σ.lines ++ (p.lines around).map c.under }) := by
  induction p generalizing around σ with
  | done =>
    rw [lines, List.map_nil, List.append_nil]
    rfl
  | write next ih =>
    have after : σ.write.stack.current = c.under around := seen
    rw [run, run_bind, run_write]
    dsimp only
    rw [ih after, outcome, lines, List.map_cons, Session.write, seen, List.append_assoc,
      List.singleton_append]
  | fail f =>
    rw [lines, List.map_nil, List.append_nil]
    rfl
  | block given body next ihb ihn =>
    rw [run, run_bind, outcome, lines, inBlock]
    cases read : Scope.ofEntries given with
    | error f =>
      rw [List.map_nil, List.append_nil]
      rfl
    | ok s =>
      have inner : (σ.enter s).stack.current = c.under (given :: around) := by
        rw [Context.under_cons c around read, ← seen]
        exact σ.stack.current_enter s
      dsimp only
      rw [run_within, ihb inner, Session.leave_enter]
      cases body.outcome with
      | error f =>
        rw [List.append_nil]
        rfl
      | ok _ =>
        rw [List.map_append, ← List.append_assoc]
        exact ihn seen
  | attempt body next ihb ihn =>
    rw [run, run_bind, run_tryCatch, ihb seen, outcome, lines, List.map_append,
      ← List.append_assoc]
    -- Caught or not, the rest goes on from the same place.
    cases body.outcome with
    | error f => exact ihn seen
    | ok _ => exact ihn seen

end

/-- Whatever is open when a program begins, each of its lines is about what the blocks around
the line say over it, and when the program has ended, well or by a fault, the open blocks are
those of before. Of a key that is what the innermost block that gives the key gives to it,
null or not; a further entry is the one of the innermost block that has it, and there are no
others. -/
theorem contexts_nest (p : Program) (σ : Session) :
    p.run σ =
        (p.outcome, { σ with lines := σ.lines ++ (p.lines []).map σ.stack.current.under }) ∧
      ∀ (c : Context) (around : List Given),
        (∀ k, (c.under around).value k =
          (around.findSome? fun given => Value.get? given k.word).getD (c.value k)) ∧
        ∀ key, Value.get? (c.under around).extra key =
          (around.findSome? fun given => Value.get? (extraOf given).reverse key).or
            (Value.get? c.extra key) :=
  ⟨p.run_of_under rfl, fun c around => ⟨fun _ => rfl, c.get?_extra_under around⟩⟩

/-- A line after a block that was left by a fault is under no block. -/
example : lines []
    (.attempt (.block [(.text "repo", .text "MyApp.Repo")] (.fail .wrongKind) .done)
      (.write .done)) = [[]] := by
  cbv

end Program

end Schemata.Log
