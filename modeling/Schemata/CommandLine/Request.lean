/-
What a command line asks for.

Each word is classified on its own: a flag, an argument, the two dashes after which no word is
a flag, or something unknown. A flag may be cut short as long as no other flag begins that
way, its argument may stand behind an equals sign, and flags of one letter may share a dash. A
word with a dash in front is an argument all the same if it is a negative number, or if it
holds a blank and no flag begins that way.

Then each flag takes its arguments from the arguments that follow it, from left to right, so
that help is given as soon as it is asked for, whatever follows. A command line with words
that nothing takes is refused, but only after that.
-/
import Schemata.Text.Digit
import Schemata.Text.Literal

namespace Schemata.CommandLine

/-- What can be asked for. -/
inductive Flag where
  | help
  | repo
  | snapshot
  | tables
  | config
  | clear
  | render
  | verbose
deriving DecidableEq, Repr

/-- How many arguments a flag takes. -/
inductive Arity where
  | none
  | one
  | oneOrMore
deriving DecidableEq, Repr

namespace Flag

/-- How many arguments a flag takes. -/
def arity : Flag → Arity
  | .repo => .one
  | .snapshot => .one
  | .config => .one
  | .tables => .oneOrMore
  | _ => .none

/-- Every flag. -/
def all : List Flag := [.help, .repo, .snapshot, .tables, .config, .clear, .render, .verbose]

/-- The word for a flag, after two dashes. -/
def word : Flag → String
  | .help => "help"
  | .repo => "repo"
  | .snapshot => "snapshot"
  | .tables => "tables"
  | .config => "config"
  | .clear => "clear"
  | .render => "render"
  | .verbose => "verbose"

/-- The flag of a letter after a single dash. Such flags take no arguments. -/
def ofLetter? (c : Char) : Option Flag :=
  if c == 'h' then some .help
  else if c == 'v' then some .verbose
  else none

end Flag

/-- Why a command line is not carried out. -/
inductive Stop where
  /-- It is not understood. -/
  | usage
  /-- It asks for help. -/
  | help
deriving DecidableEq, Repr

/-! ## Words -/

/-- A word by itself. -/
inductive Word where
  | argument (text : String)
  /-- Two dashes alone. -/
  | separator
  /-- A flag, and its argument if one stands behind an equals sign. -/
  | flag (f : Flag) (attached : Option String)
  /-- A flag of one letter, and what follows it in the same word. -/
  | letters (f : Flag) (more : List Char)
  | unknown
deriving Repr

/-- What follows a dash makes the word a negative number. -/
def isNumber (cs : List Char) : Bool :=
  let body := Text.withoutFinalBreak cs
  match body.dropWhile Text.isAnyDigit with
  | [] => !body.isEmpty
  | '.' :: fraction => !fraction.isEmpty && fraction.all Text.isAnyDigit
  | _ => false

/-- A word that no flag begins like. -/
def strangeWord (s : String) : Word :=
  if s.toList.contains ' ' then .argument s else .unknown

/-- The word of a text after two dashes. -/
def longWord (s : String) (cs : List Char) : Except Stop Word :=
  let name := cs.takeWhile (· != '=')
  let attached := match cs.dropWhile (· != '=') with
    | [] => none
    | _ :: argument => some (String.ofList argument)
  match Flag.all.filter fun f => name.isPrefixOf f.word.toList with
  | [] => .ok (strangeWord s)
  | [f] => .ok (.flag f attached)
  | _ => .error .usage

/-- The word of a text. -/
def wordOf (s : String) : Except Stop Word :=
  match s.toList with
  | '-' :: '-' :: cs => longWord s cs
  | '-' :: c :: cs =>
    match Flag.ofLetter? c with
    | some f => .ok (.letters f cs)
    | none => .ok (if isNumber (c :: cs) then .argument s else strangeWord s)
  | _ => .ok (.argument s)

/-- The words of a command line. -/
def wordsOf : List String → Except Stop (List Word)
  | [] => .ok []
  | s :: ss =>
    if s == "--" then .ok (.separator :: ss.map .argument)
    else do
      let w ← wordOf s
      let ws ← wordsOf ss
      .ok (w :: ws)

/-! ## Flags with their arguments -/

/-- The arguments before the first word of another kind, and every such word with the
arguments that follow it. -/
def grouped : List Word → List String × List (Word × List String)
  | [] => ([], [])
  | .argument s :: ws =>
    let (arguments, groups) := grouped ws
    (s :: arguments, groups)
  | w :: ws =>
    let (arguments, groups) := grouped ws
    ([], (w, arguments) :: groups)

/-- What a group of words gives. -/
structure Given where
  /-- The flags in order, with their arguments. -/
  flags : List (Flag × List String)
  /-- Some words were not taken. -/
  leftOver : Bool

/-- The flags of letters that share a dash; an unknown letter ends them and is left over. -/
def lettersGiven : List Char → Except Stop Given
  | [] => .ok ⟨[], false⟩
  | c :: cs =>
    if c == '-' || c == '=' then .error .usage
    else
      match Flag.ofLetter? c with
      | none => .ok ⟨[], true⟩
      | some f => do
        let g ← lettersGiven cs
        .ok { g with flags := (f, []) :: g.flags }

/-- What a flag gives that takes its arguments from those that follow it. -/
def flagGiven (f : Flag) (arguments : List String) : Except Stop Given :=
  match f.arity, arguments with
  | .none, _ => .ok ⟨[(f, [])], !arguments.isEmpty⟩
  | .one, s :: rest => .ok ⟨[(f, [s])], !rest.isEmpty⟩
  | .oneOrMore, _ :: _ => .ok ⟨[(f, arguments)], false⟩
  | _, [] => .error .usage

/-- What a word gives with the arguments that follow it. -/
def given (w : Word) (arguments : List String) : Except Stop Given :=
  match w with
  | .flag f none => flagGiven f arguments
  | .flag f (some s) =>
    if f.arity == .none then .error .usage else .ok ⟨[(f, [s])], !arguments.isEmpty⟩
  | .letters f more => do
    let g ← lettersGiven more
    .ok ⟨(f, []) :: g.flags, g.leftOver || !arguments.isEmpty⟩
  | _ => .ok ⟨[], true⟩

/-- What a word gives, unless it asks for help. -/
def givenUnlessHelp (w : Word) (arguments : List String) : Except Stop Given := do
  let g ← given w arguments
  if g.flags.any fun e => e.1 == .help then .error .help else .ok g

/-- What all words give. -/
def allGiven : List (Word × List String) → Except Stop Given
  | [] => .ok ⟨[], false⟩
  | (w, arguments) :: groups => do
    let g ← givenUnlessHelp w arguments
    let rest ← allGiven groups
    .ok ⟨g.flags ++ rest.flags, g.leftOver || rest.leftOver⟩

/-! ## Requests -/

/-- What a command line asks for. -/
structure Request where
  /-- The repository to work on. -/
  repo : String
  /-- The file that describes the tables. -/
  snapshot : Option String
  /-- The tables to refresh; none for all. -/
  tables : Option (List String)
  /-- The file that overrides settings. -/
  config : Option String
  /-- Only clear the cache. -/
  clear : Bool
  /-- Show models. -/
  render : Bool
  /-- Show fields. -/
  verbose : Bool
deriving DecidableEq, Repr

/-- The arguments of a flag, where it is given last. -/
def lastOf (f : Flag) (flags : List (Flag × List String)) : Option (List String) :=
  (flags.reverse.find? fun e => e.1 == f).map (·.2)

/-- The request of flags, if they name a repository. -/
def Request.ofFlags? (flags : List (Flag × List String)) : Option Request :=
  let single (f : Flag) : Option String := (lastOf f flags).bind List.head?
  let isGiven (f : Flag) : Bool := (lastOf f flags).isSome
  (single .repo).map fun repo => {
    repo
    snapshot := single .snapshot
    tables := lastOf .tables flags
    config := single .config
    clear := isGiven .clear
    render := isGiven .render
    verbose := isGiven .verbose }

/-- The request of a command line. -/
def Request.ofArguments (arguments : List String) : Except Stop Request := do
  let ws ← wordsOf arguments
  let (stray, groups) := grouped ws
  let g ← allGiven groups
  match Request.ofFlags? g.flags with
  | some r => if g.leftOver || !stray.isEmpty then .error .usage else .ok r
  | none => .error .usage

end Schemata.CommandLine
