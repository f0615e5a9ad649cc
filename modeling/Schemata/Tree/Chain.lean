/-
Visitors of tagged trees, and how they inherit.

A visitor is a chain of layers, the most derived one first. A layer has methods, and a method
may claim tags. Which method answers a tag is settled at two times. When a layer is put on a
chain, the tags that are claimed below it and by its own methods go into its table, each with
the *name* of a method, and the table stays as it is from then on. When a tag is met, the most
derived layer that has a method of this name gives its *body*. A layer can therefore change
what an inherited tag does by redefining a method without claiming the tag again.

`Chain.visit` walks a tree with the methods of a chain. A method reports who it is, the
context it was called in, and what its payload becomes; its overlay is laid over the context
of the payload. The methods of layers are those that tags lead to: no layer redefines the
visit itself.
-/
import Schemata.Keyed
import Schemata.Value.Basic

namespace Schemata.Tree

/-- A method of a layer: the tags that it claims, and what it lays over the context of its
payload. -/
structure Method where
  name : String
  tags : List String
  overlay : Option (List (Value × Value))

/-! ## Tables -/

/-- Tags, each with the name of the method that answers it. -/
abbrev Handlers := List (String × String)

namespace Handlers

/-- Sets handlers in order; of two for one tag the later one counts. -/
def update (handlers entries : Handlers) : Handlers :=
  entries.foldl (fun hs h => putBy (·.1) h hs) handlers

/-- The handlers that methods claim, in order. -/
def claimed (methods : List Method) : Handlers :=
  methods.flatMap fun m => m.tags.map fun tag => (tag, m.name)

end Handlers

/-! ## Chains -/

/-- A layer of a chain. Its table has the tags that it and the layers below it claim. -/
structure Layer where
  name : String
  methods : List Method
  handlers : Handlers

/-- The method of a name in this layer. -/
def Layer.method? (l : Layer) (name : String) : Option Method :=
  l.methods.find? fun m => m.name == name

/-- A visitor: its layers, the most derived first. -/
abbrev Chain := List Layer

namespace Chain

/-- The handlers of all layers together; for each tag that of the most derived one counts. -/
def inherited (c : Chain) : Handlers :=
  c.foldr (fun l handlers => handlers.update l.handlers) []

/-- Puts a layer on a chain. Of two methods of one name in its body the later one is kept, at
the place of the first. -/
def derive (c : Chain) (name : String) (body : List Method) : Chain :=
  let methods := lastByKey (·.name) body
  { name, methods, handlers := c.inherited.update (.claimed methods) } :: c

/-- The table of the most derived layer. -/
def handlers : Chain → Handlers
  | [] => []
  | l :: _ => l.handlers

/-- The name of the method that answers a tag. -/
def claim? (c : Chain) (tag : String) : Option String :=
  (c.handlers.find? (·.1 == tag)).map (·.2)

/-- The tag has a handler. -/
def handles (c : Chain) (tag : String) : Bool :=
  (c.claim? tag).isSome

/-- The body of a method name, with the layer that gives it. -/
def body? (c : Chain) (name : String) : Option (Layer × Method) :=
  c.findSome? fun l => (l.method? name).map fun m => (l, m)

/-- The body that answers a tag. -/
def answer? (c : Chain) (tag : String) : Option (Layer × Method) :=
  (c.claim? tag).bind c.body?

/-- The context that a method hands on to its payload. -/
def handedOn (m : Method) (context : Value) : Value :=
  match m.overlay with
  | none => context
  | some overlay =>
    match context with
    | .dict es => .dict (Value.ofPairs (es ++ overlay))
    | _ => .dict overlay

/-- What a method reports of itself. -/
def report (l : Layer) (m : Method) (context value : Value) : Value :=
  .dict [(.text "by", .text (l.name ++ "." ++ m.name)), (.text "context", context),
    (.text "value", value)]

mutual

/-- Visits a tree: a pair whose tag is claimed is reported by its method, a list is visited
item by item, any other tagged pair becomes its payload, and all else stays. -/
def visit (c : Chain) (context : Value) : Value → Value
  | .tuple [t, payload] =>
    match t.word? with
    | none => .tuple [t, payload]
    | some tag =>
      match c.answer? tag with
      | some (l, m) => report l m context (visit c (handedOn m context) payload)
      | none => visit c context payload
  | .list xs => .list (visitItems c context xs)
  | v => v

/-- Visits the items of a list. -/
def visitItems (c : Chain) (context : Value) : List Value → List Value
  | [] => []
  | x :: xs => visit c context x :: visitItems c context xs

end

/-- Visits the values of a mapping and keeps the keys. -/
def visitEntries (c : Chain) (context : Value) (es : List (Value × Value)) :
    List (Value × Value) :=
  es.map fun e => (e.1, visit c context e.2)

end Chain

/-- Chains by name; the latest definition of a name is found first. -/
abbrev Family := List (String × Chain)

namespace Family

/-- A visitor without methods. -/
def root : Family :=
  [("Visitor", [])]

/-- Adds a chain that derives from a known one. -/
def define? (f : Family) (name parent : String) (body : List Method) : Option Family :=
  (f.lookup parent).map fun c => (name, c.derive name body) :: f

end Family

end Schemata.Tree
