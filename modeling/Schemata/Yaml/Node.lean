/-
The nodes of a YAML document.

Nodes are numbered, and a node holds the numbers of the nodes in it: an alias is the number of
the node that its anchor names. So one node may stand in several places, and since an anchor
counts from where its node begins, a node may hold itself. Every node has a tag in full, its
own or that of its form.

The reading follows the grammar by recursion. Every step reads at least one token before the
next one begins, which is what the fuel counts. A token that does not fit is a complaint; the
fault that ends the tokens of a malformed text is met like a token and passed on.
-/
import Schemata.Yaml.Kind
import Schemata.Yaml.Token

namespace Schemata.Yaml

/-- What a node holds: a text, or the numbers of other nodes. -/
inductive Content where
  | scalar (text : String)
  | sequence (items : List Nat)
  | mapping (entries : List (Nat × Nat))
deriving Repr, Inhabited

/-- A node: where it begins, its tag, and what it holds. -/
structure Node where
  start : Mark
  tag : String
  content : Content
deriving Repr, Inhabited

/-- What a complaint calls a node that holds something. -/
def Content.shown : Content → String
  | .scalar _ => "scalar"
  | .sequence _ => "sequence"
  | .mapping _ => "mapping"

/-- The items of a sequence; nothing else has items. -/
def Content.items : Content → List Nat
  | .sequence xs => xs
  | _ => []

/-- The entries of a mapping; nothing else has entries. -/
def Content.entries : Content → List (Nat × Nat)
  | .mapping es => es
  | _ => []

namespace Node

/-- The kind that the tag of a node stands for. -/
def kind (n : Node) : Kind :=
  Kind.ofTag n.tag

end Node

/-- The nodes of a document by number, and the number of the node that is the document. -/
structure Document where
  nodes : Array Node
  root : Nat

namespace Node

/-- What a document declares, the nodes that have begun, and the anchors among them. -/
structure Context where
  handles : List (String × String)
  nodes : Array Node := #[]
  anchors : List (String × Nat) := []

namespace Context

/-- Gives a node the next number. -/
def add (c : Context) (n : Node) : Nat × Context :=
  (c.nodes.size, { c with nodes := c.nodes.push n })

/-- What a node holds, once it has been read. -/
def fill (c : Context) (number : Nat) (content : Content) : Context :=
  { c with nodes := c.nodes.modify number fun n => { n with content } }

/-- A scalar of which nothing is written. -/
def addEmpty (c : Context) (start : Mark) : Nat × Context :=
  c.add ⟨start, (Kind.ofPlain "").tag, .scalar ""⟩

end Context

/-- What has been read, the tokens behind it, and the anchors known there. -/
abbrev Reading (α : Type) := α × List Placed × Context

/-! ## Complaints -/

/-- The next token and its place; the text ends with a token for its end. -/
def head : List Placed → Placed
  | [] => (.textEnd, ⟨0, 0⟩)
  | t :: _ => t

/-- The place of the next token. -/
def place (ts : List Placed) : Mark :=
  (head ts).2

/-- The next token alone. -/
def next (ts : List Placed) : Token :=
  (head ts).1

/-- The next token does not fit. -/
def unexpected (context : Option (String × Mark)) (what : String) (ts : List Placed) :
    Fault :=
  match head ts with
  | (.fault f, _) => f
  | (t, m) =>
    .syntaxError (.problem (context.map (·.1)) (context.map (·.2))
      (what ++ " " ++ Text.quoted t.shown) m)

/-! ## Properties -/

/-- The handles that need no declaration. -/
def standardHandles : List (String × String) :=
  [("!", "!"), ("!!", "tag:yaml.org,2002:")]

/-- The tag that a handle and a suffix make; `start` is where the node begins and `place`
where the tag stands. -/
def tagOf (c : Context) (start place : Mark) (handle : Option String) (suffix : String) :
    Except Fault String :=
  match handle with
  | none => .ok suffix
  | some h =>
    match c.handles.lookup h with
    | some stem => .ok (stem ++ suffix)
    | none =>
      .error (.syntaxError (.within "while parsing a node" start
        ("found undefined tag handle " ++ Text.quoted h) place))

/-- What is written in front of a node. -/
structure Properties where
  anchor : Option String := none
  tag : Option String := none

/-- Reads an anchor and a tag, in either order. What stands behind a tag is looked at before
the tag is read. -/
def properties (c : Context) : List Placed → Except Fault (Properties × List Placed)
  | (.anchor a, m) :: (.tag h s, p) :: ts => do
    let t ← tagOf c m p h s
    .ok (⟨some a, some t⟩, ts)
  | (.anchor a, _) :: ts => .ok (⟨some a, none⟩, ts)
  | (.tag h s, m) :: (.anchor a, _) :: ts => do
    let t ← tagOf c m m h s
    .ok (⟨some a, some t⟩, ts)
  | (.tag _ _, _) :: (.fault f, _) :: _ => .error f
  | (.tag h s, m) :: ts => do
    let t ← tagOf c m m h s
    .ok (⟨none, some t⟩, ts)
  | ts => .ok ({}, ts)

namespace Properties

/-- There is something in front of the node. -/
def isPresent (p : Properties) : Bool :=
  p.anchor.isSome || p.tag.isSome

/-- The tag that is written on a node; a lone exclamation mark says that there is none. -/
def nodeTag (p : Properties) : Option String :=
  if p.tag == some "!" then none else p.tag

/-- A scalar is what its text says: it has no quotes and no tag, or a lone exclamation
mark. -/
def isPlain (p : Properties) (unquoted : Bool) : Bool :=
  (unquoted && p.tag.isNone) || p.tag == some "!"

/-- The kind of what has no tag of its own. -/
def formOf (p : Properties) (unquoted : Bool) : Content → Kind
  | .scalar text => if p.isPlain unquoted then Kind.ofPlain text else .text
  | .sequence _ => .sequence
  | .mapping _ => .mapping

/-- A node begins: it has its number, and aliases may name it. No anchor is set twice. -/
def opened (p : Properties) (start : Mark) (unquoted : Bool) (content : Content)
    (c : Context) :
    Except Fault (Nat × Context) :=
  let n : Node := ⟨start, p.nodeTag.getD (p.formOf unquoted content).tag, content⟩
  let (number, added) := c.add n
  match p.anchor with
  | none => .ok (number, added)
  | some a =>
    match (c.anchors.lookup a).bind fun known => c.nodes[known]? with
    | some known =>
      .error (.syntaxError (.within ("found duplicate anchor " ++ Text.quoted a ++
        "; first occurrence") known.start "second occurrence" start))
    | none => .ok (number, { added with anchors := (a, number) :: c.anchors })

end Properties

/-! ## Nodes -/

/-- Where a node stands: in a block, as the value or key of a block mapping, or among
brackets. -/
inductive Place where
  | block
  | entry
  | flow
deriving DecidableEq

/-- What a complaint calls a place. -/
def Place.context : Place → String
  | .flow => "while parsing a flow node"
  | _ => "while parsing a block node"

/-- A token before which the entry of a block sequence is empty. -/
def endsBlockEntry (indentless : Bool) : Token → Bool
  | .blockEntry => true
  | .blockEnd => true
  | .key => indentless
  | .value => indentless
  | _ => false

/-- A token before which a key or a value of a block mapping is empty. -/
def endsBlockPart : Token → Bool
  | .key => true
  | .value => true
  | .blockEnd => true
  | _ => false

/-- A token before which a value of a pair among brackets is empty. -/
def endsFlowValue (closing : Token) : Token → Bool
  | .flowEntry => true
  | t => t == closing

/-- A token before which a key of a pair among brackets is empty. -/
def endsFlowKey (closing : Token) : Token → Bool
  | .value => true
  | t => endsFlowValue closing t

/-- A node of which nothing is written but what stands in front of it. -/
def bare (spot : Place) (p : Properties) (start : Mark) (ts : List Placed) (c : Context) :
    Except Fault (Reading Nat) :=
  match next ts with
  | .fault f => .error f
  | _ =>
    if p.isPresent then do
      let (n, c) ← p.opened start true (.scalar "") c
      .ok (n, ts, c)
    else
      .error
        (unexpected (some (spot.context, start)) "expected the node content, but found" ts)

/-- Nothing stands where a node may stand. -/
def absent (start : Mark) (ts : List Placed) (c : Context) : Reading Nat :=
  let (n, c) := c.addEmpty start
  (n, ts, c)

mutual

/-- Reads a node. -/
def read (spot : Place) : Nat → List Placed → Context → Except Fault (Reading Nat)
  | 0, ts, _ => .error (unexpected none "unexpected" ts)
  | _ + 1, (.alias a, m) :: ts, c =>
    match c.anchors.lookup a with
    | some n => .ok (n, ts, c)
    | none => .error (.syntaxError (.here ("found undefined alias " ++ Text.quoted a) m))
  | fuel + 1, ts, c => do
    let start := place ts
    let (p, ts) ← properties c ts
    match ts with
    | (.scalar unquoted text, _) :: ts => do
      let (n, c) ← p.opened start unquoted (.scalar text) c
      .ok (n, ts, c)
    | (.openSequence, m) :: ts => do
      let (n, c) ← p.opened start false (.sequence []) c
      let (xs, ts, c) ← flowItems m true fuel ts c
      .ok (n, ts, c.fill n (.sequence xs))
    | (.openMapping, m) :: ts => do
      let (n, c) ← p.opened start false (.mapping []) c
      let (es, ts, c) ← flowEntries m true fuel ts c
      .ok (n, ts, c.fill n (.mapping es))
    | (.blockEntry, _) :: _ =>
      if spot == .entry then do
        let (n, c) ← p.opened start false (.sequence []) c
        let (xs, ts, c) ← blockItems none fuel ts c
        .ok (n, ts, c.fill n (.sequence xs))
      else bare spot p start ts c
    | (.blockSequence, m) :: rest =>
      if spot == .flow then bare spot p start ts c
      else do
        let (n, c) ← p.opened start false (.sequence []) c
        let (xs, ts, c) ← blockItems (some m) fuel rest c
        .ok (n, ts, c.fill n (.sequence xs))
    | (.blockMapping, m) :: rest =>
      if spot == .flow then bare spot p start ts c
      else do
        let (n, c) ← p.opened start false (.mapping []) c
        let (es, ts, c) ← blockEntries m fuel rest c
        .ok (n, ts, c.fill n (.mapping es))
    | _ => bare spot p start ts c

/-- Reads the items of a block sequence, which begins at a mark. One that is not indented ends
where its entries end. -/
def blockItems (start : Option Mark) :
    Nat → List Placed → Context → Except Fault (Reading (List Nat))
  | 0, ts, _ => .error (unexpected none "unexpected" ts)
  | fuel + 1, (.blockEntry, m) :: ts, c => do
    let (x, ts, c) ←
      if endsBlockEntry start.isNone (next ts) then .ok (absent m.behind ts c)
      else read .block fuel ts c
    let (xs, ts, c) ← blockItems start fuel ts c
    .ok (x :: xs, ts, c)
  | _ + 1, ts, c =>
    match start, ts with
    | none, ts => .ok ([], ts, c)
    | some _, (.blockEnd, _) :: ts => .ok ([], ts, c)
    | some m, ts =>
      .error (unexpected (some ("while parsing a block collection", m))
        "expected <block end>, but found" ts)

/-- Reads the entries of a block mapping, which begins at a mark. -/
def blockEntries (start : Mark) :
    Nat → List Placed → Context → Except Fault (Reading (List (Nat × Nat)))
  | 0, ts, _ => .error (unexpected none "unexpected" ts)
  | fuel + 1, (.key, m) :: ts, c => do
    let (k, ts, c) ←
      if endsBlockPart (next ts) then .ok (absent m.behind ts c) else read .entry fuel ts c
    let (v, ts, c) ← match ts with
      | (.value, m) :: ts =>
        if endsBlockPart (next ts) then .ok (absent m.behind ts c) else read .entry fuel ts c
      | ts => .ok (absent (place ts) ts c)
    let (es, ts, c) ← blockEntries start fuel ts c
    .ok ((k, v) :: es, ts, c)
  | _ + 1, (.blockEnd, _) :: ts, c => .ok ([], ts, c)
  | _ + 1, ts, _ =>
    .error (unexpected (some ("while parsing a block mapping", start))
      "expected <block end>, but found" ts)

/-- Reads a pair among brackets behind the sign of its key, which stands at a mark. -/
def flowPair (closing : Token) (sign : Mark) :
    Nat → List Placed → Context → Except Fault (Reading (Nat × Nat))
  | 0, ts, _ => .error (unexpected none "unexpected" ts)
  | fuel + 1, ts, c => do
    let (k, ts, c) ←
      if endsFlowKey closing (next ts) then .ok (absent sign.behind ts c)
      else read .flow fuel ts c
    let (v, ts, c) ← match ts with
      | (.value, m) :: ts =>
        if endsFlowValue closing (next ts) then .ok (absent m.behind ts c)
        else read .flow fuel ts c
      | ts => .ok (absent (place ts) ts c)
    .ok ((k, v), ts, c)

/-- Reads the items of a sequence among brackets, which begins at a mark. An item with a colon
is a mapping of one entry. -/
def flowItems (start : Mark) (first : Bool) :
    Nat → List Placed → Context → Except Fault (Reading (List Nat))
  | 0, ts, _ => .error (unexpected none "unexpected" ts)
  | _ + 1, (.closeSequence, _) :: ts, c => .ok ([], ts, c)
  | fuel + 1, ts, c => do
    let ts ← match first, ts with
      | true, ts => .ok ts
      | false, (.flowEntry, _) :: ts => .ok ts
      | false, ts =>
        .error (unexpected (some ("while parsing a flow sequence", start))
          "expected ',' or ']', but got" ts)
    match ts with
    | (.closeSequence, _) :: ts => .ok ([], ts, c)
    | (.key, m) :: ts => do
      let (e, ts, c) ← flowPair .closeSequence m fuel ts c
      let (x, c) := c.add ⟨m, Kind.mapping.tag, .mapping [e]⟩
      let (xs, ts, c) ← flowItems start false fuel ts c
      .ok (x :: xs, ts, c)
    | ts => do
      let (x, ts, c) ← read .flow fuel ts c
      let (xs, ts, c) ← flowItems start false fuel ts c
      .ok (x :: xs, ts, c)

/-- Reads the entries of a mapping among brackets, which begins at a mark. What has no colon
is a key without a value. -/
def flowEntries (start : Mark) (first : Bool) :
    Nat → List Placed → Context → Except Fault (Reading (List (Nat × Nat)))
  | 0, ts, _ => .error (unexpected none "unexpected" ts)
  | _ + 1, (.closeMapping, _) :: ts, c => .ok ([], ts, c)
  | fuel + 1, ts, c => do
    let ts ← match first, ts with
      | true, ts => .ok ts
      | false, (.flowEntry, _) :: ts => .ok ts
      | false, ts =>
        .error (unexpected (some ("while parsing a flow mapping", start))
          "expected ',' or '\x7d', but got" ts)
    match ts with
    | (.closeMapping, _) :: ts => .ok ([], ts, c)
    | (.key, m) :: ts => do
      let (e, ts, c) ← flowPair .closeMapping m fuel ts c
      let (es, ts, c) ← flowEntries start false fuel ts c
      .ok (e :: es, ts, c)
    | ts => do
      let (k, ts, c) ← read .flow fuel ts c
      let (v, c) := c.addEmpty (place ts)
      let (es, ts, c) ← flowEntries start false fuel ts c
      .ok ((k, v) :: es, ts, c)

end

/-! ## Documents -/

/-- Reads the directives in front of a document. -/
def directives (versioned : Bool) (handles : List (String × String)) :
    List Placed → Except Fault (List (String × String) × List Placed)
  | (.version major, m) :: ts =>
    if versioned then .error (.syntaxError (.here "found duplicate YAML directive" m))
    else if major != 1 then
      .error
        (.syntaxError (.here "found incompatible YAML document (version 1.* is required)" m))
    else directives true handles ts
  | (.handle h stem, m) :: ts =>
    if (handles.lookup h).isSome then
      .error (.syntaxError (.here ("duplicate tag handle " ++ Text.quoted h) m))
    else directives versioned ((h, stem) :: handles) ts
  | (.directive, _) :: ts => directives versioned handles ts
  | ts => .ok (handles ++ standardHandles, ts)

/-- What a document declares, and the tokens behind the mark of its start. -/
def opening (ts : List Placed) : Except Fault (List (String × String) × List Placed) := do
  let (handles, ts) ← directives false [] ts
  match ts with
  | (.documentStart, _) :: ts => .ok (handles, ts)
  | ts => .error (unexpected none "expected '<document start>', but found" ts)

/-- A document without a mark of its start begins with its node. -/
def isMarked : Token → Bool
  | .version _ => true
  | .handle _ _ => true
  | .directive => true
  | .documentStart => true
  | .textEnd => true
  | _ => false

/-- A document with a mark of its start may be empty. -/
def isEmptyContent : Token → Bool
  | .documentEnd => true
  | t => isMarked t

/-- Leaves out the marks of the end of a document. -/
def behindEnds : List Placed → List Placed
  | (.documentEnd, _) :: ts => behindEnds ts
  | ts => ts

/-- Nothing may follow a document but marks of its end. -/
def alone (d : Document) (ts : List Placed) : Except Fault Document :=
  match behindEnds ts with
  | (.textEnd, _) :: _ => .ok d
  | [] => .ok d
  | ts => do
    let _ ← opening ts
    let start := ((d.nodes[d.root]?).map Node.start).getD ⟨0, 0⟩
    .error (.syntaxError (.within "expected a single document in the stream" start
      "but found another document" (place ts)))

/-- A node in a block, and nothing behind it. -/
def whole (handles : List (String × String)) (ts : List Placed) : Except Fault Document := do
  let (n, rest, c) ← read .block (2 * ts.length + 2) ts { handles }
  alone ⟨c.nodes, n⟩ rest

/-- A document of which nothing is written. -/
def blank (ts : List Placed) : Except Fault Document :=
  let (n, _, c) := absent (place ts) ts { handles := [] }
  alone ⟨c.nodes, n⟩ ts

end Node

namespace Document

open Node (next isMarked opening isEmptyContent blank whole standardHandles)

/-- The only document among the tokens, if there is one. -/
def ofTokens (ts : List Placed) : Except Fault (Option Document) :=
  match next ts with
  | .textEnd => .ok none
  | t =>
    if isMarked t then do
      let (handles, ts) ← opening ts
      let d ← if isEmptyContent (next ts) then blank ts else whole handles ts
      .ok (some d)
    else do
      let d ← whole standardHandles ts
      .ok (some d)

/-- The only document of a text, if there is one. -/
def ofText (text : String) : Except Fault (Option Document) :=
  ofTokens (Token.scan text)

end Document

end Schemata.Yaml
