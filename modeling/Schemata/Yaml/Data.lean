/-
From the nodes of a document to data.

A scalar becomes what its kind says, a sequence a list, a mapping a mapping; a key must be
something that cannot change. What is made of a node is made once, however often the node is
named.

The making goes level by level. A collection is there as soon as its node is met, and what it
holds is made when all that was met before it is done; so among several faults the one that is
least deep is reported, and on one level the first. `Making` holds the level that is being
made. At the end `Making.value` puts the data together. Where a collection comes again inside
itself a loop stands.
-/
import Schemata.Yaml.Merge
import Schemata.Yaml.Scalar

namespace Schemata.Yaml

/-- What has been made of a node. Collections hold numbers of nodes. -/
inductive Made where
  | leaf (v : Value)
  | list (items : List Nat)
  /-- A list of pairs. -/
  | pairs (entries : List (Nat × Nat))
  | mapping (entries : List (Nat × Nat))
  | set (members : List Nat)
deriving Inhabited

/-- The making of data. -/
structure Making where
  nodes : Array Node
  /-- What has been made, by the numbers of the nodes. -/
  made : Array (Option Made)
  /-- The collections whose items have yet to be made, in order. -/
  waiting : List Nat := []

namespace Making

/-- Nothing has been made of the nodes of a document. -/
def ofNodes (nodes : Array Node) : Making where
  nodes := nodes
  made := Array.replicate nodes.size none

/-- What has been made of a node. -/
def madeAt (m : Making) (n : Nat) : Option Made :=
  (m.made[n]?).join

/-- Notes what a node has become. -/
def set (m : Making) (n : Nat) (x : Made) : Making :=
  { m with made := m.made.setIfInBounds n (some x) }

/-- The place where a node begins. -/
def startAt (m : Making) (n : Nat) : Mark :=
  ((m.nodes[n]?).map Node.start).getD ⟨0, 0⟩

/-! ## Complaints -/

/-- A complaint about a node. -/
def complain (m : Making) (n : Nat) (what : String) : Fault :=
  .syntaxError (.here what (m.startAt n))

/-- What a complaint calls the node of a number. -/
def shownAt (m : Making) (n : Nat) : String :=
  ((m.nodes[n]?).map fun node => node.content.shown).getD ""

/-- Nothing can be made of a tag. -/
def unknownTag (m : Making) (n : Nat) : Fault :=
  let tag := ((m.nodes[n]?).map Node.tag).getD ""
  m.complain n ("could not determine a constructor for the tag " ++ Text.quoted tag)

/-- A node has another form than its kind. -/
def wrongForm (m : Making) (n : Nat) (expected : String) : Fault :=
  m.complain n ("expected a " ++ expected ++ " node, but found " ++ m.shownAt n)

/-- A key that can change. -/
def unusableKey (m : Making) (n key : Nat) : Fault :=
  .syntaxError (.within "while constructing a mapping" (m.startAt n) "found unhashable key"
    (m.startAt key))

/-! ## Scalars -/

/-- The text of a scalar. A mapping with the key of a default value stands for the scalar at
that key; the fuel bounds how often. -/
def textAt (m : Making) : Nat → Nat → Except Fault String
  | 0, _ => .error .endless
  | fuel + 1, n =>
    match (m.nodes[n]?).map Node.content with
    | some (.scalar s) => .ok s
    | some (.mapping es) =>
      match es.find? fun e => Merge.kindAt m.nodes e.1 == .default with
      | some (_, v) => m.textAt fuel v
      | none => .error (m.wrongForm n "scalar")
    | _ => .error (m.wrongForm n "scalar")

/-- The day or the moment of a node; the form is that of the node itself. -/
def momentAt (m : Making) (n : Nat) : Except Fault Value :=
  match (m.nodes[n]?).map Node.content with
  | some (.scalar s) =>
    match Stamp.ofText? s with
    | some stamp => stamp.toValue
    | none => .error .noAttribute
  | _ => .error .wrongKind

/-- The bytes of a text. -/
def bytesOf (m : Making) (n : Nat) (s : String) : Except Fault Value :=
  match Text.Encoding.asciiReport? s.toList with
  | some r => .error (m.complain n ("failed to convert base64 data into ascii: " ++ r))
  | none =>
    match Text.Base64.decode s.toList with
    | .ok bs => .ok (.bytes bs)
    | .error f => .error (m.complain n ("failed to decode base64 data: " ++ f.message))

/-- The data of a node of a kind that holds nothing. -/
def leafOf (m : Making) (n : Nat) (k : Kind) : Except Fault Value := do
  let s ← m.textAt (m.nodes.size + 1) n
  match k with
  | .null => .ok .null
  | .bool =>
    match Scalar.truth? s with
    | some b => .ok (.bool b)
    | none => .error .missingKey
  | .int => .int <$> Scalar.intOf s
  | .float => do
    let x ← Scalar.floatOf s
    .ok (.ofFloat (if Scalar.isCommonNaN s then 0 else n + 1) x)
  | .bytes => m.bytesOf n s
  | .moment => m.momentAt n
  | _ => .ok (.text s)

/-! ## Collections -/

/-- A collection that holds nothing yet. -/
def empty? : Kind → Option Made
  | .sequence => some (.list [])
  | .mapping => some (.mapping [])
  | .set => some (.set [])
  | .orderedMap => some (.pairs [])
  | .pairs => some (.pairs [])
  | _ => none

/-- A node of this kind holds nothing. -/
def isLeaf : Kind → Bool
  | .null => true
  | .bool => true
  | .int => true
  | .float => true
  | .bytes => true
  | .moment => true
  | .text => true
  | _ => false

/-- Meets a node: a scalar is made at once, a collection has to wait. -/
def meet (m : Making) (n : Nat) : Except Fault Making :=
  if (m.madeAt n).isSome then .ok m
  else
    let k := Merge.kindAt m.nodes n
    match empty? k with
    | some x => .ok { m.set n x with waiting := m.waiting ++ [n] }
    | none =>
      if isLeaf k then do
        let v ← m.leafOf n k
        .ok (m.set n (.leaf v))
      else .error (m.unknownTag n)

/-- Meets nodes in order. -/
def meetAll (m : Making) : List Nat → Except Fault Making
  | [] => .ok m
  | n :: ns => do
    let m ← m.meet n
    m.meetAll ns

/-- The key that has been made of a node, if it can be one. -/
def key? (m : Making) (n : Nat) : Option Value :=
  match m.madeAt n with
  | some (.leaf v) => some v
  | _ => none

/-- Two nodes are one key. -/
def isSameKey (m : Making) (k l : Nat) : Bool :=
  match m.key? k, m.key? l with
  | some v, some w => v.same w
  | _, _ => false

/-- Puts an entry: a present key keeps its place, a new one goes to the end. -/
def putEntry (m : Making) (k v : Nat) : List (Nat × Nat) → List (Nat × Nat)
  | [] => [(k, v)]
  | (l, w) :: es => if m.isSameKey l k then (l, v) :: es else (l, w) :: m.putEntry k v es

/-- Meets the entries of the mapping of a number, and collects them behind those in front. -/
def collect (n : Nat) : Making → List (Nat × Nat) → List (Nat × Nat) →
    Except Fault (List (Nat × Nat) × Making)
  | m, es, [] => .ok (es, m)
  | m, es, (k, v) :: rest => do
    let m ← m.meet k
    if (m.key? k).isNone then .error (m.unusableKey n k)
    else
      let m ← m.meet v
      collect n m (m.putEntry k v es) rest

/-- The entries of a node that must be a mapping, after its merges. -/
def entries (m : Making) (n : Nat) : Except Fault (List (Nat × Nat) × Making) :=
  match (m.nodes[n]?).map Node.content with
  | some (.mapping _) => do
    let nodes ← Merge.flatten m.nodes n
    collect n { m with nodes } [] (Merge.entriesAt nodes n)
  | _ => .error (m.wrongForm n "mapping")

/-- Meets the only entry of each item; `start` and `what` say what is being made of the
items. -/
def collectPairs (start : Mark) (what : String) : Making → List Nat →
    Except Fault (List (Nat × Nat) × Making)
  | m, [] => .ok ([], m)
  | m, x :: xs =>
    match (m.nodes[x]?).map Node.content with
    | some (.mapping [(k, v)]) => do
      let m ← m.meet k
      let m ← m.meet v
      let (rest, m) ← collectPairs start what m xs
      .ok ((k, v) :: rest, m)
    | some (.mapping es) =>
      .error (.syntaxError (.within what start
        ("expected a single mapping item, but found " ++ toString es.length ++ " items")
        (m.startAt x)))
    | _ =>
      .error (.syntaxError (.within what start
        ("expected a mapping of length 1, but found " ++ m.shownAt x) (m.startAt x)))

/-- The pairs of a node that must be a sequence of mappings with one entry each. -/
def pairs (m : Making) (n : Nat) (what : String) : Except Fault (List (Nat × Nat) × Making) :=
  match (m.nodes[n]?).map Node.content with
  | some (.sequence xs) => collectPairs (m.startAt n) what m xs
  | _ =>
    .error (.syntaxError (.within what (m.startAt n)
      ("expected a sequence, but found " ++ m.shownAt n) (m.startAt n)))

/-- Makes what a collection holds. -/
def fill (m : Making) (n : Nat) : Except Fault Making :=
  match Merge.kindAt m.nodes n with
  | .mapping => do
    let (es, m) ← m.entries n
    .ok (m.set n (.mapping es))
  | .set => do
    let (es, m) ← m.entries n
    .ok (m.set n (.set (es.map (·.1))))
  | .orderedMap => do
    let (es, m) ← m.pairs n "while constructing an ordered map"
    .ok (m.set n (.pairs es))
  | .pairs => do
    let (es, m) ← m.pairs n "while constructing pairs"
    .ok (m.set n (.pairs es))
  | _ =>
    match (m.nodes[n]?).map Node.content with
    | some (.sequence xs) => do
      let m ← m.meetAll xs
      .ok (m.set n (.list xs))
    | _ => .error (m.wrongForm n "sequence")

/-- Makes what the waiting collections hold, until none waits. Each waits once, so that the
number of the nodes bounds the steps. -/
def finish : Nat → Making → Except Fault Making
  | 0, m => .ok m
  | fuel + 1, m =>
    match m.waiting with
    | [] => .ok m
    | n :: rest => do
      let m ← fill { m with waiting := rest } n
      finish fuel m

/-! ## Putting together -/

/-- The data of a node inside the given nodes, none of which comes again. -/
def value (m : Making) : Nat → List Nat → Nat → Value
  | 0, _, _ => .null
  | fuel + 1, around, n =>
    let inner (k : Nat) : Value := m.value fuel (n :: around) k
    match m.madeAt n with
    | none => .null
    | some (.leaf v) => v
    | some (.list xs) =>
      if around.contains n then .loop true else .list (xs.map inner)
    | some (.pairs es) =>
      if around.contains n then .loop true
      else .list (es.map fun e => .tuple [inner e.1, inner e.2])
    | some (.mapping es) =>
      if around.contains n then .loop false
      else .dict (es.map fun e => (inner e.1, inner e.2))
    | some (.set xs) => .set (xs.map inner)

end Making

namespace Document

/-- The data of a document. -/
def data (d : Document) : Except Fault Value := do
  let m ← (Making.ofNodes d.nodes).meet d.root
  let m ← Making.finish d.nodes.size m
  .ok (m.value (d.nodes.size + 1) [] d.root)

end Document

/-- The data of the only document of a text; a text without a document holds nothing. -/
def load (text : String) : Except Fault Value := do
  match ← Document.ofText text with
  | none => .ok .null
  | some d => d.data

end Schemata.Yaml
