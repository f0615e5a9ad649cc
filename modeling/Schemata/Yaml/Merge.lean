/-
Merging mappings into mappings.

A mapping takes in the entries of the mappings that its merge keys name; they come before its
own, so that its own win, and of several merged mappings the first one wins. A merged mapping
takes in its own merges before it is merged. Merging changes the nodes for good: a merge key
is gone once it has been followed, which is also why a mapping may merge itself, and the key
of a default value has become a text.
-/
import Schemata.Yaml.Node

namespace Schemata.Yaml.Merge

/-- The nodes of a document by number. -/
abbrev Nodes := Array Node

/-- The kind of a node. -/
def kindAt (ns : Nodes) (n : Nat) : Kind :=
  ((ns[n]?).map Node.kind).getD .unknown

/-- The entries of a node that is a mapping. -/
def entriesAt (ns : Nodes) (n : Nat) : List (Nat × Nat) :=
  ((ns[n]?).map fun node => node.content.entries).getD []

/-- Gives a mapping other entries. -/
def setEntries (ns : Nodes) (n : Nat) (es : List (Nat × Nat)) : Nodes :=
  ns.modify n fun node => { node with content := .mapping es }

/-- The key of a default value stands for itself in a mapping. -/
def nameDefault (ns : Nodes) (e : Nat × Nat) : Nodes :=
  if kindAt ns e.1 == .default then
    ns.modify e.1 fun node => { node with tag := Kind.text.tag }
  else ns

/-- The entries before the first merge key, its value, and the entries behind it. -/
def cut (ns : Nodes) : List (Nat × Nat) → List (Nat × Nat) × Option (Nat × List (Nat × Nat))
  | [] => ([], none)
  | (k, v) :: es =>
    if kindAt ns k == .merge then ([], some (v, es))
    else
      let (before, found) := cut ns es
      ((k, v) :: before, found)

/-- How many merge keys there are. Each is followed once, so that this bounds the merging. -/
def count (ns : Nodes) : Nat :=
  (ns.toList.flatMap fun node => node.content.entries).countP fun e => kindAt ns e.1 == .merge

/-- A node cannot be merged into the mapping of a number. -/
def refused (ns : Nodes) (into node : Nat) (what : String) : Fault :=
  let start (n : Nat) : Mark := ((ns[n]?).map Node.start).getD ⟨0, 0⟩
  let shown := ((ns[node]?).map fun n => n.content.shown).getD ""
  .syntaxError (.within "while constructing a mapping" (start into)
    ("expected a mapping " ++ what ++ "for merging, but found " ++ shown) (start node))

mutual

/-- Follows the merge keys among the entries of a mapping from a place on. `merged` are the
entries that it has taken in so far. -/
def follow : Nat → Nodes → Nat → Nat → List (Nat × Nat) → Except Fault Nodes
  | 0, ns, _, _, _ => .ok ns
  | fuel + 1, ns, n, place, merged =>
    let es := entriesAt ns n
    let (before, found) := cut ns (es.drop place)
    let ns := before.foldl nameDefault ns
    match found with
    | none => .ok (if merged.isEmpty then ns else setEntries ns n (merged ++ es))
    | some (v, behind) => do
      let ns := setEntries ns n (es.take place ++ before ++ behind)
      let (taken, ns) ← entriesOf fuel ns n v
      follow fuel ns n (place + before.length) (merged ++ taken)

/-- The entries that the value of a merge key gives to the mapping of a number. -/
def entriesOf : Nat → Nodes → Nat → Nat → Except Fault (List (Nat × Nat) × Nodes)
  | 0, ns, _, _ => .ok ([], ns)
  | fuel + 1, ns, into, v =>
    match (ns[v]?).map Node.content with
    | some (.mapping _) => do
      let ns ← follow fuel ns v 0 []
      .ok (entriesAt ns v, ns)
    | some (.sequence xs) => do
      let (parts, ns) ← partsOf fuel ns into xs
      .ok (parts.reverse.flatten, ns)
    | _ => .error (refused ns into v "or list of mappings ")

/-- The entries that each item of a sequence gives, every one of which must be a mapping. -/
def partsOf : Nat → Nodes → Nat → List Nat → Except Fault (List (List (Nat × Nat)) × Nodes)
  | _, ns, _, [] => .ok ([], ns)
  | 0, ns, _, _ => .ok ([], ns)
  | fuel + 1, ns, into, x :: xs =>
    match (ns[x]?).map Node.content with
    | some (.mapping _) => do
      let ns ← follow fuel ns x 0 []
      let part := entriesAt ns x
      let (parts, ns) ← partsOf fuel ns into xs
      .ok (part :: parts, ns)
    | _ => .error (refused ns into x "")

end

/-- The steps that following every merge key may take. -/
def steps (ns : Nodes) : Nat :=
  let longest := (ns.toList.map fun node => node.content.items.length).foldl max 0
  (count ns + 1) * (longest + 3)

/-- The nodes after a mapping has taken in all that it merges. -/
def flatten (ns : Nodes) (n : Nat) : Except Fault Nodes :=
  follow (steps ns) ns n 0 []

end Schemata.Yaml.Merge
