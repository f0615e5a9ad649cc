/-
Data whose shape is not known beforehand: the nodes of an introspection tree, the defaults of
columns, the contents of description files.

Besides the plain data of such files a value may be one of the few constants that the tree
builders produce (a generated default, a referential action, a dialect), a type with
parameters, or a record, which is a built part of a table seen as data. A type that is only a
name is a text: use `FieldType.toValue` to turn a type into a value, so that there is one form
of each.

A description file may hold a list or a mapping that holds itself. Such data have no end, so
the place where a value comes back to what it is in is a `loop`: all else of it can be read as
usual.

A double that is no number is equal to nothing but itself, wherever it has been handed on to.
So it is a value apart, `nan`, with a mark of where it came from, and readers of numbers make
it by `ofFloat`.

`same` is equality as the data means it, not identity of form: whole numbers, decimals and
truth values are compared by number, a constant equals its word, and the entries of a mapping
have no order. Every value is the same as itself. Merging, lookups and the comparison of
schemas all go through it.
-/
import Schemata.Calendar
import Schemata.Decimal.Binary
import Schemata.Dialect
import Schemata.FieldType
import Schemata.ReferentialAction
import Schemata.SqlDefault

namespace Schemata

/-- Data of any shape. -/
inductive Value where
  | null
  | bool (b : Bool)
  | int (n : Int)
  | float (x : Float)
  /-- A double that is no number; the origin tells those apart that were read in different
  places. -/
  | nan (origin : Nat)
  | text (s : String)
  | generated (d : SqlDefault)
  | action (a : ReferentialAction)
  | dialect (d : Dialect)
  | type (t : FieldType)
  | date (d : Date)
  | moment (m : Moment)
  | bytes (bs : List UInt8)
  /-- A list, or else a mapping, that the value is in. -/
  | loop (isList : Bool)
  | list (items : List Value)
  | tuple (items : List Value)
  | set (members : List Value)
  | dict (entries : List (Value × Value))
  | record (kind : String) (fields : List (String × Value))
deriving Repr, Inhabited

/-- The value of a type: a bare name is a text. -/
def FieldType.toValue : FieldType → Value
  | .named n => .text n
  | t => .type t

namespace Value

/-- The text of a value, if it is a text or a constant that stands for a word. -/
def word? : Value → Option String
  | .text s => some s
  | .generated d => some d.word
  | .action a => some a.word
  | .dialect d => some d.word
  | _ => none

/-- The value of a double; the origin matters if it is no number. -/
def ofFloat (origin : Nat) (x : Float) : Value :=
  if x.isNaN then .nan origin else .float x

/-- The double of a value that is one. -/
def float? : Value → Option Float
  | .float x => some x
  | .nan _ => some (0.0 / 0.0)
  | _ => none

/-- The number of a whole-number value; a truth value counts as zero or one. -/
def int? : Value → Option Int
  | .int n => some n
  | .bool b => some (if b then 1 else 0)
  | _ => none

/-- A whole number and a double are the same number, exactly. -/
def sameIntFloat (n : Int) (x : Float) : Bool :=
  let f := Float.ofInt n
  f == x && !x.isInf && exactInt f == n
where
  /-- The whole number that a whole double denotes. -/
  exactInt (f : Float) : Int :=
    let x := Decimal.Binary.ofBits (Decimal.magnitudeBits f)
    let magnitude := x.m * Decimal.twoTo x.q.toNat / Decimal.twoTo (-x.q).toNat
    if Decimal.isNegative f then -(magnitude : Int) else (magnitude : Int)

/-- Equality of two values neither of which holds other values. -/
def sameLeaf (a b : Value) : Bool :=
  match a.word?, b.word? with
  | some s, some t => s == t
  | _, _ =>
    match a.int?, b.int? with
    | some m, some n => m == n
    | some m, none => match b with
      | .float y => sameIntFloat m y
      | _ => false
    | none, some n => match a with
      | .float x => sameIntFloat n x
      | _ => false
    | none, none =>
      match a, b with
      | .null, .null => true
      | .float x, .float y => x == y || (x.isNaN && y.isNaN)
      | .nan m, .nan n => m == n
      | .type s, .type t => s == t
      | .date s, .date t => s == t
      | .moment s, .moment t => s.same t
      | .bytes s, .bytes t => s == t
      | _, _ => false

mutual

/-- Equality as the data means it. -/
def same : Value → Value → Bool
  | .list xs, .list ys => sameItems xs ys
  | .tuple xs, .tuple ys => sameItems xs ys
  | .set xs, .set ys => xs.length == ys.length && sameMembers xs ys
  | .dict es, .dict fs => es.length == fs.length && sameEntries es fs
  | .record k es, .record l fs => k == l && sameFields es fs
  | a, b => sameLeaf a b

/-- Equality item by item. -/
def sameItems : List Value → List Value → Bool
  | [], [] => true
  | x :: xs, y :: ys => same x y && sameItems xs ys
  | _, _ => false

/-- Every member has its like in the other set. -/
def sameMembers : List Value → List Value → Bool
  | [], _ => true
  | x :: xs, ys => (ys.any fun y => same x y) && sameMembers xs ys

/-- Every entry has its like in the other mapping. -/
def sameEntries : List (Value × Value) → List (Value × Value) → Bool
  | [], _ => true
  | (k, v) :: es, fs => (fs.any fun e => same k e.1 && same v e.2) && sameEntries es fs

/-- Equality attribute by attribute. -/
def sameFields : List (String × Value) → List (String × Value) → Bool
  | [], [] => true
  | (k, v) :: es, (l, w) :: fs => k == l && same v w && sameFields es fs
  | _, _ => false

end

/-- A value that counts as present: not null, false, zero, or empty. -/
def isTruthy : Value → Bool
  | .null => false
  | .bool b => b
  | .int n => n != 0
  | .float x => x != 0
  | .text s => !s.isEmpty
  | .bytes bs => !bs.isEmpty
  | .list xs => !xs.isEmpty
  | .tuple xs => !xs.isEmpty
  | .set xs => !xs.isEmpty
  | .dict es => !es.isEmpty
  | _ => true

mutual

/-- The value holds a list or a mapping that holds itself. -/
def isEndless : Value → Bool
  | .loop _ => true
  | .list xs => anyEndless xs
  | .tuple xs => anyEndless xs
  | .dict es => anyEndlessEntry es
  | .record _ fs => anyEndlessField fs
  | _ => false

/-- Some item has no end. -/
def anyEndless : List Value → Bool
  | [] => false
  | x :: xs => isEndless x || anyEndless xs

/-- Some value of a mapping has no end. -/
def anyEndlessEntry : List (Value × Value) → Bool
  | [] => false
  | (_, v) :: es => isEndless v || anyEndlessEntry es

/-- Some attribute has no end. -/
def anyEndlessField : List (String × Value) → Bool
  | [] => false
  | (_, v) :: fs => isEndless v || anyEndlessField fs

end

/-- The value, or another one where it does not count as present. -/
def orElse (a b : Value) : Value :=
  if a.isTruthy then a else b

mutual

/-- A value that may be a key of a mapping: one that holds nothing that can change. -/
def isKey : Value → Bool
  | .list _ => false
  | .set _ => false
  | .dict _ => false
  | .loop _ => false
  | .record _ _ => false
  | .type t => keyType t
  | .tuple xs => areKeys xs
  | _ => true
where
  /-- A type without a list of values in it. -/
  keyType : FieldType → Bool
    | .named _ => true
    | .array t => keyType t
    | .enum _ => false

/-- Every item may be a key. -/
def areKeys : List Value → Bool
  | [] => true
  | x :: xs => isKey x && areKeys xs

end

/-! ## Entries of a mapping -/

/-- The value of a key. -/
def find? (entries : List (Value × Value)) (key : Value) : Option Value :=
  (entries.find? fun e => e.1.same key).map (·.2)

/-- The value of a text key. -/
def get? (entries : List (Value × Value)) (key : String) : Option Value :=
  find? entries (.text key)

/-- The value of a text key, or null. -/
def getD (entries : List (Value × Value)) (key : String) : Value :=
  (get? entries key).getD .null

/-- Sets the value of a key: a present key keeps its place, a new one goes to the end. -/
def put (entries : List (Value × Value)) (key value : Value) : List (Value × Value) :=
  match entries with
  | [] => [(key, value)]
  | (k, v) :: rest => if k.same key then (k, value) :: rest else (k, v) :: put rest key value

/-- A mapping from pairs in order; the last value of a key wins, at the key's first place. -/
def ofPairs (pairs : List (Value × Value)) : List (Value × Value) :=
  pairs.foldl (fun es p => put es p.1 p.2) []

/-- Leaves out a text key. -/
def drop (entries : List (Value × Value)) (key : String) : List (Value × Value) :=
  entries.filter fun e => !e.1.same (.text key)

/-- A pair of a text and a payload: the tagged nodes of a tree. -/
def tagged? : Value → Option (String × Value)
  | .tuple [t, payload] => t.word?.map fun tag => (tag, payload)
  | _ => none

/-- Pairs a payload with a tag. -/
def tagged (tag : String) (payload : Value) : Value :=
  .tuple [.text tag, payload]

end Value

end Schemata
