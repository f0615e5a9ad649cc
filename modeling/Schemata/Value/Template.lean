/-
Texts with places for values.

A place begins with a percent sign. It may name an entry of a mapping, and it may ask for a
sign, a least width, a number of digits, and zeros or blanks to fill with; its last letter
says how the value is written. Values are taken in order, one for each place and for each
asterisk, and every value has to be used. A text without values is not looked into at all.

A text is first cut into pieces, of which the last one may be malformed, and then the pieces
are filled one after the other: what is wrong first is reported.
-/
import Schemata.Decimal.Places
import Schemata.Fault
import Schemata.Text.Literal
import Schemata.Value.Shown

namespace Schemata.Template

/-! ## Pieces -/

/-- The name of an entry that a place asks for. -/
inductive Name where
  | none
  | entry (name : String)
  /-- A parenthesis that is not closed. -/
  | unclosed

/-- A number in a place. -/
inductive Amount where
  | none
  | exactly (n : Nat)
  /-- The next value tells the number. -/
  | given

/-- A place for a value. -/
structure Place where
  name : Name
  flags : List Char
  width : Amount
  precision : Amount
  /-- How the value is written; none if the text ends before. -/
  form : Option Char

/-- A part of a text with places. -/
inductive Piece where
  | plain (c : Char)
  | place (p : Place)

/-- A name up to the parenthesis that closes it, and what follows. -/
def nameFrom (depth : Nat) : List Char → Option (List Char × List Char)
  | [] => none
  | c :: cs =>
    if c == ')' then
      match depth with
      | 0 => some ([], cs)
      | d + 1 => (nameFrom d cs).map fun (n, rest) => (c :: n, rest)
    else
      (nameFrom (if c == '(' then depth + 1 else depth) cs).map
        fun (n, rest) => (c :: n, rest)

/-- The name at the start of a place. -/
def placeName : List Char → Name × List Char
  | '(' :: cs =>
    match nameFrom 0 cs with
    | some (n, rest) => (.entry (String.ofList n), rest)
    | none => (.unclosed, [])
  | cs => (.none, cs)

/-- A character that asks for a way of filling. -/
def isFlag (c : Char) : Bool :=
  ['-', '+', ' ', '#', '0'].contains c

/-- A number at the start of characters; `missing` stands for one that is not there. -/
def amount (missing : Amount) : List Char → Amount × List Char
  | '*' :: cs => (.given, cs)
  | cs =>
    match cs.takeWhile Text.isDigit with
    | [] => (missing, cs)
    | ds => (.exactly (Text.natOfDigits ds), cs.dropWhile Text.isDigit)

/-- The precision after a point. -/
def precisionOf : List Char → Amount × List Char
  | '.' :: cs => amount (.exactly 0) cs
  | cs => (.none, cs)

/-- Leaves out a letter that tells the size of a number. -/
def withoutSize : List Char → List Char
  | c :: cs => if ['h', 'l', 'L'].contains c then cs else c :: cs
  | [] => []

/-- A place after its percent sign, and what follows. -/
def placeFrom (cs : List Char) : Place × List Char :=
  let (name, cs) := placeName cs
  let flags := cs.takeWhile isFlag
  let (width, cs) := amount .none (cs.dropWhile isFlag)
  let (precision, cs) := precisionOf cs
  match withoutSize cs with
  | c :: rest => (⟨name, flags, width, precision, some c⟩, rest)
  | [] => (⟨name, flags, width, precision, none⟩, [])

/-- The pieces of a text of at most so many characters. -/
def piecesWithin : Nat → List Char → List Piece
  | 0, _ => []
  | _, [] => []
  | n + 1, '%' :: '%' :: cs => .plain '%' :: piecesWithin n cs
  | n + 1, '%' :: cs =>
    let (p, rest) := placeFrom cs
    .place p :: piecesWithin n rest
  | n + 1, c :: cs => .plain c :: piecesWithin n cs

/-- The pieces of a text. -/
def pieces (s : String) : List Piece :=
  piecesWithin s.length s.toList

/-! ## Values -/

/-- The values that are left, and the mapping that names refer to, if there is one. -/
structure Supply where
  values : List Value
  entries : Option (List (Value × Value))

/-- The supply of values for a text; a single mapping that is not blank serves by name. -/
def Supply.ofValues : List Value → Supply
  | [.dict (e :: es)] => ⟨[.dict (e :: es)], some (e :: es)⟩
  | vs => ⟨vs, none⟩

/-- Takes the next value. -/
def Supply.take (s : Supply) : Except Fault (Value × Supply) :=
  match s.values with
  | v :: vs => .ok (v, { s with values := vs })
  | [] => .error .wrongKind

/-- Makes a named entry the next and only value. -/
def Supply.byName (s : Supply) : Name → Except Fault Supply
  | .none => .ok s
  | name =>
    match s.entries, name with
    | none, _ => .error .wrongKind
    | some es, .entry n =>
      match Value.get? es n with
      | some v => .ok { s with values := [v] }
      | none => .error .missingKey
    | some _, _ => .error .badValue

/-- A width is less than this. -/
def widthLimit : Nat := 0x8000000000000000

/-- A precision is less than this. -/
def precisionLimit : Nat := 0x80000000

/-- The number of an amount within a limit, taken from the values if they tell it. -/
def Supply.number (s : Supply) (limit : Nat) : Amount → Except Fault (Option Int × Supply)
  | .none => .ok (none, s)
  | .exactly n => if n < limit then .ok (some n, s) else .error .badValue
  | .given => do
    let (v, s) ← s.take
    match v.int? with
    | some n =>
      if -(limit : Int) ≤ n && n < limit then .ok (some n, s) else .error .outOfRange
    | none => .error .wrongKind

/-! ## Writing a value -/

/-- A written value: a sign, a mark of the base, and the rest. -/
structure Written where
  sign : List Char := []
  base : List Char := []
  body : List Char
  isNumber : Bool := false

/-- How a place is to be filled. -/
structure Filling where
  flags : List Char
  width : Nat
  leftward : Bool

/-- Fills a written value up to its width. -/
def Filling.fill (f : Filling) (w : Written) : List Char :=
  let sign :=
    if !w.isNumber || !w.sign.isEmpty then w.sign
    else if f.flags.contains '+' then ['+']
    else if f.flags.contains ' ' then [' ']
    else []
  let missing := f.width - (sign.length + w.base.length + w.body.length)
  if f.leftward then sign ++ w.base ++ w.body ++ List.replicate missing ' '
  else if w.isNumber && f.flags.contains '0' then
    sign ++ w.base ++ List.replicate missing '0' ++ w.body
  else List.replicate missing ' ' ++ sign ++ w.base ++ w.body

/-- Everything outside ASCII by number. -/
def asciiOnly (s : String) : List Char :=
  s.toList.flatMap fun c => if c.toNat < 0x80 then [c] else Text.Quoted.byNumber c

/-- Writes a text, cut to its precision. -/
def writeText (precision : Option Nat) (cs : List Char) : Written where
  body :=
    match precision with
    | some p => cs.take p
    | none => cs

/-- The sign of a number. -/
def signOf (negative : Bool) : List Char :=
  if negative then ['-'] else []

/-- Writes a whole number with so many digits at least. -/
def writeInt (digits base : List Char) (precision : Option Nat) (negative : Bool) :
    Written where
  sign := signOf negative
  base
  body := List.replicate ((precision.getD 0) - digits.length) '0' ++ digits
  isNumber := true

/-- The whole number of a value: a double loses what follows its point. -/
def wholeNumber (v : Value) : Except Fault Int :=
  match v.int?, v.float? with
  | some n, _ => .ok n
  | none, some x =>
    if x.isNaN then .error .badValue
    else if x.isInf then .error .outOfRange
    else
      let n : Int := (Decimal.Binary.ofBits (Decimal.magnitudeBits x)).whole
      .ok (if Decimal.isNegative x then -n else n)
  | none, none => .error .wrongKind

/-- The double of a value. -/
def double (v : Value) : Except Fault Float :=
  match v.int?, v.float? with
  | some n, _ =>
    let x := Float.ofInt n
    if x.isFinite then .ok x else .error .outOfRange
  | none, some x => .ok x
  | none, none => .error .wrongKind

/-- The digits of a finite magnitude in a form. -/
def finiteText (form : Char) (alternate : Bool) (precision : Nat) (x : Decimal.Binary) :
    List Char :=
  if form == 'e' then x.scientificText alternate precision
  else if form == 'f' then x.fixedText alternate precision
  else x.generalText alternate precision

/-- Writes a double; a capital letter of the form makes capitals of its letters. -/
def writeFloat (form : Char) (alternate : Bool) (precision : Nat) (x : Float) : Written :=
  let bits := Decimal.magnitudeBits x
  let body :=
    if Decimal.specialBits < bits then ['n', 'a', 'n']
    else if bits == Decimal.specialBits then ['i', 'n', 'f']
    else finiteText form.toLower alternate precision (Decimal.Binary.ofBits bits)
  { sign := signOf (Decimal.isNegative x && bits ≤ Decimal.specialBits)
    body := if form.isUpper then body.map Char.toUpper else body
    isNumber := true }

/-- The character that a value is or numbers. -/
def character (v : Value) : Except Fault Char :=
  match v.word?, v.int? with
  | some s, _ =>
    match s.toList with
    | [c] => .ok c
    | _ => .error .wrongKind
  | none, some n =>
    if 0 ≤ n && n ≤ 0x10FFFF then .ok (Char.ofNat n.toNat) else .error .outOfRange
  | none, none => .error .wrongKind

/-- Writes a value in a form. -/
def write (form : Char) (alternate : Bool) (precision : Option Nat) (v : Value) :
    Except Fault Written :=
  let inBase (base : Nat) (mark : Char) : Except Fault Written :=
    match v.int? with
    | some n =>
      .ok (writeInt (Nat.toDigits base n.natAbs)
        (if alternate then ['0', mark] else []) precision (n < 0))
    | none => .error .wrongKind
  match form with
  | 's' => do .ok (writeText precision (← v.plain).toList)
  | 'r' => do .ok (writeText precision (← v.shown).toList)
  | 'a' => do .ok (writeText precision (asciiOnly (← v.shown)))
  | 'c' => do .ok { body := [← character v] }
  | 'o' => inBase 8 'o'
  | 'x' => inBase 16 'x'
  | 'X' => do
    let w ← inBase 16 'X'
    .ok { w with body := w.body.map Char.toUpper }
  | _ =>
    if ['d', 'i', 'u'].contains form then do
      let n ← wholeNumber v
      let digits := Nat.toDigits 10 n.natAbs
      if Text.maxDigits < digits.length then .error .badValue
      else .ok (writeInt digits [] precision (n < 0))
    else if ['e', 'E', 'f', 'F', 'g', 'G'].contains form then do
      .ok (writeFloat form alternate (precision.getD 6) (← double v))
    else .error .badValue

/-! ## Filling -/

/-- Fills a place. -/
def fillPlace (s : Supply) (p : Place) : Except Fault (List Char × Supply) := do
  let s ← s.byName p.name
  let (width, s) ← s.number widthLimit p.width
  let (precision, s) ← s.number precisionLimit p.precision
  match p.form with
  | none => .error .badValue
  | some form =>
    let (v, s) ← s.take
    let w ← write form (p.flags.contains '#') (precision.map Int.toNat) v
    let width := width.getD 0
    let filling : Filling := ⟨p.flags, width.natAbs, p.flags.contains '-' || width < 0⟩
    .ok (filling.fill w, s)

/-- Fills pieces one after the other. -/
def fillPieces (s : Supply) : List Piece → Except Fault (List Char × Supply)
  | [] => .ok ([], s)
  | .plain c :: ps => do
    let (cs, s) ← fillPieces s ps
    .ok (c :: cs, s)
  | .place p :: ps => do
    let (ds, s) ← fillPlace s p
    let (cs, s) ← fillPieces s ps
    .ok (ds ++ cs, s)

/-- A text with values in its places. -/
def fill (text : String) (values : List Value) : Except Fault String :=
  if values.isEmpty then .ok text
  else do
    let (cs, s) ← fillPieces (.ofValues values) (pieces text)
    if s.values.isEmpty || s.entries.isSome then .ok (String.ofList cs) else .error .wrongKind

end Schemata.Template
