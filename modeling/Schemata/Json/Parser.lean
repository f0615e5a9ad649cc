/-
The reading of JSON documents.

The grammar is the standard one, with `NaN`, `Infinity` and `-Infinity` added, nothing before
or after the document but blanks, and no control characters inside texts. A number without a
fraction and an exponent is a whole number, of 4300 digits at most. Half of a surrogate pair
denotes no character and is refused.

A reader has room for so many arrays and objects inside one another, and gives up at the first
one for which it has no room left. What is malformed before that place is malformed.

`value` and its two companions walk the characters with a fuel that the document's length
bounds: of two steps, one at least reads a character.
-/
import Schemata.Decimal.Binary
import Schemata.Json.Basic
import Schemata.Text.Literal

namespace Schemata.Json.Parser

open Schemata.Text (isDigit natOfDigits)

/-- A blank of the grammar. -/
def isBlank (c : Char) : Bool :=
  c == ' ' || c == '\n' || c == '\t' || c == '\r'

/-- Leaves out blanks. -/
def skip (cs : List Char) : List Char :=
  cs.dropWhile isBlank

/-- The value of a hexadecimal digit. -/
def hexDigit? (c : Char) : Option Nat :=
  if isDigit c then some (c.toNat - '0'.toNat)
  else if 'a' ≤ c && c ≤ 'f' then some (c.toNat - 'a'.toNat + 10)
  else if 'A' ≤ c && c ≤ 'F' then some (c.toNat - 'A'.toNat + 10)
  else none

/-- A 16-bit unit of four hexadecimal digits. -/
def unit? : List Char → Option (Nat × List Char)
  | a :: b :: c :: d :: rest => do
    let a ← hexDigit? a
    let b ← hexDigit? b
    let c ← hexDigit? c
    let d ← hexDigit? d
    some (((a * 16 + b) * 16 + c) * 16 + d, rest)
  | _ => none

/-- The character of a letter after a backslash. -/
def letter? : Char → Option Char
  | '"' => some '"'
  | '\\' => some '\\'
  | '/' => some '/'
  | 'n' => some '\n'
  | 'r' => some '\r'
  | 't' => some '\t'
  | 'f' => some '\x0c'
  | 'b' => some '\x08'
  | _ => none

/-- The character that starts with a unit just read: the unit itself, or a pair of
surrogates. -/
def character? (high : Nat) (rest : List Char) : Option (Char × List Char) :=
  if 0xD800 ≤ high && high < 0xDC00 then
    match rest with
    | '\\' :: 'u' :: more => do
      let (low, rest) ← unit? more
      if 0xDC00 ≤ low && low < 0xE000 then
        some (Char.ofNat (0x10000 + (high - 0xD800) * 0x400 + (low - 0xDC00)), rest)
      else none
    | _ => none
  else if 0xDC00 ≤ high && high < 0xE000 then none
  else some (Char.ofNat high, rest)

/-- The characters of a text up to its closing quote. -/
def textChars : Nat → List Char → Option (List Char × List Char)
  | 0, _ => none
  | _, [] => none
  | fuel + 1, c :: cs =>
    if c == '"' then some ([], cs)
    else if c == '\\' then
      match cs with
      | 'u' :: more => do
        let (high, rest) ← unit? more
        let (c, rest) ← character? high rest
        let (s, rest) ← textChars fuel rest
        some (c :: s, rest)
      | l :: rest => do
        let c ← letter? l
        let (s, rest) ← textChars fuel rest
        some (c :: s, rest)
      | [] => none
    else if c.toNat < 32 then none
    else do
      let (s, rest) ← textChars fuel cs
      some (c :: s, rest)

/-- A text after its opening quote. -/
def text (cs : List Char) : Option (String × List Char) := do
  let (s, rest) ← textChars (cs.length + 1) cs
  some (String.ofList s, rest)

/-- The digits of a whole number: a zero, or digits that begin with no zero. -/
def wholeDigits (cs : List Char) : Option (List Char × List Char) :=
  match cs with
  | '0' :: rest => some (['0'], rest)
  | c :: _ => if isDigit c then some (cs.takeWhile isDigit, cs.dropWhile isDigit) else none
  | [] => none

/-- A fraction, if one follows. -/
def fraction (cs : List Char) : List Char × List Char :=
  match cs with
  | '.' :: rest =>
    let ds := rest.takeWhile isDigit
    if ds.isEmpty then ([], cs) else (ds, rest.dropWhile isDigit)
  | _ => ([], cs)

/-- An exponent, if one follows. -/
def exponent (cs : List Char) : Option Int × List Char :=
  match cs with
  | e :: rest =>
    if e == 'e' || e == 'E' then
      let (negative, body) := match rest with
        | '-' :: more => (true, more)
        | '+' :: more => (false, more)
        | _ => (false, rest)
      let ds := body.takeWhile isDigit
      if ds.isEmpty then (none, cs)
      else
        let n : Int := natOfDigits ds
        (some (if negative then -n else n), body.dropWhile isDigit)
    else (none, cs)
  | [] => (none, cs)

/-- A number after its sign. -/
def number (negative : Bool) (cs : List Char) : Option (Json × List Char) := do
  let (whole, rest) ← wholeDigits cs
  let (frac, rest) := fraction rest
  let (exp, rest) := exponent rest
  if frac.isEmpty && exp.isNone then
    if Text.maxDigits < whole.length then none
    else
      let n : Int := natOfDigits whole
      some (.int (if negative then -n else n), rest)
  else
    let e := exp.getD 0 - (frac.length : Int)
    some (.float (Decimal.floatOf negative (natOfDigits (whole ++ frac)) e), rest)

/-- What follows a fixed word. -/
def after? (word : String) (cs : List Char) : Option (List Char) :=
  if word.toList.isPrefixOf cs then some (cs.drop word.length) else none

/-- The named values. -/
def word (cs : List Char) : Option (Json × List Char) :=
  match after? "null" cs with
  | some rest => some (.null, rest)
  | none =>
  match after? "true" cs with
  | some rest => some (.bool true, rest)
  | none =>
  match after? "false" cs with
  | some rest => some (.bool false, rest)
  | none =>
  match after? "NaN" cs with
  | some rest => some (.float (0.0 / 0.0), rest)
  | none =>
  match after? "Infinity" cs with
  | some rest => some (.float (1.0 / 0.0), rest)
  | none =>
  match after? "-Infinity" cs with
  | some rest => some (.float (-1.0 / 0.0), rest)
  | none => none

/-- Why a text is not read. -/
inductive Trouble where
  | malformed
  /-- Arrays and objects stand too deep inside one another. -/
  | tooDeep
deriving DecidableEq, Repr

/-- What is not there is malformed. -/
def expect {α : Type} : Option α → Except Trouble α
  | some a => .ok a
  | none => .error .malformed

mutual

/-- A value at the start of the characters. -/
def value : Nat → Nat → List Char → Except Trouble (Json × List Char)
  | 0, _, _ => .error .malformed
  | fuel + 1, room, cs =>
    match cs with
    | '"' :: rest => do
      let (s, rest) ← expect (text rest)
      .ok (.text s, rest)
    | '[' :: rest =>
      match room with
      | 0 => .error .tooDeep
      | room + 1 =>
        match skip rest with
        | ']' :: rest => .ok (.array [], rest)
        | rest => do
          let (js, rest) ← items fuel room rest
          .ok (.array js, rest)
    | '\x7b' :: rest =>
      match room with
      | 0 => .error .tooDeep
      | room + 1 =>
        match skip rest with
        | '\x7d' :: rest => .ok (.object [], rest)
        | rest => do
          let (ms, rest) ← members fuel room [] rest
          .ok (.object ms, rest)
    | c :: rest =>
      match word cs with
      | some r => .ok r
      | none => expect (if c == '-' then number true rest else number false cs)
    | [] => .error .malformed

/-- One or more items, up to the closing bracket. -/
def items : Nat → Nat → List Char → Except Trouble (List Json × List Char)
  | 0, _, _ => .error .malformed
  | fuel + 1, room, cs => do
    let (j, rest) ← value fuel room cs
    match skip rest with
    | ',' :: rest => do
      let (js, rest) ← items fuel room (skip rest)
      .ok (j :: js, rest)
    | ']' :: rest => .ok ([j], rest)
    | _ => .error .malformed

/-- One or more members, up to the closing brace, added to those already read. -/
def members : Nat → Nat → List (String × Json) → List Char →
    Except Trouble (List (String × Json) × List Char)
  | 0, _, _, _ => .error .malformed
  | fuel + 1, room, seen, cs =>
    match cs with
    | '"' :: rest => do
      let (k, rest) ← expect (text rest)
      match skip rest with
      | ':' :: rest => do
        let (j, rest) ← value fuel room (skip rest)
        let seen := putMember seen k j
        match skip rest with
        | ',' :: rest => members fuel room seen (skip rest)
        | '\x7d' :: rest => .ok (seen, rest)
        | _ => .error .malformed
      | _ => .error .malformed
    | _ => .error .malformed

end

end Parser

/-- Reads the document that a text holds, if it holds one and nothing else, with room for so
many arrays and objects inside one another. -/
def read (room : Nat) (s : String) : Except Parser.Trouble Json := do
  let cs := s.toList
  let (j, rest) ← Parser.value (2 * cs.length + 1) room (Parser.skip cs)
  if (Parser.skip rest).isEmpty then .ok j else .error .malformed

/-- The document that a text holds, however deep it is: no more brackets are opened than there
are characters. -/
def parse? (s : String) : Option Json :=
  (read s.length s).toOption

/-- The room of the reader of stored schemas: a thousand calls inside one another, less those
that are under way when it begins. -/
def readingRoom : Nat := 985

mutual

/-- How many arrays and objects stand inside one another. -/
def nesting : Json → Nat
  | .array js => nestingOf js + 1
  | .object ms => nestingOfMembers ms + 1
  | _ => 0

/-- The nesting of the deepest item. -/
def nestingOf : List Json → Nat
  | [] => 0
  | j :: js => max (nesting j) (nestingOf js)

/-- The nesting of the deepest member. -/
def nestingOfMembers : List (String × Json) → Nat
  | [] => 0
  | (_, j) :: ms => max (nesting j) (nestingOfMembers ms)

end

end Schemata.Json
