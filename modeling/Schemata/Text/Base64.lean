/-
Bytes written in sixty-four characters.

Four characters stand for three bytes. Reading is lenient: a character that means nothing is
passed over, and so is a padding sign before the second character of a group. A group that is
closed by its padding ends the text; one that is left open makes it unreadable.
-/

namespace Schemata.Text.Base64

/-- The six bits that a character stands for. -/
def sextet? (c : Char) : Option Nat :=
  if 'A' ≤ c && c ≤ 'Z' then some (c.toNat - 'A'.toNat)
  else if 'a' ≤ c && c ≤ 'z' then some (c.toNat - 'a'.toNat + 26)
  else if '0' ≤ c && c ≤ '9' then some (c.toNat - '0'.toNat + 52)
  else if c == '+' then some 62
  else if c == '/' then some 63
  else none

/-- A group of characters that has begun. -/
structure Group where
  /-- How many characters have been read. -/
  count : Nat := 0
  /-- The bits that are not yet part of a byte. -/
  left : Nat := 0
  /-- How many padding signs have been read since the last character. -/
  pads : Nat := 0

namespace Group

/-- Six more bits: the byte that they complete, if any, and the group after them. -/
def add (g : Group) (bits : Nat) : Option UInt8 × Group :=
  match g.count with
  | 0 => (none, { count := 1, left := bits })
  | 1 => (some (g.left * 4 + bits / 16).toUInt8, { count := 2, left := bits % 16 })
  | 2 => (some (g.left * 16 + bits / 4).toUInt8, { count := 3, left := bits % 4 })
  | _ => (some (g.left * 64 + bits).toUInt8, {})

/-- A padding sign closes the group. -/
def isClosedByPad (g : Group) : Bool :=
  2 ≤ g.count && 4 ≤ g.count + g.pads + 1

/-- A padding sign is read. -/
def pad (g : Group) : Group :=
  if 2 ≤ g.count then { g with pads := g.pads + 1 } else g

end Group

/-- Why a text stands for no bytes. -/
inductive Flaw where
  /-- The last of so many characters that mean something stands alone in its group. -/
  | alone (characters : Nat)
  /-- The last group is open. -/
  | unpadded

/-- The bytes of a text behind a group that has begun, where so many characters before it mean
something. -/
def decodeFrom (g : Group) (meant : Nat) : List Char → Except Flaw (List UInt8)
  | [] =>
    match g.count with
    | 0 => .ok []
    | 1 => .error (.alone meant)
    | _ => .error .unpadded
  | c :: cs =>
    if c == '=' then if g.isClosedByPad then .ok [] else decodeFrom g.pad meant cs
    else
      match sextet? c with
      | none => decodeFrom g meant cs
      | some bits => do
        let (byte, g) := g.add bits
        let rest ← decodeFrom g (meant + 1) cs
        .ok (byte.toList ++ rest)

/-- The bytes that a text stands for, if every group of it is whole. -/
def decode (cs : List Char) : Except Flaw (List UInt8) :=
  decodeFrom {} 0 cs

namespace Flaw

/-- What is wrong with a text that stands for no bytes. -/
def message : Flaw → String
  | .alone n =>
    "Invalid base64-encoded string: number of data characters (" ++ toString n ++
      ") cannot be 1 more than a multiple of 4"
  | .unpadded => "Incorrect padding"

end Flaw

end Schemata.Text.Base64
