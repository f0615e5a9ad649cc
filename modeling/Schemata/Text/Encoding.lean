/-
Why bytes encode no text, and why a text has no encoding.

The first byte of a character tells how many bytes follow it and which the second one may be.
Bytes are refused at the first character that is no character: at a byte that begins none, at
the bytes in front of one that does not continue it, or at all the bytes of a character that
the end cuts off. A text outside ASCII is refused at the first run of characters that have no
code there.

A report names the encoding, what is refused, and where it stands.
-/
import Schemata.Text.Quoted

namespace Schemata.Text.Encoding

/-- A report on a part of a text or of bytes: what one item of it is called, how the only item
is shown, where the part begins and how long it is. -/
def report (encoding verb item shown : String) (start length : Nat) (reason : String) :
    String :=
  Text.quoted encoding ++ " codec can't " ++ verb ++ " " ++
    (if length = 1 then item ++ " " ++ shown ++ " in position " ++ toString start
     else
      item ++ "s in position " ++ toString start ++ "-" ++ toString (start + length - 1)) ++
    ": " ++ reason

/-! ## UTF-8 -/

/-- How many bytes follow the first byte of a character, and the least and the greatest that
the second may be. -/
def following? (b : UInt8) : Option (Nat × UInt8 × UInt8) :=
  if b ≤ 0x7F then some (0, 0x80, 0xBF)
  else if 0xC2 ≤ b && b ≤ 0xDF then some (1, 0x80, 0xBF)
  else if b == 0xE0 then some (2, 0xA0, 0xBF)
  else if b == 0xED then some (2, 0x80, 0x9F)
  else if 0xE1 ≤ b && b ≤ 0xEF then some (2, 0x80, 0xBF)
  else if b == 0xF0 then some (3, 0x90, 0xBF)
  else if b == 0xF4 then some (3, 0x80, 0x8F)
  else if 0xF1 ≤ b && b ≤ 0xF3 then some (3, 0x80, 0xBF)
  else none

/-- A part of bytes that encodes no text: where it begins, its first byte, how long it is, and
what is wrong with it. -/
structure Flaw where
  start : Nat
  byte : UInt8
  length : Nat
  reason : String

/-- The report of a flaw. -/
def Flaw.report (f : Flaw) : String :=
  Encoding.report "utf-8" "decode" "byte"
    ("0x" ++ String.ofList (Quoted.hex 2 f.byte.toNat)) f.start
    f.length f.reason

/-- The flaw of the character that began at a place with a byte, of which some bytes have been
read and some have yet to follow, the next of them within bounds; and of the characters behind
it. -/
def flawIn? (start : Nat) (byte : UInt8) (read owed : Nat) (least greatest : UInt8) :
    List UInt8 → Option Flaw
  | [] => if owed = 0 then none else some ⟨start, byte, read, "unexpected end of data"⟩
  | b :: bs =>
    if owed = 0 then
      match following? b with
      | none => some ⟨start + read, b, 1, "invalid start byte"⟩
      | some (n, low, high) => flawIn? (start + read) b 1 n low high bs
    else if least ≤ b && b ≤ greatest then
      flawIn? start byte (read + 1) (owed - 1) 0x80 0xBF bs
    else some ⟨start, byte, read, "invalid continuation byte"⟩

/-- The first flaw of bytes that encode no text. -/
def flaw? (bs : List UInt8) : Option Flaw :=
  flawIn? 0 0 0 0 0x80 0xBF bs

/-! ## ASCII -/

/-- A character that has a code in ASCII. -/
def isAscii (c : Char) : Bool :=
  c.toNat < 0x80

/-- Why a text is not ASCII. -/
def asciiReport? (cs : List Char) : Option String :=
  match cs.dropWhile isAscii with
  | [] => none
  | c :: rest =>
    some (report "ascii" "encode" "character"
      ("'" ++ String.ofList (Quoted.byNumber c) ++ "'") (cs.takeWhile isAscii).length
      (1 + (rest.takeWhile fun c => !isAscii c).length) "ordinal not in range(128)")

end Schemata.Text.Encoding
