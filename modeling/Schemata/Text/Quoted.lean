/-
Quoted texts, as they are shown inside generated source and messages.

A text is put between single quotes, or between double quotes when it holds a single quote and
no double one. A backslash, the quote in use, and the three common controls are written as a
backslash and a letter; every other character that is not printable is written by its number
in two, four or eight hexadecimal digits. Bytes are shown in the same way behind a letter that
tells them from a text.
-/
import Schemata.Text.Printable

namespace Schemata.Text

namespace Quoted

/-- The quote that a text is put between. -/
def delimiter (cs : List Char) : Char :=
  if cs.contains '\'' && !cs.contains '"' then '"' else '\''

/-- `width` hexadecimal digits of a number, in small letters. -/
def hex (width n : Nat) : List Char :=
  let ds := Nat.toDigits 16 n
  List.replicate (width - ds.length) '0' ++ ds

/-- A character by its number. -/
def byNumber (c : Char) : List Char :=
  let n := c.toNat
  if n < 0x100 then '\\' :: 'x' :: hex 2 n
  else if n < 0x10000 then '\\' :: 'u' :: hex 4 n
  else '\\' :: 'U' :: hex 8 n

/-- One character between quotes of the given kind. -/
def escape (quote c : Char) : List Char :=
  if c == quote || c == '\\' then ['\\', c]
  else if c == '\n' then ['\\', 'n']
  else if c == '\r' then ['\\', 'r']
  else if c == '\t' then ['\\', 't']
  else if isPrintable c then [c]
  else byNumber c

/-- One byte between quotes of the given kind: it is shown as a character of the first plane,
or by its number. -/
def escapeByte (quote : Char) (b : UInt8) : List Char :=
  if b < 0x7F then escape quote (Char.ofNat b.toNat) else '\\' :: 'x' :: hex 2 b.toNat

/-- A text between its quotes. -/
def encode (cs : List Char) : List Char :=
  let q := delimiter cs
  q :: (cs.flatMap (escape q) ++ [q])

end Quoted

/-- Bytes as they are shown between quotes. -/
def quotedBytes (bs : List UInt8) : String :=
  let q := Quoted.delimiter (bs.map fun b => Char.ofNat b.toNat)
  "b" ++ String.ofList (q :: (bs.flatMap (Quoted.escapeByte q) ++ [q]))

/-- A text as it is shown between quotes. -/
def quoted (s : String) : String :=
  String.ofList (Quoted.encode s.toList)

end Schemata.Text
