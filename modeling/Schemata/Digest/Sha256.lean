/-
SHA-256.

A message is padded to blocks of sixteen words. Each block runs the rounds over the eight
words of a state and adds the result to the state. The words that the rounds use are not laid
out beforehand: a window of the last sixteen moves along with the rounds, and each round
appends the next word.
-/

namespace Schemata.Sha256

/-- The first bits of the fractional parts of the cube roots of the first primes, one word a
round. -/
def roundConstants : List UInt32 := [
  0x428a2f98, 0x71374491, 0xb5c0fbcf, 0xe9b5dba5, 0x3956c25b, 0x59f111f1,
  0x923f82a4, 0xab1c5ed5, 0xd807aa98, 0x12835b01, 0x243185be, 0x550c7dc3,
  0x72be5d74, 0x80deb1fe, 0x9bdc06a7, 0xc19bf174, 0xe49b69c1, 0xefbe4786,
  0x0fc19dc6, 0x240ca1cc, 0x2de92c6f, 0x4a7484aa, 0x5cb0a9dc, 0x76f988da,
  0x983e5152, 0xa831c66d, 0xb00327c8, 0xbf597fc7, 0xc6e00bf3, 0xd5a79147,
  0x06ca6351, 0x14292967, 0x27b70a85, 0x2e1b2138, 0x4d2c6dfc, 0x53380d13,
  0x650a7354, 0x766a0abb, 0x81c2c92e, 0x92722c85, 0xa2bfe8a1, 0xa81a664b,
  0xc24b8b70, 0xc76c51a3, 0xd192e819, 0xd6990624, 0xf40e3585, 0x106aa070,
  0x19a4c116, 0x1e376c08, 0x2748774c, 0x34b0bcb5, 0x391c0cb3, 0x4ed8aa4a,
  0x5b9cca4f, 0x682e6ff3, 0x748f82ee, 0x78a5636f, 0x84c87814, 0x8cc70208,
  0x90befffa, 0xa4506ceb, 0xbef9a3f7, 0xc67178f2]

/-- The eight words that a message is folded into. -/
structure State where
  a : UInt32
  b : UInt32
  c : UInt32
  d : UInt32
  e : UInt32
  f : UInt32
  g : UInt32
  h : UInt32
deriving DecidableEq, Repr

/-- The first bits of the fractional parts of the square roots of the first primes. -/
def State.first : State :=
  ⟨0x6a09e667, 0xbb67ae85, 0x3c6ef372, 0xa54ff53a,
    0x510e527f, 0x9b05688c, 0x1f83d9ab, 0x5be0cd19⟩

/-- The words of two states, added. -/
def State.add (s t : State) : State :=
  ⟨s.a + t.a, s.b + t.b, s.c + t.c, s.d + t.d, s.e + t.e, s.f + t.f, s.g + t.g, s.h + t.h⟩

/-- The words of a state in order. -/
def State.words (s : State) : List UInt32 :=
  [s.a, s.b, s.c, s.d, s.e, s.f, s.g, s.h]

/-- A word turned to the right. -/
def turn (x n : UInt32) : UInt32 :=
  (x >>> n) ||| (x <<< (32 - n))

/-- One round with the next word of the message and the constant of the round. -/
def State.round (s : State) (word constant : UInt32) : State :=
  let s1 := turn s.e 6 ^^^ turn s.e 11 ^^^ turn s.e 25
  let choice := (s.e &&& s.f) ^^^ (~~~s.e &&& s.g)
  let t1 := s.h + s1 + choice + constant + word
  let s0 := turn s.a 2 ^^^ turn s.a 13 ^^^ turn s.a 22
  let majority := (s.a &&& s.b) ^^^ (s.a &&& s.c) ^^^ (s.b &&& s.c)
  ⟨t1 + (s0 + majority), s.a, s.b, s.c, s.d + t1, s.e, s.f, s.g⟩

/-- The word that follows a window of sixteen. -/
def nextWord (window : List UInt32) : UInt32 :=
  let w1 := window.getD 1 0
  let w14 := window.getD 14 0
  window.getD 0 0 + (turn w1 7 ^^^ turn w1 18 ^^^ (w1 >>> 3)) + window.getD 9 0 +
    (turn w14 17 ^^^ turn w14 19 ^^^ (w14 >>> 10))

/-- The rounds of a block. -/
def rounds (s : State) (window : List UInt32) : List UInt32 → State
  | [] => s
  | k :: ks => rounds (s.round (window.getD 0 0) k) (window.tail ++ [nextWord window]) ks

/-- A state after a block of sixteen words. -/
def State.absorb (s : State) (block : List UInt32) : State :=
  s.add (rounds s block roundConstants)

/-! ## Bytes and words -/

/-- Four bytes as a word. -/
def wordOf (a b c d : UInt8) : UInt32 :=
  (a.toUInt32 <<< 24) ||| (b.toUInt32 <<< 16) ||| (c.toUInt32 <<< 8) ||| d.toUInt32

/-- Bytes as words. -/
def wordsOf : List UInt8 → List UInt32
  | a :: b :: c :: d :: bs => wordOf a b c d :: wordsOf bs
  | _ => []

/-- A word as bytes. -/
def bytesOf (w : UInt32) : List UInt8 :=
  [(w >>> 24).toUInt8, (w >>> 16).toUInt8, (w >>> 8).toUInt8, w.toUInt8]

/-- The length of a message in bits, as eight bytes. -/
def lengthBytes (n : Nat) : List UInt8 :=
  bytesOf (UInt32.ofNat (n * 8 / 0x100000000)) ++ bytesOf (UInt32.ofNat (n * 8))

/-- A message with a one bit, zeros up to a whole number of blocks, and its length at the
end. -/
def pad (message : List UInt8) : List UInt8 :=
  let n := message.length
  message ++ 0x80 :: List.replicate ((119 - n % 64) % 64) 0 ++ lengthBytes n

/-- Folds words into a state, sixteen at a time. -/
def absorbAll (s : State) (words : List UInt32) : State :=
  match words with
  | [] => s
  | w :: ws => absorbAll (s.absorb ((w :: ws).take 16)) (ws.drop 15)
termination_by words.length
decreasing_by simp only [List.length_drop, List.length_cons]; omega

/-- The hash of a message: thirty-two bytes. -/
def hash (message : List UInt8) : List UInt8 :=
  (absorbAll .first (wordsOf (pad message))).words.flatMap bytesOf

/-! ## Hexadecimal -/

/-- A digit below sixteen, as a capital. -/
def hexDigit (n : Nat) : Char :=
  if n < 10 then Char.ofNat (48 + n) else Char.ofNat (55 + n)

/-- Bytes as hexadecimal digits, two for each byte. -/
def hexOf (bytes : List UInt8) : String :=
  String.ofList (bytes.flatMap fun b => [hexDigit (b.toNat / 16), hexDigit (b.toNat % 16)])

end Schemata.Sha256
