/-
Reading texts that were written.

A character is written in one of three ways: as it is, behind a backslash by a letter, or by
number in one or two units of four hexadecimal digits. `textChars_escape` says that each way
is read back to the one character, so that a text is read back by induction on its characters
(`text_append`). All that is asked of an alphabet is that it keeps no control character.
-/
import Mathlib
import Schemata.Json.Parser
import Schemata.Json.Printer

namespace Schemata.Json

/-! ## Units -/

theorem hexDigit?_digitChar {d : Nat} (h : d < 16) :
    Parser.hexDigit? d.digitChar = some d := by
  revert d
  decide

/-- Four hexadecimal digits, one after the other. -/
theorem hex_four {n : Nat} (h : n < 65536) :
    Text.Quoted.hex 4 n =
      [(n / 4096).digitChar, (n / 256 % 16).digitChar, (n / 16 % 16).digitChar,
        (n % 16).digitChar] := by
  have zero : Nat.digitChar 0 = '0' := rfl
  unfold Text.Quoted.hex
  -- The number of digits that stand there without the zeros in front.
  rcases Nat.lt_or_ge n 16 with h1 | h1
  · rw [Nat.toDigits_of_lt_base h1]
    have e : n / 4096 = 0 ∧ n / 256 % 16 = 0 ∧ n / 16 % 16 = 0 ∧ n % 16 = n := by omega
    rw [e.1, e.2.1, e.2.2.1, e.2.2.2, zero]
    rfl
  rcases Nat.lt_or_ge n 256 with h2 | h2
  · rw [Nat.toDigits_of_base_le (by decide) h1, Nat.toDigits_of_lt_base (by omega)]
    have e : n / 4096 = 0 ∧ n / 256 % 16 = 0 ∧ n / 16 % 16 = n / 16 := by omega
    rw [e.1, e.2.1, e.2.2, zero]
    rfl
  rcases Nat.lt_or_ge n 4096 with h3 | h3
  · rw [Nat.toDigits_of_base_le (by decide) h1,
      Nat.toDigits_of_base_le (by decide) (by omega), Nat.toDigits_of_lt_base (by omega)]
    have e : n / 4096 = 0 ∧ n / 256 % 16 = n / 16 / 16 := by omega
    rw [e.1, e.2, zero]
    rfl
  · rw [Nat.toDigits_of_base_le (by decide) h1,
      Nat.toDigits_of_base_le (by decide) (by omega),
      Nat.toDigits_of_base_le (by decide) (by omega), Nat.toDigits_of_lt_base (by omega)]
    have e : n / 16 / 16 / 16 = n / 4096 ∧ n / 16 / 16 % 16 = n / 256 % 16 := by omega
    rw [e.1, e.2]
    rfl

theorem unit?_hex {n : Nat} (h : n < 65536) (rest : List Char) :
    Parser.unit? (Text.Quoted.hex 4 n ++ rest) = some (n, rest) := by
  have value :
      ((n / 4096 * 16 + n / 256 % 16) * 16 + n / 16 % 16) * 16 + n % 16 = n := by omega
  rw [hex_four h]
  simp only [List.cons_append, List.nil_append, Parser.unit?]
  rw [hexDigit?_digitChar (by omega), hexDigit?_digitChar (by omega),
    hexDigit?_digitChar (by omega), hexDigit?_digitChar (by omega)]
  simp [value]

/-! ## Characters -/

theorem character?_plain {c : Char} (h : c.toNat < 65536) (rest : List Char) :
    Parser.character? c.toNat rest = some (c, rest) := by
  have valid : c.toNat < 0xD800 ∨ 0xDFFF < c.toNat := by
    rcases c.valid with h | h
    · exact .inl h
    · exact .inr h.1
  unfold Parser.character?
  rw [if_neg, if_neg, Char.ofNat_toNat]
  · simp only [Bool.and_eq_true, decide_eq_true_eq]
    omega
  · simp only [Bool.and_eq_true, decide_eq_true_eq]
    omega

theorem character?_pair {c : Char} {high low : Nat} (hh : 0xD800 ≤ high ∧ high < 0xDC00)
    (hl : 0xDC00 ≤ low ∧ low < 0xE000)
    (hc : 0x10000 + (high - 0xD800) * 0x400 + (low - 0xDC00) = c.toNat) (rest : List Char) :
    Parser.character? high (unit low ++ rest) = some (c, rest) := by
  unfold Parser.character? unit
  rw [if_pos (by simpa using hh)]
  simp only [List.cons_append]
  rw [unit?_hex (by omega)]
  simp only [Option.bind_eq_bind, Option.bind_some, hc, Char.ofNat_toNat]
  rw [if_pos (by simpa using hl)]

/-- The two surrogates of a character beyond the first plane. -/
theorem surrogates {c : Char} (h : 65536 ≤ c.toNat) :
    ∃ high low, 0xD800 + (c.toNat - 0x10000) / 0x400 = high ∧
      0xDC00 + (c.toNat - 0x10000) % 0x400 = low ∧ (0xD800 ≤ high ∧ high < 0xDC00) ∧
      (0xDC00 ≤ low ∧ low < 0xE000) ∧
      0x10000 + (high - 0xD800) * 0x400 + (low - 0xDC00) = c.toNat := by
  have valid : c.toNat < 0x110000 := by
    rcases c.valid with h | h
    · exact Nat.lt_trans h (by decide)
    · exact h.2
  refine ⟨_, _, rfl, rfl, ?_⟩
  omega

/-- An alphabet that writes no control character as it is. -/
def Alphabet.IsSafe (a : Alphabet) : Prop :=
  ∀ c, a.keeps c = true → 32 ≤ c.toNat

theorem ascii_isSafe : ascii.IsSafe := by
  intro c h
  simp only [ascii, Bool.and_eq_true, decide_eq_true_eq] at h
  exact h.1

/-- A written character is read back, whichever way it was written. -/
theorem textChars_escape {a : Alphabet} (ha : a.IsSafe) (fuel : Nat) (c : Char)
    (rest : List Char) :
    Parser.textChars (fuel + 1) (a.escape c ++ rest) =
      (Parser.textChars fuel rest).map fun r => (c :: r.1, r.2) := by
  unfold Alphabet.escape
  split
  case isTrue h =>
    obtain rfl : c = '"' := by simpa using h
    cases h : Parser.textChars fuel rest <;> simp [Parser.textChars, Parser.letter?, h]
  split
  case isTrue h =>
    obtain rfl : c = '\\' := by simpa using h
    cases h : Parser.textChars fuel rest <;> simp [Parser.textChars, Parser.letter?, h]
  split
  case isTrue h =>
    obtain rfl : c = '\n' := by simpa using h
    cases h : Parser.textChars fuel rest <;> simp [Parser.textChars, Parser.letter?, h]
  split
  case isTrue h =>
    obtain rfl : c = '\r' := by simpa using h
    cases h : Parser.textChars fuel rest <;> simp [Parser.textChars, Parser.letter?, h]
  split
  case isTrue h =>
    obtain rfl : c = '\t' := by simpa using h
    cases h : Parser.textChars fuel rest <;> simp [Parser.textChars, Parser.letter?, h]
  split
  case isTrue h =>
    obtain rfl : c = '\x0c' := by simpa using h
    cases h : Parser.textChars fuel rest <;> simp [Parser.textChars, Parser.letter?, h]
  split
  case isTrue h =>
    obtain rfl : c = '\x08' := by simpa using h
    cases h : Parser.textChars fuel rest <;> simp [Parser.textChars, Parser.letter?, h]
  split
  case isTrue quote backslash _ _ _ _ _ keeps =>
    have plain : ¬ c.toNat < 32 := Nat.not_lt.2 (ha c keeps)
    cases h : Parser.textChars fuel rest <;> simp_all [Parser.textChars]
  case isFalse =>
    unfold byNumber
    dsimp only
    split
    case isTrue plane =>
      unfold unit
      simp only [List.cons_append, Parser.textChars]
      rw [unit?_hex plane]
      simp only [Option.bind_eq_bind, Option.bind_some]
      rw [character?_plain plane]
      cases h : Parser.textChars fuel rest <;> simp [h]
    case isFalse plane =>
      obtain ⟨high, low, eh, el, hh, hl, hc⟩ := surrogates (Nat.not_lt.1 plane)
      rw [eh, el, List.append_assoc, unit]
      simp only [List.cons_append, Parser.textChars]
      rw [unit?_hex (by omega)]
      simp only [Option.bind_eq_bind, Option.bind_some]
      rw [character?_pair hh hl hc]
      cases h : Parser.textChars fuel rest <;> simp [h]

/-! ## Texts -/

theorem byNumber_ne_nil (c : Char) : byNumber c ≠ [] := by
  unfold byNumber
  dsimp only
  split
  · exact List.cons_ne_nil _ _
  · exact List.append_ne_nil_of_left_ne_nil (List.cons_ne_nil _ _) _

theorem length_escape_pos (a : Alphabet) (c : Char) : 0 < (a.escape c).length := by
  apply List.length_pos_iff.2
  unfold Alphabet.escape
  repeat' split
  case isFalse => exact byNumber_ne_nil c
  all_goals exact List.cons_ne_nil _ _

theorem length_le_flatMap_escape (a : Alphabet) (cs : List Char) :
    cs.length ≤ (cs.flatMap a.escape).length := by
  induction cs with
  | nil => exact Nat.le_refl _
  | cons c cs ih =>
    have := length_escape_pos a c
    rw [List.flatMap_cons, List.length_append, List.length_cons]
    omega

theorem textChars_flatMap {a : Alphabet} (ha : a.IsSafe) {fuel : Nat} {cs : List Char}
    (h : cs.length < fuel) (rest : List Char) :
    Parser.textChars fuel (cs.flatMap a.escape ++ '"' :: rest) = some (cs, rest) := by
  induction cs generalizing fuel with
  | nil =>
    obtain ⟨fuel, rfl⟩ := Nat.exists_eq_succ_of_ne_zero (Nat.ne_of_gt h)
    simp [Parser.textChars]
  | cons c cs ih =>
    obtain ⟨fuel, rfl⟩ := Nat.exists_eq_succ_of_ne_zero (Nat.ne_zero_of_lt h)
    rw [List.flatMap_cons, List.append_assoc, textChars_escape ha,
      ih (Nat.lt_of_succ_lt_succ h)]
    rfl

/-- A text is read back from between its quotes. -/
theorem text_append {a : Alphabet} (ha : a.IsSafe) (s : String) (rest : List Char) :
    Parser.text (s.toList.flatMap a.escape ++ '"' :: rest) = some (s, rest) := by
  have short := length_le_flatMap_escape a s.toList
  unfold Parser.text
  rw [textChars_flatMap ha]
  · simp
  · rw [List.length_append, List.length_cons]
    omega

end Schemata.Json
