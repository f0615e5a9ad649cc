/-
Digits and the numbers that they denote.

`natOfDigits` reads a list of digits in order, so that it is a homomorphism in the only way it
can be: what comes first counts as many tens as there are digits after it
(`natOfDigits_append`). Zeros in front change nothing, and each zero at the end multiplies by
ten. The digits of a number read back to it, and begin with a zero only if that is all there
is.
-/
import Mathlib
import Schemata.Decimal.Notation
import Schemata.Text.Literal

namespace Schemata.Text

open Decimal (digitChars)

/-- Every character is a digit. -/
def AllDigits (ds : List Char) : Prop :=
  ∀ c ∈ ds, isDigit c = true

namespace AllDigits

theorem nil : AllDigits [] := by
  simp [AllDigits]

theorem zeros (k : Nat) : AllDigits (List.replicate k '0') := by
  intro c hc
  rw [List.eq_of_mem_replicate hc]
  decide

theorem append {ds es : List Char} (hd : AllDigits ds) (he : AllDigits es) :
    AllDigits (ds ++ es) := by
  intro c hc
  rcases List.mem_append.1 hc with h | h
  · exact hd c h
  · exact he c h

theorem take {ds : List Char} (h : AllDigits ds) (n : Nat) : AllDigits (ds.take n) :=
  fun c hc => h c (List.mem_of_mem_take hc)

theorem drop {ds : List Char} (h : AllDigits ds) (n : Nat) : AllDigits (ds.drop n) :=
  fun c hc => h c (List.mem_of_mem_drop hc)

end AllDigits

/-! ## Numbers of digits -/

theorem natOfDigits_eq (ds : List Char) : natOfDigits ds = Nat.ofDigitChars 10 ds 0 := rfl

theorem natOfDigits_append (ds es : List Char) :
    natOfDigits (ds ++ es) = natOfDigits ds * 10 ^ es.length + natOfDigits es := by
  simp only [natOfDigits_eq]
  rw [Nat.ofDigitChars_append, Nat.ofDigitChars_eq_ofDigitChars_zero, Nat.mul_comm]

theorem natOfDigits_zeros (k : Nat) : natOfDigits (List.replicate k '0') = 0 := by
  simp [natOfDigits_eq, Nat.ofDigitChars_replicate_zero]

theorem natOfDigits_zeros_append (k : Nat) (ds : List Char) :
    natOfDigits (List.replicate k '0' ++ ds) = natOfDigits ds := by
  rw [natOfDigits_append, natOfDigits_zeros, Nat.zero_mul, Nat.zero_add]

theorem natOfDigits_append_zeros (ds : List Char) (k : Nat) :
    natOfDigits (ds ++ List.replicate k '0') = natOfDigits ds * 10 ^ k := by
  rw [natOfDigits_append, natOfDigits_zeros, List.length_replicate, Nat.add_zero]

/-- A number is below ten to the power of the number of its digits. -/
theorem natOfDigits_lt {ds : List Char} (h : AllDigits ds) :
    natOfDigits ds < 10 ^ ds.length := by
  induction ds with
  | nil => simp [natOfDigits_eq]
  | cons d ds ih =>
    have rest := ih fun c hc => h c (.tail _ hc)
    have first : natOfDigits [d] ≤ 9 := by
      have digit := h d (.head _)
      rw [isDigit, Bool.and_eq_true, decide_eq_true_iff, decide_eq_true_iff,
        Char.le_def, Char.le_def, UInt32.le_iff_toNat_le, UInt32.le_iff_toNat_le] at digit
      have value : natOfDigits [d] = d.toNat - 48 := Nat.zero_add _
      have nine : d.toNat ≤ 57 := digit.2
      omega
    have parts : natOfDigits (d :: ds) = natOfDigits [d] * 10 ^ ds.length + natOfDigits ds :=
      natOfDigits_append [d] ds
    rw [parts, List.length_cons, Nat.pow_succ]
    have most := Nat.mul_le_mul_right (10 ^ ds.length) first
    omega

/-- A text of digits is read as it is. -/
theorem digitLiteral?_digits {ds : List Char} (h : AllDigits ds) (nonempty : ds ≠ []) :
    digitLiteral? ds = some ds := by
  have kept : withoutFinalBreak ds = ds := by
    rw [withoutFinalBreak, if_neg]
    intro last
    have digit := h '\n' (List.mem_of_getLast? (by simpa using last))
    exact absurd digit (by decide)
  simp [digitLiteral?, kept, nonempty, List.all_eq_true.2 h]

theorem allDigits_of_digitLiteral? {cs ds : List Char} (read : digitLiteral? cs = some ds) :
    AllDigits ds := by
  unfold digitLiteral? at read
  dsimp only at read
  split at read
  · rename_i digits
    cases read
    rw [Bool.and_eq_true, List.all_eq_true] at digits
    exact digits.2
  · cases read

/-! ## Digits of numbers -/

theorem natOfDigits_digitChars (n : Nat) : natOfDigits (digitChars n) = n := by
  simp [natOfDigits_eq, digitChars]

theorem isDigit_eq (c : Char) : isDigit c = c.isDigit := by
  simp only [isDigit, Char.isDigit, Char.le_def]

theorem allDigits_digitChars (n : Nat) : AllDigits (digitChars n) := by
  intro c hc
  rw [isDigit_eq]
  exact Nat.isDigit_of_mem_toDigits (by decide) (by decide) hc

theorem digitChars_ne_nil (n : Nat) : digitChars n ≠ [] :=
  Nat.toDigits_ne_nil

/-- The digits of a positive number do not begin with a zero. -/
theorem head?_digitChars {n : Nat} (h : 0 < n) : (digitChars n).head? ≠ some '0' := by
  induction n using Nat.strongRecOn with
  | ind n ih =>
    unfold digitChars
    rw [Nat.toDigits_eq_if (by decide)]
    split
    · intro e
      simp only [List.head?_cons, Option.some.injEq, Nat.digitChar_eq_zero] at e
      omega
    · obtain ⟨d, ds, e⟩ :=
        List.exists_cons_of_ne_nil (Nat.toDigits_ne_nil (n := n / 10) (b := 10))
      have first := ih (n / 10) (by omega) (by omega)
      rw [digitChars, e] at first
      rwa [e]

theorem toList_toString_nat (n : Nat) : (toString n).toList = digitChars n := by
  rw [Nat.toString_eq_ofList_toDigits, String.toList_ofList]
  rfl

/-- The digits of a negative number stand after a sign. -/
theorem toList_toString_int (n : Int) :
    (toString n).toList =
      if decide (n < 0) then '-' :: digitChars n.natAbs else digitChars n.natAbs := by
  cases n with
  | ofNat m => exact toList_toString_nat m
  | negSucc m =>
    have text : toString (Int.negSucc m) = "-" ++ toString (m + 1) := rfl
    rw [text, String.toList_append, toList_toString_nat,
      if_pos (decide_eq_true (Int.negSucc_lt_zero m))]
    rfl

end Schemata.Text
