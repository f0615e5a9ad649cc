/-
Reading numbers that were written.

A number is read by its parts: whole digits, a fraction, an exponent. Each reader takes all
the digits that it can, so that a text is read as it was written only if what follows does not
go on with it: `Ends`. Between the two sides stands `numeral`, the text of given parts. Every
layout of a double is a numeral whose parts denote the value of the shortest decimal, and so
it reads back to the double (`number_magnitude`); a whole number is a numeral without a
fraction and an exponent.
-/
import Schemata.Json.Parser
import Schemata.Json.Printer
import Schemata.Proofs.Decimal.Bits
import Schemata.Proofs.Decimal.Nearest
import Schemata.Proofs.Text.Digits

namespace Schemata.Json.Parser

open Decimal (digitChars floatOf decimalValue)
open Text (AllDigits isDigit natOfDigits)

/-! ## What may follow -/

/-- The characters do not go on with digits. -/
def NoDigit (cs : List Char) : Prop :=
  ∀ c ∈ cs.head?, isDigit c = false

/-- The characters do not go on with a number. -/
def Ends (cs : List Char) : Prop :=
  ∀ c ∈ cs.head?, isDigit c = false ∧ c ≠ '.' ∧ c ≠ 'e' ∧ c ≠ 'E'

theorem Ends.noDigit {cs : List Char} (h : Ends cs) : NoDigit cs :=
  fun c hc => (h c hc).1

theorem takeWhile_digits {ds rest : List Char} (hd : AllDigits ds) (hr : NoDigit rest) :
    (ds ++ rest).takeWhile isDigit = ds := by
  rw [List.takeWhile_append_of_pos hd]
  cases rest with
  | nil => simp
  | cons c rest => simp [hr c rfl]

theorem dropWhile_digits {ds rest : List Char} (hd : AllDigits ds) (hr : NoDigit rest) :
    (ds ++ rest).dropWhile isDigit = rest := by
  rw [List.dropWhile_append_of_pos hd]
  cases rest with
  | nil => simp
  | cons c rest => simp [hr c rfl]

/-! ## The parts of a number -/

/-- Digits that may stand before the point. -/
structure IsWhole (ds : List Char) : Prop where
  digits : AllDigits ds
  nonempty : ds ≠ []
  zero : ds.head? = some '0' → ds = ['0']

theorem isWhole_digitChars (n : Nat) : IsWhole (digitChars n) where
  digits := Text.allDigits_digitChars n
  nonempty := Text.digitChars_ne_nil n
  zero := by
    intro h
    rcases Nat.eq_zero_or_pos n with rfl | hn
    · rfl
    · exact absurd h (Text.head?_digitChars hn)

theorem wholeDigits_append {ds rest : List Char} (h : IsWhole ds) (hr : NoDigit rest) :
    wholeDigits (ds ++ rest) = some (ds, rest) := by
  obtain ⟨d, ds, rfl⟩ := List.exists_cons_of_ne_nil h.nonempty
  by_cases hz : d = '0'
  · subst hz
    obtain rfl : ds = [] := by simpa using h.zero rfl
    rfl
  · have hd : isDigit d = true := h.digits d (by simp)
    rw [List.cons_append, wholeDigits]
    · rw [if_pos hd, ← List.cons_append, takeWhile_digits h.digits hr,
        dropWhile_digits h.digits hr]
    · exact hz

/-- A fraction as text: nothing if it has no digits. -/
def fractionText (ds : List Char) : List Char :=
  if ds.isEmpty then [] else '.' :: ds

theorem fraction_append {ds rest : List Char} (h : AllDigits ds) (hr : NoDigit rest)
    (hp : rest.head? ≠ some '.') : fraction (fractionText ds ++ rest) = (ds, rest) := by
  cases ds with
  | nil =>
    cases rest with
    | nil => rfl
    | cons c rest =>
      have hc : c ≠ '.' := fun e => hp (congrArg some e)
      simp [fractionText, fraction, hc]
  | cons d ds =>
    simp only [fractionText, List.isEmpty_cons, Bool.false_eq_true, if_false,
      List.cons_append, fraction]
    rw [← List.cons_append, takeWhile_digits h hr, dropWhile_digits h hr]
    rfl

/-- An exponent as text: a sign and digits, or nothing. -/
def exponentText : Option (Bool × List Char) → List Char
  | none => []
  | some (negative, ds) => 'e' :: (if negative then '-' else '+') :: ds

/-- The number that an exponent denotes. -/
def exponentValue : Option (Bool × List Char) → Int
  | none => 0
  | some (negative, ds) => if negative then -(natOfDigits ds : Int) else natOfDigits ds

/-- An exponent has digits. -/
def IsExponent (e : Option (Bool × List Char)) : Prop :=
  ∀ x ∈ e, AllDigits x.2 ∧ x.2 ≠ []

theorem exponent_append {e : Option (Bool × List Char)} {rest : List Char} (h : IsExponent e)
    (hr : Ends rest) :
    exponent (exponentText e ++ rest) = (e.map fun x => exponentValue (some x), rest) := by
  match e with
  | none =>
    cases rest with
    | nil => rfl
    | cons c rest =>
      have hc := hr c rfl
      simp [exponentText, exponent, hc.2.2.1, hc.2.2.2]
  | some (negative, ds) =>
    obtain ⟨hd, hn⟩ := h _ rfl
    have ht := takeWhile_digits hd hr.noDigit
    have hw := dropWhile_digits hd hr.noDigit
    have he : ds.isEmpty = false := by
      simpa using hn
    cases negative <;> simp [exponentText, exponent, exponentValue, ht, hw, hn]

/-! ## Numbers of given parts -/

/-- The text of a number with given parts. -/
def numeral (whole frac : List Char) (e : Option (Bool × List Char)) : List Char :=
  whole ++ fractionText frac ++ exponentText e

variable {whole frac rest : List Char} {e : Option (Bool × List Char)}

theorem noDigit_of_parts (frac : List Char) (e : Option (Bool × List Char)) (hr : Ends rest) :
    NoDigit (fractionText frac ++ (exponentText e ++ rest)) ∧
      NoDigit (exponentText e ++ rest) ∧ (exponentText e ++ rest).head? ≠ some '.' := by
  have he : NoDigit (exponentText e ++ rest) ∧ (exponentText e ++ rest).head? ≠ some '.' := by
    match e with
    | none =>
      refine ⟨hr.noDigit, fun h => ?_⟩
      exact (hr '.' h).2.1 rfl
    | some (negative, ds) =>
      refine ⟨fun c hc => ?_, by simp [exponentText]⟩
      obtain rfl : 'e' = c := by simpa [exponentText] using hc
      decide
  refine ⟨?_, he⟩
  cases frac with
  | nil => exact he.1
  | cons d ds =>
    intro c hc
    obtain rfl : '.' = c := by simpa [fractionText] using hc
    decide

/-- A text of parts of which one says that the number is no whole one. -/
theorem number_numeral (negative : Bool) (hw : IsWhole whole) (hf : AllDigits frac)
    (he : IsExponent e) (hp : frac ≠ [] ∨ e ≠ none) (hr : Ends rest) :
    number negative (numeral whole frac e ++ rest) =
      some (.float (floatOf negative (natOfDigits (whole ++ frac))
        (exponentValue e - frac.length)), rest) := by
  obtain ⟨h1, h2, h3⟩ := noDigit_of_parts frac e hr
  have hdec : (frac.isEmpty && (e.map fun x => exponentValue (some x)).isNone) = false := by
    rcases hp with hp | hp
    · simp [hp]
    · obtain ⟨x, rfl⟩ := Option.ne_none_iff_exists'.1 hp
      simp
  have hv : (e.map fun x => exponentValue (some x)).getD 0 = exponentValue e := by
    cases e <;> rfl
  unfold number numeral
  simp only [List.append_assoc, wholeDigits_append hw h1, fraction_append hf h2 h3,
    exponent_append he hr, Option.bind_eq_bind, Option.bind_some, hdec, hv]
  rfl

/-- A text of digits alone is a whole number, unless there are too many. -/
theorem number_digits (negative : Bool) (hw : IsWhole whole)
    (hl : whole.length ≤ Text.maxDigits) (hr : Ends rest) :
    number negative (whole ++ rest) =
      some (.int (if negative then -(natOfDigits whole : Int)
        else natOfDigits whole), rest) := by
  have hfrac := fraction_append Text.AllDigits.nil hr.noDigit fun h => (hr '.' h).2.1 rfl
  have hexp := exponent_append (e := none) (by simp [IsExponent]) hr
  simp only [fractionText, List.isEmpty_nil, if_true, exponentText,
    List.nil_append] at hfrac hexp
  unfold number
  simp only [wholeDigits_append hw hr.noDigit, hfrac, hexp, Option.bind_eq_bind,
    Option.bind_some]
  simp [Nat.not_lt.2 hl]

/-! ## Layouts of doubles -/

/-- A numeral that denotes a decimal is read as the double nearest to it. -/
theorem number_of_value (negative : Bool) {n : Nat} {x : Int} (hw : IsWhole whole)
    (hf : AllDigits frac) (he : IsExponent e) (hp : frac ≠ [] ∨ e ≠ none) (hr : Ends rest)
    (hv : decimalValue (natOfDigits (whole ++ frac)) (exponentValue e - frac.length) =
      decimalValue n x) :
    number negative (numeral whole frac e ++ rest) =
      some (.float (floatOf negative n x), rest) := by
  rw [number_numeral negative hw hf he hp hr, floatOf, Decimal.nearest_congr hv, floatOf]

theorem isWhole_take {n : Nat} (hn : 0 < n) {p : Nat} (hp : 0 < p) :
    IsWhole ((digitChars n).take p) where
  digits := (Text.allDigits_digitChars n).take p
  nonempty := by
    obtain ⟨d, ds, e⟩ := List.exists_cons_of_ne_nil (Text.digitChars_ne_nil n)
    obtain ⟨q, rfl⟩ := Nat.exists_eq_succ_of_ne_zero hp.ne'
    simp [e]
  zero := by
    intro h
    rw [List.head?_take, if_neg hp.ne'] at h
    exact absurd h (Text.head?_digitChars hn)

theorem positional_behind {ds : List Char} (hd : ds ≠ []) (k : Nat) :
    Decimal.positional ds (-(k : Int)) = numeral ['0'] (List.replicate k '0' ++ ds) none := by
  simp [Decimal.positional, numeral, fractionText, exponentText, hd]

theorem positional_inside {ds : List Char} {p : Nat} (hp : 0 < p) (hl : p < ds.length) :
    Decimal.positional ds p = numeral (ds.take p) (ds.drop p) none := by
  have some : ¬ (ds.drop p).isEmpty = true := by
    simpa using hl
  have zeros : p - ds.length = 0 := by omega
  unfold Decimal.positional numeral fractionText exponentText
  rw [if_neg (by omega), if_neg some]
  simp only [Int.toNat_natCast, zeros, List.replicate_zero, List.append_nil, if_neg some]

theorem positional_after {ds : List Char} (hd : ds ≠ []) (k : Nat) :
    Decimal.positional ds (ds.length + k) =
      numeral (ds ++ List.replicate k '0') ['0'] none := by
  have point : ((ds.length : Int) + k).toNat = ds.length + k := by omega
  have positive : 0 < ds.length := List.length_pos_of_ne_nil hd
  unfold Decimal.positional numeral fractionText exponentText
  rw [if_neg (by omega), point]
  simp [List.take_of_length_le]

/-- What is written without an exponent. -/
theorem number_positional (negative : Bool) {n : Nat} (hn : 0 < n) (x : Int)
    (hr : Ends rest) :
    number negative
        (Decimal.positional (digitChars n) ((digitChars n).length + x) ++ rest) =
      some (.float (floatOf negative n x), rest) := by
  have read := Text.natOfDigits_digitChars n
  have digits := Text.allDigits_digitChars n
  have nonempty := Text.digitChars_ne_nil n
  have whole {p : Nat} (hp : 0 < p) := isWhole_take hn hp
  have notZero := Text.head?_digitChars hn
  generalize digitChars n = ds at *
  rcases le_or_gt 0 x with hx | hx
  · -- All digits stand before the point, with zeros after them.
    obtain ⟨k, rfl⟩ := Int.eq_ofNat_of_zero_le hx
    rw [positional_after nonempty]
    refine number_of_value negative ⟨digits.append (.zeros k), by simp [nonempty], ?_⟩
      (.zeros 1) (by simp [IsExponent]) (.inl (by simp)) hr ?_
    · intro h
      obtain ⟨d, ds, rfl⟩ := List.exists_cons_of_ne_nil nonempty
      exact absurd h notZero
    · have value : natOfDigits (ds ++ List.replicate k '0' ++ ['0']) = n * 10 ^ k * 10 := by
        calc natOfDigits (ds ++ List.replicate k '0' ++ ['0'])
            = natOfDigits (ds ++ List.replicate k '0') * 10 ^ 1 :=
              Text.natOfDigits_append_zeros _ 1
          _ = n * 10 ^ k * 10 := by rw [Text.natOfDigits_append_zeros, read, pow_one]
      rw [value, decimalValue, decimalValue, exponentValue]
      push_cast
      rw [zpow_natCast, mul_assoc]
      norm_num
  · obtain ⟨j, rfl⟩ := Int.exists_eq_neg_ofNat hx.le
    rcases Nat.lt_or_ge j ds.length with hj | hj
    · -- The point stands among the digits.
      have point : (ds.length : Int) + -(j : Int) = ((ds.length - j : Nat) : Int) := by omega
      rw [point, positional_inside (show 0 < ds.length - j by omega) (by omega)]
      refine number_of_value negative (whole (show 0 < ds.length - j by omega))
        (digits.drop _)
        (by simp [IsExponent]) (.inl ?_) hr ?_
      · rw [Ne, List.drop_eq_nil_iff]
        omega
      · rw [List.take_append_drop, read, exponentValue, List.length_drop]
        congr 1
        omega
    · -- No digit stands before the point.
      have point : (ds.length : Int) + -(j : Int) = -((j - ds.length : Nat) : Int) := by omega
      rw [point, positional_behind nonempty]
      refine number_of_value negative ⟨.zeros 1, by simp, fun _ => rfl⟩
        ((AllDigits.zeros _).append digits) (by simp [IsExponent])
        (.inl (by simp [nonempty])) hr ?_
      have value : natOfDigits (['0'] ++ (List.replicate (j - ds.length) '0' ++ ds)) = n := by
        calc natOfDigits (['0'] ++ (List.replicate (j - ds.length) '0' ++ ds))
            = natOfDigits (List.replicate (j - ds.length) '0' ++ ds) :=
              Text.natOfDigits_zeros_append 1 _
          _ = n := by rw [Text.natOfDigits_zeros_append, read]
      rw [value, exponentValue, List.length_append, List.length_replicate]
      congr 1
      omega

/-- What is written with an exponent. -/
theorem number_scientific (negative : Bool) {n : Nat} (hn : 0 < n) (width : Nat) (x : Int)
    (hr : Ends rest) :
    number negative
        (Decimal.scientific width (digitChars n) ((digitChars n).length + x - 1) ++ rest) =
      some (.float (floatOf negative n x), rest) := by
  have read := Text.natOfDigits_digitChars n
  have digits := Text.allDigits_digitChars n
  have leading := isWhole_take hn Nat.one_pos
  obtain ⟨d, ds, hds⟩ := List.exists_cons_of_ne_nil (Text.digitChars_ne_nil n)
  rw [hds] at read digits leading ⊢
  generalize hlead : (((d :: ds).length : Int) + x - 1) = lead
  have text : Decimal.scientific width (d :: ds) lead =
      numeral [d] ds (some (decide (lead < 0),
        List.replicate (width - (digitChars lead.natAbs).length) '0' ++
          digitChars lead.natAbs)) := by
    unfold Decimal.scientific numeral
    cases ds <;> simp [fractionText, exponentText]
  rw [text]
  have power : exponentValue (some (decide (lead < 0),
      List.replicate (width - (digitChars lead.natAbs).length) '0' ++
        digitChars lead.natAbs)) = lead := by
    rw [exponentValue, Text.natOfDigits_zeros_append, Text.natOfDigits_digitChars]
    by_cases h : lead < 0
    · simp only [h, decide_true, if_true]
      omega
    · simp only [h, decide_false, Bool.false_eq_true, if_false]
      omega
  refine number_of_value negative leading (digits.drop 1) ?_ (.inr (by simp)) hr ?_
  · intro y hy
    obtain rfl := Option.some.inj hy
    exact ⟨.append (.zeros _) (Text.allDigits_digitChars _), by
      simp [Text.digitChars_ne_nil]⟩
  · rw [power, show [d] ++ ds = d :: ds from rfl, read]
    congr 1
    simp only [List.length_cons] at hlead
    omega

/-- What is written for a magnitude reads back to it. -/
theorem number_magnitude (negative : Bool) (l : Decimal.Layout) {bits : Nat}
    (h : bits < Decimal.specialBits) (hr : Ends rest) :
    number negative (l.magnitude bits ++ rest) =
      some (.float (Decimal.toFloat negative bits), rest) := by
  have reads := Decimal.nearest_shortest h
  unfold Decimal.Layout.magnitude
  dsimp only
  generalize Decimal.shortest bits = d at *
  by_cases hz : d.digits = 0
  · rw [if_pos (by simpa using hz), ← reads]
    have zero : decimalValue (natOfDigits ['0', '0']) (exponentValue none - 1) =
        decimalValue d.digits d.exp := by
      rw [hz, show natOfDigits ['0', '0'] = 0 from rfl, decimalValue, decimalValue]
      simp
    have leading : IsWhole ['0'] := ⟨.zeros 1, by simp, fun _ => rfl⟩
    have places : AllDigits ['0'] := .zeros 1
    have noExponent : IsExponent none := by simp [IsExponent]
    have read := number_of_value negative leading places noExponent (.inl (by simp)) hr zero
    exact read
  · rw [if_neg (by simpa using hz)]
    have hpos := Nat.pos_of_ne_zero hz
    rw [← reads]
    split
    · rw [Int.sub_add_cancel]
      exact number_positional negative hpos d.exp hr
    · exact number_scientific negative hpos l.exponentWidth d.exp hr

end Schemata.Json.Parser
