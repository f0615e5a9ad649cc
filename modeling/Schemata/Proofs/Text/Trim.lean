/-
What is cut from the ends of a text.

Trimming by a class takes off all that the class has at both ends and nothing else. What is
left begins and ends outside the class (`head?_trim`, `getLast?_trim`), and a text that begins
and ends outside the class comes back from whatever of the class is put around it
(`trim_around`).

Three classes meet in the literals of a catalogue: blanks, quotes, and the characters of
words. No blank and no quote is a character of a word, nor is a blank a digit.
-/
import Mathlib
import Schemata.Text.Blank
import Schemata.Text.Literal
import Schemata.Text.Word

namespace Schemata.Text

variable {p : Char → Bool}

/-! ## Trimming -/

theorem dropWhile_append_of_head {before cs : List Char} (all : ∀ c ∈ before, p c = true)
    (first : ∀ c ∈ cs.head?, p c = false) : (before ++ cs).dropWhile p = cs := by
  rw [List.dropWhile_append_of_pos all]
  cases cs with
  | nil => rfl
  | cons c cs => simp [first c rfl]

/-- What is put around a text is cut off again, if the text itself begins and ends outside the
class. -/
theorem trim_around {before cs after : List Char} (front : ∀ c ∈ before, p c = true)
    (back : ∀ c ∈ after, p c = true) (first : ∀ c ∈ cs.head?, p c = false)
    (last : ∀ c ∈ cs.getLast?, p c = false) : trim p (before ++ cs ++ after) = cs := by
  cases cs with
  | nil =>
    have all : ∀ c ∈ before ++ after, p c = true := by
      intro c hc
      exact (List.mem_append.1 hc).elim (front c) (back c)
    simp only [trim, trimRight, List.append_nil]
    rw [List.dropWhile_eq_nil_iff.2 all]
    rfl
  | cons c cs =>
    have cut : (before ++ (c :: cs) ++ after).dropWhile p = c :: cs ++ after := by
      rw [List.append_assoc]
      exact dropWhile_append_of_head front first
    rw [trim, cut, trimRight, List.reverse_append, dropWhile_append_of_head]
    · simp
    · simpa using back
    · rw [List.head?_reverse]
      exact last

/-- Nothing is cut from a text that begins and ends outside the class. -/
theorem trim_of_ends {cs : List Char} (first : ∀ c ∈ cs.head?, p c = false)
    (last : ∀ c ∈ cs.getLast?, p c = false) : trim p cs = cs := by
  have nothing : ∀ c ∈ ([] : List Char), p c = true := by simp
  have whole := trim_around nothing nothing first last
  rwa [List.nil_append, List.append_nil] at whole

theorem isPrefix_trimRight (p : Char → Bool) (cs : List Char) : trimRight p cs <+: cs := by
  rw [trimRight, ← List.reverse_suffix, List.reverse_reverse]
  exact List.dropWhile_suffix p

theorem isInfix_trim (cs : List Char) : trim p cs <:+: cs :=
  (isPrefix_trimRight p _).isInfix.trans (List.dropWhile_suffix p).isInfix

theorem head?_dropWhile (cs : List Char) : ∀ c ∈ (cs.dropWhile p).head?, p c = false := by
  intro c hc
  have kept := List.head?_dropWhile_not p cs
  rw [Option.mem_def.1 hc] at kept
  simpa using kept

/-- A trimmed text does not end in the class. -/
theorem getLast?_trim {cs : List Char} : ∀ c ∈ (trim p cs).getLast?, p c = false := by
  rw [trim, trimRight, List.getLast?_reverse]
  exact head?_dropWhile _

/-- A trimmed text does not begin in the class. -/
theorem head?_trim {cs : List Char} : ∀ c ∈ (trim p cs).head?, p c = false := by
  intro c hc
  obtain ⟨rest, whole⟩ := isPrefix_trimRight p (cs.dropWhile p)
  rw [← trim] at whole
  refine head?_dropWhile cs c ?_
  rw [← whole, List.head?_append, Option.mem_def.1 hc]
  rfl

theorem exists_after_trimRight (p : Char → Bool) (cs : List Char) :
    ∃ after, (∀ c ∈ after, p c = true) ∧ trimRight p cs ++ after = cs := by
  refine ⟨(cs.reverse.takeWhile p).reverse, ?_, ?_⟩
  · exact fun c hc => List.mem_takeWhile_imp (List.mem_reverse.1 hc)
  · rw [trimRight, ← List.reverse_append, List.takeWhile_append_dropWhile,
      List.reverse_reverse]

/-- What a trimmed text was cut from. -/
theorem exists_around_trim (p : Char → Bool) (cs : List Char) :
    ∃ before after, (∀ c ∈ before, p c = true) ∧ (∀ c ∈ after, p c = true) ∧
      before ++ trim p cs ++ after = cs := by
  obtain ⟨after, back, whole⟩ := exists_after_trimRight p (cs.dropWhile p)
  refine ⟨cs.takeWhile p, after, fun c hc => List.mem_takeWhile_imp hc, back, ?_⟩
  rw [trim, List.append_assoc, whole, List.takeWhile_append_dropWhile]

/-- What is put around a text makes no difference. -/
theorem trim_padded {before after : List Char} (front : ∀ c ∈ before, p c = true)
    (back : ∀ c ∈ after, p c = true) (cs : List Char) :
    trim p (before ++ cs ++ after) = trim p cs := by
  obtain ⟨front', back', all, all', whole⟩ := exists_around_trim p cs
  have same :
      before ++ cs ++ after = (before ++ front') ++ trim p cs ++ (back' ++ after) := by
    conv_lhs => rw [← whole]
    simp only [List.append_assoc]
  rw [same]
  refine trim_around ?_ ?_ head?_trim getLast?_trim
  · exact fun c hc => (List.mem_append.1 hc).elim (front c) (all c)
  · exact fun c hc => (List.mem_append.1 hc).elim (all' c) (back c)

theorem trim_dropWhile (p : Char → Bool) (cs : List Char) :
    trim p (cs.dropWhile p) = trim p cs := by
  rw [trim, trim, List.dropWhile_idempotent]

theorem trim_trimRight (p : Char → Bool) (cs : List Char) :
    trim p (trimRight p cs) = trim p cs := by
  obtain ⟨after, back, whole⟩ := exists_after_trimRight p cs
  have nothing : ∀ c ∈ ([] : List Char), p c = true := by simp
  have cut := trim_padded nothing back (trimRight p cs)
  rw [List.nil_append, whole] at cut
  exact cut.symm

theorem getLast?_trimRight (cs : List Char) :
    ∀ c ∈ (trimRight p cs).getLast?, p c = false := by
  rw [trimRight, List.getLast?_reverse]
  exact head?_dropWhile _

/-- Behind a character outside the class, only the end is cut. -/
theorem trim_cons {c : Char} (solid : p c = false) (cs : List Char) :
    trim p (c :: cs) = c :: trimRight p cs := by
  obtain ⟨after, back, whole⟩ := exists_after_trimRight p cs
  have last : ∀ d ∈ (c :: trimRight p cs).getLast?, p d = false := by
    intro d hd
    rw [List.getLast?_cons] at hd
    cases end_ : (trimRight p cs).getLast? with
    | none =>
      rw [end_] at hd
      simpa [← Option.mem_some_iff.1 hd] using solid
    | some e =>
      rw [end_] at hd
      exact getLast?_trimRight cs d (end_ ▸ hd)
  have nothing : ∀ c ∈ ([] : List Char), p c = true := by simp
  have cut := trim_around nothing back (by simp [solid]) last
  rwa [List.nil_append, List.cons_append, whole] at cut

/-- Before a text outside the class, only the front is cut. -/
theorem trim_append {ds : List Char} (solid : ∀ c ∈ ds, p c = false) (some : ds ≠ [])
    (cs : List Char) : trim p (cs ++ ds) = cs.dropWhile p ++ ds := by
  have first : ∀ c ∈ (cs.dropWhile p ++ ds).head?, p c = false := by
    intro c hc
    rw [List.head?_append] at hc
    cases start : (cs.dropWhile p).head? with
    | none => exact solid c (List.mem_of_mem_head? (by simpa [start] using hc))
    | some d => exact head?_dropWhile cs c (by simpa [start] using hc)
  have last : ∀ c ∈ (cs.dropWhile p ++ ds).getLast?, p c = false := by
    intro c hc
    rw [List.getLast?_append_of_ne_nil _ some] at hc
    exact solid c (List.mem_of_getLast? hc)
  have front : ∀ c ∈ cs.takeWhile p, p c = true := fun c hc => List.mem_takeWhile_imp hc
  have nothing : ∀ c ∈ ([] : List Char), p c = true := by simp
  have cut := trim_around front nothing first last
  rwa [List.append_nil, ← List.append_assoc, List.takeWhile_append_dropWhile] at cut

/-! ## Classes of characters -/

theorem isBlank_of_isDigit {c : Char} (h : isDigit c = true) : isBlank c = false := by
  rw [isDigit, Bool.and_eq_true, decide_eq_true_eq, decide_eq_true_eq,
    Char.le_def, Char.le_def, UInt32.le_iff_toNat_le, UInt32.le_iff_toNat_le] at h
  have low : 48 ≤ c.toNat := h.1
  have high : c.toNat ≤ 57 := h.2
  simp [isBlank]
  omega

/-- The code points of the blanks. -/
def blankPoints : List Nat := [
  9, 10, 11, 12, 13, 28, 29, 30, 31, 32, 0x85, 0xA0, 0x1680, 0x2000, 0x2001, 0x2002, 0x2003,
  0x2004, 0x2005, 0x2006, 0x2007, 0x2008, 0x2009, 0x200A, 0x2028, 0x2029, 0x202F, 0x205F,
  0x3000]

theorem toNat_mem_blankPoints {c : Char} (h : isBlank c = true) : c.toNat ∈ blankPoints := by
  simp only [isBlank, Bool.or_eq_true, Bool.and_eq_true, decide_eq_true_eq, beq_iff_eq] at h
  simp only [blankPoints, List.mem_cons, List.not_mem_nil, or_false]
  omega

/-- No blank is a letter, a numeral or the underscore. -/
theorem isBlank_of_isWordChar {c : Char} (h : isWordChar c = true) : isBlank c = false := by
  by_contra blank
  have point := toNat_mem_blankPoints (by simpa using blank)
  have outside : ∀ n ∈ blankPoints, n ≠ 95 ∧ alphanumericSet.contains n = false := by
    decide +kernel
  obtain ⟨other, none⟩ := outside _ point
  have underscore : c ≠ '_' := by
    rintro rfl
    exact other rfl
  simp [isWordChar, none, underscore] at h

end Schemata.Text
