/-
Whole numbers among the defaults of columns.

A catalogue prints a default as text. Each dialect first looks for the words that have a
meaning for it, and what is left both read alike (`Value.ofLiteral`). No word with a meaning
begins with a digit or a sign, so that the decimal text of a whole number always comes to be
read in that way (`plainDefault_around`), whatever blanks stand around it.

A sign is no digit. So a number is read as a number if it is not negative, and a negative one
stays the text that it was (`plainDefault_decimal`).
-/
import Schemata.Proofs.Text.Digits
import Schemata.Proofs.Text.Trim
import Schemata.Proofs.Value.Written
import Schemata.Table.Build

namespace Schemata

/-! ## Texts without a meaning of their own -/

namespace Postgres

/-- A text that begins as no word with a meaning does is quoted or a literal. -/
theorem defaultOf_cons {c : Char} (other : c ∉ ['N', 'n', 'C']) (cs : List Char) :
    defaultOf (c :: cs) =
      if isCastLiteral (c :: cs) then .ok (unquoted (beforeCast (c :: cs)))
      else if isQuotedLiteral (c :: cs) then .ok (unquoted (c :: cs))
      else Value.ofLiteral (c :: cs) := by
  simp only [List.mem_cons, List.not_mem_nil, or_false, not_or] at other
  obtain ⟨big, small, current⟩ := other
  have begins (d : Char) (ds : List Char) (ne : c ≠ d) :
      (d :: ds).isPrefixOf (c :: cs) = false := by
    rw [List.isPrefixOf_cons_cons, beq_eq_false_iff_ne.2 ne.symm, Bool.false_and]
  have nextval : "nextval(".toList.isPrefixOf (c :: cs) = false := begins 'n' _ small
  have now : "now()".toList.isPrefixOf (c :: cs) = false := begins 'n' _ small
  have timestamp : "CURRENT_TIMESTAMP".toList.isPrefixOf (c :: cs) = false :=
    begins 'C' _ current
  have date : "CURRENT_DATE".toList.isPrefixOf (c :: cs) = false := begins 'C' _ current
  have time : "CURRENT_TIME".toList.isPrefixOf (c :: cs) = false := begins 'C' _ current
  have null : (c :: cs == "NULL".toList) = false := by
    rw [beq_eq_false_iff_ne]
    intro same
    exact big (List.cons.inj same).1
  simp only [defaultOf, null, nextval, now, timestamp, date, time, Bool.or_self,
    Bool.false_eq_true, if_false]

end Postgres

namespace Sqlite

theorem defaultOf_cons {c : Char} (other : c ∉ ['\x7b', '[', 'N', 'C']) (cs : List Char) :
    defaultOf (c :: cs) = Value.ofLiteral (c :: cs) := by
  have begins {s : String} (same : String.ofList (c :: cs) = s) :
      s.toList.head? = some c := by
    rw [← same, String.toList_ofList]
    rfl
  unfold defaultOf
  split
  case h_7 => rfl
  all_goals
    rename_i same
    have first := begins same
    simp at first
    simp [← first] at other

end Sqlite

namespace Table

/-! ## Numerals -/

/-- The characters of a decimal number. -/
def IsNumeral (cs : List Char) : Prop :=
  cs ≠ [] ∧ ∀ c ∈ cs, Text.isDigit c = true ∨ c = '-'

variable {cs : List Char}

namespace IsNumeral

theorem digits (h : Text.AllDigits cs) (nonempty : cs ≠ []) : IsNumeral cs :=
  ⟨nonempty, fun c hc => .inl (h c hc)⟩

theorem minus (h : Text.AllDigits cs) : IsNumeral ('-' :: cs) := by
  refine ⟨by simp, fun c hc => ?_⟩
  rcases List.mem_cons.1 hc with rfl | hc
  · exact .inr rfl
  · exact .inl (h c hc)

theorem notMem (h : IsNumeral cs) {c : Char} (other : (!Text.isDigit c && c != '-') = true) :
    c ∉ cs := by
  intro hc
  rcases h.2 c hc with digit | rfl
  · simp [digit] at other
  · simp at other

theorem head_notMem {c : Char} (h : IsNumeral (c :: cs)) {others : List Char}
    (free : (others.all fun d => !Text.isDigit d && d != '-') = true) : c ∉ others := by
  intro hc
  exact h.notMem (List.all_eq_true.1 free c hc) (.head _)

theorem isBlank (h : IsNumeral cs) : ∀ c ∈ cs, Text.isBlank c = false := by
  intro c hc
  rcases h.2 c hc with digit | rfl
  · exact Text.isBlank_of_isDigit digit
  · decide

theorem trimBlank_around (h : IsNumeral cs) {before after : List Char}
    (front : ∀ c ∈ before, Text.isBlank c = true)
    (back : ∀ c ∈ after, Text.isBlank c = true) :
    Text.trimBlank (before ++ cs ++ after) = cs :=
  Text.trim_around front back (fun c hc => h.isBlank c (List.mem_of_mem_head? hc))
    fun c hc => h.isBlank c (List.mem_of_getLast? hc)

theorem postgres (h : IsNumeral cs) : Postgres.defaultOf cs = Value.ofLiteral cs := by
  obtain ⟨c, rest, rfl⟩ := List.exists_cons_of_ne_nil h.1
  have quote : c ≠ '\'' := by
    rintro rfl
    exact h.notMem (by decide) (.head _)
  have cast : Postgres.isCastLiteral (c :: rest) = false := by
    simp [Postgres.isCastLiteral, quote]
  have quoted : Postgres.isQuotedLiteral (c :: rest) = false := by
    simp [Postgres.isQuotedLiteral, quote]
  rw [Postgres.defaultOf_cons (h.head_notMem (by decide)), cast, quoted]
  rfl

theorem sqlite (h : IsNumeral cs) : Sqlite.defaultOf cs = Value.ofLiteral cs := by
  obtain ⟨c, rest, rfl⟩ := List.exists_cons_of_ne_nil h.1
  exact Sqlite.defaultOf_cons (h.head_notMem (by decide)) rest

/-- Numerals have no quotes that could be cut. -/
theorem bare_around (h : IsNumeral cs) {before after : List Char}
    (front : ∀ c ∈ before, Text.isBlank c = true)
    (back : ∀ c ∈ after, Text.isBlank c = true) :
    Sqlite.bare (before ++ cs ++ after) = cs := by
  have uncut {q : Char} (other : (!Text.isDigit q && q != '-') = true) :
      Text.trim (· == q) cs = cs := by
    refine Text.trim_eq_self fun c hc => ?_
    rw [beq_eq_false_iff_ne]
    rintro rfl
    exact h.notMem other hc
  rw [Sqlite.bare, h.trimBlank_around front back, uncut (by decide), uncut (by decide)]

end IsNumeral

/-- A numeral is a literal to both dialects, whatever blanks stand around it. -/
theorem plainDefault_around (d : Dialect) (h : IsNumeral cs) {before after : String}
    (front : ∀ c ∈ before.toList, Text.isBlank c = true)
    (back : ∀ c ∈ after.toList, Text.isBlank c = true) :
    plainDefault (some d) (.text (before ++ String.ofList cs ++ after)) =
      Value.ofLiteral cs := by
  have chars :
      (before ++ String.ofList cs ++ after).toList = before.toList ++ cs ++ after.toList := by
    simp
  have present : (before ++ String.ofList cs ++ after).isEmpty = false := by
    rw [String.isEmpty_eq_false_iff, ne_eq, ← String.toList_eq_nil_iff, chars]
    simp [h.1]
  cases d with
  | postgres =>
    simp only [plainDefault, Postgres.parseDefault, Value.word?, present,
      Bool.false_eq_true, if_false, chars]
    rw [h.trimBlank_around front back, h.postgres]
  | sqlite =>
    simp only [plainDefault, Sqlite.parseDefault, Value.word?, present,
      Bool.false_eq_true, if_false, chars]
    rw [h.bare_around front back, h.sqlite]

/-! ## Defaults that can be written -/

/-- What is read, if anything is, can be written. -/
def IsShort (x : Except Fault Value) : Prop :=
  ∀ v, x = .ok v → v.hasLongInt = false

theorem IsShort.ok {v : Value} (short : v.hasLongInt = false) : IsShort (.ok v) := by
  rintro _ ⟨⟩
  exact short

theorem IsShort.ite {p : Prop} [Decidable p] {x y : Except Fault Value} (hx : IsShort x)
    (hy : IsShort y) : IsShort (if p then x else y) := by
  split
  · exact hx
  · exact hy

/-- A number that is too long is refused, so that what is read as a literal can be written. -/
theorem isShort_ofLiteral (cs : List Char) : IsShort (Value.ofLiteral cs) := by
  unfold Value.ofLiteral
  split
  case h_1 ds digits =>
    intro x read
    split at read
    case isTrue => cases read
    case isFalse short =>
      cases read
      rw [← Bool.not_eq_true, Value.hasLongInt_int, Int.natAbs_natCast, Nat.not_le]
      exact (Text.natOfDigits_lt (Text.allDigits_of_digitLiteral? digits)).trans_le
        (Nat.pow_le_pow_right (by decide) (by omega))
  case h_2 =>
    split
    · exact .ok rfl
    · exact .ite (.ok rfl) (.ite (.ok rfl) (.ok rfl))

/-- Postgres reads a text as what can be written, and leaves anything else as it is. -/
theorem hasLongInt_parseDefault {v x : Value} (read : Postgres.parseDefault v = .ok x) :
    x.hasLongInt = v.hasLongInt := by
  have text (cs : List Char) : IsShort (Postgres.defaultOf cs) := by
    unfold Postgres.defaultOf
    iterate 7 refine .ite (.ok rfl) ?_
    exact isShort_ofLiteral cs
  unfold Postgres.parseDefault at read
  split at read
  case h_1 s word =>
    have short : v.hasLongInt = false := by
      cases v <;> first | rfl | cases word
    rw [short]
    exact IsShort.ite (.ok rfl) (text _) x read
  case h_2 =>
    cases read
    rfl

/-! ## What numerals are read as -/

theorem ofLiteral_digits (h : Text.AllDigits cs) (nonempty : cs ≠ []) :
    Value.ofLiteral cs =
      if Text.maxDigits < cs.length then .error .badValue
      else .ok (.int (Text.natOfDigits cs)) := by
  rw [Value.ofLiteral, Text.digitLiteral?_digits h nonempty]

/-- Digits that are too many are refused. -/
theorem plainDefault_digits (d : Dialect) (h : Text.AllDigits cs)
    (long : Text.maxDigits < cs.length) :
    plainDefault (some d) (.text (String.ofList cs)) = .error .badValue := by
  have nonempty : cs ≠ [] := List.ne_nil_of_length_pos (by omega)
  have nothing : ∀ c ∈ "".toList, Text.isBlank c = true := by simp
  have read := plainDefault_around d (.digits h nonempty) nothing nothing
  rwa [String.empty_append, String.append_empty, ofLiteral_digits h nonempty,
    if_pos long] at read

/-- What begins with a sign or a quote is no number, no fraction and no word. -/
theorem ofLiteral_signed {c : Char} (sign : c ∈ ['-', '\'']) (cs : List Char) :
    Value.ofLiteral (c :: cs) = .ok (.text (String.ofList (c :: cs))) := by
  have facts : Text.isDigit c = false ∧ c ≠ '\n' ∧ c ≠ '.' ∧ c ≠ 't' ∧ c ≠ 'f' := by
    simp only [List.mem_cons, List.not_mem_nil, or_false] at sign
    rcases sign with rfl | rfl
    · decide
    · decide
  obtain ⟨other, unbroken, point, true', false'⟩ := facts
  have body : ∃ ds, Text.withoutFinalBreak (c :: cs) = c :: ds := by
    cases cs with
    | nil => exact ⟨[], by simp [Text.withoutFinalBreak, unbroken]⟩
    | cons d cs =>
      rw [Text.withoutFinalBreak]
      split
      · exact ⟨_, rfl⟩
      · exact ⟨_, rfl⟩
  obtain ⟨ds, body⟩ := body
  have digits : Text.digitLiteral? (c :: cs) = none := by
    simp [Text.digitLiteral?, body, other]
  have fraction : Text.fractionLiteral? (c :: cs) = none := by
    simp only [Text.fractionLiteral?, body, List.takeWhile_cons, List.dropWhile_cons, other,
      Bool.false_eq_true, if_false]
    split
    · rename_i same
      exact absurd (List.cons.inj same).1 point
    · rfl
  have lower : (Text.lower (c :: cs)).head? = some c := by
    simp only [List.mem_cons, List.not_mem_nil, or_false] at sign
    rcases sign with rfl | rfl
    · rfl
    · rfl
  have word (s : String) (first : s.toList.head? ≠ some c) :
      (String.ofList (Text.lower (c :: cs)) == s) = false := by
    rw [beq_eq_false_iff_ne]
    rintro rfl
    simp [lower] at first
  simp only [Value.ofLiteral, digits, fraction, word "true" (by simpa using true'.symm),
    word "false" (by simpa using false'.symm), Bool.false_eq_true, if_false]

/-- The decimal text of a whole number is read as this number if the number is not negative
and has not too many digits. With a sign it is no number to either dialect and stays the text
it was. -/
theorem plainDefault_decimal (d : Dialect) (n : Int) {before after : String}
    (front : ∀ c ∈ before.toList, Text.isBlank c = true)
    (back : ∀ c ∈ after.toList, Text.isBlank c = true) :
    plainDefault (some d) (.text (before ++ toString n ++ after)) =
      if n < 0 then .ok (.text (toString n))
      else if Text.maxDigits < (toString n).length then .error .badValue
      else .ok (.int n) := by
  have digits := Text.allDigits_digitChars n.natAbs
  have nonempty := Text.digitChars_ne_nil n.natAbs
  have chars := Text.toList_toString_int n
  by_cases negative : n < 0
  · simp only [negative, decide_true, if_true] at chars ⊢
    have text : toString n = String.ofList ('-' :: Decimal.digitChars n.natAbs) := by
      rw [← chars, String.ofList_toList]
    rw [text, plainDefault_around d (.minus digits) front back, ofLiteral_signed (by simp)]
  · simp only [negative, decide_false, Bool.false_eq_true, if_false] at chars ⊢
    have text : toString n = String.ofList (Decimal.digitChars n.natAbs) := by
      rw [← chars, String.ofList_toList]
    have value : ((Text.natOfDigits (Decimal.digitChars n.natAbs) : Nat) : Int) = n := by
      rw [Text.natOfDigits_digitChars]
      omega
    rw [text, plainDefault_around d (.digits digits nonempty) front back,
      ofLiteral_digits digits nonempty, value, String.length_ofList]

/-- Blanks of several kinds around a number, and around one with a sign. -/
theorem plainDefault_decimal_blanks :
    plainDefault (some .postgres) (.text " \t42\u00a0") = .ok (.int 42) ∧
      plainDefault (some .sqlite) (.text " \t42\u00a0") = .ok (.int 42) ∧
      plainDefault (some .sqlite) (.text " \t-7\u00a0") = .ok (.text "-7") := by
  have front : ∀ c ∈ " \t".toList, Text.isBlank c = true := by simp [Text.isBlank]
  have back : ∀ c ∈ "\u00a0".toList, Text.isBlank c = true := by simp [Text.isBlank]
  have number : " \t42\u00a0" = " \t" ++ toString (42 : Int) ++ "\u00a0" := by decide
  have signed : " \t-7\u00a0" = " \t" ++ toString (-7 : Int) ++ "\u00a0" := by decide
  have short : ¬ Text.maxDigits < (toString (42 : Int)).length := by decide
  rw [number, signed, plainDefault_decimal .postgres 42 front back,
    plainDefault_decimal .sqlite 42 front back, plainDefault_decimal .sqlite (-7) front back,
    if_neg short]
  exact ⟨rfl, rfl, rfl⟩

/-- In neither dialect is a negative number of one digit read as a number. -/
theorem not_read_negative :
    ¬ ∃ d : Dialect, ∀ n : Int, (toString n.natAbs).length ≤ Text.maxDigits →
      plainDefault (some d) (.text (toString n)) = .ok (.int n) := by
  rintro ⟨d, claim⟩
  have text : toString (-5 : Int) = "-5" := by decide
  have read := claim (-5) (by decide)
  rw [text] at read
  have kept : plainDefault (some d) (.text "-5") = .ok (.text "-5") := by
    cases d with
    | postgres => rfl
    | sqlite => rfl
  exact absurd (kept.symm.trans read) (by simp)

end Table

end Schemata
