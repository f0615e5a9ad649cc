/-
Line breaks in documents that were written.

A text keeps no carriage return when it is written, since every control character is written
by a letter or by number, and the rest of a document has none. What is read from a file is
therefore the text that was written to it: nothing in it is taken for a line break of another
system.
-/
import Schemata.Proofs.Json.RoundTrip
import Schemata.Text.LineBreak

namespace Schemata

namespace Text

/-- A text without carriage returns has plain line breaks already. -/
theorem unifyBreaks_eq_self {cs : List Char} (h : '\r' ∉ cs) : unifyBreaks cs = cs := by
  induction cs with
  | nil => rfl
  | cons c cs ih =>
    simp only [List.mem_cons, not_or] at h
    rw [unifyBreaks, ih h.2]
    · rintro ds rfl
      exact absurd rfl h.1
    · rintro rfl
      exact absurd rfl h.1

theorem withPlainBreaks_eq_self {s : String} (h : '\r' ∉ s.toList) :
    withPlainBreaks s = s := by
  rw [withPlainBreaks, unifyBreaks_eq_self h, String.ofList_toList]

theorem AllDigits.noReturn {ds : List Char} (h : AllDigits ds) : '\r' ∉ ds := by
  intro hc
  exact absurd (h '\r' hc) (by decide)

end Text

namespace Json

open Text (AllDigits)

/-! ## Texts -/

theorem digitChar_ne_return {d : Nat} (h : d < 16) : '\r' ≠ d.digitChar := by
  revert d
  decide

theorem noReturn_hex {n : Nat} (h : n < 65536) : '\r' ∉ Text.Quoted.hex 4 n := by
  rw [hex_four h]
  simp only [List.mem_cons, List.not_mem_nil, or_false, not_or]
  refine ⟨?_, ?_, ?_, ?_⟩
  all_goals
    apply digitChar_ne_return
    omega

theorem noReturn_unit {n : Nat} (h : n < 65536) : '\r' ∉ unit n := by
  simp [unit, noReturn_hex h]

theorem noReturn_byNumber (c : Char) : '\r' ∉ byNumber c := by
  unfold byNumber
  dsimp only
  split
  case isTrue plane => exact noReturn_unit plane
  case isFalse plane =>
    obtain ⟨high, low, eh, el, hh, hl, -⟩ := surrogates (Nat.not_lt.1 plane)
    rw [eh, el, List.mem_append, not_or]
    exact ⟨noReturn_unit (by omega), noReturn_unit (by omega)⟩

theorem noReturn_escape {a : Alphabet} (ha : a.IsSafe) (c : Char) : '\r' ∉ a.escape c := by
  unfold Alphabet.escape
  repeat' split
  any_goals decide
  · rename_i keeps
    have plain := ha c keeps
    rw [List.mem_singleton]
    rintro rfl
    exact absurd plain (by decide)
  · exact noReturn_byNumber c

theorem noReturn_text {a : Alphabet} (ha : a.IsSafe) (s : String) : '\r' ∉ a.text s := by
  simp only [Alphabet.text, List.mem_cons, List.mem_append, List.mem_flatMap, not_or]
  refine ⟨by decide, ?_, by decide, by simp⟩
  rintro ⟨c, -, hc⟩
  exact noReturn_escape ha c hc

/-! ## Numbers -/

theorem noReturn_sign {b : Bool} {cs : List Char} (h : '\r' ∉ cs) :
    '\r' ∉ (if b then '-' :: cs else cs) := by
  split
  · simp [h]
  · exact h

theorem noReturn_positional {ds : List Char} (h : AllDigits ds) (point : Int) :
    '\r' ∉ Decimal.positional ds point := by
  have zeros (k : Nat) : '\r' ∉ List.replicate k '0' := (AllDigits.zeros k).noReturn
  have front (n : Nat) : '\r' ∉ ds.take n := (h.take n).noReturn
  have back (n : Nat) : '\r' ∉ ds.drop n := (h.drop n).noReturn
  unfold Decimal.positional
  split
  · simp [h.noReturn]
  · dsimp only
    split
    · simp [front]
    · simp [front, back]

theorem noReturn_scientific {ds : List Char} (h : AllDigits ds) (width : Nat) (e : Int) :
    '\r' ∉ Decimal.scientific width ds e := by
  have exponent : '\r' ∉ Decimal.digitChars e.natAbs := (Text.allDigits_digitChars _).noReturn
  have digits := h.noReturn
  unfold Decimal.scientific
  dsimp only
  split
  · simp only [List.mem_cons, not_or] at digits
    split <;> simp [digits, exponent]
  · split <;> simp [digits, exponent]

theorem noReturn_magnitude (l : Decimal.Layout) (bits : Nat) : '\r' ∉ l.magnitude bits := by
  have digits := Text.allDigits_digitChars (Decimal.shortest bits).digits
  unfold Decimal.Layout.magnitude
  dsimp only
  repeat' split
  · decide
  · exact noReturn_positional digits _
  · exact noReturn_scientific digits _ _

/-! ## Documents -/

/-- What stands between the parts of a document holds no carriage return. -/
structure Style.IsPlain (st : Style) : Prop where
  gap : ∀ level, '\r' ∉ st.gap level
  next : ∀ level, '\r' ∉ st.next level
  colon : '\r' ∉ st.colon

theorem indented_isPlain : indented.IsPlain where
  gap level := by simp [indented, lineBreak]
  next level := by simp [indented, lineBreak]
  colon := by decide

variable {st : Style} {a : Alphabet}

mutual

theorem noReturn_chars (hs : st.IsPlain) (ha : a.IsSafe) (level : Nat) : ∀ j : Json,
    j.isFinite = true → '\r' ∉ chars st a level j
  | .null, _ => by simp [chars]
  | .bool true, _ => by simp [chars]
  | .bool false, _ => by simp [chars]
  | .int n, _ => by
    rw [chars, Text.toList_toString_int]
    exact noReturn_sign (Text.allDigits_digitChars _).noReturn
  | .float x, h => by
    rw [chars, toList_write (Decimal.magnitudeBits_lt h)]
    exact noReturn_sign (noReturn_magnitude _ _)
  | .text s, _ => noReturn_text ha s
  | .array [], _ => by simp [chars]
  | .array (j :: js), h => by
    simp only [isFinite, areFinite, Bool.and_eq_true] at h
    simp [chars, hs.gap, noReturn_chars hs ha _ j h.1, noReturn_itemsAfter hs ha level js h.2]
  | .object [], _ => by simp [chars]
  | .object ((k, j) :: ms), h => by
    simp only [isFinite, membersAreFinite, Bool.and_eq_true] at h
    simp [chars, hs.gap, hs.colon, noReturn_text ha k, noReturn_chars hs ha _ j h.1,
      noReturn_membersAfter hs ha level ms h.2]

theorem noReturn_itemsAfter (hs : st.IsPlain) (ha : a.IsSafe) (level : Nat) :
    ∀ js : List Json,
    areFinite js = true → '\r' ∉ itemsAfter st a level js
  | [], _ => by simp [itemsAfter, hs.gap]
  | j :: js, h => by
    simp only [areFinite, Bool.and_eq_true] at h
    simp [itemsAfter, hs.next, noReturn_chars hs ha _ j h.1,
      noReturn_itemsAfter hs ha level js h.2]

theorem noReturn_membersAfter (hs : st.IsPlain) (ha : a.IsSafe) (level : Nat) :
    ∀ ms : List (String × Json), membersAreFinite ms = true →
      '\r' ∉ membersAfter st a level ms
  | [], _ => by simp [membersAfter, hs.gap]
  | (k, j) :: ms, h => by
    simp only [membersAreFinite, Bool.and_eq_true] at h
    simp [membersAfter, hs.next, hs.colon, noReturn_text ha k, noReturn_chars hs ha _ j h.1,
      noReturn_membersAfter hs ha level ms h.2]

end

theorem noReturn_print (hs : st.IsPlain) (ha : a.IsSafe) {j : Json} (h : j.isFinite = true) :
    '\r' ∉ (print st a j).toList := by
  rw [print, String.toList_ofList]
  exact noReturn_chars hs ha 0 j h

end Json

end Schemata
