/-
Text defaults as Postgres prints them.

The catalogue prints a text default between single quotes, every quote in it twice, and casts
it to the type of the column (`literal`). The reader takes such an expression for a literal if
a quote, two colons and a word follow each other on its first line; it then keeps what stands
before the first two colons that follow each other, wherever they are, and cuts the quotes
from both ends.

So the text comes back exactly if it has no quote, no line break and no two colons in a row
(`parseDefault_literal_iff`). A quote inside stays doubled and one at an end is cut, two
colons end the text, and after a line break the whole expression is kept as it was printed.
-/
import Schemata.Proofs.Table.Number
import Schemata.Proofs.Text.Trim

namespace Schemata.Postgres

/-! ## What the catalogue prints -/

/-- Every single quote twice. -/
def doubled (cs : List Char) : List Char :=
  cs.flatMap fun c => if c = '\'' then [c, c] else [c]

/-- What the catalogue prints for a text default of a type. -/
def literal (s t : String) : String :=
  "'" ++ String.ofList (doubled s.toList) ++ "'::" ++ t

/-- The name of a type, as a cast shows it: a word begins it, and no blank and no quote ends
it. -/
structure IsTypeName (t : String) : Prop where
  first : t.toList.head?.any Text.isWordChar = true
  last : t.toList.getLast?.any (fun c => !Text.isBlank c && c != '\'') = true

/-- Names made of words are of this kind. -/
theorem IsTypeName.words {t : String} (first : t.toList.head?.any Text.isWordChar = true)
    (last : t.toList.getLast?.any Text.isWordChar = true) : IsTypeName t := by
  refine ⟨first, ?_⟩
  rw [Option.any_eq_true] at last ⊢
  obtain ⟨c, there, word⟩ := last
  have quote : c ≠ '\'' := by
    rintro rfl
    revert word
    decide +kernel
  exact ⟨c, there, by simp [Text.isBlank_of_isWordChar word, quote]⟩

variable {cs ds : List Char} {c w : Char}

@[simp] theorem doubled_nil : doubled [] = [] := rfl

theorem doubled_append (cs ds : List Char) : doubled (cs ++ ds) = doubled cs ++ doubled ds :=
  List.flatMap_append

theorem doubled_cons_quote (cs : List Char) :
    doubled ('\'' :: cs) = '\'' :: '\'' :: doubled cs := rfl

theorem doubled_cons (other : c ≠ '\'') (cs : List Char) :
    doubled (c :: cs) = c :: doubled cs := by
  rw [doubled, List.flatMap_cons, if_neg other]
  rfl

theorem doubled_eq_self (none : '\'' ∉ cs) : doubled cs = cs := by
  induction cs with
  | nil => rfl
  | cons c cs ih =>
    rw [List.mem_cons, not_or] at none
    rw [doubled_cons (Ne.symm none.1), ih none.2]

theorem length_le_doubled (cs : List Char) : cs.length ≤ (doubled cs).length := by
  induction cs with
  | nil => rfl
  | cons c cs ih =>
    by_cases quote : c = '\''
    · subst quote
      rw [doubled_cons_quote, List.length_cons, List.length_cons, List.length_cons]
      omega
    · rw [doubled_cons quote, List.length_cons, List.length_cons]
      omega

/-- A text with a quote becomes longer. -/
theorem notMem_of_doubled_eq_self (same : doubled cs = cs) : '\'' ∉ cs := by
  intro quote
  obtain ⟨before, after, rfl⟩ := List.append_of_mem quote
  have size := congrArg List.length same
  have front := length_le_doubled before
  have back := length_le_doubled after
  rw [doubled_append, doubled_cons_quote] at size
  simp only [List.length_append, List.length_cons] at size
  omega

theorem head?_doubled (cs : List Char) : (doubled cs).head? = cs.head? := by
  cases cs with
  | nil => rfl
  | cons c cs =>
    by_cases quote : c = '\''
    · subst quote
      rfl
    · rw [doubled_cons quote]
      rfl

theorem getLast?_doubled (cs : List Char) : (doubled cs).getLast? = cs.getLast? := by
  rcases List.eq_nil_or_concat' cs with rfl | ⟨front, c, rfl⟩
  · rfl
  · rw [doubled_append]
    by_cases quote : c = '\''
    · subst quote
      simp [doubled_cons_quote]
    · simp [doubled_cons quote]

/-! ## Two colons in a row -/

/-- No two colons follow each other. -/
def Apart (cs : List Char) : Prop :=
  cs.IsChain fun c d => ¬ (c = ':' ∧ d = ':')

theorem Apart.of_isInfix (apart : Apart cs) (inside : ds <:+: cs) : Apart ds := by
  obtain ⟨front, back, rfl⟩ := inside
  exact apart.left_of_append.right_of_append

theorem apart_iff : Apart cs ↔ ¬ [':', ':'] <:+: cs := by
  constructor
  · intro apart inside
    have pair := apart.of_isInfix inside
    simp [Apart] at pair
  · intro none
    refine (List.isChain_isInfix cs).imp ?_
    rintro c d inside ⟨rfl, rfl⟩
    exact none inside

theorem apart_cons : Apart (c :: cs) ↔ (∀ d ∈ cs.head?, ¬ (c = ':' ∧ d = ':')) ∧ Apart cs :=
  List.isChain_cons

theorem apart_doubled : Apart (doubled cs) ↔ Apart cs := by
  induction cs with
  | nil => rfl
  | cons c cs ih =>
    by_cases quote : c = '\''
    · subst quote
      simp [doubled_cons_quote, apart_cons, ih]
    · rw [doubled_cons quote, apart_cons, apart_cons, head?_doubled, ih]

theorem beforeCast_cons (free : ∀ d ∈ cs.head?, ¬ (c = ':' ∧ d = ':')) :
    beforeCast (c :: cs) = c :: beforeCast cs := by
  rw [beforeCast]
  rintro rest rfl rfl
  exact free ':' rfl ⟨rfl, rfl⟩

theorem head?_beforeCast (cs : List Char) : ∀ d ∈ (beforeCast cs).head?, d ∈ cs.head? := by
  fun_cases beforeCast cs with
  | case1 => simp
  | case2 => simp
  | case3 c cs free => exact fun _ h => h

/-- What stands before the first two colons in a row has no two colons in a row. -/
theorem apart_beforeCast (cs : List Char) : Apart (beforeCast cs) := by
  fun_induction beforeCast cs with
  | case1 => exact List.isChain_nil
  | case2 => exact List.isChain_nil
  | case3 c cs free ih =>
    refine apart_cons.2 ⟨?_, ih⟩
    rintro d hd ⟨rfl, rfl⟩
    obtain ⟨rest, rfl⟩ := List.head?_eq_some_iff.1 (head?_beforeCast cs _ hd)
    exact free rest rfl rfl

theorem beforeCast_append (apart : Apart cs) (last : ':' ∉ cs.getLast?) (ds : List Char) :
    beforeCast (cs ++ ':' :: ':' :: ds) = cs := by
  induction cs with
  | nil => rfl
  | cons c cs ih =>
    rw [apart_cons] at apart
    cases cs with
    | nil =>
      have other : c ≠ ':' := by simpa using last
      rw [List.singleton_append, beforeCast_cons (by simp [other])]
      rfl
    | cons d cs =>
      rw [List.cons_append, beforeCast_cons (by simpa using apart.1),
        ih apart.2 (by simpa using last)]

/-! ## The closing quote -/

theorem closesWithCast_append (oneLine : '\n' ∉ cs) (word : Text.isWordChar w = true) :
    closesWithCast (cs ++ '\'' :: ':' :: ':' :: w :: ds) = true := by
  induction cs with
  | nil =>
    unfold closesWithCast
    simp [word]
  | cons c cs ih =>
    rw [List.mem_cons, not_or] at oneLine
    rw [List.cons_append]
    unfold closesWithCast
    rw [ih oneLine.2, bne_iff_ne.2 (Ne.symm oneLine.1), Bool.and_self, Bool.or_true]

/-- Without two colons in a row before it, only the last quote closes, and it stands on the
first line. -/
theorem notMem_of_closesWithCast (apart : Apart cs)
    (closes : closesWithCast (cs ++ '\'' :: ':' :: ':' :: ds) = true) : '\n' ∉ cs := by
  induction cs with
  | nil => simp
  | cons c cs ih =>
    rw [apart_cons] at apart
    rw [List.cons_append] at closes
    unfold closesWithCast at closes
    rw [Bool.or_eq_true, Bool.and_eq_true, Bool.and_eq_true] at closes
    rcases closes with ⟨_, here⟩ | ⟨line, later⟩
    · exfalso
      split at here
      · rename_i w rest start
        rcases cs with _ | ⟨d, _ | ⟨e, cs⟩⟩
        · simp at start
        · simp at start
        · simp only [List.cons_append, List.cons.injEq] at start
          obtain ⟨rfl, rfl, _⟩ := start
          exact (apart_cons.1 apart.2).1 ':' rfl ⟨rfl, rfl⟩
      · cases here
    · rw [List.mem_cons, not_or]
      exact ⟨Ne.symm (bne_iff_ne.1 line), ih apart.2 later⟩

/-! ## Reading it back -/

variable {s t : String}

theorem IsTypeName.chars (h : IsTypeName t) :
    ∃ w rest, t.toList = w :: rest ∧ Text.isWordChar w = true := by
  obtain ⟨w, start, word⟩ := (Option.any_eq_true _ _).1 h.first
  obtain ⟨rest, whole⟩ := List.head?_eq_some_iff.1 start
  exact ⟨w, rest, whole, word⟩

theorem toList_literal (s t : String) :
    (literal s t).toList = '\'' :: doubled s.toList ++ '\'' :: ':' :: ':' :: t.toList := by
  simp [literal]

/-- A literal ends as the name of its type does. -/
theorem getLast?_literal (h : IsTypeName t) :
    ∀ c ∈ (literal s t).toList.getLast?, Text.isBlank c = false ∧ c ≠ '\'' := by
  obtain ⟨d, last, free⟩ := (Option.any_eq_true _ _).1 h.last
  intro c hc
  rw [literal, String.toList_append, List.getLast?_append, last, Option.some_or,
    Option.mem_some_iff] at hc
  simpa [hc] using free

theorem trimBlank_literal (h : IsTypeName t) :
    Text.trimBlank (literal s t).toList = (literal s t).toList := by
  refine Text.trim_of_ends ?_ fun c hc => (getLast?_literal h c hc).1
  simp [toList_literal, Text.isBlank]

/-- A literal is read as what stands before its cast, or not read at all. -/
theorem parseDefault_literal (h : IsTypeName t) :
    parseDefault (.text (literal s t)) =
      .ok
        (if isCastLiteral (literal s t).toList then unquoted (beforeCast (literal s t).toList)
        else .text (literal s t)) := by
  have chars := toList_literal s t
  rw [List.cons_append] at chars
  have present : (literal s t).isEmpty = false := by
    rw [String.isEmpty_eq_false_iff, ne_eq, ← String.toList_eq_nil_iff, chars]
    exact List.cons_ne_nil _ _
  have unclosed : isQuotedLiteral (literal s t).toList = false := by
    have last := getLast?_literal (s := s) h
    rw [chars, isQuotedLiteral, beq_eq_false_iff_ne]
    intro quote
    rw [chars, List.getLast?_cons, quote] at last
    exact (last '\'' rfl).2 rfl
  have kept : String.ofList ('\'' :: (doubled s.toList ++ '\'' :: ':' :: ':' :: t.toList)) =
      literal s t := by
    rw [← chars, String.ofList_toList]
  simp only [parseDefault, Value.word?, present, Bool.false_eq_true, if_false,
    trimBlank_literal h]
  rw [chars, defaultOf_cons (by decide), ← chars, unclosed, chars,
    Table.ofLiteral_signed (by simp), kept]
  split
  · rfl
  · rfl

theorem trim_quotes (first : ∀ c ∈ cs.head?, (c == '\'') = false)
    (last : ∀ c ∈ cs.getLast?, (c == '\'') = false) :
    Text.trim (· == '\'') ('\'' :: cs ++ ['\'']) = cs := by
  have quote : ∀ c ∈ ['\''], (c == '\'') = true := by simp
  exact Text.trim_around quote quote first last

/-- What comes back as it was from between two quotes had no quote. -/
theorem notMem_of_trim_doubled
    (same : Text.trim (· == '\'') ('\'' :: doubled cs ++ ['\'']) = cs) :
    '\'' ∉ cs := by
  have first : ∀ c ∈ (doubled cs).head?, (c == '\'') = false := by
    rw [head?_doubled, ← same]
    exact Text.head?_trim
  have last : ∀ c ∈ (doubled cs).getLast?, (c == '\'') = false := by
    rw [getLast?_doubled, ← same]
    exact Text.getLast?_trim
  exact notMem_of_doubled_eq_self ((trim_quotes first last).symm.trans same)

theorem isCastLiteral_literal :
    isCastLiteral (literal s t).toList =
      closesWithCast (doubled s.toList ++ '\'' :: ':' :: ':' :: t.toList) := by
  rw [toList_literal]
  rfl

/-- Without two colons in a row in the text, the first two are those of the cast. -/
theorem beforeCast_literal (apart : Apart s.toList) :
    beforeCast (literal s t).toList = '\'' :: doubled s.toList ++ ['\''] := by
  have inner : Apart (doubled s.toList ++ ['\'']) :=
    List.IsChain.append (apart_doubled.2 apart) (List.isChain_singleton _) (by simp)
  have body : Apart ('\'' :: (doubled s.toList ++ ['\''])) := apart_cons.2 ⟨by simp, inner⟩
  have last : ':' ∉ ('\'' :: (doubled s.toList ++ ['\''])).getLast? := by
    simp [List.getLast?_cons]
  have cut := beforeCast_append body last t.toList
  rw [← List.cons_append, List.append_assoc, List.singleton_append, ← toList_literal] at cut
  exact cut

/-- A text default comes back from what the catalogue prints for it exactly if it has no
quote, no line break and no two colons in a row. -/
theorem parseDefault_literal_iff (h : IsTypeName t) :
    parseDefault (.text (literal s t)) = .ok (.text s) ↔
      '\'' ∉ s.toList ∧ '\n' ∉ s.toList ∧ ¬ [':', ':'] <:+: s.toList := by
  rw [parseDefault_literal h, ← apart_iff, isCastLiteral_literal]
  constructor
  · intro same
    split at same
    case isTrue closes =>
      have text : Text.trim (· == '\'') (beforeCast (literal s t).toList) = s.toList := by
        have text := congrArg String.toList (Value.text.inj (Except.ok.inj same))
        rwa [String.toList_ofList] at text
      have apart : Apart s.toList := by
        rw [← text]
        exact (apart_beforeCast _).of_isInfix (Text.isInfix_trim _)
      rw [beforeCast_literal apart] at text
      have line := notMem_of_closesWithCast (apart_doubled.2 apart) closes
      have quote := notMem_of_trim_doubled text
      rw [doubled_eq_self quote] at line
      exact ⟨quote, line, apart⟩
    case isFalse =>
      -- The expression itself is longer than the text.
      have size := congrArg (·.toList.length) (Value.text.inj (Except.ok.inj same))
      have grown := length_le_doubled s.toList
      simp only [toList_literal, List.length_append, List.length_cons] at size
      omega
  · rintro ⟨quote, line, apart⟩
    obtain ⟨w, rest, name, word⟩ := h.chars
    have closes :
        closesWithCast (doubled s.toList ++ '\'' :: ':' :: ':' :: t.toList) = true := by
      rw [doubled_eq_self quote, name]
      exact closesWithCast_append line word
    have free : ∀ c ∈ s.toList, (c == '\'') = false := by
      intro c hc
      rw [beq_eq_false_iff_ne]
      rintro rfl
      exact quote hc
    have trimmed := trim_quotes (fun c hc => free c (List.mem_of_mem_head? hc)) fun c hc =>
      free c (List.mem_of_getLast? hc)
    rw [if_pos closes, beforeCast_literal apart, doubled_eq_self quote, unquoted, trimmed,
      String.ofList_toList]

/-- A text with single colons and blanks, of a type of two words. -/
theorem parseDefault_literal_draft :
    IsTypeName "character varying" ∧
      parseDefault (.text "' draft: 1:2 '::character varying") =
        .ok (.text " draft: 1:2 ") := by
  have name : IsTypeName "character varying" := .words (by decide +kernel) (by decide +kernel)
  have printed : "' draft: 1:2 '::character varying" =
      literal " draft: 1:2 " "character varying" := by
    decide
  rw [printed]
  exact ⟨name, (parseDefault_literal_iff name).2 (by decide)⟩

/-- A quote inside the text stays doubled. -/
theorem not_read_doubledQuote :
    ¬ ∀ s t : String, IsTypeName t → parseDefault (.text (literal s t)) = .ok (.text s) := by
  intro claim
  have name : IsTypeName "text" := .words (by decide +kernel) (by decide +kernel)
  have printed : literal "it's" "text" = "'it''s'::text" := by decide
  have back := claim "it's" "text" name
  have read : parseDefault (.text "'it''s'::text") = .ok (.text "it''s") := by rfl
  rw [printed, read] at back
  simp at back

end Schemata.Postgres
