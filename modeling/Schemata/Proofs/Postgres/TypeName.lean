/-
Type names of Postgres, as they may be written.

A name of the table is read in any case, with blanks around it and between its words, and with
a parameter list behind any of its words (`Writes`). What is read follows the text in three
steps: its words become small letters, the parameter lists are left out (`dropped_word`), and
the blanks that are left become one space each (`Spells.collapsed`). That is the name itself,
so that its type is that of the table.

Brackets behind a name and an underscore before it make an array of what the name stands for,
whatever that is (`normalizeType_array`). Brackets are seen first, so that the underscore of a
name that has both goes inwards with the members until the brackets are used up
(`typeOfName_trim_underscore`). The name of the members is trimmed and no longer made small;
it would make no difference (`normalizeType_eq`).
-/
import Schemata.Postgres.TypeName
import Schemata.Proofs.Text.Case
import Schemata.Text.Split

namespace Schemata

namespace Text

variable {c : Char} {cs ds gap params : List Char}

/-! ## What is left out of a name -/

theorem afterClosing_append (closed : ')' ∉ params) (ds : List Char) :
    afterClosing (params ++ ')' :: ds) = some ds := by
  induction params with
  | nil => rfl
  | cons c params ih =>
    rw [List.mem_cons, not_or] at closed
    rw [List.cons_append, afterClosing, ih closed.2]
    simp [Ne.symm closed.1]

@[simp] theorem dropParameters_nil : dropParameters [] = [] := by
  simp [dropParameters]

theorem dropParameters_append (none : '(' ∉ cs) (ds : List Char) :
    dropParameters (cs ++ ds) = cs ++ dropParameters ds := by
  induction cs with
  | nil => rfl
  | cons c cs ih =>
    rw [List.mem_cons, not_or] at none
    rw [List.cons_append, dropParameters, ih none.2]
    simp [Ne.symm none.1]

theorem dropParameters_list (closed : ')' ∉ params) (ds : List Char) :
    dropParameters ('(' :: params ++ ')' :: ds) = dropParameters ds := by
  rw [List.cons_append, dropParameters]
  simp only [beq_self_eq_true, if_true]
  split
  case h_1 rest found =>
    rw [Option.some.inj (found.symm.trans (afterClosing_append closed ds))]
  case h_2 found => exact absurd (found.symm.trans (afterClosing_append closed ds)) (by simp)

theorem collapseBlank_append (solid : ∀ c ∈ cs, isBlank c = false) (ds : List Char) :
    collapseBlank (cs ++ ds) = cs ++ collapseBlank ds := by
  induction cs with
  | nil => rfl
  | cons c cs ih =>
    rw [List.cons_append, List.cons_append, collapseBlank.eq_def]
    simp only [solid c (.head _), Bool.false_eq_true, if_false]
    rw [ih fun d hd => solid d (.tail _ hd)]

/-- Blanks in a row become one space. -/
theorem collapseBlank_gap (apart : gap ≠ []) (blank : ∀ c ∈ gap, isBlank c = true)
    (first : ∀ c ∈ ds.head?, isBlank c = false) :
    collapseBlank (gap ++ ds) = ' ' :: collapseBlank ds := by
  induction gap with
  | nil => exact absurd rfl apart
  | cons b gap ih =>
    rw [List.cons_append, collapseBlank.eq_def]
    simp only [blank b (.head _), if_true]
    cases gap with
    | nil =>
      cases ds with
      | nil => rfl
      | cons d ds => simp [first d rfl]
    | cons e gap =>
      have next := ih (List.cons_ne_nil e gap) fun d hd => blank d (.tail _ hd)
      rw [← next]
      simp [blank e (.tail _ (.head _))]

end Text

namespace Postgres

open Text (isBlank)
open Text.Case (IsBreak isBreak_of_isBlank)

variable {cs ds : List Char}

/-! ## Arrays -/

theorem beforeBrackets?_append (cs : List Char) :
    beforeBrackets? (cs ++ ['[', ']']) = some cs := by
  simp [beforeBrackets?]

theorem eq_append_of_beforeBrackets? (h : beforeBrackets? cs = some ds) :
    cs = ds ++ ['[', ']'] := by
  unfold beforeBrackets? at h
  split at h
  case h_1 rest turned =>
    obtain rfl := Option.some.inj h
    rw [← List.reverse_reverse cs, turned]
    simp
  case h_2 => cases h

theorem memberName?_of_brackets (h : beforeBrackets? cs = some ds) :
    memberName? cs = some (Text.trimBlank ds) := by
  unfold memberName?
  simp only [h]

theorem memberName?_underscore (h : beforeBrackets? ('_' :: cs) = none) :
    memberName? ('_' :: cs) = some (Text.trimBlank cs) := by
  unfold memberName?
  simp only [h]

theorem memberName?_eq_none (brackets : beforeBrackets? cs = none)
    (first : ∀ c ∈ cs.head?, c ≠ '_') : memberName? cs = none := by
  unfold memberName?
  split
  case h_1 found => simp [brackets] at found
  case h_2 => exact absurd rfl (first '_' rfl)
  case h_3 => rfl

/-- The name of the members is a part of the name. -/
theorem exists_part_of_memberName? (h : memberName? cs = some ds) :
    ∃ part, part ⊆ cs ∧ ds = Text.trimBlank part := by
  unfold memberName? at h
  split at h
  case h_1 part found =>
    refine ⟨part, ?_, (Option.some.inj h).symm⟩
    rw [eq_append_of_beforeBrackets? found]
    exact List.subset_append_left _ _
  case h_2 rest _ => exact ⟨rest, List.subset_cons_self _ _, (Option.some.inj h).symm⟩
  case h_3 => cases h

theorem typeOfName_of_member (h : memberName? cs = some ds) :
    typeOfName cs = .array (typeOfName ds) := by
  rw [typeOfName]
  split
  case h_1 member found => rw [Option.some.inj (h.symm.trans found)]
  case h_2 none => exact absurd (h.symm.trans none) (by simp)

theorem typeOfName_of_none (h : memberName? cs = none) : typeOfName cs = elementType cs := by
  rw [typeOfName]
  split
  case h_1 member found => exact absurd (h.symm.trans found) (by simp)
  case h_2 => rfl

theorem isBlank_brackets : ∀ c ∈ ['[', ']'], isBlank c = false := by
  simp [isBlank]

theorem isBlank_underscore : isBlank '_' = false := by
  simp [isBlank]

theorem isBreak_marks : IsBreak '[' ∧ IsBreak ']' ∧ IsBreak '_' := by
  decide +kernel

/-- Brackets at the end make an array of what stands before them. -/
theorem typeOfName_trim_brackets (cs : List Char) :
    typeOfName (Text.trimBlank (cs ++ ['[', ']'])) =
      .array (typeOfName (Text.trimBlank cs)) := by
  rw [Text.trimBlank, Text.trim_append isBlank_brackets (by simp),
    typeOfName_of_member (memberName?_of_brackets (beforeBrackets?_append _)), Text.trimBlank,
    Text.trim_dropWhile]
  rfl

/-- An underscore in front makes an array of what follows. The induction is on the length,
since what stands before brackets is trimmed before it is read. -/
theorem typeOfName_trim_underscore (cs : List Char) :
    typeOfName (Text.trimBlank ('_' :: cs)) = .array (typeOfName (Text.trimBlank cs)) := by
  induction size : cs.length using Nat.strong_induction_on generalizing cs with
  | h size' ih =>
    have cut : Text.trimBlank ('_' :: cs) = '_' :: Text.trimRight isBlank cs :=
      Text.trim_cons isBlank_underscore cs
    have whole : Text.trimBlank (Text.trimRight isBlank cs) = Text.trimBlank cs :=
      Text.trim_trimRight isBlank cs
    rw [cut, ← whole]
    cases brackets : beforeBrackets? ('_' :: Text.trimRight isBlank cs) with
    | none => exact typeOfName_of_member (memberName?_underscore brackets)
    | some member =>
      -- The brackets are seen first, and the underscore goes with the members.
      have split := eq_append_of_beforeBrackets? brackets
      obtain ⟨rest, rfl, inner⟩ : ∃ rest, member = '_' :: rest ∧
          Text.trimRight isBlank cs = rest ++ ['[', ']'] := by
        cases member with
        | nil => simp at split
        | cons c rest =>
          obtain ⟨rfl, inner⟩ := List.cons.inj split
          exact ⟨rest, rfl, inner⟩
      have shorter : rest.length < size' := by
        have bound := (Text.isPrefix_trimRight isBlank cs).length_le
        rw [inner, List.length_append, size] at bound
        exact Nat.lt_of_lt_of_le (Nat.lt_add_of_pos_right (by simp)) bound
      rw [typeOfName_of_member (memberName?_of_brackets brackets),
        ih _ shorter rest rfl, inner, typeOfName_trim_brackets]

/-- Brackets behind a name and an underscore before it make an array of what the name stands
for. -/
theorem normalizeType_array (raw : String) :
    normalizeType (raw ++ "[]") = .array (normalizeType raw) ∧
      normalizeType ("_" ++ raw) = .array (normalizeType raw) := by
  obtain ⟨opening, closing, underscore⟩ := isBreak_marks
  have small : Text.lower ['[', ']'] = ['[', ']'] := by
    rw [Text.lower_cons opening, Text.lower_cons closing, Text.lower_nil]
  have first : ∀ c ∈ ['[', ']'].head?, IsBreak c := by
    simp [opening]
  constructor
  · rw [normalizeType, normalizeType, String.toList_append, ← Text.trimBlank_lower,
      ← Text.trimBlank_lower]
    show typeOfName (Text.trimBlank (Text.lower (raw.toList ++ ['[', ']']))) = _
    rw [Text.lower_append first, small, typeOfName_trim_brackets]
  · rw [normalizeType, normalizeType, String.toList_append, ← Text.trimBlank_lower,
      ← Text.trimBlank_lower]
    show typeOfName (Text.trimBlank (Text.lower ('_' :: raw.toList))) = _
    rw [Text.lower_cons underscore, typeOfName_trim_underscore]

/-- Every pair of brackets and every underscore makes one more array. -/
theorem normalizeType_nested (raw : String) (j k : Nat) :
    normalizeType ((· ++ "[]")^[k] (("_" ++ ·)^[j] raw)) =
      (normalizeType raw).nested (k + j) := by
  have underscores : normalizeType (("_" ++ ·)^[j] raw) = (normalizeType raw).nested j := by
    induction j with
    | zero => rfl
    | succ j ih =>
      rw [Function.iterate_succ_apply', (normalizeType_array _).2, ih]
      rfl
  induction k with
  | zero => rw [Function.iterate_zero, id, underscores, Nat.zero_add]
  | succ k ih =>
    rw [Function.iterate_succ_apply', (normalizeType_array _).1, ih, Nat.succ_add]
    rfl

/-- What a name stands for, told by the reading of names itself: the name of the members is
trimmed and made small once more, which changes nothing. -/
theorem normalizeType_eq (raw : String) :
    normalizeType raw =
      match memberName? (Text.lower (Text.trimBlank raw.toList)) with
      | some member => .array (normalizeType (String.ofList member))
      | none => elementType (Text.lower (Text.trimBlank raw.toList)) := by
  rw [normalizeType]
  split
  case h_1 member found =>
    obtain ⟨part, inside, rfl⟩ := exists_part_of_memberName? found
    have small : Text.lower (Text.trimBlank part) = Text.trimBlank part :=
      Text.lower_eq_self fun _ hc => inside ((Text.isInfix_trim part).subset hc)
    have trimmed : Text.trimBlank (Text.trimBlank part) = Text.trimBlank part :=
      Text.trim_of_ends Text.head?_trim Text.getLast?_trim
    rw [typeOfName_of_member found, normalizeType, String.toList_ofList, trimmed, small]
  case h_2 none => exact typeOfName_of_none none

/-! ## Names as they may be written -/

/-- A parameter list behind a word, with or without blanks before it, or nothing. -/
inductive Parameters : List Char → Prop where
  | none : Parameters []
  | list {gap params : List Char} (blank : ∀ c ∈ gap, isBlank c = true)
      (closed : ')' ∉ params) : Parameters (gap ++ '(' :: params ++ [')'])

/-- A text spells words: each in letters of any case with its parameters behind it, and at
least one blank before the next. -/
inductive Spells : List (List Char) → List Char → Prop where
  | last {word letters params : List Char} (same : letters.map Char.toLower = word)
      (list : Parameters params) : Spells [word] (letters ++ params)
  | cons {word letters params gap cs : List Char} {words : List (List Char)}
      (same : letters.map Char.toLower = word) (list : Parameters params) (apart : gap ≠ [])
      (blank : ∀ c ∈ gap, isBlank c = true) (spells : Spells words cs) :
      Spells (word :: words) (letters ++ params ++ gap ++ cs)

/-- A text writes a name: it spells the words of the name, with blanks around them. -/
def Writes (raw name : String) : Prop :=
  ∃ before cs after, raw.toList = before ++ cs ++ after ∧
    (∀ c ∈ before, isBlank c = true) ∧ (∀ c ∈ after, isBlank c = true) ∧
      Spells (Text.split ' ' name.toList) cs

/-- The words are such as names are made of. -/
def AreWords (words : List (List Char)) : Prop :=
  ∀ word ∈ words, word ≠ [] ∧ word.all Char.isAlphanum = true

/-- A name of the table is its words with a space between them. -/
theorem words_of_mem_typeTable : ∀ e ∈ typeTable,
    [' '].intercalate (Text.split ' ' e.1.toList) = e.1.toList ∧
      AreWords (Text.split ' ' e.1.toList) := by
  unfold AreWords
  decide +kernel

theorem lookup_of_mem_typeTable : ∀ e ∈ typeTable, typeTable.lookup e.1 = some e.2 := by
  decide +kernel

theorem plainName_of_mem_typeTable : ∀ e ∈ typeTable,
    plainName e.1.toList = e.1.toList ∧ Text.trimBlank e.1.toList = e.1.toList := by
  decide +kernel

/-! ## Letters and digits -/

theorem toNat_of_isAlphanum {c : Char} (h : c.isAlphanum = true) :
    48 ≤ c.toNat ∧ c.toNat ≤ 57 ∨ 65 ≤ c.toNat ∧ c.toNat ≤ 90 ∨
      97 ≤ c.toNat ∧ c.toNat ≤ 122 := by
  simp only [Char.isAlphanum, Char.isAlpha, Char.isUpper, Char.isLower, Char.isDigit,
    Char.reduceVal, ge_iff_le, UInt32.le_iff_toNat_le, UInt32.reduceToNat, Char.toNat_val,
    Bool.or_eq_true, Bool.and_eq_true, decide_eq_true_eq] at h
  omega

theorem isAlphanum_of_toLower {c : Char} (h : c.toLower.isAlphanum = true) :
    c.isAlphanum = true := by
  by_cases upper : c.isUpper = true
  · simp [Char.isAlphanum, Char.isAlpha, upper]
  · rwa [Char.toLower_eq_of_not_isUpper upper] at h

theorem isBlank_of_isAlphanum {c : Char} (h : c.isAlphanum = true) : isBlank c = false := by
  have bounds := toNat_of_isAlphanum h
  simp [isBlank]
  omega

/-! ## What is left of a word -/

variable {word letters params gap : List Char} {words : List (List Char)}

theorem isAlphanum_of_letters (same : letters.map Char.toLower = word)
    (name : word.all Char.isAlphanum = true) : ∀ c ∈ letters, c.isAlphanum = true := by
  intro c hc
  have there : c.toLower ∈ word := same ▸ List.mem_map_of_mem hc
  exact isAlphanum_of_toLower (List.all_eq_true.1 name _ there)

theorem lower_letters (same : letters.map Char.toLower = word)
    (name : word.all Char.isAlphanum = true) : Text.lower letters = word := by
  rw [← same]
  refine Text.lower_ascii fun c hc => ?_
  have bounds := toNat_of_isAlphanum (isAlphanum_of_letters same name c hc)
  omega

theorem isBreak_parentheses : IsBreak '(' ∧ IsBreak ')' := by
  decide +kernel

/-- Blanks stay. -/
theorem dropped_gap (blank : ∀ c ∈ gap, isBlank c = true) (cs : List Char) :
    Text.dropParameters (Text.lower (gap ++ cs)) =
      gap ++ Text.dropParameters (Text.lower cs) := by
  have opened : '(' ∉ gap := fun there => absurd (blank _ there) (by simp [isBlank])
  rw [Text.lower_blanks_append blank, Text.dropParameters_append opened]

/-- Of a parameter list nothing stays. -/
theorem dropped_list (closed : ')' ∉ params) (cs : List Char) :
    Text.dropParameters (Text.lower ('(' :: params ++ ')' :: cs)) =
      Text.dropParameters (Text.lower cs) := by
  have closing : ∀ c ∈ (')' :: cs).head?, IsBreak c := by
    simp [isBreak_parentheses.2]
  have small : Text.lower ('(' :: params ++ ')' :: cs) =
      '(' :: Text.lower params ++ ')' :: Text.lower cs := by
    rw [List.cons_append, Text.lower_cons isBreak_parentheses.1, Text.lower_append closing,
      Text.lower_cons isBreak_parentheses.2]
    rfl
  have closed : ')' ∉ Text.lower params := fun there =>
    closed (Text.Case.mem_of_mem_lowerAfter isBreak_parentheses.2.own there)
  rw [small, Text.dropParameters_list closed]

theorem Parameters.dropped (h : Parameters params) :
    ∃ gap, (∀ c ∈ gap, isBlank c = true) ∧ ∀ cs,
      Text.dropParameters (Text.lower (params ++ cs)) =
        gap ++ Text.dropParameters (Text.lower cs) := by
  cases h with
  | none => exact ⟨[], by simp, fun cs => rfl⟩
  | @list gap list blank closed =>
    refine ⟨gap, blank, fun cs => ?_⟩
    rw [List.append_assoc, List.append_assoc, dropped_gap blank, List.singleton_append,
      dropped_list closed]

theorem Parameters.first (h : Parameters params) : ∀ c ∈ params.head?, IsBreak c := by
  cases h with
  | none => simp
  | @list gap list blank closed =>
    intro c hc
    cases gap with
    | nil =>
      obtain rfl : '(' = c := by simpa using hc
      exact isBreak_parentheses.1
    | cons b gap =>
      obtain rfl : b = c := by simpa using hc
      exact isBreak_of_isBlank (blank b (.head _))

/-- Of a word with its parameters, the word in small letters stays, and the blanks before the
parameters. -/
theorem dropped_word (same : letters.map Char.toLower = word)
    (name : word.all Char.isAlphanum = true) (list : Parameters params)
    (first : ∀ c ∈ cs.head?, IsBreak c) :
    ∃ gap, (∀ c ∈ gap, isBlank c = true) ∧
      Text.dropParameters (Text.lower (letters ++ params ++ cs)) =
        word ++ (gap ++ Text.dropParameters (Text.lower cs)) := by
  obtain ⟨gap, blank, dropped⟩ := list.dropped
  have behind : ∀ c ∈ (params ++ cs).head?, IsBreak c := by
    intro c hc
    cases params with
    | nil => exact first c hc
    | cons d params => exact list.first c hc
  have opened : '(' ∉ word := fun there =>
    absurd (List.all_eq_true.1 name _ there) (by decide)
  refine ⟨gap, blank, ?_⟩
  rw [List.append_assoc, Text.lower_append behind, lower_letters same name,
    Text.dropParameters_append opened, dropped]

/-! ## What is left of a name -/

theorem AreWords.solid (names : AreWords (word :: words)) : ∀ c ∈ word, isBlank c = false :=
  fun c hc => isBlank_of_isAlphanum (List.all_eq_true.1 (names word (.head _)).2 c hc)

theorem head?_word (names : AreWords (word :: words)) (cs : List Char) :
    ∀ c ∈ (word ++ cs).head?, isBlank c = false := by
  intro c hc
  obtain ⟨d, rest, rfl⟩ := List.exists_cons_of_ne_nil (names word (.head _)).1
  obtain rfl : d = c := by simpa using hc
  exact names.solid d (.head _)

theorem isBlank_collapseBlank (blank : ∀ c ∈ gap, isBlank c = true) :
    ∀ c ∈ Text.collapseBlank gap, isBlank c = true := by
  by_cases apart : gap = []
  · simp [apart, Text.collapseBlank]
  · have one : Text.collapseBlank (gap ++ []) = [' '] :=
      Text.collapseBlank_gap apart blank (by simp)
    rw [List.append_nil] at one
    simp [one, isBlank]

theorem Spells.words_ne_nil (h : Spells words cs) : words ≠ [] := by
  cases h with
  | last => exact List.cons_ne_nil _ _
  | cons => exact List.cons_ne_nil _ _

/-- What is left of spelled words begins with a word, and is the words with a space between
them, once blanks in a row are one. -/
theorem Spells.collapsed (h : Spells words cs) (names : AreWords words) :
    (∀ c ∈ (Text.dropParameters (Text.lower cs)).head?, isBlank c = false) ∧
      ∃ after, (∀ c ∈ after, isBlank c = true) ∧
        Text.collapseBlank (Text.dropParameters (Text.lower cs)) =
          [' '].intercalate words ++ after := by
  induction h with
  | @last word letters params same list =>
    have first : ∀ c ∈ ([] : List Char).head?, IsBreak c := by simp
    obtain ⟨gap, blank, dropped⟩ := dropped_word same (names word (.head _)).2 list first
    rw [List.append_nil, Text.lower_nil, Text.dropParameters_nil, List.append_nil] at dropped
    rw [dropped, Text.collapseBlank_append names.solid]
    exact ⟨head?_word names gap, _, isBlank_collapseBlank blank, by simp⟩
  | @cons word letters params gap cs words same list apart blank spells ih =>
    have rest : AreWords words := fun word hw => names word (.tail _ hw)
    obtain ⟨solid, after, blanks, collapsed⟩ := ih rest
    have first : ∀ c ∈ (gap ++ cs).head?, IsBreak c := by
      intro c hc
      rw [List.head?_append_of_ne_nil _ apart] at hc
      exact isBreak_of_isBlank (blank c (List.mem_of_mem_head? hc))
    obtain ⟨gap', blank', dropped⟩ := dropped_word same (names word (.head _)).2 list first
    rw [← List.append_assoc, dropped_gap blank, ← List.append_assoc gap'] at dropped
    have both : ∀ c ∈ gap' ++ gap, isBlank c = true := fun c hc =>
      (List.mem_append.1 hc).elim (blank' c) (blank c)
    obtain ⟨word', words', rfl⟩ := List.exists_cons_of_ne_nil spells.words_ne_nil
    rw [dropped]
    refine ⟨head?_word names _, after, blanks, ?_⟩
    rw [Text.collapseBlank_append names.solid,
      Text.collapseBlank_gap (by simp [apart]) both solid, collapsed,
      List.intercalate_cons_cons]
    simp

/-! ## Where a name begins and ends -/

theorem letters_ne_nil (same : letters.map Char.toLower = word)
    (names : AreWords (word :: words)) :
    letters ≠ [] := by
  rintro rfl
  exact (names word (.head _)).1 same.symm

theorem head?_letters (same : letters.map Char.toLower = word)
    (names : AreWords (word :: words))
    (cs : List Char) : ∀ c ∈ (letters ++ cs).head?, c.isAlphanum = true := by
  intro c hc
  rw [List.head?_append_of_ne_nil _ (letters_ne_nil same names)] at hc
  exact isAlphanum_of_letters same (names word (.head _)).2 c (List.mem_of_mem_head? hc)

theorem Spells.head? (h : Spells words cs) (names : AreWords words) :
    ∀ c ∈ cs.head?, c.isAlphanum = true := by
  cases h with
  | last same list => exact head?_letters same names _
  | cons same list apart blank spells =>
    rw [List.append_assoc, List.append_assoc]
    exact head?_letters same names _

/-- A name ends in a letter, a digit or a closing parenthesis. -/
theorem Spells.getLast? (h : Spells words cs) (names : AreWords words) :
    ∃ c ∈ cs.getLast?, c.isAlphanum = true ∨ c = ')' := by
  induction h with
  | @last word letters params same list =>
    cases list with
    | none =>
      have last := List.getLast?_eq_some_getLast (letters_ne_nil same names)
      refine ⟨_, by rw [List.append_nil, last]; rfl, .inl ?_⟩
      exact isAlphanum_of_letters same (names word (.head _)).2 _ (List.getLast_mem _)
    | @list gap params blank closed =>
      exact ⟨')', by rw [List.getLast?_append, List.getLast?_append]; rfl, .inr rfl⟩
  | @cons word letters params gap cs words same list apart blank spells ih =>
    obtain ⟨c, last, kind⟩ := ih fun word hw => names word (.tail _ hw)
    exact ⟨c, by rw [List.getLast?_append, last]; rfl, kind⟩

/-- A name is that of an array neither by brackets nor by an underscore. -/
theorem Spells.memberName? (h : Spells words cs) (names : AreWords words) :
    memberName? (Text.lower cs) = none := by
  obtain ⟨-, closing, underscore⟩ := isBreak_marks
  refine memberName?_eq_none ?_ ?_
  · rw [Option.eq_none_iff_forall_ne_some]
    intro member found
    have bracket : ']' ∈ (Text.lower cs).getLast? := by
      simp [eq_append_of_beforeBrackets? found]
    obtain ⟨c, last, kind⟩ := h.getLast? names
    have there := Text.Case.getLast?_of_getLast?_lowerAfter closing.own bracket
    obtain rfl := Option.some.inj (last.symm.trans there)
    exact absurd kind (by decide)
  · rintro c hc rfl
    have there := Text.Case.head?_of_head?_lowerAfter underscore.own hc
    exact absurd (h.head? names _ there) (by decide)

theorem elementType_of_plainName {name type : String} (entry : (name, type) ∈ typeTable)
    (plain : plainName cs = name.toList) : elementType cs = .named type := by
  unfold elementType
  split
  case h_1 t found =>
    obtain ⟨front, back, table, -⟩ := List.lookup_eq_some_iff.1 found
    have there : (String.ofList cs, t) ∈ typeTable := by
      rw [table]
      exact List.mem_append_right _ (.head _)
    have own := (plainName_of_mem_typeTable _ there).1
    rw [String.toList_ofList, plain] at own
    have key : String.ofList cs = name := by rw [← own, String.ofList_toList]
    obtain rfl : type = t := by
      rw [key, lookup_of_mem_typeTable _ entry] at found
      exact Option.some.inj found
    rfl
  case h_2 missing =>
    rw [plain, String.ofList_toList, lookup_of_mem_typeTable _ entry]
    rfl

theorem normalizeType_of_writes {raw name type : String} (writes : Writes raw name)
    (entry : (name, type) ∈ typeTable) : normalizeType raw = .named type := by
  obtain ⟨before, cs, after, text, front, back, spells⟩ := writes
  obtain ⟨whole, names⟩ := words_of_mem_typeTable _ entry
  have last : ∀ c ∈ cs.getLast?, isBlank c = false := by
    intro c hc
    obtain ⟨d, there, kind⟩ := spells.getLast? names
    obtain rfl := Option.some.inj (there.symm.trans hc)
    rcases kind with letter | rfl
    · exact isBlank_of_isAlphanum letter
    · simp [isBlank]
  have trimmed : Text.trimBlank raw.toList = cs := by
    rw [text]
    exact Text.trim_around front back
      (fun c hc => isBlank_of_isAlphanum (spells.head? names c hc))
      last
  have plain : plainName (Text.lower cs) = name.toList := by
    obtain ⟨-, rest, blanks, collapsed⟩ := spells.collapsed names
    have nothing : ∀ c ∈ ([] : List Char), isBlank c = true := by simp
    have padded := Text.trim_padded nothing blanks name.toList
    rw [plainName, collapsed, whole]
    exact padded.trans (plainName_of_mem_typeTable _ entry).2
  rw [normalizeType, trimmed, typeOfName_of_none (spells.memberName? names),
    elementType_of_plainName entry plain]

/-- Brackets behind a name and an underscore before it make an array of what the name stands
for, whatever it is. A name of the table that is written in any case, with blanks and
parameter lists, has the type of the table, and brackets and underscores around it make as
many arrays. -/
theorem normalizeType_spelled :
    (∀ raw : String, normalizeType (raw ++ "[]") = .array (normalizeType raw) ∧
      normalizeType ("_" ++ raw) = .array (normalizeType raw)) ∧
    ∀ {name type raw : String}, (name, type) ∈ typeTable → Writes raw name →
      normalizeType raw = .named type ∧
        ∀ j k : Nat, normalizeType ((· ++ "[]")^[k] (("_" ++ ·)^[j] raw)) =
          (FieldType.named type).nested (k + j) := by
  refine ⟨normalizeType_array, fun entry writes => ?_⟩
  have type := normalizeType_of_writes writes entry
  exact ⟨type, fun j k => by rw [normalizeType_nested, type]⟩

/-- An array of arrays of arrays, with blanks of several kinds and parameter lists behind two
words. -/
theorem normalizeType_spelled_timestamps :
    ("timestamp with time zone", "utc_datetime") ∈ typeTable ∧
      Writes "\tTimestamp (6, (x)  WITH\ntime(]) Zone " "timestamp with time zone" ∧
      normalizeType "_\tTimestamp (6, (x)  WITH\ntime(]) Zone [][]" =
        .array (.array (.array (.named "utc_datetime"))) := by
  have entry : ("timestamp with time zone", "utc_datetime") ∈ typeTable := by decide +kernel
  have words : Text.split ' ' "timestamp with time zone".toList =
      ["timestamp".toList, "with".toList, "time".toList, "zone".toList] := by
    decide
  have digits : Parameters ([' '] ++ '(' :: "6, (x".toList ++ [')']) :=
    .list (by simp [isBlank]) (by decide)
  have bracket : Parameters ([] ++ '(' :: [']'] ++ [')']) := .list (by simp) (by decide)
  have zone : Spells ["zone".toList] ("Zone".toList ++ []) := .last (by decide) .none
  have time :=
    Spells.cons (by decide : "time".toList.map Char.toLower = "time".toList) bracket
    (by decide : [' '] ≠ []) (by simp [isBlank]) zone
  have joined :=
    Spells.cons (by decide : "WITH".toList.map Char.toLower = "with".toList) .none
    (by decide : ['\n'] ≠ []) (by simp [isBlank]) time
  have all :=
    Spells.cons (by decide : "Timestamp".toList.map Char.toLower = "timestamp".toList)
    digits (by decide : "  ".toList ≠ []) (by simp [isBlank]) joined
  have writes :
      Writes "\tTimestamp (6, (x)  WITH\ntime(]) Zone " "timestamp with time zone" :=
    ⟨['\t'], _, [' '], by rfl, by simp [isBlank], by simp [isBlank], words ▸ all⟩
  exact ⟨entry, writes, (normalizeType_spelled.2 entry writes).2 1 2⟩

end Postgres

end Schemata
