/-
Literals in source text, as they are read.

Generated source is read by rules of its own. A literal is a text between quotes of one kind,
on one line; a backslash begins an escape, which denotes a character by a letter, by an octal
number or by a hexadecimal number of fixed width, and which denotes itself if it is none of
these. What is read is a sequence of code points and need not be a text: a number may be that
of half a surrogate pair.

Two writers make such literals. `Text.quoted` makes one of which every character is read as
its code point. The writer of documents knows numbers of four digits alone, and so makes one
of which every character is read as its units of 16 bits (`Literal.units`). For a text within
the first plane these are the same, and for every other text they are not
(`units_eq_points_iff`).
-/
import Mathlib
import Schemata.Proofs.Json.Text

namespace Schemata.Text.Literal

/-! ## Escapes -/

/-- A number of so many hexadecimal digits, behind the digits of another one. -/
def hexNumber? : ℕ → ℕ → List Char → Option (ℕ × List Char)
  | 0, n, cs => some (n, cs)
  | _ + 1, _, [] => none
  | width + 1, n, c :: cs => do
    let d ← Json.Parser.hexDigit? c
    hexNumber? width (n * 16 + d) cs

/-- An octal digit. -/
def octalDigit? (c : Char) : Option ℕ :=
  if '0' ≤ c && c ≤ '7' then some (c.toNat - '0'.toNat) else none

/-- The octal digits in front, at most so many, behind the digits of a number. -/
def octalNumber : ℕ → ℕ → List Char → ℕ × List Char
  | 0, n, cs => (n, cs)
  | _ + 1, n, [] => (n, [])
  | width + 1, n, c :: cs =>
    match octalDigit? c with
    | some d => octalNumber width (n * 8 + d) cs
    | none => (n, c :: cs)

/-- The code point that a letter after a backslash denotes. -/
def letter? : Char → Option ℕ
  | '\\' => some 0x5C
  | '\'' => some 0x27
  | '"' => some 0x22
  | 'a' => some 0x07
  | 'b' => some 0x08
  | 't' => some 0x09
  | 'n' => some 0x0A
  | 'v' => some 0x0B
  | 'f' => some 0x0C
  | 'r' => some 0x0D
  | _ => none

/-- How many hexadecimal digits follow a letter after a backslash. -/
def width? : Char → Option ℕ
  | 'x' => some 2
  | 'u' => some 4
  | 'U' => some 8
  | _ => none

/-- What an escape denotes, from behind its backslash, and what follows it. An escaped line
break denotes nothing. Characters by name, and carriage returns, are not read here. -/
def escape? : List Char → Option (List ℕ × List Char)
  | [] => none
  | '\n' :: cs => some ([], cs)
  | '\r' :: _ => none
  | 'N' :: _ => none
  | c :: cs =>
    match letter? c, width? c, octalDigit? c with
    | some p, _, _ => some ([p], cs)
    | none, some width, _ => do
      let (p, rest) ← hexNumber? width 0 cs
      if p < 0x110000 then some ([p], rest) else none
    | none, none, some d =>
      let (p, rest) := octalNumber 2 d cs
      some ([p], rest)
    | none, none, none => some ([0x5C, c.toNat], cs)

theorem length_hexNumber? {width n p : ℕ} {cs rest : List Char}
    (h : hexNumber? width n cs = some (p, rest)) : rest.length ≤ cs.length := by
  induction width generalizing n cs with
  | zero =>
    cases h
    exact Nat.le_refl _
  | succ width ih =>
    cases cs with
    | nil => cases h
    | cons c cs =>
      rw [hexNumber?, Option.bind_eq_bind, Option.bind_eq_some_iff] at h
      obtain ⟨d, -, h⟩ := h
      exact Nat.le_succ_of_le (ih h)

theorem length_octalNumber (width n : ℕ) (cs : List Char) :
    (octalNumber width n cs).2.length ≤ cs.length := by
  induction width generalizing n cs with
  | zero => exact Nat.le_refl _
  | succ width ih =>
    cases cs with
    | nil => exact Nat.le_refl _
    | cons c cs =>
      rw [octalNumber]
      split
      · exact Nat.le_succ_of_le (ih _ cs)
      · exact Nat.le_refl _

theorem length_escape? {cs rest : List Char} {ps : List ℕ}
    (h : escape? cs = some (ps, rest)) :
    rest.length ≤ cs.length := by
  unfold escape? at h
  split at h
  · cases h
  · cases h
    exact Nat.le_succ _
  · cases h
  · cases h
  · split at h
    · cases h
      exact Nat.le_succ _
    · rw [Option.bind_eq_bind, Option.bind_eq_some_iff] at h
      obtain ⟨⟨p, after⟩, number, h⟩ := h
      dsimp only at h
      split at h
      · cases h
        exact Nat.le_succ_of_le (length_hexNumber? number)
      · cases h
    · cases h
      exact Nat.le_succ_of_le (length_octalNumber _ _ _)
    · cases h
      exact Nat.le_succ _

/-! ## Literals -/

/-- The code points up to a closing quote, and what follows it. -/
def body? (quote : Char) (cs : List Char) : Option (List ℕ × List Char) :=
  match cs with
  | [] => none
  | c :: cs =>
    if c == quote then some ([], cs)
    else if c == '\\' then
      match _h : escape? cs with
      | none => none
      | some (ps, rest) => (body? quote rest).map fun r => (ps ++ r.1, r.2)
    else if ['\n', '\r', '\x00'].contains c then none
    else (body? quote cs).map fun r => (c.toNat :: r.1, r.2)
termination_by cs.length
decreasing_by
  · exact Nat.lt_succ_of_le (length_escape? _h)
  · exact Nat.lt_succ_self _

/-- A literal, from behind the quote that opens it. One with three quotes is not read. -/
def read? (quote : Char) (cs : List Char) : Option (List ℕ × List Char) :=
  if [quote, quote].isPrefixOf cs then none else body? quote cs

theorem length_body? {quote : Char} {cs rest : List Char} {ps : List ℕ}
    (h : body? quote cs = some (ps, rest)) : rest.length < cs.length := by
  fun_induction body? quote cs generalizing ps rest with
  | case1 => cases h
  | case2 =>
    cases h
    exact Nat.lt_succ_self _
  | case3 => cases h
  | case4 c cs _ _ qs after escaped ih =>
    obtain ⟨⟨ps', rest'⟩, read, same⟩ := Option.map_eq_some_iff.1 h
    cases same
    exact Nat.lt_succ_of_lt (Nat.lt_of_lt_of_le (ih read) (length_escape? escaped))
  | case5 => cases h
  | case6 c cs _ _ _ ih =>
    obtain ⟨⟨ps', rest'⟩, read, same⟩ := Option.map_eq_some_iff.1 h
    cases same
    exact Nat.lt_succ_of_lt (ih read)

theorem length_read? {quote : Char} {cs rest : List Char} {ps : List ℕ}
    (h : read? quote cs = some (ps, rest)) : rest.length < cs.length := by
  unfold read? at h
  split at h
  · cases h
  · exact length_body? h

/-- Whether a literal may begin after a character, if it might before it: after an opening
bracket, a comma or a colon, and blanks. So none is read behind a letter, which would change
its meaning, or behind another one, with which it would be one. -/
def next (free : Bool) (c : Char) : Bool :=
  if c == ' ' || c == '\n' then free else ['(', '[', '\x7b', ',', ':'].contains c

/-- What the literals of an expression denote, in order. An expression with a comment or with
a continued line is not read. -/
def literals? (free : Bool) (cs : List Char) : Option (List (List ℕ)) :=
  match cs with
  | [] => some []
  | c :: cs =>
    if c == '"' || c == '\'' then
      match _h : read? c cs with
      | none => none
      | some (ps, rest) => if free then (literals? false rest).map (ps :: ·) else none
    else if c == '#' || c == '\\' then none
    else literals? (next free c) cs
termination_by cs.length
decreasing_by
  · exact Nat.lt_succ_of_lt (length_read? _h)
  · exact Nat.lt_succ_self _

/-! ## Numbers that were written -/

/-- One digit more. -/
theorem hexNumber?_succ {width n m d : ℕ} {c : Char} {cs rest : List Char}
    (read : hexNumber? width n cs = some (m, c :: rest))
    (digit : Json.Parser.hexDigit? c = some d) :
    hexNumber? (width + 1) n cs = some (m * 16 + d, rest) := by
  induction width generalizing n cs with
  | zero =>
    cases read
    simp [hexNumber?, digit]
  | succ width ih =>
    cases cs with
    | nil => cases read
    | cons b cs =>
      rw [hexNumber?, Option.bind_eq_bind, Option.bind_eq_some_iff] at read
      obtain ⟨e, first, read⟩ := read
      rw [hexNumber?, first]
      exact ih read

/-- The last digit of a number and those before it. -/
theorem hex_succ (width n : ℕ) :
    Quoted.hex (width + 2) n = Quoted.hex (width + 1) (n / 16) ++ [(n % 16).digitChar] := by
  unfold Quoted.hex
  rcases Nat.lt_or_ge n 16 with small | large
  · have zero : Nat.toDigits 16 0 = ['0'] := rfl
    rw [Nat.toDigits_of_lt_base small, Nat.div_eq_of_lt small, Nat.mod_eq_of_lt small, zero]
    simp [List.replicate_succ']
  · rw [Nat.toDigits_of_base_le (by decide) large]
    simp

theorem hexNumber?_hex {width n : ℕ} (h : n < 16 ^ (width + 1)) (rest : List Char) :
    hexNumber? (width + 1) 0 (Quoted.hex (width + 1) n ++ rest) = some (n, rest) := by
  induction width generalizing n rest with
  | zero =>
    have small : n < 16 := h
    have digit := Json.hexDigit?_digitChar small
    have written : Quoted.hex 1 n = [n.digitChar] := by
      unfold Quoted.hex
      rw [Nat.toDigits_of_lt_base small]
      rfl
    rw [written]
    simp [hexNumber?, digit]
  | succ width ih =>
    have digit := Json.hexDigit?_digitChar (Nat.mod_lt n (by decide : 16 > 0))
    have front : n / 16 < 16 ^ (width + 1) := by
      rw [Nat.div_lt_iff_lt_mul (by decide)]
      exact h
    rw [hex_succ, List.append_assoc, List.singleton_append,
      hexNumber?_succ (ih front _) digit, Nat.div_add_mod']

theorem escape?_unit {n : ℕ} (h : n < 0x10000) (rest : List Char) :
    escape? ('u' :: Quoted.hex 4 n ++ rest) = some ([n], rest) := by
  have number := hexNumber?_hex (show n < 16 ^ (3 + 1) from h) rest
  simp [escape?, letter?, width?, number, show n < 0x110000 by omega]

/-! ## Characters that were written -/

section Body

variable {quote c : Char} {cs rest : List Char} {ps : List ℕ}

theorem body?_quote (quote : Char) (rest : List Char) :
    body? quote (quote :: rest) = some ([], rest) := by
  rw [body?, if_pos (beq_self_eq_true quote)]

theorem body?_escaped (other : quote ≠ '\\') (h : escape? cs = some (ps, rest)) :
    body? quote ('\\' :: cs) = (body? quote rest).map fun r => (ps ++ r.1, r.2) := by
  rw [body?, if_neg (by simpa using other.symm), if_pos (by rfl)]
  split
  · rename_i none
    rw [h] at none
    cases none
  · rename_i ps' rest' read
    rw [h] at read
    cases read
    rfl

theorem escape?_letter {p : ℕ} (h : letter? c = some p) :
    escape? (c :: cs) = some ([p], cs) := by
  unfold escape?
  split
  · cases ‹c :: cs = []›
  · cases ‹c :: cs = _›
    cases h
  · cases ‹c :: cs = _›
    cases h
  · cases ‹c :: cs = _›
    cases h
  · rename_i same
    cases same
    rw [h]

/-- A letter behind a backslash. -/
theorem body?_letter {p : ℕ} (other : quote ≠ '\\') (h : letter? c = some p)
    (rest : List Char) :
    body? quote (['\\', c] ++ rest) = (body? quote rest).map fun r => ([p] ++ r.1, r.2) :=
  body?_escaped other (escape?_letter h)

/-- One character is written as a letter behind a backslash, and the others in another way. -/
theorem body?_letterOr {k l : Char} {p : ℕ} (other : quote ≠ '\\') (h : letter? l = some p)
    (own : c = k → ps = [p])
    (otherwise : c ≠ k →
      body? quote (cs ++ rest) = (body? quote rest).map fun r => (ps ++ r.1, r.2)) :
    body? quote ((if c == k then ['\\', l] else cs) ++ rest) =
      (body? quote rest).map fun r => (ps ++ r.1, r.2) := by
  by_cases same : c = k
  · rw [if_pos (by simpa using same), own same]
    exact body?_letter other h rest
  · rw [if_neg (by simpa using same)]
    exact otherwise same

theorem body?_plain (other : c ≠ quote) (slash : c ≠ '\\') (line : c ∉ ['\n', '\r', '\x00']) :
    body? quote (c :: cs) = (body? quote cs).map fun r => ([c.toNat] ++ r.1, r.2) := by
  rw [body?, if_neg (by simpa using other), if_neg (by simpa using slash),
    if_neg (by simpa using line)]
  rfl

end Body

/-- A writer of characters between quotes of one kind writes each as an escape or as it is, so
that it is read as code points. -/
structure Writes (quote : Char) (write : Char → List Char)
    (denoted : Char → List ℕ) : Prop where
  first : ∀ c, ∃ d ds, write c = d :: ds ∧ d ≠ quote
  body : ∀ c rest, body? quote (write c ++ rest) =
    (body? quote rest).map fun r => (denoted c ++ r.1, r.2)

namespace Writes

variable {quote : Char} {write : Char → List Char} {denoted : Char → List ℕ}

theorem body_flatMap (h : Writes quote write denoted) (cs rest : List Char) :
    body? quote (cs.flatMap write ++ quote :: rest) = some (cs.flatMap denoted, rest) := by
  induction cs with
  | nil => exact body?_quote quote rest
  | cons c cs ih =>
    rw [List.flatMap_cons, List.append_assoc, h.body, ih, List.flatMap_cons]
    rfl

end Writes

/-! ### Two writers -/

/-- The units of 16 bits of a character. -/
def charUnits (c : Char) : List ℕ :=
  if c.toNat < 0x10000 then [c.toNat]
  else [0xD800 + (c.toNat - 0x10000) / 0x400, 0xDC00 + (c.toNat - 0x10000) % 0x400]

theorem body?_unit {n : ℕ} (h : n < 0x10000) (rest : List Char) :
    body? '"' (Json.unit n ++ rest) = (body? '"' rest).map fun r => ([n] ++ r.1, r.2) := by
  have unit : Json.unit n ++ rest = '\\' :: ('u' :: Quoted.hex 4 n ++ rest) := rfl
  rw [unit]
  exact body?_escaped (by decide) (escape?_unit h rest)

/-- The writer of documents writes what is read as units, with an alphabet that keeps no
control and nothing beyond the first plane. -/
theorem writes_escape {a : Json.Alphabet}
    (ha : ∀ c, a.keeps c = true → 32 ≤ c.toNat ∧ c.toNat < 0x10000) :
      Writes '"' a.escape charUnits := by
  have byNumber (c : Char) (rest : List Char) : body? '"' (Json.byNumber c ++ rest) =
      (body? '"' rest).map fun r => (charUnits c ++ r.1, r.2) := by
    unfold Json.byNumber charUnits
    dsimp only
    split
    · rename_i plane
      exact body?_unit plane rest
    · rename_i plane
      obtain ⟨high, low, eh, el, hh, hl, -⟩ := Json.surrogates (Nat.not_lt.1 plane)
      rw [eh, el, List.append_assoc, body?_unit (by omega), body?_unit (by omega),
        Option.map_map]
      rfl
  constructor
  · intro c
    unfold Json.Alphabet.escape
    split_ifs with quote
    all_goals try exact ⟨_, _, rfl, by decide⟩
    · exact ⟨c, [], rfl, by simpa using quote⟩
    · unfold Json.byNumber
      dsimp only
      split <;> exact ⟨_, _, rfl, by decide⟩
  · intro c rest
    unfold Json.Alphabet.escape
    refine body?_letterOr (by decide) rfl (fun h => h ▸ rfl) fun quote => ?_
    refine body?_letterOr (by decide) rfl (fun h => h ▸ rfl) fun slash => ?_
    iterate 5 refine body?_letterOr (by decide) rfl (fun h => h ▸ rfl) fun _ => ?_
    split
    case isTrue keeps =>
      obtain ⟨control, plane⟩ := ha c keeps
      rw [charUnits, if_pos plane]
      refine body?_plain quote slash ?_
      rintro (_ | ⟨_, _ | ⟨_, _ | ⟨_, ⟨⟩⟩⟩⟩)
      all_goals exact absurd control (by decide)
    case isFalse => exact byNumber c rest

/-- What is printable is no line break and no null. -/
theorem notMem_of_isPrintable {c : Char} (h : isPrintable c = true) :
    c ∉ ['\n', '\r', '\x00'] := by
  rintro (_ | ⟨_, _ | ⟨_, _ | ⟨_, ⟨⟩⟩⟩⟩)
  all_goals exact absurd h (by decide)

theorem escape?_byNumber (c : Char) (rest : List Char) :
    ∃ cs, Quoted.byNumber c = '\\' :: cs ∧ escape? (cs ++ rest) = some ([c.toNat], rest) := by
  have valid : c.toNat < 0x110000 := by
    rcases c.valid with h | h
    · exact Nat.lt_trans h (by decide)
    · exact h.2
  unfold Quoted.byNumber
  dsimp only
  split
  · rename_i small
    have number := hexNumber?_hex (show c.toNat < 16 ^ (1 + 1) from small) rest
    exact ⟨_, rfl, by simp [escape?, letter?, width?, number, valid]⟩
  split
  · rename_i plane
    exact ⟨_, rfl, escape?_unit plane rest⟩
  · have number := hexNumber?_hex (show c.toNat < 16 ^ (7 + 1) by omega) rest
    exact ⟨_, rfl, by simp [escape?, letter?, width?, number, valid]⟩

/-- What is shown of a text is read as code points. -/
theorem writes_quoted {quote : Char} (h : quote = '"' ∨ quote = '\'') :
    Writes quote (Quoted.escape quote) fun c => [c.toNat] := by
  have slash : quote ≠ '\\' := by rcases h with rfl | rfl <;> decide
  have letter : letter? quote = some quote.toNat := by rcases h with rfl | rfl <;> rfl
  constructor
  · intro c
    unfold Quoted.escape
    split_ifs with own
    all_goals try exact ⟨_, _, rfl, slash.symm⟩
    · simp only [Bool.or_eq_true, beq_iff_eq, not_or] at own
      exact ⟨c, [], rfl, own.1⟩
    · obtain ⟨cs, number, -⟩ := escape?_byNumber c []
      exact ⟨_, cs, number, slash.symm⟩
  · intro c rest
    unfold Quoted.escape
    split
    case isTrue h =>
      simp only [Bool.or_eq_true, beq_iff_eq] at h
      rcases h with rfl | rfl
      · exact body?_letter slash letter rest
      · exact body?_letter slash rfl rest
    rename_i own
    simp only [Bool.or_eq_true, beq_iff_eq, not_or] at own
    iterate 3 refine body?_letterOr slash rfl (fun h => h ▸ rfl) fun _ => ?_
    split
    case isTrue printable =>
      exact body?_plain own.1 own.2 (notMem_of_isPrintable printable)
    case isFalse =>
      obtain ⟨cs, number, read⟩ := escape?_byNumber c rest
      rw [number]
      exact body?_escaped slash read

/-! ## Expressions that were written -/

/-- The literals of the front of an expression are read as code points, whatever follows; it
says whether one may begin before it and after it. -/
def Reads (before after : Bool) (cs : List Char) (denoted : List (List ℕ)) : Prop :=
  ∀ rest, literals? before (cs ++ rest) = (literals? after rest).map (denoted ++ ·)

section Reads

variable {a b c : Bool} {cs ds : List Char} {ps qs : List (List ℕ)}

theorem Reads.append (h : Reads a b cs ps) (g : Reads b c ds qs) :
    Reads a c (cs ++ ds) (ps ++ qs) := by
  intro rest
  rw [List.append_assoc, h, g, Option.map_map]
  simp only [Function.comp_def, List.append_assoc]

/-- All literals of an expression. -/
theorem Reads.literals (h : Reads a b cs ps) : literals? a cs = some ps := by
  have whole := h []
  rwa [List.append_nil, literals?, Option.map_some, List.append_nil] at whole

theorem reads_nil (free : Bool) : Reads free free [] [] := by
  intro rest
  cases read : literals? free rest <;> simp [read]

/-- A character that begins neither a literal nor what is not read. -/
def isMark (c : Char) : Bool :=
  c != '"' && c != '\'' && c != '#' && c != '\\'

theorem reads_marks (marks : cs.all isMark = true) (leads : cs.foldl next a = b) :
    Reads a b cs [] := by
  induction cs generalizing a with
  | nil =>
    obtain rfl : a = b := leads
    exact reads_nil a
  | cons c cs ih =>
    intro rest
    rw [List.all_cons, Bool.and_eq_true] at marks
    have own := marks.1
    simp only [isMark, Bool.and_eq_true, bne_iff_ne] at own
    rw [List.cons_append, literals?, if_neg (by simp [own]), if_neg (by simp [own])]
    exact ih marks.2 leads rest

/-- Pieces one after the other. -/
theorem Reads.flatMap {α : Type} {xs : List α} {f : α → List Char} {g : α → List (List ℕ)}
    (h : ∀ x ∈ xs, Reads a a (f x) (g x)) : Reads a a (xs.flatMap f) (xs.flatMap g) := by
  induction xs with
  | nil => exact reads_nil a
  | cons x xs ih =>
    rw [List.flatMap_cons, List.flatMap_cons]
    exact (h x (.head _)).append (ih fun y hy => h y (.tail _ hy))

/-- Pieces with marks between them, of which one may begin behind another. -/
theorem Reads.intercalate {α : Type} {xs : List α} {f : α → List Char} {g : α → List (List ℕ)}
    (between : Reads b a cs []) (h : ∀ x ∈ xs, Reads a b (f x) (g x)) (some_ : xs ≠ []) :
    Reads a b (cs.intercalate (xs.map f)) (xs.flatMap g) := by
  induction xs with
  | nil => exact absurd rfl some_
  | cons x xs ih =>
    have first := h x (.head _)
    cases xs with
    | nil =>
      rw [List.map_singleton, List.intercalate_singleton, List.flatMap_singleton]
      exact first
    | cons y xs =>
      have rest := ih (fun z hz => h z (.tail _ hz)) (List.cons_ne_nil _ _)
      rw [List.map_cons, List.map_cons, List.intercalate_cons_cons, List.flatMap_cons]
      have front := first.append between
      rw [List.append_nil] at front
      exact front.append rest

/-- A list of such pieces. -/
theorem reads_list {α : Type} {xs : List α} {f : α → List Char} {g : α → List (List ℕ)}
    (h : ∀ x ∈ xs, Reads true false (f x) (g x)) :
    Reads true false (['['] ++ [',', ' '].intercalate (xs.map f) ++ [']'])
      (xs.flatMap g) := by
  have opened : Reads true true ['['] [] := reads_marks rfl rfl
  have comma : Reads false true [',', ' '] [] := reads_marks rfl rfl
  have closed (free : Bool) : Reads free false [']'] [] := reads_marks rfl rfl
  by_cases none : xs = []
  · subst none
    exact opened.append (closed true)
  · have whole := (opened.append (comma.intercalate h none)).append (closed false)
    rwa [List.append_nil, List.nil_append] at whole

end Reads

/-- Behind a literal there is no other one. -/
theorem literals?_quote {quote : Char} (quotes : quote = '"' ∨ quote = '\'')
    (cs : List Char) :
    literals? false (quote :: cs) = none := by
  rw [literals?, if_pos (by simpa using quotes)]
  split
  · rfl
  · rfl

/-- Only a blank text begins with two quotes, and a third one follows it only where there is
no expression. -/
theorem Writes.of_isPrefixOf {quote : Char} {write : Char → List Char}
    {denoted : Char → List ℕ}
    (h : Writes quote write denoted) {cs rest : List Char}
    (three : [quote, quote].isPrefixOf (cs.flatMap write ++ quote :: rest) = true) :
    cs = [] ∧ ∃ ds, rest = quote :: ds := by
  cases cs with
  | nil =>
    refine ⟨rfl, ?_⟩
    cases rest with
    | nil => simp at three
    | cons d ds =>
      simp only [List.flatMap_nil, List.nil_append, List.isPrefixOf_cons_cons,
        Bool.and_eq_true, beq_iff_eq] at three
      exact ⟨ds, by rw [three.2.1]⟩
  | cons c cs =>
    obtain ⟨d, ds, written, other⟩ := h.first c
    rw [List.flatMap_cons, written, List.cons_append, List.cons_append,
      List.isPrefixOf_cons_cons, Bool.and_eq_true, beq_iff_eq] at three
    exact absurd three.1.symm other

/-- A text that is written between quotes is read as one literal. -/
theorem Writes.reads {quote : Char} {write : Char → List Char} {denoted : Char → List ℕ}
    (h : Writes quote write denoted) (quotes : quote = '"' ∨ quote = '\'') (cs : List Char) :
    Reads true false (quote :: (cs.flatMap write ++ [quote])) [cs.flatMap denoted] := by
  intro rest
  rw [List.cons_append, List.append_assoc, List.singleton_append, literals?,
    if_pos (by simpa using quotes)]
  by_cases three : [quote, quote].isPrefixOf (cs.flatMap write ++ quote :: rest) = true
  · obtain ⟨rfl, ds, rfl⟩ := h.of_isPrefixOf three
    have refused :
        read? quote ([].flatMap write ++ quote :: quote :: ds) = none := if_pos three
    rw [literals?_quote quotes]
    split
    · rfl
    · rename_i read
      rw [refused] at read
      cases read
  · have whole : read? quote (cs.flatMap write ++ quote :: rest) =
        some (cs.flatMap denoted, rest) := (if_neg three).trans (h.body_flatMap cs rest)
    split
    · rename_i none
      rw [whole] at none
      cases none
    · rename_i read
      rw [whole] at read
      cases read
      rfl

/-! ## Texts -/

/-- The code points of a text. -/
def points (s : String) : List ℕ := s.toList.map Char.toNat

/-- The units of 16 bits of a text. -/
def units (s : String) : List ℕ := s.toList.flatMap charUnits

/-- They are the same exactly if the text is within the first plane. -/
theorem units_eq_points_iff {s : String} :
    units s = points s ↔ ∀ c ∈ s.toList, c.toNat < 0x10000 := by
  unfold units points
  induction s.toList with
  | nil => simp
  | cons c cs ih =>
    rw [List.flatMap_cons, List.map_cons, List.forall_mem_cons, ← ih]
    by_cases plane : c.toNat < 0x10000
    · rw [charUnits, if_pos plane, List.singleton_append, List.cons_inj_right,
        and_iff_right plane]
    · obtain ⟨high, low, eh, el, hh, -, -⟩ := Json.surrogates (Nat.not_lt.1 plane)
      rw [charUnits, if_neg plane, eh, el]
      refine ⟨fun same => ?_, fun ⟨within, _⟩ => absurd within plane⟩
      have first : high = c.toNat := (List.cons.inj same).1
      omega

end Schemata.Text.Literal
