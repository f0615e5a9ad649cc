/-
Documents that were written are read back.

`read_print` holds for every style that puts nothing but blanks between the parts and every
alphabet that escapes controls: what is read is the document that was written, with one member
for each key, if its whole numbers are short enough to be read, its doubles are finite, and
the reader has room for what stands inside one another. A reader whose room is the length of
the text always has (`parse?_print`), since every array and every object opens with a
character of its own. The induction is on the document. Its statement has what follows the
document as a variable, since an item is followed by a comma in one place and by a bracket in
another, and asks for no more fuel than there are characters.
-/
import Schemata.Cache.StoredSchema
import Schemata.Proofs.Json.Number
import Schemata.Proofs.Json.Text

namespace Schemata.Json

/-! ## What is read back -/

mutual

/-- Every double in a document is finite. -/
def isFinite : Json → Bool
  | .float x => x.isFinite
  | .array js => areFinite js
  | .object ms => membersAreFinite ms
  | _ => true

/-- Every double in the items is finite. -/
def areFinite : List Json → Bool
  | [] => true
  | j :: js => isFinite j && areFinite js

/-- Every double in the members is finite. -/
def membersAreFinite : List (String × Json) → Bool
  | [] => true
  | (_, j) :: ms => isFinite j && membersAreFinite ms

end

mutual

/-- A document with one member for each key of an object: the last one, in the place of the
first. -/
def distinct : Json → Json
  | .array js => .array (distinctItems js)
  | .object ms => .object (distinctMembers [] ms)
  | j => j

/-- Items with one member for each key. -/
def distinctItems : List Json → List Json
  | [] => []
  | j :: js => distinct j :: distinctItems js

/-- Members set one after the other in those before them. -/
def distinctMembers (seen : List (String × Json)) :
    List (String × Json) → List (String × Json)
  | [] => seen
  | (k, j) :: ms => distinctMembers (putMember seen k (distinct j)) ms

end

/-- Nothing but blanks stands between the parts of a document. -/
structure Style.IsBlank (st : Style) : Prop where
  gap : ∀ level, ∀ c ∈ st.gap level, Parser.isBlank c = true
  next : ∀ level, ∀ c ∈ st.next level, Parser.isBlank c = true
  colon : ∀ c ∈ st.colon, Parser.isBlank c = true

theorem lineBreak_isBlank (level : Nat) : ∀ c ∈ lineBreak level, Parser.isBlank c = true := by
  intro c hc
  rcases List.mem_cons.1 hc with rfl | hc
  · rfl
  · rw [List.eq_of_mem_replicate hc]
    rfl

theorem space_isBlank : ∀ c ∈ [' '], Parser.isBlank c = true := by
  intro c hc
  rw [List.mem_singleton.1 hc]
  rfl

theorem indented_isBlank : indented.IsBlank where
  gap := lineBreak_isBlank
  next := lineBreak_isBlank
  colon := space_isBlank

theorem inline_isBlank : inline.IsBlank where
  gap := by simp [inline]
  next _ := space_isBlank
  colon := space_isBlank

/-! ## Blanks -/

theorem skip_cons {c : Char} (h : Parser.isBlank c = false) (cs : List Char) :
    Parser.skip (c :: cs) = c :: cs := by
  simp [Parser.skip, h]

theorem skip_append {bs : List Char} (h : ∀ c ∈ bs, Parser.isBlank c = true)
    (cs : List Char) :
    Parser.skip (bs ++ cs) = Parser.skip cs :=
  List.dropWhile_append_of_pos h

/-! ## Numbers -/

open Schemata.Json.Parser (Ends)

theorem isBlank_of_isDigit {c : Char} (h : Text.isDigit c = true) :
    Parser.isBlank c = false := by
  simp only [Text.isDigit, Bool.and_eq_true, decide_eq_true_eq] at h
  simp only [Parser.isBlank, Bool.or_eq_false_iff, beq_eq_false_iff_ne]
  refine ⟨⟨⟨?_, ?_⟩, ?_⟩, ?_⟩ <;> rintro rfl <;> revert h <;> decide

theorem word_eq_none {c : Char} (h : Text.isDigit c = true) (cs : List Char) :
    Parser.word (c :: cs) = none ∧ Parser.word ('-' :: c :: cs) = none := by
  have ne (d : Char) (hd : Text.isDigit d = false) : (d == c) = false := by
    rw [beq_eq_false_iff_ne]
    rintro rfl
    rw [h] at hd
    cases hd
  simp [Parser.word, Parser.after?, List.isPrefixOf, ne 'n' rfl, ne 't' rfl, ne 'f' rfl,
    ne 'N' rfl, ne 'I' rfl, ne '-' rfl]

/-- A number that begins with a digit is read as a number. -/
theorem value_digit {c : Char} (h : Text.isDigit c = true) (fuel room : Nat)
    (cs : List Char) :
    Parser.value (fuel + 1) room (c :: cs) =
      Parser.expect (Parser.number false (c :: cs)) := by
  have ne {d : Char} (hd : Text.isDigit d = false) : c ≠ d := by
    rintro rfl
    rw [h] at hd
    cases hd
  rw [Parser.value]
  · rw [(word_eq_none h cs).1]
    simp [ne (d := '-') rfl]
  · exact ne rfl
  · exact ne rfl
  · exact ne rfl

theorem value_minus {c : Char} (h : Text.isDigit c = true) (fuel room : Nat)
    (cs : List Char) :
    Parser.value (fuel + 1) room ('-' :: c :: cs) =
      Parser.expect (Parser.number true (c :: cs)) := by
  rw [Parser.value]
  · rw [(word_eq_none h cs).2]
    simp
  all_goals decide

/-- The text of a number is its digits behind a sign, if it has one. -/
theorem value_number {negative : Bool} {body rest : List Char} {j : Json} (fuel room : Nat)
    (hb : ∃ c cs, body = c :: cs ∧ Text.isDigit c = true)
    (h : Parser.number negative (body ++ rest) = some (j, rest)) :
    Parser.value (fuel + 1) room ((if negative then '-' :: body else body) ++ rest) =
      .ok (j, rest) := by
  obtain ⟨c, cs, rfl, hc⟩ := hb
  have read : Parser.expect (Parser.number negative (c :: cs ++ rest)) = .ok (j, rest) := by
    rw [h, Parser.expect]
  cases negative
  · rw [← read]
    exact value_digit hc fuel room (cs ++ rest)
  · rw [← read]
    exact value_minus hc fuel room (cs ++ rest)

theorem head_digitChars (n : Nat) :
    ∃ c cs, Decimal.digitChars n = c :: cs ∧ Text.isDigit c = true := by
  obtain ⟨c, cs, e⟩ := List.exists_cons_of_ne_nil (Text.digitChars_ne_nil n)
  exact ⟨c, cs, e, Text.allDigits_digitChars n c (by simp [e])⟩

/-- A whole number of digits that are not too many is read back. -/
theorem value_int {n : Int} (h : (Json.int n).isWritable = true) (fuel room : Nat)
    {rest : List Char} (hr : Ends rest) :
    Parser.value (fuel + 1) room ((toString n).toList ++ rest) = .ok (.int n, rest) := by
  have whole := Parser.isWhole_digitChars n.natAbs
  have short : (Decimal.digitChars n.natAbs).length ≤ Text.maxDigits := by
    simp only [isWritable, decide_eq_true_eq] at h
    rwa [← String.length_toList, Text.toList_toString_nat] at h
  have number := Parser.number_digits (decide (n < 0)) whole short hr
  rw [Text.natOfDigits_digitChars] at number
  have value : (if decide (n < 0) = true then -(n.natAbs : Int) else n.natAbs) = n := by
    by_cases hn : n < 0
    · simp only [hn, decide_true, if_true]
      omega
    · simp only [hn, decide_false, Bool.false_eq_true, if_false]
      omega
  rw [value] at number
  rw [Text.toList_toString_int]
  exact value_number fuel room (head_digitChars n.natAbs) number

theorem head_positional {c : Char} (h : Text.isDigit c = true) (cs : List Char) (p : Int) :
    ∃ d ds, Decimal.positional (c :: cs) p = d :: ds ∧ Text.isDigit d = true := by
  unfold Decimal.positional
  split
  · exact ⟨_, _, rfl, rfl⟩
  · obtain ⟨q, hq⟩ := Nat.exists_eq_succ_of_ne_zero (show p.toNat ≠ 0 by omega)
    rw [hq]
    exact ⟨_, _, rfl, h⟩

theorem head_scientific {c : Char} (h : Text.isDigit c = true) (cs : List Char) (width : Nat)
    (e : Int) :
    ∃ d ds, Decimal.scientific width (c :: cs) e = d :: ds ∧ Text.isDigit d = true := by
  unfold Decimal.scientific
  cases cs <;> exact ⟨_, _, rfl, h⟩

/-- A magnitude begins with a digit. -/
theorem head_magnitude (l : Decimal.Layout) (bits : Nat) :
    ∃ d ds, l.magnitude bits = d :: ds ∧ Text.isDigit d = true := by
  unfold Decimal.Layout.magnitude
  dsimp only
  generalize Decimal.shortest bits = d
  obtain ⟨c, cs, e, hc⟩ := head_digitChars d.digits
  rw [e]
  split
  · exact ⟨_, _, rfl, rfl⟩
  split
  · exact head_positional hc cs _
  · exact head_scientific hc cs _ _

theorem toList_write {l : Decimal.Layout} {x : Float}
    (h : Decimal.magnitudeBits x < Decimal.specialBits) :
    (l.write x).toList =
      if Decimal.isNegative x then '-' :: l.magnitude (Decimal.magnitudeBits x)
      else l.magnitude (Decimal.magnitudeBits x) := by
  have below : (Decimal.magnitudeBits x == Decimal.specialBits) = false := by
    simpa using Nat.ne_of_lt h
  unfold Decimal.Layout.write
  dsimp only
  rw [if_neg (Nat.lt_asymm h), below, String.toList_ofList]
  rfl

/-- A finite double is read back. -/
theorem value_float {x : Float} (h : x.isFinite = true) (fuel room : Nat) {rest : List Char}
    (hr : Ends rest) :
    Parser.value (fuel + 1) room ((Decimal.dataLayout.write x).toList ++ rest) =
      .ok (.float x, rest) := by
  have bits := Decimal.magnitudeBits_lt h
  have number := Parser.number_magnitude (Decimal.isNegative x) Decimal.dataLayout bits hr
  rw [Decimal.toFloat_magnitudeBits] at number
  rw [toList_write bits]
  exact value_number fuel room (head_magnitude _ _) number

/-! ## Documents -/

/-- A character that a document may begin with: neither a blank nor a closing bracket. -/
def Begins (cs : List Char) : Prop :=
  ∃ c rest, cs = c :: rest ∧ Parser.isBlank c = false ∧ c ≠ ']'

theorem begins_of_digit {cs : List Char}
    (h : ∃ c rest, cs = c :: rest ∧ Text.isDigit c = true) :
    Begins cs := by
  obtain ⟨c, rest, e, hc⟩ := h
  refine ⟨c, rest, e, isBlank_of_isDigit hc, ?_⟩
  rintro rfl
  cases hc

theorem begins_of_sign (negative : Bool) {body : List Char} (h : Begins body) :
    Begins (if negative then '-' :: body else body) := by
  cases negative
  · exact h
  · exact ⟨'-', body, rfl, rfl, by decide⟩

variable {st : Style} {a : Alphabet}

variable (st a) in
theorem begins_chars (level : Nat) {j : Json} (h : j.isFinite = true) :
    Begins (chars st a level j) := by
  match j with
  | .null => exact ⟨_, _, rfl, rfl, by decide⟩
  | .bool true => exact ⟨_, _, rfl, rfl, by decide⟩
  | .bool false => exact ⟨_, _, rfl, rfl, by decide⟩
  | .int n =>
    rw [chars, Text.toList_toString_int]
    exact begins_of_sign _ (begins_of_digit (head_digitChars n.natAbs))
  | .float x =>
    have bits := Decimal.magnitudeBits_lt h
    rw [chars, toList_write bits]
    exact begins_of_sign _ (begins_of_digit (head_magnitude _ _))
  | .text s => exact ⟨_, _, rfl, rfl, by decide⟩
  | .array [] => exact ⟨_, _, rfl, rfl, by decide⟩
  | .array (_ :: _) => exact ⟨_, _, rfl, rfl, by decide⟩
  | .object [] => exact ⟨_, _, rfl, rfl, by decide⟩
  | .object (_ :: _) => exact ⟨_, _, rfl, rfl, by decide⟩

theorem begins_text (s : String) : Begins (a.text s) :=
  ⟨_, _, rfl, rfl, by decide⟩

theorem Begins.append {cs : List Char} (h : Begins cs) (rest : List Char) :
    Begins (cs ++ rest) := by
  obtain ⟨c, ds, rfl, hc⟩ := h
  exact ⟨c, ds ++ rest, rfl, hc⟩

theorem Begins.skip {cs : List Char} (h : Begins cs) : Parser.skip cs = cs := by
  obtain ⟨c, ds, rfl, hc, -⟩ := h
  exact skip_cons hc ds

theorem ends_of_blank {c : Char} (h : Parser.isBlank c = true) (cs : List Char) :
    Ends (c :: cs) := by
  intro d hd
  obtain rfl : c = d := by simpa using hd
  refine ⟨?_, ?_, ?_, ?_⟩
  · cases hc : Text.isDigit c
    · rfl
    · rw [isBlank_of_isDigit hc] at h
      cases h
  all_goals
    rintro rfl
    cases h

/-- After blanks and a character that no number goes on with, a number ends. -/
theorem ends_append {bs : List Char} (h : ∀ c ∈ bs, Parser.isBlank c = true) {cs : List Char}
    (hc : Ends cs) : Ends (bs ++ cs) := by
  cases bs with
  | nil => exact hc
  | cons b bs => exact ends_of_blank (h b (by simp)) (bs ++ cs)

theorem ends_cons {c : Char} (h : Text.isDigit c = false) (hp : c ≠ '.') (he : c ≠ 'e')
    (hE : c ≠ 'E') (cs : List Char) : Ends (c :: cs) := by
  intro d hd
  obtain rfl : c = d := by simpa using hd
  exact ⟨h, hp, he, hE⟩

theorem ends_itemsAfter (hs : st.IsBlank) (level : Nat) (js : List Json) (rest : List Char) :
    Ends (itemsAfter st a level js ++ rest) := by
  cases js with
  | nil =>
    rw [itemsAfter, List.append_assoc]
    exact ends_append (hs.gap level) (ends_cons rfl (by decide) (by decide) (by decide) _)
  | cons j js => exact ends_cons rfl (by decide) (by decide) (by decide) _

theorem ends_membersAfter (hs : st.IsBlank) (level : Nat) (ms : List (String × Json))
    (rest : List Char) : Ends (membersAfter st a level ms ++ rest) := by
  cases ms with
  | nil =>
    rw [membersAfter, List.append_assoc]
    exact ends_append (hs.gap level) (ends_cons rfl (by decide) (by decide) (by decide) _)
  | cons m ms => exact ends_cons rfl (by decide) (by decide) (by decide) _

/-! Each reader of a sequence does one step and goes on. What it goes on with is what the
induction says of the items or members that are left. -/

/-- What the reader of items does after one of them. -/
def Parser.moreItems (fuel room : Nat) (j : Json) (cs : List Char) :
    Except Parser.Trouble (List Json × List Char) :=
  match Parser.skip cs with
  | ',' :: rest => do
    let (js, rest) ← Parser.items fuel room (Parser.skip rest)
    .ok (j :: js, rest)
  | ']' :: rest => .ok ([j], rest)
  | _ => .error .malformed

/-- What the reader of members does after one of them. -/
def Parser.moreMembers (fuel room : Nat) (seen : List (String × Json)) (cs : List Char) :
    Except Parser.Trouble (List (String × Json) × List Char) :=
  match Parser.skip cs with
  | ',' :: rest => Parser.members fuel room seen (Parser.skip rest)
  | '\x7d' :: rest => .ok (seen, rest)
  | _ => .error .malformed

theorem items_step {fuel room : Nat} {cs rest : List Char} {j : Json}
    (h : Parser.value fuel room cs = .ok (j, rest)) :
    Parser.items (fuel + 1) room cs = Parser.moreItems fuel room j rest := by
  rw [Parser.items, h]
  rfl

theorem members_step {fuel room : Nat} (ha : a.IsSafe) (hs : st.IsBlank)
    (seen : List (String × Json)) (k : String) {cs rest : List Char} {j : Json}
    (hb : Parser.skip cs = cs) (h : Parser.value fuel room cs = .ok (j, rest)) :
    Parser.members (fuel + 1) room seen (a.text k ++ ':' :: (st.colon ++ cs)) =
      Parser.moreMembers fuel room (putMember seen k j) rest := by
  have key : a.text k ++ ':' :: (st.colon ++ cs) =
      '"' :: (k.toList.flatMap a.escape ++ '"' :: ':' :: (st.colon ++ cs)) := by
    simp [Alphabet.text]
  rw [key, Parser.members, text_append ha]
  simp only [Parser.expect, bind, Except.bind]
  rw [skip_cons rfl]
  simp only
  rw [skip_append hs.colon, hb, h]
  rfl

theorem value_items {bs cs : List Char} (hb : ∀ c ∈ bs, Parser.isBlank c = true)
    (h : Begins cs)
    (fuel room : Nat) :
    Parser.value (fuel + 1) (room + 1) ('[' :: (bs ++ cs)) =
      (do
        let (js, rest) ← Parser.items fuel room cs
        .ok (.array js, rest)) := by
  rw [Parser.value, skip_append hb, h.skip]
  obtain ⟨c, ds, rfl, -, hc⟩ := h
  split
  · rename_i e
    exact absurd (List.cons.inj e).1 hc
  · rfl

theorem value_members {bs : List Char} (hb : ∀ c ∈ bs, Parser.isBlank c = true) (k : String)
    (cs : List Char) (fuel room : Nat) :
    Parser.value (fuel + 1) (room + 1) ('\x7b' :: (bs ++ (a.text k ++ cs))) =
      (do
        let (ms, rest) ← Parser.members fuel room [] (a.text k ++ cs)
        .ok (.object ms, rest)) := by
  rw [Parser.value, skip_append hb, ((begins_text k).append cs).skip]
  rfl

variable (st a) in
theorem length_chars_pos (level : Nat) {j : Json} (h : j.isFinite = true) :
    0 < (chars st a level j).length := by
  obtain ⟨c, cs, e, -⟩ := begins_chars st a level h
  rw [e]
  exact Nat.succ_pos _

variable (st a) in
theorem length_itemsAfter_pos (level : Nat) (js : List Json) :
    0 < (itemsAfter st a level js).length := by
  cases js <;> simp [itemsAfter]

variable (st a) in
theorem length_membersAfter_pos (level : Nat) (ms : List (String × Json)) :
    0 < (membersAfter st a level ms).length := by
  cases ms <;> simp [membersAfter]

mutual

/-- A document is read back, whatever follows it, with as much fuel as it has characters and
as much room as it is deep. -/
theorem value_chars (hs : st.IsBlank) (ha : a.IsSafe) : ∀ (j : Json), j.isWritable = true →
    j.isFinite = true → ∀ (level fuel room : Nat) (rest : List Char),
    (chars st a level j).length ≤ fuel + 1 → j.nesting ≤ room → Ends rest →
    Parser.value (fuel + 1) room (chars st a level j ++ rest) = .ok (j.distinct, rest)
  | .null, _, _, _, _, _, _, _, _, _ => rfl
  | .bool true, _, _, _, _, _, _, _, _, _ => rfl
  | .bool false, _, _, _, _, _, _, _, _, _ => rfl
  | .int n, hw, _, _, fuel, room, _, _, _, hr => value_int hw fuel room hr
  | .float x, _, hf, _, fuel, room, _, _, _, hr => value_float hf fuel room hr
  | .text s, _, _, level, fuel, room, rest, _, _, _ => by
    have quoted : chars st a level (.text s) ++ rest =
        '"' :: (s.toList.flatMap a.escape ++ '"' :: rest) := by
      simp [chars, Alphabet.text]
    rw [quoted, Parser.value, text_append ha]
    rfl
  | .array [], _, _, _, _, _ + 1, _, _, _, _ => rfl
  | .array (j :: js), hw, hf, level, fuel, room + 1, rest, hl, hn, hr => by
    simp only [isWritable, areWritable, Bool.and_eq_true] at hw
    simp only [isFinite, areFinite, Bool.and_eq_true] at hf
    simp only [nesting, nestingOf, Nat.add_le_add_iff_right, Nat.max_le] at hn
    have begins := begins_chars st a (level + 1) hf.1
    have first := length_chars_pos st a (level + 1) hf.1
    have after := length_itemsAfter_pos st a level js
    simp only [chars, List.length_cons, List.length_append] at hl
    obtain ⟨fuel, rfl⟩ : ∃ f, fuel = f + 2 := ⟨fuel - 2, by omega⟩
    have item := value_chars hs ha j hw.1 hf.1 (level + 1) fuel room
      (itemsAfter st a level js ++ rest) (by omega) hn.1 (ends_itemsAfter hs level js rest)
    have items := items_after hs ha js hw.2 hf.2 level (fuel + 1) room rest (by omega) hn.2 hr
      j.distinct
    rw [← items_step item] at items
    simp only [chars, List.cons_append, List.append_assoc]
    rw [value_items (hs.gap (level + 1)) (begins.append _), items]
    rfl
  | .object [], _, _, _, _, _ + 1, _, _, _, _ => rfl
  | .object ((k, j) :: ms), hw, hf, level, fuel, room + 1, rest, hl, hn, hr => by
    simp only [isWritable, membersAreWritable, Bool.and_eq_true] at hw
    simp only [isFinite, membersAreFinite, Bool.and_eq_true] at hf
    simp only [nesting, nestingOfMembers, Nat.add_le_add_iff_right, Nat.max_le] at hn
    have begins := begins_chars st a (level + 1) hf.1
    have first := length_chars_pos st a (level + 1) hf.1
    have after := length_membersAfter_pos st a level ms
    simp only [chars, List.length_cons, List.length_append] at hl
    obtain ⟨fuel, rfl⟩ : ∃ f, fuel = f + 2 := ⟨fuel - 2, by omega⟩
    have member := value_chars hs ha j hw.1 hf.1 (level + 1) fuel room
      (membersAfter st a level ms ++ rest) (by omega) hn.1
        (ends_membersAfter hs level ms rest)
    have members :=
      members_after hs ha ms hw.2 hf.2 level (fuel + 1) room rest (by omega) hn.2 hr
      (putMember [] k j.distinct)
    rw [← members_step ha hs [] k (begins.append _).skip member] at members
    simp only [chars, List.cons_append, List.append_assoc]
    rw [value_members (hs.gap (level + 1)), members]
    rfl

theorem items_after (hs : st.IsBlank) (ha : a.IsSafe) : ∀ (js : List Json),
    areWritable js = true → areFinite js = true →
      ∀ (level fuel room : Nat) (rest : List Char),
    (itemsAfter st a level js).length ≤ fuel + 1 → nestingOf js ≤ room →
      Ends rest → ∀ j : Json,
    Parser.moreItems fuel room j (itemsAfter st a level js ++ rest) =
      .ok (j :: distinctItems js, rest)
  | [], _, _, level, fuel, room, rest, _, _, _, j => by
    rw [itemsAfter, List.append_assoc, Parser.moreItems, skip_append (hs.gap level)]
    rfl
  | i :: js, hw, hf, level, fuel, room, rest, hl, hn, hr, j => by
    simp only [areWritable, Bool.and_eq_true] at hw
    simp only [areFinite, Bool.and_eq_true] at hf
    simp only [nestingOf, Nat.max_le] at hn
    have begins := begins_chars st a (level + 1) hf.1
    have first := length_chars_pos st a (level + 1) hf.1
    have after := length_itemsAfter_pos st a level js
    simp only [itemsAfter, List.length_cons, List.length_append] at hl
    obtain ⟨fuel, rfl⟩ : ∃ f, fuel = f + 2 := ⟨fuel - 2, by omega⟩
    have item := value_chars hs ha i hw.1 hf.1 (level + 1) fuel room
      (itemsAfter st a level js ++ rest) (by omega) hn.1 (ends_itemsAfter hs level js rest)
    have items := items_after hs ha js hw.2 hf.2 level (fuel + 1) room rest (by omega) hn.2 hr
      i.distinct
    rw [← items_step item] at items
    rw [itemsAfter, Parser.moreItems]
    simp only [List.cons_append, List.append_assoc]
    rw [skip_cons rfl]
    simp only
    rw [skip_append (hs.next (level + 1)), (begins.append _).skip, items]
    rfl

theorem members_after (hs : st.IsBlank) (ha : a.IsSafe) : ∀ (ms : List (String × Json)),
    membersAreWritable ms = true → membersAreFinite ms = true → ∀ (level fuel room : Nat)
    (rest : List Char),
    (membersAfter st a level ms).length ≤ fuel + 1 → nestingOfMembers ms ≤ room → Ends rest →
    ∀ seen : List (String × Json),
    Parser.moreMembers fuel room seen (membersAfter st a level ms ++ rest) =
      .ok (distinctMembers seen ms, rest)
  | [], _, _, level, fuel, room, rest, _, _, _, seen => by
    rw [membersAfter, List.append_assoc, Parser.moreMembers, skip_append (hs.gap level)]
    rfl
  | (k, i) :: ms, hw, hf, level, fuel, room, rest, hl, hn, hr, seen => by
    simp only [membersAreWritable, Bool.and_eq_true] at hw
    simp only [membersAreFinite, Bool.and_eq_true] at hf
    simp only [nestingOfMembers, Nat.max_le] at hn
    have begins := begins_chars st a (level + 1) hf.1
    have first := length_chars_pos st a (level + 1) hf.1
    have after := length_membersAfter_pos st a level ms
    simp only [membersAfter, List.length_cons, List.length_append] at hl
    obtain ⟨fuel, rfl⟩ : ∃ f, fuel = f + 2 := ⟨fuel - 2, by omega⟩
    have member := value_chars hs ha i hw.1 hf.1 (level + 1) fuel room
      (membersAfter st a level ms ++ rest) (by omega) hn.1
        (ends_membersAfter hs level ms rest)
    have members :=
      members_after hs ha ms hw.2 hf.2 level (fuel + 1) room rest (by omega) hn.2 hr
      (putMember seen k i.distinct)
    rw [← members_step ha hs seen k (begins.append _).skip member] at members
    rw [membersAfter, Parser.moreMembers]
    simp only [List.cons_append, List.append_assoc]
    rw [skip_cons rfl]
    simp only
    rw [skip_append (hs.next (level + 1)), ((begins_text k).append _).skip]
    exact members

end

/-- A document that was written is read back, with one member for each key, if there is
room. -/
theorem read_print (hs : st.IsBlank) (ha : a.IsSafe) {j : Json} (hw : j.isWritable = true)
    (hf : j.isFinite = true) {room : Nat} (hn : j.nesting ≤ room) :
    read room (print st a j) = .ok j.distinct := by
  have read := value_chars hs ha j hw hf 0 (2 * (chars st a 0 j).length) room [] (by omega) hn
    (by simp [Ends])
  rw [List.append_nil] at read
  unfold Json.read print
  simp only [String.toList_ofList, (begins_chars _ _ 0 hf).skip, read, bind, Except.bind]
  rfl

mutual

/-- A document is no deeper than it is long. -/
theorem nesting_le_length (st : Style) (a : Alphabet) : ∀ (level : Nat) (j : Json),
    j.nesting ≤ (chars st a level j).length
  | _, .null | _, .bool _ | _, .int _ | _, .float _ | _, .text _ => Nat.zero_le _
  | _, .array [] | _, .object [] => by simp [nesting, nestingOf, nestingOfMembers, chars]
  | level, .array (j :: js) => by
    have item := nesting_le_length st a (level + 1) j
    have items := nestingOf_le_length st a level js
    simp only [nesting, nestingOf, chars, List.length_cons, List.length_append]
    omega
  | level, .object ((k, j) :: ms) => by
    have member := nesting_le_length st a (level + 1) j
    have members := nestingOfMembers_le_length st a level ms
    simp only [nesting, nestingOfMembers, chars, List.length_cons, List.length_append]
    omega

theorem nestingOf_le_length (st : Style) (a : Alphabet) : ∀ (level : Nat) (js : List Json),
    nestingOf js ≤ (itemsAfter st a level js).length
  | _, [] => Nat.zero_le _
  | level, j :: js => by
    have item := nesting_le_length st a (level + 1) j
    have items := nestingOf_le_length st a level js
    simp only [nestingOf, itemsAfter, List.length_cons, List.length_append]
    omega

theorem nestingOfMembers_le_length (st : Style) (a : Alphabet) :
    ∀ (level : Nat) (ms : List (String × Json)),
    nestingOfMembers ms ≤ (membersAfter st a level ms).length
  | _, [] => Nat.zero_le _
  | level, (k, j) :: ms => by
    have member := nesting_le_length st a (level + 1) j
    have members := nestingOfMembers_le_length st a level ms
    simp only [nestingOfMembers, membersAfter, List.length_cons, List.length_append]
    omega

end

/-- A document that was written is read back by a reader with room for as many brackets as the
text has characters. -/
theorem read_length_print (hs : st.IsBlank) (ha : a.IsSafe) {j : Json}
    (hw : j.isWritable = true)
    (hf : j.isFinite = true) :
      read (print st a j).length (print st a j) = .ok j.distinct := by
  refine read_print hs ha hw hf ?_
  rw [print, String.length_ofList]
  exact nesting_le_length st a 0 j

theorem parse?_print (hs : st.IsBlank) (ha : a.IsSafe) {j : Json} (hw : j.isWritable = true)
    (hf : j.isFinite = true) : parse? (print st a j) = some j.distinct := by
  rw [parse?, read_length_print hs ha hw hf]
  rfl

/-! ### Members with different keys -/

theorem membersAreFinite_putMember {ms : List (String × Json)} {k : String} {j : Json}
    (hm : membersAreFinite ms = true) (hj : j.isFinite = true) :
    membersAreFinite (putMember ms k j) = true := by
  induction ms with
  | nil => simp [putMember, membersAreFinite, hj]
  | cons m ms ih =>
    simp only [membersAreFinite, Bool.and_eq_true] at hm
    unfold putMember
    split
    · simp [membersAreFinite, hj, hm.2]
    · simp [membersAreFinite, hm.1, ih hm.2]

theorem putMember_of_notMem {ms : List (String × Json)} {k : String} (h : k ∉ ms.map (·.1))
    (j : Json) : putMember ms k j = ms ++ [(k, j)] := by
  induction ms with
  | nil => rfl
  | cons m ms ih =>
    simp only [List.map_cons, List.mem_cons, not_or] at h
    have hm : ¬ m.1 = k := fun e => h.1 e.symm
    simp [putMember, hm, ih h.2]

/-- Members with different keys stay as they are, each with a value of its own. -/
theorem distinctMembers_of_nodup {seen ms : List (String × Json)}
    (h : ((seen ++ ms).map (·.1)).Nodup) :
    distinctMembers seen ms = seen ++ ms.map fun m => (m.1, m.2.distinct) := by
  induction ms generalizing seen with
  | nil => simp [distinctMembers]
  | cons m ms ih =>
    obtain ⟨k, j⟩ := m
    have hk : k ∉ seen.map (·.1) := by
      rw [List.map_append, List.map_cons, List.nodup_append] at h
      exact fun hm => h.2.2 k hm k (List.mem_cons_self ..) rfl
    rw [distinctMembers, putMember_of_notMem hk, ih]
    · simp
    · simpa using h

theorem distinctItems_eq_map (js : List Json) : distinctItems js = js.map distinct := by
  induction js with
  | nil => rfl
  | cons j js ih => rw [distinctItems, ih, List.map_cons]

theorem itemsToValue_eq_map (js : List Json) : itemsToValue js = js.map toValue := by
  induction js with
  | nil => rfl
  | cons j js ih => rw [itemsToValue, ih, List.map_cons]

theorem membersToValue_eq_map (ms : List (String × Json)) :
    membersToValue ms = ms.map fun m => (.text m.1, m.2.toValue) := by
  induction ms with
  | nil => rfl
  | cons m ms ih => rw [membersToValue, ih, List.map_cons]

end Schemata.Json
