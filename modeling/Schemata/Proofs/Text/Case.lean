/-
Small forms of texts.

The small form of a text is put together from those of its characters, and only a sigma looks
at its neighbours. At a break, a character without case that a sigma does not look past, a
text can therefore be cut and its parts be made small one by one (`lower_append`). Blanks are
breaks, so that it makes no difference whether a text is trimmed before or after
(`trimBlank_lower`).

What a single character becomes is read off the tables once (`lowerChar_cases`). A character
that is in the small form of no other one is in a small form only where it was in the text. No
small form has a small form of its own, so that parts of a text that was made small stay as
they are (`lower_eq_self`).
-/
import Schemata.Proofs.Text.Trim
import Schemata.Text.Case

namespace Schemata.Text

namespace Case

variable {c d : Char} {m n : Nat} {passed cs ds : List Char}

/-! ## Single characters -/

/-- The tables give a code point a small form with another one in it. -/
inductive Lowers (m n : Nat) : Prop where
  | long {ns : List Nat} : (m, ns) ∈ lowerLong → n ∈ ns → Lowers m n
  | run {r : Run} : r ∈ lowerRuns → r.covers m = true → (n : Int) = m + r.shift → Lowers m n

/-- The long forms are of characters. -/
theorem isValidChar_of_mem_lowerLong :
    ∀ e ∈ lowerLong, e.2 ≠ [] ∧ ∀ n ∈ e.2, n.isValidChar := by
  decide

/-- The runs lead to characters. -/
theorem bounds_of_mem_lowerRuns : ∀ r ∈ lowerRuns,
    0 ≤ r.first + r.shift ∧ r.last + r.shift < 0xD800 ∨
      0xDFFF < r.first + r.shift ∧ r.last + r.shift < 0x110000 := by
  decide +kernel

theorem bounds_of_covers {r : Run} (h : r.covers n = true) : r.first ≤ n ∧ n ≤ r.last := by
  simp only [Run.covers, Bool.and_eq_true, decide_eq_true_eq] at h
  exact h.1

theorem mem_of_lookup_lowerLong {ns : List Nat} (h : lowerLong.lookup n = some ns) :
    (n, ns) ∈ lowerLong := by
  obtain ⟨front, back, table, -⟩ := List.lookup_eq_some_iff.1 h
  rw [table]
  exact List.mem_append_right _ (.head _)

/-- A character stays, or becomes what the tables say. The capitals of ASCII, which are not
looked up, are in the tables too. -/
theorem lowerChar_cases (c : Char) :
    lowerChar c = [c] ∨ ∀ d ∈ lowerChar c, Lowers c.toNat d.toNat := by
  unfold lowerChar
  split
  · rw [Char.toLower]
    split
    case isTrue capital =>
      have low : 65 ≤ c.toNat := UInt32.le_iff_toNat_le.1 capital.1
      have high : c.toNat ≤ 90 := UInt32.le_iff_toNat_le.1 capital.2
      have letters : (⟨65, 90, 1, 32⟩ : Run) ∈ lowerRuns := .head _
      right
      intro d hd
      have point : d.toNat = (c.toNat + 32) % 2 ^ 32 :=
        congrArg Char.toNat (List.mem_singleton.1 hd)
      refine .run letters ?_ ?_
      · simp [Run.covers, low, high, Nat.mod_one]
      · show (d.toNat : Int) = c.toNat + 32
        omega
    case isFalse => exact .inl rfl
  · unfold image
    split
    case h_1 ns found =>
      have there := mem_of_lookup_lowerLong found
      right
      intro d hd
      obtain ⟨n, hn, rfl⟩ := List.mem_map.1 hd
      rw [Char.toNat_ofNat, if_pos ((isValidChar_of_mem_lowerLong _ there).2 n hn)]
      exact .long there hn
    case h_2 =>
      split
      case h_1 r found =>
        have there := List.mem_of_find?_eq_some found
        have covers := List.find?_some found
        have bounds := bounds_of_covers covers
        have images := bounds_of_mem_lowerRuns r there
        have valid : (c.toNat + r.shift).toNat.isValidChar := by
          unfold Nat.isValidChar
          omega
        right
        intro d hd
        rw [List.mem_singleton.1 hd, Char.toNat_ofNat, if_pos valid]
        exact .run there covers (by omega)
      case h_2 => exact .inl rfl

theorem lowerChar_ne_nil (c : Char) : lowerChar c ≠ [] := by
  unfold lowerChar
  split
  · exact List.cons_ne_nil _ _
  · unfold image
    split
    case h_1 ns found =>
      have some := (isValidChar_of_mem_lowerLong _ (mem_of_lookup_lowerLong found)).1
      simpa using some
    case h_2 =>
      split
      · exact List.cons_ne_nil _ _
      · exact List.cons_ne_nil _ _

/-- The code point is in the small form of another character. -/
def isImage (n : Nat) : Bool :=
  n == 'ς'.toNat || lowerLong.any (·.2.contains n) ||
    lowerRuns.any fun r => r.first + r.shift ≤ n && n ≤ r.last + r.shift

theorem Lowers.isImage (h : Lowers m n) : isImage n = true := by
  simp only [Case.isImage, Bool.or_eq_true, List.any_eq_true]
  cases h with
  | @long ns there mem => exact .inl (.inr ⟨_, there, List.contains_iff_mem.2 mem⟩)
  | @run r there covers image =>
    have bounds := bounds_of_covers covers
    refine .inr ⟨r, there, ?_⟩
    rw [Bool.and_eq_true, decide_eq_true_eq, decide_eq_true_eq]
    omega

/-- The small form of a character between others. -/
def formBetween (passed : List Char) (c : Char) (cs : List Char) : List Char :=
  if c == 'Σ' then [if seesCased passed && !seesCased cs then 'ς' else 'σ'] else lowerChar c

theorem lowerAfter_cons (passed : List Char) (c : Char) (cs : List Char) :
    lowerAfter passed (c :: cs) =
      formBetween passed c cs ++ lowerAfter (c :: passed) cs := rfl

theorem formBetween_of_ne (other : c ≠ 'Σ') (passed cs : List Char) :
    formBetween passed c cs = lowerChar c :=
  if_neg (by simp [other])

theorem formBetween_ne_nil (passed : List Char) (c : Char) (cs : List Char) :
    formBetween passed c cs ≠ [] := by
  unfold formBetween
  split
  · exact List.cons_ne_nil _ _
  · exact lowerChar_ne_nil c

/-- A character that is in the small form of no other one comes from itself. -/
theorem eq_of_mem_formBetween (h : d ∈ formBetween passed c cs)
    (own : isImage d.toNat = false) :
    d = c := by
  unfold formBetween at h
  split at h
  · have sigma : d ≠ 'ς' ∧ d ≠ 'σ' := by
      constructor
      · rintro rfl
        exact absurd own (by decide +kernel)
      · rintro rfl
        exact absurd own (by decide +kernel)
    rw [List.mem_singleton] at h
    split at h
    · exact absurd h sigma.1
    · exact absurd h sigma.2
  · rcases lowerChar_cases c with kept | lowers
    · exact List.mem_singleton.1 (kept ▸ h)
    · exact absurd (lowers d h).isImage (by simp [own])

/-! ## Where characters come from -/

theorem mem_of_mem_lowerAfter (own : isImage d.toNat = false) (h : d ∈ lowerAfter passed cs) :
    d ∈ cs := by
  induction cs generalizing passed with
  | nil => exact h
  | cons c cs ih =>
    rcases List.mem_append.1 h with here | later
    · rw [eq_of_mem_formBetween here own]
      exact .head _
    · exact .tail _ (ih later)

theorem head?_of_head?_lowerAfter (own : isImage d.toNat = false)
    (h : d ∈ (lowerAfter passed cs).head?) : d ∈ cs.head? := by
  cases cs with
  | nil => exact h
  | cons c cs =>
    obtain ⟨e, rest, form⟩ := List.exists_cons_of_ne_nil (formBetween_ne_nil passed c cs)
    rw [lowerAfter_cons, form] at h
    obtain rfl : e = d := by simpa using h
    have here : e ∈ formBetween passed c cs := by simp [form]
    simp [eq_of_mem_formBetween here own]

theorem lowerAfter_ne_nil (some : cs ≠ []) : lowerAfter passed cs ≠ [] := by
  cases cs with
  | nil => exact absurd rfl some
  | cons c cs => exact List.append_ne_nil_of_left_ne_nil (formBetween_ne_nil passed c cs) _

theorem getLast?_of_getLast?_lowerAfter (own : isImage d.toNat = false)
    (h : d ∈ (lowerAfter passed cs).getLast?) : d ∈ cs.getLast? := by
  induction cs generalizing passed with
  | nil => exact h
  | cons c cs ih =>
    rw [lowerAfter_cons] at h
    cases cs with
    | nil =>
      rw [lowerAfter, List.append_nil] at h
      simp [eq_of_mem_formBetween (List.mem_of_getLast? h) own]
    | cons e es =>
      rw [List.getLast?_append_of_ne_nil _ (lowerAfter_ne_nil (List.cons_ne_nil e es))] at h
      simpa using ih h

/-! ## Small forms of small forms -/

/-- No code point of a run leads into another run: the two do not meet, or they meet where the
images and the other run take every second code point in turn. -/
def Run.avoids (r s : Run) : Bool :=
  let first := (r.first + r.shift).toNat
  let last := (r.last + r.shift).toNat
  last.blt s.first || s.last.blt first ||
    ((r.first.beq r.last || r.step.beq 2) && s.step.beq 2 && ((first + s.first) % 2).beq 1)

theorem avoids_of_mem_lowerRuns :
    lowerRuns.all (fun r => lowerRuns.all fun s => r.avoids s) = true := by
  decide +kernel

/-- The long forms lead into no run, and no run leads into them. -/
theorem apart_of_mem_lowerLong : ∀ e ∈ lowerLong,
    (∀ n ∈ e.2, (∀ e' ∈ lowerLong, e'.1 ≠ n) ∧ ∀ r ∈ lowerRuns, r.covers n = false) ∧
      ∀ r ∈ lowerRuns, (e.1 : Int) < r.first + r.shift ∨ r.last + r.shift < e.1 := by
  decide +kernel

theorem covers_eq_false_of_avoids {r s : Run} (avoids : r.avoids s = true)
    (positive : 0 ≤ r.first + r.shift) (covers : r.covers m = true)
    (image : (n : Int) = m + r.shift) : s.covers n = false := by
  by_contra met
  simp only [Run.avoids, Bool.or_eq_true, Bool.and_eq_true, Nat.blt_eq, Nat.beq_eq] at avoids
  simp only [Run.covers, Bool.and_eq_true, decide_eq_true_eq, beq_iff_eq, Bool.not_eq_false]
    at covers met
  obtain ⟨⟨low, high⟩, step⟩ := covers
  obtain ⟨⟨low', high'⟩, step'⟩ := met
  rcases avoids with (below | above) | ⟨⟨single, every⟩, odd⟩
  · omega
  · omega
  · rw [every] at step'
    rcases single with one | two
    · omega
    · rw [two] at step
      omega

/-- What is in a small form has none. -/
theorem Lowers.not_lowers {k : Nat} (h : Lowers m n) : ¬ Lowers n k := by
  intro again
  cases h with
  | @long ns there mem =>
    obtain ⟨own, free⟩ := (apart_of_mem_lowerLong _ there).1 n mem
    cases again with
    | @long ns' there' => exact own _ there' rfl
    | @run r there' covers => exact absurd covers (by simp [free r there'])
  | @run r there covers image =>
    have bounds := bounds_of_covers covers
    cases again with
    | @long ns' there' =>
      have apart := (apart_of_mem_lowerLong _ there').2 r there
      simp only at apart
      omega
    | @run s there' covers' =>
      have avoids :=
        List.all_eq_true.1 (List.all_eq_true.1 avoids_of_mem_lowerRuns r there) s there'
      have positive : 0 ≤ r.first + r.shift := by
        have images := bounds_of_mem_lowerRuns r there
        omega
      exact absurd covers' (by simp [covers_eq_false_of_avoids avoids positive covers image])

/-- A character that is its own small form. -/
structure IsSettled (c : Char) : Prop where
  kept : lowerChar c = [c]
  other : c ≠ 'Σ'

theorem Lowers.isSettled (h : Lowers m d.toNat) : IsSettled d := by
  constructor
  · rcases lowerChar_cases d with kept | lowers
    · exact kept
    · obtain ⟨e, rest, form⟩ := List.exists_cons_of_ne_nil (lowerChar_ne_nil d)
      exact absurd (lowers e (by simp [form])) h.not_lowers
  · rintro rfl
    have small : lowerChar 'Σ' = ['σ'] := by
      decide +kernel
    rcases lowerChar_cases 'Σ' with kept | lowers
    · exact absurd (kept.symm.trans small) (by decide)
    · exact h.not_lowers (lowers 'σ' (by simp [small]))

theorem isSettled_of_mem_formBetween (h : d ∈ formBetween passed c cs) : IsSettled d := by
  unfold formBetween at h
  split at h
  · have final : IsSettled 'ς' := ⟨by decide +kernel, by decide⟩
    have inner : IsSettled 'σ' := ⟨by decide +kernel, by decide⟩
    rw [List.mem_singleton.1 h]
    split
    · exact final
    · exact inner
  · rename_i other
    rcases lowerChar_cases c with kept | lowers
    · obtain rfl := List.mem_singleton.1 (kept ▸ h)
      exact ⟨kept, by simpa using other⟩
    · exact (lowers d h).isSettled

theorem isSettled_of_mem_lowerAfter (h : d ∈ lowerAfter passed cs) : IsSettled d := by
  induction cs generalizing passed with
  | nil => exact absurd h List.not_mem_nil
  | cons c cs ih =>
    rcases List.mem_append.1 h with here | later
    · exact isSettled_of_mem_formBetween here
    · exact ih later

theorem lowerAfter_settled (all : ∀ c ∈ cs, IsSettled c) : lowerAfter passed cs = cs := by
  induction cs generalizing passed with
  | nil => rfl
  | cons c cs ih =>
    have settled := all c (.head _)
    rw [lowerAfter_cons, formBetween_of_ne settled.other, settled.kept,
      ih fun d hd => all d (.tail _ hd)]
    rfl

/-! ## Breaks -/

/-- The character has no case, and a sigma does not look past it. -/
structure IsBreak (c : Char) : Prop where
  kept : lowerChar c = [c]
  own : isImage c.toNat = false
  seen : caseIgnorableSet.contains c.toNat = false
  uncased : casedSet.contains c.toNat = false

instance (c : Char) : Decidable (IsBreak c) :=
  decidable_of_iff (lowerChar c = [c] ∧ isImage c.toNat = false ∧
      caseIgnorableSet.contains c.toNat = false ∧ casedSet.contains c.toNat = false)
    ⟨fun ⟨kept, own, seen, uncased⟩ => ⟨kept, own, seen, uncased⟩,
      fun h => ⟨h.kept, h.own, h.seen, h.uncased⟩⟩

theorem isBreak_of_isBlank (h : isBlank c = true) : IsBreak c := by
  have points : ∀ n ∈ blankPoints, IsBreak (Char.ofNat n) := by
    decide +kernel
  rw [← Char.ofNat_toNat c]
  exact points _ (toNat_mem_blankPoints h)

theorem seesCased_cons (c : Char) (cs : List Char) :
    seesCased (c :: cs) = if caseIgnorableSet.contains c.toNat then seesCased cs
      else casedSet.contains c.toNat := by
  unfold seesCased
  rw [List.dropWhile_cons]
  by_cases skipped : caseIgnorableSet.contains c.toNat = true
  · rw [if_pos skipped, if_pos skipped]
  · rw [if_neg skipped, if_neg skipped]

theorem IsBreak.seesCased_cons (h : IsBreak c) (cs : List Char) :
    seesCased (c :: cs) = false := by
  simp [Case.seesCased_cons, h.seen, h.uncased]

/-- What stands behind a break is not seen. -/
theorem IsBreak.seesCased_append (h : IsBreak c) (cs ds : List Char) :
    seesCased (cs ++ c :: ds) = seesCased cs := by
  induction cs with
  | nil => exact h.seesCased_cons ds
  | cons d cs ih =>
    rw [List.cons_append, Case.seesCased_cons, Case.seesCased_cons, ih]

/-- Of what has been passed, only whether a sigma sees a cased letter there counts. -/
theorem lowerAfter_congr {passed' : List Char} (same : seesCased passed = seesCased passed') :
    lowerAfter passed cs = lowerAfter passed' cs := by
  induction cs generalizing passed passed' with
  | nil => rfl
  | cons c cs ih =>
    have next : seesCased (c :: passed) = seesCased (c :: passed') := by
      rw [seesCased_cons, seesCased_cons, same]
    rw [lowerAfter_cons, lowerAfter_cons, formBetween, formBetween, same, ih next]

/-- Small forms begin anew at a break. -/
theorem IsBreak.lowerAfter_cons (h : IsBreak c) (passed cs : List Char) :
    lowerAfter passed (c :: cs) = c :: lower cs := by
  have other : c ≠ 'Σ' := by
    rintro rfl
    exact absurd h.uncased (by decide +kernel)
  have anew : lowerAfter (c :: passed) cs = lower cs :=
    lowerAfter_congr (h.seesCased_cons passed)
  rw [Case.lowerAfter_cons, formBetween_of_ne other, h.kept, anew]
  rfl

theorem lowerAfter_append (first : ∀ c ∈ ds.head?, IsBreak c) :
    lowerAfter passed (cs ++ ds) = lowerAfter passed cs ++ lower ds := by
  induction cs generalizing passed with
  | nil =>
    cases ds with
    | nil => rfl
    | cons d ds =>
      have breaks := first d rfl
      rw [lower, List.nil_append, breaks.lowerAfter_cons, breaks.lowerAfter_cons]
      rfl
  | cons c cs ih =>
    have unseen : seesCased (cs ++ ds) = seesCased cs := by
      cases ds with
      | nil => rw [List.append_nil]
      | cons d ds => exact (first d rfl).seesCased_append cs ds
    rw [List.cons_append, lowerAfter_cons, lowerAfter_cons, ih, formBetween,
      formBetween, unseen, List.append_assoc]

end Case

open Case

variable {c : Char} {cs ds gap : List Char}

/-! ## Texts with breaks -/

@[simp] theorem lower_nil : lower [] = [] := rfl

theorem lower_cons (h : IsBreak c) (cs : List Char) : lower (c :: cs) = c :: lower cs :=
  h.lowerAfter_cons [] cs

/-- The small form of a text is put together from those of its parts where a break begins a
part. -/
theorem lower_append (first : ∀ c ∈ ds.head?, IsBreak c) :
    lower (cs ++ ds) = lower cs ++ lower ds :=
  lowerAfter_append first

theorem lower_blanks_append (blank : ∀ c ∈ gap, isBlank c = true) (cs : List Char) :
    lower (gap ++ cs) = gap ++ lower cs := by
  induction gap with
  | nil => rfl
  | cons b gap ih =>
    rw [List.cons_append, lower_cons (isBreak_of_isBlank (blank b (.head _))),
      ih fun c hc => blank c (.tail _ hc)]
    rfl

theorem lower_append_blanks (blank : ∀ c ∈ gap, isBlank c = true) (cs : List Char) :
    lower (cs ++ gap) = lower cs ++ gap := by
  have first : ∀ c ∈ gap.head?, IsBreak c := fun c hc =>
    isBreak_of_isBlank (blank c (List.mem_of_mem_head? hc))
  have kept := lower_blanks_append blank []
  rw [List.append_nil, lower_nil, List.append_nil] at kept
  rw [lower_append first, kept]

/-- Blanks at the ends are cut from the small form as from the text itself. -/
theorem trimBlank_lower (cs : List Char) : trimBlank (lower cs) = lower (trimBlank cs) := by
  obtain ⟨before, after, front, back, whole⟩ := exists_around_trim isBlank cs
  have small : lower (before ++ trimBlank cs ++ after) =
      before ++ lower (trimBlank cs) ++ after := by
    rw [lower_append_blanks back, lower_blanks_append front]
  rw [trimBlank, whole] at small
  rw [small]
  -- A blank in the small form is one of the text, and the trimmed text has none at its ends.
  refine trim_around front back ?_ ?_
  · intro c hc
    by_contra blank
    have blank : isBlank c = true := by simpa using blank
    have there := head?_of_head?_lowerAfter (isBreak_of_isBlank blank).own hc
    exact absurd (head?_trim c there) (by simp [blank])
  · intro c hc
    by_contra blank
    have blank : isBlank c = true := by simpa using blank
    have there := getLast?_of_getLast?_lowerAfter (isBreak_of_isBlank blank).own hc
    exact absurd (getLast?_trim c there) (by simp [blank])

/-- A text of characters of a small form is its own small form. -/
theorem lower_eq_self (inside : cs ⊆ lower ds) : lower cs = cs :=
  lowerAfter_settled fun _ hc => isSettled_of_mem_lowerAfter (inside hc)

/-- A text of ASCII is made small letter by letter. -/
theorem lower_ascii (ascii : ∀ c ∈ cs, c.toNat < 128) : lower cs = cs.map Char.toLower := by
  have each (passed : List Char) : lowerAfter passed cs = cs.map Char.toLower := by
    induction cs generalizing passed with
    | nil => rfl
    | cons c cs ih =>
      have low := ascii c (.head _)
      have other : c ≠ 'Σ' := by
        rintro rfl
        exact absurd low (by decide)
      rw [Case.lowerAfter_cons, formBetween_of_ne other, lowerChar, if_pos low,
        ih fun d hd => ascii d (.tail _ hd)]
      rfl
  exact each []

end Schemata.Text
