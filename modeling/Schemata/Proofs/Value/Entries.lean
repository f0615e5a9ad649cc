/-
Looking up the entries of a mapping.

A mapping may have keys of any kind, but it is asked for text keys only. A key answers to a
text exactly if it is a word and the word is that text (`same_text_iff`), so that no key
answers to two texts, and what is put under one text is not found under another.
-/
import Mathlib
import Schemata.Value.Basic

namespace Schemata.Value

/-- A value is the same as a word if it is that word, in whatever form. -/
theorem same_iff_word? {v w : Value} {s : String} (hw : w.word? = some s) :
    v.same w = true ↔ v.word? = some s := by
  cases w <;> simp only [word?, Option.some.injEq,
    reduceCtorEq] at hw <;> subst hw <;> cases v <;>
    simp [same, sameLeaf, word?, int?]

/-- What a word is the same as is that word. -/
theorem word?_of_same {v w : Value} {s : String} (hv : v.word? = some s)
    (h : v.same w = true) :
    w.word? = some s := by
  cases v <;> simp only [word?, Option.some.injEq,
    reduceCtorEq] at hv <;> subst hv <;> cases w <;>
    simp_all [same, sameLeaf, word?, int?]

theorem same_text_iff {v : Value} {s : String} : v.same (.text s) = true ↔ v.word? = some s :=
  same_iff_word? rfl

theorem same_text (s t : String) : (text s).same (.text t) = (s == t) := by
  simp [same, sameLeaf, word?]

@[simp] theorem get?_nil (key : String) : get? [] key = none := rfl

theorem get?_cons (e : Value × Value) (es : List (Value × Value)) (key : String) :
    get? (e :: es) key = if e.1.word? = some key then some e.2 else get? es key := by
  unfold get? find?
  rw [List.find?_cons]
  cases h : e.1.same (.text key) with
  | true => rw [if_pos (same_text_iff.1 h)]; rfl
  | false => rw [if_neg (fun e => by simp [same_text_iff.2 e] at h)]

theorem get?_append (es fs : List (Value × Value)) (key : String) :
    get? (es ++ fs) key = (get? es key).or (get? fs key) := by
  simp [get?, find?, List.find?_append, Option.map_or]

/-- What a key is put under is found under its word, and under no other text. -/
theorem get?_put_key (es : List (Value × Value)) (k v : Value) (key : String) :
    get? (put es k v) key = if k.word? = some key then some v else get? es key := by
  induction es with
  | nil => rw [put, get?_cons]
  | cons e es ih =>
    rw [put]
    split
    · rename_i h
      have alike : e.1.word? = some key ↔ k.word? = some key :=
        ⟨fun own => word?_of_same own h, fun own => (same_iff_word? own).1 h⟩
      simp only [get?_cons, alike]
      split <;> rfl
    · rename_i h
      rw [get?_cons, get?_cons, ih]
      by_cases own : k.word? = some key
      · have other : ¬ e.1.word? = some key := fun word => h ((same_iff_word? own).2 word)
        rw [if_neg other, if_pos own, if_pos own]
      · rw [if_neg own, if_neg own]

theorem get?_put (es : List (Value × Value)) (k key : String) (v : Value) :
    get? (put es (.text k) v) key = if key = k then some v else get? es key := by
  simp only [get?_put_key, word?, Option.some.injEq, eq_comm]

theorem getD_put_self (es : List (Value × Value)) (key : String) (v : Value) :
    getD (put es (.text key) v) key = v := by
  rw [getD, get?_put, if_pos rfl, Option.getD_some]

/-- Putting under a text key brings no key that is no word. -/
theorem any_put (es : List (Value × Value)) (key : String) (v : Value) :
    ((put es (.text key) v).any fun e => e.1.word?.isNone) =
      es.any fun e => e.1.word?.isNone := by
  induction es with
  | nil => rfl
  | cons e es ih =>
    rw [put]
    split
    · rfl
    · rw [List.any_cons, List.any_cons, ih]

end Schemata.Value
