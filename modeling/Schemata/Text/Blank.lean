/-
Blank characters and the trimming of texts.

`isBlank` is the Unicode white space of version 14.0 together with the four information
separators U+001C to U+001F: the characters that are cut from both ends of a type name, a
column default or an environment setting before it is read. Trimming is stated for any class
of characters, because quotes are cut from literals in the same way.
-/

namespace Schemata.Text

/-- White space, the information separators included. -/
def isBlank (c : Char) : Bool :=
  let n := c.toNat
  (9 ≤ n && n ≤ 13) || (28 ≤ n && n ≤ 32) || n == 0x85 || n == 0xA0 || n == 0x1680 ||
    (0x2000 ≤ n && n ≤ 0x200A) || n == 0x2028 || n == 0x2029 || n == 0x202F || n == 0x205F ||
    n == 0x3000

/-- Cuts the characters of a class from the end. -/
def trimRight (p : Char → Bool) (cs : List Char) : List Char :=
  (cs.reverse.dropWhile p).reverse

/-- Cuts the characters of a class from both ends. -/
def trim (p : Char → Bool) (cs : List Char) : List Char :=
  trimRight p (cs.dropWhile p)

theorem length_trim_le (p : Char → Bool) (cs : List Char) :
    (trim p cs).length ≤ cs.length := by
  have h1 := (List.dropWhile_sublist p (l := cs)).length_le
  have h2 := (List.dropWhile_sublist p (l := (cs.dropWhile p).reverse)).length_le
  simp only [List.length_reverse] at h2
  simp only [trim, trimRight, List.length_reverse]
  omega

/-- Nothing is cut from a text that holds no character of the class. -/
theorem trim_eq_self {p : Char → Bool} {cs : List Char} (h : ∀ c ∈ cs, p c = false) :
    trim p cs = cs := by
  have stays {ds : List Char} (hd : ∀ c ∈ ds, p c = false) : ds.dropWhile p = ds := by
    cases ds with
    | nil => rfl
    | cons d ds => rw [List.dropWhile_cons_of_neg (by simp [hd d])]
  rw [trim, stays h, trimRight, stays, List.reverse_reverse]
  intro c hc
  exact h c (List.mem_reverse.1 hc)

/-- Cuts white space from both ends. -/
def trimBlank (cs : List Char) : List Char :=
  trim isBlank cs

/-- A text without the white space at its ends. -/
def stripped (s : String) : String :=
  String.ofList (trimBlank s.toList)

/-- Every run of white space becomes one space. -/
def collapseBlank : List Char → List Char
  | [] => []
  | c :: cs =>
    if isBlank c then
      match cs with
      | [] => [' ']
      | d :: _ => if isBlank d then collapseBlank cs else ' ' :: collapseBlank cs
    else c :: collapseBlank cs

end Schemata.Text
