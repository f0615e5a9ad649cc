/-
Lists with a key.

`putBy` is the one step from which `lastByKey` is made. What it does to the keys of a list is
said once: a key that is there stays where it is, and a new one comes last. The keys of a list
to which items are put one by one are therefore distinct, whatever the items are, and under
each key the last item is found.
-/
import Mathlib
import Schemata.Keyed

namespace Schemata

variable {α : Type} (key : α → String)

/-! ## Putting an item -/

theorem keys_putBy_of_mem {x : α} {ys : List α} (h : key x ∈ ys.map key) :
    (putBy key x ys).map key = ys.map key := by
  induction ys with
  | nil => simp at h
  | cons y ys ih =>
    unfold putBy
    by_cases hy : key y = key x
    · simp [hy]
    · have hx : key x ∈ ys.map key := by
        rcases List.mem_cons.1 h with h | h
        · exact absurd h.symm hy
        · exact h
      simp [hy, ih hx]

theorem putBy_cons (x y : α) (ys : List α) :
    putBy key x (y :: ys) = if key y = key x then x :: ys else y :: putBy key x ys := by
  simp [putBy]

theorem putBy_of_notMem {x : α} {ys : List α} (h : key x ∉ ys.map key) :
    putBy key x ys = ys ++ [x] := by
  induction ys with
  | nil => rfl
  | cons y ys ih =>
    simp only [List.map_cons, List.mem_cons, not_or] at h
    have hy : ¬ key y = key x := fun e => h.1 e.symm
    simp [putBy, hy, ih h.2]

theorem mem_keys_putBy {x : α} {ys : List α} {k : String} :
    k ∈ (putBy key x ys).map key ↔ k = key x ∨ k ∈ ys.map key := by
  by_cases h : key x ∈ ys.map key
  · rw [keys_putBy_of_mem key h]
    constructor
    · exact Or.inr
    · rintro (rfl | hk)
      · exact h
      · exact hk
  · rw [putBy_of_notMem key h, List.map_append, List.mem_append]
    simp [or_comm]

theorem nodup_putBy {x : α} {ys : List α} (h : (ys.map key).Nodup) :
    ((putBy key x ys).map key).Nodup := by
  by_cases hx : key x ∈ ys.map key
  · rw [keys_putBy_of_mem key hx]
    exact h
  · rw [putBy_of_notMem key hx, List.map_append]
    refine List.nodup_append.2 ⟨h, by simp, ?_⟩
    intro a ha b hb
    have : b = key x := by simpa using hb
    subst this
    exact fun e => hx (e ▸ ha)

/-! ## Looking up a key

Lists with distinct keys are determined by their keys in order and by what is found under
each. -/

theorem find?_eq_none_of_notMem {xs : List α} {k : String} (h : k ∉ xs.map key) :
    xs.find? (fun x => key x == k) = none := by
  rw [List.find?_eq_none]
  intro x hx
  simpa using fun same : key x = k => h (same ▸ List.mem_map_of_mem hx)

/-- What is found after an item was put is the item under its own key, and what was found
before under every other key. -/
theorem find?_putBy (x : α) (ys : List α) (k : String) :
    (putBy key x ys).find? (fun y => key y == k) =
      if key x = k then some x else ys.find? (fun y => key y == k) := by
  induction ys with
  | nil => by_cases h : key x = k <;> simp [putBy, h]
  | cons y ys ih =>
    rw [putBy_cons]
    by_cases hy : key y = key x
    · by_cases h : key x = k <;> simp [hy, h]
    · rw [if_neg hy, List.find?_cons, List.find?_cons, ih]
      by_cases h : key y = k
      · have other : ¬ key x = k := fun e => hy (h.trans e.symm)
        simp [h, other]
      · rw [beq_eq_false_iff_ne.2 h]

theorem mem_iff_find? {xs : List α} (h : (xs.map key).Nodup) {x : α} :
    x ∈ xs ↔ xs.find? (fun y => key y == key x) = some x := by
  refine ⟨fun hx => ?_, List.mem_of_find?_eq_some⟩
  induction xs with
  | nil => cases hx
  | cons y ys ih =>
    rw [List.map_cons, List.nodup_cons] at h
    rcases List.mem_cons.1 hx with rfl | hx
    · simp
    · have other : ¬ key y = key x := fun e => h.1 (e ▸ List.mem_map_of_mem hx)
      rw [List.find?_cons_of_neg (by simpa using other)]
      exact ih h.2 hx

/-- Of one key there is at most one item among items with distinct keys: what is found under
it. -/
theorem filter_eq_find? {xs : List α} (h : (xs.map key).Nodup) (k : String) :
    xs.filter (fun x => key x == k) = (xs.find? fun x => key x == k).toList := by
  induction xs with
  | nil => rfl
  | cons x xs ih =>
    obtain ⟨notMem, nodup⟩ := List.nodup_cons.1 h
    by_cases hx : key x = k
    · subst hx
      rw [List.filter_cons_of_pos (by simp), List.find?_cons_of_pos (by simp), ih nodup,
        find?_eq_none_of_notMem key notMem]
      rfl
    · rw [List.filter_cons_of_neg (by simpa using hx),
        List.find?_cons_of_neg (by simpa using hx), ih nodup]

/-- Lists with distinct keys in which the same is found differ in their order alone. -/
theorem perm_of_find? {xs ys : List α} (hx : (xs.map key).Nodup) (hy : (ys.map key).Nodup)
    (h : ∀ k, xs.find? (fun x => key x == k) = ys.find? (fun y => key y == k)) :
      xs.Perm ys := by
  rw [List.perm_ext_iff_of_nodup (.of_map _ hx) (.of_map _ hy)]
  intro x
  rw [mem_iff_find? key hx, mem_iff_find? key hy, h]

/-- Lists with the same distinct keys, in one order, in which what is found is related under
each key, are related item by item. -/
theorem forall₂_of_find? {r : α → α → Prop} {xs ys : List α} (keys : xs.map key = ys.map key)
    (hx : (xs.map key).Nodup)
    (h : ∀ k, Option.Rel r (xs.find? fun x => key x == k) (ys.find? fun y => key y == k)) :
    List.Forall₂ r xs ys := by
  induction xs generalizing ys with
  | nil =>
    cases ys with
    | nil => exact .nil
    | cons y ys => cases keys
  | cons x xs ih =>
    cases ys with
    | nil => cases keys
    | cons y ys =>
      obtain ⟨head, tail⟩ := List.cons.inj keys
      obtain ⟨notMem, nodup⟩ := List.nodup_cons.1 hx
      refine .cons ?_ (ih tail nodup fun k => ?_)
      · have first := h (key x)
        rw [List.find?_cons_of_pos (by simp),
          List.find?_cons_of_pos (by simp [head])] at first
        cases first with
        | some related => exact related
      · by_cases hk : key x = k
        · subst hk
          rw [find?_eq_none_of_notMem key notMem, find?_eq_none_of_notMem key (tail ▸ notMem)]
          exact .none
        · have rest := h k
          rwa [List.find?_cons_of_neg (by simpa using hk),
            List.find?_cons_of_neg (by simpa [← head] using hk)] at rest

/-- An item that is there takes its own place. -/
theorem putBy_of_mem {x : α} {ys : List α} (distinct : (ys.map key).Nodup) (h : x ∈ ys) :
    putBy key x ys = ys := by
  induction ys with
  | nil => cases h
  | cons y ys ih =>
    obtain ⟨notMem, nodup⟩ := List.nodup_cons.1 distinct
    rw [putBy_cons]
    rcases List.mem_cons.1 h with rfl | h
    · rw [if_pos rfl]
    · have other : ¬ key y = key x := fun e => notMem (e ▸ List.mem_map_of_mem h)
      rw [if_neg other, ih nodup h]

theorem foldl_putBy_of_subset {xs ys : List α} (distinct : (ys.map key).Nodup) (h : xs ⊆ ys) :
    xs.foldl (fun zs x => putBy key x zs) ys = ys := by
  induction xs with
  | nil => rfl
  | cons x xs ih =>
    rw [List.foldl_cons, putBy_of_mem key distinct (h (.head _))]
    exact ih fun y hy => h (.tail _ hy)

/-! ## One item for each key -/

/-- Items put one by one into a list with distinct keys leave distinct keys. -/
theorem nodup_foldl_putBy {xs ys : List α} (h : (ys.map key).Nodup) :
    ((xs.foldl (fun zs x => putBy key x zs) ys).map key).Nodup := by
  induction xs generalizing ys with
  | nil => exact h
  | cons x xs ih => exact ih (nodup_putBy key h)

theorem mem_keys_foldl_putBy {xs ys : List α} {k : String} :
    k ∈ (xs.foldl (fun zs x => putBy key x zs) ys).map key ↔
      k ∈ xs.map key ∨ k ∈ ys.map key := by
  induction xs generalizing ys with
  | nil => simp
  | cons x xs ih =>
    rw [List.foldl_cons, ih, mem_keys_putBy, List.map_cons, List.mem_cons,
      or_left_comm, or_assoc]

theorem nodup_lastByKey (xs : List α) : ((lastByKey key xs).map key).Nodup :=
  nodup_foldl_putBy key List.nodup_nil

theorem mem_keys_lastByKey {xs : List α} {k : String} :
    k ∈ (lastByKey key xs).map key ↔ k ∈ xs.map key := by
  unfold lastByKey
  rw [mem_keys_foldl_putBy]
  simp

/-! ### Putting twice -/

/-- Of two items with one key the last one stays. -/
theorem putBy_putBy {x y : α} (h : key x = key y) (zs : List α) :
    putBy key y (putBy key x zs) = putBy key y zs := by
  induction zs with
  | nil => simp [putBy, h]
  | cons z zs ih =>
    by_cases hz : key z = key y
    · simp [putBy, h, hz]
    · simp [putBy, h, hz, ih]

/-- An item takes the place of its key before or after another item is put. -/
theorem putBy_comm {x y : α} {zs : List α} (h : key x ≠ key y) (hx : key x ∈ zs.map key) :
    putBy key x (putBy key y zs) = putBy key y (putBy key x zs) := by
  induction zs with
  | nil => simp at hx
  | cons z zs ih =>
    have hyx : ¬ key y = key x := fun e => h e.symm
    by_cases hz : key z = key x
    · simp [putBy, hz, h]
    · have tail : key x ∈ zs.map key := by
        rcases List.mem_cons.1 hx with e | hx
        · exact absurd e.symm hz
        · exact hx
      by_cases hzy : key z = key y
      · simp [putBy, hzy, hyx]
      · simp [putBy, hz, hzy, ih tail]

theorem foldl_putBy_putBy {x : α} {ys zs : List α} (hx : key x ∈ zs.map key)
    (hy : key x ∉ ys.map key) :
    ys.foldl (fun zs y => putBy key y zs) (putBy key x zs) =
      putBy key x (ys.foldl (fun zs y => putBy key y zs) zs) := by
  induction ys generalizing zs with
  | nil => rfl
  | cons y ys ih =>
    rw [List.map_cons, List.mem_cons, not_or] at hy
    rw [List.foldl_cons, List.foldl_cons, ← putBy_comm key hy.1 hx,
      ih (mem_keys_putBy key |>.2 (.inr hx)) hy.2]

/-- Putting an item into a list of items to be put is putting it after them. -/
theorem foldl_putBy_of_putBy (x : α) {ys : List α} (hy : (ys.map key).Nodup) (zs : List α) :
    (putBy key x ys).foldl (fun zs y => putBy key y zs) zs =
      putBy key x (ys.foldl (fun zs y => putBy key y zs) zs) := by
  induction ys generalizing zs with
  | nil => rfl
  | cons y ys ih =>
    obtain ⟨notMem, nodup⟩ := List.nodup_cons.1 hy
    rw [putBy_cons, List.foldl_cons]
    by_cases h : key y = key x
    · have present : key x ∈ (putBy key y zs).map key := mem_keys_putBy key |>.2 (.inl h.symm)
      rw [if_pos h, List.foldl_cons, ← putBy_putBy key h zs,
        foldl_putBy_putBy key present (h ▸ notMem)]
    · rw [if_neg h, List.foldl_cons, ih nodup]

theorem lastByKey_append (xs ys : List α) :
    lastByKey key (xs ++ ys) = ys.foldl (fun zs y => putBy key y zs) (lastByKey key xs) :=
  List.foldl_append

/-- Items put one by one, or one for each key of them: the last ones stay. -/
theorem foldl_putBy_lastByKey (xs zs : List α) :
    (lastByKey key xs).foldl (fun zs x => putBy key x zs) zs =
      xs.foldl (fun zs x => putBy key x zs) zs := by
  induction xs using List.reverseRecOn with
  | nil => rfl
  | append_singleton xs x ih =>
    rw [lastByKey_append, List.foldl_append]
    simp only [List.foldl_cons, List.foldl_nil]
    rw [foldl_putBy_of_putBy key x (nodup_lastByKey key xs), ih]

theorem lastByKey_of_nodup {xs : List α} (h : (xs.map key).Nodup) :
    lastByKey key xs = xs := by
  induction xs using List.reverseRecOn with
  | nil => rfl
  | append_singleton xs x ih =>
    rw [List.map_append, List.nodup_append] at h
    rw [lastByKey_append, ih h.1, List.foldl_cons, List.foldl_nil, putBy_of_notMem]
    exact fun hx => h.2.2 _ hx _ (.head _) rfl

theorem find?_foldl_putBy (xs ys : List α) (k : String) :
    (xs.foldl (fun zs x => putBy key x zs) ys).find? (fun z => key z == k) =
      (xs.reverse.find? fun x => key x == k).or (ys.find? fun y => key y == k) := by
  induction xs generalizing ys with
  | nil => rfl
  | cons x xs ih =>
    rw [List.foldl_cons, ih, find?_putBy, List.reverse_cons, List.find?_append]
    by_cases h : key x = k <;> simp [h]

/-- Under each key the last item is kept. -/
theorem find?_lastByKey (xs : List α) (k : String) :
    (lastByKey key xs).find? (fun x => key x == k) =
      xs.reverse.find? fun x => key x == k := by
  rw [lastByKey, find?_foldl_putBy, List.find?_nil, Option.or_none]

/-- Where every key is distinct, it does not matter from which end one looks. -/
theorem find?_reverse_of_nodup {xs : List α} (h : (xs.map key).Nodup) (k : String) :
    (xs.reverse.find? fun x => key x == k) = xs.find? fun x => key x == k := by
  rw [← find?_lastByKey, lastByKey_of_nodup key h]

/-- The keys of the items that are kept come in the order in which they first occur. -/
theorem keys_lastByKey (xs : List α) :
    (lastByKey key xs).map key = (xs.map key).eraseDups := by
  induction xs using List.reverseRecOn with
  | nil => rfl
  | append_singleton xs x ih =>
    rw [lastByKey_append, List.foldl_cons, List.foldl_nil, List.map_append,
      List.map_singleton, List.eraseDups_append, List.removeAll]
    by_cases h : key x ∈ xs.map key
    · rw [keys_putBy_of_mem key ((mem_keys_lastByKey key).2 h), ih,
        List.filter_cons_of_neg (by simpa using h)]
      simp
    · rw [putBy_of_notMem key fun kept => h ((mem_keys_lastByKey key).1 kept),
        List.map_append, ih, List.filter_cons_of_pos (by simpa using h)]
      simp [List.eraseDups_cons]

/-- Keeping the last item of each key is associative. -/
theorem lastByKey_assoc (xs ys zs : List α) :
    lastByKey key (lastByKey key (xs ++ ys) ++ zs) =
      lastByKey key (xs ++ lastByKey key (ys ++ zs)) := by
  rw [lastByKey_append key _ zs, lastByKey_of_nodup key (nodup_lastByKey key _),
    lastByKey_append key xs, lastByKey_append key xs, foldl_putBy_lastByKey,
    List.foldl_append]

/-! ## Items changed one by one

A change of items that leaves their keys alone commutes with putting them. -/

theorem map_putBy {g : α → α} (hg : ∀ x, key (g x) = key x) (x : α) (ys : List α) :
    (putBy key x ys).map g = putBy key (g x) (ys.map g) := by
  induction ys with
  | nil => rfl
  | cons y ys ih =>
    rw [List.map_cons, putBy, putBy, hg, hg]
    split
    · rfl
    · rw [List.map_cons, ih]

theorem map_foldl_putBy {g : α → α} (hg : ∀ x, key (g x) = key x) (xs ys : List α) :
    (xs.foldl (fun zs x => putBy key x zs) ys).map g =
      (xs.map g).foldl (fun zs x => putBy key x zs) (ys.map g) := by
  induction xs generalizing ys with
  | nil => rfl
  | cons x xs ih => rw [List.foldl_cons, ih, map_putBy key hg, List.map_cons, List.foldl_cons]

theorem map_lastByKey {g : α → α} (hg : ∀ x, key (g x) = key x) (xs : List α) :
    (lastByKey key xs).map g = lastByKey key (xs.map g) :=
  map_foldl_putBy key hg xs []

end Schemata
