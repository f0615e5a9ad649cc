/-
Chains of steps that may fail.

Reading a definition or a tree is a chain of steps, each of which may end it with a fault. A
chain that succeeds is taken apart one step at a time: `bind_eq_ok` names the result of the
first step, and `mem_of_mapM_ok` gives for each item of a result the item that it was made of.
-/
import Mathlib
import Schemata.Value.Attribute

namespace Schemata

variable {ε α β : Type}

/-- A chain succeeds exactly if its first step does and the rest does with its result. -/
theorem bind_eq_ok {x : Except ε α} {f : α → Except ε β} {b : β} :
    x >>= f = .ok b ↔ ∃ a, x = .ok a ∧ f a = .ok b := by
  cases x with
  | error e => simp [bind, Except.bind]
  | ok a => simp [bind, Except.bind]

@[simp] theorem ok_bind (a : α) (f : α → Except ε β) : (Except.ok a >>= f) = f a := rfl

@[simp] theorem error_bind (e : ε) (f : α → Except ε β) :
    (Except.error e >>= f) = .error e := rfl

theorem mapM_cons_eq_ok {f : α → Except ε β} {x : α} {xs : List α} {zs : List β} :
    (x :: xs).mapM f = .ok zs ↔
      ∃ y ys, f x = .ok y ∧ xs.mapM f = .ok ys ∧ zs = y :: ys := by
  rw [List.mapM_cons, bind_eq_ok]
  constructor
  · rintro ⟨y, hy, h⟩
    obtain ⟨ys, hys, h⟩ := bind_eq_ok.1 h
    exact ⟨y, ys, hy, hys, (Except.ok.inj h).symm⟩
  · rintro ⟨y, ys, hy, hys, rfl⟩
    exact ⟨y, hy, bind_eq_ok.2 ⟨ys, hys, rfl⟩⟩

/-- What a step makes of the items of a list comes from these items. -/
theorem mem_of_mapM_ok {f : α → Except ε β} {xs : List α} {ys : List β}
    (h : xs.mapM f = .ok ys) {y : β} (hy : y ∈ ys) : ∃ x ∈ xs, f x = .ok y := by
  induction xs generalizing ys with
  | nil =>
    cases h
    simp at hy
  | cons x xs ih =>
    obtain ⟨z, zs, hz, hzs, rfl⟩ := mapM_cons_eq_ok.1 h
    rcases List.mem_cons.1 hy with rfl | hy
    · exact ⟨x, .head _, hz⟩
    · obtain ⟨w, hw, e⟩ := ih hzs hy
      exact ⟨w, .tail _ hw, e⟩

/-- Where a step succeeds for each item of a list, it does for the list, and what it makes of
each item is as it should be. -/
theorem exists_mapM_of_forall₂ {γ : Type} {R : α → β → Prop} {Q : α → γ → Prop}
    {f : β → Except ε γ} {xs : List α} {ys : List β} (h : List.Forall₂ R xs ys)
    (step : ∀ x y, R x y → ∃ z, f y = .ok z ∧ Q x z) :
    ∃ zs, ys.mapM f = .ok zs ∧ List.Forall₂ Q xs zs := by
  induction h with
  | nil => exact ⟨[], rfl, .nil⟩
  | cons head _ ih =>
    obtain ⟨z, hz, q⟩ := step _ _ head
    obtain ⟨zs, hzs, qs⟩ := ih
    exact ⟨z :: zs, mapM_cons_eq_ok.2 ⟨z, zs, hz, hzs, rfl⟩, .cons q qs⟩

/-- Each item of the second of two related lists is related to an item of the first. -/
theorem exists_of_forall₂_right {R : α → β → Prop} {xs : List α} {ys : List β}
    (h : List.Forall₂ R xs ys) {y : β} (hy : y ∈ ys) : ∃ x ∈ xs, R x y := by
  induction h with
  | nil => cases hy
  | @cons x z xs zs head _ ih =>
    rcases List.mem_cons.1 hy with rfl | hy
    · exact ⟨x, .head _, head⟩
    · obtain ⟨w, hw, q⟩ := ih hy
      exact ⟨w, .tail _ hw, q⟩

theorem mapM_eq_ok_map {f : α → Except ε β} {g : α → β} {xs : List α}
    (h : ∀ x ∈ xs, f x = .ok (g x)) : xs.mapM f = .ok (xs.map g) := by
  induction xs with
  | nil => rfl
  | cons x xs ih =>
    exact mapM_cons_eq_ok.2 ⟨g x, xs.map g, h x (.head _),
      ih fun y hy => h y (.tail _ hy), rfl⟩

/-- What is required is there. -/
theorem Value.require_eq_ok {o : Option α} {a : α} :
    Value.require o = .ok a ↔ o = some a := by
  cases o <;> simp [Value.require]

/-- What is made of something required is required. -/
theorem Value.require_map {β : Type} (o : Option α) (f : α → β) :
    Value.require (o.map f) = Value.require o >>= fun a => .ok (f a) := by
  cases o <;> rfl

end Schemata
