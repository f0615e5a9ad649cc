/-
Operations that change a state and may fail.

An operation takes a state, and leaves a state also when it fails. `Ensures` says of an
operation what holds where it ends well and what holds where it fails; the rules below take an
operation apart into its steps. Most operations keep one property throughout, so that what is
shown of the steps is enough.
-/
import Mathlib
import Schemata.Fault

namespace Schemata

variable {σ α β : Type} {P : σ → Prop} {E : σ → Prop}

/-- A step, and then the rest with its result. -/
theorem run_bind (m : ExceptT Fault (StateM σ) α)
    (f : α → ExceptT Fault (StateM σ) β) (x : σ) :
    (m >>= f) x =
      match m x with
      | (.ok a, y) => f a y
      | (.error e, y) => (.error e, y) := by
  have unfolded : (m >>= f) x = ExceptT.bindCont f (m x).1 (m x).2 := rfl
  rw [unfolded]
  obtain ⟨r, y⟩ := m x
  cases r <;> rfl

theorem run_map (g : α → β) (m : ExceptT Fault (StateM σ) α) (x : σ) :
    (g <$> m) x = ((m x).1.map g, (m x).2) := by
  have unfolded : g <$> m = m >>= fun a => pure (g a) := rfl
  rw [unfolded, run_bind]
  obtain ⟨r, y⟩ := m x
  cases r <;> rfl

theorem run_map_state (g : α → β) (m : ExceptT Fault (StateM σ) α) (x : σ) :
    ((g <$> m) x).2 = (m x).2 := by
  rw [run_map]

/-- A fault is caught in the state that it left. -/
theorem run_tryCatch (m : ExceptT Fault (StateM σ) α) (h : Fault → ExceptT Fault (StateM σ) α)
    (x : σ) :
    (tryCatch m h : ExceptT Fault (StateM σ) α) x =
      match m x with
      | (.ok a, y) => (.ok a, y)
      | (.error e, y) => h e y := by
  simp only [tryCatch, tryCatchThe, MonadExceptOf.tryCatch, ExceptT.tryCatch,
    ExceptT.mk, bind, StateT.bind]
  obtain ⟨r, y⟩ := m x
  cases r <;> rfl

/-- What is done finally is done however the rest ends, and does not change how. -/
theorem run_tryFinally (m : ExceptT Fault (StateM σ) α) (f : σ → σ) (x : σ) :
    (tryFinally m (modify f) : ExceptT Fault (StateM σ) α) x = ((m x).1, f (m x).2) := by
  simp only [tryFinally, MonadFinally.tryFinally', Functor.map, ExceptT.map, ExceptT.mk, bind,
    StateT.bind]
  obtain ⟨r, y⟩ := m x
  cases r <;> rfl

/-- From a state as `P` says, an operation ends in a result and a state as `Q` says, or fails
in a state as `E` says. -/
def Ensures (P : σ → Prop) (m : ExceptT Fault (StateM σ) α) (Q : α → σ → Prop)
    (E : σ → Prop) : Prop :=
  ∀ x, P x →
    match m x with
    | (.ok a, y) => Q a y
    | (.error _, y) => E y

namespace Ensures

theorem pure {Q : α → σ → Prop} {a : α} (h : ∀ x, P x → Q a x) :
    Ensures P (pure a : ExceptT Fault (StateM σ) α) Q E :=
  fun x hx => h x hx

theorem throw {Q : α → σ → Prop} {e : Fault} (h : ∀ x, P x → E x) :
    Ensures P (throw e : ExceptT Fault (StateM σ) α) Q E :=
  fun x hx => h x hx

theorem bind {m : ExceptT Fault (StateM σ) α} {f : α → ExceptT Fault (StateM σ) β}
    {Q : α → σ → Prop} {R : β → σ → Prop} (first : Ensures P m Q E)
    (rest : ∀ a, Ensures (Q a) (f a) R E) : Ensures P (m >>= f) R E := by
  intro x hx
  have after := first x hx
  rw [run_bind]
  match h : m x with
  | (.ok a, y) =>
    rw [h] at after
    exact rest a y after
  | (.error e, y) =>
    rw [h] at after
    exact after

/-- What holds of the state that an operation leaves, whether it ends well or fails. -/
theorem of_state {m : ExceptT Fault (StateM σ) α} {Q : σ → Prop} (h : ∀ x, P x → Q (m x).2) :
    Ensures P m (fun _ => Q) Q := by
  intro x hx
  have after := h x hx
  match e : m x with
  | (.ok a, y) =>
    rw [e] at after
    exact after
  | (.error _, y) =>
    rw [e] at after
    exact after

theorem state {m : ExceptT Fault (StateM σ) α} {Q : σ → Prop} (h : Ensures P m (fun _ => Q) Q)
    {x : σ} (hx : P x) : Q (m x).2 := by
  have after := h x hx
  match e : m x with
  | (.ok a, y) =>
    rw [e] at after
    exact after
  | (.error _, y) =>
    rw [e] at after
    exact after

/-- What does not depend on the state may be used for the operation. -/
theorem given {p : Prop} {m : ExceptT Fault (StateM σ) α} {Q : α → σ → Prop}
    (h : p → Ensures P m Q E) : Ensures (fun x => p ∧ P x) m Q E :=
  fun x hx => h hx.1 x hx.2

theorem weaken {m : ExceptT Fault (StateM σ) α} {Q R : α → σ → Prop} {P' E' : σ → Prop}
    (h : Ensures P m Q E) (before : ∀ x, P' x → P x) (after : ∀ a x, Q a x → R a x)
    (failed : ∀ x, E x → E' x) : Ensures P' m R E' := by
  intro x hx
  have done := h x (before x hx)
  match e : m x with
  | (.ok a, y) =>
    rw [e] at done
    exact after a y done
  | (.error _, y) =>
    rw [e] at done
    exact failed y done

theorem map {m : ExceptT Fault (StateM σ) α} {Q : α → σ → Prop} {R : β → σ → Prop} {g : α → β}
    (h : Ensures P m Q E) (after : ∀ a x, Q a x → R (g a) x) : Ensures P (g <$> m) R E :=
  h.bind fun a => pure fun x hx => after a x hx

/-- An operation on each item of a list, each of which keeps a property. -/
theorem mapM {f : α → ExceptT Fault (StateM σ) β} {xs : List α}
    (h : ∀ x ∈ xs, Ensures P (f x) (fun _ => P) E) :
    Ensures P (xs.mapM f) (fun _ => P) E := by
  induction xs with
  | nil => exact pure fun _ hx => hx
  | cons x xs ih =>
    rw [List.mapM_cons]
    refine (h x (.head _)).bind fun y => ?_
    refine (ih fun z hz => h z (.tail _ hz)).bind fun ys => ?_
    exact pure fun _ hx => hx

end Ensures

end Schemata
