/-
Runs of a cache.

A run begins with a cache that holds no stored schema. Operations follow each other in any
order, and between them anything may happen to the files outside of the cache, above all to
the migrations. What holds at the beginning, and is kept by every step and by every such
change, holds after every run (`Reached.keeps`).
-/
import Schemata.Proofs.Cache.Entries
import Schemata.Proofs.Cache.Operations

namespace Schemata

variable {ι : Type} {s : Settings} {home : Location} (F : Family ι s home)

namespace Family

/-- A place belongs to the cache: it is in the cache, or in the directory of a repository. -/
def Owns (l : Location) : Prop :=
  F.place F.root <+: l ∨ ∃ i, F.place (F.directory i) <+: l

/-- Files were changed outside of the cache. -/
structure Outside (d e : Disk) : Prop where
  home_eq : e.home = d.home
  same : ∀ l, F.Owns l → e.entry? l = d.entry? l

/-- The cache holds no stored schema. -/
def IsEmpty (d : Disk) : Prop :=
  ∀ i t b, IsTable t → ¬ d.HasFile (F.entryPlace i t) b

/-- Without any files there are none in the cache. -/
theorem isEmpty_nil : F.IsEmpty ⟨home, []⟩ := by
  intro i t b _ file
  have nothing : Disk.entry? ⟨home, []⟩ (F.entryPlace i t) = none := by
    rw [entryPlace]
    cases F.place (F.directory i) <;> rfl
  rw [Disk.HasFile, nothing] at file
  cases file

end Family

/-- What a cache can come to in a run. -/
inductive Reached : Chronicle ι → Prop where
  | start {σ : Store} (here : σ.disk.home = home) (empty : F.IsEmpty σ.disk) : Reached ⟨σ, []⟩
  | operation {c : Chronicle ι} (op : Operation ι) (valid : op.IsValid) (before : Reached c) :
    Reached (op.record s F.repo c).2
  | outside {c : Chronicle ι} {e : Disk} (change : F.Outside c.store.disk e)
    (before : Reached c) : Reached { c with store := { c.store with disk := e } }

variable {F}

namespace Reached

/-- An invariant of the steps and of the changes outside of the cache holds after every
run. -/
theorem keeps [DecidableEq ι] {P : Scene ι → Prop} {c : Chronicle ι} (run : Reached F c)
    (first : ∀ d : Disk, d.home = home → F.IsEmpty d → P ⟨d, []⟩)
    (step : ∀ {k x y}, Step F k x y → x.disk.home = home → P x → P y)
    (outside : ∀ {d e es}, F.Outside d e → P ⟨d, es⟩ → P ⟨e, es⟩) :
    c.store.disk.home = home ∧ P c.scene := by
  induction run with
  | start here empty => exact ⟨here, first _ here empty⟩
  | operation op valid _ ih =>
    have steps := op.record_steps F valid ih.1
    exact steps.keeps (P := fun x => x.disk.home = home ∧ P x)
      (fun h hx => ⟨h.home_eq.trans hx.1, step h hx.1 hx.2⟩) ih
  | outside change _ ih => exact ⟨change.home_eq.trans ih.1, outside change ih.2⟩

/-- After every run the entries hold what was stored last, and what was found on the way was
that. -/
theorem backed [DecidableEq ι] {c : Chronicle ι} (run : Reached F c) (sep : F.Separate) :
    c.store.disk.home = home ∧ F.EntriesHold c.scene ∧ EveryLook F.Backed c.events := by
  refine run.keeps (P := fun x => F.EntriesHold x ∧ EveryLook F.Backed x.events) ?_ ?_ ?_
  · intro d _ empty
    exact ⟨fun i t b ht hf => absurd hf (empty i t b ht), everyLook_nil _⟩
  · intro k x y step here h
    exact ⟨Family.entriesHold_step sep step here h.1, Family.backed_step step here h.1 h.2⟩
  · intro d e es change h
    refine ⟨h.1.of_files fun i t b hf => ?_, h.2⟩
    have own : F.Owns (F.entryPlace i t) := .inr ⟨i, List.prefix_append _ _⟩
    rw [Disk.HasFile, change.same _ own] at hf
    exact hf

end Reached

end Schemata
