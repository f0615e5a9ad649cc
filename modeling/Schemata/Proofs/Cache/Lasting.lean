/-
What operations of the cache leave as it is.

An operation on a repository does few things to the files: it removes the directory of the
repository, it writes the marker, and for a table it writes the entry or removes it. A
property of the files that these leave as it is holds after the operation if it held before,
whether the operation ends well or fails (`Family.Keeps`). Each rule asks only for what its
operation does, so that a look-up keeps more than an operation that stores.
-/
import Schemata.Proofs.Cache.Failures

namespace Schemata

/-- The digest that is asked for is that of the migrations as they were. -/
theorem Cache.digest_of_currentDigest {s : Settings} {repo : Repository} {D : String}
    {σ σ' : Store} (h : Cache.currentDigest s repo σ = (.ok D, σ')) :
    s.migrationsDigest repo σ.disk = .ok D := by
  have answers : Ensures (fun τ => τ = σ) (Cache.currentDigest s repo)
      (fun E _ => s.migrationsDigest repo σ.disk = .ok E) fun _ => True := by
    refine Ensures.bind
      (Q := fun E _ => s.migrationsDigest repo σ.disk = .ok E) ?_ fun E => ?_
    · intro τ same
      rw [Caching.run_ask, same]
      cases s.migrationsDigest repo σ.disk with
      | ok E => exact rfl
      | error e => trivial
    · -- Whatever is done to the files, the answer is the one that was given first.
      have given {α : Type} (m : Caching α) :
          Ensures (fun _ => s.migrationsDigest repo σ.disk = .ok E) m
            (fun _ _ => s.migrationsDigest repo σ.disk = .ok E) fun _ => True :=
        (Ensures.of_state fun _ h => h).weaken (fun _ h => h) (fun _ _ h => h) fun _ _ =>
          trivial
      refine (given _).bind fun stored => ?_
      split
      · refine (given _).bind fun _ => (given _).bind fun _ => (given _).bind fun _ => ?_
        exact Ensures.pure fun _ h => h
      · exact Ensures.pure fun _ h => h
  have answer := answers σ rfl
  rwa [h] at answer

namespace Family

variable {ι : Type} {s : Settings} {home : Location}

/-- An operation keeps a property of the files: it holds after the operation, also after one
that fails, if it held before. -/
def Keeps (_ : Family ι s home) {α : Type} (P : Disk → Prop) (m : Caching α) : Prop :=
  Ensures (fun σ => σ.disk.home = home ∧
    P σ.disk) m (fun _ σ => σ.disk.home = home ∧ P σ.disk)
    fun σ => σ.disk.home = home ∧ P σ.disk

namespace Keeps

open Caching

variable {F : Family ι s home} {α β : Type} {P : Disk → Prop}

/-! ## Rules -/

theorem pure (a : α) : F.Keeps P (pure a) :=
  Ensures.pure fun _ h => h

theorem throw (e : Fault) : F.Keeps P (throw e : Caching α) :=
  Ensures.throw fun _ h => h

theorem bind {m : Caching α} {f : α → Caching β} (first : F.Keeps P m)
    (rest : ∀ a, F.Keeps P (f a)) : F.Keeps P (m >>= f) :=
  Ensures.bind first rest

theorem map {m : Caching α} (g : α → β) (h : F.Keeps P m) : F.Keeps P (g <$> m) :=
  h.bind fun a => pure (g a)

theorem mapM {f : α → Caching β} {xs : List α} (h : ∀ x ∈ xs, F.Keeps P (f x)) :
    F.Keeps P (xs.mapM f) :=
  Ensures.mapM h

theorem ite {p : Prop} [Decidable p] {m n : Caching α} (h : F.Keeps P m) (g : F.Keeps P n) :
    F.Keeps P (if p then m else n) := by
  split
  · exact h
  · exact g

theorem of_run {m : Caching α}
    (h : ∀ σ, σ.disk.home = home → P σ.disk → (m σ).2.disk.home = home ∧ P (m σ).2.disk) :
    F.Keeps P m :=
  Ensures.of_state fun σ before => h σ before.1 before.2

theorem run {m : Caching α} (h : F.Keeps P m) {σ : Store} (here : σ.disk.home = home)
    (before : P σ.disk) : (m σ).2.disk.home = home ∧ P (m σ).2.disk :=
  Ensures.state h ⟨here, before⟩

theorem ask (f : Disk → Except Fault α) : F.Keeps P (Caching.ask f) :=
  of_run fun σ here before => by rw [run_ask]; exact ⟨here, before⟩

/-- A question with one answer. -/
theorem ask_bind {f : Disk → Except Fault α} {a : α} {g : α → Caching β}
    (h : ∀ d, d.home = home → f d = .ok a) (rest : F.Keeps P (g a)) :
    F.Keeps P (Caching.ask f >>= g) := by
  refine of_run fun σ here before => ?_
  rw [run_bind, run_ask, h _ here]
  exact rest.run here before

theorem writeText {p : Path} {n text : String}
    (kept : ∀ d, d.home = home → P d → P (d.write (p.child n) text.toUTF8).2) :
    F.Keeps P (Caching.writeText (p.child n) text) := by
  refine of_run fun σ here before => ?_
  rw [Caching.writeText, run_attempt]
  exact ⟨(σ.disk.home_write p n text.toUTF8).trans here, kept _ here before⟩

/-- A removal is done only where there is a file. -/
theorem remove {p : Path}
    (erased : ∀ d b, d.home = home → P d → d.HasFile (F.place p) b →
      P (d.erase (F.place p))) :
    F.Keeps P (attempt fun d => d.remove p) := by
  refine of_run fun σ here before => ?_
  rw [run_attempt, Disk.remove]
  split
  · exact ⟨here, before⟩
  · rename_i l located
    obtain ⟨-, rfl⟩ := Disk.locate_eq_ok located
    rw [F.place_eq here]
    split
    · rename_i b file
      exact ⟨here, erased _ b here before file⟩
    · exact ⟨here, before⟩
    · exact ⟨here, before⟩

theorem infer (repo : Repository) (table : Value) (introspector : Option Introspector) :
    F.Keeps P (Cache.infer s repo table introspector) :=
  of_run fun σ here before => by
    rw [(infer_cases s repo table introspector σ).1]
    exact ⟨here, before⟩

/-! ## Operations -/

section

variable {i : ι} {t : String}

theorem writeMarker {D : String}
    (marked : ∀ d, d.home = home → P d → P (d.write (F.marker i) D.toUTF8).2) :
    F.Keeps P (Caching.writeText (F.marker i) D) := by
  obtain ⟨p, n, path, -⟩ := F.exists_marker i
  rw [path] at marked ⊢
  exact writeText marked

theorem writeFile {text : String}
    (wrote : ∀ d, d.home = home → P d → P (d.write (F.file i t) text.toUTF8).2) :
    F.Keeps P (Caching.writeText (F.file i t) text) := by
  obtain ⟨p, n, path, -⟩ := F.exists_file i t
  rw [path] at wrote ⊢
  exact writeText wrote

variable (cleared : ∀ d, d.home = home → P d → P (d.eraseTree (F.place (F.directory i))))
  (marked : ∀ (D : String) d, d.home = home → P d → P (d.write (F.marker i) D.toUTF8).2)
  (erased : ∀ d b, d.home = home → P d → d.HasFile (F.place (F.file i t)) b →
    P (d.erase (F.place (F.file i t))))

include cleared in
theorem clearRepository : F.Keeps P (Cache.clearRepository s (F.repo i)) := by
  refine of_run fun σ here before => ?_
  rw [run_clear F i here]
  rcases removeDirectory_cases (F.directory i) σ with same | ⟨-, -, gone⟩
  · rw [same]
    exact ⟨here, before⟩
  · rw [gone, F.place_eq here]
    exact ⟨here, cleared _ here before⟩

include cleared marked in
theorem currentDigest : F.Keeps P (Cache.currentDigest s (F.repo i)) := by
  refine bind (ask _) fun digest => bind (ask _) fun stored => ite ?_ (pure digest)
  refine bind (clearRepository cleared) fun _ => ?_
  refine ask_bind (fun _ => F.marker_eq i) ?_
  exact bind (writeMarker (marked digest)) fun _ => pure digest

include cleared marked in
theorem workingDigest : F.Keeps P (Cache.workingDigest s (F.repo i)) :=
  ite (map some (currentDigest cleared marked)) (pure none)

include erased in
theorem lookupAt (D : String) : F.Keeps P (Cache.lookupAt s (F.repo i) (.text t) D) := by
  refine ask_bind (fun _ here => F.file_eq i here t) ?_
  refine bind (of_run fun _ here before => ⟨here, before⟩) fun σ => ?_
  cases Cache.reading (F.file i t) D σ.disk with
  | unreadable => exact pure none
  | tooDeep => exact throw _
  | fresh schema => exact pure _
  | stale => exact bind (remove erased) fun _ => pure none

include cleared marked erased in
theorem lookup : F.Keeps P (Cache.lookup s (F.repo i) (.text t)) :=
  ite (bind (currentDigest cleared marked) fun D => lookupAt erased D) (pure none)

include cleared marked erased in
theorem lookupOrEmpty : F.Keeps P (Cache.lookupOrEmpty s (F.repo i) (.text t)) := by
  refine bind (lookup cleared marked erased) fun found => ?_
  split
  · exact pure _
  · split
    · exact pure _
    · exact throw _

end

section

-- A digest that is given, and not blank, is the one that is written.
variable {i : ι} {t : String} {digest : Option String}
  (erased : ∀ d b, d.home = home → P d → d.HasFile (F.place (F.file i t)) b →
    P (d.erase (F.place (F.file i t))))
  (wrote : ∀ (text : String) d, d.home = home → P d → P (d.write (F.file i t) text.toUTF8).2)
  (marked : ∀ E, (∀ D ∈ digest.filter (· != ""), E = D) →
    ∀ d, d.home = home → P d → P (d.write (F.marker i) E.toUTF8).2)

include wrote marked

theorem store (schema : Schema) :
    F.Keeps P (Cache.store s (F.repo i) (.text t) schema digest) := by
  have written (E : String) (same : ∀ D ∈ digest.filter (· != ""), E = D) : F.Keeps P (do
      let p ← Caching.ask (s.entryPath (F.repo i) (.text t))
      let text ← Caching.ask fun _ => StoredSchema.entryText ⟨schema, E⟩
      Caching.writeText p text
      Caching.writeText (← Caching.ask (s.markerPath (F.repo i))) E) := by
    refine ask_bind (fun _ here => F.file_eq i here t) ?_
    refine bind (ask _) fun text => bind (writeFile (wrote text)) fun _ => ?_
    exact ask_bind (fun _ => F.marker_eq i) (writeMarker (marked E same))
  refine ite ?_ (pure ())
  cases given : digest.filter (· != "") with
  | some D => exact written D (by simp [given])
  | none => exact bind (ask _) fun E => written E (by simp [given])

include erased

theorem obtainAt (introspector : Option Introspector) :
    F.Keeps P (Cache.obtainAt s (F.repo i) (.text t) introspector digest) := by
  have inferred : F.Keeps P (do
      let schema ← Cache.infer s (F.repo i) (.text t) introspector
      Cache.store s (F.repo i) (.text t) schema digest
      Pure.pure schema) := by
    refine bind (infer _ _ introspector) fun schema => ?_
    exact bind (store wrote marked schema) fun _ => pure schema
  unfold Cache.obtainAt
  cases digest with
  | none => exact inferred
  | some D =>
    refine bind (lookupAt erased D) fun found => ?_
    cases found with
    | some schema => exact pure schema
    | none => exact inferred

end

section

variable {i : ι}
  (cleared : ∀ d, d.home = home → P d → P (d.eraseTree (F.place (F.directory i))))
  (marked : ∀ (D : String) d, d.home = home → P d → P (d.write (F.marker i) D.toUTF8).2)

include cleared marked

theorem obtain {t : String}
    (erased : ∀ d b, d.home = home → P d → d.HasFile (F.place (F.file i t)) b →
      P (d.erase (F.place (F.file i t))))
    (wrote : ∀ (text : String) d, d.home = home → P d →
      P (d.write (F.file i t) text.toUTF8).2)
    (introspector : Option Introspector) :
    F.Keeps P (Cache.obtain s (F.repo i) (.text t) introspector) :=
  bind (workingDigest cleared marked) fun _ =>
    obtainAt erased wrote (fun E _ => marked E) introspector

variable {ts : List String}
  (erased : ∀ t ∈ ts, ∀ d b, d.home = home → P d → d.HasFile (F.place (F.file i t)) b →
    P (d.erase (F.place (F.file i t))))
  (wrote : ∀ t ∈ ts, ∀ (text : String) d, d.home = home → P d →
    P (d.write (F.file i t) text.toUTF8).2)

include erased wrote

theorem warmUp (introspector : Option Introspector) :
    F.Keeps P (Cache.warmUp s (F.repo i) (ts.map .text) introspector) := by
  refine bind (workingDigest cleared marked) fun digest => mapM fun table named => ?_
  obtain ⟨t, ht, rfl⟩ := List.mem_map.1 named
  exact obtainAt (erased t ht) (wrote t ht) (fun E _ => marked E) introspector

theorem refresh (introspector : Option Introspector) :
    F.Keeps P (Cache.refresh s (F.repo i) (some (ts.map .text)) introspector) := by
  refine bind (clearRepository cleared) fun _ => ?_
  cases introspector with
  | none => exact throw .noIntrospector
  | some introspector => exact warmUp cleared marked erased wrote (some introspector)

end

end Keeps

end Family

end Schemata
