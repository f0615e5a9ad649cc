/-
The operations of the cache, with what happened in them written down.

What a lookup returns depends on the files alone, but what it ought to return depends on the
past: on the schema that was stored last, and on what was done since. The operations are
therefore run a second time with a chronicle beside the files, the latest event first. The
chronicle is only written: `Operation.record_erases` says that the operations do to the files
what they do without it, and return the same.

Repositories are given by a family, so that an event can say which of them it is about.
-/
import Schemata.Cache
import Schemata.Proofs.State

namespace Schemata

/-- What happened in a cache that is used for a family of repositories. -/
inductive Event (ι : Type) where
  /-- An operation on a repository began, with the files as they were then. -/
  | used (i : ι) (disk : Disk)
  /-- A stored schema was looked for, in an operation that began with these files. -/
  | looked (i : ι) (table : String) (disk : Disk) (found : Option Schema)
  /-- A schema was stored with a digest. -/
  | stored (i : ι) (table : String) (schema : Schema) (digest : String)
  /-- The stored schemas of a repository were to be removed. -/
  | cleared (i : ι)
  /-- The whole cache was to be removed. -/
  | clearedAll
  /-- A file could not be written. -/
  | refused

theorem Event.any_refused {ι : Type} {events : List (Event ι)} :
    (events.any fun e => e matches .refused) = true ↔ .refused ∈ events := by
  rw [List.any_eq_true]
  constructor
  · rintro ⟨e, he, written⟩
    cases e <;> first | exact he | cases written
  · exact fun h => ⟨_, h, rfl⟩

instance {ι : Type} {events : List (Event ι)} : Decidable (.refused ∈ events) :=
  decidable_of_iff _ Event.any_refused

/-- The files, and what happened, the latest first. -/
structure Chronicle (ι : Type) where
  store : Store
  events : List (Event ι)

/-- An operation on files that writes down what happens. -/
abbrev Noting (ι : Type) := ExceptT Fault (StateM (Chronicle ι))

namespace Noting

open Caching

variable {ι α β : Type}

/-- Does something of which nothing is written down. -/
def silently (m : Caching α) : Noting ι α := fun c =>
  ((m c.store).1, { c with store := (m c.store).2 })

/-- Writes an event down. -/
def note (e : Event ι) : Noting ι Unit := fun c =>
  (.ok (), { c with events := e :: c.events })

/-- Notes that an operation on a repository begins, and keeps the files as they are then. -/
def begin (i : ι) : Noting ι Disk := fun c =>
  (.ok c.store.disk, { c with events := .used i c.store.disk :: c.events })

/-- What a write is in a chronicle: what it was meant to be, unless it was refused. -/
def outcome (events : List (Event ι)) : Except Fault Unit → List (Event ι)
  | .ok _ => events
  | .error _ => [.refused]

/-- Writes a text to a file, with the events that this is if it is not refused. -/
def writeText (p : Path) (text : String) (events : List (Event ι)) : Noting ι Unit := fun c =>
  ((Caching.writeText p text c.store).1,
    { store := (Caching.writeText p text c.store).2
      events := outcome events (c.store.disk.write p text.toUTF8).1 ++ c.events })

/-! ## The operations -/

variable (s : Settings) (repo : ι → Repository)

/-- The digest of the migrations, after a sweep if the marker does not have it. -/
def currentDigest (i : ι) : Noting ι String := do
  let digest ← silently (ask (s.migrationsDigest (repo i)))
  let stored ← silently (ask (s.storedDigest (repo i)))
  if stored != some digest then
    silently (Cache.clearRepository s (repo i))
    writeText (← silently (ask (s.markerPath (repo i)))) digest []
  pure digest

/-- The stored schema of a table that holds for a digest. -/
def lookupAt (i : ι) (table : String) (disk : Disk) (digest : String) :
    Noting ι (Option Schema) := do
  let found ← silently (Cache.lookupAt s (repo i) (.text table) digest)
  note (.looked i table disk found)
  pure found

/-- The digest under which an operation works; none if the cache is not in use. -/
def workingDigest (i : ι) : Noting ι (Option String) :=
  if Cache.isEnabled s then some <$> currentDigest s repo i else pure none

/-- The stored schema of a table, if there is one that holds now. -/
def lookup (i : ι) (table : String) : Noting ι (Option Schema) := do
  let disk ← begin i
  if Cache.isEnabled s then lookupAt s repo i table disk (← currentDigest s repo i)
  else pure none

/-- Stores a schema with a digest. -/
def storeWith (i : ι) (table : String) (schema : Schema) (digest : String) :
    Noting ι Unit := do
  let p ← silently (ask (s.entryPath (repo i) (.text table)))
  let text ← silently (ask fun _ => StoredSchema.entryText ⟨schema, digest⟩)
  writeText p text [.stored i table schema digest]
  writeText (← silently (ask (s.markerPath (repo i)))) digest []

/-- The given digest, or that of the migrations as they are now if none is given. -/
def digestOr (i : ι) (digest : Option String) : Noting ι String :=
  match digest.filter (· != "") with
  | some d => pure d
  | none => silently (ask (s.migrationsDigest (repo i)))

/-- Stores a schema for a digest, or for the migrations as they are now if none is given. -/
def store (i : ι) (table : String) (schema : Schema) (digest : Option String) :
    Noting ι Unit := do
  if Cache.isEnabled s then
    storeWith s repo i table schema (← digestOr s repo i digest)

/-- Stores a schema for the migrations as they are now. -/
def put (i : ι) (table : String) (schema : Schema) : Noting ι Unit := do
  let _ ← begin i
  store s repo i table schema none

/-- The stored schema of a table that holds for a digest, else an inferred one that is
stored. -/
def obtainAt (i : ι) (table : String) (introspector : Option Introspector) (disk : Disk)
    (digest : Option String) : Noting ι Schema := do
  let found ← match digest with
    | some d => lookupAt s repo i table disk d
    | none => pure none
  match found with
  | some schema => pure schema
  | none =>
    let schema ← silently (Cache.infer s (repo i) (.text table) introspector)
    store s repo i table schema digest
    pure schema

/-- The schema of a table, inferred and stored if it is not stored yet. -/
def obtain (i : ι) (table : String) (introspector : Option Introspector) :
    Noting ι Schema := do
  let disk ← begin i
  obtainAt s repo i table introspector disk (← workingDigest s repo i)

/-- The schemas of tables, each inferred and stored if it is not stored yet. -/
def warmUp (i : ι) (tables : List String) (introspector : Option Introspector) :
    Noting ι (List Schema) := do
  let disk ← begin i
  let digest ← workingDigest s repo i
  tables.mapM fun table => obtainAt s repo i table introspector disk digest

/-- Removes every stored schema of a repository. -/
def clear (i : ι) : Noting ι Unit := do
  note (.cleared i)
  silently (Cache.clearRepository s (repo i))

/-- Removes the whole cache with its markers. -/
def clearAll : Noting ι Unit := do
  note .clearedAll
  silently (Cache.clearAll s)

/-- Forgets the stored schemas of a repository and infers those of the given tables again. -/
def refresh (i : ι) (tables : Option (List String)) (introspector : Option Introspector) :
    Noting ι (List Schema) := do
  clear s repo i
  match tables, introspector with
  | none, _ => pure []
  | some _, none => throw .noIntrospector
  | some ts, some introspector => warmUp s repo i ts (some introspector)

end Noting

/-! ## Operations as data -/

/-- An operation on the cache of a family of repositories. -/
inductive Operation (ι : Type) where
  | lookup (i : ι) (table : String)
  | put (i : ι) (table : String) (schema : Schema)
  | obtain (i : ι) (table : String) (introspector : Option Introspector)
  | warmUp (i : ι) (tables : List String) (introspector : Option Introspector)
  | refresh (i : ι) (tables : Option (List String)) (introspector : Option Introspector)
  | clear (i : ι)
  | clearAll

namespace Operation

variable {ι : Type} (s : Settings) (repo : ι → Repository)

/-- The operation on the files. -/
def run : Operation ι → Caching Unit
  | lookup i t => (fun _ => ()) <$> Cache.lookup s (repo i) (.text t)
  | put i t schema => Cache.store s (repo i) (.text t) schema none
  | obtain i t introspector =>
    (fun _ => ()) <$> Cache.obtain s (repo i) (.text t) introspector
  | warmUp i ts introspector =>
    (fun _ => ()) <$> Cache.warmUp s (repo i) (ts.map .text) introspector
  | refresh i ts introspector =>
    (fun _ => ()) <$> Cache.refresh s (repo i) (ts.map (·.map .text)) introspector
  | clear i => Cache.clearRepository s (repo i)
  | clearAll => Cache.clearAll s

/-- The operation with a chronicle. -/
def record : Operation ι → Noting ι Unit
  | lookup i t => (fun _ => ()) <$> Noting.lookup s repo i t
  | put i t schema => Noting.put s repo i t schema
  | obtain i t introspector => (fun _ => ()) <$> Noting.obtain s repo i t introspector
  | warmUp i ts introspector => (fun _ => ()) <$> Noting.warmUp s repo i ts introspector
  | refresh i ts introspector => (fun _ => ()) <$> Noting.refresh s repo i ts introspector
  | clear i => Noting.clear s repo i
  | clearAll => Noting.clearAll s

end Operation

/-! ## The chronicle changes nothing -/

namespace Noting

open Caching

variable {ι α β : Type}

/-- An operation with a chronicle does to the files what one without does, and returns the
same. -/
def Erases (m : Noting ι α) (k : Caching α) : Prop :=
  ∀ c, (m c).1 = (k c.store).1 ∧ (m c).2.store = (k c.store).2

namespace Erases

theorem silently (k : Caching α) : Erases (silently k : Noting ι α) k :=
  fun _ => ⟨rfl, rfl⟩

theorem pure (a : α) : Erases (pure a : Noting ι α) (pure a) :=
  fun _ => ⟨rfl, rfl⟩

theorem throw (e : Fault) : Erases (throw e : Noting ι α) (throw e) :=
  fun _ => ⟨rfl, rfl⟩

theorem bind {m : Noting ι α} {k : Caching α} {f : α → Noting ι β} {g : α → Caching β}
    (first : Erases m k) (rest : ∀ a, Erases (f a) (g a)) : Erases (m >>= f) (k >>= g) := by
  intro c
  obtain ⟨result, store⟩ := first c
  rw [run_bind, run_bind]
  match hm : m c, hk : k c.store with
  | (r, c'), (r', σ) =>
    rw [hm, hk] at result store
    obtain rfl : r = r' := result
    obtain rfl : c'.store = σ := store
    cases r with
    | error e => exact ⟨rfl, rfl⟩
    | ok a => exact rest a c'

theorem note (e : Event ι) {f : Unit → Noting ι α} {k : Caching α} (h : Erases (f ()) k) :
    Erases (note e >>= f) k := by
  intro c
  rw [run_bind]
  exact h _

theorem begin (i : ι) {f : Disk → Noting ι α} {k : Caching α} (h : ∀ d, Erases (f d) k) :
    Erases (begin i >>= f) k := by
  intro c
  rw [run_bind]
  exact h _ _

theorem map {m : Noting ι α} {k : Caching α} (g : α → β) (h : Erases m k) :
    Erases (g <$> m) (g <$> k) :=
  bind h fun a => pure (g a)

theorem ite {p : Prop} [Decidable p] {m n : Noting ι α} {k l : Caching α} (h : Erases m k)
    (g : Erases n l) : Erases (if p then m else n) (if p then k else l) := by
  split
  · exact h
  · exact g

theorem mapM {γ : Type} {f : α → Noting ι β} {g : γ → Caching β} {xs : List α} (e : α → γ)
    (h : ∀ x, Erases (f x) (g (e x))) : Erases (xs.mapM f) ((xs.map e).mapM g) := by
  induction xs with
  | nil => exact pure []
  | cons x xs ih =>
    rw [List.map_cons, List.mapM_cons, List.mapM_cons]
    refine bind (h x) fun y => bind ih fun ys => ?_
    exact pure (y :: ys)

theorem writeText (p : Path) (text : String) (events : List (Event ι)) :
    Erases (writeText p text events) (Caching.writeText p text) :=
  fun _ => ⟨rfl, rfl⟩

variable (s : Settings) (repo : ι → Repository)

theorem currentDigest (i : ι) :
    Erases (currentDigest s repo i) (Cache.currentDigest s (repo i)) := by
  unfold Noting.currentDigest Cache.currentDigest
  refine bind (silently _) fun digest => bind (silently _) fun stored => ?_
  refine ite ?_ (pure digest)
  refine bind (silently _) fun _ => bind (silently _) fun marker => ?_
  exact bind (writeText _ _ _) fun _ => pure digest

theorem workingDigest (i : ι) :
    Erases (workingDigest s repo i) (Cache.workingDigest s (repo i)) :=
  ite (map some (currentDigest s repo i)) (pure none)

theorem lookupAt (i : ι) (table : String) (disk : Disk) (digest : String) :
    Erases (lookupAt s repo i table disk digest)
      (Cache.lookupAt s (repo i) (.text table) digest) := by
  intro c
  unfold Noting.lookupAt
  rw [run_bind]
  obtain ⟨result, store⟩ := silently (Cache.lookupAt s (repo i) (.text table) digest) c
  match h : Noting.silently (Cache.lookupAt s (repo i) (.text table) digest) c with
  | (.error e, c') =>
    rw [h] at result store
    exact ⟨result, store⟩
  | (.ok found, c') =>
    rw [h] at result store
    exact ⟨result, store⟩

theorem lookup (i : ι) (table : String) :
    Erases (lookup s repo i table) (Cache.lookup s (repo i) (.text table)) := by
  refine begin i fun disk => ite ?_ (pure none)
  exact bind (currentDigest s repo i) fun digest => lookupAt s repo i table disk digest

theorem store (i : ι) (table : String) (schema : Schema) (digest : Option String) :
    Erases (store s repo i table schema digest)
      (Cache.store s (repo i) (.text table) schema digest) := by
  refine ite ?_ (pure ())
  have rest (d : String) : Erases (storeWith s repo i table schema d) (do
      let p ← ask (s.entryPath (repo i) (.text table))
      let text ← ask fun _ => StoredSchema.entryText ⟨schema, d⟩
      Caching.writeText p text
      Caching.writeText (← ask (s.markerPath (repo i))) d) := by
    refine bind (silently _) fun p => bind (silently _) fun text => ?_
    refine bind (writeText _ _ _) fun _ => bind (silently _) fun marker => ?_
    exact writeText _ _ _
  unfold digestOr
  cases digest.filter (· != "") with
  | some d => exact bind (pure d) rest
  | none => exact bind (silently _) rest

theorem put (i : ι) (table : String) (schema : Schema) :
    Erases (put s repo i table schema) (Cache.store s (repo i) (.text table) schema none) :=
  begin i fun _ => store s repo i table schema none

theorem obtainAt (i : ι) (table : String) (introspector : Option Introspector) (disk : Disk)
    (digest : Option String) :
    Erases (obtainAt s repo i table introspector disk digest)
      (Cache.obtainAt s (repo i) (.text table) introspector digest) := by
  have rest (found : Option Schema) : Erases (ι := ι)
      (match found with
      | some schema => Pure.pure schema
      | none => do
        let schema ← Noting.silently (Cache.infer s (repo i) (.text table) introspector)
        Noting.store s repo i table schema digest
        Pure.pure schema)
      (match found with
      | some schema => Pure.pure schema
      | none => do
        let schema ← Cache.infer s (repo i) (.text table) introspector
        Cache.store s (repo i) (.text table) schema digest
        Pure.pure schema) := by
    cases found with
    | some schema => exact pure schema
    | none =>
      refine bind (silently _) fun schema => ?_
      exact bind (store s repo i table schema digest) fun _ => pure schema
  unfold Noting.obtainAt Cache.obtainAt
  cases digest with
  | some d => exact bind (lookupAt s repo i table disk d) rest
  | none => exact bind (pure none) rest

theorem obtain (i : ι) (table : String) (introspector : Option Introspector) :
    Erases (obtain s repo i table introspector)
      (Cache.obtain s (repo i) (.text table) introspector) := by
  refine begin i fun disk => ?_
  exact bind (workingDigest s repo i) fun digest =>
    obtainAt s repo i table introspector disk digest

theorem warmUp (i : ι) (tables : List String) (introspector : Option Introspector) :
    Erases (warmUp s repo i tables introspector)
      (Cache.warmUp s (repo i) (tables.map .text) introspector) := by
  refine begin i fun disk => ?_
  refine bind (workingDigest s repo i) fun digest => ?_
  exact mapM Value.text fun table => obtainAt s repo i table introspector disk digest

theorem clear (i : ι) : Erases (clear s repo i) (Cache.clearRepository s (repo i)) :=
  note _ (silently _)

theorem clearAll : Erases (clearAll s : Noting ι Unit) (Cache.clearAll s) :=
  note _ (silently _)

theorem refresh (i : ι) (tables : Option (List String)) (introspector : Option Introspector) :
    Erases (refresh s repo i tables introspector)
      (Cache.refresh s (repo i) (tables.map (·.map .text)) introspector) := by
  refine bind (clear s repo i) fun _ => ?_
  match tables, introspector with
  | none, _ => exact pure []
  | some _, none => exact throw .noIntrospector
  | some ts, some introspector => exact warmUp s repo i ts (some introspector)

end Erases

end Noting

/-- The chronicle is only written: with it an operation does to the files what it does
without, and fails where it fails without. -/
theorem Operation.record_erases {ι : Type} (s : Settings) (repo : ι → Repository)
    (op : Operation ι) : Noting.Erases (op.record s repo) (op.run s repo) := by
  cases op with
  | lookup i t => exact .map _ (.lookup s repo i t)
  | put i t schema => exact .put s repo i t schema
  | obtain i t introspector => exact .map _ (.obtain s repo i t introspector)
  | warmUp i ts introspector => exact .map _ (.warmUp s repo i ts introspector)
  | refresh i ts introspector => exact .map _ (.refresh s repo i ts introspector)
  | clear i => exact .clear s repo i
  | clearAll => exact .clearAll s

end Schemata
