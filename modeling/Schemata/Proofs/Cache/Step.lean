/-
What an operation of the cache can do, one step at a time.

Every operation is a sequence of a few kinds of steps: it begins, it is written down as a
clearing, a directory is removed, a marker is written, a schema is stored, a schema is looked
for. `Step` says of each kind all that can be said of it, and also why it was taken: a
directory is removed only because that was asked for or because the marker does not have the
digest under which the operation works. What holds of a cache is shown once for each kind of
step, and then holds after every operation (`Steps.keeps`).
-/
import Schemata.Proofs.Cache.Chronicle
import Schemata.Proofs.Cache.Layout
import Schemata.Proofs.Schema.Stored
import Mathlib.Logic.Relation

namespace Schemata

/-! ## What is read -/

/-- What is read as a stored schema, fresh or stale, is in a file. -/
theorem Cache.readBytes_of_reading {d : Disk} {p : Path} {D : String}
    (h : Cache.reading p D d ≠ .unreadable) : ∃ b, d.readBytes p = .ok b := by
  unfold Cache.reading at h
  split at h
  · rename_i text read
    obtain ⟨b, read, -⟩ := bind_eq_ok.1 read
    exact ⟨b, read⟩
  · exact absurd rfl h

theorem Family.exists_hasFile_of_reading {ι : Type} {s : Settings} {home : Location}
    (F : Family ι s home) (i : ι) {d : Disk} (here : d.home = home) {t D : String}
    (ht : IsTable t)
    (h : Cache.reading (F.entry i t) D d ≠ .unreadable) :
    ∃ b, d.readBytes (F.entry i t) = .ok b ∧ d.HasFile (F.entryPlace i t) b := by
  obtain ⟨b, read⟩ := Cache.readBytes_of_reading h
  rw [← F.place_entry i here ht]
  exact ⟨b, read, (Disk.hasFile_of_readBytes read).2⟩

/-! ## What is remembered -/

section Memory

variable {ι : Type} [DecidableEq ι]

/-- The schema and the digest that an event stored for a table. -/
def Event.stores (i : ι) (t : String) : Event ι → Option (Schema × String)
  | .stored j u schema digest => if j = i ∧ u = t then some (schema, digest) else none
  | _ => none

/-- The files as they were when an event began an operation on a repository. -/
def Event.uses (i : ι) : Event ι → Option Disk
  | .used j disk => if j = i then some disk else none
  | _ => none

/-- What was stored last for a table. -/
def lastStored (es : List (Event ι)) (i : ι) (t : String) : Option (Schema × String) :=
  es.findSome? (Event.stores i t)

/-- What happened since something was stored for a table. -/
def sinceStored (es : List (Event ι)) (i : ι) (t : String) : List (Event ι) :=
  es.takeWhile fun e => (e.stores i t).isNone

/-- The files as they were when the last operation on a repository began. -/
def lastUse (es : List (Event ι)) (i : ι) : Option Disk :=
  es.findSome? (Event.uses i)

theorem lastStored_cons (e : Event ι) (es : List (Event ι)) (i : ι) (t : String) :
    lastStored (e :: es) i t = (e.stores i t).or (lastStored es i t) := by
  rw [lastStored, List.findSome?_cons]
  cases e.stores i t <;> rfl

theorem lastStored_of_other {e : Event ι} {es : List (Event ι)} {i : ι} {t : String}
    (other : e.stores i t = none) : lastStored (e :: es) i t = lastStored es i t := by
  rw [lastStored_cons, other]
  rfl

theorem sinceStored_cons (e : Event ι) (es : List (Event ι)) (i : ι) (t : String) :
    sinceStored (e :: es) i t =
      if (e.stores i t).isNone then e :: sinceStored es i t else [] := by
  rw [sinceStored, List.takeWhile_cons]
  rfl

theorem lastUse_cons (e : Event ι) (es : List (Event ι)) (i : ι) :
    lastUse (e :: es) i = (e.uses i).or (lastUse es i) := by
  rw [lastUse, List.findSome?_cons]
  cases e.uses i <;> rfl

end Memory

/-! ## Steps -/

/-- The files of a cache, and what happened in it, the latest first. -/
structure Scene (ι : Type) where
  disk : Disk
  events : List (Event ι)

/-- The files and the events of a chronicle. -/
def Chronicle.scene {ι : Type} (c : Chronicle ι) : Scene ι :=
  ⟨c.store.disk, c.events⟩

namespace Family

variable {ι : Type} [DecidableEq ι] {s : Settings} {home : Location} (F : Family ι s home)

/-- The last operation on a repository began when the migrations had a digest. -/
def Works (es : List (Event ι)) (i : ι) (D : String) : Prop :=
  ∃ disk, lastUse es i = some disk ∧ s.migrationsDigest (F.repo i) disk = .ok D

theorem unique_digest {es : List (Event ι)} {i : ι} {D E : String} (h : F.Works es i D)
    (g : F.Works es i E) : D = E := by
  obtain ⟨disk, use, digest⟩ := h
  obtain ⟨disk', use', digest'⟩ := g
  rw [use] at use'
  cases use'
  rw [digest] at digest'
  exact Except.ok.inj digest'

/-- A stored schema is looked for in an operation that works with a digest. The marker of the
repository can be reached then, unless a write was refused before. -/
structure Looks (x : Scene ι) (i : ι) (t : String) (disk : Disk) (D : String) : Prop where
  table : IsTable t
  use : lastUse x.events i = some disk
  digest : s.migrationsDigest (F.repo i) disk = .ok D
  reaches : .refused ∉ x.events → x.disk.Reaches (F.marker i)

/-- A schema is written with a digest to the entry of its table. -/
structure Writes (x : Scene ι) (i : ι) (t : String) (schema : Schema)
    (D : String) (e : Disk) :
    Prop where
  table : IsTable t
  works : F.Works x.events i D
  representable : schema.Representable
  written : ∃ text, StoredSchema.entryText ⟨schema, D⟩ = .ok text ∧
    x.disk.Written (F.directory i) (t ++ ".json") text.toUTF8 e

/-- A digest is written to the marker of a repository. -/
def Marks (d : Disk) (i : ι) (D : String) (e : Disk) : Prop :=
  ∀ p n, F.marker i = Path.child p n → d.Written p n D.toUTF8 e

end Family

open Family in
/-- One step of an operation on a repository, or on the whole cache. -/
inductive Step {ι : Type} [DecidableEq ι] {s : Settings} {home : Location}
    (F : Family ι s home) :
    Option ι → Scene ι → Scene ι → Prop where
  | used {i : ι} {d : Disk} {es : List (Event ι)} :
    Step F (some i) ⟨d, es⟩ ⟨d, .used i d :: es⟩
  | cleared {i : ι} {d : Disk} {es : List (Event ι)} :
    Step F (some i) ⟨d, es⟩ ⟨d, .cleared i :: es⟩
  | clearedAll {d : Disk} {es : List (Event ι)} : Step F none ⟨d, es⟩ ⟨d, .clearedAll :: es⟩
  /-- The directory of a repository is removed after a clearing, or in a sweep. -/
  | removed {i : ι} {d : Disk} {es : List (Event ι)}
    (why : es.head? = some (.cleared i) ∨
      ∃ D, F.Works es i D ∧ s.storedDigest (F.repo i) d ≠ .ok (some D))
    (reaches : d.Reaches (F.directory i))
    (there : d.HasDirectory (F.place (F.directory i))) :
    Step F (some i) ⟨d, es⟩ ⟨d.eraseTree (F.place (F.directory i)), es⟩
  | removedAll {d : Disk} {es : List (Event ι)} (why : es.head? = some .clearedAll) :
    Step F none ⟨d, es⟩ ⟨d.eraseTree (F.place F.root), es⟩
  | marked {i : ι} {d e : Disk} {es : List (Event ι)} {D : String} (works : F.Works es i D)
    (marks : F.Marks d i D e) : Step F (some i) ⟨d, es⟩ ⟨e, es⟩
  | refused {i : ι} {d e : Disk} {es : List (Event ι)} (grows : d.Grows e) :
    Step F (some i) ⟨d, es⟩ ⟨e, .refused :: es⟩
  /-- The entry of a table and the marker of its repository are written. -/
  | stored {i : ι} {t : String} {schema : Schema} {D : String} {x : Scene ι} {e f : Disk}
    (writes : F.Writes x i t schema D e) (marks : F.Marks e i D f) :
    Step F (some i) x ⟨f, .stored i t schema D :: x.events⟩
  /-- The entry of a table is written, and its marker is not. -/
  | halfStored {i : ι} {t : String} {schema : Schema} {D : String} {x : Scene ι} {e f : Disk}
    (writes : F.Writes x i t schema D e) (grows : e.Grows f) :
    Step F (some i) x ⟨f, .refused :: .stored i t schema D :: x.events⟩
  | found {i : ι} {t : String} {disk : Disk} {D : String} {x : Scene ι} {schema : Schema}
    (looks : F.Looks x i t disk D)
    (reads : Cache.reading (F.entry i t) D x.disk = .fresh schema) :
    Step F (some i) x ⟨x.disk, .looked i t disk (some schema) :: x.events⟩
  | missed {i : ι} {t : String} {disk : Disk} {D : String} {x : Scene ι}
    (looks : F.Looks x i t disk D)
    (reads : Cache.reading (F.entry i t) D x.disk = .unreadable) :
    Step F (some i) x ⟨x.disk, .looked i t disk none :: x.events⟩
  /-- A stale entry is removed. -/
  | discarded {i : ι} {t : String} {disk : Disk} {D : String} {x : Scene ι} {b : ByteArray}
    (looks : F.Looks x i t disk D)
    (reads : Cache.reading (F.entry i t) D x.disk = .stale)
    (file : x.disk.HasFile (F.entryPlace i t) b) :
    Step F (some i) x
      ⟨x.disk.erase (F.entryPlace i t), .looked i t disk none :: x.events⟩

/-- Steps of operations on a repository, or on the whole cache. -/
abbrev Steps {ι : Type} [DecidableEq ι] {s : Settings} {home : Location} (F : Family ι s home)
    (k : Option ι) : Scene ι → Scene ι → Prop :=
  Relation.ReflTransGen (Step F k)

section

variable {ι : Type} [DecidableEq ι] {s : Settings} {home : Location} {F : Family ι s home}
  {k : Option ι} {x y : Scene ι}

/-- What every step keeps, every sequence of steps keeps. -/
theorem Steps.keeps {P : Scene ι → Prop} (h : Steps F k x y)
    (step : ∀ {x y}, Step F k x y → P x → P y) (hx : P x) : P y := by
  induction h with
  | refl => exact hx
  | tail _ last ih => exact step last ih

omit [DecidableEq ι] in
theorem Family.marks_of_written {d e : Disk} {i : ι} {D : String} {p : Path} {n : String}
    (path : F.marker i = p.child n) (h : d.Written p n D.toUTF8 e) : F.Marks d i D e := by
  intro q m other
  obtain ⟨rfl, rfl⟩ := Path.child_inj (path.symm.trans other)
  exact h

omit [DecidableEq ι] in
theorem Family.Marks.written {d e : Disk} {i : ι} {D : String} (h : F.Marks d i D e) :
    ∃ p n, F.markerPlace i = F.place p ++ [n] ∧ d.Written p n D.toUTF8 e ∧
      e.Reaches (F.marker i) := by
  obtain ⟨p, n, path, leaves, down, place⟩ := F.exists_markerPlace i
  have written := h p _ path
  refine ⟨p, _, place, written, ?_⟩
  rw [path]
  exact written.reaches_child leaves down

omit [DecidableEq ι] in
/-- A marker that is written changes no other file. -/
theorem Family.Marks.hasFile_iff {d e : Disk} {i : ι} {D : String} {l : Location}
    {b : ByteArray}
    (h : F.Marks d i D e) (here : d.home = home) (other : l ≠ F.markerPlace i) :
    e.HasFile l b ↔ d.HasFile l b := by
  obtain ⟨p, n, place, written, -⟩ := h.written
  refine written.hasFile_iff ?_
  rwa [F.place_eq here, ← place]

/-- A refusal is not forgotten. -/
theorem Step.refused_mem (h : Step F k x y) (refused : .refused ∈ x.events) :
    .refused ∈ y.events := by
  cases h with
  | removed => exact refused
  | removedAll => exact refused
  | marked => exact refused
  | refused => exact .head _
  | halfStored => exact .head _
  | _ => exact .tail _ refused

/-- No step changes the working directory. -/
theorem Step.home_eq (h : Step F k x y) : y.disk.home = x.disk.home := by
  cases h with
  | used => rfl
  | cleared => rfl
  | clearedAll => rfl
  | removed => rfl
  | removedAll => rfl
  | marked _ marks =>
    obtain ⟨p, n, -, written, -⟩ := marks.written
    exact written.home
  | refused grows => exact grows.home
  | stored writes marks =>
    obtain ⟨text, -, entry⟩ := writes.written
    obtain ⟨p, n, -, written, -⟩ := marks.written
    exact written.home.trans entry.home
  | halfStored writes grows =>
    obtain ⟨text, -, entry⟩ := writes.written
    exact grows.home.trans entry.home
  | found => rfl
  | missed => rfl
  | discarded => rfl

end

end Schemata
