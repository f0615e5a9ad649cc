/-
What a store and a lookup leave of other files.

A store renews the marker of its repository and sweeps nothing. Whatever else is in the
directory stays there, and the marker says of it what may not be so. A lookup that finds the
marker as it should be has no reason to sweep either: it is a lookup under the digest of the
marker, and changes no file but perhaps the entry of its own table.
-/
import Schemata.Proofs.Cache.Sweep

namespace Schemata

/-! ## What a store leaves -/

namespace Family

variable {ι : Type} {s : Settings} {home : Location} {F : Family ι s home}
  {i : ι} {d e : Disk}
  {D : String}

/-- A marker that was written is read as it was written. -/
theorem Marks.storedDigest (marks : F.Marks d i D e) (home : d.home = home)
    (solid : Text.IsSolid D) : s.storedDigest (F.repo i) e = .ok (some D) := by
  obtain ⟨p, n, path, leaves⟩ := F.exists_marker i
  obtain ⟨-, -, -, -, reaches⟩ := marks.written
  have written := marks p _ path
  have usable : (F.marker i).IsUsable := path ▸ written.usable
  have here : e.home = _ := written.home.trans home
  have file : e.HasFile (e.place (F.marker i)) D.toUTF8 := by
    obtain ⟨q, m, place, written, -⟩ := marks.written
    rw [F.place_eq here, ← markerPlace, place, ← F.place_eq home]
    exact written.file
  have read : e.readText (F.marker i) = .ok D := by
    rw [Disk.readText, Disk.readBytes_of_hasFile usable reaches file, ok_bind]
    exact Disk.decode_toUTF8 solid.noReturn
  rw [F.storedDigest_eq i here, read]
  simp only [solid.stripped_eq]

end Family

namespace Noting

open Caching

variable {ι : Type} {s : Settings} {home : Location} {F : Family ι s home} {i : ι}
  {t D : String}
  {d : Disk}

/-- A store makes the marker say that the migrations are those of now, writes the entry of its
table, and leaves every other file in the directory. -/
theorem ensures_put_marked (named : F.IsNamed) (enabled : Cache.isEnabled s = true)
    (ht : IsTable t)
    (schema : Schema) (digest : s.migrationsDigest (F.repo i) d = .ok D) :
    Ensures (fun c => F.Tidy (fun e => e = d) c ∧ c.store.disk = d) (put s F.repo i t schema)
      (fun _ => F.Tidy fun f => s.storedDigest (F.repo i) f = .ok (some D) ∧
        (∃ text, StoredSchema.entryText ⟨schema, D⟩ = .ok text ∧
          f.HasFile (F.entryPlace i t) text.toUTF8) ∧
        ∀ l b, F.place (F.directory i) <+: l → l ≠ F.entryPlace i t → d.HasFile l b →
          f.HasFile l b)
      (fun _ => True) := by
  unfold put store
  refine ensures_begin_tidy.bind fun _ => ?_
  rw [if_pos enabled]
  refine (ensures_ask_eq fun c h => h.2 ▸ digest).bind fun E => Ensures.given fun same => ?_
  subst same
  refine (ensures_storeWith_writes ht).weaken (fun _ h => h.1) (fun _ _ h => h.imp ?_)
    fun _ _ => trivial
  rintro f ⟨_, e, text, rfl, here, wrote, written, marks⟩
  have later := written.home.trans here
  refine ⟨marks.storedDigest later (Settings.isSolid_migrationsDigest digest),
    ⟨text, wrote, ?_⟩, ?_⟩
  · have inside : F.place (F.directory i) <+: F.entryPlace i t := List.prefix_append _ _
    rw [marks.file_iff named later inside, Family.entryPlace, ← F.place_eq here]
    exact written.file
  · intro l b inside other file
    rw [marks.file_iff named later inside, written.hasFile_iff]
    · exact file
    · rw [F.place_eq here]
      exact other

end Noting

/-! ## What a lookup leaves -/

section

variable {ι : Type} {s : Settings} {home : Location} {F : Family ι s home} {i : ι}
  {t D : String}

theorem Noting.run_currentDigest {c : Chronicle ι}
    (digest : s.migrationsDigest (F.repo i) c.store.disk = .ok D)
    (stored : s.storedDigest (F.repo i) c.store.disk = .ok (some D)) :
    Noting.currentDigest s F.repo i c = (.ok D, c) := by
  unfold Noting.currentDigest
  rw [run_bind, Noting.run_silently_ask, digest]
  dsimp only
  rw [run_bind, Noting.run_silently_ask, stored]
  dsimp only
  rw [if_neg (by simp)]
  rfl

/-- A marker that has the digest needs no sweep. -/
theorem Cache.currentDigest_of_stored {σ : Store} {repo : Repository}
    (digest : s.migrationsDigest repo σ.disk = .ok D)
    (stored : s.storedDigest repo σ.disk = .ok (some D)) :
    Cache.currentDigest s repo σ = (.ok D, σ) := by
  unfold Cache.currentDigest
  rw [run_bind, Caching.run_ask, digest]
  dsimp only
  rw [run_bind, Caching.run_ask, stored]
  dsimp only
  rw [if_neg (by simp)]
  rfl

variable {σ : Store} (enabled : Cache.isEnabled s = true) (ht : IsTable t)
  (here : σ.disk.home = home) (digest : s.migrationsDigest (F.repo i) σ.disk = .ok D)
  (stored : s.storedDigest (F.repo i) σ.disk = .ok (some D))

include enabled ht here digest stored

/-- While the marker has the digest of the migrations, a lookup is one under that digest. -/
theorem Cache.run_lookup :
    Cache.lookup s (F.repo i) (.text t) σ =
      match Cache.reading (F.entry i t) D σ.disk with
      | .unreadable => (.ok none, σ)
      | .tooDeep => (.error .tooDeep, σ)
      | .fresh schema => (.ok (some schema), σ)
      | .stale => (.ok none, { σ with disk := σ.disk.erase (F.entryPlace i t) }) := by
  rw [Cache.lookup_of_asked enabled (Cache.currentDigest_of_stored digest stored)]
  exact Noting.run_lookupAt F i ht D here

/-- It succeeds where the entry of the table is one that a store has written. -/
theorem Cache.exists_lookup_of_hasFile {schema : Schema} {E text : String}
    (wrote : StoredSchema.entryText ⟨schema, E⟩ = .ok text)
    (file : σ.disk.HasFile (F.entryPlace i t) text.toUTF8) :
    ∃ found, (Cache.lookup s (F.repo i) (.text t) σ).1 = .ok found := by
  rw [Cache.run_lookup enabled ht here digest stored]
  cases reads : Cache.reading (F.entry i t) D σ.disk with
  | unreadable => exact ⟨none, rfl⟩
  | stale => exact ⟨none, rfl⟩
  | fresh found => exact ⟨some found, rfl⟩
  | tooDeep =>
    -- A text that was written is never nested too deeply.
    obtain ⟨b, bytes, own⟩ := F.exists_hasFile_of_reading i here ht (D := D) (by simp [reads])
    obtain rfl : text.toUTF8 = b := Entry.file.inj (Option.some.inj (file.symm.trans own))
    rw [reading_of_readBytes wrote bytes] at reads
    split at reads
    · exact absurd reads (Reading.ofReread_ne_tooDeep schema)
    · cases reads

/-- It leaves every file but the entry of its table. -/
theorem Cache.file_of_lookup {l : Location} {b : ByteArray} (other : l ≠ F.entryPlace i t)
    (file : σ.disk.HasFile l b) :
    (Cache.lookup s (F.repo i) (.text t) σ).2.disk.HasFile l b := by
  rw [Cache.run_lookup enabled ht here digest stored]
  cases Cache.reading (F.entry i t) D σ.disk with
  | unreadable => exact file
  | tooDeep => exact file
  | fresh schema => exact file
  | stale =>
    rw [Disk.HasFile, Disk.entry?_erase file.ne_nil, if_neg other]
    exact file

end

end Schemata
