/-
What is stored stays.

A stored schema stands while its file and the marker of its repository are as they were
written, and the directories that hold them are there (`Standing`). It then is found whenever
the root of the cache can be reached (`reads`), and no sweep removes it, since the marker has
its digest (`storedDigest`). Here the names of the repositories are names of different
directories in the root of the cache, so that no other repository can touch these places.
-/
import Schemata.Proofs.Cache.Entries
import Schemata.Proofs.Migrations

namespace Schemata.Family

variable {ι : Type} {s : Settings} {home : Location} {F : Family ι s home}

/-- The short names are single components, and different for different repositories. -/
structure IsNamed (F : Family ι s home) : Prop where
  name : ∀ i, Path.IsName (F.name i)
  injective : ∀ i j, F.name i = F.name j → i = j

namespace IsNamed

variable (h : F.IsNamed) (i j : ι)

include h

theorem directory_eq : F.directory i = F.root.child (F.name i) :=
  Path.below_of_isName (h.name i) F.root

theorem isName_marker : Path.IsName (F.name i ++ markerEnding) :=
  Path.isName_append (h.name i).noSlash (by decide) (by decide)

theorem marker_eq : F.marker i = F.root.child (F.name i ++ markerEnding) :=
  Path.below_of_isName (h.isName_marker i) F.root

theorem place_directory : F.place (F.directory i) = F.place F.root ++ [F.name i] := by
  rw [h.directory_eq]
  exact Disk.place_child _ _ (h.name i).down

theorem markerPlace_eq : F.markerPlace i = F.place F.root ++ [F.name i ++ markerEnding] := by
  rw [markerPlace, h.marker_eq]
  exact Disk.place_child _ _ (h.isName_marker i).down

theorem entryPlace_eq (t : String) :
    F.entryPlace i t = F.place F.root ++ [F.name i, t ++ ".json"] := by
  rw [entryPlace, h.place_directory, List.append_assoc]
  rfl

theorem separate : F.Separate := by
  intro i j same
  rw [h.place_directory, h.place_directory] at same
  exact h.injective i j (List.singleton_inj.1 (List.append_cancel_left same))

theorem markerPlace_inj (same : F.markerPlace i = F.markerPlace j) : i = j := by
  rw [h.markerPlace_eq, h.markerPlace_eq] at same
  have names := List.singleton_inj.1 (List.append_cancel_left same)
  exact h.injective i j ((String.append_left_inj _).1 names)

/-- The directory of a repository is above no entry of another one. -/
theorem not_prefix_entry (ne : j ≠ i) (t : String) :
    ¬ F.place (F.directory j) <+: F.entryPlace i t := by
  rw [h.place_directory, h.entryPlace_eq, List.prefix_append_right_inj, List.cons_prefix_cons]
  exact fun same => ne (h.injective j i same.1)

theorem not_prefix_directory (ne : j ≠ i) :
    ¬ F.place (F.directory j) <+: F.place (F.directory i) := by
  rw [h.place_directory, h.place_directory, List.prefix_append_right_inj,
    List.cons_prefix_cons]
  exact fun same => ne (h.injective j i same.1)

theorem not_prefix_root : ¬ F.place (F.directory j) <+: F.place F.root := by
  intro above
  have short := above.length_le
  rw [h.place_directory, List.length_append] at short
  simp at short

/-- What is at or below the directory of a repository, and no deeper than a marker, is the
directory. -/
theorem eq_of_prefix_marker (above : F.place (F.directory j) <+: F.markerPlace i) :
    F.place (F.directory j) = F.markerPlace i := by
  refine above.eq_of_length ?_
  rw [h.place_directory, h.markerPlace_eq]
  simp

end IsNamed

/-! ## Standing -/

/-- A schema that was stored stands: its file and the marker are as they were written. -/
structure Standing (F : Family ι s home) (d : Disk) (i : ι) (t : String) (schema : Schema)
    (D : String) : Prop where
  table : IsTable t
  solid : Text.IsSolid D
  rereads : ∃ schema', schema.reread = .ok schema'
  usableEntry : (F.entry i t).IsUsable
  usableDirectory : (F.directory i).IsUsable
  usableMarker : (F.marker i).IsUsable
  entry : ∃ text, StoredSchema.entryText ⟨schema, D⟩ = .ok text ∧
    d.HasFile (F.entryPlace i t) text.toUTF8
  marker : d.HasFile (F.markerPlace i) D.toUTF8
  root : d.HasDirectory (F.place F.root)
  directory : d.HasDirectory (F.place (F.directory i))

namespace Standing

variable {d e : Disk} {i j : ι} {t u : String} {schema : Schema} {D E : String}

/-- Only four places matter. -/
theorem of_kept (h : F.Standing d i t schema D)
    (kept : ∀ l, l = F.entryPlace i t ∨ l = F.markerPlace i ∨ l = F.place F.root ∨
      l = F.place (F.directory i) → ∀ x, d.entry? l = some x → e.entry? l = some x) :
    F.Standing e i t schema D where
  table := h.table
  solid := h.solid
  rereads := h.rereads
  usableEntry := h.usableEntry
  usableDirectory := h.usableDirectory
  usableMarker := h.usableMarker
  entry := by
    obtain ⟨text, wrote, file⟩ := h.entry
    exact ⟨text, wrote, kept _ (.inl rfl) _ file⟩
  marker := kept _ (.inr (.inl rfl)) _ h.marker
  root := kept _ (.inr (.inr (.inl rfl))) _ h.root
  directory := kept _ (.inr (.inr (.inr rfl))) _ h.directory

/-- A directory is at none of the places of files. -/
theorem ne_of_hasDirectory (h : F.Standing d i t schema D) {l : Location}
    (there : d.HasDirectory l) : l ≠ F.entryPlace i t ∧ l ≠ F.markerPlace i := by
  obtain ⟨text, -, file⟩ := h.entry
  have marker := h.marker
  constructor
  · rintro rfl
    rw [Disk.HasFile, there] at file
    cases file
  · rintro rfl
    rw [Disk.HasFile, there] at marker
    cases marker

/-- A write somewhere else keeps what is stored; a write to the marker has to write the
same. -/
theorem of_marks (h : F.Standing d i t schema D) (named : F.IsNamed) (home : d.home = home)
    (marks : F.Marks d j E e) (same : j = i → E = D) : F.Standing e i t schema D := by
  obtain ⟨p, n, place, written, -⟩ := marks.written
  rw [← F.place_eq home] at place
  refine h.of_kept fun l hl x hx => ?_
  by_cases here : l = F.markerPlace j
  · rcases hl with rfl | rfl | rfl | rfl
    · exact absurd here.symm (F.markerPlace_ne_entryPlace j i t)
    · obtain rfl := named.markerPlace_inj _ _ here
      obtain rfl := same rfl
      rw [← hx, h.marker, place]
      exact written.file
    · rw [place] at here
      exact absurd (here ▸ h.root) written.free
    · rw [place] at here
      exact absurd (here ▸ h.directory) written.free
  · rw [place] at here
    exact written.kept here hx

theorem of_written (h : F.Standing d i t schema D) (home : d.home = home) {b : ByteArray}
    (written : d.Written (F.directory j) (u ++ ".json") b e)
    (ne : F.entryPlace i t ≠ F.entryPlace j u) : F.Standing e i t schema D := by
  have place : d.place (F.directory j) ++ [u ++ ".json"] = F.entryPlace j u := by
    rw [F.place_eq home, entryPlace]
  have free := written.free
  rw [place] at free
  refine h.of_kept fun l hl x hx => written.kept ?_ hx
  rw [place]
  rcases hl with rfl | rfl | rfl | rfl
  · exact ne
  · exact F.markerPlace_ne_entryPlace i j u
  · exact fun here => free (here ▸ h.root)
  · exact fun here => free (here ▸ h.directory)

/-- Removing the directory of another repository keeps what is stored. -/
theorem of_removed (h : F.Standing d i t schema D) (named : F.IsNamed) (ne : j ≠ i)
    (there : d.HasDirectory (F.place (F.directory j))) :
    F.Standing (d.eraseTree (F.place (F.directory j))) i t schema D := by
  refine h.of_kept fun l hl x hx => ?_
  by_cases top : l = []
  · rw [top] at hx ⊢
    exact hx
  · rw [Disk.entry?_eraseTree top, if_neg]
    · exact hx
    · rcases hl with rfl | rfl | rfl | rfl
      · exact named.not_prefix_entry i j ne t
      · intro above
        exact (h.ne_of_hasDirectory there).2 (named.eq_of_prefix_marker i j above)
      · exact named.not_prefix_root j
      · exact named.not_prefix_directory i j ne

/-- Removing the entry of another table keeps what is stored. -/
theorem of_discarded (h : F.Standing d i t schema D) {b : ByteArray}
    (file : d.HasFile (F.entryPlace j u) b) (ne : F.entryPlace i t ≠ F.entryPlace j u) :
    F.Standing (d.erase (F.entryPlace j u)) i t schema D := by
  have away {l : Location} (there : d.HasDirectory l) : l ≠ F.entryPlace j u := by
    rintro rfl
    rw [Disk.HasFile, there] at file
    cases file
  refine h.of_kept fun l hl x hx => ?_
  by_cases top : l = []
  · rw [top] at hx ⊢
    exact hx
  · rw [Disk.entry?_erase top, if_neg]
    · exact hx
    · rcases hl with rfl | rfl | rfl | rfl
      · exact ne
      · exact F.markerPlace_ne_entryPlace i j u
      · exact away h.root
      · exact away h.directory

/-! ## What stands is found -/

/-- While the root of the cache can be reached, the marker has the digest. -/
theorem storedDigest (h : F.Standing d i t schema D) (named : F.IsNamed)
    (home : d.home = home)
    (reaches : d.Reaches F.root) : s.storedDigest (F.repo i) d = .ok (some D) := by
  have root : d.HasDirectory (d.place F.root) := by
    rw [F.place_eq home]
    exact h.root
  have reached : d.Reaches (F.marker i) := by
    rw [named.marker_eq, Disk.reaches_child (named.isName_marker i).down]
    refine ⟨reaches, root, h.usableMarker.parts _ ?_⟩
    simp [named.marker_eq, Path.child]
  have file : d.HasFile (d.place (F.marker i)) D.toUTF8 := by
    rw [F.place_eq home]
    exact h.marker
  have read : d.readText (F.marker i) = .ok D := by
    rw [Disk.readText, Disk.readBytes_of_hasFile h.usableMarker reached file, ok_bind]
    exact Disk.decode_toUTF8 h.solid.noReturn
  rw [F.storedDigest_eq i home, read]
  simp only [h.solid.stripped_eq]

/-- While it cannot, no marker is there. -/
theorem storedDigest_of_not_reaches (h : F.Standing d i t schema D) (named : F.IsNamed)
    (home : d.home = home) (hidden : ¬ d.Reaches F.root) :
    s.storedDigest (F.repo i) d = .ok none := by
  have marker : ¬ d.Reaches (F.marker i) := by
    rw [named.marker_eq, Disk.reaches_child (named.isName_marker i).down]
    exact fun reached => hidden reached.1
  obtain ⟨f, read⟩ := Disk.readBytes_of_not_reaches h.usableMarker marker
  rw [F.storedDigest_eq i home, Disk.readText, read]
  rfl

/-- Nor is the directory of the repository there. -/
theorem hasEntry_of_not_reaches (h : F.Standing d i t schema D) (named : F.IsNamed)
    (hidden : ¬ d.Reaches F.root) : d.hasEntry (F.directory i) = .ok false := by
  refine Disk.hasEntry_of_not_reaches h.usableDirectory ?_
  rw [named.directory_eq, Disk.reaches_child (named.name i).down]
  exact fun reached => hidden reached.1

/-- While the root of the cache can be reached, the schema is found as it is read back. -/
theorem reads (h : F.Standing d i t schema D) (named : F.IsNamed) (home : d.home = home)
    (reaches : d.Reaches F.root) :
    Cache.reading (F.entry i t) D d = .ofReread schema := by
  obtain ⟨text, wrote, file⟩ := h.entry
  have root : d.HasDirectory (d.place F.root) := by
    rw [F.place_eq home]
    exact h.root
  have directory : d.HasDirectory (d.place (F.directory i)) := by
    rw [F.place_eq home]
    exact h.directory
  have parts := h.usableEntry.parts
  rw [Family.entry, named.directory_eq] at parts
  have inner : d.Reaches (F.directory i) := by
    rw [named.directory_eq, Disk.reaches_child (named.name i).down]
    refine ⟨reaches, root, parts _ ?_⟩
    simp [Path.child]
  have reached : d.Reaches (F.entry i t) := by
    rw [Family.entry, Disk.reaches_child (isName_entry h.table).down]
    refine ⟨inner, directory, parts _ ?_⟩
    simp [Path.child]
  rw [← F.place_entry i home h.table] at file
  rw [reading_of_readBytes wrote (Disk.readBytes_of_hasFile h.usableEntry reached file),
    if_pos rfl]

/-- A schema stands when it and the marker of its repository have been written. -/
theorem of_writes [DecidableEq ι] (named : F.IsNamed) {x : Scene ι}
    (home : x.disk.home = home)
    (writes : F.Writes x i t schema D e) {f : Disk} (marks : F.Marks e i D f) :
    F.Standing f i t schema D := by
  obtain ⟨text, wrote, entry⟩ := writes.written
  have marker : e.Written F.root (F.name i ++ markerEnding) D.toUTF8 f :=
    marks F.root _ (named.marker_eq i)
  have later : e.home = _ := entry.home.trans home
  have there : e.place F.root ++ [F.name i ++ markerEnding] = F.markerPlace i := by
    rw [F.place_eq later, named.markerPlace_eq]
  obtain ⟨disk, -, digest⟩ := writes.works
  obtain ⟨writable, -⟩ :=
    StoredSchema.isWritable_of_text (StoredSchema.entryText_eq_ok.1 wrote).1
  exact {
    table := writes.table
    solid := Settings.isSolid_migrationsDigest digest
    rereads := ⟨_, Schema.reread_eq writes.representable writable⟩
    usableEntry := entry.usable
    usableDirectory := entry.usableParent
    usableMarker := by
      rw [named.marker_eq]
      exact marker.usable
    entry := by
      refine ⟨text, wrote, marker.kept ?_ ?_⟩
      · rw [there]
        exact (F.markerPlace_ne_entryPlace i i t).symm
      · have file := entry.file
        rw [F.place_eq home] at file
        exact file
    marker := by
      rw [← there]
      exact marker.file
    root := by
      rw [← F.place_eq later]
      exact marker.directory F.leavesHome_root
    directory := by
      have made :=
        entry.directory (by rw [named.directory_eq]; exact Path.leavesHome_child _ _)
      rw [F.place_eq home] at made
      exact marker.hasDirectory made }

end Standing

end Schemata.Family
