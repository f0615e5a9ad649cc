/-
What the entries of a cache hold.

Whatever is done to a cache, the file of a table holds the text of the schema that was stored
last for it, if it is there at all (`EntriesHold`): every step that writes such a file is a
step that stores, and the other steps only remove. A schema that is found is therefore the one
that was stored last, as it is read back, and the digest it was stored with is the one for
which it was looked up. Nothing has to be known of the markers for this, nor of writes that
were refused; it is enough that no two repositories have one directory.
-/
import Schemata.Proofs.Cache.Step
import Schemata.Proofs.Json.Breaks

namespace Schemata

/-! ## Texts in files -/

theorem Text.fromUTF8?_toUTF8 (s : String) : String.fromUTF8? s.toUTF8 = some s := by
  have valid : s.toUTF8.IsValidUTF8 := s.isValidUTF8
  rw [String.fromUTF8?, dif_pos valid]
  rfl

/-- A text without carriage returns is read as it was written. -/
theorem Disk.decode_toUTF8 {s : String} (h : '\r' ∉ s.toList) :
    Disk.decode s.toUTF8 = .ok s := by
  rw [Disk.decode, Text.fromUTF8?_toUTF8]
  simp only [Text.withPlainBreaks_eq_self h]

theorem StoredSchema.decode_text {x : StoredSchema} {text : String} (h : x.text = .ok text) :
    Disk.decode text.toUTF8 = .ok text := by
  obtain ⟨-, rfl⟩ := StoredSchema.isWritable_of_text h
  exact Disk.decode_toUTF8
    (Json.noReturn_print Json.indented_isPlain Json.ascii_isSafe x.isFinite_toJson)

/-- What is read in the place of a stored schema is the schema, while its digest is the given
one. -/
theorem reading_of_readBytes {d : Disk} {p : Path} {schema : Schema} {D E text : String}
    (h : StoredSchema.entryText ⟨schema, D⟩ = .ok text)
    (read : d.readBytes p = .ok text.toUTF8) :
    Cache.reading p E d =
      if D = E then .ofReread schema else .stale := by
  have readText : d.readText p = .ok text := by
    rw [Disk.readText, read, ok_bind,
      StoredSchema.decode_text (StoredSchema.entryText_eq_ok.1 h).1]
  rw [Cache.reading, readText]
  exact Reading.within_entryText h

/-! ## Looks in a list of events -/

section Looks

variable {ι : Type}

/-- Something holds of every look for a stored schema and of what happened before it. -/
def EveryLook (P : List (Event ι) → ι → String → Disk → Option Schema → Prop)
    (es : List (Event ι)) : Prop :=
  ∀ after i t disk found before, es = after ++ .looked i t disk found :: before →
    P before i t disk found

theorem everyLook_nil (P : List (Event ι) → ι → String → Disk → Option Schema → Prop) :
    EveryLook P [] := by
  intro after i t disk found before h
  simp at h

theorem everyLook_cons {P : List (Event ι) → ι → String → Disk → Option Schema → Prop}
    {e : Event ι} {es : List (Event ι)} :
    EveryLook P (e :: es) ↔
      (∀ i t disk found, e = .looked i t disk found → P es i t disk found) ∧
        EveryLook P es := by
  constructor
  · intro h
    constructor
    · rintro i t disk found rfl
      exact h [] i t disk found es rfl
    · rintro after i t disk found before rfl
      exact h (e :: after) i t disk found before rfl
  · rintro ⟨first, rest⟩ after i t disk found before h
    cases after with
    | nil =>
      obtain ⟨rfl, rfl⟩ := List.cons.inj h
      exact first i t disk found rfl
    | cons a after =>
      obtain ⟨-, rfl⟩ := List.cons.inj h
      exact rest after i t disk found before rfl

end Looks

/-! ## Entries -/

namespace Family

variable {ι : Type} [DecidableEq ι] {s : Settings} {home : Location} (F : Family ι s home)

omit [DecidableEq ι] in
/-- No two repositories have one directory. -/
def Separate : Prop :=
  ∀ i j, F.place (F.directory i) = F.place (F.directory j) → i = j

/-- The file of a table holds the schema that was stored last for it, or is not there. -/
def EntriesHold (x : Scene ι) : Prop :=
  ∀ i t b, IsTable t → x.disk.HasFile (F.entryPlace i t) b →
    ∃ schema D text, lastStored x.events i t = some (schema, D) ∧
      StoredSchema.entryText ⟨schema, D⟩ = .ok text ∧ b = text.toUTF8

/-- What was found is the schema that was stored last for the table, as it is read back, and
the digest of that store is the digest of the migrations when the operation began. -/
def Backed (es : List (Event ι)) (i : ι) (t : String) (disk : Disk) (found : Option Schema) :
    Prop :=
  ∀ schema', found = some schema' →
    ∃ schema D, lastStored es i t = some (schema, D) ∧ schema.reread = .ok schema' ∧
      s.migrationsDigest (F.repo i) disk = .ok D

variable {F}

namespace EntriesHold

variable {d e : Disk} {es : List (Event ι)}

/-- Files that are removed, or changed elsewhere, are not missed. -/
theorem of_files (h : F.EntriesHold ⟨d, es⟩)
    (files : ∀ i t b, e.HasFile (F.entryPlace i t) b → d.HasFile (F.entryPlace i t) b) :
    F.EntriesHold ⟨e, es⟩ :=
  fun i t b ht hf => h i t b ht (files i t b hf)

/-- An event that stores nothing may be added. -/
theorem note (h : F.EntriesHold ⟨d, es⟩) {a : Event ι} (ha : ∀ i t, a.stores i t = none) :
    F.EntriesHold ⟨d, a :: es⟩ := by
  intro i t b ht hf
  rw [lastStored_cons, ha]
  exact h i t b ht hf

theorem of_grows (h : F.EntriesHold ⟨d, es⟩) (grows : d.Grows e) : F.EntriesHold ⟨e, es⟩ :=
  h.of_files fun _ _ _ hf => grows.hasFile_iff.1 hf

theorem of_marks (h : F.EntriesHold ⟨d, es⟩) (home : d.home = home) {i : ι} {D : String}
    (marks : F.Marks d i D e) : F.EntriesHold ⟨e, es⟩ := by
  refine h.of_files fun j t b hf => ?_
  exact (marks.hasFile_iff home (F.markerPlace_ne_entryPlace i j t).symm).1 hf

/-- A schema that is stored takes the place of the one before it. -/
theorem of_writes (sep : F.Separate) {x : Scene ι} (h : F.EntriesHold x)
    (home : x.disk.home = home) {i : ι} {t : String} {schema : Schema} {D : String}
    (writes : F.Writes x i t schema D e) :
    F.EntriesHold ⟨e, .stored i t schema D :: x.events⟩ := by
  obtain ⟨text, wrote, written⟩ := writes.written
  have place : x.disk.place (F.directory i) ++ [t ++ ".json"] = F.entryPlace i t := by
    rw [F.place_eq home, entryPlace]
  intro j u b hu hf
  by_cases same : i = j ∧ t = u
  · obtain ⟨rfl, rfl⟩ := same
    have now := written.file
    rw [place] at now
    obtain rfl := Entry.file.inj (Option.some.inj (hf.symm.trans now))
    refine ⟨schema, D, text, ?_, wrote, rfl⟩
    rw [lastStored_cons, Event.stores, if_pos ⟨rfl, rfl⟩]
    rfl
  · rcases written.hasFile hf with ⟨clash, -⟩ | hf
    · rw [place, F.entryPlace_eq_iff] at clash
      exact absurd ⟨(sep j i clash.1).symm, clash.2.symm⟩ same
    · rw [lastStored_cons, Event.stores, if_neg same]
      exact h j u b hu hf

end EntriesHold

/-- Every step leaves in the entries what was stored last. -/
theorem entriesHold_step (sep : F.Separate) {k : Option ι} {x y : Scene ι}
    (step : Step F k x y)
    (here : x.disk.home = home) (h : F.EntriesHold x) : F.EntriesHold y := by
  cases step with
  | used => exact h.note fun _ _ => rfl
  | cleared => exact h.note fun _ _ => rfl
  | clearedAll => exact h.note fun _ _ => rfl
  | removed => exact h.of_files fun _ _ _ hf => hf.of_eraseTree.2
  | removedAll => exact h.of_files fun _ _ _ hf => hf.of_eraseTree.2
  | marked _ marks => exact h.of_marks here marks
  | refused grows => exact (h.of_grows grows).note fun _ _ => rfl
  | stored writes marks =>
    obtain ⟨text, -, written⟩ := writes.written
    exact (h.of_writes sep here writes).of_marks (written.home.trans here) marks
  | halfStored writes grows =>
    exact ((h.of_writes sep here writes).of_grows grows).note fun _ _ => rfl
  | found => exact h.note fun _ _ => rfl
  | missed => exact h.note fun _ _ => rfl
  | discarded => exact (h.of_files fun _ _ _ hf => hf.of_erase.2).note fun _ _ => rfl

/-- A fresh reading is backed by what was stored. -/
theorem EntriesHold.backed {x : Scene ι} (h : F.EntriesHold x) (home : x.disk.home = home)
    {i : ι} {t : String} {disk : Disk} {D : String} (looks : F.Looks x i t disk D)
    {schema' : Schema} (reads : Cache.reading (F.entry i t) D x.disk = .fresh schema') :
    F.Backed x.events i t disk (some schema') := by
  obtain ⟨b, read, file⟩ :=
    F.exists_hasFile_of_reading i home looks.table (by rw [reads]; exact nofun)
  obtain ⟨schema, E, text, last, wrote, rfl⟩ := h i t b looks.table file
  rw [reading_of_readBytes wrote read] at reads
  split at reads
  · rename_i same
    subst same
    rintro _ ⟨⟩
    exact ⟨schema, E, last, Reading.ofReread_eq_fresh reads, looks.digest⟩
  · cases reads

/-- A step looks for a stored schema once, or not at all, and finds it if the entry is
fresh. -/
theorem everyLook_step {P : List (Event ι) → ι → String → Disk → Option Schema → Prop}
    {k : Option ι} {x y : Scene ι} (step : Step F k x y) (looks : EveryLook P x.events)
    (look : ∀ {i t disk D found}, F.Looks x i t disk D →
      (∀ schema, found = some schema ↔ Cache.reading (F.entry i t) D x.disk = .fresh schema) →
      P x.events i t disk found) : EveryLook P y.events := by
  cases step with
  | used => exact everyLook_cons.2 ⟨nofun, looks⟩
  | cleared => exact everyLook_cons.2 ⟨nofun, looks⟩
  | clearedAll => exact everyLook_cons.2 ⟨nofun, looks⟩
  | removed => exact looks
  | removedAll => exact looks
  | marked => exact looks
  | refused => exact everyLook_cons.2 ⟨nofun, looks⟩
  | stored => exact everyLook_cons.2 ⟨nofun, looks⟩
  | halfStored => exact everyLook_cons.2 ⟨nofun, everyLook_cons.2 ⟨nofun, looks⟩⟩
  | found looking reads | missed looking reads | discarded looking reads =>
    refine everyLook_cons.2 ⟨?_, looks⟩
    rintro i t disk found ⟨⟩
    exact look looking fun schema => by simp [reads]

/-- Every step finds only what is backed. -/
theorem backed_step {k : Option ι} {x y : Scene ι} (step : Step F k x y)
    (here : x.disk.home = home) (h : F.EntriesHold x) (looks : EveryLook F.Backed x.events) :
    EveryLook F.Backed y.events := by
  refine everyLook_step step looks fun looking answer schema' found => ?_
  exact h.backed here looking ((answer schema').1 found) schema' rfl

end Family

end Schemata
