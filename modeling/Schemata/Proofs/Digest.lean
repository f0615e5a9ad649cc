/-
What the digest of migrations tells.

A digest is made in two steps, and nothing may get lost in either: each file becomes a pair of
its name and the hash of its bytes, and the list of the pairs becomes a text that is hashed
again. The text is a document that can be read back (`Json.parse?_print`), so it has one list
of pairs only, whatever characters the names hold; and a pair has one file only, as far as the
hash tells bytes apart (`digestWith_eq_iff`). What is left is the order of the files. A
directory is listed in any order, but its names are distinct, and there is one way to put
distinct names in order (`inOrder_eq_iff`).

A hash of fixed length cannot tell all bytes apart. It is asked here to tell apart what is
hashed on the way to the two digests that are compared (`hashed`), and nothing else.
-/
import Schemata.Migrations
import Schemata.Proofs.Json.RoundTrip
import Schemata.Proofs.Steps

namespace Schemata

/-! ## Hexadecimal -/

namespace Sha256

theorem hexDigit_inj {m n : Nat} (hm : m < 16) (hn : n < 16) (h : hexDigit m = hexDigit n) :
    m = n := by
  have all : ∀ m < 16, ∀ n < 16, hexDigit m = hexDigit n → m = n := by decide
  exact all m hm n hn h

/-- Bytes have one text in hexadecimal each. -/
theorem hexOf_injective : Function.Injective hexOf := by
  intro xs ys h
  have digits := String.ofList_injective h
  clear h
  induction xs generalizing ys with
  | nil =>
    cases ys with
    | nil => rfl
    | cons y ys => cases digits
  | cons x xs ih =>
    cases ys with
    | nil => cases digits
    | cons y ys =>
      simp only [List.flatMap_cons, List.cons_append, List.nil_append,
        List.cons.injEq] at digits
      obtain ⟨high, low, rest⟩ := digits
      have hx := x.toNat_lt
      have hy := y.toNat_lt
      have quotient := hexDigit_inj (by omega) (by omega) high
      have remainder := hexDigit_inj (by omega) (by omega) low
      have same : x = y := UInt8.toNat_inj.1 (by omega)
      rw [same, ih rest]

end Sha256

/-! ## Documents -/

namespace Json

theorem unicode_isSafe : unicode.IsSafe := by
  intro c h
  simpa [unicode] using h

theorem compact_isBlank : compact.IsBlank where
  gap := by simp [compact]
  next := by simp [compact]
  colon := by simp [compact]

/-- Documents with one text are read back as one document. -/
theorem distinct_eq_of_print_eq {st : Style} {a : Alphabet} (hs : st.IsBlank) (ha : a.IsSafe)
    {i j : Json} (hi : i.isWritable = true ∧ i.isFinite = true)
    (hj : j.isWritable = true ∧ j.isFinite = true) (h : print st a i = print st a j) :
    i.distinct = j.distinct := by
  have read := parse?_print hs ha hi.1 hi.2
  rw [h, parse?_print hs ha hj.1 hj.2] at read
  exact (Option.some.inj read).symm

end Json

namespace Migrations

open Json (compact unicode)

variable {hash : List UInt8 → List UInt8} {xs ys : List (String × ByteArray)}

/-! ## Lists of names and hashes -/

theorem fingerprints_plain (hash : List UInt8 → List UInt8) (xs : List (String × ByteArray)) :
    (Json.areWritable (xs.map (fingerprint hash)) = true ∧
      Json.areFinite (xs.map (fingerprint hash)) = true) ∧
      Json.distinctItems (xs.map (fingerprint hash)) = xs.map (fingerprint hash) := by
  induction xs with
  | nil => exact ⟨⟨rfl, rfl⟩, rfl⟩
  | cons x xs ih =>
    obtain ⟨⟨writable, finite⟩, distinct⟩ := ih
    refine ⟨⟨?_, ?_⟩, ?_⟩
    · simp [Json.areWritable, Json.isWritable, fingerprint, writable]
    · simp [Json.areFinite, Json.isFinite, fingerprint, finite]
    · simp [Json.distinctItems, Json.distinct, fingerprint, distinct]

/-- A text of names and hashes is of one list of them only. -/
theorem manifest_eq_iff :
    manifest hash xs = manifest hash ys ↔
      xs.map (fingerprint hash) = ys.map (fingerprint hash) := by
  refine ⟨fun h => ?_, fun h => by rw [manifest, manifest, h]⟩
  obtain ⟨plain, distinct⟩ := fingerprints_plain hash xs
  obtain ⟨plain', distinct'⟩ := fingerprints_plain hash ys
  have same := Json.distinct_eq_of_print_eq Json.compact_isBlank Json.unicode_isSafe
    (i := .array _) (j := .array _) plain plain' h
  rw [Json.distinct, Json.distinct, distinct, distinct'] at same
  exact Json.array.inj same

/-! ## Files under a hash -/

/-- The bytes of a file. -/
def bytesOf (file : String × ByteArray) : List UInt8 :=
  file.2.data.toList

/-- The bytes of a text. -/
def bytesOfText (s : String) : List UInt8 :=
  s.toUTF8.data.toList

theorem bytesOfText_injective : Function.Injective bytesOfText := by
  intro s t h
  exact String.toByteArray_inj.1 (ByteArray.ext (Array.toList_inj.1 h))

/-- Files with one fingerprint are one file, if the hash tells their bytes apart. -/
theorem fingerprint_inj {x y : String × ByteArray}
    (free : hash (bytesOf x) = hash (bytesOf y) → bytesOf x = bytesOf y)
    (h : fingerprint hash x = fingerprint hash y) : x = y := by
  simp only [fingerprint, Json.array.injEq, List.cons.injEq, Json.text.injEq, and_true] at h
  obtain ⟨name, hashes⟩ := h
  have bytes := free (Sha256.hexOf_injective hashes)
  exact Prod.ext name (ByteArray.ext (Array.toList_inj.1 bytes))

theorem eq_of_fingerprints
    (free : ∀ x ∈ xs, ∀ y ∈ ys, hash (bytesOf x) = hash (bytesOf y) → bytesOf x = bytesOf y)
    (h : xs.map (fingerprint hash) = ys.map (fingerprint hash)) : xs = ys := by
  induction xs generalizing ys with
  | nil => exact (List.map_eq_nil_iff.1 h.symm).symm
  | cons x xs ih =>
    cases ys with
    | nil => cases h
    | cons y ys =>
      obtain ⟨head, tail⟩ := List.cons.inj h
      have first := fingerprint_inj (free x (.head _) y (.head _)) head
      have rest := ih (fun x hx y hy => free x (.tail _ hx) y (.tail _ hy)) tail
      rw [first, rest]

/-- What is hashed for the digest of files: the bytes of each, and the text of all of them. -/
def hashedFor (hash : List UInt8 → List UInt8) (files : List (String × ByteArray)) :
    List (List UInt8) :=
  bytesOfText (manifest hash files) :: files.map bytesOf

/-- Lists of files have one digest exactly if they are one list. -/
theorem digestWith_eq_iff
    (free : Set.InjOn hash {bytes | bytes ∈ hashedFor hash xs ++ hashedFor hash ys}) :
    digestWith hash xs = digestWith hash ys ↔ xs = ys := by
  refine ⟨fun h => ?_, fun h => by rw [h]⟩
  have left {bytes : List UInt8} (h : bytes ∈ hashedFor hash xs) :
      bytes ∈ hashedFor hash xs ++ hashedFor hash ys := List.mem_append_left _ h
  have right {bytes : List UInt8} (h : bytes ∈ hashedFor hash ys) :
      bytes ∈ hashedFor hash xs ++ hashedFor hash ys := List.mem_append_right _ h
  have texts := free (left (.head _)) (right (.head _)) (Sha256.hexOf_injective h)
  refine eq_of_fingerprints (fun x hx y hy => ?_)
    (manifest_eq_iff.1 (bytesOfText_injective texts))
  exact free (left (.tail _ (List.mem_map_of_mem hx)))
    (right (.tail _ (List.mem_map_of_mem hy)))

/-! ## The order of files -/

theorem inOrder_perm (xs : List (String × ByteArray)) : (inOrder xs).Perm xs :=
  List.mergeSort_perm _ _

theorem inOrder_pairwise (xs : List (String × ByteArray)) :
    (inOrder xs).Pairwise fun a b => a.1 ≤ b.1 := by
  have trans (a b c : String × ByteArray) (hab : decide (a.1 ≤ b.1) = true)
      (hbc : decide (b.1 ≤ c.1) = true) : decide (a.1 ≤ c.1) = true := by
    simp only [decide_eq_true_eq] at hab hbc ⊢
    exact String.le_trans hab hbc
  have total (a b : String × ByteArray) :
      (decide (a.1 ≤ b.1) || decide (b.1 ≤ a.1)) = true := by
    simpa using String.le_total a.1 b.1
  have sorted := List.pairwise_mergeSort trans total xs
  exact sorted.imp fun h => by simpa using h

/-- Files with distinct names are in one order only: the same files are the same list. -/
theorem inOrder_eq_iff (hx : (xs.map (·.1)).Nodup) (hy : (ys.map (·.1)).Nodup) :
    inOrder xs = inOrder ys ↔ ∀ file, file ∈ xs ↔ file ∈ ys := by
  refine ⟨fun h file => ?_, fun h => ?_⟩
  · rw [← (inOrder_perm xs).mem_iff, h, (inOrder_perm ys).mem_iff]
  · have members : xs.Perm ys :=
      (List.perm_ext_iff_of_nodup (.of_map _ hx) (.of_map _ hy)).2 h
    have perm := (inOrder_perm xs).trans (members.trans (inOrder_perm ys).symm)
    refine perm.eq_of_pairwise (fun a b ha hb le ge => ?_) (inOrder_pairwise xs)
      (inOrder_pairwise ys)
    have hb' : b ∈ xs := (h b).2 ((inOrder_perm ys).mem_iff.1 hb)
    exact List.inj_on_of_nodup_map hx ((inOrder_perm xs).mem_iff.1 ha) hb'
      (String.le_antisymm le ge)

/-! ## The migrations in a directory -/

/-- An entry as a migration: a file whose name ends in the extension. -/
def migration? (extension : String) : String × Entry → Option (String × ByteArray)
  | (_, .directory) => none
  | (name, .file bytes) =>
    if extension.toList.isSuffixOf name.toList then some (name, bytes) else none

theorem migration?_eq_some_iff {extension : String} {x : String × Entry}
    {file : String × ByteArray} :
    migration? extension x = some file ↔
      x = (file.1, .file file.2) ∧ extension.toList <:+ file.1.toList := by
  obtain ⟨name, entry⟩ := x
  obtain ⟨other, content⟩ := file
  cases entry with
  | directory => simp [migration?]
  | file bytes =>
    simp only [migration?, Option.ite_none_right_eq_some, Option.some.injEq, Prod.mk.injEq,
      Entry.file.injEq, List.isSuffixOf_iff_suffix]
    constructor
    · rintro ⟨suffix, rfl, rfl⟩
      exact ⟨⟨rfl, rfl⟩, suffix⟩
    · rintro ⟨⟨rfl, rfl⟩, suffix⟩
      exact ⟨suffix, rfl, rfl⟩

theorem hasExtension_text (extension name : String) :
    hasExtension (.text extension) name = .ok (extension.toList.isSuffixOf name.toList) := by
  simp only [hasExtension, endsLikeAny, Value.word?]
  cases extension.toList.isSuffixOf name.toList <;> rfl

theorem chosen_text (extension : String) (entries : List (String × Entry)) :
    chosen (.text extension) entries = .ok (entries.filterMap (migration? extension)) := by
  induction entries with
  | nil => rfl
  | cons x entries ih =>
    obtain ⟨name, entry⟩ := x
    cases entry with
    | directory => rw [chosen, ih]; rfl
    | file bytes =>
      rw [chosen, hasExtension_text, ok_bind, ih, ok_bind]
      by_cases suffix : extension.toList.isSuffixOf name.toList
      · simp [migration?, suffix]
      · simp [migration?, suffix]

section

variable {d : Disk} {directory : Path} {entries : List (String × Entry)} (extension : String)

theorem files_of_list (listed : d.list directory = .ok entries) :
    files d directory (.text extension) =
      .ok (inOrder (entries.filterMap (migration? extension))) := by
  rw [files, listed, ok_bind, chosen_text, ok_bind]

theorem nodup_names_migrations (distinct : (entries.map (·.1)).Nodup) :
    ((entries.filterMap (migration? extension)).map (·.1)).Nodup := by
  refine List.Nodup.sublist ?_ distinct
  induction entries with
  | nil => exact .slnil
  | cons x entries ih =>
    have rest := ih (List.nodup_cons.1 distinct).2
    cases h : migration? extension x with
    | none =>
      rw [List.filterMap_cons_none h, List.map_cons]
      exact rest.cons _
    | some file =>
      obtain ⟨rfl, -⟩ := migration?_eq_some_iff.1 h
      rw [List.filterMap_cons_some h, List.map_cons, List.map_cons]
      exact rest.cons_cons _

end

/-- What is hashed for the digest of the migrations in a directory. -/
def hashed (hash : List UInt8 → List UInt8) (d : Disk) (directory : Path)
    (extension : Value) :
    Set (List UInt8) :=
  {bytes | ∃ fs, files d directory extension = .ok fs ∧ bytes ∈ hashedFor hash fs}

theorem hashed_eq {d : Disk} {directory : Path} {extension : Value}
    (found : files d directory extension = .ok xs) :
    hashed hash d directory extension = {bytes | bytes ∈ hashedFor hash xs} := by
  ext bytes
  constructor
  · rintro ⟨fs, read, h⟩
    obtain rfl := Except.ok.inj (found.symm.trans read)
    exact h
  · exact fun h => ⟨xs, found, h⟩

/-- Two directories that can be listed have digests, whatever the extension, and they have one
digest exactly if they hold the same files with the extension, with the same names and the
same bytes: neither the order in which they are listed nor any other file or directory in them
matters. Of the hash, the one of `calculate` or any other, nothing is asked but that it tells
apart what is hashed for these two digests. -/
theorem calculateWith_eq_iff {d d' : Disk} {directory directory' : Path} {extension : String}
    {entries entries' : List (String × Entry)} (listed : d.list directory = .ok entries)
    (listed' : d'.list directory' = .ok entries') (distinct : (entries.map (·.1)).Nodup)
    (distinct' : (entries'.map (·.1)).Nodup)
    (free : Set.InjOn hash (hashed hash d directory (.text extension) ∪
      hashed hash d' directory' (.text extension))) :
    ∃ D D', calculateWith hash d directory (.text extension) = .ok D ∧
      calculateWith hash d' directory' (.text extension) = .ok D' ∧
      (D = D' ↔ ∀ name bytes, extension.toList <:+ name.toList →
        ((name, .file bytes) ∈ entries ↔ (name, .file bytes) ∈ entries')) := by
  have found := files_of_list extension listed
  have found' := files_of_list extension listed'
  rw [hashed_eq found, hashed_eq found'] at free
  refine ⟨_, _, by rw [calculateWith, found], by rw [calculateWith, found'], ?_⟩
  rw [digestWith_eq_iff (free.mono fun _ h => List.mem_append.1 h),
    inOrder_eq_iff (nodup_names_migrations extension distinct)
      (nodup_names_migrations extension distinct')]
  simp only [List.mem_filterMap, migration?_eq_some_iff, Prod.forall]
  refine forall₂_congr fun name bytes => ?_
  by_cases suffix : extension.toList <:+ name.toList
  · simp [suffix]
  · simp [suffix]

/-- A disk with one directory, in which there are these entries. -/
def diskWith (entries : List (String × Entry)) : Disk :=
  ⟨[], (["migrations"], .directory) :: entries.map fun e => (["migrations", e.1], e.2)⟩

/-- The path of that directory. -/
def directoryPath : Path := ⟨.relative, ["migrations"]⟩

/-- Entries are listed in the order in which they are, whatever it is. -/
theorem list_diskWith (entries : List (String × Entry)) :
    (diskWith entries).list directoryPath = .ok entries := by
  have found : (diskWith entries).locate directoryPath = .ok ["migrations"] := rfl
  rw [Disk.list, found, ok_bind]
  simp [diskWith, Disk.entry?, Disk.children, Disk.childName?, List.filterMap_map]

theorem files_diskWith {entries : List (String × Entry)} {extension : String}
    {file : String × ByteArray} (only : entries.filterMap (migration? extension) = [file]) :
    files (diskWith entries) directoryPath (.text extension) = .ok [file] := by
  rw [files_of_list extension (list_diskWith entries), only, inOrder,
    List.mergeSort_singleton]

/-- A migration that creates a table. -/
def creation : String × ByteArray := ("1.py", "create".toUTF8)

/-- The same migration after an edit. -/
def edited : String × ByteArray := ("1.py", "drop".toUTF8)

/-- The entries of a directory with that migration alone. -/
def alone : List (String × Entry) := [("1.py", .file creation.2)]

/-- The entries of a directory that holds the migration among others. -/
def among : List (String × Entry) :=
  [("notes.md", .file edited.2), ("2.py", .directory), ("1.py", .file creation.2)]

/-- The entries of a directory with the edited migration. -/
def afterEdit : List (String × Entry) := [("1.py", .file edited.2)]

/-- SHA-256 tells apart what is hashed for the migration before and after the edit. -/
theorem hash_tells_edit : Set.InjOn Sha256.hash
    {bytes | bytes ∈ hashedFor Sha256.hash [creation] ++ hashedFor Sha256.hash [edited]} := by
  have texts : ((hashedFor Sha256.hash [creation] ++ hashedFor Sha256.hash [edited]).map
      Sha256.hash).Nodup := by decide +kernel
  exact fun x hx y hy same => List.inj_on_of_nodup_map texts hx hy same

/-- Other entries do not change the digest of a migration; an edit of it does. -/
theorem calculateWith_eq_iff_edit :
    calculate (diskWith alone) directoryPath (.text ".py") =
        calculate (diskWith among) directoryPath (.text ".py") ∧
      calculate (diskWith alone) directoryPath (.text ".py") ≠
        calculate (diskWith afterEdit) directoryPath (.text ".py") := by
  have before : files (diskWith alone) directoryPath (.text ".py") = .ok [creation] :=
    files_diskWith rfl
  have beside : files (diskWith among) directoryPath (.text ".py") = .ok [creation] :=
    files_diskWith rfl
  have after : files (diskWith afterEdit) directoryPath (.text ".py") = .ok [edited] :=
    files_diskWith rfl
  constructor
  · have free : Set.InjOn Sha256.hash (hashed Sha256.hash (diskWith alone) directoryPath
        (.text ".py") ∪ hashed Sha256.hash (diskWith among) directoryPath (.text ".py")) := by
      rw [hashed_eq before, hashed_eq beside, Set.union_self]
      exact hash_tells_edit.mono fun _ => List.mem_append_left _
    obtain ⟨D, D', one, other, same⟩ := calculateWith_eq_iff (list_diskWith alone)
      (list_diskWith among) (by decide) (by decide) free
    rw [calculate, calculate, one, other, same.2]
    intro name bytes suffix
    have migration : name ≠ "notes.md" := by
      rintro rfl
      exact absurd suffix (by decide)
    simp [alone, among, migration]
  · have free : Set.InjOn Sha256.hash (hashed Sha256.hash (diskWith alone) directoryPath
        (.text ".py") ∪ hashed Sha256.hash (diskWith afterEdit) directoryPath
          (.text ".py")) := by
      rw [hashed_eq before, hashed_eq after]
      exact hash_tells_edit.mono fun _ h => List.mem_append.2 h
    obtain ⟨D, D', one, other, same⟩ := calculateWith_eq_iff (list_diskWith alone)
      (list_diskWith afterEdit) (by decide) (by decide) free
    rw [calculate, calculate, one, other]
    intro h
    have kept := (same.1 (Except.ok.inj h) "1.py" creation.2 (by decide)).1 (.head _)
    have unchanged : creation.2 = edited.2 := by simpa [afterEdit] using kept
    exact absurd unchanged (by decide)

end Migrations

end Schemata
