/-
Where the files of a family of repositories are.

A family is what repositories that share a cache have in common: the settings, the working
directory, and with them the root of the cache. Its files are in three kinds of places: the
entry of a table is in the directory of its repository, and the marker of a repository is
beside the directories. Where they are does not depend on what is there (`Family.place`), a
marker is never where an entry is (`markerPlace_ne_entryPlace`), and two entries are in one
place only if they are of one table and their repositories have one directory
(`entryPlace_eq_iff`).
-/
import Schemata.Cache.Layout
import Schemata.Proofs.Files.Write

namespace Schemata

/-! ## Texts cut at a character -/

namespace Text

theorem split_of_notMem {sep : Char} {cs : List Char} (h : sep ∉ cs) :
    split sep cs = [cs] := by
  induction cs with
  | nil => rfl
  | cons c cs ih =>
    simp only [List.mem_cons, not_or] at h
    have other : ¬ (c == sep) = true := fun e => h.1 (beq_iff_eq.1 e).symm
    rw [split, if_neg other, ih h.2]

/-- What is appended without the character lands in the last part. -/
theorem split_append {sep : Char} {ds : List Char} (h : sep ∉ ds) (cs : List Char) :
    ∃ front last, split sep (cs ++ ds) = front ++ [last ++ ds] := by
  induction cs with
  | nil => exact ⟨[], [], split_of_notMem h⟩
  | cons c cs ih =>
    obtain ⟨front, last, e⟩ := ih
    rw [List.cons_append, split, e]
    by_cases hc : (c == sep) = true
    · exact ⟨[] :: front, last, by rw [if_pos hc]; rfl⟩
    · rw [if_neg hc]
      cases front with
      | nil => exact ⟨[], c :: last, rfl⟩
      | cons f fs => exact ⟨(c :: f) :: fs, last, rfl⟩

theorem split_cons_of_ne {sep c : Char} (h : c ≠ sep) (cs : List Char) :
    ∃ part parts, split sep cs = part :: parts ∧
      split sep (c :: cs) = (c :: part) :: parts := by
  have other : ¬ (c == sep) = true := fun e => h (beq_iff_eq.1 e)
  cases e : split sep cs with
  | nil => exact absurd e (split_ne_nil sep cs)
  | cons part parts =>
    refine ⟨part, parts, rfl, ?_⟩
    rw [split, if_neg other, e]

/-- A part of a text holds characters of the text in their order, and not the one that it was
cut at. -/
theorem of_mem_split {sep : Char} {cs part : List Char} (h : part ∈ split sep cs) :
    part.Sublist cs ∧ sep ∉ part := by
  induction cs generalizing part with
  | nil =>
    obtain rfl := List.mem_singleton.1 h
    exact ⟨.slnil, List.not_mem_nil⟩
  | cons c cs ih =>
    by_cases same : c = sep
    · rw [split, if_pos (beq_iff_eq.2 same)] at h
      rcases List.mem_cons.1 h with rfl | h
      · exact ⟨List.nil_sublist _, List.not_mem_nil⟩
      · exact ⟨(ih h).1.cons c, (ih h).2⟩
    · obtain ⟨first, rest, e, e'⟩ := split_cons_of_ne same cs
      rw [e'] at h
      rw [e] at ih
      rcases List.mem_cons.1 h with rfl | h
      · obtain ⟨sub, free⟩ := ih (.head _)
        refine ⟨sub.cons_cons c, ?_⟩
        rw [List.mem_cons, not_or]
        exact ⟨Ne.symm same, free⟩
      · obtain ⟨sub, free⟩ := ih (.tail _ h)
        exact ⟨sub.cons c, free⟩

end Text

/-! ## Names in paths -/

namespace Path

/-- A name of one component, which leads one level down. -/
structure IsName (n : String) : Prop where
  part : isPart n = true
  down : n ≠ ".."
  noSlash : '/' ∉ n.toList

theorem rootOf_of_notMem {cs : List Char} (h : '/' ∉ cs) : rootOf cs = .relative := by
  unfold rootOf
  split
  all_goals first
    | rfl
    | exact absurd (by simp) h

theorem below_of_isName {n : String} (h : IsName n) (p : Path) : p.below n = p.child n := by
  have parts : (Text.splitText '/' n).filter isPart = [n] := by
    rw [Text.splitText, Text.split_of_notMem h.noSlash]
    simp [h.part]
  rw [below, ofText, rootOf_of_notMem h.noSlash, parts, join, child]

theorem isPart_append {x suffix : String} (h : 2 ≤ suffix.length) :
    isPart (x ++ suffix) = true := by
  have long : 2 ≤ (x ++ suffix).length := by
    rw [String.length_append]
    omega
  simp only [isPart, Bool.and_eq_true, bne_iff_ne]
  constructor
  · intro e
    rw [e] at long
    exact absurd long (by decide)
  · intro e
    rw [e] at long
    exact absurd long (by decide)

theorem append_ne_up (x : String) {suffix : String} (h : 3 ≤ suffix.length) :
    x ++ suffix ≠ ".." := by
  intro e
  have long := congrArg String.length e
  rw [String.length_append] at long
  have short : "..".length = 2 := by decide
  omega

theorem isName_append {x suffix : String} (hx : '/' ∉ x.toList) (hs : '/' ∉ suffix.toList)
    (h : 3 ≤ suffix.length) : IsName (x ++ suffix) where
  part := isPart_append (Nat.le_of_succ_le h)
  down := append_ne_up x h
  noSlash := by
    rw [String.toList_append, List.mem_append, not_or]
    exact ⟨hx, hs⟩

/-- The last component of a text with an ending has that ending. -/
theorem parts_append {suffix : String} (hs : '/' ∉ suffix.toList) (h : 2 ≤ suffix.length)
    (s : String) :
      ∃ front last, (ofText (s ++ suffix)).parts = front ++ [last ++ suffix] := by
  obtain ⟨front, last, e⟩ := Text.split_append hs s.toList
  have ending : String.ofList (last ++ suffix.toList) = String.ofList last ++ suffix := by
    rw [String.ofList_append, String.ofList_toList]
  refine ⟨(front.map String.ofList).filter isPart, String.ofList last, ?_⟩
  rw [ofText, Text.splitText, String.toList_append, e, List.map_append, List.filter_append,
    List.map_singleton, ending, List.filter_cons_of_pos (isPart_append h), List.filter_nil]

theorem below_of_relative {s : String} (h : (ofText s).root = .relative) (p : Path) :
    p.below s = ⟨p.root, p.parts ++ (ofText s).parts⟩ := by
  rw [below, join, h]

/-- An absolute text leads to one place, below whatever path it is put. -/
theorem below_of_absolute {s : String} (h : (ofText s).root ≠ .relative) (p : Path) :
    p.below s = ofText s := by
  unfold below join
  split
  · contradiction
  · rfl

theorem LeavesHome.append {p : Path} (h : p.LeavesHome) (ps : List String) :
    LeavesHome ⟨p.root, p.parts ++ ps⟩ := by
  rcases h with deep | absolute
  · exact .inl fun e => deep (List.append_eq_nil_iff.1 e).1
  · exact .inr absolute

theorem leavesHome_below {p : Path} (hp : p.LeavesHome) (s : String) :
    (p.below s).LeavesHome := by
  by_cases relative : (ofText s).root = .relative
  · rw [below_of_relative relative]
    exact hp.append _
  · rw [below_of_absolute relative]
    exact .inr relative

/-- Whatever a text leads through, the path of the text with an ending leads to a name with
that ending. -/
theorem below_append {suffix : String} (hs : '/' ∉ suffix.toList) (h : 2 ≤ suffix.length)
    {p : Path} (hp : p.LeavesHome) (s : String) :
    ∃ q n, p.below (s ++ suffix) = child q (n ++ suffix) ∧ q.LeavesHome := by
  obtain ⟨front, last, parts⟩ := parts_append hs h s
  by_cases relative : (ofText (s ++ suffix)).root = .relative
  · refine ⟨⟨p.root, p.parts ++ front⟩, last, ?_, hp.append front⟩
    rw [below_of_relative relative, parts, child, List.append_assoc]
  · refine ⟨⟨(ofText (s ++ suffix)).root, front⟩, last, ?_, .inr relative⟩
    rw [below_of_absolute relative, child, ← parts]

end Path

/-! ## Families -/

/-- Repositories that share a cache: the root of the cache, and the names by which they go
there. -/
structure Family (ι : Type) (s : Settings) (home : Location) where
  repo : ι → Repository
  root : Path
  name : ι → String
  cacheRoot : s.cache.cacheRoot ⟨.slash, home⟩ = .ok root
  shortName : ∀ i, (repo i).shortName = .ok (name i)

/-- A table whose name is no path. -/
def IsTable (t : String) : Prop :=
  '/' ∉ t.toList

instance (t : String) : Decidable (IsTable t) :=
  inferInstanceAs (Decidable ('/' ∉ t.toList))

namespace Family

variable {ι : Type} {s : Settings} {home : Location} (F : Family ι s home) (i j : ι)

/-- The directory of the stored schemas of a repository. -/
def directory : Path :=
  F.root.below (F.name i)

/-- The file of the stored schema of a table. -/
def entry (t : String) : Path :=
  (F.directory i).child (t ++ ".json")

/-- The file of the stored schema of a table, whatever the name of the table is. -/
def file (t : String) : Path :=
  (F.directory i).below (t ++ ".json")

/-- The ending of the name of a marker. -/
def markerEnding : String :=
  "_migrations_digest.txt"

/-- The marker of a repository. -/
def marker : Path :=
  F.root.below (F.name i ++ markerEnding)

theorem isName_entry {t : String} (h : IsTable t) : Path.IsName (t ++ ".json") :=
  Path.isName_append h (by decide) (by decide)

theorem file_eq_entry {t : String} (h : IsTable t) : F.file i t = F.entry i t :=
  Path.below_of_isName (isName_entry h) _

/-- The root of the cache is a directory of a fixed name. -/
theorem exists_root : ∃ p : Path, F.root = p.child CacheSettings.cacheName := by
  obtain ⟨base, -, h⟩ := bind_eq_ok.1 F.cacheRoot
  obtain ⟨environment, -, h⟩ := bind_eq_ok.1 h
  have isName : Path.IsName CacheSettings.cacheName := ⟨by decide, by decide, by decide⟩
  refine ⟨environment, ?_⟩
  rw [← Except.ok.inj h, Path.below_of_isName isName]

theorem leavesHome_root : F.root.LeavesHome := by
  obtain ⟨p, e⟩ := F.exists_root
  rw [e]
  exact p.leavesHome_child _

theorem exists_file (t : String) : ∃ p n, F.file i t = Path.child p n ∧ n ≠ ".." := by
  have ending : '/' ∉ ".json".toList := by decide
  obtain ⟨p, n, e, -⟩ := Path.below_append ending (by decide)
    (Path.leavesHome_below F.leavesHome_root (F.name i)) t
  exact ⟨p, n ++ ".json", e, Path.append_ne_up n (by decide)⟩

/-- The marker is a file below a directory, whatever the name of the repository is. -/
theorem exists_marker :
    ∃ p n, F.marker i = Path.child p (n ++ markerEnding) ∧ p.LeavesHome :=
  Path.below_append (by decide) (by decide) F.leavesHome_root _

/-! ### The paths that the cache uses -/

section Paths

variable {d : Disk} (h : d.home = home)

include h

theorem root_eq : s.cacheRoot d = .ok F.root := by
  rw [Settings.cacheRoot, Disk.homePath, h, F.cacheRoot]

theorem directory_eq : s.repositoryPath (F.repo i) d = .ok (F.directory i) := by
  rw [Settings.repositoryPath, F.root_eq h, F.shortName i]
  rfl

theorem file_eq (t : String) : s.entryPath (F.repo i) (.text t) d = .ok (F.file i t) := by
  rw [Settings.entryPath, F.directory_eq i h]
  rfl

theorem entry_eq {t : String} (ht : IsTable t) :
    s.entryPath (F.repo i) (.text t) d = .ok (F.entry i t) := by
  rw [F.file_eq i h, F.file_eq_entry i ht]

theorem marker_eq : s.markerPath (F.repo i) d = .ok (F.marker i) := by
  rw [Settings.markerPath, F.root_eq h, F.shortName i]
  rfl

theorem storedDigest_eq :
    s.storedDigest (F.repo i) d =
      match d.readText (F.marker i) with
      | .ok text => .ok (some (Text.stripped text))
      | .error (.file _ _) => .ok none
      | .error f => .error f := by
  rw [Settings.storedDigest, F.marker_eq i h]
  rfl

/-- A marker that was read can be reached. -/
theorem reaches_of_storedDigest {D : String}
    (stored : s.storedDigest (F.repo i) d = .ok (some D)) : d.Reaches (F.marker i) := by
  rw [F.storedDigest_eq i h] at stored
  split at stored
  · rename_i text read
    obtain ⟨b, read, -⟩ := bind_eq_ok.1 read
    exact (Disk.hasFile_of_readBytes read).1
  · cases stored
  · cases stored

end Paths

/-! ### Places -/

/-- The place of a path, with the working directory of the family. -/
def place (_ : Family ι s home) (p : Path) : Location :=
  Disk.place ⟨home, []⟩ p

/-- The place of the entry of a table. -/
def entryPlace (t : String) : Location :=
  F.place (F.directory i) ++ [t ++ ".json"]

/-- The place of the marker of a repository. -/
def markerPlace : Location :=
  F.place (F.marker i)

theorem place_eq {d : Disk} (h : d.home = home) (p : Path) : d.place p = F.place p :=
  Disk.place_congr h p

theorem place_file {t : String} (ht : IsTable t) :
    F.place (F.file i t) = F.entryPlace i t := by
  rw [F.file_eq_entry i ht, entry, place, Disk.place_child _ _ (isName_entry ht).down]
  rfl

theorem place_entry {d : Disk} (h : d.home = home) {t : String} (ht : IsTable t) :
    d.place (F.entry i t) = F.entryPlace i t := by
  rw [F.place_eq h, ← F.file_eq_entry i ht, F.place_file i ht]

theorem entryPlace_eq_iff {t u : String} :
    F.entryPlace i t = F.entryPlace j u ↔
      F.place (F.directory i) = F.place (F.directory j) ∧ t = u := by
  constructor
  · intro e
    obtain ⟨places, names⟩ := List.append_inj' e rfl
    exact ⟨places, (String.append_left_inj ".json").1 (List.singleton_inj.1 names)⟩
  · rintro ⟨e, rfl⟩
    rw [entryPlace, e, entryPlace]

/-- A marker is written below a directory, under a name with an ending of its own. -/
theorem exists_markerPlace :
    ∃ p n, F.marker i = Path.child p (n ++ markerEnding) ∧ p.LeavesHome ∧
      n ++ markerEnding ≠ ".." ∧ F.markerPlace i = F.place p ++ [n ++ markerEnding] := by
  obtain ⟨p, n, e, leaves⟩ := F.exists_marker i
  have down : n ++ markerEnding ≠ ".." := Path.append_ne_up n (by decide)
  refine ⟨p, n, e, leaves, down, ?_⟩
  rw [markerPlace, e]
  exact Disk.place_child _ p down

/-- No marker is in the place of an entry, since their names end in different characters. -/
theorem markerPlace_ne_entryPlace (t : String) : F.markerPlace i ≠ F.entryPlace j t := by
  intro clash
  obtain ⟨p, n, -, -, -, place⟩ := F.exists_markerPlace i
  rw [place] at clash
  have ending := (List.append_inj' clash rfl).2
  have chars := congrArg (fun x => x.toList.getLast?) (List.singleton_inj.1 ending)
  have m : (n ++ markerEnding).toList.getLast? = some 't' := by
    rw [String.toList_append, List.getLast?_append,
      show markerEnding.toList.getLast? = some 't' by decide]
    rfl
  have t : (t ++ ".json").toList.getLast? = some 'n' := by
    rw [String.toList_append, List.getLast?_append,
      show ".json".toList.getLast? = some 'n' by decide]
    rfl
  simp only [m, t, Option.some.injEq] at chars
  exact absurd chars (by decide)

section

variable {F} {i : ι} {t : String} {d : Disk} {l : Location} {b c : ByteArray}
  (here : d.home = home)

include here

/-- A write of an entry leaves every other file as it was. -/
theorem hasFile_write_entry_iff (other : l ≠ F.entryPlace i t) :
    (d.write (F.entry i t) b).2.HasFile l c ↔ d.HasFile l c := by
  refine Disk.hasFile_write_iff ?_
  rwa [F.place_eq here]

/-- A write of a marker leaves every other file as it was. -/
theorem hasFile_write_marker_iff (other : l ≠ F.markerPlace i) :
    (d.write (F.marker i) b).2.HasFile l c ↔ d.HasFile l c := by
  obtain ⟨p, n, marker, -, -, place⟩ := F.exists_markerPlace i
  rw [marker]
  refine Disk.hasFile_write_iff ?_
  rwa [F.place_eq here, ← place]

end

/-- Repositories given by identifiers, under default settings and with the top as working
directory. -/
def ofIdentifiers (identifier : ι → String) : Family ι {} [] where
  repo i := .identifier (identifier i)
  root := ⟨.slash, ["tmp", "cache", "dev", CacheSettings.cacheName]⟩
  name i := Repository.lastPart (identifier i)
  cacheRoot := rfl
  shortName _ := rfl

end Family

end Schemata
