/-
What stays inside the root of a cache.

The paths of a cache are made by putting texts below its root: the short name of a repository,
and then the name of a table. A short name has no dot in it, so that it never leads back up,
but it may be blank, and then the directory of the repository is the root itself; and it may
begin with a slash, and then it leads to one place, wherever the root is. The name of a table
may begin with a slash too, and it may lead back up. All other names lead down from the root
(`confines_directory_iff`, `confines_marker`, `confines_file`).

A call whose paths are all inside spares what is outside: files stay as they are, and the root
stays where it is (`Call.careful`, `Call.spares_runAll`). Nothing spares what is at the
directory of a repository that is not inside. A clearing for a blank name removes the root,
with what is stored for every other repository.
-/
import Schemata.Proofs.Cache.Isolation
import Schemata.Proofs.Cache.Lasting
import Schemata.Proofs.Text.Case

namespace Schemata

/-! ## Short names -/

/-- A short name has no dot in it. -/
theorem Repository.dot_notMem_shortName {r : Repository} {n : String}
    (h : r.shortName = .ok n) :
    '.' ∉ n.toList := by
  have lastPart (s : String) : '.' ∉ (lastPart s).toList := by
    intro dot
    rw [Repository.lastPart, Text.lowercase, String.toList_ofList] at dot
    have dot := Text.Case.mem_of_mem_lowerAfter (by decide +kernel) dot
    cases last : (Text.splitText '.' s).getLast? with
    | none =>
      rw [last] at dot
      exact absurd dot List.not_mem_nil
    | some part =>
      rw [last] at dot
      obtain ⟨cs, mem, rfl⟩ := List.mem_map.1 (List.mem_of_getLast? last)
      rw [Option.getD_some, String.toList_ofList] at dot
      exact (Text.of_mem_split mem).2 dot
  cases r with
  | identifier s => exact Except.ok.inj h ▸ lastPart s
  | object kind name =>
    rw [shortName] at h
    split at h
    · split at h
      · exact Except.ok.inj h ▸ lastPart _
      · cases h
    · exact Except.ok.inj h ▸ lastPart kind

/-! ## Texts that lead down -/

namespace Path

/-- A text writes a path that leads down: it begins where it is put, and nothing in it leads
back up. -/
structure LeadsDown (s : String) : Prop where
  relative : (ofText s).root = .relative
  down : ".." ∉ (ofText s).parts

instance (s : String) : Decidable (LeadsDown s) :=
  decidable_of_iff ((ofText s).root = .relative ∧ ".." ∉ (ofText s).parts)
    ⟨fun h => ⟨h.1, h.2⟩, fun h => ⟨h.1, h.2⟩⟩

theorem rootOf_cons_of_ne {c : Char} (h : c ≠ '/') (cs : List Char) :
    rootOf (c :: cs) = .relative := by
  unfold rootOf
  split <;> simp_all

theorem rootOf_slash (cs : List Char) : rootOf ('/' :: cs) ≠ .relative := by
  unfold rootOf
  split <;> simp_all

theorem relative_iff {s : String} :
    (ofText s).root = .relative ↔ s.toList.head? ≠ some '/' := by
  rw [ofText]
  cases s.toList with
  | nil => exact iff_of_true rfl (by simp)
  | cons c cs =>
    rw [List.head?_cons, ne_eq, Option.some.injEq]
    by_cases slash : c = '/'
    · rw [slash]
      exact iff_of_false (rootOf_slash cs) fun other => other rfl
    · exact iff_of_true (rootOf_cons_of_ne slash cs) slash

/-- An ending that is not absolute makes no difference to where a text begins. -/
theorem relative_append_iff {s suffix : String} (h : (ofText suffix).root = .relative) :
    (ofText (s ++ suffix)).root = .relative ↔ (ofText s).root = .relative := by
  rw [relative_iff] at h
  rw [relative_iff, relative_iff, String.toList_append]
  cases s.toList with
  | nil => simpa using h
  | cons c cs => rfl

/-- One dot alone does not lead back up. -/
theorem down_of_count {s : String} (h : s.toList.count '.' ≤ 1) :
    ".." ∉ (ofText s).parts := by
  intro up
  obtain ⟨cs, mem, e⟩ := List.mem_map.1 (List.mem_filter.1 up).1
  have dots := (Text.of_mem_split mem).1.count_le '.'
  obtain rfl : cs = ['.', '.'] := by rw [← String.toList_ofList (l := cs), e]; rfl
  exact absurd (Nat.le_trans dots h) (by decide)

theorem parts_ne_nil {s : String} (relative : (ofText s).root = .relative) (nonblank : s ≠ "")
    (h : '.' ∉ s.toList) : (ofText s).parts ≠ [] := by
  cases e : s.toList with
  | nil => exact absurd (String.toList_eq_nil_iff.1 e) nonblank
  | cons c cs =>
    have slash : c ≠ '/' := by
      rintro rfl
      exact relative_iff.1 relative (by rw [e]; rfl)
    obtain ⟨part, parts, -, split⟩ := Text.split_cons_of_ne slash cs
    have isPart : isPart (String.ofList (c :: part)) = true := by
      rw [Path.isPart, Bool.and_eq_true, bne_iff_ne, bne_iff_ne]
      constructor
      · intro blank
        have chars := congrArg String.toList blank
        rw [String.toList_ofList] at chars
        cases chars
      · intro dot
        have chars := congrArg String.toList dot
        rw [String.toList_ofList] at chars
        obtain rfl : c = '.' := (List.cons.inj chars).1
        exact h (e ▸ .head _)
    rw [ofText, Text.splitText, e, split, List.map_cons, List.filter_cons_of_pos isPart]
    exact List.cons_ne_nil _ _

end Path

namespace Disk

theorem walk_of_notMem {l : Location} {ps : List String} (h : ".." ∉ ps) :
    walk l ps = l ++ ps := by
  induction ps generalizing l with
  | nil => exact (List.append_nil l).symm
  | cons p ps ih =>
    rw [List.mem_cons, not_or] at h
    rw [walk, if_neg (Ne.symm h.1), ih h.2, List.append_assoc, List.singleton_append]

theorem place_below_of_relative {s : String} (h : (Path.ofText s).root = .relative) (d : Disk)
    (p : Path) : d.place (p.below s) = walk (d.place p) (Path.ofText s).parts := by
  rw [Path.below_of_relative h, place, walk_append, place]

theorem place_below {s : String} (h : Path.LeadsDown s) (d : Disk) (p : Path) :
    d.place (p.below s) = d.place p ++ (Path.ofText s).parts := by
  rw [place_below_of_relative h.relative, walk_of_notMem h.down]

end Disk

/-! ## Paths of a family -/

namespace Family

variable {ι : Type} {s : Settings} {home : Location} (F : Family ι s home) (i : ι)

/-- A location is inside the cache: the root is above it. -/
def Contains (l : Location) : Prop :=
  F.place F.root <+: l ∧ l ≠ F.place F.root

/-- A path leads into the cache, and not to its root. -/
def Confines (p : Path) : Prop :=
  F.Contains (F.place p)

instance (l : Location) : Decidable (F.Contains l) :=
  inferInstanceAs (Decidable (F.place F.root <+: l ∧ l ≠ F.place F.root))

instance (p : Path) : Decidable (F.Confines p) :=
  inferInstanceAs (Decidable (F.Contains (F.place p)))

theorem contains_append_iff {ps : List String} :
    F.Contains (F.place F.root ++ ps) ↔ ps ≠ [] := by
  rw [Contains, ne_eq, List.append_right_eq_self]
  exact and_iff_right (List.prefix_append _ _)

variable {F} in
theorem Contains.of_prefix {l m : Location} (h : F.Contains l) (below : l <+: m) :
    F.Contains m := by
  refine ⟨h.1.trans below, ?_⟩
  rintro rfl
  exact h.2 (h.1.eq_of_length_le below.length_le).symm

theorem dot_notMem_name : '.' ∉ (F.name i).toList :=
  Repository.dot_notMem_shortName (F.shortName i)

theorem directory_of_blank {i : ι} (h : F.name i = "") : F.directory i = F.root := by
  have nothing : Path.ofText "" = ⟨.relative, []⟩ := rfl
  rw [directory, h, Path.below_of_relative (by rw [nothing]), nothing, List.append_nil]

section

variable {i} (relative : (Path.ofText (F.name i)).root = .relative)

include relative

theorem leadsDown_name : Path.LeadsDown (F.name i) where
  relative := relative
  down := Path.down_of_count
    (by rw [List.count_eq_zero.2 (F.dot_notMem_name i)]; exact Nat.zero_le 1)

theorem place_directory :
    F.place (F.directory i) = F.place F.root ++ (Path.ofText (F.name i)).parts :=
  Disk.place_below (F.leadsDown_name relative) _ _

/-- The directory of a repository is inside the cache unless the name of the repository is
blank. -/
theorem confines_directory_iff : F.Confines (F.directory i) ↔ F.name i ≠ "" := by
  rw [Confines, F.place_directory relative, contains_append_iff]
  constructor
  · intro parts blank
    rw [blank] at parts
    exact parts rfl
  · exact fun nonblank => Path.parts_ne_nil relative nonblank (F.dot_notMem_name i)

theorem confines_marker : F.Confines (F.marker i) := by
  have leads : Path.LeadsDown (F.name i ++ markerEnding) := by
    constructor
    · exact (Path.relative_append_iff (by decide)).2 relative
    · refine Path.down_of_count ?_
      rw [String.toList_append, List.count_append, List.count_eq_zero.2 (F.dot_notMem_name i)]
      decide
  have ending : '/' ∉ markerEnding.toList := by decide
  obtain ⟨front, last, parts⟩ := Path.parts_append ending (by decide) (F.name i)
  rw [Confines, marker, place, Disk.place_below leads, parts]
  exact F.contains_append_iff.2 (by simp)

theorem confines_file {t : String} (h : Path.LeadsDown (t ++ ".json")) :
    F.Confines (F.file i t) := by
  have ending : '/' ∉ ".json".toList := by decide
  obtain ⟨front, last, parts⟩ := Path.parts_append ending (by decide) t
  have place : F.place (F.file i t) =
      F.place F.root ++ ((Path.ofText (F.name i)).parts ++ (front ++ [last ++ ".json"])) := by
    rw [← List.append_assoc, ← F.place_directory relative, ← parts]
    exact Disk.place_below h _ _
  rw [Confines, place]
  exact F.contains_append_iff.2 (by simp)

end

/-! ### Files outside -/

/-- What is not inside the cache is as it was, but for directories that were made. -/
structure Spares (d e : Disk) : Prop where
  home_eq : e.home = home
  kept : ∀ {l x}, ¬ F.Contains l → d.entry? l = some x → e.entry? l = some x
  fresh : ∀ {l x}, ¬ F.Contains l → e.entry? l = some x → d.entry? l = some x ∨ x = .directory

namespace Spares

variable {F} {d e f : Disk}

theorem refl (here : d.home = home) : F.Spares d d :=
  ⟨here, fun _ => id, fun _ => .inl⟩

theorem trans (h : F.Spares d e) (g : F.Spares e f) : F.Spares d f where
  home_eq := g.home_eq
  kept outside hx := g.kept outside (h.kept outside hx)
  fresh outside hx := by
    rcases g.fresh outside hx with hx | hx
    · exact h.fresh outside hx
    · exact .inr hx

theorem of_grows (here : d.home = home) (grows : d.Grows e) : F.Spares d e :=
  ⟨grows.home.trans here, fun _ => grows.kept, fun _ => grows.fresh⟩

theorem write {p : Path} {n : String} (here : d.home = home) (down : n ≠ "..")
    (inside : F.Confines (p.child n)) (b : ByteArray) :
      F.Spares d (d.write (p.child n) b).2 := by
  rcases d.write_cases p n b with ⟨f, e, w, grows⟩ | ⟨e, w, written⟩
  · rw [w]
    exact of_grows here grows
  · rw [w]
    have other {l : Location} (outside : ¬ F.Contains l) : l ≠ d.place p ++ [n] := by
      rw [← Disk.place_child _ _ down, F.place_eq here]
      rintro rfl
      exact outside inside
    exact ⟨written.home.trans here, fun outside => written.kept (other outside),
      fun outside => written.fresh (other outside)⟩

/-- Where only what is inside is removed, what is outside is spared. -/
theorem of_same (here : e.home = home)
    (same : ∀ l, ¬ F.Contains l → e.entry? l = d.entry? l) :
    F.Spares d e where
  home_eq := here
  kept outside hx := (same _ outside).trans hx
  fresh outside hx := .inl ((same _ outside).symm.trans hx)

theorem eraseTree {l : Location} (here : d.home = home) (inside : F.Contains l) :
    F.Spares d (d.eraseTree l) := by
  refine of_same here fun m outside => ?_
  by_cases top : m = []
  · rw [top]
    rfl
  · rw [Disk.entry?_eraseTree top, if_neg]
    exact fun below => outside (inside.of_prefix below)

theorem erase {l : Location} (here : d.home = home) (inside : F.Contains l) :
    F.Spares d (d.erase l) := by
  refine of_same here fun m outside => ?_
  by_cases top : m = []
  · rw [top]
    rfl
  · rw [Disk.entry?_erase top, if_neg]
    rintro rfl
    exact outside inside

section

-- The changes that operations make, where their paths are inside.
variable {d₀ : Disk} {i : ι} {t : String}

theorem cleared (inside : F.Confines (F.directory i)) (d : Disk) (here : d.home = home)
    (h : F.Spares d₀ d) : F.Spares d₀ (d.eraseTree (F.place (F.directory i))) :=
  h.trans (eraseTree here inside)

theorem marked (inside : F.Confines (F.marker i)) (D : String) (d : Disk)
    (here : d.home = home)
    (h : F.Spares d₀ d) : F.Spares d₀ (d.write (F.marker i) D.toUTF8).2 := by
  refine h.trans ?_
  obtain ⟨p, n, path, -, down, -⟩ := F.exists_markerPlace i
  rw [path] at inside ⊢
  exact write here down inside _

theorem erased (inside : F.Confines (F.file i t)) (d : Disk) (b : ByteArray)
    (here : d.home = home) (h : F.Spares d₀ d) (_ : d.HasFile (F.place (F.file i t)) b) :
    F.Spares d₀ (d.erase (F.place (F.file i t))) :=
  h.trans (erase here inside)

theorem wrote (inside : F.Confines (F.file i t)) (text : String) (d : Disk)
    (here : d.home = home)
    (h : F.Spares d₀ d) : F.Spares d₀ (d.write (F.file i t) text.toUTF8).2 := by
  refine h.trans ?_
  obtain ⟨p, n, path, down⟩ := F.exists_file i t
  rw [path] at inside ⊢
  exact write here down inside _

end

/-- Every file outside is as it was. -/
theorem hasFile_iff (h : F.Spares d e) {l : Location} {b : ByteArray}
    (outside : ¬ F.Contains l) :
    e.HasFile l b ↔ d.HasFile l b := by
  constructor
  · intro file
    rcases h.fresh outside file with file | file
    · exact file
    · cases file
  · exact h.kept outside

end Spares

/-! ### Careful operations -/

/-- An operation that spares what is outside of the cache. -/
def Careful {α : Type} (m : Caching α) : Prop :=
  ∀ d, Ensures (fun σ => F.Spares d σ.disk) m (fun _ σ => F.Spares d σ.disk)
    fun σ => F.Spares d σ.disk

variable {F}

theorem careful_of_keeps {α : Type} {m : Caching α} (h : ∀ d, F.Keeps (F.Spares d) m) :
    F.Careful m :=
  fun d => (h d).weaken (fun _ before => ⟨before.home_eq, before⟩) (fun _ _ after => after.2)
    fun _ after => after.2

theorem Careful.spares {α : Type} {m : Caching α} (h : F.Careful m) {σ : Store}
    (here : σ.disk.home = home) : F.Spares σ.disk (m σ).2.disk :=
  (h σ.disk).state (.refl here)

end Family

/-! ## Sequences of calls -/

/-- A call of a cache: an operation, a lookup that falls back on an empty schema, or a store
for a given digest. -/
inductive Call (ι : Type) where
  | operation (op : Operation ι)
  | lookupOrEmpty (i : ι) (table : String)
  | storeFor (i : ι) (table : String) (schema : Schema) (digest : String)

namespace Call

variable {ι : Type} {s : Settings} {home : Location} (F : Family ι s home)

/-- The call on the files. -/
def run (s : Settings) (repo : ι → Repository) : Call ι → Caching Unit
  | operation op => op.run s repo
  | lookupOrEmpty i t => (fun _ => ()) <$> Cache.lookupOrEmpty s (repo i) (.text t)
  | storeFor i t schema digest => Cache.store s (repo i) (.text t) schema (some digest)

/-- Calls one after the other. A call that fails leaves the files as far as it came. -/
def runAll (s : Settings) (repo : ι → Repository) (calls : List (Call ι)) (σ : Store) :
    Store :=
  calls.foldl (fun σ call => (call.run s repo σ).2) σ

/-- The paths that a call removes or writes. -/
def paths : Call ι → List Path
  | operation (.lookup i t) | operation (.obtain i t _) | lookupOrEmpty i t =>
    [F.directory i, F.marker i, F.file i t]
  | operation (.put i t _) | storeFor i t _ _ => [F.marker i, F.file i t]
  | operation (.warmUp i ts _) | operation (.refresh i (some ts) _) =>
    F.directory i :: F.marker i :: ts.map (F.file i)
  | operation (.refresh i none _) | operation (.clear i) => [F.directory i]
  | operation .clearAll => [F.root]

variable {F}

theorem not_confines_root : ¬ F.Confines F.root :=
  fun inside => inside.2 rfl

/-- A call whose paths are inside of the cache spares what is outside. -/
theorem careful (call : Call ι) (inside : ∀ p ∈ call.paths F, F.Confines p) :
    F.Careful (call.run s F.repo) := by
  refine Family.careful_of_keeps fun d₀ => ?_
  match call with
  | operation (.lookup i t) =>
    simp only [paths, List.forall_mem_cons] at inside
    obtain ⟨directory, marker, file, -⟩ := inside
    exact .map _ (.lookup (.cleared directory) (.marked marker) (.erased file))
  | operation (.obtain i t introspector) =>
    simp only [paths, List.forall_mem_cons] at inside
    obtain ⟨directory, marker, file, -⟩ := inside
    exact .map _ (.obtain (.cleared directory) (.marked marker) (.erased file) (.wrote file)
      introspector)
  | lookupOrEmpty i t =>
    simp only [paths, List.forall_mem_cons] at inside
    obtain ⟨directory, marker, file, -⟩ := inside
    exact .map _ (.lookupOrEmpty (.cleared directory) (.marked marker) (.erased file))
  | operation (.put i t schema) =>
    simp only [paths, List.forall_mem_cons] at inside
    obtain ⟨marker, file, -⟩ := inside
    show F.Keeps _ (Cache.store s (F.repo i) (.text t) schema none)
    exact .store (.wrote file) (fun E _ => .marked marker E) schema
  | storeFor i t schema digest =>
    simp only [paths, List.forall_mem_cons] at inside
    obtain ⟨marker, file, -⟩ := inside
    exact .store (.wrote file) (fun E _ => .marked marker E) schema
  | operation (.warmUp i ts introspector) =>
    simp only [paths, List.forall_mem_cons, List.forall_mem_map] at inside
    obtain ⟨directory, marker, files⟩ := inside
    exact .map _ (.warmUp (.cleared directory) (.marked marker)
      (fun t ht => .erased (files t ht)) (fun t ht => .wrote (files t ht)) introspector)
  | operation (.refresh i (some ts) introspector) =>
    simp only [paths, List.forall_mem_cons, List.forall_mem_map] at inside
    obtain ⟨directory, marker, files⟩ := inside
    exact .map _ (.refresh (.cleared directory) (.marked marker)
      (fun t ht => .erased (files t ht)) (fun t ht => .wrote (files t ht)) introspector)
  | operation (.refresh i none introspector) =>
    simp only [paths, List.forall_mem_cons] at inside
    exact .map _ (.bind (.clearRepository (.cleared inside.1)) fun _ => .pure [])
  | operation (.clear i) =>
    simp only [paths, List.forall_mem_cons] at inside
    exact .clearRepository (.cleared inside.1)
  | operation .clearAll => exact absurd (inside _ (.head _)) not_confines_root

/-- So do all calls of a sequence together. -/
theorem spares_runAll {calls : List (Call ι)} {σ : Store} (here : σ.disk.home = home)
    (inside : ∀ call ∈ calls, ∀ p ∈ call.paths F, F.Confines p) :
    F.Spares σ.disk (runAll s F.repo calls σ).disk := by
  induction calls generalizing σ with
  | nil => exact .refl here
  | cons call calls ih =>
    have first := (call.careful (inside call (.head _))).spares here
    exact first.trans (ih first.home_eq fun other later => inside other (.tail _ later))

end Call

namespace Family

variable {ι : Type} {s : Settings} {home : Location}

/-- A repository whose name does not begin with a slash has its directory inside of the cache
unless its name is blank, and then its directory is the root; its marker is inside in either
case, and so are its entries for all tables whose names lead down. The entry of any other
table is where its name leads from the directory, up and down. A name of a repository or a
table that begins with a slash leads to one place, wherever the root is. Calls whose paths are
inside leave the root and every file outside as they are; and whatever the directory of a
repository is, a clearing that finds it removes all that is there. -/
theorem confinement (F : Family ι s home) :
    (∀ i d, d.home = home → s.repositoryPath (F.repo i) d = .ok (F.directory i) ∧
      s.markerPath (F.repo i) d = .ok (F.marker i) ∧
      ∀ t, s.entryPath (F.repo i) (.text t) d = .ok (F.file i t)) ∧
    (∀ i, (Path.ofText (F.name i)).root = .relative →
      (F.Confines (F.directory i) ↔ F.name i ≠ "") ∧ F.Confines (F.marker i) ∧
      ∀ t, Path.LeadsDown (t ++ ".json") → F.Confines (F.file i t)) ∧
    (∀ i, F.name i = "" → F.directory i = F.root) ∧
    (∀ i, (Path.ofText (F.name i)).root ≠ .relative →
      F.directory i = .ofText (F.name i) ∧ F.marker i = .ofText (F.name i ++ markerEnding)) ∧
    (∀ i t, (Path.ofText t).root = .relative → F.place (F.file i t) =
      Disk.walk (F.place (F.directory i)) (Path.ofText (t ++ ".json")).parts) ∧
    (∀ i t, (Path.ofText t).root ≠ .relative → F.file i t = .ofText (t ++ ".json")) ∧
    (∀ calls σ, σ.disk.home = home → (∀ call ∈ calls, ∀ p ∈ Call.paths F call, F.Confines p) →
      F.Spares σ.disk (Call.runAll s F.repo calls σ).disk) ∧
    ∀ i σ, σ.disk.home = home → σ.disk.isDirectory (F.directory i) = .ok true →
      ∀ l, l ≠ [] → F.place (F.directory i) <+: l →
        (Cache.clearRepository s (F.repo i) σ).2.disk.entry? l = none := by
  refine ⟨?_, ?_, ?_, ?_, ?_, ?_, ?_, ?_⟩
  · exact fun i d here => ⟨F.directory_eq i here, F.marker_eq i here, F.file_eq i here⟩
  · intro i relative
    exact ⟨F.confines_directory_iff relative, F.confines_marker relative,
      fun t leads => F.confines_file relative leads⟩
  · exact fun i blank => F.directory_of_blank blank
  · intro i absolute
    exact ⟨Path.below_of_absolute absolute _,
      Path.below_of_absolute (mt (Path.relative_append_iff (by decide)).1 absolute) _⟩
  · intro i t relative
    exact Disk.place_below_of_relative ((Path.relative_append_iff (by decide)).2 relative) _ _
  · intro i t absolute
    exact Path.below_of_absolute (mt (Path.relative_append_iff (by decide)).1 absolute) _
  · exact fun calls σ here inside => Call.spares_runAll here inside
  · intro i σ here there l nonempty below
    rw [Cache.run_clearRepository here there]
    exact (Disk.entry?_eraseTree nonempty _ _).trans (if_pos below)

/-- Two repositories, one of which has a blank name. -/
def namedAndBlank : Family Bool {} [] :=
  .ofIdentifiers fun blank => if blank then "MyApp." else "MyApp.Repo"

/-- Notes beside the cache, which is not there yet. -/
def notes : Store where
  disk := ⟨[], [(["notes.txt"], .file "one".toUTF8)]⟩

/-- Calls on the repository that has a name leave the notes as they are. The directory of the
other one is not inside of the cache. -/
theorem confinement_namedAndBlank :
    (namedAndBlank.Confines (namedAndBlank.directory false) ∧
      ¬ namedAndBlank.Confines (namedAndBlank.directory true)) ∧
    (Call.runAll {} namedAndBlank.repo [.operation (.put false "users" (.empty "users")),
      .operation (.lookup false "users"), .operation (.clear false)] notes).disk.HasFile
      ["notes.txt"] "one".toUTF8 := by
  obtain ⟨-, inside, -, -, -, -, calls, -⟩ := namedAndBlank.confinement
  refine ⟨⟨(inside false (by decide)).1.2 (by decide), ?_⟩, ?_⟩
  · exact fun there => (inside true (by decide)).1.1 there (by decide)
  · refine ((calls _ notes rfl ?_).hasFile_iff ?_).2 rfl
    · decide
    · decide

/-- A clearing of a repository with a blank name removes the root of the cache, and with it
what is stored for other repositories. -/
theorem not_confined_blankName :
    Settings.repositoryPath {} (.identifier "MyApp.") Reached.storedOnce.store.disk =
      Settings.cacheRoot {} Reached.storedOnce.store.disk ∧
    Reached.storedOnce.store.disk.HasDirectory (namedAndBlank.place namedAndBlank.root) ∧
    (∃ b,
      Reached.storedOnce.store.disk.HasFile (Reached.twoNames.entryPlace false "users") b) ∧
    ∀ l, namedAndBlank.place namedAndBlank.root <+: l →
      (Cache.clearRepository {} (.identifier "MyApp.") Reached.storedOnce.store).2.disk.entry?
        l = none := by
  have here : Reached.storedOnce.store.disk.home = [] := rfl
  have there : Reached.storedOnce.store.disk.isDirectory (namedAndBlank.directory true) =
      .ok true := rfl
  refine ⟨rfl, rfl, ⟨_, rfl⟩, fun l below => ?_⟩
  have nonempty : l ≠ [] := by
    rintro rfl
    exact absurd below (by decide)
  have cleared :
      Cache.clearRepository {} (.identifier "MyApp.") Reached.storedOnce.store = _ :=
    Cache.run_clearRepository here there
  rw [cleared]
  exact (Disk.entry?_eraseTree nonempty _ _).trans (if_pos below)

end Family

end Schemata
