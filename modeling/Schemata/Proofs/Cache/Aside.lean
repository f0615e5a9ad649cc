/-
Migrations that lie aside of the cache.

The cache and the migrations are in one tree, and nothing but the settings keeps them apart. A
write to the cache makes the directories on the way to its root, so that migrations above the
root may be there afterwards and not before; and what is in the cache comes and goes with it.
Migrations that lie aside, neither in the cache nor above it (`Family.Aside`), are out of its
reach: an operation on a repository changes the cache, and the way to it
(`Around.keeps_obtain`, `Around.keeps_refresh`), and the digest of the migrations is the same
before and after (`Aside.digest_eq`).

The digest depends on what a directory lists, and not only on what is found at single
locations. So it does not suffice that the entries aside of the cache can still be found: they
are the same, and listed in the same order (`Disk.SameAt`).
-/
import Schemata.Proofs.Cache.Confined
import Schemata.Proofs.Cache.Tended

namespace Schemata

/-! ## Trees that are the same at some locations -/

namespace Disk

/-- Two trees list the same entries, in one order, at the locations that `q` picks. -/
structure SameAt (q : Location → Bool) (d e : Disk) : Prop where
  home : e.home = d.home
  entries : e.entries.filter (fun x => q x.1) = d.entries.filter fun x => q x.1

namespace SameAt

variable {q : Location → Bool} {d e f : Disk} {l : Location}

theorem refl (q : Location → Bool) (d : Disk) : SameAt q d d :=
  ⟨rfl, rfl⟩

theorem trans (h : SameAt q d e) (g : SameAt q e f) : SameAt q d f :=
  ⟨g.home.trans h.home, g.entries.trans h.entries⟩

theorem erase (hl : q l = false) (d : Disk) : SameAt q d (d.erase l) := by
  refine ⟨rfl, ?_⟩
  rw [Disk.erase, List.filter_filter]
  refine List.filter_congr fun x _ => ?_
  by_cases same : x.1 = l
  · simp [same, hl]
  · simp [same]

theorem put (hl : q l = false) (d : Disk) (x : Entry) : SameAt q d (d.put l x) := by
  refine ⟨rfl, ?_⟩
  rw [Disk.put, List.filter_cons_of_neg (by simpa using hl)]
  exact (erase hl d).entries

theorem eraseTree (hl : ∀ m, l <+: m → q m = false) (d : Disk) :
    SameAt q d (d.eraseTree l) := by
  refine ⟨rfl, ?_⟩
  rw [Disk.eraseTree, List.filter_filter]
  refine List.filter_congr fun x _ => ?_
  by_cases below : l <+: x.1
  · simp [hl _ below]
  · have apart : l.isPrefixOf x.1 = false :=
      Bool.eq_false_iff.2 (mt List.isPrefixOf_iff_prefix.1 below)
    simp [apart]

theorem entry? (h : SameAt q d e) {m : Location} (hm : q m = true) :
    e.entry? m = d.entry? m := by
  by_cases top : m = []
  · rw [top]
    rfl
  · have picked (g : Disk) : g.entry? m = (g.entries.filter fun x => q x.1).lookup m := by
      rw [entry?_of_ne top, lookup_filter, if_pos hm]
    rw [picked, picked, h.entries]

theorem children (h : SameAt q d e) (hl : ∀ n, q (l ++ [n]) = true) :
    e.children l = d.children l := by
  have picked (g : Disk) : g.children l =
      (g.entries.filter fun x => q x.1).filterMap fun x =>
        (childName? l x.1).map fun n => (n, x.2) := by
    rw [Disk.children, List.filterMap_filter]
    refine List.filterMap_congr fun x _ => ?_
    by_cases hq : q x.1 = true
    · rw [if_pos hq]
    · -- What is not picked is no child.
      have none : childName? l x.1 = none := by
        unfold childName?
        split
        · rename_i child
          cases last : x.1.getLast? with
          | none => rfl
          | some n =>
            have whole : x.1 = l ++ [n] := by
              rw [← eq_of_beq child, List.dropLast_append_getLast? n last]
            exact absurd (whole ▸ hl n) hq
        · rfl
      rw [if_neg hq, none]
      rfl
  rw [picked, picked, h.entries]

/-! ### Making directories and writing files -/

theorem makeAlong {ps : List String} (down : ".." ∉ ps)
    (hq : ∀ m, l <+: m → m <+: l ++ ps → q m = false) (d : Disk) :
    SameAt q d (d.makeAlong l ps).2 := by
  induction ps generalizing d l with
  | nil => exact .refl q d
  | cons p ps ih =>
    obtain ⟨name, down⟩ := not_or.1 (mt List.mem_cons.2 down)
    unfold Disk.makeAlong
    split
    · exact .refl q d
    · rename_i m first
      have next : m = l ++ [p] := by
        rw [follow_eq_ok first, walk, if_neg (Ne.symm name), walk]
      subst next
      split
      · exact .refl q d
      · rename_i d' made
        have step : SameAt q d d' := by
          unfold makeDirectory at made
          split at made
          · cases made
            exact .refl q d
          · cases made
          · cases made
            exact put
              (hq _ (List.prefix_append _ _) (by simp [List.prefix_append_right_inj])) d _
        refine step.trans (ih down (fun m above below => ?_) d')
        exact hq m ((List.prefix_append _ _).trans above) (by simpa using below)

theorem makeDirectories {p : Path} (down : ".." ∉ p.parts)
    (hq : ∀ m, m <+: d.place p → q m = false) : SameAt q d (d.makeDirectories p).2 := by
  unfold Disk.makeDirectories
  split
  · exact .refl q d
  · split
    · exact .refl q d
    · refine makeAlong down (fun m _ below => hq m ?_) d
      rwa [place, walk_of_notMem down]

theorem write {p : Path} {n : String} (down : ".." ∉ p.parts)
    (hq : ∀ m, m <+: d.place p ++ [n] → q m = false) (b : ByteArray) :
    SameAt q d (d.write (p.child n) b).2 := by
  have made : SameAt q d (d.makeDirectories p).2 :=
    makeDirectories down fun m below => hq m (below.trans (List.prefix_append _ _))
  unfold Disk.write
  rw [Path.parent_child, Path.name_child]
  cases making : d.makeDirectories p with
  | mk r g =>
    rw [making] at made
    cases r with
    | error f => exact made
    | ok l =>
      obtain ⟨-, -, rfl, -⟩ := makeDirectories_eq_ok making
      dsimp only
      split
      · exact made
      · split
        · exact made
        · split
          · exact made
          · exact made.trans (put (hq _ (List.prefix_refl _)) g _)

end SameAt

/-! ## Paths that lead down -/

variable {d e : Disk} {p : Path}

/-- A path that leads down can be followed where the directories on the way are. -/
theorem follow_of_above {l : Location} {ps : List String} (down : ".." ∉ ps)
    (kept : ∀ m, m <+: l ++ ps → d.HasDirectory m → e.HasDirectory m)
    (h : d.follow l ps = .ok (l ++ ps)) : e.follow l ps = .ok (l ++ ps) := by
  induction ps generalizing l with
  | nil => exact h
  | cons p ps ih =>
    obtain ⟨name, down⟩ := not_or.1 (mt List.mem_cons.2 down)
    have isName : (p == "..") = false := by simpa using Ne.symm name
    unfold follow at h ⊢
    split at h
    · cases h
    · cases h
    · rename_i there
      rw [kept l (List.prefix_append _ _) there]
      simp only [isName, Bool.false_eq_true, if_false] at h ⊢
      split at h
      · cases h
      · rename_i short
        rw [if_neg short]
        have whole : l ++ p :: ps = l ++ [p] ++ ps := List.append_cons ..
        rw [whole] at h kept ⊢
        exact ih down kept h

theorem Reaches.of_above (down : ".." ∉ p.parts) (home : e.home = d.home)
    (kept : ∀ m, m <+: d.place p → d.HasDirectory m → e.HasDirectory m) (h : d.Reaches p) :
    e.Reaches p := by
  unfold Reaches at h ⊢
  rw [start_congr home, place_congr home]
  rw [place, walk_of_notMem down] at kept h ⊢
  exact follow_of_above down kept h

/-- Where there is no directory, none is found. -/
theorem isDirectory_of_not (usable : p.IsUsable) (h : ¬ d.HasDirectory (d.place p)) :
    d.isDirectory p = .ok false := by
  rw [isDirectory, entryAt, usable.noNull, find]
  by_cases reaches : d.Reaches p
  · have resolved : d.resolve p = .ok (d.place p) := by
      rw [resolve, if_neg (Nat.not_le.2 usable.short), reaches]
    rw [resolved, ok_bind]
    cases there : d.entry? (d.place p) with
    | none => rfl
    | some x =>
      cases x with
      | directory => exact absurd there h
      | file b => rfl
  · obtain ⟨t, refused, other⟩ := resolve_of_not_reaches usable reaches
    rw [refused]
    cases t with
    | nameTooLong => exact absurd rfl other
    | notFound => rfl
    | notDirectory => rfl
    | isDirectory => rfl

end Disk

/-! ## Migrations aside of the cache -/

namespace Family

variable {ι : Type} {s : Settings} {home : Location} (F : Family ι s home) (i : ι)

/-- A location is neither in the cache nor above it. -/
def isAway (m : Location) : Bool :=
  !(F.place F.root).isPrefixOf m && !m.isPrefixOf (F.place F.root)

/-- The directory of the migrations of a repository is neither in the cache nor above it, and
can be reached if it is there. -/
structure Aside (p : Path) (d : Disk) : Prop where
  path : s.migrationsPath (F.repo i) d = .ok p
  usable : p.IsUsable
  down : ".." ∉ p.parts
  rootDown : ".." ∉ F.root.parts
  away : F.isAway (F.place p) = true
  reached : d.HasDirectory (F.place p) → d.Reaches p

/-- Nothing was changed but the cache, and the way to it. -/
structure Around (d e : Disk) : Prop where
  same : d.SameAt F.isAway e
  kept : ∀ m, ¬ F.place F.root <+: m → d.HasDirectory m → e.HasDirectory m

variable {F} {i : ι} {m : Location} {d e f : Disk}

theorem isAway_eq_true_iff :
    F.isAway m = true ↔ ¬ F.place F.root <+: m ∧ ¬ m <+: F.place F.root := by
  rw [isAway, Bool.and_eq_true, Bool.not_eq_true', Bool.not_eq_true', Bool.eq_false_iff,
    Bool.eq_false_iff, ne_eq, ne_eq, List.isPrefixOf_iff_prefix, List.isPrefixOf_iff_prefix]

theorem isAway_of_inside (h : F.place F.root <+: m) : F.isAway m = false :=
  Bool.eq_false_iff.2 fun away => (isAway_eq_true_iff.1 away).1 h

/-- On the way to what is in the cache nothing is aside of it. -/
theorem isAway_of_prefix {l : Location} (inside : F.place F.root <+: l) (h : m <+: l) :
    F.isAway m = false := by
  refine Bool.eq_false_iff.2 fun away => ?_
  obtain ⟨apart, notAbove⟩ := isAway_eq_true_iff.1 away
  rcases List.prefix_or_prefix_of_prefix inside h with inner | above
  · exact apart inner
  · exact notAbove above

namespace Around

theorem refl (d : Disk) : F.Around d d :=
  ⟨.refl _ d, fun _ _ there => there⟩

theorem trans (h : F.Around d e) (g : F.Around e f) : F.Around d f :=
  ⟨h.same.trans g.same, fun m outside there => g.kept m outside (h.kept m outside there)⟩

theorem eraseTree {l : Location} (inside : F.place F.root <+: l) (d : Disk) :
    F.Around d (d.eraseTree l) where
  same := .eraseTree (fun _ below => isAway_of_inside (inside.trans below)) d
  kept m outside there := by
    by_cases top : m = []
    · rw [top]
      rfl
    · rw [Disk.HasDirectory, Disk.entry?_eraseTree top,
        if_neg fun below => outside (inside.trans below)]
      exact there

theorem erase {l : Location} (inside : F.place F.root <+: l) (d : Disk) :
    F.Around d (d.erase l) where
  same := .erase (isAway_of_inside inside) d
  kept m outside there := by
    by_cases top : m = []
    · rw [top]
      rfl
    · rw [Disk.HasDirectory, Disk.entry?_erase top, if_neg]
      · exact there
      · rintro rfl
        exact outside inside

theorem write {p : Path} {n : String} {b : ByteArray} (here : d.home = home)
    (down : ".." ∉ p.parts) (inside : F.place F.root <+: F.place p) :
    F.Around d (d.write (p.child n) b).2 where
  same := by
    refine .write down (fun m below => ?_) b
    rw [F.place_eq here] at below
    exact isAway_of_prefix (inside.trans (List.prefix_append _ _)) below
  kept _ _ there := Disk.hasDirectory_write there

/-! ### Operations -/

section

variable {d₀ : Disk} (named : F.IsNamed)

include named

theorem cleared (i : ι) (d : Disk) (_ : d.home = home) (h : F.Around d₀ d) :
    F.Around d₀ (d.eraseTree (F.place (F.directory i))) := by
  refine h.trans (eraseTree ?_ d)
  rw [named.place_directory]
  exact List.prefix_append _ _

theorem erased (i : ι) {t : String} (ht : IsTable t) (d : Disk) (b : ByteArray)
    (_ : d.home = home) (h : F.Around d₀ d) (_ : d.HasFile (F.place (F.file i t)) b) :
    F.Around d₀ (d.erase (F.place (F.file i t))) := by
  refine h.trans (erase ?_ d)
  rw [F.place_file i ht, named.entryPlace_eq]
  exact List.prefix_append _ _

variable (rootDown : ".." ∉ F.root.parts)

include rootDown

theorem marked (i : ι) (D : String) (d : Disk) (here : d.home = home) (h : F.Around d₀ d) :
    F.Around d₀ (d.write (F.marker i) D.toUTF8).2 := by
  rw [named.marker_eq]
  exact h.trans (write here rootDown (List.prefix_refl _))

theorem wrote (i : ι) {t : String} (ht : IsTable t) (text : String) (d : Disk)
    (here : d.home = home) (h : F.Around d₀ d) :
    F.Around d₀ (d.write (F.file i t) text.toUTF8).2 := by
  have down : ".." ∉ (F.directory i).parts := by
    rw [named.directory_eq, Path.child, List.mem_append, List.mem_singleton, not_or]
    exact ⟨rootDown, Ne.symm (named.name i).down⟩
  rw [F.file_eq_entry i ht]
  refine h.trans (write here down ?_)
  rw [named.place_directory]
  exact List.prefix_append _ _

theorem keeps_obtain {t : String} (ht : IsTable t) (introspector : Option Introspector) :
    F.Keeps (F.Around d₀) (Cache.obtain s (F.repo i) (.text t) introspector) :=
  .obtain (cleared named i) (marked named rootDown i) (erased named i ht)
    (wrote named rootDown i ht) introspector

theorem keeps_refresh {ts : List String} (hts : ∀ t ∈ ts, IsTable t)
    (introspector : Option Introspector) :
    F.Keeps (F.Around d₀) (Cache.refresh s (F.repo i) (some (ts.map .text)) introspector) :=
  .refresh (cleared named i) (marked named rootDown i) (fun t ht => erased named i (hts t ht))
    (fun t ht => wrote named rootDown i (hts t ht)) introspector

end

end Around

namespace Aside

variable {p : Path} (h : F.Aside i p d)

include h

/-- Migrations that lie aside are as they were where only the cache was changed. -/
theorem digest_eq (around : F.Around d e) (here : d.home = home) :
    s.migrationsDigest (F.repo i) e = s.migrationsDigest (F.repo i) d := by
  have place : d.place p = F.place p := F.place_eq here p
  have place' : e.place p = F.place p := F.place_eq (around.same.home.trans here) p
  have path : s.migrationsPath (F.repo i) e = .ok p := by
    rw [Settings.migrationsPath, Disk.homePath, around.same.home]
    exact h.path
  rw [Settings.migrationsDigest, Settings.migrationsDigest, path, h.path, ok_bind, ok_bind]
  have same : e.entry? (F.place p) = d.entry? (F.place p) := around.same.entry? h.away
  obtain ⟨apart, notAbove⟩ := isAway_eq_true_iff.1 h.away
  by_cases there : d.HasDirectory (F.place p)
  · have houses : d.Houses p := ⟨h.usable, h.reached there, place ▸ there⟩
    have houses' : e.Houses p := by
      refine ⟨h.usable, houses.reaches.of_above h.down around.same.home ?_, ?_⟩
      · -- What is above the migrations is not in the cache, else the migrations were.
        intro m above
        rw [place] at above
        exact around.kept m fun inside => apart (inside.trans above)
      · rw [place']
        exact same.trans there
    have children : e.children (F.place p) = d.children (F.place p) := by
      refine around.same.children fun n =>
        isAway_eq_true_iff.2 ⟨fun inside => ?_, fun above => ?_⟩
      · rcases List.prefix_concat_iff.1 inside with whole | inside
        · exact notAbove (whole ▸ List.prefix_append _ _)
        · exact apart inside
      · exact notAbove ((List.prefix_append _ _).trans above)
    have listed {g : Disk} (g_houses : g.Houses p) :
        g.list p = .ok (g.children (g.place p)) := by
      have found : g.entry? (g.place p) = some .directory := g_houses.there
      rw [Disk.list, Disk.locate_of_reaches g_houses.usable g_houses.reaches, ok_bind, found]
    rw [Migrations.digest, Migrations.digest, houses.isDirectory_eq, houses'.isDirectory_eq,
      Migrations.calculate, Migrations.calculate, Migrations.calculateWith,
      Migrations.calculateWith, Migrations.files, Migrations.files, listed houses,
      listed houses', place, place', children]
  · have nothing : d.isDirectory p = .ok false :=
      Disk.isDirectory_of_not h.usable (place ▸ there)
    have nothing' : e.isDirectory p = .ok false := by
      refine Disk.isDirectory_of_not h.usable fun made => there ?_
      rw [place'] at made
      exact same.symm.trans made
    rw [Migrations.digest, Migrations.digest, nothing, nothing']
    rfl

end Aside

end Family

end Schemata
