/-
What reading and writing a file do to a tree.

A file is written below a directory that is made if it is not there. `Written` is what can be
said of a tree after a write that was not refused: the file is there and can be reached, and
everything else is as in a tree that grew. A write that was refused leaves a tree that grew
(`write_cases`). What is read through a path is the file at the place of the path, and a file
can be read whenever the directories on the way are there (`readBytes_child`).
-/
import Schemata.Proofs.Files.Tree

namespace Schemata

/-! ## Paths of files -/

namespace Path

/-- The path of a name below a path. -/
def child (p : Path) (n : String) : Path :=
  ⟨p.root, p.parts ++ [n]⟩

@[simp] theorem parent_child (p : Path) (n : String) : (p.child n).parent = p := by
  simp [parent, child]

@[simp] theorem name_child (p : Path) (n : String) : (p.child n).name = n := by
  simp [name, child]

theorem child_inj {p q : Path} {n m : String} (h : p.child n = q.child m) :
    p = q ∧ n = m := by
  constructor
  · rw [← parent_child p n, h, parent_child]
  · rw [← name_child p n, h, name_child]

/-- A path that leads away from the working directory. -/
def LeavesHome (p : Path) : Prop :=
  p.parts ≠ [] ∨ p.root ≠ .relative

theorem leavesHome_child (p : Path) (n : String) : (p.child n).LeavesHome :=
  .inl (by simp [child])

/-- A path that the system does not refuse before it looks: it is short enough, and so are its
components, of which none holds a null. -/
structure IsUsable (p : Path) : Prop where
  noNull : p.hasNull = false
  short : p.text.utf8ByteSize < Disk.maxPath
  parts : ∀ s ∈ p.parts, s.utf8ByteSize ≤ Disk.maxName

end Path

namespace Disk

/-- The location that a path leads to, whatever is there. -/
def place (d : Disk) (p : Path) : Location :=
  walk (d.start p.root) p.parts

theorem place_child (d : Disk) (p : Path) {n : String} (h : n ≠ "..") :
    d.place (p.child n) = d.place p ++ [n] := by
  simp [place, Path.child, walk_append, walk, h]

theorem start_congr {d e : Disk} (h : e.home = d.home) (r : Path.Root) :
    e.start r = d.start r := by
  cases r
  · exact h
  · rfl
  · rfl

theorem place_congr {d e : Disk} (h : e.home = d.home) (p : Path) :
    e.place p = d.place p := by
  rw [place, place, start_congr h]

/-- A path can be followed. -/
def Reaches (d : Disk) (p : Path) : Prop :=
  d.follow (d.start p.root) p.parts = .ok (d.place p)

theorem reaches_of_follow {d : Disk} {p : Path} {l : Location}
    (h : d.follow (d.start p.root) p.parts = .ok l) : d.Reaches p ∧ l = d.place p := by
  have e := follow_eq_ok h
  exact ⟨h.trans (congrArg _ e), e⟩

/-- A path to a name can be followed if the path to its directory can, and the directory is
there. -/
theorem reaches_child {d : Disk} {p : Path} {n : String} (h : n ≠ "..") :
    d.Reaches (p.child n) ↔
      d.Reaches p ∧ d.HasDirectory (d.place p) ∧ n.utf8ByteSize ≤ maxName := by
  unfold Reaches
  rw [place_child d p h, Path.child, follow_concat_eq_ok h]
  constructor
  · rintro ⟨k, hk, hd, short, e⟩
    obtain ⟨e, -⟩ := List.append_inj' e rfl
    rw [← e] at hk hd
    exact ⟨hk, hd, short⟩
  · rintro ⟨hk, hd, short⟩
    exact ⟨_, hk, hd, short, rfl⟩

theorem Reaches.mono {d e : Disk} {p : Path} (home : e.home = d.home)
    (kept : ∀ l, d.HasDirectory l → e.HasDirectory l) (h : d.Reaches p) : e.Reaches p := by
  unfold Reaches
  rw [start_congr home, place_congr home]
  exact follow_mono kept h

/-! ## Reading -/

theorem locate_eq_ok {d : Disk} {p : Path} {l : Location} (h : d.locate p = .ok l) :
    d.Reaches p ∧ l = d.place p := by
  unfold locate at h
  split at h
  · cases h
  · unfold resolve at h
    split at h
    · cases h
    · cases followed : d.follow (d.start p.root) p.parts with
      | error t =>
        rw [followed] at h
        cases h
      | ok m =>
        rw [followed] at h
        cases h
        exact reaches_of_follow followed

theorem locate_of_reaches {d : Disk} {p : Path} (usable : p.IsUsable) (h : d.Reaches p) :
    d.locate p = .ok (d.place p) := by
  rw [locate, usable.noNull, resolve, if_neg (Nat.not_le.2 usable.short), h]
  rfl

/-- A usable path that cannot be followed is refused by the system, and not as too long. -/
theorem resolve_of_not_reaches {d : Disk} {p : Path} (usable : p.IsUsable)
    (h : ¬ d.Reaches p) :
    ∃ t, d.resolve p = .error t ∧ t ≠ .nameTooLong := by
  rw [resolve, if_neg (Nat.not_le.2 usable.short)]
  cases followed : d.follow (d.start p.root) p.parts with
  | ok l => exact absurd (reaches_of_follow followed).1 h
  | error t =>
    refine ⟨t, rfl, ?_⟩
    rintro rfl
    exact follow_ne_nameTooLong usable.parts followed

theorem hasFile_of_readBytes {d : Disk} {p : Path} {b : ByteArray}
    (h : d.readBytes p = .ok b) :
    d.Reaches p ∧ d.HasFile (d.place p) b := by
  obtain ⟨l, hl, h⟩ := bind_eq_ok.1 h
  obtain ⟨reaches, rfl⟩ := locate_eq_ok hl
  refine ⟨reaches, ?_⟩
  split at h
  · rename_i file
    rw [HasFile, file, Except.ok.inj h]
  · cases h
  · cases h

theorem readBytes_of_hasFile {d : Disk} {p : Path} {b : ByteArray} (usable : p.IsUsable)
    (reaches : d.Reaches p) (file : d.HasFile (d.place p) b) : d.readBytes p = .ok b := by
  rw [readBytes, locate_of_reaches usable reaches, ok_bind, file]

/-- A file is read again where it stays as it is, and directories stay. -/
theorem readBytes_mono {d e : Disk} {p : Path} {b : ByteArray} (home : e.home = d.home)
    (kept : ∀ l, d.HasDirectory l → e.HasDirectory l)
    (same : d.HasFile (d.place p) b → e.HasFile (d.place p) b) (h : d.readBytes p = .ok b) :
    e.readBytes p = .ok b := by
  obtain ⟨reaches, file⟩ := hasFile_of_readBytes h
  have usable : p.IsUsable := by
    obtain ⟨l, located, -⟩ := bind_eq_ok.1 h
    unfold locate resolve at located
    split at located
    · cases located
    · rename_i noNull
      split at located
      · cases located
      · rename_i short
        exact ⟨by simpa using noNull, Nat.lt_of_not_le short, short_of_follow reaches⟩
  refine readBytes_of_hasFile usable (reaches.mono home kept) ?_
  rw [place_congr home]
  exact same file

theorem readBytes_of_not_reaches {d : Disk} {p : Path} (usable : p.IsUsable)
    (h : ¬ d.Reaches p) : ∃ t, d.readBytes p = .error (.file t p.text) := by
  obtain ⟨t, refused, -⟩ := resolve_of_not_reaches usable h
  refine ⟨t, ?_⟩
  rw [readBytes, locate, usable.noNull, refused]
  rfl

/-- Nothing is at a usable path that cannot be followed. -/
theorem hasEntry_of_not_reaches {d : Disk} {p : Path} (usable : p.IsUsable)
    (h : ¬ d.Reaches p) :
    d.hasEntry p = .ok false := by
  obtain ⟨t, refused, other⟩ := resolve_of_not_reaches usable h
  rw [hasEntry, entryAt, usable.noNull, find, refused]
  cases t with
  | nameTooLong => exact absurd rfl other
  | notFound => rfl
  | notDirectory => rfl
  | isDirectory => rfl

/-! ## Making directories -/

theorem makeDirectory_eq_ok {d e : Disk} {l : Location} (h : d.makeDirectory l = .ok e) :
    Grows d e ∧ e.HasDirectory l := by
  unfold makeDirectory at h
  split at h
  · rename_i there
    cases h
    exact ⟨.refl d, there⟩
  · cases h
  · rename_i absent
    cases h
    have hl : l ≠ [] := by
      rintro rfl
      cases absent
    refine ⟨⟨rfl, ?_, ?_⟩, ?_⟩
    · intro m x hx
      rw [entry?_put hl]
      split
      · rename_i e
        subst e
        rw [absent] at hx
        cases hx
      · exact hx
    · intro m x hx
      rw [entry?_put hl] at hx
      split at hx
      · exact .inr (Option.some.inj hx).symm
      · exact .inl hx
    · rw [HasDirectory, entry?_put hl, if_pos rfl]

theorem makeAlong_grows (d : Disk) (l : Location) (ps : List String) :
    Grows d (d.makeAlong l ps).2 := by
  induction ps generalizing d l with
  | nil => exact .refl d
  | cons p ps ih =>
    unfold makeAlong
    split
    · exact .refl d
    · split
      · exact .refl d
      · rename_i made
        exact (makeDirectory_eq_ok made).1.trans (ih _ _)

/-- Directories that were made along a path can be followed. -/
theorem makeAlong_eq_ok {d e : Disk} {l m : Location} {ps : List String}
    (h : d.makeAlong l ps = (.ok m, e)) :
    e.follow l ps = .ok m ∧ (ps ≠ [] → e.HasDirectory m) := by
  induction ps generalizing d l with
  | nil =>
    cases h
    exact ⟨rfl, fun h => absurd rfl h⟩
  | cons p ps ih =>
    unfold makeAlong at h
    split at h
    · cases h
    · rename_i k first
      split at h
      · cases h
      · rename_i d' made
        obtain ⟨grows, there⟩ := makeDirectory_eq_ok made
        have later := makeAlong_grows d' k ps
        rw [h] at later
        obtain ⟨rest, last⟩ := ih h
        constructor
        · have first' : e.follow l [p] = .ok k :=
            follow_mono (fun _ hd => later.hasDirectory (grows.hasDirectory hd)) first
          rw [← List.singleton_append, follow_append, first']
          exact rest
        · intro _
          cases ps with
          | nil =>
            cases h
            exact there
          | cons q qs => exact last (by simp)

theorem makeDirectories_grows (d : Disk) (p : Path) : Grows d (d.makeDirectories p).2 := by
  unfold makeDirectories
  split
  · exact .refl d
  · split
    · exact .refl d
    · exact makeAlong_grows d _ _

theorem makeDirectories_eq_ok {d e : Disk} {p : Path} {l : Location}
    (h : d.makeDirectories p = (.ok l, e)) :
    p.IsUsable ∧ e.Reaches p ∧ l = d.place p ∧ (p.LeavesHome → e.HasDirectory l) := by
  have grows := makeDirectories_grows d p
  rw [h] at grows
  unfold makeDirectories at h
  split at h
  · cases h
  rename_i noNull
  split at h
  · cases h
  rename_i short
  cases along : d.makeAlong (d.start p.root) p.parts with
  | mk r e' =>
    rw [along] at h
    cases r with
    | error t => cases h
    | ok m =>
      cases h
      obtain ⟨followed, last⟩ := makeAlong_eq_ok along
      have parts := short_of_follow followed
      rw [← grows.start] at followed
      obtain ⟨reaches, place⟩ := reaches_of_follow followed
      refine ⟨⟨by simpa using noNull, Nat.lt_of_not_le short, parts⟩, reaches, ?_, ?_⟩
      · rw [place, place_congr grows.home]
      · rintro (deep | absolute)
        · exact last deep
        · by_cases deep : p.parts = []
          · have top : l = [] := by
              rw [place, Disk.place, deep]
              cases hr : p.root with
              | relative => exact absurd hr absolute
              | slash => rfl
              | doubleSlash => rfl
            rw [top]
            rfl
          · exact last deep

/-! ## Writing -/

/-- A tree after a file of a name was written below a path. -/
structure Written (d : Disk) (p : Path) (n : String) (bytes : ByteArray)
    (e : Disk) : Prop where
  home : e.home = d.home
  usable : (p.child n).IsUsable
  usableParent : p.IsUsable
  reaches : e.Reaches p
  directory : p.LeavesHome → e.HasDirectory (d.place p)
  file : e.HasFile (d.place p ++ [n]) bytes
  free : ¬ d.HasDirectory (d.place p ++ [n])
  kept : ∀ {l : Location} {x : Entry}, l ≠ d.place p ++ [n] → d.entry? l = some x →
    e.entry? l = some x
  fresh : ∀ {l : Location} {x : Entry}, l ≠ d.place p ++ [n] → e.entry? l = some x →
    d.entry? l = some x ∨ x = .directory

namespace Written

variable {d e : Disk} {p : Path} {n : String} {b : ByteArray}

/-- What was written can be reached. -/
theorem reaches_child (h : Written d p n b e) (hp : p.LeavesHome) (hn : n ≠ "..") :
    e.Reaches (p.child n) := by
  rw [Disk.reaches_child hn, place_congr h.home]
  refine ⟨h.reaches, h.directory hp, h.usable.parts n ?_⟩
  simp [Path.child]

/-- A write leaves directories where they are. -/
theorem hasDirectory (h : Written d p n b e) {l : Location} (hd : d.HasDirectory l) :
    e.HasDirectory l := by
  refine h.kept ?_ hd
  rintro rfl
  exact h.free hd

/-- Every file is the one that was written, or was there before. -/
theorem hasFile (h : Written d p n b e) {l : Location} {c : ByteArray} (hf : e.HasFile l c) :
    (l = d.place p ++ [n] ∧ c = b) ∨ d.HasFile l c := by
  by_cases hl : l = d.place p ++ [n]
  · subst hl
    have same := h.file.symm.trans hf
    cases same
    exact .inl ⟨rfl, rfl⟩
  · rcases h.fresh hl hf with hf | hf
    · exact .inr hf
    · cases hf

/-- Every other file is as it was. -/
theorem hasFile_iff (h : Written d p n b e) {l : Location} {c : ByteArray}
    (other : l ≠ d.place p ++ [n]) : e.HasFile l c ↔ d.HasFile l c := by
  constructor
  · intro hf
    rcases h.hasFile hf with ⟨same, -⟩ | hf
    · exact absurd same other
    · exact hf
  · exact fun hf => h.kept other hf

end Written

/-- A write is refused and leaves a tree that grew, or it is done. -/
theorem write_cases (d : Disk) (p : Path) (n : String) (b : ByteArray) :
    (∃ f e, d.write (p.child n) b = (.error f, e) ∧ Grows d e) ∨
      ∃ e, d.write (p.child n) b = (.ok (), e) ∧ Written d p n b e := by
  have grows := makeDirectories_grows d p
  unfold write
  rw [Path.parent_child, Path.name_child]
  cases made : d.makeDirectories p with
  | mk r g =>
    rw [made] at grows
    cases r with
    | error f => exact .inl ⟨f, g, rfl, grows⟩
    | ok l =>
      obtain ⟨usable, reaches, rfl, directory⟩ := makeDirectories_eq_ok made
      by_cases null : (p.child n).hasNull = true
      · exact .inl ⟨.badValue, g, by simp only [if_pos null], grows⟩
      by_cases room : hasRoom (d.place p) (p.child n) = true
      · simp only [if_neg null, room, Bool.not_true, Bool.false_eq_true, if_false]
        by_cases taken : g.HasDirectory (d.place p ++ [n])
        · rw [taken]
          exact .inl ⟨_, _, rfl, grows⟩
        · refine .inr ⟨g.put (d.place p ++ [n]) (.file b), ?_, ?_⟩
          · split
            · rename_i there
              exact absurd there taken
            · rfl
          · have ne : d.place p ++ [n] ≠ [] := by simp
            have other {m : Location} (hm : m ≠ d.place p ++ [n]) :
                entry? (g.put (d.place p ++ [n]) (.file b)) m = g.entry? m := by
              rw [entry?_put ne, if_neg hm]
            have directories : ∀ m, g.HasDirectory m →
                (g.put (d.place p ++ [n]) (.file b)).HasDirectory m := by
              intro m hm
              have apart : m ≠ d.place p ++ [n] := by
                rintro rfl
                exact taken hm
              exact (other apart).trans hm
            simp only [hasRoom, Path.name_child, Bool.and_eq_true, decide_eq_true_eq] at room
            exact {
              home := grows.home
              usable := ⟨by simpa using null, room.1.2, by
                intro s hs
                rcases List.mem_append.1 hs with hs | hs
                · exact usable.parts s hs
                · obtain rfl : s = n := by simpa using hs
                  exact Nat.le_trans (Nat.le_add_right _ _) room.1.1⟩
              usableParent := usable
              reaches := Reaches.mono (d := g) rfl directories reaches
              directory := fun hp => directories _ (directory hp)
              file := by rw [HasFile, entry?_put ne, if_pos rfl]
              free := fun there => taken (grows.hasDirectory there)
              kept := fun hm hx => (other hm).trans (grows.kept hx)
              fresh := fun hm hx => grows.fresh ((other hm).symm.trans hx) }
      · simp only [if_neg null, Bool.not_eq_true] at room ⊢
        rw [room]
        exact .inl ⟨_, _, rfl, grows⟩

section

variable (d : Disk) (p : Path) (n : String) (b : ByteArray)

/-- A write, done or refused, leaves the home directory. -/
theorem home_write : (d.write (p.child n) b).2.home = d.home := by
  rcases d.write_cases p n b with ⟨f, e, w, grows⟩ | ⟨e, w, written⟩
  · rw [w]
    exact grows.home
  · rw [w]
    exact written.home

variable {d p n b} {l : Location}

/-- A write, done or refused, leaves directories where they are. -/
theorem hasDirectory_write (h : d.HasDirectory l) :
    (d.write (p.child n) b).2.HasDirectory l := by
  rcases d.write_cases p n b with ⟨f, e, w, grows⟩ | ⟨e, w, written⟩
  · rw [w]
    exact grows.hasDirectory h
  · rw [w]
    exact written.hasDirectory h

/-- A write, done or refused, leaves every other file as it was. -/
theorem hasFile_write_iff {c : ByteArray} (other : l ≠ d.place p ++ [n]) :
    (d.write (p.child n) b).2.HasFile l c ↔ d.HasFile l c := by
  rcases d.write_cases p n b with ⟨f, e, w, grows⟩ | ⟨e, w, written⟩
  · rw [w]
    exact grows.hasFile_iff
  · rw [w]
    exact written.hasFile_iff other

end

/-! ## Removing -/

/-- A file that was read can be removed. -/
theorem remove_of_readBytes {d : Disk} {p : Path} {b : ByteArray}
    (h : d.readBytes p = .ok b) :
    d.remove p = (.ok (), d.erase (d.place p)) := by
  obtain ⟨l, located, -⟩ := bind_eq_ok.1 h
  obtain ⟨-, rfl⟩ := locate_eq_ok located
  have file := (hasFile_of_readBytes h).2
  rw [HasFile] at file
  rw [remove, located]
  simp only [file]

/-- Removing a file leaves directories where they are. -/
theorem HasFile.hasDirectory_erase {d : Disk} {l m : Location} {b : ByteArray}
    (file : d.HasFile l b) (h : d.HasDirectory m) : (d.erase l).HasDirectory m := by
  cases m with
  | nil => rfl
  | cons p ps =>
    have apart : p :: ps ≠ l := by
      rintro rfl
      rw [HasFile, h] at file
      cases file
    rw [HasDirectory, entry?_erase (by simp), if_neg apart]
    exact h

/-- What a path leads to is at its place. -/
theorem find_eq_ok {d : Disk} {p : Path} {l : Location} {x : Entry}
    (h : d.find p = .ok (l, x)) :
    d.Reaches p ∧ l = d.place p ∧ d.entry? l = some x := by
  obtain ⟨m, resolved, found⟩ := bind_eq_ok.1 h
  unfold resolve at resolved
  split at resolved
  · cases resolved
  · obtain ⟨reaches, rfl⟩ := reaches_of_follow resolved
    split at found
    · rename_i e there
      cases found
      exact ⟨reaches, rfl, there⟩
    · cases found

/-- Where a path leads to a directory, the directory is at its place. -/
theorem find_of_isDirectory {d : Disk} {p : Path} (h : d.isDirectory p = .ok true) :
    d.entryAt p = .ok (some .directory) ∧ d.find p = .ok (d.place p, .directory) := by
  obtain ⟨entry, present, h⟩ := bind_eq_ok.1 h
  have entry : entry = some .directory := by
    split at h
    · rfl
    · cases h
  subst entry
  refine ⟨present, ?_⟩
  unfold entryAt at present
  split at present
  · cases present
  · split at present
    · rename_i l e found
      cases present
      rw [found, (find_eq_ok found).2.1]
    · cases present
    · cases present

/-- Removing a directory leaves the tree as it is, or removes what is at the place of the path
and below it, which was reached as a directory. -/
theorem removeTree_cases (d : Disk) (p : Path) :
    d.removeTree p = d ∨
      (d.Reaches p ∧ d.HasDirectory (d.place p) ∧
        d.removeTree p = d.eraseTree (d.place p)) := by
  unfold removeTree
  split
  · rename_i l found
    obtain ⟨reaches, rfl, there⟩ := find_eq_ok found
    exact .inr ⟨reaches, there, rfl⟩
  · exact .inl rfl

end Disk

end Schemata
