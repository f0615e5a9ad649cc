/-
Where a path leads, and trees that grow.

There are no links in a tree, so that a path that can be followed leads where its components
say: `walk` reads them without looking at a tree, and `follow_eq_ok` says that a tree only
decides whether a path can be followed. A tree grows when directories are made in it
(`Grows`): what could be followed before can be followed after, and no file is made, changed
or removed.
-/
import Schemata.Files.Disk
import Schemata.Proofs.Steps

namespace Schemata

namespace Disk

/-! ## Entries -/

/-- There is a directory at a location. -/
def HasDirectory (d : Disk) (l : Location) : Prop :=
  d.entry? l = some .directory

/-- There is a file at a location. -/
def HasFile (d : Disk) (l : Location) (bytes : ByteArray) : Prop :=
  d.entry? l = some (.file bytes)

@[simp] theorem entry?_nil (d : Disk) : d.entry? [] = some .directory := rfl

theorem entry?_of_ne {l : Location} (h : l ≠ []) (d : Disk) :
    d.entry? l = d.entries.lookup l := by
  cases l with
  | nil => exact absurd rfl h
  | cons p ps => rfl

theorem HasFile.ne_nil {d : Disk} {l : Location} {b : ByteArray} (h : d.HasFile l b) :
    l ≠ [] := by
  rintro rfl
  cases h

/-- Looking up among the pairs with certain keys. -/
theorem lookup_filter (p : Location → Bool) (xs : List (Location × Entry)) (m : Location) :
    (xs.filter fun x => p x.1).lookup m = if p m then xs.lookup m else none := by
  induction xs with
  | nil => simp
  | cons x xs ih =>
    obtain ⟨l, e⟩ := x
    rw [List.filter_cons, List.lookup_cons]
    by_cases hm : m = l
    · subst hm
      by_cases hp : p m = true
      · simp [hp]
      · simp [hp, ih]
    · have hne : (m == l) = false := by simpa using hm
      by_cases hp : p l = true
      · rw [if_pos hp, List.lookup_cons, hne, ih]
      · rw [if_neg hp, ih, hne]

theorem entry?_put {l : Location} (h : l ≠ []) (d : Disk) (e : Entry) (m : Location) :
    entry? (d.put l e) m = if m = l then some e else d.entry? m := by
  cases m with
  | nil => simp [h.symm]
  | cons p ps =>
    have unchanged := lookup_filter (fun x => x != l) d.entries (p :: ps)
    by_cases hm : p :: ps = l
    · rw [if_pos hm, entry?_of_ne (by simp), put, List.lookup_cons, beq_iff_eq.2 hm]
    · rw [if_neg hm, entry?_of_ne (by simp), entry?_of_ne (by simp), put, List.lookup_cons,
        beq_eq_false_iff_ne.2 hm, unchanged, if_pos (by simpa using hm)]

theorem entry?_erase {m : Location} (h : m ≠ []) (d : Disk) (l : Location) :
    entry? (d.erase l) m = if m = l then none else d.entry? m := by
  rw [entry?_of_ne h, entry?_of_ne h, erase, lookup_filter fun x => x != l]
  by_cases hm : m = l <;> simp [hm]

theorem entry?_eraseTree {m : Location} (h : m ≠ []) (d : Disk) (l : Location) :
    entry? (d.eraseTree l) m = if l <+: m then none else d.entry? m := by
  rw [entry?_of_ne h, entry?_of_ne h, eraseTree, lookup_filter fun x => !l.isPrefixOf x]
  by_cases hm : l <+: m
  · rw [if_pos hm, if_neg (by simpa using hm)]
  · have apart : l.isPrefixOf m = false :=
      Bool.eq_false_iff.2 (mt List.isPrefixOf_iff_prefix.1 hm)
    rw [if_neg hm, apart]
    rfl

theorem HasFile.of_erase {d : Disk} {l m : Location} {b : ByteArray}
    (h : (d.erase l).HasFile m b) :
    m ≠ l ∧ d.HasFile m b := by
  have file := h
  rw [HasFile, entry?_erase h.ne_nil] at file
  split at file
  · cases file
  · rename_i apart
    exact ⟨apart, file⟩

theorem HasFile.of_eraseTree {d : Disk} {l m : Location} {b : ByteArray}
    (h : (d.eraseTree l).HasFile m b) : ¬ l <+: m ∧ d.HasFile m b := by
  have file := h
  rw [HasFile, entry?_eraseTree h.ne_nil] at file
  split at file
  · cases file
  · rename_i apart
    exact ⟨apart, file⟩

/-! ## Following a path -/

/-- The location that components lead to from a location, whatever is there. -/
def walk (l : Location) : List String → Location
  | [] => l
  | p :: ps => walk (if p = ".." then l.dropLast else l ++ [p]) ps

theorem walk_append (l : Location) (ps qs : List String) :
    walk l (ps ++ qs) = walk (walk l ps) qs := by
  induction ps generalizing l with
  | nil => rfl
  | cons p ps ih => exact ih _

/-- A path that can be followed leads where its components say. -/
theorem follow_eq_ok {d : Disk} {l m : Location} {ps : List String}
    (h : d.follow l ps = .ok m) :
    m = walk l ps := by
  induction ps generalizing l with
  | nil => exact (Except.ok.inj h).symm
  | cons p ps ih =>
    unfold follow at h
    split at h
    · cases h
    · cases h
    · rw [walk]
      by_cases hp : p = ".."
      · rw [if_pos (by simpa using hp)] at h
        rw [if_pos hp]
        exact ih h
      · rw [if_neg (by simpa using hp)] at h
        rw [if_neg hp]
        split at h
        · cases h
        · exact ih h

theorem follow_append (d : Disk) (l : Location) (ps qs : List String) :
    d.follow l (ps ++ qs) = d.follow l ps >>= fun m => d.follow m qs := by
  induction ps generalizing l with
  | nil => rfl
  | cons p ps ih =>
    rw [List.cons_append, follow.eq_2, follow.eq_2 d l p ps]
    cases d.entry? l with
    | none => rfl
    | some e =>
      cases e with
      | file b => rfl
      | directory =>
        simp only
        split
        · exact ih _
        · split
          · rfl
          · exact ih _

/-- A last component that is a name leads one level down, from a directory. -/
theorem follow_concat_eq_ok {d : Disk} {l m : Location} {ps : List String} {p : String}
    (hp : p ≠ "..") :
    d.follow l (ps ++ [p]) = .ok m ↔
      ∃ k, d.follow l ps = .ok k ∧ d.HasDirectory k ∧ p.utf8ByteSize ≤ maxName ∧
        m = k ++ [p] := by
  rw [follow_append, bind_eq_ok]
  refine exists_congr fun k => and_congr_right fun _ => ?_
  rw [follow, HasDirectory]
  cases d.entry? k with
  | none => simp
  | some e =>
    cases e with
    | file b => simp
    | directory =>
      simp only [beq_iff_eq, if_neg hp, true_and]
      by_cases long : maxName < p.utf8ByteSize
      · simp [long, Nat.not_le.2 long]
      · simp [long, follow, Nat.le_of_not_lt long, eq_comm]

/-- Where there are as many directories, as many paths can be followed. -/
theorem follow_mono {d e : Disk} (kept : ∀ l, d.HasDirectory l → e.HasDirectory l)
    {l m : Location} {ps : List String} (h : d.follow l ps = .ok m) :
      e.follow l ps = .ok m := by
  induction ps generalizing l with
  | nil => exact h
  | cons p ps ih =>
    unfold follow at h ⊢
    split at h
    · cases h
    · cases h
    · rename_i hl
      rw [kept l hl]
      simp only
      split
      · rename_i hp
        rw [if_pos hp] at h
        exact ih h
      · rename_i hp
        rw [if_neg hp] at h
        split
        · rename_i long
          rw [if_pos long] at h
          cases h
        · rename_i short
          rw [if_neg short] at h
          exact ih h

/-- A path of names that are short enough is never refused as too long. -/
theorem follow_ne_nameTooLong {d : Disk} {l : Location} {ps : List String}
    (h : ∀ p ∈ ps, p.utf8ByteSize ≤ maxName) : d.follow l ps ≠ .error .nameTooLong := by
  induction ps generalizing l with
  | nil => exact nofun
  | cons p ps ih =>
    have rest : ∀ q ∈ ps, q.utf8ByteSize ≤ maxName := fun q hq => h q (.tail _ hq)
    unfold follow
    split
    · exact nofun
    · exact nofun
    · split
      · exact ih rest
      · rw [if_neg (Nat.not_lt.2 (h p (.head _)))]
        exact ih rest

/-- The components of a path that can be followed are short enough to be names. -/
theorem short_of_follow {d : Disk} {l m : Location} {ps : List String}
    (h : d.follow l ps = .ok m) : ∀ p ∈ ps, p.utf8ByteSize ≤ maxName := by
  induction ps generalizing l with
  | nil => exact nofun
  | cons p ps ih =>
    unfold follow at h
    split at h
    · cases h
    · cases h
    · split at h
      · rename_i hp
        obtain rfl : p = ".." := by simpa using hp
        rintro q (_ | ⟨_, hq⟩)
        · decide
        · exact ih h q hq
      · split at h
        · cases h
        · rename_i short
          rintro q (_ | ⟨_, hq⟩)
          · exact Nat.le_of_not_lt short
          · exact ih h q hq

/-! ## Growing trees -/

/-- A tree after directories were made in it. -/
structure Grows (d e : Disk) : Prop where
  home : e.home = d.home
  kept : ∀ {l : Location} {x : Entry}, d.entry? l = some x → e.entry? l = some x
  fresh : ∀ {l : Location} {x : Entry},
    e.entry? l = some x → d.entry? l = some x ∨ x = .directory

namespace Grows

variable {d e f : Disk}

theorem refl (d : Disk) : Grows d d :=
  ⟨rfl, id, .inl⟩

theorem trans (h : Grows d e) (g : Grows e f) : Grows d f where
  home := g.home.trans h.home
  kept hx := g.kept (h.kept hx)
  fresh hx := by
    rcases g.fresh hx with hx | hx
    · exact h.fresh hx
    · exact .inr hx

/-- No file is made, changed or removed. -/
theorem hasFile_iff (h : Grows d e) {l : Location} {b : ByteArray} :
    e.HasFile l b ↔ d.HasFile l b := by
  constructor
  · intro hf
    rcases h.fresh hf with hf | hf
    · exact hf
    · cases hf
  · exact fun hf => h.kept hf

theorem hasDirectory (h : Grows d e) {l : Location} (hd : d.HasDirectory l) :
    e.HasDirectory l :=
  h.kept hd

theorem start (h : Grows d e) (r : Path.Root) : e.start r = d.start r := by
  cases r
  · exact h.home
  · rfl
  · rfl

end Grows

end Disk

end Schemata
