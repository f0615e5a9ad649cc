/-
What is looked for is found.

A chronicle says for every table what was stored last for it, and what has happened since.
While nothing that happened touched it (`Undisturbed`), the stored schema stands (`Stand`):
this is kept by every step. The steps that could do harm are the removals. A directory is
removed after a clearing, which would have touched it, or in a sweep, and a sweep finds the
digest of a standing schema in the marker. A stale entry is removed, and a standing one is not
stale, since the digest with which an operation works is that of the last store.

With what holds of the entries (`Reached.backed`) this makes the cache a map: a lookup returns
what was stored last, read back, if that was stored for the migrations as they are, and it
does return it if it may.
-/
import Schemata.Proofs.Cache.Run
import Schemata.Proofs.Cache.Standing

namespace Schemata

namespace Family

variable {ι : Type} [DecidableEq ι] {s : Settings} {home : Location} (F : Family ι s home)

/-! ## What a stored schema survives -/

omit [DecidableEq ι] in
/-- An event leaves the stored schemas of a repository alone: it clears nothing of the
repository, and an operation on it begins only with migrations of one digest. -/
def Quiet (i : ι) (D : String) : Event ι → Prop
  | .used j disk => j = i → s.migrationsDigest (F.repo i) disk = .ok D
  | .cleared j => j ≠ i
  | .clearedAll => False
  | _ => True

/-- Since a schema was stored for a table, every event left it alone. -/
def Undisturbed (es : List (Event ι)) (i : ι) (t D : String) : Prop :=
  ∀ e ∈ sinceStored es i t, F.Quiet i D e

/-- What was stored last for a table and is undisturbed stands, unless a write was refused,
and the repository was last used with its digest. -/
def Stand (x : Scene ι) : Prop :=
  .refused ∉ x.events → ∀ i t schema D, IsTable t →
    lastStored x.events i t = some (schema, D) →
    F.Undisturbed x.events i t D → F.Standing x.disk i t schema D ∧ F.Works x.events i D

/-- What was stored last for a table and is undisturbed is found, as it is read back. -/
def Kept (es : List (Event ι)) (i : ι) (t : String) (_ : Disk) (found : Option Schema) :
    Prop :=
  .refused ∉ es → ∀ schema D, lastStored es i t = some (schema, D) → F.Undisturbed es i t D →
    ∃ schema', schema.reread = .ok schema' ∧ found = some schema'

variable {F}

/-- An event that stores nothing for a table changes nothing of what was stored, and is itself
one of those since. -/
theorem Undisturbed.before {e : Event ι} {es : List (Event ι)} {i : ι} {t D : String}
    (other : e.stores i t = none) (h : F.Undisturbed (e :: es) i t D) :
    F.Undisturbed es i t D ∧ F.Quiet i D e := by
  rw [Undisturbed, sinceStored_cons, other] at h
  exact ⟨fun a ha => h a (.tail _ ha), h e (.head _)⟩

theorem works_of_other {e : Event ι} {es : List (Event ι)} {i : ι} {D : String}
    (other : e.uses i = none) : F.Works (e :: es) i D ↔ F.Works es i D := by
  rw [Works, Works, lastUse_cons, other]
  rfl

/-- A clearing that was just written down disturbs. -/
theorem not_undisturbed_of_head {e : Event ι} {es : List (Event ι)} {i : ι} {t D : String}
    (head : es.head? = some e) (other : e.stores i t = none) (harm : ¬ F.Quiet i D e) :
    ¬ F.Undisturbed es i t D := by
  intro h
  cases es with
  | nil => cases head
  | cons a es =>
    obtain rfl := Option.some.inj head
    exact harm (h.before other).2

namespace Looks

variable {x : Scene ι} {i : ι} {t : String} {disk : Disk} {D : String}

theorem works (h : F.Looks x i t disk D) : F.Works x.events i D :=
  ⟨disk, h.use, h.digest⟩

/-- The root of the cache can be reached where a stored schema is looked for. -/
theorem reaches_root (h : F.Looks x i t disk D) (named : F.IsNamed)
    (clean : .refused ∉ x.events) : x.disk.Reaches F.root := by
  have reaches := h.reaches clean
  rw [named.marker_eq, Disk.reaches_child (named.isName_marker i).down] at reaches
  exact reaches.1

end Looks

/-- A stored schema that stands is read, under the digest with which the operation works. -/
theorem Stand.reading {x : Scene ι} (h : F.Stand x) (named : F.IsNamed)
    (home : x.disk.home = home) {i : ι} {t : String} {disk : Disk} {D E : String}
    (looks : F.Looks x i t disk E) (clean : .refused ∉ x.events) {schema : Schema}
    (last : lastStored x.events i t = some (schema, D))
    (quiet : F.Undisturbed x.events i t D) :
    ∃ schema', schema.reread = .ok schema' ∧
      Cache.reading (F.entry i t) E x.disk = .fresh schema' := by
  obtain ⟨stands, works⟩ := h clean i t schema D looks.table last quiet
  obtain rfl := F.unique_digest works looks.works
  obtain ⟨schema', reread⟩ := stands.rereads
  refine ⟨schema', reread, ?_⟩
  rw [stands.reads named home (looks.reaches_root named clean),
    Reading.ofReread_of_reread reread]

/-! ## Every step keeps what stands -/

/-- An event may be added that stores nothing and begins no operation. -/
theorem Stand.note {d : Disk} {es : List (Event ι)} (h : F.Stand ⟨d, es⟩) {e : Event ι}
    (stores : ∀ i t, e.stores i t = none) (uses : ∀ i, e.uses i = none) :
    F.Stand ⟨d, e :: es⟩ := by
  intro clean i t schema D ht last quiet
  rw [lastStored_of_other (stores i t)] at last
  obtain ⟨before, -⟩ := quiet.before (stores i t)
  obtain ⟨stands, works⟩ := h (fun r => clean (.tail _ r)) i t schema D ht last before
  exact ⟨stands, (works_of_other (uses i)).2 works⟩

/-- Every step keeps what is undisturbed. -/
theorem stand_step (named : F.IsNamed) {k : Option ι} {x y : Scene ι} (step : Step F k x y)
    (home : x.disk.home = home) (h : F.Stand x) : F.Stand y := by
  intro clean i t schema D ht last quiet
  cases step with
  | @used j d es =>
    obtain ⟨before, same⟩ := quiet.before rfl
    obtain ⟨stands, works⟩ := h (fun r => clean (.tail _ r)) i t schema D ht last before
    refine ⟨stands, ?_⟩
    by_cases hj : j = i
    · refine ⟨d, ?_, same hj⟩
      rw [lastUse_cons, Event.uses, if_pos hj]
      rfl
    · have other : (Event.used j d).uses i = none := if_neg hj
      exact (works_of_other other).2 works
  | cleared => exact h.note (fun _ _ => rfl) (fun _ => rfl) clean i t schema D ht last quiet
  | clearedAll => exact absurd (quiet.before rfl).2 id
  | @removed j d es why reaches there =>
    obtain ⟨stands, works⟩ := h clean i t schema D ht last quiet
    refine ⟨stands.of_removed named ?_ there, works⟩
    -- The directory of the repository itself would be removed after a clearing or in a sweep.
    rintro rfl
    rcases why with cleared | ⟨E, working, differs⟩
    · exact not_undisturbed_of_head cleared rfl (fun ne => ne rfl) quiet
    · obtain rfl := F.unique_digest works working
      rw [named.directory_eq, Disk.reaches_child (named.name j).down] at reaches
      exact differs (stands.storedDigest named home reaches.1)
  | removedAll why => exact absurd quiet (not_undisturbed_of_head why rfl id)
  | marked working marks =>
    obtain ⟨stands, works⟩ := h clean i t schema D ht last quiet
    refine ⟨stands.of_marks named home marks ?_, works⟩
    rintro rfl
    exact F.unique_digest working works
  | refused => exact absurd (.head _) clean
  | @stored j u schema' E x e f writes marks =>
    obtain ⟨text, -, written⟩ := writes.written
    by_cases same : j = i ∧ u = t
    · obtain ⟨rfl, rfl⟩ := same
      rw [lastStored_cons, Event.stores, if_pos ⟨rfl, rfl⟩] at last
      cases last
      exact ⟨.of_writes named home writes marks, (works_of_other rfl).2 writes.works⟩
    · have other : (Event.stored j u schema' E).stores i t = none := if_neg same
      rw [lastStored_of_other other] at last
      obtain ⟨before, -⟩ := quiet.before other
      obtain ⟨stands, works⟩ := h (fun r => clean (.tail _ r)) i t schema D ht last before
      have ne : F.entryPlace i t ≠ F.entryPlace j u := by
        rw [Ne, F.entryPlace_eq_iff]
        exact fun clash => same ⟨named.separate j i clash.1.symm, clash.2.symm⟩
      refine ⟨?_, (works_of_other rfl).2 works⟩
      refine (stands.of_written home written ne).of_marks named
        (written.home.trans home) marks ?_
      rintro rfl
      exact F.unique_digest writes.works works
  | halfStored => exact absurd (.head _) clean
  | found => exact h.note (fun _ _ => rfl) (fun _ => rfl) clean i t schema D ht last quiet
  | missed => exact h.note (fun _ _ => rfl) (fun _ => rfl) clean i t schema D ht last quiet
  | @discarded j u disk E x b looks reads file =>
    have clean' : .refused ∉ x.events := fun r => clean (.tail _ r)
    obtain ⟨before, -⟩ := quiet.before rfl
    obtain ⟨stands, works⟩ := h clean' i t schema D ht last before
    refine ⟨stands.of_discarded file ?_, (works_of_other rfl).2 works⟩
    intro clash
    obtain ⟨directories, rfl⟩ := (F.entryPlace_eq_iff i j).1 clash
    obtain rfl := named.separate i j directories
    obtain ⟨schema', -, fresh⟩ := h.reading named home looks clean' last before
    rw [reads] at fresh
    cases fresh

/-- Every step finds what it may find. -/
theorem kept_step (named : F.IsNamed) {k : Option ι} {x y : Scene ι} (step : Step F k x y)
    (home : x.disk.home = home) (h : F.Stand x) (looks : EveryLook F.Kept x.events) :
    EveryLook F.Kept y.events := by
  refine everyLook_step step looks fun looking answer clean schema D last quiet => ?_
  obtain ⟨schema', reread, fresh⟩ := h.reading named home looking clean last quiet
  exact ⟨schema', reread, (answer schema').2 fresh⟩

/-- What is changed outside of the cache leaves it standing. -/
theorem Stand.of_outside (named : F.IsNamed) {d e : Disk} {es : List (Event ι)}
    (h : F.Stand ⟨d, es⟩) (change : F.Outside d e) : F.Stand ⟨e, es⟩ := by
  intro clean i t schema D ht last quiet
  obtain ⟨stands, works⟩ := h clean i t schema D ht last quiet
  refine ⟨stands.of_kept fun l hl x hx => ?_, works⟩
  have own : F.Owns l := by
    rcases hl with rfl | rfl | rfl | rfl
    · exact .inr ⟨i, List.prefix_append _ _⟩
    · left
      rw [named.markerPlace_eq]
      exact List.prefix_append _ _
    · exact .inl (List.prefix_refl _)
    · exact .inr ⟨i, List.prefix_refl _⟩
  rw [change.same l own]
  exact hx

end Family

/-! ## A lookup as it runs -/

namespace Noting

variable {ι : Type} {s : Settings} {home : Location} {F : Family ι s home}
  {i : ι} {t : String}

theorem ensures_silently {α : Type} {P : List (Event ι) → Prop} (m : Caching α) :
    Ensures (fun c => P c.events) (silently m) (fun _ c => P c.events)
      (fun c => P c.events) :=
  Ensures.of_state fun _ hc => hc

/-- Asking for the digest stores nothing. -/
theorem ensures_sameStored [DecidableEq ι] {last : Option (Schema × String)} :
    Ensures (fun c => lastStored c.events i t = last) (currentDigest s F.repo i)
      (fun _ c => lastStored c.events i t = last)
      (fun c => lastStored c.events i t = last) := by
  have silent {α : Type} (m : Caching α) :=
    ensures_silently (P := fun es => lastStored es i t = last) m
  unfold currentDigest
  refine (silent _).bind fun digest => (silent _).bind fun stored => ?_
  split
  · refine (silent _).bind fun _ => (silent _).bind fun marker => ?_
    refine Ensures.bind (Q := fun _ c => lastStored c.events i t = last) ?_
      fun _ => Ensures.pure fun _ h => h
    refine Ensures.of_state fun c hc => ?_
    unfold writeText
    cases (c.store.disk.write marker digest.toUTF8).1 with
    | ok _ => exact hc
    | error _ => exact hc
  · exact Ensures.pure fun _ h => h

/-- What a lookup returns is written down, with the files as they were before. -/
theorem ensures_looked [DecidableEq ι] {disk : Disk} {last : Option (Schema × String)} :
    Ensures (fun c => c.store.disk = disk ∧ lastStored c.events i t = last)
      (lookup s F.repo i t)
      (fun found c => found = none ∨
        ∃ es, c.events = .looked i t disk found :: es ∧ lastStored es i t = last)
      (fun _ => True) := by
  have silent {α : Type} (m : Caching α) :=
    ensures_silently (P := fun es => lastStored es i t = last) m
  have begun :
      Ensures (fun c => c.store.disk = disk ∧ lastStored c.events i t = last) (begin i)
      (fun d c => d = disk ∧ lastStored c.events i t = last) (fun _ => True) :=
    fun c h => ⟨h.1, (lastStored_of_other rfl).trans h.2⟩
  unfold lookup
  refine begun.bind fun d => Ensures.given fun same => ?_
  subst same
  split
  · have asked : Ensures (fun c => lastStored c.events i t = last) (currentDigest s F.repo i)
        (fun _ c => lastStored c.events i t = last)
        (fun c => lastStored c.events i t = last) :=
      ensures_sameStored
    refine (asked.weaken (fun _ h => h) (fun _ _ h => h) fun _ _ => trivial).bind fun D => ?_
    unfold lookupAt
    refine ((silent _).weaken (fun _ h => h) (fun _ _ h => h) fun _ _ => trivial).bind
      fun found => ?_
    exact fun c hc => .inr ⟨c.events, rfl, hc⟩
  · exact Ensures.pure fun _ _ => .inl rfl

theorem record_lookup {repo : ι → Repository} (enabled : Cache.isEnabled s = true) (i : ι)
    (t : String) (c : Chronicle ι) :
    lookup s repo i t c = (currentDigest s repo i >>= lookupAt s repo i t c.store.disk)
      { c with events := .used i c.store.disk :: c.events } := by
  unfold lookup
  simp only [enabled, if_true]
  rfl

/-- A lookup that need not sweep writes nothing. -/
theorem clean_lookup {D : String} {c : Chronicle ι} (enabled : Cache.isEnabled s = true)
    (ht : IsTable t) (here : c.store.disk.home = home)
    (asked : currentDigest s F.repo i { c with events := .used i c.store.disk :: c.events } =
      (.ok D, { c with events := .used i c.store.disk :: c.events }))
    (clean : .refused ∉ c.events) : .refused ∉ (lookup s F.repo i t c).2.events := by
  rw [record_lookup enabled, run_bind, asked]
  dsimp only
  rw [record_lookupAt F i ht _ _ (c := ⟨c.store, .used i c.store.disk :: c.events⟩) here]
  cases Cache.reading (F.entry i t) D c.store.disk with
  | unreadable => simpa using clean
  | tooDeep => simpa using clean
  | fresh _ => simpa using clean
  | stale => simpa using clean

end Noting

namespace Family

variable {ι : Type} {s : Settings} {home : Location} {F : Family ι s home}

namespace Standing

variable {i : ι} {t : String} {schema : Schema} {D : String}

/-- A clearing does nothing while the root of the cache cannot be reached. -/
theorem clear_of_not_reaches (named : F.IsNamed) {c : Chronicle ι}
    (h : F.Standing c.store.disk i t schema D) (here : c.store.disk.home = home)
    (hidden : ¬ c.store.disk.Reaches F.root) :
    (Noting.silently (Cache.clearRepository s (F.repo i)) : Noting ι Unit) c =
      (.ok (), c) := by
  have run : Cache.clearRepository s (F.repo i) c.store = (.ok (), c.store) := by
    rw [Caching.run_clear F i here, Cache.removeDirectory, run_bind, Caching.run_ask,
      h.hasEntry_of_not_reaches named hidden]
    rfl
  unfold Noting.silently
  rw [run]

/-- With the migrations as they were, the digest is found again and the schema still stands,
unless the marker cannot be written. -/
theorem ensures_currentDigest (named : F.IsNamed) :
    Ensures (fun c => c.store.disk.home = home ∧ F.Standing c.store.disk i t schema D ∧
        s.migrationsDigest (F.repo i) c.store.disk = .ok D)
      (Noting.currentDigest s F.repo i)
      (fun E c => E = D ∧ c.store.disk.home = home ∧ (.refused ∈ c.events ∨
        (F.Standing c.store.disk i t schema D ∧ c.store.disk.Reaches F.root)))
      (fun c => .refused ∈ c.events) := by
  rintro c ⟨here, stands, digest⟩
  by_cases reaches : c.store.disk.Reaches F.root
  · have run : Noting.currentDigest s F.repo i c = (.ok D, c) := by
      unfold Noting.currentDigest
      rw [run_bind, Noting.run_silently_ask, digest]
      dsimp only
      rw [run_bind, Noting.run_silently_ask, stands.storedDigest named here reaches]
      dsimp only
      rw [if_neg (by simp)]
      rfl
    rw [run]
    exact ⟨rfl, here, .inr ⟨stands, reaches⟩⟩
  · have run : Noting.currentDigest s F.repo i c =
        (Noting.writeText (F.marker i) D [] >>= fun _ => pure D) c := by
      unfold Noting.currentDigest
      rw [run_bind, Noting.run_silently_ask, digest]
      dsimp only
      rw [run_bind, Noting.run_silently_ask,
        stands.storedDigest_of_not_reaches named here reaches]
      dsimp only
      rw [if_pos (by simp), run_bind, stands.clear_of_not_reaches named here reaches]
      dsimp only
      rw [run_bind, Noting.run_silently_ask, F.marker_eq i here]
    rw [run, named.marker_eq]
    refine Ensures.bind (P := fun c => c.store.disk.home = home ∧
      F.Standing c.store.disk i t schema D)
      (Noting.ensures_writeText (Q := fun c => c.store.disk.home = home ∧
        (.refused ∈ c.events ∨
        (F.Standing c.store.disk i t schema D ∧ c.store.disk.Reaches F.root))) ?_ ?_)
      (fun _ => Ensures.pure fun _ h => ⟨rfl, h⟩) c ⟨here, stands⟩
    · rintro c e ⟨here, -⟩ grows
      exact ⟨⟨grows.home.trans here, .inl (.head _)⟩, .head _⟩
    · rintro c e ⟨here, stands⟩ written
      have marks := F.marks_of_written (named.marker_eq i) written
      exact ⟨written.home.trans here, .inr ⟨stands.of_marks named here marks fun _ => rfl,
        written.reaches⟩⟩

/-- What stands is returned, unless a write is refused. -/
theorem ensures_lookup (named : F.IsNamed) (ht : IsTable t)
    (enabled : Cache.isEnabled s = true)
    {schema' : Schema} (reread : schema.reread = .ok schema') :
    Ensures (fun c => c.store.disk.home = home ∧ F.Standing c.store.disk i t schema D ∧
        s.migrationsDigest (F.repo i) c.store.disk = .ok D)
      (Noting.lookup s F.repo i t)
      (fun found c => .refused ∈ c.events ∨
        found = some schema') (fun c => .refused ∈ c.events) := by
  unfold Noting.lookup
  refine Ensures.bind (P := fun c : Chronicle ι => c.store.disk.home = home ∧
    F.Standing c.store.disk i t schema D ∧ s.migrationsDigest (F.repo i) c.store.disk = .ok D)
    (Q := fun _ c => c.store.disk.home = home ∧
      F.Standing c.store.disk i t schema D ∧
        s.migrationsDigest (F.repo i) c.store.disk = .ok D)
    (fun c h => h) fun disk => ?_
  rw [if_pos enabled]
  refine (ensures_currentDigest named).bind fun E => ?_
  rintro c ⟨rfl, here, rest⟩
  rw [Noting.record_lookupAt F i ht _ _ here]
  rcases rest with refused | ⟨stands, reaches⟩
  · cases Cache.reading (F.entry i t) E c.store.disk with
    | unreadable => exact .inl (.tail _ refused)
    | tooDeep => exact refused
    | fresh _ => exact .inl (.tail _ refused)
    | stale => exact .inl (.tail _ refused)
  · rw [stands.reads named here reaches, Reading.ofReread_of_reread reread]
    exact .inr rfl

end Standing

end Family

namespace Reached

variable {ι : Type} [DecidableEq ι] {s : Settings} {home : Location} {F : Family ι s home}
  {c : Chronicle ι}

/-- After every run what is undisturbed stands, and was found on the way. -/
theorem stand (run : Reached F c) (named : F.IsNamed) :
    F.Stand c.scene ∧ EveryLook F.Kept c.events := by
  refine (run.keeps (P := fun x => F.Stand x ∧ EveryLook F.Kept x.events) ?_ ?_ ?_).2
  · intro d _ _
    exact ⟨nofun, everyLook_nil _⟩
  · intro k x y step here h
    exact ⟨Family.stand_step named step here h.1, Family.kept_step named step here h.1 h.2⟩
  · intro d e es change h
    exact ⟨h.1.of_outside named change, h.2⟩

/-- What a lookup returns after a run was stored last for just that repository and table, for
the migrations as they are. -/
theorem lookup_backed (run : Reached F c) (sep : F.Separate) {i : ι} {t : String}
    (ht : IsTable t) :
    ∀ schema', (Cache.lookup s (F.repo i) (.text t) c.store).1 = .ok (some schema') →
      ∃ schema D, lastStored c.events i t = some (schema, D) ∧ schema.reread = .ok schema' ∧
        s.migrationsDigest (F.repo i) c.store.disk = .ok D := by
  intro schema' found
  rw [← (Noting.Erases.lookup s F.repo i t c).1] at found
  -- The lookup is an operation of a longer run, and wrote down what it returned.
  have after : Reached F (Noting.lookup s F.repo i t c).2 := by
    rw [← run_map_state (fun _ => ()) (Noting.lookup s F.repo i t)]
    exact .operation (.lookup i t) ht run
  have looks := (after.backed sep).2.2
  have looked := Noting.ensures_looked (s := s) (F := F) (i := i) (t := t) c ⟨rfl, rfl⟩
  cases lookup : Noting.lookup s F.repo i t c with
  | mk r c' =>
    rw [lookup] at found looks looked
    obtain rfl : r = .ok (some schema') := found
    rcases looked with none | ⟨es, events, last⟩
    · cases none
    · rw [events] at looks
      obtain ⟨schema, D, stored, reread, digest⟩ :=
        (everyLook_cons.1 looks).1 _ _ _ _ rfl _ rfl
      exact ⟨schema, D, last ▸ stored, reread, digest⟩

/-- What was stored last for the migrations as they are, and is undisturbed, is what a lookup
returns after a run, unless a write is refused. -/
theorem lookup_kept (run : Reached F c) (named : F.IsNamed)
    (enabled : Cache.isEnabled s = true)
    {i : ι} {t : String} (ht : IsTable t)
    (clean : .refused ∉ (Noting.lookup s F.repo i t c).2.events)
    {schema : Schema} {D : String}
    (last : lastStored c.events i t = some (schema, D)) (quiet : F.Undisturbed c.events i t D)
    (digest : s.migrationsDigest (F.repo i) c.store.disk = .ok D) :
    ∃ schema', schema.reread = .ok schema' ∧
      (Cache.lookup s (F.repo i) (.text t) c.store).1 = .ok (some schema') := by
  obtain ⟨here, -, -⟩ := run.backed named.separate
  obtain ⟨stand, -⟩ := run.stand named
  have valid : (Operation.lookup i t).IsValid := ht
  have steps : Steps F (some i) c.scene (Noting.lookup s F.repo i t c).2.scene := by
    rw [← run_map_state (fun _ => ()) (Noting.lookup s F.repo i t)]
    exact Operation.record_steps F valid here
  have before : .refused ∉ c.events := fun refused =>
    clean (steps.keeps (P := fun x => .refused ∈ x.events) Step.refused_mem refused)
  obtain ⟨stands, -⟩ := stand before i t schema D ht last quiet
  obtain ⟨schema', reread⟩ := stands.rereads
  have looked :=
    Family.Standing.ensures_lookup named ht enabled reread c ⟨here, stands, digest⟩
  refine ⟨schema', reread, ?_⟩
  rw [← (Noting.Erases.lookup s F.repo i t c).1]
  cases lookup : Noting.lookup s F.repo i t c with
  | mk r c' =>
    rw [lookup] at clean looked
    cases r with
    | error _ => exact absurd looked clean
    | ok found =>
      rcases looked with refused | same
      · exact absurd refused clean
      · exact congrArg Except.ok same

/-- A cache is coherent after every run. Whatever an operation looked for, it found nothing
but the schema stored last for just that repository and table, as it is read back, whose
digest was that of the migrations when the operation began; and it found this schema if it was
undisturbed. The same holds of every lookup that may come next: what it returns was stored
last, for the migrations as they are now, and it returns what was stored last for them and is
undisturbed, unless a write is refused. -/
theorem lookups_coherent (run : Reached F c) (named : F.IsNamed)
    (enabled : Cache.isEnabled s = true) :
    (EveryLook F.Backed c.events ∧ EveryLook F.Kept c.events) ∧
      ∀ i t, IsTable t →
        (∀ schema', (Cache.lookup s (F.repo i) (.text t) c.store).1 = .ok (some schema') →
          ∃ schema D, lastStored c.events i t = some (schema, D) ∧
            schema.reread = .ok schema' ∧
            s.migrationsDigest (F.repo i) c.store.disk = .ok D) ∧
        (.refused ∉ (Noting.lookup s F.repo i t c).2.events →
          ∀ schema D, lastStored c.events i t = some (schema, D) →
            F.Undisturbed c.events i t D →
              s.migrationsDigest (F.repo i) c.store.disk = .ok D →
            ∃ schema', schema.reread = .ok schema' ∧
              (Cache.lookup s (F.repo i) (.text t) c.store).1 = .ok (some schema')) := by
  obtain ⟨-, -, backed⟩ := run.backed named.separate
  obtain ⟨-, kept⟩ := run.stand named
  refine ⟨⟨backed, kept⟩, fun i t ht => ⟨run.lookup_backed named.separate ht, ?_⟩⟩
  intro clean schema D last quiet digest
  exact run.lookup_kept named enabled ht clean last quiet digest

/-! ### A schema stored for one of two repositories -/

/-- Two repositories of different names. -/
def twoNames : Family Bool {} [] :=
  .ofIdentifiers fun archive => if archive then "Other.Archive" else "MyApp.Repo"

theorem isName_twoNames (i : Bool) : Path.IsName (twoNames.name i) := by
  cases i <;> exact ⟨by decide, by decide, by decide⟩

theorem isNamed_twoNames : twoNames.IsNamed :=
  ⟨isName_twoNames, by decide⟩

/-- A schema was stored for one of them. -/
def storedOnce : Chronicle Bool :=
  ((Operation.put false "users" (.empty "users")).record {} twoNames.repo
    ⟨⟨⟨[], []⟩, []⟩, []⟩).2

theorem reached_storedOnce : Reached twoNames storedOnce :=
  .operation _ ⟨by decide, Schema.representable_empty _⟩ (.start rfl twoNames.isEmpty_nil)

theorem events_storedOnce : storedOnce.events =
    [.stored false "users" (.empty "users") "empty", .used false ⟨[], []⟩] := by
  rfl

theorem lastStored_storedOnce :
    lastStored storedOnce.events false "users" = some (.empty "users", "empty") := by
  rw [events_storedOnce]
  rfl

theorem undisturbed_storedOnce :
    twoNames.Undisturbed storedOnce.events false "users" "empty" := by
  rw [events_storedOnce]
  exact nofun

theorem digest_storedOnce :
    Settings.migrationsDigest {} (twoNames.repo false) storedOnce.store.disk =
      .ok "empty" := by
  rfl

theorem clean_storedOnce :
    .refused ∉ (Noting.lookup {} twoNames.repo false "users" storedOnce).2.events := by
  refine Noting.clean_lookup (D := "empty") rfl (by decide) rfl rfl ?_
  rw [events_storedOnce]
  rintro (_ | ⟨_, _ | ⟨_, ⟨⟩⟩⟩)

/-- It is found. -/
theorem lookups_coherent_storedOnce :
    ∃ schema', (Schema.empty "users").reread = .ok schema' ∧
      (Cache.lookup {} (twoNames.repo false) (.text "users") storedOnce.store).1 =
        .ok (some schema') :=
  ((reached_storedOnce.lookups_coherent isNamed_twoNames rfl).2 false "users" (by decide)).2
    clean_storedOnce _ _ lastStored_storedOnce undisturbed_storedOnce digest_storedOnce

end Reached

end Schemata
