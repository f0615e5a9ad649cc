/-
Runs in which every sweep is complete.

Every operation leaves a settled cache settled, with one exception. A store renews the marker
as well, and sweeps nothing. While files of an older digest are in the directory, it makes the
marker say of them what is not so, and no later operation has a reason to sweep. So the runs
of this module are those in which a schema is stored only where no older file of another table
is left (`Tended`). After each of their operations that asks for a schema, every file in the
directory records the digest of the migrations (`asking_sweeps`); and a store that comes late
is not made up for.
-/
import Schemata.Proofs.Cache.Marked

namespace Schemata

/-! ## Runs in which no store comes late -/

namespace Operation

variable {ι : Type} {s : Settings} {home : Location} (F : Family ι s home) (i : ι)

/-- An operation on a repository, for tables whose names are no paths. -/
def IsOn : Operation ι → Prop
  | lookup j t => j = i ∧ IsTable t
  | put j t _ => j = i ∧ IsTable t
  | obtain j t _ => j = i ∧ IsTable t
  | warmUp j ts _ => j = i ∧ ∀ t ∈ ts, IsTable t
  | refresh j ts _ => j = i ∧ ∀ us ∈ ts, ∀ t ∈ us, IsTable t
  | clear j => j = i
  | clearAll => False

/-- An operation asks for schemas as they hold now, and does nothing before. -/
def Asks : Operation ι → Prop
  | lookup _ _ => True
  | obtain _ _ _ => True
  | warmUp _ _ _ => True
  | _ => False

/-- An operation is no store, or one for migrations whose digest every file of another table
records. -/
def IsTimely (d : Disk) : Operation ι → Prop
  | put _ t _ => ∀ D, s.migrationsDigest (F.repo i) d = .ok D → F.Current i D (some t) d
  | _ => True

variable {F i} {d : Disk} {op : Operation ι}

theorem ensures_swept (named : F.IsNamed) (enabled : Cache.isEnabled s = true)
    (on : op.IsOn i)
    (asks : op.Asks) :
    Ensures (fun c => F.Tidy (F.Settled i) c ∧ c.store.disk = d) (op.record s F.repo)
      (fun _ c => ∃ D, s.migrationsDigest (F.repo i) d = .ok D ∧
        F.Tidy (fun d => F.Swept i D d ∧ F.Housed i d) c)
      (F.Tidy (F.Settled i)) := by
  cases op with
  | lookup j t =>
    obtain ⟨rfl, ht⟩ := on
    exact (Noting.ensures_lookup_swept named enabled ht).map fun _ _ h => h
  | obtain j t introspector =>
    obtain ⟨rfl, ht⟩ := on
    exact (Noting.ensures_obtain_swept named enabled ht introspector).map fun _ _ h => h
  | warmUp j ts introspector =>
    obtain ⟨rfl, hts⟩ := on
    exact (Noting.ensures_warmUp_swept named enabled hts introspector).map fun _ _ h => h
  | put | refresh | clear | clearAll => exact asks.elim

/-- An operation leaves a settled cache settled, unless it is a store that comes late. -/
theorem ensures_settled (named : F.IsNamed) (enabled : Cache.isEnabled s = true)
    (on : op.IsOn i)
    (timely : op.IsTimely F i d) :
    Ensures (fun c => F.Tidy (F.Settled i) c ∧ c.store.disk = d) (op.record s F.repo)
      (fun _ => F.Tidy (F.Settled i)) (F.Tidy (F.Settled i)) := by
  have asking (asks : op.Asks) :=
    (ensures_swept (d := d) named enabled on asks).weaken (fun _ h => h)
      (fun _ _ h => Noting.settled_of_swept h) fun _ h => h
  cases op with
  | lookup | obtain | warmUp => exact asking trivial
  | put j t schema =>
    obtain ⟨rfl, ht⟩ := on
    exact Noting.ensures_put_settled named enabled ht timely
  | refresh j ts introspector =>
    obtain ⟨rfl, hts⟩ := on
    have kept := Noting.ensures_refresh_settled (i := j) named enabled hts introspector
    exact (kept.weaken (fun _ h => h.1) (fun _ _ h => h) fun _ h => h).map fun _ _ h => h
  | clear j =>
    obtain rfl := on
    exact Noting.ensures_clear_settled.weaken (fun _ h => h.1) (fun _ _ h => h) fun _ h => h
  | clearAll => exact on.elim

end Operation

namespace Family

variable {ι : Type} {s : Settings} {home : Location} (F : Family ι s home) (i : ι)

/-- Files were changed outside of the cache, and the directory of a repository can still be
reached. -/
structure Beside (d e : Disk) : Prop extends F.Outside d e where
  reaches : d.Reaches (F.directory i) → e.Reaches (F.directory i)

variable {F i}

theorem Settled.of_beside {d e : Disk} (h : F.Settled i d) (named : F.IsNamed)
    (change : F.Beside i d e) (here : d.home = home) : F.Settled i e := by
  have inside {l : Location} (below : F.place (F.directory i) <+: l) :
      e.entry? l = d.entry? l :=
    change.same l (.inr ⟨i, below⟩)
  have files : ∀ l b, F.place (F.directory i) <+: l → e.HasFile l b → d.HasFile l b :=
    fun l b below file => (inside below).symm.trans file
  have marker : e.entry? (F.markerPlace i) = d.entry? (F.markerPlace i) := by
    refine change.same _ (.inl ?_)
    rw [named.markerPlace_eq]
    exact List.prefix_append _ _
  refine ⟨fun b file => ?_, fun l b below file => ?_⟩
  · obtain ⟨D, solid, same, current⟩ := h.marker b (marker.symm.trans file)
    exact ⟨D, solid, same, current.of_files files⟩
  · have before := h.housed l b below (files l b below file)
    refine ⟨before.usable, change.reaches before.reaches, ?_⟩
    have there := before.there
    rw [F.place_eq here] at there
    rw [F.place_eq (change.home_eq.trans here)]
    exact (inside (List.prefix_refl _)).trans there

end Family

/-- What a cache can come to in a run on one repository that begins with an empty cache, and
in which no store comes late. -/
inductive Tended {ι : Type} {s : Settings} {home : Location} (F : Family ι s home) (i : ι) :
    Chronicle ι → Prop where
  | start {σ : Store} (here : σ.disk.home = home)
    (empty : ∀ l b, F.place F.root <+: l → ¬ σ.disk.HasFile l b) : Tended F i ⟨σ, []⟩
  | operation {c : Chronicle ι} (op : Operation ι) (on : op.IsOn i)
    (timely : op.IsTimely F i c.store.disk) (before : Tended F i c) :
    Tended F i (op.record s F.repo c).2
  | beside {c : Chronicle ι} {e : Disk} (change : F.Beside i c.store.disk e)
    (before : Tended F i c) : Tended F i { c with store := { c.store with disk := e } }

namespace Tended

variable {ι : Type} {s : Settings} {home : Location} {F : Family ι s home} {i : ι}
  {c : Chronicle ι}

/-- After every such run the cache is settled, unless a write was refused. -/
theorem settled (run : Tended F i c) (named : F.IsNamed)
    (enabled : Cache.isEnabled s = true) :
    F.Tidy (F.Settled i) c := by
  induction run with
  | @start σ here empty =>
    have below : F.place F.root <+: F.place (F.directory i) := by
      rw [named.place_directory]
      exact List.prefix_append _ _
    have marker : F.place F.root <+: F.markerPlace i := by
      rw [named.markerPlace_eq]
      exact List.prefix_append _ _
    refine ⟨here, fun _ => ⟨fun b file => ?_, fun l b inside file => ?_⟩⟩
    · exact absurd file (empty _ b marker)
    · exact absurd file (empty l b (below.trans inside))
  | @operation c op on timely _ ih =>
    exact (Operation.ensures_settled named enabled on timely).state ⟨ih, rfl⟩
  | beside change _ ih =>
    exact ⟨change.home_eq.trans ih.home_eq, fun clean =>
      (ih.holds clean).of_beside named change ih.home_eq⟩

/-- In a run without late stores every sweep is complete. After each operation that asks for a
schema and comes to its end the marker has the digest of the migrations, and every file in the
directory of the repository records it, unless a write was refused. A late store is not made
up for: if the migrations stay as they are, a lookup that follows it leaves in place whatever
is in the directory besides the stored schema, of any digest. -/
theorem asking_sweeps (run : Tended F i c) (named : F.IsNamed)
    (enabled : Cache.isEnabled s = true) :
    (∀ op : Operation ι, op.IsOn i → op.Asks → (op.run s F.repo c.store).1 = .ok () →
      .refused ∉ (op.record s F.repo c).2.events →
      ∃ D, s.migrationsDigest (F.repo i) c.store.disk = .ok D ∧
        F.Swept i D (op.run s F.repo c.store).2.disk) ∧
    ∀ (t : String) (schema : Schema) (D : String) (σ : Store), IsTable t →
      Operation.run s F.repo (.put i t schema) c.store = (.ok (), σ) →
      .refused ∉ (Operation.record s F.repo (.put i t schema) c).2.events →
      s.migrationsDigest (F.repo i) c.store.disk = .ok D →
      s.migrationsDigest (F.repo i) σ.disk = .ok D →
      ∀ l b, F.place (F.directory i) <+: l → l ≠ F.entryPlace i t → c.store.disk.HasFile l b →
        (Cache.lookup s (F.repo i) (.text t) σ).2.disk.HasFile l b := by
  have settled := run.settled named enabled
  constructor
  · intro op on asks ended clean
    have after := op.ensures_swept named enabled on asks c ⟨settled, rfl⟩
    obtain ⟨result, store⟩ := op.record_erases s F.repo c
    rw [← store]
    rw [← result] at ended
    cases recorded : op.record s F.repo c with
    | mk r c' =>
      rw [recorded] at after ended clean
      obtain rfl : r = .ok () := ended
      obtain ⟨D, digest, tidy⟩ := after
      exact ⟨D, digest, (tidy.holds clean).1⟩
  · intro t schema D σ ht ended clean digest digest' l b inside other file
    have after := Noting.ensures_put_marked named enabled ht schema digest c
      ⟨⟨settled.home_eq, fun _ => rfl⟩, rfl⟩
    obtain ⟨result, store⟩ := (Operation.put i t schema).record_erases s F.repo c
    rw [ended] at result store
    cases recorded : (Operation.put i t schema).record s F.repo c with
    | mk r c' =>
      rw [recorded] at result store clean
      obtain rfl : r = .ok () := result
      obtain rfl : c'.store = σ := store
      have put : Noting.put s F.repo i t schema c = (.ok (), c') := recorded
      rw [put] at after
      obtain ⟨stored, -, kept⟩ := after.holds clean
      exact Cache.file_of_lookup enabled ht after.home_eq digest' stored other
        (kept l b inside other file)

/-! ### A store that comes late -/

open Cache (oneRepository)

theorem isNamed_oneRepository : oneRepository.IsNamed :=
  ⟨fun | () => ⟨by decide, by decide, by decide⟩, fun _ _ _ => rfl⟩

/-- A schema was stored while there were no migrations. -/
def storedUsers : Chronicle Unit :=
  ((Operation.put () "users" (.empty "users")).record {} oneRepository.repo
    ⟨⟨⟨[], []⟩, []⟩, []⟩).2

/-- Then a directory of migrations was made. -/
def migratedUsers : Chronicle Unit :=
  { storedUsers with store :=
    { storedUsers.store with disk := storedUsers.store.disk.put ["migrations"] .directory } }

/-- And then another schema was stored. -/
def lateStore : Chronicle Unit :=
  ((Operation.put () "posts" (.empty "posts")).record {} oneRepository.repo migratedUsers).2

/-- The digest of no migrations, in a directory of their own. -/
def noMigrations : String :=
  "4F53CDA18C2BAA0C0354BB5F9A3ECBE5ED12AB4D8E11BA873C2F11161202B945"

theorem beside_migratedUsers :
    oneRepository.Beside () storedUsers.store.disk migratedUsers.store.disk := by
  have elsewhere {l : Location} (other : l ≠ ["migrations"]) :
      migratedUsers.store.disk.entry? l = storedUsers.store.disk.entry? l := by
    refine (Disk.entry?_put (by simp) _ _ _).trans ?_
    rw [if_neg other]
  refine ⟨⟨rfl, fun l owned => elsewhere ?_⟩,
    Disk.Reaches.mono (d := storedUsers.store.disk) (e := migratedUsers.store.disk) rfl ?_⟩
  · rintro rfl
    rcases owned with inside | ⟨⟨⟩, inside⟩
    · revert inside
      decide
    · revert inside
      decide
  · intro l there
    by_cases own : l = ["migrations"]
    · rw [Disk.HasDirectory, own]
      rfl
    · exact (elsewhere own).trans there

theorem tended_migratedUsers : Tended oneRepository () migratedUsers := by
  have nothing : ∀ l b, ¬ Disk.HasFile ⟨[], []⟩ l b := by
    intro l b file
    cases l <;> cases file
  refine .beside beside_migratedUsers
    (.operation _ ⟨rfl, by decide⟩ ?_ (.start rfl fun l b _ => nothing l b))
  exact fun _ _ l b _ _ file => absurd file (nothing l b)

/-- A lookup sweeps what was stored before. -/
theorem asking_sweeps_migratedUsers :
    oneRepository.Swept () noMigrations
      (Operation.run {} oneRepository.repo
        (.lookup () "users") migratedUsers.store).2.disk := by
  have digest :
      Settings.migrationsDigest {} (oneRepository.repo ()) migratedUsers.store.disk =
      .ok noMigrations := by decide +kernel
  have ended :
      (Operation.run {} oneRepository.repo (.lookup () "users") migratedUsers.store).1 =
      .ok () := by decide +kernel
  have accepted : .refused ∉ (Operation.record {} oneRepository.repo (.lookup () "users")
      migratedUsers).2.events := by decide +kernel
  obtain ⟨D, asked, swept⟩ := (tended_migratedUsers.asking_sweeps isNamed_oneRepository rfl).1
    (.lookup () "users") ⟨rfl, by decide⟩ trivial ended accepted
  rw [digest] at asked
  obtain rfl := Except.ok.inj asked
  exact swept

/-- A lookup after a late store leaves a schema that was stored for other migrations. -/
theorem not_swept_lateStore :
    Settings.migrationsDigest {} (oneRepository.repo ()) lateStore.store.disk =
      .ok noMigrations ∧
      (Operation.run {} oneRepository.repo (.lookup () "posts") lateStore.store).1 = .ok () ∧
      .refused ∉
        (Operation.record {} oneRepository.repo (.lookup () "posts") lateStore).2.events ∧
      ¬ oneRepository.Swept () noMigrations
        (Operation.run {} oneRepository.repo
          (.lookup () "posts") lateStore.store).2.disk := by
  have digest :
      Settings.migrationsDigest {} (oneRepository.repo ()) migratedUsers.store.disk =
      .ok noMigrations := by decide +kernel
  have stays : Settings.migrationsDigest {} (oneRepository.repo ()) lateStore.store.disk =
      .ok noMigrations := by decide +kernel
  have ended : Noting.put {} oneRepository.repo () "posts" (.empty "posts") migratedUsers =
      (.ok (), lateStore) := Prod.ext (by decide +kernel) rfl
  have clean : .refused ∉ lateStore.events := by decide +kernel
  -- The marker has the digest of now, and the schema that was stored first has another one.
  have put := Noting.ensures_put_marked (t := "posts") isNamed_oneRepository rfl (by decide)
    (.empty "posts") digest migratedUsers ⟨⟨rfl, fun _ => rfl⟩, rfl⟩
  rw [ended] at put
  obtain ⟨stored, ⟨late, wroteLate, fileLate⟩, kept⟩ := put.holds clean
  obtain ⟨text, wrote, file⟩ :
      ∃ text, StoredSchema.entryText ⟨.empty "users", "empty"⟩ = .ok text ∧
      migratedUsers.store.disk.HasFile (oneRepository.entryPlace () "users") text.toUTF8 :=
    ⟨_, rfl, rfl⟩
  have inside : oneRepository.place (oneRepository.directory ()) <+:
      oneRepository.entryPlace () "users" := List.prefix_append _ _
  have other :
      oneRepository.entryPlace () "users" ≠ oneRepository.entryPlace () "posts" := by decide
  refine ⟨stays, ?_, ?_, ?_⟩
  · obtain ⟨found, looked⟩ := Cache.exists_lookup_of_hasFile (t := "posts") rfl (by decide)
      rfl stays stored wroteLate fileLate
    rw [Operation.run, run_map, looked]
    rfl
  · rw [Operation.record, run_map_state]
    exact Noting.clean_lookup rfl (by decide) rfl
      (Noting.run_currentDigest stays stored) clean
  · intro swept
    rw [Operation.run, run_map_state] at swept
    have left := Cache.file_of_lookup rfl (by decide) rfl stays stored other
      (kept _ _ inside other file)
    have records := swept.current _ _ inside nofun left
    have older := Cache.records_of_text (StoredSchema.entryText_eq_ok.1 wrote).1
    exact absurd (records.unique older) (by decide)

end Tended

end Schemata
