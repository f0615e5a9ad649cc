/-
Every operation of the cache is a sequence of steps.

The operations are taken apart along their definitions, by the rules for operations that may
fail. Two conditions are carried from step to step: with which digest the operation works
(`Working`), and that the marker of the repository can be reached, unless a write was refused
(`Ready`). An operation is working when it has asked for the digest, and ready when it has
swept or stored.
-/
import Schemata.Proofs.Cache.Step
import Schemata.Proofs.Migrations
import Schemata.Proofs.Schema.Plain

namespace Schemata

/-! ## Asking and changing -/

namespace Caching

variable {α : Type}

theorem run_ask (f : Disk → Except Fault α) (σ : Store) :
    (ask f : Caching α) σ = (f σ.disk, σ) := by
  have got : (get : Caching Store) σ = (.ok σ, σ) := rfl
  unfold ask
  rw [run_bind, got]
  dsimp only
  cases f σ.disk <;> rfl

theorem run_change (f : Disk → Except Fault α × Disk) (σ : Store) :
    (change f : Caching α) σ = ((f σ.disk).1, { σ with disk := (f σ.disk).2 }) := by
  have got : (get : Caching Store) σ = (.ok σ, σ) := rfl
  have put : (set { σ with disk := (f σ.disk).2 } : Caching Unit) σ =
      (.ok (), { σ with disk := (f σ.disk).2 }) := rfl
  unfold change
  rw [run_bind, got]
  dsimp only
  rw [run_bind, put]
  cases (f σ.disk).1 <;> rfl

/-- A refusal by the file system is no failure. -/
def accepted : Except Fault Unit → Except Fault Unit
  | .error (.file _ _) => .ok ()
  | r => r

theorem run_attempt (f : Disk → Except Fault Unit × Disk) (σ : Store) :
    attempt f σ = (accepted (f σ.disk).1, { σ with disk := (f σ.disk).2 }) := by
  have changed := run_change f σ
  unfold attempt
  simp only [tryCatch, tryCatchThe, MonadExceptOf.tryCatch, ExceptT.tryCatch,
    ExceptT.mk, bind, StateT.bind]
  rw [changed]
  cases (f σ.disk).1 with
  | ok a => rfl
  | error e => cases e <;> rfl

/-- Removing a directory leaves the files as they are, or removes what is at its place, which
was reached as a directory. -/
theorem removeDirectory_cases (p : Path) (σ : Store) :
    (Cache.removeDirectory p σ).2 = σ ∨
      (σ.disk.Reaches p ∧ σ.disk.HasDirectory (σ.disk.place p) ∧
        (Cache.removeDirectory p σ).2 =
          { σ with disk := σ.disk.eraseTree (σ.disk.place p) }) := by
  unfold Cache.removeDirectory
  rw [run_bind, run_ask]
  cases σ.disk.hasEntry p with
  | error e => exact .inl rfl
  | ok there =>
    cases there with
    | false => exact .inl rfl
    | true =>
      simp only [if_true, run_change]
      rcases σ.disk.removeTree_cases p with same | ⟨reaches, directory, gone⟩
      · left
        rw [same]
      · right
        rw [gone]
        exact ⟨reaches, directory, rfl⟩

/-- A clearing removes the directory of the repository. -/
theorem run_clear {ι : Type} {s : Settings} {home : Location} (F : Family ι s home) (i : ι)
    {σ : Store} (h : σ.disk.home = home) :
    Cache.clearRepository s (F.repo i) σ = Cache.removeDirectory (F.directory i) σ := by
  unfold Cache.clearRepository
  rw [run_bind, run_ask, F.directory_eq i h]

theorem run_infer (s : Settings) (repo : Repository) (table : Value) (i : Introspector)
    (σ : Store) :
    Cache.infer s repo table (some i) σ =
      (i.table repo table >>= fun tree => Table.build tree (.dialect i.dialect) >>=
        Schema.ofTable s.inference.bareDocument, { σ with asked := σ.asked ++ [table] }) :=
  run_ask
    (fun _ => i.table repo table >>= fun tree => Table.build tree (.dialect i.dialect) >>=
    Schema.ofTable s.inference.bareDocument) { σ with asked := σ.asked ++ [table] }

/-- Inferring a schema changes no file, and the schema is one that can be stored. -/
theorem infer_cases (s : Settings) (repo : Repository) (table : Value)
    (i : Option Introspector)
    (σ : Store) :
    (Cache.infer s repo table i σ).2.disk = σ.disk ∧
      ∀ schema, (Cache.infer s repo table i σ).1 = .ok schema → schema.Representable := by
  cases i with
  | none => exact ⟨rfl, nofun⟩
  | some i =>
    rw [run_infer]
    refine ⟨rfl, fun schema h => ?_⟩
    obtain ⟨tree, -, built⟩ := bind_eq_ok.1 h
    obtain ⟨t, -, compiled⟩ := bind_eq_ok.1 built
    exact Schema.ofTable_representable compiled

end Caching

namespace Noting

open Caching Disk

variable {ι : Type} {s : Settings} {home : Location} {F : Family ι s home}
variable {α : Type} {P : Chronicle ι → Prop} {E : Chronicle ι → Prop}

/-! ## Single steps of operations -/

theorem run_silently_ask (f : Disk → Except Fault α) (c : Chronicle ι) :
    (silently (ask f) : Noting ι α) c = (f c.store.disk, c) := by
  unfold silently
  rw [run_ask]

theorem ensures_ask (f : Disk → Except Fault α) (failed : ∀ c, P c → E c) :
    Ensures P (silently (ask f)) (fun a c => P c ∧ f c.store.disk = .ok a) E := by
  intro c hc
  rw [run_silently_ask]
  cases h : f c.store.disk with
  | ok a => exact ⟨hc, h⟩
  | error e => exact failed c hc

/-- A question with one answer. -/
theorem ensures_ask_eq {f : Disk → Except Fault α} {a : α}
    (h : ∀ c, P c → f c.store.disk = .ok a) :
    Ensures P (silently (ask f)) (fun b c => b = a ∧ P c) E := by
  intro c hc
  rw [run_silently_ask, h c hc]
  exact ⟨rfl, hc⟩

theorem ensures_clearRepository {Q : Chronicle ι → Prop} (i : ι)
    (home : ∀ c, P c → c.store.disk.home = home) (same : ∀ c, P c → Q c)
    (gone : ∀ c, P c → c.store.disk.Reaches (F.directory i) →
      c.store.disk.HasDirectory (F.place (F.directory i)) →
      Q { c with
        store := { c.store with
          disk := c.store.disk.eraseTree (F.place (F.directory i)) } }) :
    Ensures P (silently (Cache.clearRepository s (F.repo i))) (fun _ => Q) Q := by
  refine Ensures.of_state fun c hc => ?_
  have here := home c hc
  unfold silently
  rw [run_clear F i here]
  rcases removeDirectory_cases (F.directory i) c.store with e | ⟨reaches, there, e⟩
  · rw [e]
    exact same c hc
  · rw [F.place_eq here] at there e
    rw [e]
    exact gone c hc reaches there

/-- A write is refused, or it is done. -/
theorem ensures_writeText {Q : Chronicle ι → Prop} {p : Path} {n text : String}
    {events : List (Event ι)}
    (refused : ∀ c e, P c → c.store.disk.Grows e →
      Q ⟨{ c.store with disk := e }, .refused :: c.events⟩ ∧
      E ⟨{ c.store with disk := e }, .refused :: c.events⟩)
    (done : ∀ c e, P c → c.store.disk.Written p n text.toUTF8 e →
      Q ⟨{ c.store with disk := e }, events ++ c.events⟩) :
    Ensures P (writeText (p.child n) text events) (fun _ => Q) E := by
  intro c hc
  have unfolded : writeText (p.child n) text events c =
      (accepted (c.store.disk.write (p.child n) text.toUTF8).1,
        ⟨{ c.store with disk := (c.store.disk.write (p.child n) text.toUTF8).2 },
          outcome events (c.store.disk.write (p.child n) text.toUTF8).1 ++ c.events⟩) := by
    unfold writeText Caching.writeText
    rw [run_attempt]
  rw [unfolded]
  rcases c.store.disk.write_cases p n text.toUTF8 with ⟨f, e, w, grows⟩ | ⟨e, w, written⟩
  · rw [w]
    have after := refused c e hc grows
    cases f with
    | file t path => exact after.1
    | _ => exact after.2
  · rw [w]
    exact done c e hc written

/-! ## What an operation carries along -/

end Noting

section Conditions

variable {ι : Type} [DecidableEq ι] {s : Settings} {home : Location} (F : Family ι s home)
  (x : Scene ι)

/-- Steps led here. -/
structure Here (k : Option ι) (y : Scene ι) : Prop where
  steps : Steps F k x y
  home_eq : y.disk.home = home

/-- An operation on a repository has asked for the digest, of the files as they were when it
began. -/
structure Working (i : ι) (disk : Disk) (D : String) (y : Scene ι) : Prop extends
    Here F x (some i) y where
  use : lastUse y.events i = some disk
  digest : s.migrationsDigest (F.repo i) disk = .ok D

/-- The marker of the repository can be reached as well. -/
structure Ready (i : ι) (disk : Disk) (D : String) (y : Scene ι) : Prop extends
    Working F x i disk D y where
  reaches : .refused ∉ y.events → y.disk.Reaches (F.marker i)

variable {F x}

theorem Here.step {k : Option ι} {y z : Scene ι} (h : Here F x k y) (step : Step F k y z) :
    Here F x k z :=
  ⟨h.steps.tail step, step.home_eq.trans h.home_eq⟩

theorem Working.works {i : ι} {disk : Disk} {D : String} {y : Scene ι}
    (h : Working F x i disk D y) : F.Works y.events i D :=
  ⟨disk, h.use, h.digest⟩

/-- A step that begins no operation leaves the operation working. -/
theorem Working.step {i : ι} {disk : Disk} {D : String} {y z : Scene ι}
    (h : Working F x i disk D y) (step : Step F (some i) y z)
    (use : lastUse z.events i = lastUse y.events i) : Working F x i disk D z :=
  ⟨h.toHere.step step, use.trans h.use, h.digest⟩

theorem Working.solid {i : ι} {disk : Disk} {D : String} {y : Scene ι}
    (h : Working F x i disk D y) : Text.IsSolid D :=
  Settings.isSolid_migrationsDigest h.digest

end Conditions

namespace Noting

open Caching Disk

variable {ι : Type} [DecidableEq ι] {s : Settings} {home : Location} {F : Family ι s home}
  {x : Scene ι} {i : ι} {disk : Disk} {D : String} {t : String}

/-! ## The operations -/

theorem ensures_begin :
    Ensures (fun c => Here F x (some i) c.scene) (begin i)
      (fun disk c => (Here F x (some i) c.scene ∧ lastUse c.events i = some disk) ∧
        c.store.disk = disk) (fun c => Here F x (some i) c.scene) := by
  intro c here
  refine ⟨⟨here.step .used, ?_⟩, rfl⟩
  rw [lastUse_cons, Event.uses, if_pos rfl]
  rfl

theorem ensures_currentDigest :
    Ensures (fun c => (Here F x (some i) c.scene ∧ lastUse c.events i = some disk) ∧
        c.store.disk = disk)
      (currentDigest s F.repo i) (fun D c => Ready F x i disk D c.scene)
      (fun c => Here F x (some i) c.scene) := by
  unfold currentDigest
  refine (ensures_ask _ fun c h => h.1.1).bind fun D => ?_
  refine (ensures_ask _ fun c h => h.1.1.1).bind fun stored => ?_
  by_cases same : stored = some D
  · rw [if_neg (by simp [same])]
    refine Ensures.pure fun c h => ?_
    obtain ⟨⟨⟨⟨here, use⟩, rfl⟩, digest⟩, marker⟩ := h
    rw [same] at marker
    exact ⟨⟨here, use, digest⟩, fun _ => F.reaches_of_storedDigest i here.home_eq marker⟩
  · rw [if_pos (by simpa using same)]
    have swept : Ensures
        (fun c : Chronicle ι =>
          (((Here F x (some i) c.scene ∧ lastUse c.events i = some disk) ∧
          c.store.disk = disk) ∧ s.migrationsDigest (F.repo i) c.store.disk = .ok D) ∧
          s.storedDigest (F.repo i) c.store.disk = .ok stored)
        (silently (Cache.clearRepository s (F.repo i)))
        (fun _ c => Working F x i disk D c.scene)
        (fun c => Working F x i disk D c.scene) := by
      refine ensures_clearRepository i (fun c h => h.1.1.1.1.home_eq) ?_ ?_
      · rintro c ⟨⟨⟨⟨here, use⟩, rfl⟩, digest⟩, -⟩
        exact ⟨here, use, digest⟩
      · rintro c ⟨⟨⟨⟨here, use⟩, rfl⟩, digest⟩, marker⟩ reaches there
        have working : Working F x i c.store.disk D c.scene := ⟨here, use, digest⟩
        refine working.step (.removed (.inr ⟨D, working.works, ?_⟩) reaches there) rfl
        rw [marker]
        exact fun e => same (Except.ok.inj e)
    have swept := swept.weaken (fun _ h => h) (fun _ _ h => h) fun _ h => h.toHere
    refine swept.bind fun _ => ?_
    refine (ensures_ask_eq fun c h => F.marker_eq i h.home_eq).bind fun p => ?_
    refine Ensures.given fun path => ?_
    obtain ⟨q, n, marker, -⟩ := F.exists_markerPlace i
    rw [path, marker]
    refine (ensures_writeText (Q := fun c => Ready F x i disk D c.scene) ?_ ?_).bind
      fun _ => Ensures.pure fun _ h => h
    · intro c e working grows
      have after := working.step (.refused grows) rfl
      exact ⟨⟨after, fun clean => absurd (List.mem_cons_self ..) clean⟩, after.toHere⟩
    · intro c e working written
      have marks := F.marks_of_written marker written
      obtain ⟨-, -, -, -, reaches⟩ := marks.written
      exact ⟨working.step (.marked working.works marks) rfl, fun _ => reaches⟩

omit [DecidableEq ι] in
theorem run_lookupAt (F : Family ι s home) (i : ι) (ht : IsTable t) (D : String) {σ : Store}
    (h : σ.disk.home = home) :
    Cache.lookupAt s (F.repo i) (.text t) D σ =
      match Cache.reading (F.entry i t) D σ.disk with
      | .unreadable => (.ok none, σ)
      | .tooDeep => (.error .tooDeep, σ)
      | .fresh schema => (.ok (some schema), σ)
      | .stale => (.ok none, { σ with disk := σ.disk.erase (F.entryPlace i t) }) := by
  unfold Cache.lookupAt
  rw [run_bind, run_ask, F.entry_eq i h ht]
  dsimp only
  rw [run_bind]
  have got : (get : Caching Store) σ = (.ok σ, σ) := rfl
  rw [got]
  dsimp only
  cases reads : Cache.reading (F.entry i t) D σ.disk with
  | unreadable => rfl
  | tooDeep => rfl
  | fresh schema => rfl
  | stale =>
    obtain ⟨b, read⟩ := Cache.readBytes_of_reading (by rw [reads]; exact nofun)
    dsimp only
    rw [run_bind, run_attempt, remove_of_readBytes read, F.place_entry i h ht]
    rfl

omit [DecidableEq ι] in
theorem record_lookupAt (F : Family ι s home) (i : ι) (ht : IsTable t)
    (disk : Disk) (D : String)
    {c : Chronicle ι} (h : c.store.disk.home = home) :
    lookupAt s F.repo i t disk D c =
      match Cache.reading (F.entry i t) D c.store.disk with
      | .unreadable => (.ok none, ⟨c.store, .looked i t disk none :: c.events⟩)
      | .tooDeep => (.error .tooDeep, c)
      | .fresh schema =>
        (.ok (some schema), ⟨c.store, .looked i t disk (some schema) :: c.events⟩)
      | .stale => (.ok none, ⟨{ c.store with disk := c.store.disk.erase (F.entryPlace i t) },
          .looked i t disk none :: c.events⟩) := by
  unfold lookupAt silently
  rw [run_bind, run_lookupAt F i ht D h]
  cases Cache.reading (F.entry i t) D c.store.disk <;> rfl

theorem ensures_lookupAt (ht : IsTable t) :
    Ensures (fun c => Ready F x i disk D c.scene) (lookupAt s F.repo i t disk D)
      (fun _ c => Ready F x i disk D c.scene) (fun c => Here F x (some i) c.scene) := by
  intro c ready
  have looks : F.Looks c.scene i t disk D := ⟨ht, ready.use, ready.digest, ready.reaches⟩
  have clean {found : Option Schema}
      (h : .refused ∉ Event.looked i t disk found :: c.events) :
      .refused ∉ c.events := fun hr => h (.tail _ hr)
  rw [record_lookupAt F i ht disk D ready.home_eq]
  cases reads : Cache.reading (F.entry i t) D c.store.disk with
  | unreadable =>
    exact ⟨ready.toWorking.step (.missed looks reads) rfl, fun h => ready.reaches (clean h)⟩
  | tooDeep => exact ready.toWorking.toHere
  | fresh schema =>
    exact ⟨ready.toWorking.step (.found looks reads) rfl, fun h => ready.reaches (clean h)⟩
  | stale =>
    have here : c.store.disk.home = home := ready.home_eq
    obtain ⟨b, -, file⟩ := F.exists_hasFile_of_reading i here ht (by rw [reads]; exact nofun)
    refine ⟨ready.toWorking.step (.discarded looks reads file) rfl, fun h => ?_⟩
    exact Reaches.mono (d := c.store.disk) rfl (fun _ hd => file.hasDirectory_erase hd)
      (ready.reaches (clean h))

/-- The entry of a table is written, and its marker is not yet. -/
structure HalfStored (F : Family ι s home) (x : Scene ι) (i : ι) (disk : Disk) (D t : String)
    (schema : Schema) (y z : Scene ι) : Prop where
  before : Working F x i disk D y
  writes : F.Writes y i t schema D z.disk
  home_eq : z.disk.home = home
  events_eq : z.events = .stored i t schema D :: y.events

theorem HalfStored.step {schema : Schema} {y z w : Scene ι} {disk : Disk}
    (h : HalfStored F x i disk D t schema y z) (step : Step F (some i) y w)
    (use : lastUse w.events i = lastUse y.events i) : Working F x i disk D w :=
  h.before.step step use

theorem ensures_storeWith {schema : Schema} (ht : IsTable t) (hs : schema.Representable) :
    Ensures (fun c => Working F x i disk D c.scene) (storeWith s F.repo i t schema D)
      (fun _ c => Ready F x i disk D c.scene) (fun c => Here F x (some i) c.scene) := by
  unfold storeWith
  refine (ensures_ask_eq fun c h => F.entry_eq i h.home_eq ht).bind fun p => ?_
  refine Ensures.given fun path => ?_
  subst path
  refine (ensures_ask _ fun c h => h.toHere).bind fun text => ?_
  -- The entry is written, or refused, and in both cases the marker is written next.
  have entry : Ensures
      (fun c : Chronicle ι => Working F x i disk D c.scene ∧
        StoredSchema.entryText ⟨schema, D⟩ = .ok text)
      (writeText (F.entry i t) text [.stored i t schema D])
      (fun _ c => (Working F x i disk D c.scene ∧ .refused ∈ c.events) ∨
        ∃ y, HalfStored F x i disk D t schema y c.scene)
      (fun c => Here F x (some i) c.scene) := by
    refine ensures_writeText
      (Q := fun c => (Working F x i disk D c.scene ∧ .refused ∈ c.events) ∨
      ∃ y, HalfStored F x i disk D t schema y c.scene) ?_ ?_
    · rintro c e ⟨working, -⟩ grows
      have after := working.step (.refused grows) rfl
      exact ⟨.inl ⟨after, .head _⟩, after.toHere⟩
    · rintro c e ⟨working, wrote⟩ written
      exact .inr ⟨c.scene, working, ⟨ht, working.works, hs, text, wrote, written⟩,
        written.home.trans working.home_eq, rfl⟩
  refine entry.bind fun _ => ?_
  have known : ∀ c : Chronicle ι, ((Working F x i disk D c.scene ∧ .refused ∈ c.events) ∨
      ∃ y, HalfStored F x i disk D t schema y c.scene) → c.store.disk.home = home := by
    rintro c (⟨working, -⟩ | ⟨y, half⟩)
    · exact working.home_eq
    · exact half.home_eq
  refine (ensures_ask_eq fun c h => F.marker_eq i (known c h)).bind fun p => ?_
  refine Ensures.given fun path => ?_
  obtain ⟨q, n, marker, -⟩ := F.exists_markerPlace i
  rw [path, marker]
  refine ensures_writeText (Q := fun c => Ready F x i disk D c.scene) ?_ ?_
  · rintro c e (⟨working, -⟩ | ⟨y, half⟩) grows
    · have after := working.step (.refused grows) rfl
      exact ⟨⟨after, fun clean => absurd (List.mem_cons_self ..) clean⟩, after.toHere⟩
    · have scene : Step F (some i) y ⟨e, .refused :: c.events⟩ := by
        have half' := Step.halfStored half.writes grows
        rwa [← half.events_eq] at half'
      have use : lastUse (.refused :: c.events) i = lastUse y.events i := by
        rw [show c.events = _ from half.events_eq]
        rfl
      have after := half.step scene use
      exact ⟨⟨after, fun clean => absurd (List.mem_cons_self ..) clean⟩, after.toHere⟩
  · rintro c e (⟨working, refused⟩ | ⟨y, half⟩) written
    · have marks := F.marks_of_written marker written
      exact ⟨working.step (.marked working.works marks) rfl,
        fun clean => absurd refused clean⟩
    · have marks := F.marks_of_written marker written
      obtain ⟨-, -, -, -, reaches⟩ := marks.written
      have scene : Step F (some i) y ⟨e, c.events⟩ := by
        have stored := Step.stored half.writes marks
        rwa [← half.events_eq] at stored
      have use : lastUse c.events i = lastUse y.events i := by
        rw [show c.events = _ from half.events_eq]
        rfl
      exact ⟨half.step scene use, fun _ => reaches⟩

omit [DecidableEq ι] in
/-- A digest that is given is used, unless it is blank. -/
theorem digestOr_some (repo : ι → Repository) (i : ι) (solid : Text.IsSolid D) :
    digestOr s repo i (some D) = pure D := by
  rw [digestOr, Option.filter_some_pos (by simpa using solid.nonempty)]

/-- A schema that is stored for a digest is stored under it. -/
theorem ensures_store {schema : Schema} (ht : IsTable t) (hs : schema.Representable) :
    Ensures (fun c => Ready F x i disk D c.scene) (store s F.repo i t schema (some D))
      (fun _ c => Ready F x i disk D c.scene) (fun c => Here F x (some i) c.scene) := by
  unfold store
  split
  · intro c ready
    rw [digestOr_some F.repo i ready.toWorking.solid]
    exact ensures_storeWith ht hs c ready.toWorking
  · exact Ensures.pure fun _ h => h

theorem ensures_put {schema : Schema} (ht : IsTable t) (hs : schema.Representable) :
    Ensures (fun c => Here F x (some i) c.scene) (put s F.repo i t schema)
      (fun _ c => Here F x (some i) c.scene) (fun c => Here F x (some i) c.scene) := by
  unfold put
  refine ensures_begin.bind fun disk => ?_
  unfold store
  split
  · refine (ensures_ask _ fun c h => h.1.1).bind fun D => ?_
    refine Ensures.weaken (P := fun c => Working F x i disk D c.scene)
      (ensures_storeWith ht hs)
      (fun c h => ?_) (fun _ _ h => h.toHere) fun _ h => h
    obtain ⟨⟨⟨here, use⟩, rfl⟩, digest⟩ := h
    exact ⟨here, use, digest⟩
  · exact Ensures.pure fun _ h => h.1.1

/-- What an operation knows when it has asked for its digest: it is ready, or the cache is not
in use. -/
def Prepared (F : Family ι s home) (x : Scene ι) (i : ι) (disk : Disk) : Option String →
    Scene ι → Prop
  | some D, y => Ready F x i disk D y
  | none, y => Here F x (some i) y ∧ Cache.isEnabled s = false

theorem Prepared.here {disk : Disk} {digest : Option String} {y : Scene ι}
    (h : Prepared F x i disk digest y) : Here F x (some i) y := by
  cases digest with
  | some D => exact h.toHere
  | none => exact h.1

theorem ensures_workingDigest :
    Ensures (fun c => (Here F x (some i) c.scene ∧ lastUse c.events i = some disk) ∧
        c.store.disk = disk)
      (workingDigest s F.repo i) (fun digest c => Prepared F x i disk digest c.scene)
      (fun c => Here F x (some i) c.scene) := by
  unfold workingDigest
  split
  · exact ensures_currentDigest.map fun _ _ h => h
  · rename_i disabled
    exact Ensures.pure fun _ h => ⟨h.1.1, by simpa using disabled⟩

theorem ensures_lookup (ht : IsTable t) :
    Ensures (fun c => Here F x (some i) c.scene) (lookup s F.repo i t)
      (fun _ c => Here F x (some i) c.scene) (fun c => Here F x (some i) c.scene) := by
  unfold lookup
  refine ensures_begin.bind fun disk => ?_
  split
  · refine ensures_currentDigest.bind fun D => ?_
    exact (ensures_lookupAt ht).weaken (fun _ h => h) (fun _ _ h => h.toHere) fun _ h => h
  · exact Ensures.pure fun _ h => h.1.1

theorem ensures_infer (introspector : Option Introspector) {digest : Option String} :
    Ensures (fun c => Prepared F x i disk digest c.scene)
      (silently (Cache.infer s (F.repo i) (.text t) introspector))
      (fun schema c => schema.Representable ∧ Prepared F x i disk digest c.scene)
      (fun c => Here F x (some i) c.scene) := by
  intro c prepared
  obtain ⟨same, representable⟩ := infer_cases s (F.repo i) (.text t) introspector c.store
  have scene : Chronicle.scene { c with
      store := (Cache.infer s (F.repo i) (.text t) introspector c.store).2 } = c.scene := by
    rw [Chronicle.scene, same, Chronicle.scene]
  rw [← scene] at prepared
  unfold silently
  cases h : Cache.infer s (F.repo i) (.text t) introspector c.store with
  | mk r σ =>
    rw [h] at representable prepared
    cases r with
    | ok schema => exact ⟨representable schema rfl, prepared⟩
    | error e => exact prepared.here

theorem ensures_obtainAt (ht : IsTable t) (introspector : Option Introspector)
    (digest : Option String) :
    Ensures (fun c => Prepared F x i disk digest c.scene)
      (obtainAt s F.repo i t introspector disk digest)
      (fun _ c => Prepared F x i disk digest c.scene)
      (fun c => Here F x (some i) c.scene) := by
  have made : Ensures (fun c => Prepared F x i disk digest c.scene)
      (do
        let schema ← silently (Cache.infer s (F.repo i) (.text t) introspector)
        store s F.repo i t schema digest
        pure schema)
      (fun _ c => Prepared F x i disk digest c.scene)
      (fun c => Here F x (some i) c.scene) := by
    refine (ensures_infer introspector).bind fun schema => Ensures.given fun hs => ?_
    refine Ensures.bind ?_ fun _ => Ensures.pure fun _ h => h
    cases digest with
    | some D => exact ensures_store ht hs
    | none =>
      unfold store
      split
      · rename_i enabled
        intro c h
        exact absurd enabled (by simp [h.2])
      · exact Ensures.pure fun _ h => h
  unfold obtainAt
  cases digest with
  | some D =>
    refine (ensures_lookupAt ht).bind fun found => ?_
    cases found with
    | some schema => exact Ensures.pure fun _ h => h
    | none => exact made
  | none => exact made

theorem ensures_obtain (ht : IsTable t) (introspector : Option Introspector) :
    Ensures (fun c => Here F x (some i) c.scene) (obtain s F.repo i t introspector)
      (fun _ c => Here F x (some i) c.scene) (fun c => Here F x (some i) c.scene) := by
  unfold Noting.obtain
  refine ensures_begin.bind fun disk => ensures_workingDigest.bind fun digest => ?_
  refine (ensures_obtainAt ht introspector digest).weaken (fun _ h => h) ?_ fun _ h => h
  exact fun _ _ h => h.here

theorem ensures_warmUp {ts : List String} (hts : ∀ t ∈ ts, IsTable t)
    (introspector : Option Introspector) :
    Ensures (fun c => Here F x (some i) c.scene) (warmUp s F.repo i ts introspector)
      (fun _ c => Here F x (some i) c.scene) (fun c => Here F x (some i) c.scene) := by
  unfold warmUp
  refine ensures_begin.bind fun disk => ensures_workingDigest.bind fun digest => ?_
  refine Ensures.weaken (Ensures.mapM fun t ht => ?_) (fun _ h => h) ?_ fun _ h => h
  · exact ensures_obtainAt (hts t ht) introspector digest
  · exact fun _ _ h => h.here

theorem ensures_clear :
    Ensures (fun c => Here F x (some i) c.scene) (clear s F.repo i)
      (fun _ c => Here F x (some i) c.scene) (fun c => Here F x (some i) c.scene) := by
  have noted : Ensures (fun c => Here F x (some i) c.scene) (note (.cleared i))
      (fun _ c => Here F x (some i) c.scene ∧ c.events.head? = some (.cleared i))
      (fun c => Here F x (some i) c.scene) :=
    fun c here => ⟨here.step .cleared, rfl⟩
  refine noted.bind fun _ => ?_
  refine ensures_clearRepository i (fun c h => h.1.home_eq) (fun c h => h.1) ?_
  intro c h reaches there
  exact h.1.step (.removed (.inl h.2) reaches there)

theorem ensures_clearAll :
    Ensures (fun c => Here F x none c.scene) (clearAll s)
      (fun _ c => Here F x none c.scene) (fun c => Here F x none c.scene) := by
  have noted : Ensures (fun c => Here F x none c.scene) (note .clearedAll)
      (fun _ c => Here F x none c.scene ∧ c.events.head? = some .clearedAll)
      (fun c => Here F x none c.scene) :=
    fun c here => ⟨here.step .clearedAll, rfl⟩
  refine noted.bind fun _ => Ensures.of_state fun c h => ?_
  have here : c.store.disk.home = home := h.1.home_eq
  have unfolded : Cache.clearAll s c.store = Cache.removeDirectory F.root c.store := by
    unfold Cache.clearAll
    rw [run_bind, run_ask, F.root_eq here]
  unfold silently
  rw [unfolded]
  rcases removeDirectory_cases F.root c.store with e | ⟨-, -, e⟩
  · rw [e]
    exact h.1
  · rw [F.place_eq here] at e
    rw [e]
    exact h.1.step (.removedAll h.2)

theorem ensures_refresh {ts : Option (List String)} (hts : ∀ us ∈ ts, ∀ t ∈ us, IsTable t)
    (introspector : Option Introspector) :
    Ensures (fun c => Here F x (some i) c.scene) (refresh s F.repo i ts introspector)
      (fun _ c => Here F x (some i) c.scene) (fun c => Here F x (some i) c.scene) := by
  unfold refresh
  refine ensures_clear.bind fun _ => ?_
  match ts, introspector with
  | none, _ => exact Ensures.pure fun _ h => h
  | some _, none => exact Ensures.throw fun _ h => h
  | some us, some introspector => exact ensures_warmUp (hts us rfl) (some introspector)

end Noting

/-! ## All operations -/

namespace Operation

variable {ι : Type}

/-- The names of tables are no paths, and a schema that is stored is one that can be
stored. -/
def IsValid : Operation ι → Prop
  | lookup _ t => IsTable t
  | put _ t schema => IsTable t ∧ schema.Representable
  | obtain _ t _ => IsTable t
  | warmUp _ ts _ => ∀ t ∈ ts, IsTable t
  | refresh _ ts _ => ∀ us ∈ ts, ∀ t ∈ us, IsTable t
  | clear _ => True
  | clearAll => True

/-- The repository that an operation is on; none for the whole cache. -/
def on : Operation ι → Option ι
  | lookup i _ => some i
  | put i _ _ => some i
  | obtain i _ _ => some i
  | warmUp i _ _ => some i
  | refresh i _ _ => some i
  | clear i => some i
  | clearAll => none

/-- An operation goes from the files and events before it in steps to those after it. -/
theorem record_steps [DecidableEq ι] {s : Settings} {home : Location} (F : Family ι s home)
    {op : Operation ι} (valid : op.IsValid) {c : Chronicle ι} (h : c.store.disk.home = home) :
    Steps F op.on c.scene (op.record s F.repo c).2.scene := by
  have ensured : Ensures (fun c' => Here F c.scene op.on c'.scene) (op.record s F.repo)
      (fun _ c' => Here F c.scene op.on c'.scene)
      (fun c' => Here F c.scene op.on c'.scene) := by
    cases op with
    | lookup i t => exact (Noting.ensures_lookup valid).map fun _ _ h => h
    | put i t schema => exact Noting.ensures_put valid.1 valid.2
    | obtain i t introspector =>
      exact (Noting.ensures_obtain valid introspector).map fun _ _ h => h
    | warmUp i ts introspector =>
      exact (Noting.ensures_warmUp valid introspector).map fun _ _ h => h
    | refresh i ts introspector =>
      exact (Noting.ensures_refresh valid introspector).map fun _ _ h => h
    | clear i => exact Noting.ensures_clear
    | clearAll => exact Noting.ensures_clearAll
  exact (ensured.state ⟨.refl, h⟩).steps

end Operation

end Schemata
