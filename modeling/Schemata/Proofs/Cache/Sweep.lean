/-
What a sweep leaves.

The marker of a repository says for which migrations its stored schemas hold. An operation
that asks for a schema compares the marker with the migrations, and sweeps if they differ:
whatever is in the directory goes, and the marker is renewed. Then every file in the directory
records the digest that the marker has (`Swept`). Between such operations less is known:
whatever digest the marker has, every file records that one (`Settled`). This is enough for
the next one, for which a marker that agrees is a sweep that need not be made.

What is known of the files is known only while no write was refused (`Tidy`). From a settled
cache every operation that asks for a schema comes to a swept one, and a store to a settled
one if every other file records its digest.
-/
import Schemata.Proofs.Cache.Failures
import Schemata.Proofs.Cache.Isolation

namespace Schemata

/-! ## Recorded digests -/

namespace Cache

/-- Bytes are the text of an object that records a digest. -/
def Records (D : String) (bytes : ByteArray) : Prop :=
  ∃ text members, Disk.decode bytes = .ok text ∧ Json.parse? text = some (.object members) ∧
    Json.get? members "digest" = some (.text D)

theorem Records.unique {D E : String} {bytes : ByteArray} (h : Records D bytes)
    (g : Records E bytes) : D = E := by
  obtain ⟨text, members, decoded, parsed, digest⟩ := h
  obtain ⟨text', members', decoded', parsed', digest'⟩ := g
  obtain rfl := Except.ok.inj (decoded.symm.trans decoded')
  obtain rfl := Json.object.inj (Option.some.inj (parsed.symm.trans parsed'))
  exact Json.text.inj (Option.some.inj (digest.symm.trans digest'))

/-- A stored schema records the digest that it was stored with. -/
theorem records_of_text {x : StoredSchema} {text : String} (h : x.text = .ok text) :
    Records x.digest text.toUTF8 :=
  ⟨text, _, StoredSchema.decode_text h, StoredSchema.parse?_text h, rfl⟩

end Cache

/-! ## Directories that are found -/

namespace Disk

/-- A path leads to a directory, and the system does not refuse it. -/
structure Houses (d : Disk) (p : Path) : Prop where
  usable : p.IsUsable
  reaches : d.Reaches p
  there : d.HasDirectory (d.place p)

theorem Houses.isDirectory_eq {d : Disk} {p : Path} (h : d.Houses p) :
    d.isDirectory p = .ok true := by
  have resolved : d.resolve p = .ok (d.place p) := by
    rw [resolve, if_neg (Nat.not_le.2 h.usable.short), h.reaches]
  have there : d.entry? (d.place p) = some .directory := h.there
  rw [isDirectory, entryAt, h.usable.noNull, find, resolved, ok_bind, there]
  rfl

/-- A directory is found while directories stay where they are. -/
theorem Houses.mono {d e : Disk} {p : Path} (h : d.Houses p) (home : e.home = d.home)
    (kept : ∀ l, d.HasDirectory l → e.HasDirectory l) : e.Houses p where
  usable := h.usable
  reaches := h.reaches.mono home kept
  there := by
    rw [place_congr home]
    exact kept _ h.there

/-- What was written is housed. -/
theorem Written.houses {d e : Disk} {p : Path} {n : String} {b : ByteArray}
    (h : Written d p n b e) (hp : p.LeavesHome) : e.Houses p where
  usable := h.usableParent
  reaches := h.reaches
  there := by
    rw [place_congr h.home]
    exact h.directory hp

end Disk

/-! ## Repositories that are swept -/

namespace Family

variable {ι : Type} {s : Settings} {home : Location} (F : Family ι s home) (i : ι)

/-- Every file in the directory of a repository, but for the entry of a table if one is named,
records a digest. -/
def Current (D : String) (table : Option String) (d : Disk) : Prop :=
  ∀ l b, F.place (F.directory i) <+: l → (∀ t ∈ table, l ≠ F.entryPlace i t) → d.HasFile l b →
    Cache.Records D b

/-- Where there are files in the directory of a repository, the directory is found. -/
def Housed (d : Disk) : Prop :=
  ∀ l b, F.place (F.directory i) <+: l → d.HasFile l b → d.Houses (F.directory i)

/-- The marker of a repository has a digest, and every file in its directory records it. -/
structure Swept (D : String) (d : Disk) : Prop where
  marker : d.HasFile (F.markerPlace i) D.toUTF8
  current : F.Current i D none d

/-- If the marker of a repository is there, it has a digest, and every file in the directory
records it. -/
structure Settled (d : Disk) : Prop where
  marker : ∀ b, d.HasFile (F.markerPlace i) b →
    ∃ D, Text.IsSolid D ∧ b = D.toUTF8 ∧ F.Current i D none d
  housed : F.Housed i d

variable {F i} {d e : Disk} {D : String} {t : String}

theorem Current.except (h : F.Current i D none d) (table : Option String) :
    F.Current i D table d :=
  fun l b inside _ file => h l b inside nofun file

theorem Swept.settled (h : F.Swept i D d) (solid : Text.IsSolid D) (housed : F.Housed i d) :
    F.Settled i d where
  marker b file := by
    have same : D.toUTF8 = b := Entry.file.inj (Option.some.inj (h.marker.symm.trans file))
    exact ⟨D, solid, same.symm, h.current⟩
  housed := housed

/-! ### What files come to -/

theorem Current.of_files {table : Option String} (h : F.Current i D table d)
    (files : ∀ l b, F.place (F.directory i) <+: l → e.HasFile l b → d.HasFile l b) :
    F.Current i D table e :=
  fun l b inside other file => h l b inside other (files l b inside file)

/-- A settled cache stays settled where files are removed, and directories are not. -/
theorem Settled.of_files (h : F.Settled i d) (files : ∀ l b, e.HasFile l b → d.HasFile l b)
    (housed : F.Housed i e) : F.Settled i e where
  marker b file := by
    obtain ⟨D, solid, same, current⟩ := h.marker b (files _ _ file)
    exact ⟨D, solid, same, current.of_files fun l b _ => files l b⟩
  housed := housed

/-- A marker is not in the directory of its repository. -/
theorem IsNamed.not_prefix_marker (named : F.IsNamed) :
    ¬ F.place (F.directory i) <+: F.markerPlace i := by
  intro inside
  have same := named.eq_of_prefix_marker i i inside
  rw [named.place_directory, named.markerPlace_eq] at same
  have names := congrArg String.length (List.singleton_inj.1 (List.append_cancel_left same))
  rw [String.length_append] at names
  have : markerEnding.length = 22 := by decide
  omega

/-- A marker that is written changes no file in the directory. -/
theorem Marks.file_iff (marks : F.Marks d i D e) (named : F.IsNamed) (home : d.home = home)
    {l : Location} {b : ByteArray} (inside : F.place (F.directory i) <+: l) :
    e.HasFile l b ↔ d.HasFile l b := by
  refine marks.hasFile_iff home ?_
  rintro rfl
  exact named.not_prefix_marker inside

theorem Marks.swept (marks : F.Marks d i D e) (named : F.IsNamed) (home : d.home = home)
    (current : F.Current i D none d) (housed : F.Housed i d) :
    F.Swept i D e ∧ F.Housed i e := by
  obtain ⟨p, n, place, written, -⟩ := marks.written
  refine ⟨⟨?_, current.of_files fun l b inside => (marks.file_iff named home inside).1⟩, ?_⟩
  · rw [place, ← F.place_eq home]
    exact written.file
  · intro l b inside file
    have before := housed l b inside ((marks.file_iff named home inside).1 file)
    exact before.mono written.home fun _ => written.hasDirectory

/-- An entry that is written with a digest is one more file that records it. -/
theorem current_of_written {schema : Schema} {text : String} (named : F.IsNamed)
    (home : d.home = home) (wrote : StoredSchema.entryText ⟨schema, D⟩ = .ok text)
    (written : d.Written (F.directory i) (t ++ ".json") text.toUTF8 e)
    (others : F.Current i D (some t) d) : F.Current i D none e ∧ F.Housed i e := by
  have place : d.place (F.directory i) ++ [t ++ ".json"] = F.entryPlace i t := by
    rw [F.place_eq home, entryPlace]
  constructor
  · intro l b inside _ file
    by_cases own : l = F.entryPlace i t
    · subst own
      have now := written.file
      rw [place] at now
      obtain rfl := Entry.file.inj (Option.some.inj (file.symm.trans now))
      exact Cache.records_of_text (StoredSchema.entryText_eq_ok.1 wrote).1
    · refine others l b inside (by rintro _ ⟨⟩; exact own) ((written.hasFile_iff ?_).1 file)
      rw [place]
      exact own
  · intro l b _ _
    refine written.houses ?_
    rw [named.directory_eq]
    exact Path.leavesHome_child _ _

/-- A stale entry that is removed leaves what is swept swept. -/
theorem Swept.erase (h : F.Swept i D d) (housed : F.Housed i d) {b : ByteArray}
    (file : d.HasFile (F.entryPlace i t) b) :
    F.Swept i D (d.erase (F.entryPlace i t)) ∧ F.Housed i (d.erase (F.entryPlace i t)) := by
  refine ⟨⟨?_, h.current.of_files fun _ _ _ hf => hf.of_erase.2⟩, ?_⟩
  · rw [Disk.HasFile, Disk.entry?_erase h.marker.ne_nil,
      if_neg (F.markerPlace_ne_entryPlace i i t)]
    exact h.marker
  · intro l b inside hf
    exact (housed l b inside hf.of_erase.2).mono rfl fun _ => file.hasDirectory_erase

/-- A digest that is read from the marker of a settled cache is recorded by every file. -/
theorem Settled.swept (h : F.Settled i d) (home : d.home = home)
    (stored : s.storedDigest (F.repo i) d = .ok (some D)) : F.Swept i D d := by
  rw [F.storedDigest_eq i home] at stored
  split at stored
  · rename_i text read
    obtain ⟨b, read, decoded⟩ := bind_eq_ok.1 read
    have file := (Disk.hasFile_of_readBytes read).2
    rw [F.place_eq home] at file
    obtain ⟨E, solid, rfl, current⟩ := h.marker b file
    rw [Disk.decode_toUTF8 solid.noReturn] at decoded
    obtain rfl := Except.ok.inj decoded
    obtain rfl : E = D := by
      rw [solid.stripped_eq] at stored
      exact Option.some.inj (Except.ok.inj stored)
    exact ⟨file, current⟩
  · cases stored
  · cases stored

/-! ### What a clearing comes to -/

variable {σ : Store} (here : σ.disk.home = home)

include here

/-- A clearing only removes. -/
theorem file_of_cleared (F : Family ι s home) (i : ι) :
    (Cache.clearRepository s (F.repo i) σ).2.disk.home = home ∧ ∀ l b,
      (Cache.clearRepository s (F.repo i) σ).2.disk.HasFile l b → σ.disk.HasFile l b := by
  rw [Caching.run_clear F i here]
  rcases Caching.removeDirectory_cases (F.directory i) σ with same | ⟨-, -, gone⟩
  · rw [same]
    exact ⟨here, fun _ _ hf => hf⟩
  · rw [gone]
    exact ⟨here, fun _ _ hf => hf.of_eraseTree.2⟩

/-- Where the directory of the repository is found if it holds files, no file of it is
left. -/
theorem Housed.cleared (h : F.Housed i σ.disk) {l : Location} {b : ByteArray}
    (inside : F.place (F.directory i) <+: l) :
    ¬ (Cache.clearRepository s (F.repo i) σ).2.disk.HasFile l b := by
  intro file
  have there := (h l b inside ((F.file_of_cleared here i).2 l b file)).isDirectory_eq
  rw [Cache.run_clearRepository here there] at file
  exact file.of_eraseTree.1 inside

/-- A settled cache is settled after a clearing, and empty. -/
theorem Settled.cleared (h : F.Settled i σ.disk) :
    F.Settled i (Cache.clearRepository s (F.repo i) σ).2.disk ∧
      ∀ D, F.Current i D none (Cache.clearRepository s (F.repo i) σ).2.disk := by
  refine ⟨h.of_files (F.file_of_cleared here i).2 ?_, ?_⟩
  · exact fun l b inside file => absurd file (h.housed.cleared here inside)
  · exact fun D l b inside _ file => absurd file (h.housed.cleared here inside)

end Family

/-! ## Operations that are not refused a write -/

/-- The working directory is that of the family, and if no write was refused, the files are as
`P` says. -/
structure Family.Tidy {ι : Type} {s : Settings} {home : Location} (_ : Family ι s home)
    (P : Disk → Prop) (c : Chronicle ι) : Prop where
  home_eq : c.store.disk.home = home
  holds : .refused ∉ c.events → P c.store.disk

namespace Family.Tidy

variable {ι : Type} {s : Settings} {home : Location} {F : Family ι s home} {P Q : Disk → Prop}
  {c : Chronicle ι}

theorem imp (h : F.Tidy P c) (weaker : ∀ d, P d → Q d) : F.Tidy Q c :=
  ⟨h.home_eq, fun clean => weaker _ (h.holds clean)⟩

/-- An event may be added. -/
theorem note (h : F.Tidy P c) (e : Event ι) : F.Tidy P { c with events := e :: c.events } :=
  ⟨h.home_eq, fun clean => h.holds fun refused => clean (.tail _ refused)⟩

/-- Nothing is said of the files after a refusal. -/
theorem of_refused (here : c.store.disk.home = home) (refused : .refused ∈ c.events) :
    F.Tidy P c :=
  ⟨here, fun clean => absurd refused clean⟩

end Family.Tidy

namespace Noting

open Caching

variable {ι : Type} {s : Settings} {home : Location} {F : Family ι s home} {i : ι}
  {t D : String}
  {d : Disk}

/-- What is ensured from all files that an operation may find is ensured. -/
theorem ensures_of_disk {α : Type} {P : Chronicle ι → Prop} {m : Noting ι α}
    {Q : α → Chronicle ι → Prop} {E : Chronicle ι → Prop}
    (h : ∀ d, Ensures (fun c => P c ∧ c.store.disk = d) m Q E) : Ensures P m Q E :=
  fun c hc => h c.store.disk c ⟨hc, rfl⟩

theorem ensures_begin_tidy {P : Disk → Prop} {E : Chronicle ι → Prop} :
    Ensures (fun c => F.Tidy P c ∧ c.store.disk = d) (begin i)
      (fun _ c => F.Tidy P c ∧ c.store.disk = d) E :=
  fun _ h => ⟨h.1.note _, h.2⟩

theorem ensures_cleared :
    Ensures (F.Tidy (F.Settled i)) (silently (Cache.clearRepository s (F.repo i)))
      (fun _ => F.Tidy fun d => F.Settled i d ∧ ∀ D, F.Current i D none d)
      (F.Tidy (F.Settled i)) := by
  have after := Ensures.of_state (P := F.Tidy (F.Settled i))
    (m := silently (Cache.clearRepository s (F.repo i)))
    (Q := F.Tidy fun d => F.Settled i d ∧ ∀ D, F.Current i D none d)
    fun c tidy =>
      ⟨(F.file_of_cleared tidy.home_eq i).1,
        fun clean => (tidy.holds clean).cleared tidy.home_eq⟩
  exact after.weaken (fun _ h => h) (fun _ _ h => h) fun _ h => h.imp fun _ h => h.1

/-- The marker is written, or the write is refused. -/
theorem ensures_marks {P E : Disk → Prop} :
    Ensures (F.Tidy P) (writeText (F.marker i) D [])
      (fun _ => F.Tidy fun e => ∃ d, P d ∧ d.home = home ∧ F.Marks d i D e) (F.Tidy E) := by
  obtain ⟨p, n, marker, -⟩ := F.exists_marker i
  rw [marker]
  refine ensures_writeText
    (Q := F.Tidy fun e => ∃ d, P d ∧ d.home = home ∧ F.Marks d i D e) ?_ ?_
  · intro c e tidy grows
    have here := grows.home.trans tidy.home_eq
    exact ⟨.of_refused here (.head _), .of_refused here (.head _)⟩
  · intro c e tidy written
    exact ⟨written.home.trans tidy.home_eq, fun clean =>
      ⟨_, tidy.holds clean, tidy.home_eq, F.marks_of_written marker written⟩⟩

/-- Whoever asks for the digest sweeps, unless the marker has it already. -/
theorem ensures_currentDigest_swept (named : F.IsNamed) :
    Ensures (fun c => F.Tidy (F.Settled i) c ∧ c.store.disk = d) (currentDigest s F.repo i)
      (fun D c => s.migrationsDigest (F.repo i) d = .ok D ∧
        F.Tidy (fun d => F.Swept i D d ∧ F.Housed i d) c)
      (F.Tidy (F.Settled i)) := by
  unfold currentDigest
  refine (ensures_ask _ fun c h => h.1).bind fun D => ?_
  refine (ensures_ask _ fun c h => h.1.1).bind fun stored => ?_
  by_cases same : stored = some D
  · rw [if_neg (by simp [same])]
    refine Ensures.pure fun c h => ?_
    obtain ⟨⟨⟨tidy, rfl⟩, digest⟩, marker⟩ := h
    rw [same] at marker
    refine ⟨digest, tidy.home_eq, fun clean => ?_⟩
    have settled := tidy.holds clean
    exact ⟨settled.swept tidy.home_eq marker, settled.housed⟩
  · rw [if_pos (by simpa using same)]
    refine Ensures.weaken
      (P := fun c => s.migrationsDigest (F.repo i) d = .ok D ∧ F.Tidy (F.Settled i) c)
      (Ensures.given fun digest => ?_) ?_ (fun _ _ h => h) fun _ h => h
    · refine ensures_cleared.bind fun _ => ?_
      refine (ensures_ask_eq fun c h => F.marker_eq i h.home_eq).bind fun p => ?_
      refine Ensures.given fun path => ?_
      subst path
      refine Ensures.bind ?_ fun _ => Ensures.pure fun _ h => ⟨digest, h⟩
      refine ensures_marks.weaken (fun _ h => h) (fun _ _ h => h.imp ?_) fun _ h => h
      rintro e ⟨d, ⟨settled, current⟩, here, marks⟩
      exact marks.swept named here (current D) settled.housed
    · rintro c ⟨⟨⟨tidy, rfl⟩, digest⟩, -⟩
      exact ⟨digest, tidy⟩

/-- What a look-up finds depends on what is in the place of the entry. Where it fails, nothing
is changed. -/
theorem ensures_lookupAt_tidy (ht : IsTable t) (disk : Disk) {P : Disk → Prop}
    {Q : Option Schema → Disk → Prop} {E : Chronicle ι → Prop}
    (failed : ∀ c, F.Tidy P c → E c)
    (h : ∀ d, d.home = home → P d →
      match Cache.reading (F.entry i t) D d with
      | .unreadable => Q none d
      | .tooDeep => True
      | .fresh schema => Q (some schema) d
      | .stale => Q none (d.erase (F.entryPlace i t))) :
    Ensures (F.Tidy P) (lookupAt s F.repo i t disk D) (fun found => F.Tidy (Q found)) E := by
  intro c tidy
  have before {found : Option Schema}
      (clean : .refused ∉ Event.looked i t disk found :: c.events) :=
    h _ tidy.home_eq (tidy.holds fun refused => clean (.tail _ refused))
  rw [record_lookupAt F i ht disk D tidy.home_eq]
  cases reads : Cache.reading (F.entry i t) D c.store.disk with
  | tooDeep => exact failed c tidy
  | unreadable | fresh _ | stale =>
    refine ⟨tidy.home_eq, fun clean => ?_⟩
    have found := before clean
    rwa [reads] at found

/-- What is swept is settled, since the digest is one of migrations. -/
theorem tidy_settled_of_swept (digest : s.migrationsDigest (F.repo i) d = .ok D)
    {c : Chronicle ι}
    (h : F.Tidy (fun d => F.Swept i D d ∧ F.Housed i d) c) : F.Tidy (F.Settled i) c :=
  h.imp fun _ h => h.1.settled (Settings.isSolid_migrationsDigest digest) h.2

theorem ensures_lookupAt_swept (ht : IsTable t) (disk : Disk)
    (digest : s.migrationsDigest (F.repo i) d = .ok D) :
    Ensures (F.Tidy fun d => F.Swept i D d ∧ F.Housed i d) (lookupAt s F.repo i t disk D)
      (fun _ => F.Tidy fun d => F.Swept i D d ∧ F.Housed i d) (F.Tidy (F.Settled i)) := by
  refine ensures_lookupAt_tidy ht disk (fun c h => tidy_settled_of_swept digest h) ?_
  intro e here ⟨swept, housed⟩
  cases reads : Cache.reading (F.entry i t) D e with
  | unreadable => exact ⟨swept, housed⟩
  | tooDeep => trivial
  | fresh schema => exact ⟨swept, housed⟩
  | stale =>
    obtain ⟨b, -, file⟩ := F.exists_hasFile_of_reading i here ht (by rw [reads]; exact nofun)
    exact swept.erase housed file

/-- A schema is stored and the marker renewed, and nothing is swept, or a write is refused. -/
theorem ensures_storeWith_writes (ht : IsTable t) {schema : Schema} {P : Disk → Prop} :
    Ensures (F.Tidy P) (storeWith s F.repo i t schema D)
      (fun _ => F.Tidy fun f => ∃ d e text, P d ∧ d.home = home ∧
        StoredSchema.entryText ⟨schema, D⟩ = .ok text ∧
        d.Written (F.directory i) (t ++ ".json") text.toUTF8 e ∧ F.Marks e i D f)
      (F.Tidy P) := by
  unfold storeWith
  refine (ensures_ask_eq fun c h => F.entry_eq i h.home_eq ht).bind fun p => ?_
  refine Ensures.given fun path => ?_
  subst path
  refine (ensures_ask _ fun c h => h).bind fun text => ?_
  have entry : Ensures
      (fun c : Chronicle ι => F.Tidy P c ∧ StoredSchema.entryText ⟨schema, D⟩ = .ok text)
      (writeText (F.entry i t) text [.stored i t schema D])
      (fun _ => F.Tidy fun e => ∃ d, P d ∧ d.home = home ∧
        StoredSchema.entryText ⟨schema, D⟩ = .ok text ∧
        d.Written (F.directory i) (t ++ ".json") text.toUTF8 e)
      (F.Tidy P) := by
    refine ensures_writeText (Q := F.Tidy fun e => ∃ d, P d ∧ d.home = home ∧
      StoredSchema.entryText ⟨schema, D⟩ = .ok text ∧
      d.Written (F.directory i) (t ++ ".json") text.toUTF8 e) ?_ ?_
    · rintro c e ⟨tidy, -⟩ grows
      have here := grows.home.trans tidy.home_eq
      exact ⟨.of_refused here (.head _), .of_refused here (.head _)⟩
    · rintro c e ⟨tidy, wrote⟩ written
      refine ⟨written.home.trans tidy.home_eq, fun clean => ?_⟩
      have before := tidy.holds fun refused => clean (List.mem_append_right _ refused)
      exact ⟨_, before, tidy.home_eq, wrote, written⟩
  refine entry.bind fun _ => ?_
  refine (ensures_ask_eq fun c h => F.marker_eq i h.home_eq).bind fun p => ?_
  refine Ensures.given fun path => ?_
  subst path
  refine ensures_marks.weaken (fun _ h => h) (fun _ _ h => h.imp ?_) fun _ h => h
  rintro f ⟨e, ⟨d, before, here, wrote, written⟩, -, marks⟩
  exact ⟨d, e, text, before, here, wrote, written, marks⟩

/-- That every file records the digest after a store takes that every other one did before. -/
theorem ensures_storeWith_swept (named : F.IsNamed) (ht : IsTable t) {schema : Schema} :
    Ensures (F.Tidy fun d => F.Settled i d ∧ F.Current i D (some t) d)
      (storeWith s F.repo i t schema D)
      (fun _ => F.Tidy fun d => F.Swept i D d ∧ F.Housed i d) (F.Tidy (F.Settled i)) := by
  refine (ensures_storeWith_writes ht).weaken (fun _ h => h) (fun _ _ h => h.imp ?_)
    fun _ h => h.imp fun _ h => h.1
  rintro f ⟨d, e, text, ⟨-, others⟩, here, wrote, written, marks⟩
  obtain ⟨current, housed⟩ := Family.current_of_written named here wrote written others
  exact marks.swept named (written.home.trans here) current housed

/-- Inferring changes no file. -/
theorem ensures_infer_tidy (introspector : Option Introspector) {P : Disk → Prop} :
    Ensures (F.Tidy P) (silently (Cache.infer s (F.repo i) (.text t) introspector))
      (fun _ => F.Tidy P) (F.Tidy P) := by
  refine Ensures.of_state fun c tidy => ?_
  have same := (infer_cases s (F.repo i) (.text t) introspector c.store).1
  refine ⟨(congrArg Disk.home same).trans tidy.home_eq, fun clean => ?_⟩
  unfold silently
  rw [same]
  exact tidy.holds clean

/-- A digest is asked for, and then recorded, only of migrations. -/
theorem ensures_store_settled (named : F.IsNamed) (ht : IsTable t) {schema : Schema}
    (digest : s.migrationsDigest (F.repo i) d = .ok D) :
    Ensures (F.Tidy fun d => F.Settled i d ∧ F.Current i D (some t) d)
      (storeWith s F.repo i t schema D) (fun _ => F.Tidy (F.Settled i))
      (F.Tidy (F.Settled i)) := by
  exact (ensures_storeWith_swept named ht).weaken (fun _ h => h)
    (fun _ _ h => tidy_settled_of_swept digest h) fun _ h => h

section

variable (named : F.IsNamed) (enabled : Cache.isEnabled s = true)

include named enabled

/-- A store leaves the cache settled where every file but the entry of its table records the
digest of the migrations. -/
theorem ensures_put_settled (ht : IsTable t) {schema : Schema}
    (others : ∀ D, s.migrationsDigest (F.repo i) d = .ok D → F.Current i D (some t) d) :
    Ensures (fun c => F.Tidy (F.Settled i) c ∧ c.store.disk = d) (put s F.repo i t schema)
      (fun _ => F.Tidy (F.Settled i)) (F.Tidy (F.Settled i)) := by
  unfold put store
  refine ensures_begin_tidy.bind fun _ => ?_
  rw [if_pos enabled]
  refine (ensures_ask _ fun c h => h.1).bind fun D => ?_
  rintro c ⟨⟨tidy, rfl⟩, digest⟩
  exact ensures_store_settled named ht digest c
    ⟨tidy.home_eq, fun clean => ⟨tidy.holds clean, others D digest⟩⟩

theorem ensures_workingDigest_swept :
    Ensures (fun c => F.Tidy (F.Settled i) c ∧ c.store.disk = d) (workingDigest s F.repo i)
      (fun digest c => ∃ D, digest = some D ∧ s.migrationsDigest (F.repo i) d = .ok D ∧
        F.Tidy (fun d => F.Swept i D d ∧ F.Housed i d) c)
      (F.Tidy (F.Settled i)) := by
  unfold workingDigest
  rw [if_pos enabled]
  exact (ensures_currentDigest_swept named).map fun D c h => ⟨D, rfl, h⟩

/-- What is obtained under the digest of the migrations is found, or stored with that
digest. -/
theorem ensures_obtainAt_swept (ht : IsTable t)
    (introspector : Option Introspector) (disk : Disk)
    (digest : s.migrationsDigest (F.repo i) d = .ok D) :
    Ensures (F.Tidy fun d => F.Swept i D d ∧ F.Housed i d)
      (obtainAt s F.repo i t introspector disk (some D))
      (fun _ => F.Tidy fun d => F.Swept i D d ∧ F.Housed i d) (F.Tidy (F.Settled i)) := by
  have settled : ∀ e, F.Swept i D e ∧ F.Housed i e → F.Settled i e :=
    fun e h => h.1.settled (Settings.isSolid_migrationsDigest digest) h.2
  unfold obtainAt
  refine (ensures_lookupAt_swept ht disk digest).bind fun found => ?_
  cases found with
  | some schema => exact Ensures.pure fun _ h => h
  | none =>
    refine ((ensures_infer_tidy introspector).weaken (fun _ h => h) (fun _ _ h => h)
      fun _ h => h.imp settled).bind fun schema => ?_
    refine Ensures.bind ?_ fun _ => Ensures.pure fun _ h => h
    unfold store
    rw [if_pos enabled, digestOr_some F.repo i (Settings.isSolid_migrationsDigest digest)]
    refine (ensures_storeWith_swept named ht).weaken (fun _ h => ?_)
      (fun _ _ h => h) fun _ h => h
    exact h.imp fun e h => ⟨settled e h, h.1.current.except _⟩

/-! ### Operations that ask for a schema -/

theorem ensures_lookup_swept (ht : IsTable t) :
    Ensures (fun c => F.Tidy (F.Settled i) c ∧ c.store.disk = d) (lookup s F.repo i t)
      (fun _ c => ∃ D, s.migrationsDigest (F.repo i) d = .ok D ∧
        F.Tidy (fun d => F.Swept i D d ∧ F.Housed i d) c)
      (F.Tidy (F.Settled i)) := by
  unfold lookup
  refine ensures_begin_tidy.bind fun disk => ?_
  rw [if_pos enabled]
  refine (ensures_currentDigest_swept named).bind fun D => Ensures.given fun digest => ?_
  exact (ensures_lookupAt_swept ht disk digest).weaken (fun _ h => h)
    (fun _ _ h => ⟨D, digest, h⟩)
    fun _ h => h

/-- What leaves a swept repository swept may follow the question for the digest. -/
theorem ensures_working_swept {α : Type} {f : Disk → Option String → Noting ι α}
    (rest : ∀ disk D, s.migrationsDigest (F.repo i) d = .ok D →
      Ensures (F.Tidy fun d => F.Swept i D d ∧ F.Housed i d) (f disk (some D))
        (fun _ => F.Tidy fun d => F.Swept i D d ∧ F.Housed i d) (F.Tidy (F.Settled i))) :
    Ensures (fun c => F.Tidy (F.Settled i) c ∧ c.store.disk = d)
      (do f (← begin i) (← workingDigest s F.repo i))
      (fun _ c => ∃ D, s.migrationsDigest (F.repo i) d = .ok D ∧
        F.Tidy (fun d => F.Swept i D d ∧ F.Housed i d) c)
      (F.Tidy (F.Settled i)) := by
  refine ensures_begin_tidy.bind fun disk => ?_
  refine (ensures_workingDigest_swept named enabled).bind fun working => ?_
  rintro c ⟨D, rfl, digest, tidy⟩
  exact (rest disk D digest).weaken (fun _ h => h) (fun _ _ h => ⟨D, digest, h⟩)
    (fun _ h => h) c tidy

theorem ensures_obtain_swept (ht : IsTable t) (introspector : Option Introspector) :
    Ensures (fun c => F.Tidy (F.Settled i) c ∧
      c.store.disk = d) (obtain s F.repo i t introspector)
      (fun _ c => ∃ D, s.migrationsDigest (F.repo i) d = .ok D ∧
        F.Tidy (fun d => F.Swept i D d ∧ F.Housed i d) c)
      (F.Tidy (F.Settled i)) :=
  ensures_working_swept named enabled fun disk _ digest =>
    ensures_obtainAt_swept named enabled ht introspector disk digest

theorem ensures_warmUp_swept {ts : List String} (hts : ∀ t ∈ ts, IsTable t)
    (introspector : Option Introspector) :
    Ensures (fun c => F.Tidy (F.Settled i) c ∧
      c.store.disk = d) (warmUp s F.repo i ts introspector)
      (fun _ c => ∃ D, s.migrationsDigest (F.repo i) d = .ok D ∧
        F.Tidy (fun d => F.Swept i D d ∧ F.Housed i d) c)
      (F.Tidy (F.Settled i)) :=
  ensures_working_swept named enabled fun disk _ digest => Ensures.mapM fun t ht =>
    ensures_obtainAt_swept named enabled (hts t ht) introspector disk digest

omit named enabled in
theorem ensures_clear_settled :
    Ensures (F.Tidy (F.Settled i)) (clear s F.repo i) (fun _ => F.Tidy (F.Settled i))
      (F.Tidy (F.Settled i)) := by
  have noted :
      Ensures (F.Tidy (F.Settled i)) (note (.cleared i)) (fun _ => F.Tidy (F.Settled i))
      (F.Tidy (F.Settled i)) :=
    fun _ h => h.note _
  refine noted.bind fun _ =>
    ensures_cleared.weaken (fun _ h => h) (fun _ _ h => ?_) fun _ h => h
  exact h.imp fun _ h => h.1

omit named enabled in
/-- What is swept is settled. -/
theorem settled_of_swept {c : Chronicle ι}
    (h : ∃ D, s.migrationsDigest (F.repo i) d = .ok D ∧
      F.Tidy (fun d => F.Swept i D d ∧ F.Housed i d) c) : F.Tidy (F.Settled i) c := by
  obtain ⟨D, digest, tidy⟩ := h
  exact tidy_settled_of_swept digest tidy

theorem ensures_refresh_settled {ts : Option (List String)}
    (hts : ∀ us ∈ ts, ∀ t ∈ us, IsTable t)
    (introspector : Option Introspector) :
    Ensures (F.Tidy (F.Settled i)) (refresh s F.repo i ts introspector)
      (fun _ => F.Tidy (F.Settled i)) (F.Tidy (F.Settled i)) := by
  unfold refresh
  refine ensures_clear_settled.bind fun _ => ?_
  match ts, introspector with
  | none, _ => exact Ensures.pure fun _ h => h
  | some _, none => exact Ensures.throw fun _ h => h
  | some us, some introspector =>
    refine ensures_of_disk fun d => ?_
    exact (ensures_warmUp_swept named enabled (hts us rfl) (some introspector)).weaken
      (fun _ h => h) (fun _ _ h => settled_of_swept h) fun _ h => h

end

end Noting

end Schemata
