/-
Warming a cache up.

A warm-up asks for the digest once, sweeps if it has to, and goes through its tables under
this digest. One operation after the other asks each time, and sweeps each time the marker
does not have the digest. It comes to the same (`warmUp_agrees`), because the marker has the
digest from the first time on, and nothing that is done for a table takes it away
(`keeps_storedDigest`).

There is one condition. What the cache writes must not be migrations itself, or else the
digest is another one when it is asked for the second time. Where the migrations lie aside of
the cache, it is the same (`digest_obtainEach`). If they are above the cache, the first write
of the cache makes them, and the next table sweeps what was stored for the one before
(`not_same_migrationsAbove`).
-/
import Schemata.Proofs.Cache.Aside

namespace Schemata

/-! ## The digest in the marker -/

namespace Family

variable {ι : Type} {s : Settings} {home : Location} {F : Family ι s home} {i : ι}
  {t D : String}
  {d e : Disk}

/-- The marker is read as it was where it stays as it is, and directories stay. -/
theorem storedDigest_mono (here : d.home = home) (home_eq : e.home = d.home)
    (kept : ∀ l, d.HasDirectory l → e.HasDirectory l)
    (same : ∀ b, d.HasFile (F.markerPlace i) b → e.HasFile (F.markerPlace i) b)
    (h : s.storedDigest (F.repo i) d = .ok (some D)) :
    s.storedDigest (F.repo i) e = .ok (some D) := by
  rw [F.storedDigest_eq i here] at h
  rw [F.storedDigest_eq i (home_eq.trans here)]
  cases read : d.readText (F.marker i) with
  | error f =>
    rw [read] at h
    cases f <;> cases h
  | ok text =>
    obtain ⟨b, bytes, decoded⟩ := bind_eq_ok.1 read
    have place : d.place (F.marker i) = F.markerPlace i := F.place_eq here _
    have again : e.readText (F.marker i) = .ok text := by
      rw [Disk.readText, Disk.readBytes_mono home_eq kept (place ▸ same b) bytes,
        ok_bind, decoded]
    rw [again]
    rwa [read] at h

/-- Where the entry of a table is removed, the marker stays. -/
theorem storedDigest_erase (here : d.home = home) {b : ByteArray}
    (file : d.HasFile (F.entryPlace i t) b)
    (stored : s.storedDigest (F.repo i) d = .ok (some D)) :
    s.storedDigest (F.repo i) (d.erase (F.entryPlace i t)) = .ok (some D) := by
  refine storedDigest_mono here rfl (fun _ => file.hasDirectory_erase)
    (fun c there => ?_) stored
  rw [Disk.HasFile, Disk.entry?_erase there.ne_nil,
    if_neg (F.markerPlace_ne_entryPlace i i t)]
  exact there

/-- Once the marker has the digest, it keeps it in all that is done for a table under this
digest. -/
theorem keeps_storedDigest (ht : IsTable t) (solid : Text.IsSolid D)
    (introspector : Option Introspector) :
    F.Keeps (fun d => s.storedDigest (F.repo i) d = .ok (some D))
      (Cache.obtainAt s (F.repo i) (.text t) introspector (some D)) := by
  have apart : F.markerPlace i ≠ F.entryPlace i t := F.markerPlace_ne_entryPlace i i t
  refine Keeps.obtainAt ?_ ?_ ?_ introspector
  · rw [F.place_file i ht]
    exact fun d b here stored file => storedDigest_erase here file stored
  · rw [F.file_eq_entry i ht]
    intro text d here stored
    exact storedDigest_mono here (d.home_write _ _ _) (fun _ => Disk.hasDirectory_write)
      (fun _ => (hasFile_write_entry_iff here apart).2) stored
  · -- The digest that is written is the one that is given.
    intro E given d here stored
    obtain rfl : E = D := given D (by simp [solid.nonempty])
    obtain ⟨p, n, marker, -⟩ := F.exists_markerPlace i
    rw [marker]
    rcases d.write_cases p _ E.toUTF8 with ⟨_, e, w, grows⟩ | ⟨e, w, written⟩
    · rw [w]
      exact storedDigest_mono here grows.home (fun _ => grows.hasDirectory)
        (fun _ => grows.hasFile_iff.2) stored
    · rw [w]
      exact (F.marks_of_written marker written).storedDigest here solid

end Family

/-! ## Asking for the digest -/

section

variable {ι : Type} {s : Settings} {home : Location} {F : Family ι s home}
  {i : ι} {D : String}

/-- Whoever asks for the digest leaves it in the marker, unless it is refused. -/
theorem Noting.ensures_currentDigest_stored :
    Ensures (F.Tidy fun _ => True) (Noting.currentDigest s F.repo i)
      (fun D => F.Tidy fun d => s.storedDigest (F.repo i) d = .ok (some D))
      (fun _ => True) := by
  unfold Noting.currentDigest
  refine (ensures_ask _ fun _ _ => trivial).bind fun D => ?_
  refine (ensures_ask _ fun _ _ => trivial).bind fun stored => ?_
  by_cases same : stored = some D
  · rw [if_neg (by simp [same])]
    refine Ensures.pure fun c h => ⟨h.1.1.home_eq, fun _ => ?_⟩
    rw [h.2, same]
  · rw [if_pos (by simpa using same)]
    refine Ensures.weaken (P := fun c => Text.IsSolid D ∧ F.Tidy (fun _ => True) c)
      (Ensures.given fun solid => ?_) ?_ (fun _ _ h => h) fun _ h => h
    · have cleared : Ensures (F.Tidy fun _ => True)
          (silently (Cache.clearRepository s (F.repo i))) (fun _ => F.Tidy fun _ => True)
          (F.Tidy fun _ => True) :=
        ensures_clearRepository i (fun _ h => h.home_eq) (fun _ h => h) fun _ h _ _ =>
          ⟨h.home_eq, fun _ => trivial⟩
      refine (cleared.weaken (fun _ h => h) (fun _ _ h => h) fun _ _ => trivial).bind
        fun _ => ?_
      refine (ensures_ask_eq fun c h => F.marker_eq i h.home_eq).bind fun p => ?_
      refine Ensures.given fun path => ?_
      subst path
      refine Ensures.bind ?_ fun _ => Ensures.pure fun _ h => h
      refine (ensures_marks (E := fun _ => True)).weaken (fun _ h => h)
        (fun _ _ h => h.imp ?_)
        fun _ _ => trivial
      rintro e ⟨d, -, here, marks⟩
      exact marks.storedDigest here solid
    · exact fun c h => ⟨Settings.isSolid_migrationsDigest h.1.2, h.1.1⟩

namespace Cache

/-- The marker has the digest that was asked for, if the write of the marker was not
refused. -/
theorem stored_of_currentDigest {σ σ₁ : Store} (here : σ.disk.home = home)
    (asked : currentDigest s (F.repo i) σ = (.ok D, σ₁))
    (accepted : .refused ∉ (Noting.currentDigest s F.repo i ⟨σ, []⟩).2.events) :
    σ₁.disk.home = home ∧ s.storedDigest (F.repo i) σ₁.disk = .ok (some D) := by
  have after := Noting.ensures_currentDigest_stored (F := F) (i := i) ⟨σ, []⟩
    ⟨here, fun _ => trivial⟩
  obtain ⟨result, store⟩ := Noting.Erases.currentDigest s F.repo i ⟨σ, []⟩
  rw [asked] at result store
  cases noted : Noting.currentDigest s F.repo i ⟨σ, []⟩ with
  | mk r c =>
    rw [noted] at result store accepted after
    obtain rfl : r = .ok D := result
    obtain rfl : c.store = σ₁ := store
    exact ⟨after.home_eq, after.holds accepted⟩

end Cache

end

/-! ## One table after the other -/

namespace Cache

variable (s : Settings) (repo : Repository)

/-- The schemas of tables, each obtained by an operation of its own. -/
def obtainEach (tables : List String) (introspector : Option Introspector) :
    Caching (List Schema) :=
  tables.mapM fun t => obtain s repo (.text t) introspector

/-- The schemas of tables, each obtained under one digest. -/
def obtainAll (tables : List String) (introspector : Option Introspector) (digest : String) :
    Caching (List Schema) :=
  tables.mapM fun t => obtainAt s repo (.text t) introspector (some digest)

variable {s repo} {introspector : Option Introspector} {t : String} {ts : List String}
  {σ σ₁ : Store} {D : String}

theorem obtainEach_cons :
    obtainEach s repo (t :: ts) introspector =
      obtain s repo (.text t) introspector >>= fun schema =>
        (schema :: ·) <$> obtainEach s repo ts introspector :=
  List.mapM_cons.trans (by simp only [bind_pure_comp]; rfl)

theorem obtainEach_append (us : List String) :
    obtainEach s repo (ts ++ us) introspector =
      obtainEach s repo ts introspector >>= fun schemas =>
        (schemas ++ ·) <$> obtainEach s repo us introspector :=
  List.mapM_append.trans (by simp only [bind_pure_comp]; rfl)

theorem obtainAll_cons :
    obtainAll s repo (t :: ts) introspector D =
      obtainAt s repo (.text t) introspector (some D) >>= fun schema =>
        (schema :: ·) <$> obtainAll s repo ts introspector D :=
  List.mapM_cons.trans (by simp only [bind_pure_comp]; rfl)

section

variable (enabled : isEnabled s = true)

include enabled

theorem run_workingDigest (asked : currentDigest s repo σ = (.ok D, σ₁)) :
    workingDigest s repo σ = (.ok (some D), σ₁) := by
  rw [workingDigest_eq _ enabled, run_bind, asked]
  rfl

/-- A look-up that comes to an answer is one under the digest that was asked for. -/
theorem lookup_eq_ok {found : Option Schema} :
    lookup s repo (.text t) σ = (.ok found, σ₁) ↔
      ∃ D σ', currentDigest s repo σ = (.ok D, σ') ∧
        lookupAt s repo (.text t) D σ' = (.ok found, σ₁) := by
  unfold lookup
  rw [if_pos enabled, run_bind]
  constructor
  · intro looked
    cases asked : currentDigest s repo σ with
    | mk r σ' =>
      rw [asked] at looked
      cases r with
      | error e => cases looked
      | ok D => exact ⟨D, σ', rfl, looked⟩
  · rintro ⟨D, σ', asked, looked⟩
    rw [asked]
    exact looked

theorem run_obtain (asked : currentDigest s repo σ = (.ok D, σ₁)) :
    obtain s repo (.text t) introspector σ =
      obtainAt s repo (.text t) introspector (some D) σ₁ := by
  unfold obtain
  rw [run_bind, run_workingDigest enabled asked]

theorem run_warmUp (asked : currentDigest s repo σ = (.ok D, σ₁)) :
    warmUp s repo (ts.map .text) introspector σ = obtainAll s repo ts introspector D σ₁ := by
  unfold warmUp
  rw [run_bind, run_workingDigest enabled asked]
  dsimp only
  rw [List.mapM_map]
  rfl

end

/-! ### The digest stays -/

variable {ι : Type} {home : Location} {F : Family ι s home} {i : ι}

/-- Migrations that lie aside of the cache have the same digest after any number of
operations. -/
theorem digest_obtainEach {p : Path} (aside : F.Aside i p σ.disk) (named : F.IsNamed)
    (hts : ∀ t ∈ ts, IsTable t) (introspector : Option Introspector)
    (here : σ.disk.home = home) :
    s.migrationsDigest (F.repo i) (obtainEach s (F.repo i) ts introspector σ).2.disk =
      s.migrationsDigest (F.repo i) σ.disk := by
  have kept : F.Keeps (F.Around σ.disk) (obtainEach s (F.repo i) ts introspector) :=
    .mapM fun t ht => Family.Around.keeps_obtain named aside.rootDown (hts t ht) introspector
  exact aside.digest_eq (kept.run here (.refl _)).2 here

/-- If the digest of the migrations is the same each time, each operation of its own is one
under this digest. -/
theorem obtainEach_eq_obtainAll (enabled : isEnabled s = true) (solid : Text.IsSolid D)
    (hts : ∀ u ∈ t :: ts, IsTable u)
    (asked : currentDigest s (F.repo i) σ = (.ok D, σ₁)) (here : σ₁.disk.home = home)
    (stored : s.storedDigest (F.repo i) σ₁.disk = .ok (some D))
    (steady : ∀ before u after, ts = before ++ u :: after →
      s.migrationsDigest (F.repo i)
        (obtainEach s (F.repo i) (t :: before) introspector σ).2.disk = .ok D) :
    obtainEach s (F.repo i) (t :: ts) introspector σ =
      obtainAll s (F.repo i) (t :: ts) introspector D σ₁ := by
  induction ts generalizing t σ σ₁ with
  | nil =>
    rw [obtainEach_cons, obtainAll_cons, run_bind, run_bind, run_obtain enabled asked]
    rfl
  | cons u ts ih =>
    have own : obtain s (F.repo i) (.text t) introspector σ =
        obtainAt s (F.repo i) (.text t) introspector (some D) σ₁ := run_obtain enabled asked
    have kept :=
      (F.keeps_storedDigest (i := i) (hts t (.head _)) solid introspector).run here stored
    rw [obtainEach_cons, obtainAll_cons, run_bind, run_bind, own]
    cases first : obtainAt s (F.repo i) (.text t) introspector (some D) σ₁ with
    | mk r σ₂ =>
      cases r with
      | error e => rfl
      | ok schema =>
        rw [first] at own kept
        have onward (before : List String) :
            (obtainEach s (F.repo i) (t :: before) introspector σ).2 =
              (obtainEach s (F.repo i) before introspector σ₂).2 := by
          rw [obtainEach_cons, run_bind, own]
          exact run_map_state _ _ _
        have digest : s.migrationsDigest (F.repo i) σ₂.disk = .ok D := by
          rw [← steady [] u ts rfl, onward]
          rfl
        -- The marker has the digest now, so that nothing is swept.
        have rest :=
          ih (fun v hv => hts v (.tail _ hv)) (currentDigest_of_stored digest kept.2)
          kept.1 kept.2 fun before v after split => by
            rw [← onward]
            exact steady (u :: before) v after (congrArg (u :: ·) split)
        dsimp only
        rw [run_map, run_map, rest]

/-! ### A schema that cannot be inferred -/

/-- What is not found and cannot be described is not obtained, and nothing is stored for
it. -/
theorem run_obtain_error {introspector : Introspector} {e : Fault}
    (enabled : isEnabled s = true)
    (missed : lookup s repo (.text t) σ = (.ok none, σ₁))
    (failed : introspector.describe s repo (.text t) = .error e) :
    obtain s repo (.text t) (some introspector) σ =
      (.error e, { σ₁ with asked := σ₁.asked ++ [.text t] }) := by
  obtain ⟨D, σ', asked, missed⟩ := (lookup_eq_ok enabled).1 missed
  have inferred : infer s repo (.text t) (some introspector) σ₁ =
      (.error e, { σ₁ with asked := σ₁.asked ++ [.text t] }) := by
    rw [Caching.run_infer]
    exact Prod.ext failed rfl
  rw [run_obtain enabled asked]
  unfold obtainAt
  dsimp only
  rw [run_bind, missed]
  dsimp only
  rw [run_bind, inferred]

/-- A look-up makes no entry, and changes none. -/
theorem hasFile_of_lookup (here : σ.disk.home = home) {j : ι} {u : String}
    {b : ByteArray}
    (file : (lookup s (F.repo i) (.text t) σ).2.disk.HasFile (F.entryPlace j u) b) :
    σ.disk.HasFile (F.entryPlace j u) b := by
  refine (Family.Keeps.run (F := F)
    (P := fun d => ∀ b, d.HasFile (F.entryPlace j u) b → σ.disk.HasFile (F.entryPlace j u) b)
    (.lookup ?_ ?_ ?_) here fun _ => id).2 b file
  · exact fun d _ before b file => before b file.of_eraseTree.2
  · intro D d here before b file
    have apart := (F.markerPlace_ne_entryPlace i j u).symm
    exact before b ((Family.hasFile_write_marker_iff here apart).1 file)
  · exact fun d _ _ before _ b file => before b file.of_erase.2

/-- A warm-up comes to what one operation after the other comes to, with the same result and
the same store, if the marker can be written and what is stored changes no migrations. So it
fails with the first schema that is not found and cannot be inferred. The store is then as the
operations before and the look for this schema leave it, and no schema was stored in the place
of it. -/
theorem warmUp_agrees (introspector : Introspector) (enabled : isEnabled s = true)
    (hts : ∀ t ∈ ts, IsTable t) (nonempty : ts ≠ []) (here : σ.disk.home = home)
    (accepted : .refused ∉ (Noting.currentDigest s F.repo i ⟨σ, []⟩).2.events)
    (steady : ∀ before t after, ts = before ++ t :: after →
      s.migrationsDigest (F.repo i)
          (obtainEach s (F.repo i) before (some introspector) σ).2.disk =
        s.migrationsDigest (F.repo i) σ.disk) :
    warmUp s (F.repo i) (ts.map .text) (some introspector) σ =
        obtainEach s (F.repo i) ts (some introspector) σ ∧
      ∀ before t after found σ₁ σ₂ e, ts = before ++ t :: after →
        obtainEach s (F.repo i) before (some introspector) σ = (.ok found, σ₁) →
        lookup s (F.repo i) (.text t) σ₁ = (.ok none, σ₂) →
        introspector.describe s (F.repo i) (.text t) = .error e →
          warmUp s (F.repo i) (ts.map .text) (some introspector) σ =
              (.error e, { σ₂ with asked := σ₂.asked ++ [.text t] }) ∧
            ∀ j u b, σ₂.disk.HasFile (F.entryPlace j u) b →
              σ₁.disk.HasFile (F.entryPlace j u) b := by
  have agrees : warmUp s (F.repo i) (ts.map .text) (some introspector) σ =
      obtainEach s (F.repo i) ts (some introspector) σ := by
    obtain ⟨t, ts, rfl⟩ := List.exists_cons_of_ne_nil nonempty
    cases asked : currentDigest s (F.repo i) σ with
    | mk r σ₁ =>
      cases r with
      | error e =>
        have failed : workingDigest s (F.repo i) σ = (.error e, σ₁) := by
          rw [workingDigest_eq _ enabled, run_bind, asked]
        rw [obtainEach_cons, run_bind, warmUp, run_bind, failed, obtain, run_bind, failed]
      | ok D =>
        have digest := digest_of_currentDigest asked
        obtain ⟨here₁, stored⟩ := stored_of_currentDigest here asked accepted
        rw [run_warmUp enabled asked]
        refine (obtainEach_eq_obtainAll enabled
          (Settings.isSolid_migrationsDigest digest) hts asked
          here₁ stored fun before u after split => ?_).symm
        rw [← digest]
        exact steady (t :: before) u after (congrArg (t :: ·) split)
  refine ⟨agrees, ?_⟩
  rintro before t after found σ₁ σ₂ e rfl obtained missed failed
  constructor
  · rw [agrees, obtainEach_append, run_bind, obtained]
    dsimp only
    rw [run_map, obtainEach_cons, run_bind, run_obtain_error enabled missed failed]
    rfl
  · intro j u b file
    have here₁ : σ₁.disk.home = home := by
      have kept : F.Keeps (fun _ => True)
          (obtainEach s (F.repo i) before (some introspector)) :=
        .mapM fun _ _ => .obtain (fun _ _ _ => trivial) (fun _ _ _ _ => trivial)
          (fun _ _ _ _ _ => trivial) (fun _ _ _ _ => trivial) (some introspector)
      have after := (kept.run here trivial).1
      rwa [obtained] at after
    refine hasFile_of_lookup (i := i) (t := t) here₁ ?_
    rwa [missed]

/-! ### A schema that is stored, and one that cannot be inferred -/

/-- A cache that has a text in the place of a schema of users. -/
def stockedCache (text : String) : Store :=
  strangeCache (.file "empty".toUTF8) (.file text.toUTF8)

/-- A database that cannot be asked. -/
def noDatabase : Introspector where
  dialect := .sqlite
  table _ _ := .error .wrongKind

section

variable (text : String)

theorem aside_stockedCache :
    oneRepository.Aside () ⟨.slash, ["migrations"]⟩ (stockedCache text).disk where
  path := rfl
  usable := ⟨by decide, by decide, by decide⟩
  down := by decide
  rootDown := by decide
  away := by decide
  reached := nofun

theorem currentDigest_stockedCache :
    currentDigest {} (oneRepository.repo ()) (stockedCache text) =
      (.ok "empty", stockedCache text) :=
  currentDigest_of_stored rfl rfl

variable {text} (wrote : StoredSchema.entryText ⟨.empty "users", "empty"⟩ = .ok text)

include wrote

/-- The stored schema is found, and the store stays as it is. -/
theorem obtain_stockedCache :
    obtain {} (oneRepository.repo ()) (.text "users") (some noDatabase) (stockedCache text) =
      (.ok (.empty "users"), stockedCache text) := by
  have read : (stockedCache text).disk.readBytes (oneRepository.entry () "users") =
      .ok text.toUTF8 := rfl
  have reread : (Schema.empty "users").reread = .ok (.empty "users") :=
    Schema.reread_eq (Schema.representable_empty _) rfl
  rw [run_obtain rfl (currentDigest_stockedCache text), obtainAt]
  dsimp only
  rw [run_bind, Noting.run_lookupAt oneRepository () (by decide) _ rfl,
    reading_of_readBytes wrote read, if_pos rfl, Reading.ofReread_of_reread reread]
  rfl

end

/-- A warm-up finds the schema of users and fails with that of posts, and so do the two
operations. -/
theorem warmUp_agrees_stockedCache :
    ∃ text, StoredSchema.entryText ⟨.empty "users", "empty"⟩ = .ok text ∧
      warmUp {} (oneRepository.repo ()) [.text "users", .text "posts"] (some noDatabase)
          (stockedCache text) =
        obtainEach {} (oneRepository.repo ()) ["users", "posts"] (some noDatabase)
          (stockedCache text) ∧
      warmUp {} (oneRepository.repo ()) [.text "users", .text "posts"] (some noDatabase)
          (stockedCache text) =
        (.error .wrongKind, { stockedCache text with asked := [.text "posts"] }) := by
  obtain ⟨text, wrote⟩ :
      ∃ text, StoredSchema.entryText ⟨.empty "users", "empty"⟩ = .ok text := ⟨_, rfl⟩
  refine ⟨text, wrote, ?_⟩
  have accepted :
      (Noting.currentDigest {} oneRepository.repo () ⟨stockedCache text, []⟩).2.events =
        [] := by
    rw [Noting.run_currentDigest (c := ⟨stockedCache text, []⟩) rfl rfl]
  have each : obtainEach {} (oneRepository.repo ()) ["users"] (some noDatabase)
      (stockedCache text) = (.ok [.empty "users"], stockedCache text) := by
    rw [obtainEach_cons, run_bind, obtain_stockedCache wrote]
    rfl
  have missed : lookup {} (oneRepository.repo ()) (.text "posts") (stockedCache text) =
      (.ok none, stockedCache text) := by
    have table : IsTable "posts" := by decide
    rw [run_lookup (F := oneRepository) (i := ()) rfl table rfl rfl rfl]
    rfl
  have tables : ∀ t ∈ ["users", "posts"], IsTable t := by decide
  obtain ⟨agrees, fails⟩ := warmUp_agrees (F := oneRepository) (i := ()) noDatabase rfl tables
    (by simp) rfl (by rw [accepted]; exact List.not_mem_nil) fun before t after split =>
      digest_obtainEach (aside_stockedCache text) Tended.isNamed_oneRepository
        (fun u hu => tables u (split ▸ List.mem_append_left _ hu)) (some noDatabase) rfl
  exact ⟨agrees, (fails ["users"] "posts" [] _ _ _ _ rfl each missed rfl).1⟩

/-! ### Migrations above the cache -/

/-- The directory that the cache is in is the directory of the migrations. -/
def migrationsAbove : Settings where
  cache := { migrationsDir := .text "tmp" }

/-- A repository with its migrations above the cache. -/
def repositoryBelow : Family Unit migrationsAbove [] where
  repo := oneRepository.repo
  root := oneRepository.root
  name := oneRepository.name
  cacheRoot := oneRepository.cacheRoot
  shortName := oneRepository.shortName

/-- No files at all. -/
def noFiles : Store :=
  ⟨⟨[], []⟩, []⟩

/-- What is inferred from the database of users is an empty table of users. -/
theorem infer_usersDatabase (s : Settings) (bare : s.inference = {}) (repo : Repository)
    (table : Value) :
    infer s repo table (some usersDatabase) = (do
      Caching.note table
      pure (.empty "users")) := by
  have described : usersDatabase.describe s repo table = .ok (.empty "users") := by
    rw [Introspector.describe, bare]
    exact describe_users
  funext σ
  rw [Caching.run_infer]
  exact Prod.ext described rfl

/-- A warm-up of two tables leaves the entries of both. Of two operations the first makes the
directory of the migrations by the way, so that the digest is another one for the second,
which removes what the first stored. -/
theorem not_same_migrationsAbove :
    isEnabled migrationsAbove = true ∧
      (Noting.currentDigest migrationsAbove repositoryBelow.repo ()
        ⟨noFiles, []⟩).2.events = [] ∧
      (warmUp migrationsAbove (repositoryBelow.repo ()) [.text "users", .text "posts"]
        (some usersDatabase) noFiles).2.disk.entry?
          (repositoryBelow.entryPlace () "users") ≠ none ∧
      (obtainEach migrationsAbove (repositoryBelow.repo ()) ["users", "posts"]
        (some usersDatabase) noFiles).2.disk.entry? (repositoryBelow.entryPlace () "users") =
          none := by
  refine ⟨rfl, rfl, ?_, ?_⟩
  · rw [← Option.isSome_iff_ne_none]
    unfold warmUp obtainAt
    simp only [infer_usersDatabase migrationsAbove rfl]
    decide +kernel
  · rw [← Option.not_isSome_iff_eq_none]
    unfold obtainEach obtain obtainAt
    simp only [infer_usersDatabase migrationsAbove rfl]
    decide +kernel

end Cache

end Schemata
