/-
What inferring the schema of a described table can fail for.

Two failures are documented as those of snapshots: a file that names no dialect, and a table
that is not described. A third one, a dialect without rules, cannot come from a snapshot,
because every dialect has rules, and a word that is no dialect is refused before rules are
looked for. All other failures are refusals of data of an unexpected shape: a description is
used as it is, and nothing turns what is then missing or of the wrong kind into a failure that
names the table (`failures_of_inferred`).

So the command that refreshes a cache ends with a line about the failure just in the two
documented cases. Any other fault stops it as it is.
-/
import Schemata.CommandLine
import Schemata.Proofs.Cache.Operations
import Schemata.Proofs.Snapshot.Fidelity
import Schemata.Proofs.Table.Refusals

namespace Schemata

namespace Snapshot

open Value (get? getD)

/-! ## Parts of a description -/

theorem onlyRefuses_attributes (v : Value) : OnlyRefuses (attributes v) := by
  cases v with
  | dict es => exact .ok es
  | _ => exact .error rfl

theorem onlyRefuses_required (v : Value) (key : String) : OnlyRefuses (required v key) := by
  unfold required
  split
  · split
    · exact .ok _
    · exact .error rfl
  · exact .error rfl

theorem onlyRefuses_listOf (es : List (Value × Value)) (key : String) :
    OnlyRefuses (listOf es key) :=
  Value.onlyRefuses_items _

theorem onlyRefuses_typeNode (v : Value) : OnlyRefuses (typeNode v) := by
  induction v using typeNode.induct with
  | case1 kind v array ih =>
    rw [typeNode, if_pos array]
    exact .bind ih fun _ _ => .ok _
  | case2 kind v other =>
    rw [typeNode, if_neg other]
    exact .ok _
  | case3 isList =>
    rw [typeNode]
    exact .error rfl
  | case4 v noMapping noLoop =>
    rw [typeNode]
    · exact .ok v
    · exact noMapping
    · exact noLoop

theorem onlyRefuses_columnNode (v : Value) : OnlyRefuses (columnNode v) := by
  refine .bind (onlyRefuses_required v "name") fun _ _ => ?_
  refine .bind (onlyRefuses_attributes v) fun es _ => ?_
  refine .bind (onlyRefuses_typeNode _) fun _ _ => ?_
  exact .bind (onlyRefuses_listOf es _) fun _ _ => .ok _

theorem onlyRefuses_foreignKeyNode (v : Value) : OnlyRefuses (foreignKeyNode v) := by
  refine .bind (onlyRefuses_attributes v) fun es _ => ?_
  refine .bind (onlyRefuses_listOf es _) fun _ _ => ?_
  refine .bind (onlyRefuses_required v _) fun _ _ => ?_
  exact .bind (onlyRefuses_listOf es _) fun _ _ => .ok _

theorem onlyRefuses_indexNode (v : Value) : OnlyRefuses (indexNode v) := by
  refine .bind (onlyRefuses_required v _) fun _ _ => ?_
  refine .bind (onlyRefuses_attributes v) fun es _ => ?_
  exact .bind (onlyRefuses_listOf es _) fun _ _ => .ok _

theorem onlyRefuses_tableNode (name description : Value) :
    OnlyRefuses (tableNode name description) := by
  refine .bind (onlyRefuses_attributes description) fun es _ => ?_
  refine .bind (onlyRefuses_listOf es _) fun _ _ => ?_
  refine .bind (.mapM fun v _ => onlyRefuses_columnNode v) fun _ _ => ?_
  refine .bind (onlyRefuses_listOf es _) fun _ _ => ?_
  refine .bind (.mapM fun v _ => onlyRefuses_foreignKeyNode v) fun _ _ => ?_
  refine .bind (onlyRefuses_listOf es _) fun _ _ => ?_
  exact .bind (.mapM fun v _ => onlyRefuses_indexNode v) fun _ _ => .ok _

/-! ## Tables that are not described -/

/-- The snapshot describes tables, but none of this name. -/
def Lacks (s : Snapshot) (name : Value) : Prop :=
  ∃ es, s.tables = .dict es ∧ (Value.find? es name).getD .null = .null

section Tables

variable {s : Snapshot} {name bare : Value}

theorem table_of_lacks (h : s.Lacks name) (key : name.isKey = true) :
    s.table name = .error (notFound name) := by
  obtain ⟨es, described, none⟩ := h
  rw [table, described, attributes, ok_bind, if_pos key, none]

theorem onlyRefuses_table (h : ¬ s.Lacks name) : OnlyRefuses (s.table name) := by
  refine .bind (onlyRefuses_attributes s.tables) fun es listed => ?_
  have entries : s.tables = .dict es := by
    cases tables : s.tables with
    | dict _ =>
      rw [tables] at listed
      cases listed
      rfl
    | _ =>
      rw [tables] at listed
      cases listed
  refine .ite ?_ (.error rfl)
  split
  · rename_i none
    exact absurd ⟨es, entries, none⟩ h
  · exact onlyRefuses_tableNode _ _

/-- What is found of a table is the tree of a table. -/
theorem table_eq_tagged {tree : Value} (found : s.table name = .ok tree) :
    ∃ payload, tree = .tagged "table" payload := by
  obtain ⟨es, -, found⟩ := bind_eq_ok.1 found
  split at found
  · split at found
    · cases found
    · iterate 7 obtain ⟨_, -, found⟩ := bind_eq_ok.1 found
      cases found
      exact ⟨_, rfl⟩
  · cases found

theorem schema_of_lacks (h : s.Lacks name) (key : name.isKey = true) :
    s.schema bare name = .error (notFound name) := by
  rw [schema, built, table_of_lacks h key]
  rfl

theorem onlyRefuses_schema (h : ¬ s.Lacks name) (type : bare = .null ∨ ∃ n, bare = .text n) :
    OnlyRefuses (s.schema bare name) := by
  refine .bind (.bind (onlyRefuses_table h) fun tree found => ?_) fun t _ => ?_
  · obtain ⟨payload, rfl⟩ := table_eq_tagged found
    exact Table.onlyRefuses_build payload s.dialect
  · obtain ⟨r, compiled⟩ := Schema.ofTable_eq type t
    rw [compiled]
    exact .ite (.error rfl) (.ok _)

end Tables

/-! ## Files -/

/-- The data of a file that name no dialect. Data that count as missing name none. -/
def NamesNoDialect (data : Value) : Prop :=
  hasDialect (data.orElse (.dict [])) = .ok false

section Files

variable {path : String} {data : Value}

theorem onlyRefuses_hasDialect (v : Value) : OnlyRefuses (hasDialect v) := by
  unfold hasDialect
  repeat' split
  all_goals first
    | exact .ok _
    | exact .error rfl

theorem ofData_of_namesNoDialect (h : NamesNoDialect data) :
    ofData path data = .error (.introspection path "snapshot has no dialect") := by
  rw [ofData, h]
  rfl

/-- A word that is no dialect is reported, if it can be written. -/
theorem notDialect_cases (d : Value) :
    (∃ shown, Registry.notDialect d = .notDialect shown) ∨
      (Registry.notDialect d).isRefusal = true := by
  unfold Registry.notDialect
  cases shown : d.shown with
  | ok text => exact .inl ⟨text, rfl⟩
  | error f =>
    rw [Value.shown, Value.written] at shown
    split at shown
    · cases shown
      exact .inr rfl
    · cases shown

/-- Where the dialect is named, it may be none, and all else is refused. -/
theorem ofData_error {f : Fault} (named : ¬ NamesNoDialect data)
    (failed : ofData path data = .error f) :
      (∃ shown, f = .notDialect shown) ∨ f.isRefusal = true := by
  unfold ofData at failed
  dsimp only at failed
  cases has : hasDialect (data.orElse (.dict [])) with
  | error e =>
    rw [has] at failed
    cases failed
    exact .inr (onlyRefuses_hasDialect _ _ has)
  | ok there =>
    cases there with
    | false => exact absurd has named
    | true =>
      rw [has, ok_bind, if_pos rfl] at failed
      cases listed : attributes (data.orElse (.dict [])) with
      | error e =>
        rw [listed] at failed
        cases failed
        exact .inr (onlyRefuses_attributes _ _ listed)
      | ok es =>
        rw [listed, ok_bind] at failed
        split at failed
        · unfold ofTables Registry.ofWord at failed
          split at failed
          · cases failed
          · cases failed
            exact notDialect_cases _
        · cases failed
          exact .inr rfl

/-- A word that is no dialect is refused before rules are looked for. -/
theorem ofData_of_unknownDialect {es : List (Value × Value)} {d : Value}
    (named : get? es "dialect" = some d) (unknown : d.word?.bind Dialect.ofWord? = none)
    (sized : isSized (getD es "tables") = true) :
    ofData path (.dict es) = .error (Registry.notDialect d) := by
  have nonempty : (Value.dict es).orElse (.dict []) = .dict es := by
    cases es with
    | nil => rfl
    | cons e es => rfl
  have own : getD es "dialect" = d := by rw [getD, named, Option.getD_some]
  have has : hasDialect (.dict es) = .ok true := by rw [hasDialect, named, Option.isSome_some]
  have word :
      Registry.ofWord d = .error (Registry.notDialect d) := by rw [Registry.ofWord, unknown]
  rw [ofData, nonempty, has, ok_bind, if_pos rfl, attributes, ok_bind, if_pos sized,
    own, ofTables, word]
  rfl

end Files

/-! ## Inferring -/

/-- The schema of a table that the data of a file describe. -/
def inferred (path : String) (data bare name : Value) : Except Fault Schema := do
  let s ← ofData path data
  s.schema bare name

end Snapshot

/-! ## The command -/

/-- The cache of a repository is cleared, and has nothing for a table then. -/
def Cache.ClearsFor (s : Settings) (repo : Repository) (table : Value) (σ : Store) : Prop :=
  ∃ σ₁ σ₂ digest, clearRepository s repo σ = (.ok (), σ₁) ∧
    workingDigest s repo σ₁ = (.ok digest, σ₂) ∧
    ∀ D ∈ digest, ∃ σ₃, lookupAt s repo table D σ₂ = (.ok none, σ₃)

section Refreshing

variable {s : Settings} {repo : Repository} {table : Value} {σ : Store} {snapshot : Snapshot}
  {f : Fault}

theorem Cache.infer_error (failed : snapshot.schema s.inference.bareDocument table = .error f)
    (σ : Store) :
    Cache.infer s repo table (some snapshot.introspector) σ =
      (.error f, { σ with asked := σ.asked ++ [table] }) := by
  have described : (snapshot.introspector.table repo table >>= fun tree =>
      Table.build tree (.dialect snapshot.introspector.dialect) >>=
        Schema.ofTable s.inference.bareDocument) = .error f := by
    rw [← failed, Snapshot.schema, Snapshot.built, bind_assoc]
    rfl
  rw [Caching.run_infer, described]

/-- Where nothing is found, a table is not obtained that cannot be inferred. -/
theorem Cache.obtainAt_error {digest : Option String}
    (missed : ∀ D ∈ digest, ∃ σ', lookupAt s repo table D σ = (.ok none, σ'))
    (failed : snapshot.schema s.inference.bareDocument table = .error f) :
    (obtainAt s repo table (some snapshot.introspector) digest σ).1 = .error f := by
  unfold obtainAt
  cases digest with
  | none =>
    have nothing : (pure none : Caching (Option Schema)) σ = (.ok none, σ) := rfl
    dsimp only
    rw [run_bind, nothing]
    dsimp only
    rw [run_bind, Cache.infer_error failed]
  | some D =>
    obtain ⟨σ', missed⟩ := missed D rfl
    dsimp only
    rw [run_bind, missed]
    dsimp only
    rw [run_bind, Cache.infer_error failed]

/-- A table that cannot be inferred ends a refreshing of it. -/
theorem Cache.refresh_error (cleared : Cache.ClearsFor s repo table σ)
    (failed : snapshot.schema s.inference.bareDocument table = .error f) :
    (Cache.refresh s repo (some [table]) (some snapshot.introspector) σ).1 = .error f := by
  obtain ⟨σ₁, σ₂, digest, cleared, working, missed⟩ := cleared
  have stopped := Cache.obtainAt_error missed failed
  unfold Cache.refresh
  rw [run_bind, cleared]
  dsimp only
  unfold warmUp
  rw [run_bind, working]
  dsimp only
  rw [List.mapM_cons, run_bind]
  cases obtained : obtainAt s repo table (some snapshot.introspector) digest σ₂ with
  | mk result σ₃ =>
    rw [obtained] at stopped
    obtain rfl : result = .error f := stopped
    rfl

end Refreshing

namespace CommandLine

theorem isFailure_of_isRefusal {f : Fault} (h : f.isRefusal = true) :
    isFailure f = false := by
  cases f <;> first | rfl | cases h

/-- A failure that a user can act on ends the command, and any other fault stops it. -/
theorem refresh_of_error {s : Settings} {r : Request} {path : String}
    {x : Session} {f : Fault}
    (failed : (refreshed s (.identifier r.repo) path r.tables x.store).1 = .error f) :
    (refresh s r path x).1 = if isFailure f then .ok 1 else .error f := by
  have told : outcome (refreshed s (.identifier r.repo) path r.tables) x =
      (.ok (.error f),
        { x with store := (refreshed s (.identifier r.repo) path r.tables x.store).2 }) := by
    rw [← failed]
    rfl
  unfold refresh
  rw [run_bind, told]
  dsimp only
  split <;> rfl

/-- Where the schema of a table cannot be inferred from the data of a snapshot, no refreshing
of it from the file of these data comes to an end. -/
theorem refreshed_error {s : Settings} {repo : Repository} {path text name : String}
    {data : Value}
    {σ : Store} {f : Fault} (file : σ.disk.readText (.ofText path) = .ok text)
    (loaded : Yaml.load text = .ok data) (cleared : Cache.ClearsFor s repo (.text name) σ)
    (failed : Snapshot.inferred (Path.ofText path).text data s.inference.bareDocument
      (.text name) =
      .error f) :
    (refreshed s repo path (some [name]) σ).1 = .error f := by
  have read : snapshotAt path σ.disk = Snapshot.ofData (Path.ofText path).text data := by
    simp only [snapshotAt, file, Snapshot.ofText, loaded]
  unfold refreshed
  rw [run_bind, Caching.run_ask, read]
  unfold Snapshot.inferred at failed
  cases opened : Snapshot.ofData (Path.ofText path).text data with
  | error e =>
    rw [opened, error_bind] at failed
    cases failed
    rfl
  | ok snapshot =>
    rw [opened, ok_bind] at failed
    exact Cache.refresh_error cleared failed

end CommandLine

/-! ## Documented failures -/

namespace Snapshot

open CommandLine (isFailure)
open Value (get? getD)

section Inferred

variable {path name : String} {data bare : Value}

theorem inferred_of_namesNoDialect (h : NamesNoDialect data) :
    inferred path data bare (.text name) =
      .error (.introspection path "snapshot has no dialect") := by
  rw [inferred, ofData_of_namesNoDialect h, error_bind]

theorem inferred_of_lacks {s : Snapshot} (opened : ofData path data = .ok s)
    (h : s.Lacks (.text name)) :
    inferred path data bare (.text name) = .error (notFound (.text name)) := by
  rw [inferred, opened, ok_bind, schema_of_lacks h rfl]

/-- What is neither of the two documented failures is a word that is no dialect, or a
refusal. -/
theorem inferred_error (type : bare = .null ∨ ∃ n, bare = .text n) {f : Fault}
    (named : ¬ NamesNoDialect data)
    (described : ∀ s, ofData path data = .ok s → ¬ s.Lacks (.text name))
    (failed : inferred path data bare (.text name) = .error f) :
    (∃ shown, f = .notDialect shown) ∨ f.isRefusal = true := by
  unfold inferred at failed
  cases opened : ofData path data with
  | error e =>
    rw [opened, error_bind] at failed
    cases failed
    exact ofData_error named opened
  | ok s =>
    rw [opened, ok_bind] at failed
    exact .inr (onlyRefuses_schema (described s opened) type f failed)

end Inferred

/-- What inferring the schema of a table from the data of a snapshot fails for. Two failures
are documented, and they arise just where the data name no dialect, and where the snapshot
describes no table of this name. A dialect without rules never arises: an unknown one is no
dialect. Every other failure is a refusal of malformed data. A description of the documented
shape has a schema. The command that refreshes the table ends with the code of a failure for
the two documented ones, and any other fault stops it. -/
theorem failures_of_inferred {bare : Value} (type : bare = .null ∨ ∃ n, bare = .text n)
    (path : String) (data : Value) (name : String) :
    (NamesNoDialect data →
      inferred path data bare (.text name) =
        .error (.introspection path "snapshot has no dialect")) ∧
    (∀ s, ofData path data = .ok s → s.Lacks (.text name) →
      inferred path data bare (.text name) = .error (notFound (.text name))) ∧
    (∀ f, inferred path data bare (.text name) = .error f →
      (isFailure f = true ↔
        NamesNoDialect data ∨ ∃ s, ofData path data = .ok s ∧ s.Lacks (.text name)) ∧
      (isFailure f = false → (∃ shown, f = .notDialect shown) ∨ f.isRefusal = true)) ∧
    (∀ es d, data = .dict es → get? es "dialect" = some d →
      isSized (getD es "tables") = true →
      d.word?.bind Dialect.ofWord? = none →
      inferred path data bare (.text name) = .error (Registry.notDialect d)) ∧
    (∀ s t, ofData path data = .ok s → s.Describes name t →
      ∃ schema, inferred path data bare (.text name) = .ok schema) ∧
    ∀ (s : Settings) (r : CommandLine.Request) (file text : String)
      (x : CommandLine.Session) (f : Fault),
      s.inference.bareDocument = bare → r.tables = some [name] →
        (Path.ofText file).text = path →
      x.store.disk.readText (.ofText file) = .ok text → Yaml.load text = .ok data →
      Cache.ClearsFor s (.identifier r.repo) (.text name) x.store →
      inferred path data bare (.text name) = .error f →
      (CommandLine.refresh s r file x).1 = if isFailure f then .ok 1 else .error f := by
  refine ⟨inferred_of_namesNoDialect, fun _ => inferred_of_lacks, ?_, ?_, ?_, ?_⟩
  · intro f failed
    by_cases named : NamesNoDialect data
    · rw [inferred_of_namesNoDialect named] at failed
      cases failed
      exact ⟨⟨fun _ => .inl named, fun _ => rfl⟩, nofun⟩
    by_cases lacking : ∃ s, ofData path data = .ok s ∧ s.Lacks (.text name)
    · obtain ⟨s, opened, lacks⟩ := lacking
      rw [inferred_of_lacks opened lacks] at failed
      cases failed
      exact ⟨⟨fun _ => .inr ⟨s, opened, lacks⟩, fun _ => rfl⟩, nofun⟩
    have other :=
      inferred_error type named (fun s opened lacks => lacking ⟨s, opened, lacks⟩) failed
    have unreported : isFailure f = false := by
      rcases other with ⟨shown, rfl⟩ | refused
      · rfl
      · exact CommandLine.isFailure_of_isRefusal refused
    refine ⟨?_, fun _ => other⟩
    rw [unreported]
    simp [named, lacking]
  · rintro es d rfl named sized unknown
    rw [inferred, ofData_of_unknownDialect named unknown sized, error_bind]
  · intro s t opened described
    obtain ⟨table, r, made, -⟩ := exists_compiled described type
    exact ⟨_, by rw [inferred, opened, ok_bind, made]⟩
  · rintro s r file text x f rfl only rfl read loaded cleared failed
    refine CommandLine.refresh_of_error ?_
    rw [only]
    exact CommandLine.refreshed_error read loaded cleared failed

/-- The data of the snapshot of seats. -/
def seatsFile : Value := .dict [
  (.text "dialect", .text "postgres"), (.text "tables", (seats .null (some "btree")).tables)]

/-- The files of a command whose snapshot is empty. -/
def emptySnapshot : CommandLine.Session where
  store := { disk := { home := [], entries := [(["db.yml"], .file "".toUTF8)] } }

/-- A request for the schema of users. -/
def usersRequest : CommandLine.Request where
  repo := "MyApp.Repo"
  snapshot := some "db.yml"
  tables := some ["users"]
  config := none
  clear := false
  render := false
  verbose := false

/-- Settings under which nothing is cached. -/
def uncached : Settings where
  cache := { enabled := .bool false }
  inference := { bareDocument := .null }

/-- The seats have a schema, and their owners are not described. An empty snapshot ends the
command with the code of a failure. -/
theorem failures_of_inferred_seats :
    (∃ schema, inferred "db.yml" seatsFile .null (.text "seats") = .ok schema) ∧
      inferred "db.yml" seatsFile .null (.text "owners") =
        .error (.introspection "owners" "table not found in snapshot") ∧
      (CommandLine.refresh uncached usersRequest "db.yml" emptySnapshot).1 = .ok 1 := by
  have opened : ofData "db.yml" seatsFile = .ok (seats .null (some "btree")) := by
    cbv
  have ofSeats := failures_of_inferred (.inl rfl) "db.yml" seatsFile "seats"
  have ofOwners := failures_of_inferred (.inl rfl) "db.yml" seatsFile "owners"
  have ofEmpty := failures_of_inferred (.inl rfl) "db.yml" .null "users"
  refine ⟨ofSeats.2.2.2.2.1 _ _ opened (describes_seats _ (isDefault_null _)), ?_, ?_⟩
  · exact ofOwners.2.1 _ opened ⟨_, rfl, by cbv⟩
  · have missed := ofEmpty.1 rfl
    have cleared : Cache.ClearsFor uncached (.identifier "MyApp.Repo") (.text "users")
        emptySnapshot.store := ⟨_, _, none, rfl, rfl, by simp⟩
    exact ofEmpty.2.2.2.2.2 _ usersRequest _ _ _ _ rfl rfl (by cbv) rfl rfl cleared missed

/-- The data of the snapshot of levels. -/
def levelsFile (n : Int) : Value := .dict [
  (.text "dialect", .text "postgres"), (.text "tables", (levels n).tables)]

theorem ofData_levelsFile (n : Int) : ofData "db.yml" (levelsFile n) = .ok (levels n) := by
  cbv

/-- A dialect that is not known is no failure of the documented kinds. Neither is a column
without a name, nor a default of an enumeration that is too long to be written. -/
theorem not_limited_malformed :
    ∃ f g h,
      inferred "db.yml" (.dict [(.text "dialect", .text "oracle")]) .null (.text "users") =
        .error f ∧ isFailure f = false ∧
      inferred "db.yml" (.dict [(.text "dialect", .text "sqlite"),
          (.text "tables",
            .dict [(.text "users", .dict [(.text "columns", .list [.dict []])])])])
        .null (.text "users") = .error g ∧ isFailure g = false ∧
      inferred "db.yml" (levelsFile (10 ^ Text.maxDigits)) .null (.text "levels") = .error h ∧
        isFailure h = false := by
  refine ⟨_, _, .badValue, by cbv, rfl, by cbv, rfl, ?_, rfl⟩
  rw [inferred, ofData_levelsFile, ok_bind, schema_levels_long (.inl rfl)]

end Snapshot

end Schemata
