/-
What the type mapping gives, and what it makes of its own result.

A mapping reads names that are no known types and turns known ones into others, and it does so
at every depth of an array. All names in its result are known, and none of them is that of a
stored identifier, for which there is no field. Where a type is settled (`Settled`), no rule
applies to any of its names and none of its arrays is one of documents: then it is mapped to
itself.

A result is settled unless a document was hidden. An array looks at the name of its member
before the name is read, so that an array of `JSON` becomes one of `json` where documents
without a default stay what they are, and only mapping this once more makes it an array of
maps (`fieldType_fieldType_iff`).

An array of Postgres keeps its depth, and only what it is an array of is mapped. The default
of the column, from which a document would become an array or a map, decides nothing there; it
is written for the members of an enumeration, and must not be too long for that
(`fieldTypeOf_nested`).
-/
import Mathlib
import Schemata.Proofs.Value.Written
import Schemata.Schema.TypeMapping

namespace Schemata

/-- The names in a type. -/
def FieldType.leaves : FieldType → List String
  | .named n => [n]
  | .array t => t.leaves
  | .enum _ => []

theorem FieldType.leaves_nested (t : FieldType) (k : Nat) :
    (t.nested k).leaves = t.leaves := by
  induction k with
  | zero => rfl
  | succ k ih => exact ih

namespace TypeMapping

/-! ## The names that reading gives -/

/-- The names of normalized types. -/
def normalNames : List String := [
  "integer", "float", "decimal", "string", "boolean", "binary", "date", "time",
  "naive_datetime",
  "utc_datetime", "uuid", "json", "jsonb"]

theorem normalNames_subset_knownNames : normalNames ⊆ knownNames := by
  decide

theorem mem_of_lookup {table : List (String × String)} {names : List String} {k v : String}
    (found : table.lookup k = some v) (all : (table.all fun e => names.contains e.2) = true) :
    v ∈ names := by
  obtain ⟨front, back, rfl, _⟩ := List.lookup_eq_some_iff.1 found
  simpa using List.all_eq_true.1 all (k, v) (by simp)

theorem leaves_elementType (name : List Char) :
    ∀ n ∈ (Postgres.elementType name).leaves, n ∈ normalNames := by
  have inTable {k v : String} (found : Postgres.typeTable.lookup k = some v) :
      v ∈ normalNames :=
    mem_of_lookup found (by decide)
  intro n hn
  unfold Postgres.elementType at hn
  split at hn
  case h_1 found =>
    rw [FieldType.leaves, List.mem_singleton] at hn
    rw [hn]
    exact inTable found
  case h_2 =>
    rw [FieldType.leaves, List.mem_singleton] at hn
    rw [hn]
    cases found : Postgres.typeTable.lookup (String.ofList (Postgres.plainName name)) with
    | none => decide
    | some t => exact inTable found

theorem leaves_typeOfName (name : List Char) :
    ∀ n ∈ (Postgres.typeOfName name).leaves, n ∈ normalNames := by
  fun_induction Postgres.typeOfName name with
  | case1 name member _ ih => exact ih
  | case2 name _ => exact leaves_elementType name

/-- No name is read as an enumeration, nor as an array over one. -/
theorem isEnumeration_normalizeType (raw : String) :
    isEnumeration (Postgres.normalizeType raw) = false := by
  have plain (name : List Char) : isEnumeration (Postgres.elementType name) = false := by
    unfold Postgres.elementType
    split
    · rfl
    · rfl
  have member (name : List Char) : isEnumeration (Postgres.typeOfName name) = false := by
    fun_induction Postgres.typeOfName name with
    | case1 name member _ ih => exact ih
    | case2 name _ => exact plain name
  exact member _

theorem affinity_mem (name : List Char) : Sqlite.affinity name ∈ normalNames := by
  unfold Sqlite.affinity
  split
  case h_1 rule found =>
    have all :
        (Sqlite.affinities.all fun rule => normalNames.contains rule.2) = true := by decide
    simpa using List.all_eq_true.1 all rule (List.mem_of_find?_eq_some found)
  case h_2 => decide

theorem leaves_normalize (d : Dialect) (name : String) :
    ∀ n ∈ (normalize d name).leaves, n ∈ normalNames := by
  cases d with
  | postgres => exact leaves_typeOfName _
  | sqlite =>
    intro n hn
    rw [normalize, Sqlite.normalizeType] at hn
    split at hn
    · rw [FieldType.leaves, List.mem_singleton] at hn
      rw [hn]
      decide
    · rw [FieldType.leaves, List.mem_singleton] at hn
      rw [hn]
      cases found : Sqlite.typeTable.lookup (String.ofList (Text.upper (Text.trimBlank
          (Text.dropParameters name.toList)))) with
      | none => exact affinity_mem _
      | some t => exact mem_of_lookup found (by decide)

/-! ## Settled types -/

/-- No rule applies to a name of the type, none of which is that of a stored identifier, and
no array in it is one of documents. -/
def Settled (r : Rules) (c : Context) : FieldType → Prop
  | .named n => n ∈ knownNames ∧ n ≠ "uuid" ∧ leaf r c n = .named n
  | .array t => isDocument t = false ∧ Settled r c t
  | .enum _ => True

/-- What a document without a default may be configured to become. -/
def bareTypes : List (Option FieldType) := [none, some (.named "map"), some (.named "any")]

variable {d : Dialect} {bare : Option FieldType} {c : Context} {n : String} {t : FieldType}

theorem Settled.leaves {r : Rules} (h : Settled r c t) :
    ∀ n ∈ t.leaves, n ∈ knownNames ∧ n ≠ "uuid" := by
  induction t with
  | named m =>
    intro n hn
    rw [FieldType.leaves, List.mem_singleton] at hn
    rw [hn]
    exact ⟨h.1, h.2.1⟩
  | array t ih => exact ih h.2
  | enum vs => simp [FieldType.leaves]

/-- The names to which no rule of a dialect applies. -/
def plainNames : List String := [
  "id", "binary_id", "binary", "float", "decimal", "boolean", "map", "any", "date", "time",
  "naive_datetime", "utc_datetime"]

theorem settled_plain (plain : n ∈ plainNames) : Settled ⟨some d, bare⟩ c (.named n) := by
  have free : n ≠ "integer" ∧ n ≠ "string" ∧ n ≠ "uuid" ∧ n ∉ documentNames ∧
      n ∈ knownNames := by
    revert n
    decide
  obtain ⟨integer, string, uuid, document, known⟩ := free
  refine ⟨known, uuid, ?_⟩
  cases d with
  | postgres => simp [leaf, postgresName, integer, uuid, document]
  | sqlite => simp [leaf, sqliteName, integer, string, uuid, document]

@[simp] theorem isDocument_named : isDocument (.named n) = true ↔ n ∈ documentNames :=
  List.contains_iff_mem

@[simp] theorem isDocument_array : isDocument (.array t) = false := rfl

@[simp] theorem isDocument_enum (vs : List String) : isDocument (.enum vs) = false := rfl

theorem isDocument_plain (plain : n ∈ plainNames) : isDocument (.named n) = false := by
  revert n
  decide

theorem settled_arrayOfAny : Settled ⟨some d, bare⟩ c (.array (.named "any")) :=
  ⟨by decide, settled_plain (by decide)⟩

/-! ## Mapping a name -/

theorem leaf_document (d : Dialect) (bare : Option FieldType) (c : Context)
    (h : n ∈ documentNames) :
    leaf ⟨some d, bare⟩ c n = document ⟨some d, bare⟩ c n := by
  simp only [documentNames, List.mem_cons, List.not_mem_nil, or_false] at h
  cases d with
  | postgres => rcases h with rfl | rfl <;> rfl
  | sqlite => rcases h with rfl | rfl <;> rfl

/-- A document is made an array, a map or what is configured. -/
theorem document_cases (r : Rules) (c : Context) (n : String) :
    document r c n = .array (.named "any") ∨ document r c n = .named "map" ∨
      c.default = .null ∧ document r c n = r.bareDocument.getD (.named n) := by
  unfold document
  split
  · exact .inl rfl
  · exact .inl rfl
  · rename_i null
    exact .inr (.inr ⟨null, rfl⟩)
  · exact .inr (.inl rfl)

/-- A name that is no document is kept, becomes a name without rules, or becomes an array. -/
theorem leaf_cases (d : Dialect) (bare : Option FieldType) (c : Context)
    (other : n ∉ documentNames) :
    (n ≠ "uuid" ∧ leaf ⟨some d, bare⟩ c n = .named n) ∨
      (∃ m ∈ plainNames, leaf ⟨some d, bare⟩ c n = .named m) ∨
        leaf ⟨some d, bare⟩ c n = .array (.named "any") := by
  by_cases uuid : n = "uuid"
  · subst uuid
    cases d with
    | postgres =>
      cases key : c.isKey with
      | true => exact .inr (.inl ⟨"binary_id", by decide, by simp [leaf, postgresName, key]⟩)
      | false => exact .inr (.inl ⟨"binary", by decide, by simp [leaf, postgresName, key]⟩)
    | sqlite => exact .inr (.inl ⟨"binary_id", by decide, rfl⟩)
  · cases d with
    | postgres =>
      simp only [leaf, postgresName]
      split
      · exact .inr (.inl ⟨"id", by decide, rfl⟩)
      · exact .inl ⟨uuid, by simp [uuid, other]⟩
    | sqlite =>
      simp only [leaf, sqliteName]
      split
      · split
        · exact .inr (.inl ⟨"boolean", by decide, rfl⟩)
        · exact .inl ⟨uuid, rfl⟩
      · split
        · split
          · exact .inr (.inl ⟨"map", by decide, rfl⟩)
          · exact .inr (.inr rfl)
          · exact .inl ⟨uuid, rfl⟩
        · exact .inl ⟨uuid, by simp [uuid, other]⟩

theorem settled_leaf (choice : bare ∈ bareTypes) (known : n ∈ knownNames) :
    Settled ⟨some d, bare⟩ c (leaf ⟨some d, bare⟩ c n) := by
  by_cases doc : n ∈ documentNames
  · have uuid : n ≠ "uuid" := by
      rintro rfl
      revert doc
      decide
    have mapped := leaf_document d bare c doc
    rcases document_cases ⟨some d, bare⟩ c n with any | map | ⟨_, configured⟩
    · rw [mapped, any]
      exact settled_arrayOfAny
    · rw [mapped, map]
      exact settled_plain (by decide)
    · simp only [bareTypes, List.mem_cons, List.not_mem_nil, or_false] at choice
      rcases choice with rfl | rfl | rfl
      · rw [mapped, configured]
        exact ⟨known, uuid, mapped.trans configured⟩
      · rw [mapped, configured]
        exact settled_plain (by decide)
      · rw [mapped, configured]
        exact settled_plain (by decide)
  · rcases leaf_cases d bare c doc with ⟨uuid, kept⟩ | ⟨m, plain, became⟩ | any
    · rw [kept]
      exact ⟨known, uuid, kept⟩
    · rw [became]
      exact settled_plain plain
    · rw [any]
      exact settled_arrayOfAny

/-- A name is made a document only where it is one and nothing says what becomes of it. -/
theorem isDocument_leaf (choice : bare ∈ bareTypes) :
    isDocument (leaf ⟨some d, bare⟩ c n) = true ↔
      n ∈ documentNames ∧ bare = none ∧ c.default = .null := by
  by_cases doc : n ∈ documentNames
  · rw [leaf_document d bare c doc, document]
    simp only [doc, true_and]
    split
    case h_1 listed => simp [isDocument, listed]
    case h_2 text => simp [isDocument, text]
    case h_3 null =>
      simp only [bareTypes, List.mem_cons, List.not_mem_nil, or_false] at choice
      rcases choice with rfl | rfl | rfl
      · simpa [isDocument, null] using doc
      · simp [isDocument, documentNames]
      · simp [isDocument, documentNames]
    case h_4 present => simpa [isDocument, documentNames] using fun _ => present
  · have other : isDocument (leaf ⟨some d, bare⟩ c n) = false := by
      rcases leaf_cases d bare c doc with ⟨_, kept⟩ | ⟨m, plain, became⟩ | any
      · rw [kept]
        simpa [isDocument] using doc
      · rw [became]
        exact isDocument_plain plain
      · rw [any]
        rfl
    simp [other, doc]

/-! ## Mapping a type -/

theorem fieldType_known (known : n ∈ knownNames) :
    fieldType ⟨some d, bare⟩ c (.named n) = leaf ⟨some d, bare⟩ c n :=
  if_pos (List.contains_iff_mem.2 known)

theorem fieldType_unknown (unknown : n ∉ knownNames) :
    fieldType ⟨some d, bare⟩ c (.named n) = ofNormal ⟨some d, bare⟩ c (normalize d n) :=
  if_neg (mt List.contains_iff_mem.1 unknown)

theorem fieldType_array :
    fieldType ⟨some d, bare⟩ c (.array t) = arrayOf t (fieldType ⟨some d, bare⟩ c t) := rfl

theorem isDocument_arrayOf (member mapped : FieldType) :
    isDocument (arrayOf member mapped) = false := by
  rw [arrayOf]
  split
  · rfl
  · rfl

theorem isDocument_ofNormal (choice : bare ∈ bareTypes) :
    isDocument (ofNormal ⟨some d, bare⟩ c t) = true ↔
      isDocument t = true ∧ bare = none ∧ c.default = .null := by
  cases t with
  | named n => rw [ofNormal, isDocument_leaf choice, isDocument_named]
  | array t => simp [ofNormal, isDocument_arrayOf]
  | enum vs => simp [ofNormal]

/-- A mapped array is settled if its member was a document by name, or if the member is
settled and did not become a document. -/
theorem settled_arrayOf {member mapped : FieldType} :
    Settled ⟨some d, bare⟩ c (arrayOf member mapped) ↔
      isDocument member = true ∨ isDocument mapped = false ∧
        Settled ⟨some d, bare⟩ c mapped := by
  have maps : Settled ⟨some d, bare⟩ c (.array (.named "map")) :=
    ⟨by decide, settled_plain (by decide)⟩
  cases doc : isDocument member with
  | true => simp [arrayOf, doc, maps]
  | false => simp [arrayOf, doc, Settled]

/-- A type of known names is settled when it has been mapped. -/
theorem settled_ofNormal (choice : bare ∈ bareTypes)
    (known : ∀ n ∈ t.leaves, n ∈ knownNames) :
    Settled ⟨some d, bare⟩ c (ofNormal ⟨some d, bare⟩ c t) := by
  induction t with
  | named n => exact settled_leaf choice (known n (List.mem_singleton.2 rfl))
  | array t ih =>
    rw [ofNormal, settled_arrayOf]
    cases doc : isDocument t with
    | true => exact .inl rfl
    | false =>
      refine .inr ⟨?_, ih known⟩
      rw [← Bool.not_eq_true, isDocument_ofNormal choice]
      simp [doc]
  | enum vs => trivial

theorem settled_fieldType_named (choice : bare ∈ bareTypes) :
    Settled ⟨some d, bare⟩ c (fieldType ⟨some d, bare⟩ c (.named n)) := by
  by_cases known : n ∈ knownNames
  · rw [fieldType_known known]
    exact settled_leaf choice known
  · rw [fieldType_unknown known]
    exact settled_ofNormal choice fun m hm =>
      normalNames_subset_knownNames (leaves_normalize d n m hm)

/-! ## Hidden documents -/

/-- A name that is no known type and is read as a document. -/
def hidesDocument (d : Dialect) : FieldType → Bool
  | .named n => !knownNames.contains n && isDocument (normalize d n)
  | _ => false

/-- A member of an array is such a name. -/
def holdsHidden (d : Dialect) : FieldType → Bool
  | .array t => hidesDocument d t || holdsHidden d t
  | _ => false

theorem hidesDocument_named :
    hidesDocument d (.named n) = true ↔ n ∉ knownNames ∧
      isDocument (normalize d n) = true := by
  simp [hidesDocument]

/-- A known document hides none. -/
theorem hidden_eq_false_of_isDocument (doc : isDocument t = true) :
    hidesDocument d t = false ∧ holdsHidden d t = false := by
  cases t with
  | named n =>
    rw [isDocument_named] at doc
    have known : n ∈ knownNames := by
      revert n
      decide
    exact ⟨by simp [hidesDocument, known], rfl⟩
  | array t => cases doc
  | enum vs => cases doc

/-- What is no document becomes one only where it hides one and nothing says what becomes of
it. -/
theorem isDocument_fieldType (choice : bare ∈ bareTypes) (other : isDocument t = false) :
    isDocument (fieldType ⟨some d, bare⟩ c t) = true ↔
      hidesDocument d t = true ∧ bare = none ∧ c.default = .null := by
  cases t with
  | named n =>
    rw [hidesDocument_named]
    by_cases known : n ∈ knownNames
    · rw [fieldType_known known, isDocument_leaf choice]
      have doc : n ∉ documentNames := by
        rwa [← isDocument_named, Bool.not_eq_true]
      simp [doc, known]
    · rw [fieldType_unknown known, isDocument_ofNormal choice]
      simp [known]
  | array t => simp [fieldType_array, isDocument_arrayOf, hidesDocument]
  | enum vs => simp [fieldType, hidesDocument]

/-- The result of a mapping is settled unless a document was hidden in an array. -/
theorem settled_fieldType (choice : bare ∈ bareTypes) :
    Settled ⟨some d, bare⟩ c (fieldType ⟨some d, bare⟩ c t) ↔
      ¬ (holdsHidden d t = true ∧ bare = none ∧ c.default = .null) := by
  induction t with
  | named n => simp [settled_fieldType_named choice, holdsHidden]
  | array t ih =>
    rw [fieldType_array, settled_arrayOf, ih, holdsHidden]
    cases doc : isDocument t with
    | true =>
      obtain ⟨hides, holds⟩ := hidden_eq_false_of_isDocument (d := d) doc
      simp [hides, holds]
    | false =>
      rw [← Bool.not_eq_true (isDocument _), isDocument_fieldType choice doc, Bool.or_eq_true]
      tauto
  | enum vs => simp [fieldType, Settled, holdsHidden]

/-- The names in the result of a mapping are settled, whatever was hidden. -/
theorem leaves_fieldType (choice : bare ∈ bareTypes) :
    ∀ n ∈ (fieldType ⟨some d, bare⟩ c t).leaves, n ∈ knownNames ∧ n ≠ "uuid" := by
  induction t with
  | named n => exact (settled_fieldType_named choice).leaves
  | array t ih =>
    rw [fieldType_array, arrayOf]
    split
    · simp [FieldType.leaves, knownNames]
    · exact ih
  | enum vs => simp [fieldType, FieldType.leaves]

/-- Settled types are those of settled names that are mapped to themselves. -/
theorem settled_iff (closed : ∀ n ∈ t.leaves, n ∈ knownNames ∧ n ≠ "uuid") :
    Settled ⟨some d, bare⟩ c t ↔ fieldType ⟨some d, bare⟩ c t = t := by
  induction t with
  | named n =>
    obtain ⟨known, other⟩ := closed n (List.mem_singleton.2 rfl)
    simp [Settled, fieldType_known known, known, other]
  | array t ih =>
    rw [Settled, ih closed, fieldType_array, arrayOf]
    cases doc : isDocument t with
    | true =>
      have map : t ≠ .named "map" := by
        rintro rfl
        cases doc
      simp [Ne.symm map]
    | false => simp
  | enum vs => simp [Settled, fieldType]

/-- All names in the result of a mapping are known, none is that of a stored identifier, and
mapping it again gives the same, except where an array hides a document and nothing says what
becomes of it. -/
theorem fieldType_fieldType_iff (d : Dialect) (c : Context) (t : FieldType)
    (choice : bare ∈ bareTypes) :
    (∀ n ∈ (fieldType ⟨some d, bare⟩ c t).leaves, n ∈ knownNames ∧ n ≠ "uuid") ∧
      (fieldType ⟨some d, bare⟩ c (fieldType ⟨some d, bare⟩ c t) =
        fieldType ⟨some d, bare⟩ c t ↔
        ¬ (holdsHidden d t = true ∧ bare = none ∧ c.default = .null)) := by
  have closed := leaves_fieldType (d := d) (c := c) (t := t) choice
  exact ⟨closed, by rw [← settled_iff closed, settled_fieldType choice]⟩

/-- An array of documents whose name is no known type, where documents become maps. -/
theorem fieldType_fieldType_jsonArray :
    some (.named "map") ∈ bareTypes ∧
      fieldType ⟨some .postgres, some (.named "map")⟩ {}
          (fieldType ⟨some .postgres, some (.named "map")⟩ {} (.array (.named "JSON"))) =
        fieldType ⟨some .postgres, some (.named "map")⟩ {} (.array (.named "JSON")) := by
  have choice : some (.named "map") ∈ bareTypes := by decide
  have again := (fieldType_fieldType_iff .postgres {} (.array (.named "JSON")) choice).2
  exact ⟨choice, again.2 (by simp)⟩

/-- Where documents without a default stay what they are, an array of such documents is mapped
to an array of known documents first, and to an array of maps when it is mapped again. -/
theorem not_stable_jsonArray :
    ¬ ∀ (bare : Option FieldType) (d : Dialect) (c : Context) (t : FieldType),
      bare ∈ bareTypes →
      fieldType ⟨some d, bare⟩ c (fieldType ⟨some d, bare⟩ c t) =
        fieldType ⟨some d, bare⟩ c t := by
  intro claim
  have again := claim none .postgres {} (.array (.named "JSON")) (by decide)
  have small :
      Text.lower (Text.trimBlank "JSON".toList) = ['j', 's', 'o', 'n'] := by decide +kernel
  have read : normalize .postgres "JSON" = .named "json" := by
    rw [normalize, Postgres.normalizeType, small, Postgres.typeOfName]
    split
    case h_1 member => cases member
    case h_2 => rfl
  have first : fieldType ⟨some .postgres, none⟩ {} (.array (.named "JSON")) =
      .array (.named "json") := by
    rw [fieldType_array, fieldType_unknown (by decide), read]
    rfl
  rw [first] at again
  exact absurd again (by decide)

/-! ## Arrays of arrays -/

theorem isDocument_iff : isDocument t = true ↔ t = .named "json" ∨ t = .named "jsonb" := by
  cases t with
  | named n => simp [documentNames]
  | array t => simp
  | enum vs => simp

/-- Arrays stay as deep as they are. What they are arrays of is mapped as if it stood alone,
except that a document becomes a map. -/
theorem fieldType_nested (d : Dialect) (bare : Option FieldType) (c : Context) (t : FieldType)
    (k : Nat) :
    fieldType ⟨some d, bare⟩ c (t.nested (k + 1)) =
      (if t = .named "json" ∨ t = .named "jsonb" then FieldType.named "map"
        else fieldType ⟨some d, bare⟩ c t).nested (k + 1) := by
  induction k with
  | zero =>
    show arrayOf t (fieldType ⟨some d, bare⟩ c t) = _
    simp only [arrayOf, isDocument_iff]
    split
    · rfl
    · rfl
  | succ k ih =>
    -- An array is no document, so that only the innermost one can be of documents.
    show arrayOf (t.nested (k + 1)) (fieldType ⟨some d, bare⟩ c (t.nested (k + 1))) = _
    rw [ih]
    rfl

/-- A name of Postgres that is no document is mapped without a look at the default. -/
theorem leaf_default (other : n ∉ documentNames) (v : Value) :
    leaf ⟨some .postgres, bare⟩ { c with default := v } n =
      leaf ⟨some .postgres, bare⟩ c n := by
  simp [leaf, postgresName, Context.isKey, other]

/-- An array of Postgres is mapped without a look at the default: its documents are maps,
whatever the default is. -/
theorem fieldType_array_default (known : ∀ n ∈ t.leaves, n ∈ knownNames) (v : Value) :
    fieldType ⟨some .postgres, bare⟩ { c with default := v } (.array t) =
      fieldType ⟨some .postgres, bare⟩ c (.array t) := by
  induction t with
  | named n =>
    have known := known n (List.mem_singleton.2 rfl)
    rw [fieldType_array, fieldType_array, fieldType_known known, fieldType_known known]
    cases doc : isDocument (.named n) with
    | true => simp only [arrayOf, doc, if_true]
    | false =>
      have other : n ∉ documentNames := by
        rwa [← isDocument_named, Bool.not_eq_true]
      rw [leaf_default other]
  | array t ih => rw [fieldType_array, ih known, ← fieldType_array]
  | enum vs => rfl

@[simp] theorem isEnumeration_nested (t : FieldType) (k : Nat) :
    isEnumeration (t.nested k) = isEnumeration t := by
  induction k with
  | zero => rfl
  | succ k ih => exact ih

/-- An array of Postgres, however deep, over a type of known names is mapped to one as deep
over what the type is mapped to, or over a map where the type is a document. The mapping gives
it no default and takes nothing from the one of the column. It only writes it for the members
of an enumeration, and there a default that is too long ends it. -/
theorem fieldTypeOf_nested (bare : Option FieldType) (c : Context) {k : Nat} (arrays : 1 ≤ k)
    (known : ∀ n ∈ t.leaves, n ∈ knownNames) :
    fieldTypeOf ⟨some .postgres, bare⟩ c (.type (t.nested k)) =
        (if isEnumeration t = true ∧ c.default.hasLongInt = true then .error .badValue
          else .ok ((if t = .named "json" ∨ t = .named "jsonb" then FieldType.named "map"
            else fieldType ⟨some .postgres, bare⟩ c t).nested k, none)) ∧
      ∀ v : Value, (isEnumeration t = true → v.hasLongInt = c.default.hasLongInt) →
        fieldTypeOf ⟨some .postgres, bare⟩ { c with default := v } (.type (t.nested k)) =
          fieldTypeOf ⟨some .postgres, bare⟩ c (.type (t.nested k)) := by
  obtain ⟨k, rfl⟩ := Nat.exists_eq_add_of_le' arrays
  have leaves : ∀ n ∈ (t.nested k).leaves, n ∈ knownNames := by
    rwa [FieldType.leaves_nested]
  have noDefault (c : Context) :
      fieldTypeOf ⟨some .postgres, bare⟩ c (.type (t.nested (k + 1))) =
        if isEnumeration t = true ∧ c.default.hasLongInt = true then .error .badValue
        else .ok (fieldType ⟨some .postgres, bare⟩ c (t.nested (k + 1)), none) := by
    have refused : isRefused ⟨some .postgres, bare⟩ c (t.nested (k + 1)) =
        (isEnumeration t && c.default.hasLongInt) := by
      rw [isRefused, isEnumeration_nested]
      rfl
    rw [fieldTypeOf, refused]
    simp only [Bool.and_eq_true]
    rfl
  constructor
  · rw [noDefault, fieldType_nested]
  · intro v alike
    have condition : isEnumeration t = true ∧ v.hasLongInt = true ↔
        isEnumeration t = true ∧ c.default.hasLongInt = true :=
      and_congr_right fun enumeration => by rw [alike enumeration]
    rw [noDefault, noDefault, FieldType.nested, fieldType_array_default leaves]
    simp only [condition]

/-- Arrays of arrays of documents, of a column whose default would make a single document an
array of anything. -/
theorem fieldTypeOf_nested_jsonMatrix :
    (∀ n ∈ (FieldType.named "jsonb").leaves, n ∈ knownNames) ∧
      fieldTypeOf ⟨some .postgres, none⟩ { default := .list [] }
          (.type (.array (.array (.named "jsonb")))) =
        .ok (.array (.array (.named "map")), none) ∧
      fieldTypeOf ⟨some .postgres, none⟩ { default := .dict [] }
          (.type (.array (.array (.named "jsonb")))) =
        .ok (.array (.array (.named "map")), none) := by
  have known : ∀ n ∈ (FieldType.named "jsonb").leaves, n ∈ knownNames := by decide
  obtain ⟨mapped, alike⟩ :=
    fieldTypeOf_nested none { default := .list [] } (by decide : 1 ≤ 2) known
  exact ⟨known, mapped, (alike (.dict []) (by decide)).trans mapped⟩

/-- Not every array is mapped: for members of an enumeration the default is written as a text,
which a number may be too long for. -/
theorem not_mapped_longDefault :
    ¬ ∀ (t : FieldType) (bare : Option FieldType) (c : Context) (k : Nat), 1 ≤ k →
      (∀ n ∈ t.leaves, n ∈ knownNames) →
      fieldTypeOf ⟨some .postgres, bare⟩ c (.type (t.nested k)) =
          .ok ((if t = .named "json" ∨ t = .named "jsonb" then FieldType.named "map"
            else fieldType ⟨some .postgres, bare⟩ c t).nested k, none) ∧
        ∀ v : Value,
          fieldTypeOf ⟨some .postgres, bare⟩ { c with default := v } (.type (t.nested k)) =
            fieldTypeOf ⟨some .postgres, bare⟩ c (.type (t.nested k)) := by
  intro claim
  have long : (Value.int (10 ^ Text.maxDigits)).hasLongInt = true := Value.hasLongInt_tenPower
  obtain ⟨mapped, -⟩ := claim (.enum ["low", "high"]) none
    { default := .int (10 ^ Text.maxDigits) } 1 (by decide) (by simp [FieldType.leaves])
  rw [fieldTypeOf, isRefused, long] at mapped
  cases mapped

end TypeMapping

end Schemata
