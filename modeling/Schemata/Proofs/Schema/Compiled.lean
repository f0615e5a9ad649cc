/-
Tables that have a schema.

Compiling a table goes through its columns and stops at the first one that has no field. There
are two reasons for a column to have none. Its type may be that of a document without a
default, for which no type is configured; where the configured type is a text, or nothing,
this does not arise. And its default may be too long to be written, which matters where it is
written: for an enumeration of Postgres, or an array over one (`Table.HasLongDefault`).

So with such a configured type a table has a schema exactly if it has no such column, and the
schema is then the one that the rules of its dialect give (`ofTable_eq`). With any other, a
schema that there is has been made by these rules as well (`eq_compile_of_ofTable`).
-/
import Schemata.Proofs.Steps
import Schemata.Proofs.Value.Written
import Schemata.Schema.Compile

namespace Schemata

/-- A column has a default that the mapping of its type has to write, and that is too long for
it. -/
def Column.HasLongDefault (c : Column) : Prop :=
  TypeMapping.isEnumeration c.type = true ∧ c.default.hasLongInt = true

/-- Some column of a table of Postgres has a default that is too long. -/
def Table.HasLongDefault (t : Table) : Prop :=
  t.dialect = .postgres ∧ ∃ c ∈ t.columns, c.HasLongDefault

instance (c : Column) : Decidable c.HasLongDefault :=
  inferInstanceAs (Decidable (_ ∧ _))

instance (t : Table) : Decidable t.HasLongDefault :=
  inferInstanceAs (Decidable (_ ∧ _))

theorem Column.isRefused_iff {d : Dialect} {bare : Option FieldType} {c : Column} :
    TypeMapping.isRefused ⟨some d, bare⟩ c.context c.type = true ↔
      d = .postgres ∧ c.HasLongDefault := by
  simp [TypeMapping.isRefused, HasLongDefault, context, and_assoc]

/-- Where a type of a bare document is configured, a column is refused for its default
only. -/
theorem Column.refusal?_some (d : Dialect) (bare : Option FieldType) (c : Column) :
    c.refusal? d (some bare) =
      if d = .postgres ∧ c.HasLongDefault then some .badValue else none := by
  simp only [refusal?, Option.getD_some, isRefused_iff, Option.isNone_some, Bool.false_and]
  rfl

namespace Schema

/-- Whatever a table is compiled to is made by the rules of its dialect. -/
theorem eq_compile_of_ofTable {bare : Value} {t : Table} {s : Schema}
    (h : ofTable bare t = .ok s) : ∃ r, s = compile r t := by
  unfold ofTable at h
  dsimp only at h
  split at h
  · cases h
  · exact ⟨_, (Except.ok.inj h).symm⟩

/-- Where a type of a bare document is configured, only a default that is too long keeps a
table from having a schema. -/
theorem ofTable_configured {bare : Value} {document : Option FieldType}
    (configured : TypeMapping.bareDocument? bare = some document) (t : Table) :
    ofTable bare t =
      if t.HasLongDefault then .error .badValue
      else .ok (compile ⟨some t.dialect, document⟩ t) := by
  unfold ofTable
  simp only [configured, Column.refusal?_some, Option.getD_some]
  split
  case h_1 f found =>
    obtain ⟨c, hc, refused⟩ := List.exists_of_findSome?_eq_some found
    split at refused
    case isTrue long =>
      rw [if_pos ⟨long.1, c, hc, long.2⟩, ← Option.some.inj refused]
    case isFalse => cases refused
  case h_2 none =>
    rw [if_neg]
    rintro ⟨postgres, c, hc, long⟩
    have := List.findSome?_eq_none_iff.1 none c hc
    rw [if_pos ⟨postgres, long⟩] at this
    cases this

/-- A text is a type, and nothing leaves documents as they are. -/
theorem bareDocument?_eq_some {bare : Value} (h : bare = .null ∨ ∃ n, bare = .text n) :
    ∃ document, TypeMapping.bareDocument? bare = some document := by
  unfold TypeMapping.bareDocument?
  rcases h with rfl | ⟨n, rfl⟩
  · exact ⟨none, rfl⟩
  · by_cases hn : (Value.text n).isTruthy
    · exact ⟨some (.named n), by simp [hn, Value.type?, Value.text?, Value.word?]⟩
    · exact ⟨none, by rw [if_neg hn]⟩

theorem ofTable_eq {bare : Value} (h : bare = .null ∨ ∃ n, bare = .text n) (t : Table) :
    ∃ r, ofTable bare t =
      if t.HasLongDefault then .error .badValue else .ok (compile r t) := by
  obtain ⟨document, configured⟩ := bareDocument?_eq_some h
  exact ⟨_, ofTable_configured configured t⟩

/-- With a configured type that is a text, or none, a table has a schema unless a default is
too long. -/
theorem ofTable_eq_ok {bare : Value} (h : bare = .null ∨ ∃ n, bare = .text n) {t : Table}
    (short : ¬ t.HasLongDefault) : ∃ r, ofTable bare t = .ok (compile r t) := by
  obtain ⟨r, compiled⟩ := ofTable_eq h t
  exact ⟨r, compiled.trans (if_neg short)⟩

theorem ofTable_eq_error {bare : Value} (h : bare = .null ∨ ∃ n, bare = .text n) {t : Table}
    (long : t.HasLongDefault) : ofTable bare t = .error .badValue := by
  obtain ⟨_, compiled⟩ := ofTable_eq h t
  exact compiled.trans (if_pos long)

/-- With such a configured type a table has a schema exactly if no default is too long. -/
theorem exists_ofTable_iff {bare : Value}
    (h : bare = .null ∨ ∃ n, bare = .text n) {t : Table} :
    (∃ s, ofTable bare t = .ok s) ↔ ¬ t.HasLongDefault := by
  constructor
  · rintro ⟨s, compiled⟩ long
    rw [ofTable_eq_error h long] at compiled
    cases compiled
  · intro short
    obtain ⟨r, compiled⟩ := ofTable_eq_ok h short
    exact ⟨_, compiled⟩

end Schema

end Schemata
