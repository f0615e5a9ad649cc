/-
Values that are the same as themselves.

Equality as the data means it is decided by walking two values side by side. On one value it
can only fail where the walk has no end, so that every value without a loop in it is the same
as itself: that includes a double that is no number, by its origin, and a mapping, whose
entries have no order.
-/
import Schemata.Proofs.Decimal.Bits
import Schemata.Value.Document

namespace Schemata.Value

mutual

/-- No list or mapping in a value holds itself. -/
def hasEnd : Value → Bool
  | .loop _ => false
  | .list xs => allEnd xs
  | .tuple xs => allEnd xs
  | .set xs => allEnd xs
  | .dict es => entriesEnd es
  | .record _ fs => fieldsEnd fs
  | _ => true

/-- Every item has an end. -/
def allEnd : List Value → Bool
  | [] => true
  | x :: xs => hasEnd x && allEnd xs

/-- Every key and every value of a mapping has an end. -/
def entriesEnd : List (Value × Value) → Bool
  | [] => true
  | (k, v) :: es => hasEnd k && hasEnd v && entriesEnd es

/-- Every attribute has an end. -/
def fieldsEnd : List (String × Value) → Bool
  | [] => true
  | (_, v) :: fs => hasEnd v && fieldsEnd fs

end

theorem allEnd_iff {xs : List Value} : allEnd xs = true ↔ ∀ x ∈ xs, x.hasEnd = true := by
  induction xs with
  | nil => simp [allEnd]
  | cons x xs ih => simp [allEnd, ih]

theorem sameLeaf_float (x : Float) : sameLeaf (.float x) (.float x) = true := by
  simp only [sameLeaf, word?, int?, Bool.or_eq_true, Bool.and_self]
  cases h : x.isNaN
  · exact .inl (Decimal.beq_self h)
  · exact .inr rfl

theorem sameLeaf_moment (m : Moment) : sameLeaf (.moment m) (.moment m) = true := by
  simp [sameLeaf, word?, int?, Moment.same]

mutual

/-- A value without a loop is the same as itself. -/
theorem same_self : ∀ v : Value, v.hasEnd = true → v.same v = true
  | .null, _ => by simp [same, sameLeaf, word?, int?]
  | .bool _, _ => by simp [same, sameLeaf, word?, int?]
  | .int _, _ => by simp [same, sameLeaf, word?, int?]
  | .float x, _ => by simp [same, sameLeaf_float]
  | .nan _, _ => by simp [same, sameLeaf, word?, int?]
  | .text _, _ => by simp [same, sameLeaf, word?]
  | .generated _, _ => by simp [same, sameLeaf, word?]
  | .action _, _ => by simp [same, sameLeaf, word?]
  | .dialect _, _ => by simp [same, sameLeaf, word?]
  | .type _, _ => by simp [same, sameLeaf, word?, int?]
  | .date _, _ => by simp [same, sameLeaf, word?, int?]
  | .moment _, _ => by simp [same, sameLeaf_moment]
  | .bytes _, _ => by simp [same, sameLeaf, word?, int?]
  | .list xs, h => by
    rw [same]
    exact sameItems_self xs h
  | .tuple xs, h => by
    rw [same]
    exact sameItems_self xs h
  | .set xs, h => by
    rw [same, beq_self_eq_true, Bool.true_and]
    exact sameMembers_of_subset xs xs h (List.Subset.refl xs)
  | .dict es, h => by
    rw [same, beq_self_eq_true, Bool.true_and]
    exact sameEntries_of_subset es es h (List.Subset.refl es)
  | .record k fs, h => by
    rw [same, beq_self_eq_true, Bool.true_and]
    exact sameFields_self fs h

theorem sameItems_self : ∀ xs : List Value, allEnd xs = true → sameItems xs xs = true
  | [], _ => by rw [sameItems]
  | x :: xs, h => by
    simp only [allEnd, Bool.and_eq_true] at h
    rw [sameItems, same_self x h.1, sameItems_self xs h.2]
    rfl

theorem sameMembers_of_subset : ∀ xs ys : List Value, allEnd xs = true → xs ⊆ ys →
    sameMembers xs ys = true
  | [], _, _, _ => by rw [sameMembers]
  | x :: xs, ys, h, hs => by
    simp only [allEnd, Bool.and_eq_true] at h
    have like : (ys.any fun y => same x y) = true :=
      List.any_eq_true.2 ⟨x, hs (.head _), same_self x h.1⟩
    rw [sameMembers, like,
      sameMembers_of_subset xs ys h.2 fun y hy => hs (.tail _ hy)]
    rfl

theorem sameEntries_of_subset :
    ∀ es fs : List (Value × Value), entriesEnd es = true → es ⊆ fs →
    sameEntries es fs = true
  | [], _, _, _ => by rw [sameEntries]
  | (k, v) :: es, fs, h, hs => by
    simp only [entriesEnd, Bool.and_eq_true] at h
    have like : (fs.any fun e => same k e.1 && same v e.2) = true :=
      List.any_eq_true.2 ⟨(k, v), hs (.head _), by
        rw [same_self k h.1.1, same_self v h.1.2]
        rfl⟩
    rw [sameEntries, like,
      sameEntries_of_subset es fs h.2 fun e he => hs (.tail _ he)]
    rfl

theorem sameFields_self : ∀ fs : List (String × Value), fieldsEnd fs = true →
    sameFields fs fs = true
  | [], _ => by rw [sameFields]
  | (k, v) :: fs, h => by
    simp only [fieldsEnd, Bool.and_eq_true] at h
    rw [sameFields, beq_self_eq_true, same_self v h.1, sameFields_self fs h.2]
    rfl

end

/-! ## Values taken apart -/

theorem hasEnd_dumpedType (t : FieldType) : t.dumped.hasEnd = true := by
  induction t with
  | named n => rfl
  | array t ih => simp [FieldType.dumped, hasEnd, entriesEnd, ih]
  | enum vs =>
    have texts : allEnd (vs.map .text) = true := by
      induction vs with
      | nil => rfl
      | cons v vs ih => simp [allEnd, hasEnd, ih]
    simp [FieldType.dumped, hasEnd, entriesEnd, texts]

mutual

/-- Taking a value apart leaves no loop where there was none. -/
theorem hasEnd_dumped : ∀ v : Value, v.hasEnd = true → v.dumped.hasEnd = true
  | .null, h => h
  | .bool _, h => h
  | .int _, h => h
  | .float _, h => h
  | .nan _, h => h
  | .text _, h => h
  | .generated _, h => h
  | .action _, h => h
  | .dialect _, h => h
  | .type t, _ => hasEnd_dumpedType t
  | .date _, h => h
  | .moment _, h => h
  | .bytes _, h => h
  | .list xs, h => allEnd_dumpedItems xs h
  | .tuple xs, h => allEnd_dumpedItems xs h
  | .set xs, h => allEnd_dumpedItems xs h
  | .dict es, h => entriesEnd_dumpedEntries es h
  | .record _ fs, h => entriesEnd_dumpedFields fs h

theorem allEnd_dumpedItems : ∀ xs : List Value, allEnd xs = true →
    allEnd (dumpedItems xs) = true
  | [], _ => rfl
  | x :: xs, h => by
    simp only [allEnd, Bool.and_eq_true] at h
    rw [dumpedItems, allEnd, hasEnd_dumped x h.1, allEnd_dumpedItems xs h.2]
    rfl

theorem entriesEnd_dumpedEntries : ∀ es : List (Value × Value), entriesEnd es = true →
    entriesEnd (dumpedEntries es) = true
  | [], _ => rfl
  | (k, v) :: es, h => by
    simp only [entriesEnd, Bool.and_eq_true] at h
    rw [dumpedEntries, entriesEnd, h.1.1, hasEnd_dumped v h.1.2,
      entriesEnd_dumpedEntries es h.2]
    rfl

theorem entriesEnd_dumpedFields : ∀ fs : List (String × Value), fieldsEnd fs = true →
    entriesEnd (dumpedFields fs) = true
  | [], _ => rfl
  | (k, v) :: fs, h => by
    simp only [fieldsEnd, Bool.and_eq_true] at h
    have key : (Value.text k).hasEnd = true := rfl
    rw [dumpedFields, entriesEnd, key, hasEnd_dumped v h.1, entriesEnd_dumpedFields fs h.2]
    rfl

end

end Schemata.Value
