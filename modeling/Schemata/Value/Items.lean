/-
Reading a value as a sequence and as a mapping.

The builders of tables accept more than lists where a list is expected: a mapping is read as
its keys, a text as its characters, bytes as their numbers, a type as its named attributes.
They accept more than mappings where a mapping is expected: any sequence of pairs will do.

`depth` bounds both readings: no item, and no value of an entry, is deeper than the value that
it was read from. The recursions over trees end by it.
-/
import Schemata.Fault
import Schemata.Value.Basic

namespace Schemata

/-- How deep a type is when it is taken apart. -/
def FieldType.depth : FieldType → Nat
  | .named _ => 0
  | .array t => t.depth + 2
  | .enum _ => 2

namespace Value

mutual

/-- The depth of nesting of a value. -/
def depth : Value → Nat
  | .type t => t.depth
  | .list xs => depthItems xs + 1
  | .tuple xs => depthItems xs + 1
  | .set xs => depthItems xs + 1
  | .dict es => depthEntries es + 1
  | .record _ fs => depthFields fs + 2
  | _ => 0

/-- The depth of the deepest item. -/
def depthItems : List Value → Nat
  | [] => 0
  | x :: xs => max (depth x) (depthItems xs)

/-- The depth of the deepest key or value. -/
def depthEntries : List (Value × Value) → Nat
  | [] => 0
  | (k, v) :: es => max (max (depth k) (depth v)) (depthEntries es)

/-- The depth of the deepest attribute. -/
def depthFields : List (String × Value) → Nat
  | [] => 0
  | (_, v) :: fs => max (depth v) (depthFields fs)

end

theorem depth_le_depthItems {x : Value} {xs : List Value} (h : x ∈ xs) :
    x.depth ≤ depthItems xs := by
  induction xs with
  | nil => cases h
  | cons y ys ih =>
    simp only [depthItems]
    cases h with
    | head => omega
    | tail _ h => have := ih h; omega

theorem depth_le_depthEntries {e : Value × Value} {es : List (Value × Value)} (h : e ∈ es) :
    e.1.depth ≤ depthEntries es ∧ e.2.depth ≤ depthEntries es := by
  induction es with
  | nil => cases h
  | cons f fs ih =>
    obtain ⟨k, v⟩ := f
    simp only [depthEntries]
    cases h with
    | head => dsimp only; omega
    | tail _ h => have := ih h; omega

theorem depth_le_depthFields {f : String × Value} {fs : List (String × Value)} (h : f ∈ fs) :
    f.2.depth ≤ depthFields fs := by
  induction fs with
  | nil => cases h
  | cons g gs ih =>
    obtain ⟨k, v⟩ := g
    simp only [depthFields]
    cases h with
    | head => dsimp only; omega
    | tail _ h => have := ih h; omega

theorem depth_toValue (t : FieldType) : t.toValue.depth = t.depth := by
  cases t <;> rfl

theorem depth_find? {es : List (Value × Value)} {key v : Value} (h : find? es key = some v) :
    v.depth ≤ depthEntries es := by
  unfold find? at h
  obtain ⟨e, he, rfl⟩ := Option.map_eq_some_iff.1 h
  exact (depth_le_depthEntries (List.mem_of_find?_eq_some he)).2

/-! ## Items -/

/-- The attributes of a type by name. -/
def typeFields : FieldType → List (String × Value)
  | .named _ => []
  | .array t => [("kind", .text "array"), ("of", t.toValue)]
  | .enum vs => [("kind", .text "enum"), ("values", .list (vs.map .text))]

/-- Named attributes as pairs. -/
def fieldItems (fs : List (String × Value)) : List Value :=
  fs.map fun f => .tuple [.text f.1, f.2]

/-- The items that a value is read as, if it can be read as a sequence. -/
def items? : Value → Option (List Value)
  | .list xs => some xs
  | .tuple xs => some xs
  | .set xs => some xs
  | .bytes bs => some (bs.map fun b => .int b.toNat)
  | .dict es => some (es.map (·.1))
  | .type t => some (fieldItems (typeFields t))
  | .record _ fs => some (fieldItems fs)
  | v => v.word?.map fun s => s.toList.map fun c => .text (String.singleton c)

theorem depth_text_list (vs : List String) : depthItems (vs.map .text) = 0 := by
  induction vs with
  | nil => rfl
  | cons v vs ih => simp [depthItems, depth, ih]

theorem depth_bytes_list (bs : List UInt8) :
    depthItems (bs.map fun b => .int b.toNat) = 0 := by
  induction bs with
  | nil => rfl
  | cons b bs ih => simp [depthItems, depth, ih]

theorem depth_typeFields {t : FieldType} {f : String × Value} (h : f ∈ typeFields t) :
    f.2.depth + 1 ≤ t.depth := by
  cases t with
  | named n => simp [typeFields] at h
  | array t =>
    simp only [typeFields, List.mem_cons, List.not_mem_nil, or_false] at h
    rcases h with rfl | rfl
    · simp [depth, FieldType.depth]
    · simp [depth_toValue, FieldType.depth]
  | enum vs =>
    simp only [typeFields, List.mem_cons, List.not_mem_nil, or_false] at h
    rcases h with rfl | rfl
    · simp [depth, FieldType.depth]
    · simp [depth, FieldType.depth, depth_text_list]

theorem depth_of_items {v x : Value} {xs : List Value} (h : items? v = some xs)
    (hx : x ∈ xs) :
    x.depth ≤ v.depth := by
  unfold items? at h
  split at h
  · cases h; have := depth_le_depthItems hx; simp only [depth]; omega
  · cases h; have := depth_le_depthItems hx; simp only [depth]; omega
  · cases h; have := depth_le_depthItems hx; simp only [depth]; omega
  · cases h
    have := depth_le_depthItems hx
    rw [depth_bytes_list] at this
    omega
  · cases h
    obtain ⟨e, he, rfl⟩ := List.mem_map.1 hx
    have := depth_le_depthEntries he; simp only [depth]; omega
  · cases h
    obtain ⟨f, hf, rfl⟩ := List.mem_map.1 hx
    have := depth_typeFields hf; simp only [depth, depthItems]; omega
  · cases h
    obtain ⟨f, hf, rfl⟩ := List.mem_map.1 hx
    have := depth_le_depthFields hf; simp only [depth, depthItems]; omega
  · obtain ⟨s, hs, rfl⟩ := Option.map_eq_some_iff.1 h
    obtain ⟨c, hc, rfl⟩ := List.mem_map.1 hx
    simp [depth]

/-- The items that a value is read as. -/
def items (v : Value) : Except Fault (List Value) :=
  match v.items? with
  | some xs => .ok xs
  | none => .error .wrongKind

/-! ## Entries -/

/-- Reads an item as a key and a value. -/
def pair (v : Value) : Except Fault (Value × Value) :=
  match v.items? with
  | none => .error .wrongKind
  | some [k, x] => if k.isKey then .ok (k, x) else .error .wrongKind
  | some _ => .error .badValue

/-- Reads items as the entries of a mapping; the last value of a key is kept. -/
def pairsInto (es : List (Value × Value)) : List Value → Except Fault (List (Value × Value))
  | [] => .ok es
  | x :: xs =>
    match pair x with
    | .error f => .error f
    | .ok (k, v) => pairsInto (put es k v) xs

/-- The entries that a value is read as. -/
def entries : Value → Except Fault (List (Value × Value))
  | .dict es => .ok es
  | v =>
    match v.items? with
    | none => .error .wrongKind
    | some xs => pairsInto [] xs

theorem mem_put {es : List (Value × Value)} {k v : Value} {e : Value × Value}
    (h : e ∈ put es k v) : e.2 = v ∨ e ∈ es := by
  induction es with
  | nil => simp [put] at h; simp [h]
  | cons f fs ih =>
    obtain ⟨l, w⟩ := f
    simp only [put] at h
    split at h
    · cases h with
      | head => exact .inl rfl
      | tail _ h => exact .inr (.tail _ h)
    · cases h with
      | head => exact .inr (.head _)
      | tail _ h => exact (ih h).imp_right (.tail _)

theorem depth_pair {x : Value} {e : Value × Value} (h : pair x = .ok e) :
    e.2.depth ≤ x.depth := by
  unfold pair at h
  split at h
  · cases h
  · rename_i k v hx
    split at h
    · cases h
      exact depth_of_items hx (by simp)
    · cases h
  · cases h

theorem depth_pairsInto {n : Nat} {xs : List Value} (hxs : ∀ x ∈ xs, x.depth ≤ n) :
    ∀ {es fs : List (Value × Value)}, (∀ e ∈ es, e.2.depth ≤ n) → pairsInto es xs = .ok fs →
      ∀ e ∈ fs, e.2.depth ≤ n := by
  induction xs with
  | nil => intro es fs hes h; cases h; exact hes
  | cons x xs ih =>
    intro es fs hes h
    unfold pairsInto at h
    split at h
    · cases h
    · rename_i k v hp
      refine ih (fun y hy => hxs y (.tail _ hy)) ?_ h
      intro e he
      rcases mem_put he with he | he
      · rw [he]
        exact Nat.le_trans (depth_pair hp) (hxs x (.head _))
      · exact hes e he

theorem depth_of_entries {v : Value} {es : List (Value × Value)} (h : entries v = .ok es) :
    ∀ e ∈ es, e.2.depth ≤ v.depth := by
  unfold entries at h
  split at h
  · cases h
    intro e he
    have := depth_le_depthEntries he; simp only [depth]; omega
  · split at h
    · cases h
    · rename_i xs hx
      exact depth_pairsInto (fun x => depth_of_items hx) (by simp) h

end Value

end Schemata
