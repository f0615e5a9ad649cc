/-
Values that can be written.

A whole number is too long to be written from `10 ^ Text.maxDigits` on, in either direction
(`hasLongInt_int`), and such a number is all that can keep a value from being written. Texts
are always written, as they are.
-/
import Schemata.Proofs.Steps
import Schemata.Value.Shown

namespace Schemata.Value

/-- A whole number is too long if it has more digits than are ever written. -/
theorem hasLongInt_int {n : Int} :
    (int n).hasLongInt = true ↔ 10 ^ Text.maxDigits ≤ n.natAbs := by
  have digits : (toString n.natAbs).length ≤ Text.maxDigits ↔
      n.natAbs < 10 ^ Text.maxDigits :=
    Nat.length_repr_le_iff (by decide)
  rw [hasLongInt, decide_eq_true_iff]
  omega

theorem hasLongInt_tenPower : (int (10 ^ Text.maxDigits)).hasLongInt = true := by
  have size (k : Nat) : (10 ^ k : Int).natAbs = 10 ^ k := Int.natAbs_pow 10 k
  exact hasLongInt_int.2 (size Text.maxDigits).ge

@[simp] theorem plain_text (s : String) : (text s).plain = .ok s := rfl

/-- Texts that are written one by one are the texts themselves. -/
theorem mapM_plain_text (texts : List String) :
    (texts.map text).mapM (·.plain) = (.ok texts : Except Fault (List String)) := by
  rw [List.mapM_map]
  exact (mapM_eq_ok_map fun t _ => plain_text t).trans (congrArg _ texts.map_id)

end Schemata.Value
