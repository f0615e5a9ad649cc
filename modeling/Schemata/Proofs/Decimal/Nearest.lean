/-
Decimals and the doubles nearest to them.

Rounding a quotient is exact arithmetic on natural numbers, so what it gives depends on the
value of the quotient alone, however it is written: `roundQuotient_congr`. The proof goes by
the scale, which is a function of the value (`scaleOf_eq`) though it is computed from an
estimate that is not. The two guards of `nearest` agree with it, as no double is as large as
ten to the 400th nor as small as its inverse, and so `nearest` is a function of the value too:
`nearest_congr`.

A double lies on the grid it is rounded to (`roundQuotient_ofBits`). A decimal with its value
reads back to it, and the shortest decimal does whatever was selected for it: a selected one
was tested, and the exact one has the value.
-/
import Mathlib.Algebra.Order.Field.Power
import Mathlib.Data.Int.Log
import Mathlib.Data.Rat.Floor
import Mathlib.Tactic.Positivity
import Mathlib.Tactic.NormNum
import Mathlib.Tactic.Linarith
import Mathlib.Tactic.FieldSimp
import Mathlib.Tactic.GCongr
import Mathlib.Tactic.Ring
import Schemata.Decimal.Notation

namespace Schemata.Decimal

/-! ## Powers -/

theorem zpow_eq_div {x : ℚ} (hx : x ≠ 0) (l : ℤ) : x ^ l = x ^ l.toNat / x ^ (-l).toNat := by
  rw [← zpow_natCast, ← zpow_natCast, ← zpow_sub₀ hx]
  congr 1
  omega

@[simp] theorem cast_twoTo (n : ℕ) : (twoTo n : ℚ) = 2 ^ n := by
  simp [twoTo]

@[simp] theorem cast_tenTo (n : ℕ) : (tenTo n : ℚ) = 10 ^ n := by
  simp [tenTo]

theorem twoTo_succ (n : ℕ) : twoTo (n + 1) = 2 * twoTo n := by
  simp [twoTo, Nat.pow_succ, Nat.mul_comm]

theorem twoTo_pos (n : ℕ) : 0 < twoTo n := Nat.pow_pos (by decide)

theorem tenTo_pos (n : ℕ) : 0 < tenTo n := Nat.pow_pos (by decide)

variable {a b c d : ℕ}

/-! ## Quotients -/

theorem belowPow_iff (hb : 0 < b) (l : ℤ) : belowPow a b l = true ↔ (a / b : ℚ) < 2 ^ l := by
  have hb' : (0 : ℚ) < b := by exact_mod_cast hb
  rw [zpow_eq_div two_ne_zero, div_lt_div_iff₀ hb' (by positivity), belowPow,
    decide_eq_true_iff, ← cast_twoTo, ← cast_twoTo]
  norm_cast
  rw [Nat.mul_comm (twoTo l.toNat) b]

theorem log_eq {v : ℚ} {f : ℤ} (lo : 2 ^ f ≤ v) (hi : v < 2 ^ (f + 1)) : Int.log 2 v = f := by
  have hv : 0 < v := lt_of_lt_of_le (by positivity) lo
  apply le_antisymm
  · have := (Int.lt_zpow_iff_log_lt Nat.one_lt_two hv).1 (by exact_mod_cast hi)
    omega
  · exact (Int.zpow_le_iff_le_log Nat.one_lt_two hv).1 (by exact_mod_cast lo)

theorem scaleOf_eq (ha : 0 < a) (hb : 0 < b) :
    scaleOf a b = max (Int.log 2 (a / b : ℚ) - 52) (-1074) := by
  have ha' : (0 : ℚ) < a := by exact_mod_cast ha
  have hb' : (0 : ℚ) < b := by exact_mod_cast hb
  have aLo : (2 : ℚ) ^ (a.log2 : ℤ) ≤ a := by
    rw [zpow_natCast]
    exact_mod_cast Nat.log2_self_le ha.ne'
  have aHi : (a : ℚ) < 2 ^ (a.log2 + 1 : ℤ) := by
    exact_mod_cast Nat.lt_log2_self
  have bLo : (2 : ℚ) ^ (b.log2 : ℤ) ≤ b := by
    rw [zpow_natCast]
    exact_mod_cast Nat.log2_self_le hb.ne'
  have bHi : (b : ℚ) < 2 ^ (b.log2 + 1 : ℤ) := by
    exact_mod_cast Nat.lt_log2_self
  have lo : (2 : ℚ) ^ ((a.log2 : ℤ) - b.log2 - 1) ≤ a / b := by
    rw [le_div_iff₀ hb']
    calc (2 : ℚ) ^ ((a.log2 : ℤ) - b.log2 - 1) * b
        ≤ 2 ^ ((a.log2 : ℤ) - b.log2 - 1) * 2 ^ (b.log2 + 1 : ℤ) := by gcongr
      _ = 2 ^ (a.log2 : ℤ) := by
        rw [← zpow_add₀ two_ne_zero]
        congr 1
        omega
      _ ≤ a := aLo
  have hi : (a / b : ℚ) < 2 ^ ((a.log2 : ℤ) - b.log2 + 1) := by
    rw [div_lt_iff₀ hb']
    calc (a : ℚ) < 2 ^ (a.log2 + 1 : ℤ) := aHi
      _ = 2 ^ ((a.log2 : ℤ) - b.log2 + 1) * 2 ^ (b.log2 : ℤ) := by
        rw [← zpow_add₀ two_ne_zero]
        congr 1
        omega
      _ ≤ 2 ^ ((a.log2 : ℤ) - b.log2 + 1) * b := by gcongr
  unfold scaleOf
  dsimp only
  by_cases h : belowPow a b ((a.log2 : ℤ) - b.log2) = true
  · rw [if_pos h, log_eq lo]
    simpa using (belowPow_iff hb _).1 h
  · rw [if_neg h, log_eq (not_lt.1 fun e => h ((belowPow_iff hb _).2 e)) hi]

theorem roundDiv_mul_right (a b : ℕ) {k : ℕ} (hk : 0 < k) :
    roundDiv (a * k) (b * k) = roundDiv a b := by
  have lt (x y : ℕ) : 2 * (x * k) < y * k ↔ 2 * x < y := by
    rw [← Nat.mul_assoc]
    exact Nat.mul_lt_mul_right hk
  have gt (x y : ℕ) : y * k < 2 * (x * k) ↔ y < 2 * x := by
    rw [← Nat.mul_assoc]
    exact Nat.mul_lt_mul_right hk
  unfold roundDiv
  simp only [Nat.mul_div_mul_right _ _ hk, Nat.mul_mod_mul_right, lt, gt]

theorem roundDiv_congr (hb : 0 < b) (hd : 0 < d) (h : a * d = c * b) :
    roundDiv a b = roundDiv c d := by
  rw [← roundDiv_mul_right a b hd, ← roundDiv_mul_right c d hb, h, Nat.mul_comm b d]

/-- What a quotient is rounded to depends on its value alone. -/
theorem roundQuotient_congr (hb : 0 < b) (hd : 0 < d) (h : (a / b : ℚ) = c / d) :
    roundQuotient a b = roundQuotient c d := by
  have cross : a * d = c * b := by
    have hb' : (b : ℚ) ≠ 0 := by exact_mod_cast hb.ne'
    have hd' : (d : ℚ) ≠ 0 := by exact_mod_cast hd.ne'
    rw [div_eq_div_iff hb' hd'] at h
    exact_mod_cast h
  rcases Nat.eq_zero_or_pos a with rfl | ha
  · have hc : c = 0 := by
      rw [Nat.zero_mul] at cross
      rcases Nat.mul_eq_zero.1 cross.symm with h | h
      · exact h
      · exact absurd h hb.ne'
    subst hc
    simp [roundQuotient]
  · have hc : 0 < c := by
      rcases Nat.eq_zero_or_pos c with rfl | hc
      · have := Nat.mul_pos ha hd
        omega
      · exact hc
    unfold roundQuotient
    have scale : scaleOf a b = scaleOf c d := by
      rw [scaleOf_eq ha hb, scaleOf_eq hc hd, h]
    simp only [beq_iff_eq, ha.ne', hc.ne', if_false, scale]
    rw [roundDiv_congr (Nat.mul_pos hb (twoTo_pos _)) (Nat.mul_pos hd (twoTo_pos _))]
    calc a * twoTo (-scaleOf c d).toNat * (d * twoTo (scaleOf c d).toNat)
        = a * d * (twoTo (-scaleOf c d).toNat * twoTo (scaleOf c d).toNat) := by
          exact Nat.mul_mul_mul_comm ..
      _ = c * b * (twoTo (-scaleOf c d).toNat * twoTo (scaleOf c d).toNat) := by rw [cross]
      _ = c * twoTo (-scaleOf c d).toNat * (b * twoTo (scaleOf c d).toNat) := by
          exact Nat.mul_mul_mul_comm ..


/-! ## Decimals -/

theorem ten_pow_guard (n : ℕ) : n < 10 ^ (n.log2 / 3 + 1) := by
  have h : n.log2 + 1 ≤ 3 * (n.log2 / 3 + 1) := by omega
  calc n < 2 ^ (n.log2 + 1) := Nat.lt_log2_self
    _ ≤ 2 ^ (3 * (n.log2 / 3 + 1)) := Nat.pow_le_pow_right (by decide) h
    _ = 8 ^ (n.log2 / 3 + 1) := by rw [Nat.pow_mul]
    _ ≤ 10 ^ (n.log2 / 3 + 1) := Nat.pow_le_pow_left (by decide) _

/-- A quotient from two to the 1025th on is rounded to infinity. -/
theorem roundQuotient_of_large (hb : 0 < b) (h : (2 : ℚ) ^ 1025 ≤ a / b) :
    roundQuotient a b = specialBits := by
  have hb' : (0 : ℚ) < b := by exact_mod_cast hb
  have hv : (0 : ℚ) < a / b := lt_of_lt_of_le (by positivity) h
  have ha : 0 < a := by
    have := (div_pos_iff_of_pos_right hb').1 hv
    exact_mod_cast this
  have hl : 1025 ≤ Int.log 2 (a / b : ℚ) :=
    (Int.zpow_le_iff_le_log Nat.one_lt_two hv).1 (by exact_mod_cast h)
  unfold roundQuotient
  simp only [beq_iff_eq, ha.ne', if_false]
  apply Nat.min_eq_right
  have hs : 973 ≤ scaleOf a b := by
    rw [scaleOf_eq ha hb]
    omega
  calc specialBits ≤ (scaleOf a b + 1074).toNat * twoTo 52 :=
        Nat.mul_le_mul_right _ (by omega)
    _ ≤ _ := Nat.le_add_right ..

theorem mul_twoTo_lt (hb : 0 < b) {k : ℕ} (h : (a / b : ℚ) < 2 ^ (-(k : ℤ))) :
    a * twoTo k < b := by
  have hb' : (0 : ℚ) < b := by exact_mod_cast hb
  have hk : (0 : ℚ) < 2 ^ k := by positivity
  rw [zpow_neg, zpow_natCast, div_lt_iff₀ hb', inv_mul_eq_div, lt_div_iff₀ hk,
    ← cast_twoTo] at h
  exact_mod_cast h

/-- A quotient of less than half of the least double is rounded to zero. -/
theorem roundQuotient_of_small (hb : 0 < b) (h : (a / b : ℚ) < 2 ^ (-1075 : ℤ)) :
    roundQuotient a b = 0 := by
  rcases Nat.eq_zero_or_pos a with rfl | ha
  · simp [roundQuotient]
  · have ha' : (0 : ℚ) < a := by exact_mod_cast ha
    have hb' : (0 : ℚ) < b := by exact_mod_cast hb
    have hl : Int.log 2 (a / b : ℚ) < -1075 :=
      (Int.lt_zpow_iff_log_lt Nat.one_lt_two (by positivity)).1 (by exact_mod_cast h)
    have hs : scaleOf a b = -1074 := by
      rw [scaleOf_eq ha hb]
      omega
    have half : 2 * (a * twoTo 1074) < b := by
      have := mul_twoTo_lt hb h
      rwa [twoTo_succ, Nat.mul_left_comm] at this
    have lt : a * twoTo 1074 < b := by omega
    have zero : roundDiv (a * twoTo 1074) b = 0 := by
      unfold roundDiv
      simp only [Nat.div_eq_of_lt lt, Nat.mod_eq_of_lt lt, if_pos half]
    unfold roundQuotient
    simp only [beq_iff_eq, ha.ne', if_false, hs]
    have e : roundDiv (a * twoTo (-(-1074 : ℤ)).toNat) (b * twoTo (-1074 : ℤ).toNat) = 0 := by
      rw [← zero]
      congr 1
      exact Nat.mul_one b
    rw [e]
    simp

/-- The value of a decimal. -/
def decimalValue (n : ℕ) (e : ℤ) : ℚ := n * 10 ^ e

theorem two_zpow_le : (2 : ℚ) ^ (1200 : ℤ) ≤ 10 ^ (400 : ℤ) := by
  calc (2 : ℚ) ^ (1200 : ℤ) = (2 ^ (3 : ℤ)) ^ (400 : ℤ) := by rw [← zpow_mul]; rfl
    _ ≤ 10 ^ (400 : ℤ) := zpow_le_zpow_left₀ (by decide) (by norm_num) (by norm_num)

theorem nearest_eq_roundQuotient {n : ℕ} {e : ℤ} (hb : 0 < b)
    (h : decimalValue n e = a / b) : nearest n e = roundQuotient a b := by
  unfold nearest
  rcases Nat.eq_zero_or_pos n with rfl | hn
  · rw [roundQuotient_congr (c := 0) (d := 1) hb Nat.one_pos]
    · simp [roundQuotient]
    · rw [← h]
      simp [decimalValue]
  · have hn' : (1 : ℚ) ≤ n := by exact_mod_cast hn
    simp only [beq_iff_eq, hn.ne', if_false]
    split
    · rename_i he
      refine (roundQuotient_of_large hb ?_).symm
      rw [← h]
      calc (2 : ℚ) ^ 1025 = 2 ^ (1025 : ℤ) := (zpow_ofNat 2 1025).symm
        _ ≤ 2 ^ (1200 : ℤ) := zpow_le_zpow_right₀ (by norm_num) (by norm_num)
        _ ≤ 10 ^ (400 : ℤ) := two_zpow_le
        _ ≤ 10 ^ e := zpow_le_zpow_right₀ (by norm_num) he.le
        _ = 1 * 10 ^ e := (one_mul _).symm
        _ ≤ n * 10 ^ e := by gcongr
    split
    · rename_i he
      refine (roundQuotient_of_small hb ?_).symm
      rw [← h]
      calc (n : ℚ) * 10 ^ e < 10 ^ (n.log2 / 3 + 1) * 10 ^ e := by
            gcongr
            exact_mod_cast ten_pow_guard n
        _ = 10 ^ (e + (n.log2 / 3 + 1 : ℕ)) := by
            rw [zpow_add₀ (by norm_num), zpow_natCast, mul_comm]
        _ ≤ 10 ^ (-400 : ℤ) := zpow_le_zpow_right₀ (by norm_num) he.le
        _ ≤ 2 ^ (-1200 : ℤ) := by
            rw [zpow_neg, zpow_neg]
            exact inv_anti₀ (by positivity) two_zpow_le
        _ ≤ 2 ^ (-1075 : ℤ) := zpow_le_zpow_right₀ (by norm_num) (by norm_num)
    · apply roundQuotient_congr (tenTo_pos _) hb
      rw [← h, decimalValue, zpow_eq_div (by norm_num)]
      push_cast [cast_tenTo]
      ring

/-! ## Doubles -/

/-- The value of a finite magnitude. -/
def Binary.value (x : Binary) : ℚ := x.m * 2 ^ x.q

/-- What the bits of a double say of its magnitude. -/
structure Binary.Normal (x : Binary) : Prop where
  lt : x.m < 2 ^ 53
  least : -1074 ≤ x.q
  full : x.q = -1074 ∨ 2 ^ 52 ≤ x.m

theorem ofBits_normal (bits : ℕ) : (Binary.ofBits bits).Normal := by
  unfold Binary.ofBits
  have t : twoTo 52 = 2 ^ 52 := rfl
  simp only [beq_iff_eq, t]
  split
  · exact ⟨by dsimp only; omega, by dsimp only; omega, .inl rfl⟩
  · exact ⟨by dsimp only; omega, by dsimp only; omega, .inr (by dsimp only; omega)⟩

theorem bits_eq_zero (bits : ℕ) (h : (Binary.ofBits bits).m = 0) : bits = 0 := by
  unfold Binary.ofBits at h
  have t : twoTo 52 = 2 ^ 52 := rfl
  simp only [beq_iff_eq, t] at h
  split at h
  · exact h
  · dsimp only at h
    omega

/-- The bits are the scaled exponent and the leading digits together. -/
theorem bits_ofBits (bits : ℕ) :
    ((Binary.ofBits bits).q + 1074).toNat * twoTo 52 + (Binary.ofBits bits).m = bits := by
  unfold Binary.ofBits
  have t : twoTo 52 = 2 ^ 52 := rfl
  simp only [beq_iff_eq, t]
  split <;> dsimp only <;> omega

theorem Binary.value_eq_div (x : Binary) :
    x.value = (x.m * twoTo x.q.toNat : ℕ) / (twoTo (-x.q).toNat : ℕ) := by
  rw [value, zpow_eq_div two_ne_zero]
  push_cast [cast_twoTo]
  rw [mul_div_assoc]

theorem Binary.Normal.scale {x : Binary} (h : x.Normal) (hm : 0 < x.m) :
    max (Int.log 2 x.value - 52) (-1074) = x.q := by
  have hp : (0 : ℚ) < 2 ^ x.q := by positivity
  have hi : x.value < 2 ^ (x.q + 53) := by
    have : (x.m : ℚ) < 2 ^ 53 := by exact_mod_cast h.lt
    rw [value, zpow_add₀ two_ne_zero, mul_comm]
    gcongr
    exact_mod_cast this
  have hv : 0 < x.value := by
    have : (0 : ℚ) < x.m := by exact_mod_cast hm
    rw [value]
    positivity
  have log : Int.log 2 x.value < x.q + 53 :=
    (Int.lt_zpow_iff_log_lt Nat.one_lt_two hv).1 (by exact_mod_cast hi)
  rcases h.full with e | hf
  · omega
  · have : (2 : ℚ) ^ 52 ≤ x.m := by exact_mod_cast hf
    have lo : 2 ^ (x.q + 52) ≤ x.value := by
      rw [value, zpow_add₀ two_ne_zero, mul_comm]
      gcongr
      exact_mod_cast this
    have : x.q + 52 ≤ Int.log 2 x.value :=
      (Int.zpow_le_iff_le_log Nat.one_lt_two hv).1 (by exact_mod_cast lo)
    have := h.least
    omega

theorem roundDiv_self (a : ℕ) (hb : 0 < b) : roundDiv (a * b) b = a := by
  unfold roundDiv
  simp only [Nat.mul_div_cancel _ hb, Nat.mul_mod_left, Nat.mul_zero, if_pos hb]

/-- A double is rounded to itself. -/
theorem roundQuotient_ofBits {bits : ℕ} (h : bits < specialBits) (hb : 0 < b)
    (e : (a / b : ℚ) = (Binary.ofBits bits).value) : roundQuotient a b = bits := by
  have normal := ofBits_normal bits
  have whole := bits_ofBits bits
  have zero := bits_eq_zero bits
  generalize Binary.ofBits bits = x at *
  rcases Nat.eq_zero_or_pos x.m with hm | hm
  · have hb' : (b : ℚ) ≠ 0 := by exact_mod_cast hb.ne'
    have ha : a = 0 := by
      rw [Binary.value, hm, Nat.cast_zero, zero_mul, div_eq_zero_iff, or_iff_left hb'] at e
      exact_mod_cast e
    rw [ha, zero hm]
    simp [roundQuotient]
  · rw [x.value_eq_div] at e
    rw [roundQuotient_congr hb (twoTo_pos _) e]
    have hn : 0 < x.m * twoTo x.q.toNat := Nat.mul_pos hm (twoTo_pos _)
    have scale : scaleOf (x.m * twoTo x.q.toNat) (twoTo (-x.q).toNat) = x.q := by
      rw [scaleOf_eq hn (twoTo_pos _), ← x.value_eq_div]
      exact normal.scale hm
    unfold roundQuotient
    simp only [beq_iff_eq, hn.ne', if_false, scale]
    rw [Nat.mul_assoc, Nat.mul_comm (twoTo (-x.q).toNat),
      roundDiv_self _ (Nat.mul_pos (twoTo_pos _) (twoTo_pos _)), whole]
    exact Nat.min_eq_left h.le

theorem nearest_of_value {bits n : ℕ} {e : ℤ} (h : bits < specialBits)
    (hv : decimalValue n e = (Binary.ofBits bits).value) : nearest n e = bits := by
  rw [nearest_eq_roundQuotient (twoTo_pos _) (hv.trans (Binary.value_eq_div _))]
  exact roundQuotient_ofBits h (twoTo_pos _) (Binary.value_eq_div _).symm

theorem nearest_congr {m n : ℕ} {d e : ℤ} (h : decimalValue m d = decimalValue n e) :
    nearest m d = nearest n e := by
  have hv : decimalValue n e = (n * tenTo e.toNat : ℕ) / (tenTo (-e).toNat : ℕ) := by
    rw [decimalValue, zpow_eq_div (by norm_num)]
    push_cast [cast_tenTo]
    rw [mul_div_assoc]
  rw [nearest_eq_roundQuotient (tenTo_pos _) (h.trans hv),
    nearest_eq_roundQuotient (tenTo_pos _) hv]

/-! ## The shortest decimal -/

theorem Dec.strip_value (fuel : ℕ) (d : Dec) :
    decimalValue (d.strip fuel).digits (d.strip fuel).exp = decimalValue d.digits d.exp := by
  induction fuel generalizing d with
  | zero => rfl
  | succ fuel ih =>
    unfold Dec.strip
    split
    · rename_i h
      simp only [bne_iff_ne, ne_eq, Bool.and_eq_true, beq_iff_eq] at h
      rw [ih, decimalValue, decimalValue, zpow_add_one₀ (by norm_num)]
      have : (d.digits : ℚ) = (d.digits / 10 : ℕ) * 10 := by
        exact_mod_cast (Nat.div_mul_cancel (Nat.dvd_of_mod_eq_zero h.2)).symm
      rw [this]
      ring
    · rfl

theorem Binary.exact_value (x : Binary) :
    decimalValue x.exact.digits x.exact.exp = x.value := by
  unfold Binary.exact
  split
  · rename_i h
    simp only [decimalValue, zpow_zero, mul_one, Binary.value]
    push_cast [cast_twoTo]
    rw [← zpow_natCast, Int.toNat_of_nonneg h]
  · rename_i h
    simp only [decimalValue, Binary.value, Nat.pow_eq]
    have : x.q = -((-x.q).toNat : ℤ) := by omega
    generalize (-x.q).toNat = k at *
    rw [this]
    simp only [zpow_neg, zpow_natCast]
    push_cast
    rw [mul_assoc]
    congr 1
    rw [show (10 : ℚ) = 5 * 2 by norm_num, mul_pow]
    field_simp

theorem Binary.pick?_reads {x : Binary} {bits : ℕ} {e : ℤ} {d : Dec}
    (h : x.pick? bits e = some d) : nearest d.digits d.exp = bits := by
  unfold Binary.pick? at h
  dsimp only at h
  split at h
  · rename_i both
    simp only [Bool.and_eq_true, beq_iff_eq] at both
    split at h <;> cases h
    · exact both.1
    · exact both.2
  split at h
  · rename_i lo
    cases h
    simpa using lo
  split at h
  · rename_i hi
    cases h
    simpa using hi
  · cases h

/-- The shortest decimal of a double reads back to the double. -/
theorem nearest_shortest {bits : ℕ} (h : bits < specialBits) :
    nearest (shortest bits).digits (shortest bits).exp = bits := by
  unfold shortest
  dsimp only
  split
  · rename_i hm
    rw [bits_eq_zero _ (beq_iff_eq.1 hm)]
    rfl
  · rw [nearest_congr (Dec.strip_value _ _)]
    generalize hf : List.findSome? _ _ = found
    cases found with
    | none => exact nearest_of_value h (Binary.exact_value _)
    | some d =>
      obtain ⟨n, -, hn⟩ := List.exists_of_findSome?_eq_some hf
      exact Binary.pick?_reads hn

end Schemata.Decimal
