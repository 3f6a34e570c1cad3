import Mathlib.Data.Nat.Cast.Order.Field
import Tabula.Proofs.Decimal.Nearest

/-!
# Shortest expansions read back

The search for the shortest expansion of a float goes over ever finer decimal grids. Main statement: it
comes to a grid with a point in the interval of the float, so that the expansion reads as the float
(`Expansion.isNearest_shortest`).
-/

namespace Tabula.Decimal

/-- The number that an expansion stands for. -/
def Expansion.value (e : Expansion) : ℚ := e.digits * 10 ^ e.scale

/-! ## One grid -/

namespace Interval

variable {i : Interval} {halfway : Halfway} {scale : Int} {n : Nat}

/-- A point of a grid that is found lies in the interval, and is not zero. -/
theorem holds_of_gridPoint? (h : i.gridPoint? halfway scale = some n) :
    n ≠ 0 ∧ i.holds scale n = true := by
  unfold gridPoint? at h
  dsimp only at h
  split at h
  · next hboth hnext =>
      obtain ⟨hne, hfloor⟩ := (Bool.and_eq_true _ _).mp hboth
      split_ifs at h <;> obtain rfl := Option.some.inj h
      · exact ⟨by simpa using hne, hfloor⟩
      · exact ⟨Nat.succ_ne_zero _, hnext⟩
  · next hboth hnext =>
      obtain ⟨hne, hfloor⟩ := (Bool.and_eq_true _ _).mp hboth
      obtain rfl := Option.some.inj h
      exact ⟨by simpa using hne, hfloor⟩
  · next hnext =>
      obtain rfl := Option.some.inj h
      exact ⟨Nat.succ_ne_zero _, hnext⟩
  · cases h

/-- The next grid point above the number itself is found if it lies in the interval. -/
theorem exists_gridPoint? (halfway : Halfway)
    (h : i.holds scale ((inUnits i.value i.denominator scale).1
      / (inUnits i.value i.denominator scale).2 + 1) = true) :
    ∃ n, i.gridPoint? halfway scale = some n := by
  unfold gridPoint?
  dsimp only
  rw [h]
  split
  · split_ifs <;> exact ⟨_, rfl⟩
  · exact ⟨_, rfl⟩
  · exact ⟨_, rfl⟩
  · next hboth hnext => cases hnext

end Interval

/-- A positive fraction lies between its whole units and the next one. -/
theorem inUnits_spec (numerator : Nat) {denominator : Nat} (hdenominator : denominator ≠ 0)
    (scale : Int) :
    let units := inUnits numerator denominator scale
    ((units.1 / units.2 : ℕ) * 10 ^ scale : ℚ) ≤ numerator / denominator ∧
      (numerator / denominator : ℚ) < (units.1 / units.2 + 1 : ℕ) * 10 ^ scale := by
  intro units
  have hscale : (0 : ℚ) < 10 ^ scale := by positivity
  have hpositive : 0 < units.2 :=
    Nat.mul_pos (Nat.pos_of_ne_zero hdenominator) (Nat.pow_pos (by decide))
  have hpositive' : (0 : ℚ) < units.2 := by exact_mod_cast hpositive
  have hratio : (numerator / denominator : ℚ) = units.1 / units.2 * 10 ^ scale := by
    show _ = ((numerator * powerOfTen (-scale).toNat : ℕ) : ℚ)
      / (denominator * powerOfTen scale.toNat : ℕ) * _
    rw [zpow_eq_div 10 scale]
    simp only [powerOfTen, Nat.pow_eq, Nat.cast_mul, Nat.cast_pow, Nat.cast_ofNat]
    field_simp
  rw [hratio]
  constructor
  · gcongr
    exact Nat.cast_div_le
  · gcongr
    rw [div_lt_iff₀ hpositive', mul_comm]
    exact_mod_cast Nat.lt_mul_div_succ units.1 hpositive

namespace Binary

variable {b : Binary} {scale : Int}

/-- The value of the interval around a float is the float. -/
theorem value_div_denominator (b : Binary) :
    ((Interval.ofBinary b).value / (Interval.ofBinary b).denominator : ℚ) = b.magnitude := by
  rw [magnitude_eq_quarters, quarter, zpow_eq_div, neg_sub]
  simp only [Interval.ofBinary, Nat.shiftLeft_eq, Nat.cast_mul, Nat.cast_pow, Nat.cast_ofNat, one_mul]
  ring

/-- On a grid that is finer than the upper half of the interval of a fraction a point is found. -/
theorem exists_gridPoint? (halfway : Halfway) (hm : b.mantissa ≠ 0)
    (hfine : (10 : ℚ) ^ scale < 2 * b.quarter) :
    ∃ n, (Interval.ofBinary b).gridPoint? halfway scale = some n := by
  have hdenominator : (Interval.ofBinary b).denominator ≠ 0 := by
    simp [Interval.ofBinary, Nat.shiftLeft_eq]
  have hunits := inUnits_spec (Interval.ofBinary b).value hdenominator scale
  simp only [value_div_denominator] at hunits
  obtain ⟨hfloor, hnext⟩ := hunits
  refine Interval.exists_gridPoint? halfway (Interval.holds_iff.2 ((contains_ofBinary_iff hm).2 ?_))
  have hquarter := b.quarter_pos
  have hmagnitude := b.magnitude_eq_quarters
  have hbelow : (0 : ℚ) ≤ b.quartersBelow * b.quarter := by positivity
  push_cast at hfloor hnext ⊢
  split_ifs <;> constructor <;> linarith

end Binary

/-! ## All grids -/

/-- A search stops at a grid with a point, if it comes to one. -/
theorem Interval.gridPoint?_search {i : Interval} {halfway : Halfway} {steps : Nat} {scale : Int}
    (h : ∃ k < steps, ∃ n, i.gridPoint? halfway (scale - k) = some n) :
    i.gridPoint? halfway (i.search halfway steps scale).scale
      = some (i.search halfway steps scale).digits := by
  induction steps generalizing scale with
  | zero =>
      obtain ⟨k, hk, -⟩ := h
      exact absurd hk k.not_lt_zero
  | succ steps ih =>
      rw [search]
      cases hpoint : i.gridPoint? halfway scale with
      | some n => exact hpoint
      | none =>
          obtain ⟨k, hk, n, hn⟩ := h
          cases k with
          | zero =>
              rw [Nat.cast_zero, sub_zero, hpoint] at hn
              cases hn
          | succ k =>
              refine ih ⟨k, Nat.lt_of_succ_lt_succ hk, n, ?_⟩
              rw [← hn]
              congr 1
              push_cast
              ring

/-! ## Where the search begins -/

/-- A power of ten is less than a power of two with more than `10 / 3` of its exponent. -/
theorem ten_pow_lt_two_pow {m n : Nat} (h : 10 * m < 3 * n) : 10 ^ m < 2 ^ n := by
  refine lt_of_pow_lt_pow_left₀ 3 (Nat.zero_le _) ?_
  calc (10 ^ m) ^ 3 = (10 ^ 3) ^ m := Nat.pow_right_comm ..
    _ ≤ (2 ^ 10) ^ m := Nat.pow_le_pow_left (by decide) m
    _ = 2 ^ (10 * m) := (pow_mul ..).symm
    _ < 2 ^ (3 * n) := Nat.pow_lt_pow_right (by decide) h
    _ = (2 ^ n) ^ 3 := by rw [mul_comm, pow_mul]

/-- A power of two is less than a power of ten with more than `10 / 33` of its exponent. -/
theorem two_pow_lt_ten_pow {m n : Nat} (h : 10 * m < 33 * n) : 2 ^ m < 10 ^ n := by
  refine lt_of_pow_lt_pow_left₀ 10 (Nat.zero_le _) ?_
  calc (2 ^ m) ^ 10 = 2 ^ (10 * m) := by rw [mul_comm, pow_mul]
    _ < 2 ^ (33 * n) := Nat.pow_lt_pow_right (by decide) h
    _ = (2 ^ 33) ^ n := pow_mul ..
    _ ≤ (10 ^ 10) ^ n := Nat.pow_le_pow_left (by decide) n
    _ = (10 ^ n) ^ 10 := Nat.pow_right_comm ..

/-- The last grid that is searched is fine enough: it is nearly three places below the unit. -/
theorem Binary.IsNormal.finest_lt {b : Binary} (hb : b.IsNormal) (hm : b.mantissa ≠ 0) :
    (10 : ℚ) ^ (scaleAbove b - 20) < 2 * b.quarter := by
  have hlog : b.mantissa.log2 < 53 := (Nat.log2_lt hm).2 hb.mantissa_lt
  have hlow := hb.le_exponent
  have hhigh := hb.exponent_le
  have hscale : 100000 * (scaleAbove b - 20) ≤ 30103 * (b.exponent + 53) - 1900000 := by
    unfold scaleAbove
    omega
  have hhalf : 2 * b.quarter = 2 ^ (b.exponent - 1) := by
    rw [zpow_sub_one₀ two_ne_zero, unit_eq_quarters]
    ring
  rw [hhalf]
  generalize scaleAbove b - 20 = scale at hscale
  rcases le_or_gt 0 scale with hsign | hsign
  · -- Neither power is a fraction.
    obtain ⟨m, rfl⟩ := Int.eq_ofNat_of_zero_le hsign
    obtain ⟨n, hn⟩ := Int.eq_ofNat_of_zero_le (show 0 ≤ b.exponent - 1 by omega)
    rw [hn, zpow_natCast, zpow_natCast]
    exact_mod_cast ten_pow_lt_two_pow (m := m) (n := n) (by omega)
  · obtain ⟨n, hn⟩ := Int.eq_ofNat_of_zero_le (show 0 ≤ -scale by omega)
    obtain rfl : scale = -n := by omega
    rcases le_or_gt 0 (b.exponent - 1) with hexponent | hexponent
    · calc (10 : ℚ) ^ (-n : ℤ) < 1 := zpow_lt_one_of_neg₀ (by norm_num) hsign
        _ ≤ 2 ^ (b.exponent - 1) := one_le_zpow₀ (by norm_num) hexponent
    · obtain ⟨m, hm⟩ := Int.eq_ofNat_of_zero_le (show 0 ≤ -(b.exponent - 1) by omega)
      rw [← neg_neg (b.exponent - 1), hm, zpow_neg, zpow_neg, zpow_natCast, zpow_natCast]
      refine inv_strictAnti₀ (by positivity) ?_
      exact_mod_cast two_pow_lt_ten_pow (m := m) (n := n) (by omega)

namespace Expansion

variable {b : Binary}

/-- The shortest expansion is the point that is found on its grid. -/
theorem gridPoint?_shortest (halfway : Halfway) (hb : b.IsNormal) (hm : b.mantissa ≠ 0) :
    (Interval.ofBinary b).gridPoint? halfway (shortest halfway b).scale
      = some (shortest halfway b).digits := by
  rw [shortest, if_neg hm]
  refine Interval.gridPoint?_search ⟨20, by decide, ?_⟩
  exact Binary.exists_gridPoint? halfway hm (hb.finest_lt hm)

/-- It has digits. -/
theorem digits_shortest_ne_zero (halfway : Halfway) (hb : b.IsNormal) (hm : b.mantissa ≠ 0) :
    (shortest halfway b).digits ≠ 0 :=
  (Interval.holds_of_gridPoint? (gridPoint?_shortest halfway hb hm)).1

/-- It lies in the interval of its float. -/
theorem contains_shortest (halfway : Halfway) (hb : b.IsNormal) (hm : b.mantissa ≠ 0) :
    (Interval.ofBinary b).Contains (shortest halfway b).value :=
  Interval.holds_iff.1 (Interval.holds_of_gridPoint? (gridPoint?_shortest halfway hb hm)).2

/-- **The shortest expansion of a float reads as the float.** -/
theorem isNearest_shortest (halfway : Halfway) (hb : b.IsNormal) :
    b.IsNearest (shortest halfway b).value := by
  by_cases hm : b.mantissa = 0
  · have hzero : (shortest halfway b).value = b.magnitude := by
      rw [shortest, if_pos hm, value, Binary.magnitude, hm]
      simp
    rw [hzero]
    refine ⟨fun m e _ _ => ?_, fun m e _ _ hne hdistance => ?_⟩
    · rw [sub_self, abs_zero]
      exact abs_nonneg _
    · rw [hm]
      exact Even.zero
  · exact Binary.isNearest_of_contains hb hm (contains_shortest halfway hb hm)

end Expansion

end Tabula.Decimal
