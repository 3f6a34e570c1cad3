import Mathlib.Tactic.FieldSimp
import Tabula.Decimal.Shortest
import Tabula.Proofs.Decimal.Binary

/-!
# The nearest float

A decimal number reads as the float that is nearest to it, and of two equally near ones as the one with
an even mantissa (`Binary.IsNearest`). Main statements: there is no other float that a number reads as
(`Binary.IsNearest.magnitude_eq`), and a number in the interval of a float reads as this float
(`Binary.isNearest_of_contains`).
-/

namespace Tabula.Decimal

/-- Whether a binary fraction is what a magnitude reads as: the nearest number of 53 bits whose exponent
is not less than the least, and of two equally near ones that with an even mantissa. Exponents have no
bound above here, so that no finite float is what is too large for one. -/
structure Binary.IsNearest (b : Binary) (v : ℚ) : Prop where
  le : ∀ (m : ℕ) (e : ℤ), m < 2 ^ 53 → -1074 ≤ e → |v - b.magnitude| ≤ |v - m * 2 ^ e|
  even : ∀ (m : ℕ) (e : ℤ), m < 2 ^ 53 → -1074 ≤ e → b.magnitude ≠ m * 2 ^ e →
    |v - b.magnitude| = |v - m * 2 ^ e| → Even b.mantissa

section Distances

variable {a v w : ℚ}

/-- Below the middle the lower of two numbers is as near. -/
theorem abs_sub_le_of_le_middle (haw : a ≤ w) (h : 2 * v ≤ a + w) : |v - a| ≤ |v - w| := by
  have hw : v ≤ w := by linarith
  rw [abs_of_nonpos (sub_nonpos.2 hw), abs_le]
  constructor <;> linarith

/-- Above the middle the higher one is. -/
theorem abs_sub_le_of_middle_le (hwa : w ≤ a) (h : a + w ≤ 2 * v) : |v - a| ≤ |v - w| := by
  have hw : w ≤ v := by linarith
  rw [abs_of_nonneg (sub_nonneg.2 hw), abs_le]
  constructor <;> linarith

/-- What is as near to two numbers is their middle. -/
theorem two_mul_eq_of_abs_sub_eq (hne : a ≠ w) (h : |v - a| = |v - w|) : 2 * v = a + w := by
  rcases abs_eq_abs.1 h with h | h
  · exact absurd (by linarith) hne
  · linarith

end Distances

namespace Binary

variable {a b : Binary} {v : ℚ}

/-! ## Reading is unambiguous -/

/-- Between two fractions of even mantissas there is another one. -/
theorem IsNormal.exists_between (ha : a.IsNormal) (hb : b.IsNormal) (hlt : a.magnitude < b.magnitude)
    (haeven : Even a.mantissa) (hbeven : Even b.mantissa) :
    a.mantissa + 1 < 2 ^ 53 ∧ a.magnitude < (a.mantissa + 1 : ℕ) * 2 ^ a.exponent ∧
      (a.mantissa + 1 : ℕ) * 2 ^ a.exponent < b.magnitude := by
  have hunit : (0 : ℚ) < 2 ^ a.exponent := by positivity
  obtain ⟨k, hmultiple, hk⟩ := ha.exists_of_magnitude_lt hb.mantissa_lt hb.le_exponent hlt
  have hmantissa := ha.mantissa_lt
  have hk' : a.mantissa + 1 < b.mantissa * 2 ^ k := by
    obtain ⟨n, hn⟩ := haeven
    obtain ⟨n', hn'⟩ := hbeven.mul_right (2 ^ k)
    omega
  refine ⟨by obtain ⟨n, hn⟩ := haeven; omega, ?_, ?_⟩
  · rw [magnitude]
    gcongr
    exact a.mantissa.lt_succ_self
  · rw [magnitude, hmultiple]
    gcongr

/-- Of two floats that are nearest to one number neither is greater. -/
theorem IsNearest.magnitude_le (ha : a.IsNormal) (hb : b.IsNormal) (hav : a.IsNearest v)
    (hbv : b.IsNearest v) : b.magnitude ≤ a.magnitude := by
  by_contra hlt
  rw [not_le] at hlt
  have hdistance : |v - a.magnitude| = |v - b.magnitude| :=
    le_antisymm (hav.le _ _ hb.mantissa_lt hb.le_exponent) (hbv.le _ _ ha.mantissa_lt ha.le_exponent)
  have haeven := hav.even _ _ hb.mantissa_lt hb.le_exponent hlt.ne hdistance
  have hbeven := hbv.even _ _ ha.mantissa_lt ha.le_exponent hlt.ne' hdistance.symm
  have hmiddle := two_mul_eq_of_abs_sub_eq hlt.ne hdistance
  obtain ⟨hmantissa, hbelow, habove⟩ := ha.exists_between hb hlt haeven hbeven
  have hnearer := hav.le _ _ hmantissa ha.le_exponent
  rw [abs_of_pos (by linarith)] at hnearer
  rcases abs_cases (v - (a.mantissa + 1 : ℕ) * 2 ^ a.exponent) with ⟨h, -⟩ | ⟨h, -⟩ <;>
    linarith

/-- There is one nearest magnitude. -/
theorem IsNearest.magnitude_eq (ha : a.IsNormal) (hb : b.IsNormal) (hav : a.IsNearest v)
    (hbv : b.IsNearest v) : a.magnitude = b.magnitude :=
  le_antisymm (hbv.magnitude_le hb ha hav) (hav.magnitude_le ha hb hbv)

end Binary

/-! ## Intervals -/

/-- A power is the quotient of two powers of which one is one. -/
theorem zpow_eq_div (base : ℚ) (n : Int) :
    base ^ n = base ^ n.toNat / base ^ (-n).toNat := by
  obtain ⟨n, rfl | rfl⟩ := n.eq_nat_or_neg <;> simp

/-- Whether an interval contains a number. -/
def Interval.Contains (i : Interval) (v : ℚ) : Prop :=
  if i.closed then i.low ≤ v * i.denominator ∧ v * i.denominator ≤ i.high
  else i.low < v * i.denominator ∧ v * i.denominator < i.high

/-- A point of a grid is held by an interval exactly if it lies in it. -/
theorem Interval.holds_iff {i : Interval} {scale : Int} {n : Nat} :
    i.holds scale n = true ↔ i.Contains (n * 10 ^ scale) := by
  have hunit : (0 : ℚ) < (powerOfTen (-scale).toNat : ℕ) := by
    exact_mod_cast Nat.pow_pos (by decide)
  have hpoint : (n * 10 ^ scale * i.denominator : ℚ) * (powerOfTen (-scale).toNat : ℕ)
      = (n * powerOfTen scale.toNat * i.denominator : ℕ) := by
    rw [zpow_eq_div]
    simp only [powerOfTen, Nat.pow_eq, Nat.cast_mul, Nat.cast_pow, Nat.cast_ofNat]
    field_simp
  have hlow (k : Nat) : (k : ℚ) ≤ n * 10 ^ scale * i.denominator ↔
      k * powerOfTen (-scale).toNat ≤ n * powerOfTen scale.toNat * i.denominator := by
    rw [← mul_le_mul_iff_left₀ hunit, hpoint]
    exact_mod_cast Iff.rfl
  have hhigh (k : Nat) : (n * 10 ^ scale * i.denominator : ℚ) ≤ k ↔
      n * powerOfTen scale.toNat * i.denominator ≤ k * powerOfTen (-scale).toNat := by
    rw [← mul_le_mul_iff_left₀ hunit, hpoint]
    exact_mod_cast Iff.rfl
  unfold holds Contains
  dsimp only
  split_ifs
  · rw [Bool.and_eq_true, decide_eq_true_eq, decide_eq_true_eq, hlow, hhigh]
  · rw [Bool.and_eq_true, decide_eq_true_eq, decide_eq_true_eq, ← not_le, ← not_le, ← hlow, ← hhigh,
      not_le, not_le]

namespace Binary

variable {b : Binary} {v : ℚ}

/-- How far the middle between a fraction and the next one below lies below the fraction, in quarters of
its unit. Below a power of two the next one is only half as far away. -/
def quartersBelow (b : Binary) : Nat :=
  if b.mantissa = 0x10000000000000 && b.exponent > -1074 then 1 else 2

/-- The middle below a float is at most two quarters of its unit away. -/
theorem quartersBelow_le (b : Binary) : b.quartersBelow ≤ 2 := by
  unfold quartersBelow
  split_ifs <;> decide

/-- A quarter of the unit of a fraction. -/
def quarter (b : Binary) : ℚ := 2 ^ (b.exponent - 2)

theorem quarter_pos (b : Binary) : 0 < b.quarter := by
  unfold quarter
  positivity

/-- A unit is four quarters. -/
theorem unit_eq_quarters (b : Binary) : (2 : ℚ) ^ b.exponent = 4 * b.quarter := by
  rw [quarter, zpow_sub₀ two_ne_zero]
  norm_num
  ring

/-- The magnitude of a float is four times its mantissa in quarters. -/
theorem magnitude_eq_quarters (b : Binary) : b.magnitude = 4 * b.mantissa * b.quarter := by
  rw [magnitude, unit_eq_quarters]
  ring

/-- The next number of 53 bits above a fraction is a unit away. -/
theorem IsNormal.le_of_magnitude_lt (hb : b.IsNormal) {m : Nat} {e : Int} (hm : m < 2 ^ 53)
    (he : -1074 ≤ e) (h : b.magnitude < m * 2 ^ e) :
    (4 * b.mantissa + 4) * b.quarter ≤ m * 2 ^ e := by
  obtain ⟨k, hmultiple, hk⟩ := hb.exists_of_magnitude_lt hm he h
  have hk' : (b.mantissa + 1 : ℚ) ≤ (m * 2 ^ k : ℕ) := by exact_mod_cast hk
  have hquarter := b.quarter_pos
  rw [hmultiple, unit_eq_quarters]
  nlinarith

/-- The next number of 53 bits below a fraction is as far away as twice the middle. -/
theorem IsNormal.le_of_lt_magnitude (hb : b.IsNormal) {m : Nat} {e : Int} (hm : m < 2 ^ 53)
    (he : -1074 ≤ e) (h : m * 2 ^ e < b.magnitude) :
    m * 2 ^ e ≤ (4 * b.mantissa - 2 * b.quartersBelow) * b.quarter := by
  have hquarter := b.quarter_pos
  have hbelow : (b.quartersBelow : ℚ) ≤ 2 := by exact_mod_cast b.quartersBelow_le
  -- A number of the same unit or a greater one is a multiple of the float's unit, so it is at least
  -- one unit below.
  rcases le_or_gt b.exponent e with hexponent | hexponent
  · have hunit : (0 : ℚ) < 2 ^ b.exponent := by positivity
    have hmultiple : (m * 2 ^ e : ℚ) = (m * 2 ^ (e - b.exponent).toNat : ℕ) * 2 ^ b.exponent := by
      rw [two_zpow_eq hexponent, Nat.cast_mul, mul_assoc]
    have hk : m * 2 ^ (e - b.exponent).toNat < b.mantissa := by
      rw [hmultiple, magnitude] at h
      exact_mod_cast lt_of_mul_lt_mul_right h hunit.le
    have hk' : ((m * 2 ^ (e - b.exponent).toNat : ℕ) + 1 : ℚ) ≤ b.mantissa := by exact_mod_cast hk
    rw [hmultiple, unit_eq_quarters]
    nlinarith
  · -- With a smaller unit a number gets no further than the last one of 53 bits and half the unit.
    have hmantissa : 2 ^ 52 ≤ b.mantissa := hb.le_mantissa (he.trans_lt hexponent)
    have hquarters : (2 ^ 54 - 2 : ℚ) ≤ 4 * b.mantissa - 2 * b.quartersBelow := by
      unfold quartersBelow
      split_ifs with hpower
      · have hmantissa' : (2 ^ 52 : ℚ) ≤ b.mantissa := by exact_mod_cast hmantissa
        push_cast
        linarith
      · have hne : b.mantissa ≠ 2 ^ 52 := by
          rintro heq
          exact hpower (by simp [heq]; omega)
        have hmantissa' : (2 ^ 52 + 1 : ℚ) ≤ b.mantissa := by exact_mod_cast (by omega)
        push_cast
        linarith
    calc (m * 2 ^ e : ℚ) ≤ (2 ^ 53 - 1) * 2 ^ (b.exponent - 1) := by
          gcongr
          · have hlt : (m + 1 : ℚ) ≤ 2 ^ 53 := by exact_mod_cast hm
            linarith
          · norm_num
          · omega
      _ = (2 ^ 54 - 2) * b.quarter := by
          rw [zpow_sub_one₀ two_ne_zero, unit_eq_quarters]
          ring
      _ ≤ (4 * b.mantissa - 2 * b.quartersBelow) * b.quarter := by gcongr

/-- The interval of a fraction, in quarters of its unit. -/
theorem contains_ofBinary_iff (hm : b.mantissa ≠ 0) :
    (Interval.ofBinary b).Contains v ↔
      if Even b.mantissa then
        (4 * b.mantissa - b.quartersBelow) * b.quarter ≤ v ∧ v ≤ (4 * b.mantissa + 2) * b.quarter
      else
        (4 * b.mantissa - b.quartersBelow) * b.quarter < v ∧ v < (4 * b.mantissa + 2) * b.quarter := by
  have hpowers : b.quarter = 2 ^ (b.exponent - 2).toNat / 2 ^ (2 - b.exponent).toNat := by
    rw [quarter, zpow_eq_div, neg_sub]
  have hdenominator : (0 : ℚ) < 2 ^ (2 - b.exponent).toNat := by positivity
  have hlow (k : Nat) : (k * 2 ^ (b.exponent - 2).toNat : ℚ) ≤ v * 2 ^ (2 - b.exponent).toNat ↔
      k * b.quarter ≤ v := by
    rw [hpowers, ← mul_div_assoc, div_le_iff₀ hdenominator]
  have hhigh (k : Nat) : (v * 2 ^ (2 - b.exponent).toNat : ℚ) ≤ k * 2 ^ (b.exponent - 2).toNat ↔
      v ≤ k * b.quarter := by
    rw [hpowers, ← mul_div_assoc, le_div_iff₀ hdenominator]
  have hle : b.quartersBelow ≤ 4 * b.mantissa := b.quartersBelow_le.trans (by omega)
  have hends : ((4 * b.mantissa - b.quartersBelow : ℕ) : ℚ) = 4 * b.mantissa - b.quartersBelow ∧
      ((4 * b.mantissa + 2 : ℕ) : ℚ) = 4 * b.mantissa + 2 := by
    rw [Nat.cast_sub hle]
    push_cast
    exact ⟨rfl, rfl⟩
  unfold Interval.ofBinary Interval.Contains
  dsimp only
  rw [← quartersBelow]
  simp only [Nat.shiftLeft_eq, Nat.cast_mul, Nat.cast_pow, Nat.cast_ofNat, one_mul, decide_eq_true_eq,
    Nat.even_iff]
  rw [← hends.1, ← hends.2]
  split_ifs
  · rw [hlow, hhigh]
  · rw [lt_iff_lt_of_le_iff_le (hhigh _), lt_iff_lt_of_le_iff_le (hlow _)]

/-- A number in the interval of a float reads as this float. -/
theorem isNearest_of_contains (hb : b.IsNormal) (hm : b.mantissa ≠ 0)
    (h : (Interval.ofBinary b).Contains v) : b.IsNearest v := by
  rw [contains_ofBinary_iff hm] at h
  have hlow : (4 * b.mantissa - b.quartersBelow) * b.quarter ≤ v := by
    split_ifs at h
    exacts [h.1, h.1.le]
  have hhigh : v ≤ (4 * b.mantissa + 2) * b.quarter := by
    split_ifs at h
    exacts [h.2, h.2.le]
  have hmagnitude := b.magnitude_eq_quarters
  refine ⟨fun m e hm he => ?_, fun m e hm he hne hdistance => ?_⟩
  · rcases lt_trichotomy b.magnitude (m * 2 ^ e) with hlt | heq | hgt
    · have hnext := hb.le_of_magnitude_lt hm he hlt
      exact abs_sub_le_of_le_middle hlt.le (by linarith)
    · rw [heq]
    · have hnext := hb.le_of_lt_magnitude hm he hgt
      exact abs_sub_le_of_middle_le hgt.le (by linarith)
  · -- A number as far from another fraction is an end of the interval.
    have hmiddle := two_mul_eq_of_abs_sub_eq hne hdistance
    by_contra hodd
    rw [if_neg hodd] at h
    rcases lt_or_gt_of_ne hne with hlt | hgt
    · have hnext := hb.le_of_magnitude_lt hm he hlt
      linarith
    · have hnext := hb.le_of_lt_magnitude hm he hgt
      linarith

end Binary

end Tabula.Decimal
