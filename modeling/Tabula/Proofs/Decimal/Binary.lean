import Mathlib.Algebra.Order.Field.Power
import Mathlib.Tactic.Linarith
import Mathlib.Tactic.Positivity
import Mathlib.Tactic.Ring
import Tabula.Decimal.Binary

/-!
# Binary fractions of floats

The binary fraction of a finite float has a mantissa of 53 bits, of which the first is one unless the
exponent is the least (`Binary.IsNormal`). A float is determined by its binary fraction
(`ofFloat?_inj`), and a normal fraction by its sign and magnitude
(`Binary.IsNormal.eq_of_magnitude_eq`).
-/

namespace Tabula.Decimal

namespace Binary

variable {x y : Float} {b : Binary}

/-- The floats that have a binary fraction are those that are finite. -/
theorem isFinite_iff : x.isFinite = true ↔ ∃ b, ofFloat? x = some b := by
  have hexponent : (@Float.Model.UnpackedFloat.unpackExponent Float.Model.Format.binary64
      x.toModel.toBits.toBitVec).toNat = (x.toBits.toNat >>> 52) % 0x800 := rfl
  have hones : @Float.Model.UnpackedFloat.unpackExponent Float.Model.Format.binary64
      x.toModel.toBits.toBitVec = -1#11 ↔ (x.toBits.toNat >>> 52) % 0x800 = 0x7ff := by
    rw [← hexponent, ← BitVec.toNat_inj]
    rfl
  unfold Float.isFinite Float.Model.isFinite Float.Model.unpack Float.Model.UnpackedFloat.unpack
    ofFloat?
  dsimp only
  -- both readings branch on the exponent first: all ones is an infinity or a NaN, whatever the
  -- mantissa, and anything else is a finite number
  by_cases h : (x.toBits.toNat >>> 52) % 0x800 = 0x7ff
  · rw [if_pos (hones.2 h), if_pos h]
    refine iff_of_false ?_ (by simp)
    by_cases hmantissa : @Float.Model.UnpackedFloat.unpackMantissa Float.Model.Format.binary64
        x.toModel.toBits.toBitVec = 0#52
    · rw [if_pos hmantissa]
      exact Bool.false_ne_true
    · rw [if_neg hmantissa]
      exact Bool.false_ne_true
  · rw [if_neg (mt hones.1 h), if_neg h]
    refine iff_of_true ?_ (by split_ifs <;> exact ⟨_, rfl⟩)
    by_cases hzero : @Float.Model.UnpackedFloat.unpackExponent Float.Model.Format.binary64
        x.toModel.toBits.toBitVec = 0#11
    · rw [if_pos hzero]
      by_cases hmantissa : @Float.Model.UnpackedFloat.unpackMantissa Float.Model.Format.binary64
          x.toModel.toBits.toBitVec = 0#52
      · rw [dif_pos hmantissa]
        rfl
      · rw [dif_neg hmantissa]
        rfl
    · rw [if_neg hzero]
      rfl

/-- What is finite is a number. -/
theorem isNaN_of_isFinite (h : x.isFinite = true) : x.isNaN = false := by
  unfold Float.isFinite Float.Model.isFinite at h
  unfold Float.isNaN Float.Model.isNaN
  cases hx : x.toModel.unpack with
  | notANumber =>
      rw [hx] at h
      cases h
  | infinity => rfl
  | zero => rfl
  | finite => rfl

/-- The bits of a float, put together from its binary fraction. The leading one of a mantissa of 53
bits is not stored, but counts as one for the exponent. -/
theorem toBits_eq_of_ofFloat? (h : ofFloat? x = some b) :
    (x.toBits.toNat : Int)
      = (if b.negative then 2 ^ 63 else 0) + (b.exponent + 1074) * 2 ^ 52 + b.mantissa := by
  have hbits : x.toBits.toNat < 2 ^ 64 := x.toBits.toNat_lt
  unfold ofFloat? at h
  generalize x.toBits.toNat = bits at h hbits
  simp only [Nat.shiftRight_eq_div_pow] at h
  split_ifs at h with hinfinite hsmall <;> obtain rfl := Option.some.inj h
  · dsimp only
    split_ifs <;> simp only [decide_eq_true_eq] at * <;> omega
  · dsimp only [Int.ofNat_eq_natCast]
    split_ifs <;> simp only [decide_eq_true_eq] at * <;> omega

/-- A float is determined by its binary fraction. -/
theorem ofFloat?_inj (hx : ofFloat? x = some b) (hy : ofFloat? y = some b) : x = y := by
  have hbits : x.toBits.toNat = y.toBits.toNat := by
    have hboth := (toBits_eq_of_ofFloat? hx).trans (toBits_eq_of_ofFloat? hy).symm
    exact_mod_cast hboth
  obtain ⟨⟨xbits, hxvalid⟩⟩ := x
  obtain ⟨⟨ybits, hyvalid⟩⟩ := y
  obtain rfl : xbits = ybits := UInt64.toNat_inj.1 hbits
  rfl

end Binary

/-- Whether a binary fraction is the normal form of a finite float. -/
structure Binary.IsNormal (b : Binary) : Prop where
  mantissa_lt : b.mantissa < 2 ^ 53
  le_exponent : -1074 ≤ b.exponent
  exponent_le : b.exponent ≤ 971
  le_mantissa : -1074 < b.exponent → 2 ^ 52 ≤ b.mantissa

namespace Binary

variable {x y : Float} {b : Binary}

theorem isNormal_of_ofFloat? (h : ofFloat? x = some b) : b.IsNormal := by
  unfold ofFloat? at h
  dsimp only at h
  have hfraction : x.toBits.toNat % 0x10000000000000 < 0x10000000000000 := Nat.mod_lt _ (by decide)
  have hbiased : (x.toBits.toNat >>> 52) % 0x800 < 0x800 := Nat.mod_lt _ (by decide)
  generalize (x.toBits.toNat >>> 52) % 0x800 = biased at h hbiased
  generalize x.toBits.toNat % 0x10000000000000 = fraction at h hfraction
  split_ifs at h with hinfinite hsmall <;> obtain rfl := Option.some.inj h
  · constructor <;> dsimp only <;> omega
  · constructor <;> dsimp only [Int.ofNat_eq_natCast] <;> omega

/-! ## Magnitudes -/

/-- The magnitude of a binary fraction. -/
def magnitude (b : Binary) : ℚ := b.mantissa * 2 ^ b.exponent

/-- A power of two is a multiple of each smaller one. -/
theorem two_zpow_eq {e e' : Int} (h : e ≤ e') : (2 : ℚ) ^ e' = (2 ^ (e' - e).toNat : ℕ) * 2 ^ e := by
  rw [Nat.cast_pow, Nat.cast_ofNat, ← zpow_natCast, ← zpow_add₀ two_ne_zero,
    Int.toNat_of_nonneg (Int.sub_nonneg.2 h), Int.sub_add_cancel]

/-- What exceeds the magnitude of a normal fraction and has 53 bits itself, with an exponent that is not
less than the least, is a multiple of the fraction's unit. -/
theorem IsNormal.exists_of_magnitude_lt {a : Binary} (ha : a.IsNormal) {m : Nat} {e : Int}
    (hm : m < 2 ^ 53) (he : -1074 ≤ e) (hlt : a.magnitude < m * 2 ^ e) :
    ∃ k, (m * 2 ^ e : ℚ) = (m * 2 ^ k : ℕ) * 2 ^ a.exponent ∧ a.mantissa < m * 2 ^ k := by
  have hunit : (0 : ℚ) < 2 ^ a.exponent := by positivity
  rcases le_or_gt a.exponent e with hexponent | hexponent
  · have heq : (m * 2 ^ e : ℚ) = (m * 2 ^ (e - a.exponent).toNat : ℕ) * 2 ^ a.exponent := by
      rw [two_zpow_eq hexponent, Nat.cast_mul, mul_assoc]
    refine ⟨_, heq, ?_⟩
    rw [heq, magnitude] at hlt
    exact_mod_cast lt_of_mul_lt_mul_right hlt hunit.le
  · -- With a smaller unit 53 bits do not get as far as the fraction.
    refine absurd hlt (not_lt.2 ?_)
    have hmantissa : 2 ^ 52 ≤ a.mantissa := ha.le_mantissa (he.trans_lt hexponent)
    calc (m * 2 ^ e : ℚ) ≤ 2 ^ 53 * 2 ^ (a.exponent - 1) := by
          gcongr
          · exact_mod_cast hm.le
          · norm_num
          · omega
      _ = 2 ^ 52 * 2 ^ a.exponent := by
          rw [zpow_sub_one₀ two_ne_zero]
          ring
      _ ≤ a.magnitude := by
          rw [magnitude]
          gcongr
          exact_mod_cast hmantissa

theorem IsNormal.exponent_eq_of_magnitude_eq {a b : Binary} (ha : a.IsNormal) (hb : b.IsNormal)
    (h : a.magnitude = b.magnitude) : a.exponent = b.exponent := by
  wlog hle : a.exponent ≤ b.exponent generalizing a b
  · exact (this hb ha h.symm (le_of_not_ge hle)).symm
  have hmantissas : a.mantissa = b.mantissa * 2 ^ (b.exponent - a.exponent).toNat := by
    unfold magnitude at h
    rw [two_zpow_eq hle, ← mul_assoc] at h
    exact_mod_cast mul_right_cancel₀ (by positivity) h
  by_contra hne
  -- Of two exponents the greater one is not the least, so its mantissa has all 53 bits.
  have hmantissa : 2 ^ 52 ≤ b.mantissa :=
    hb.le_mantissa (ha.le_exponent.trans_lt (lt_of_le_of_ne hle hne))
  have htwo : 2 ^ 1 ≤ 2 ^ (b.exponent - a.exponent).toNat :=
    Nat.pow_le_pow_right two_pos (by omega)
  have hlarge := Nat.mul_le_mul hmantissa htwo
  have hsmall := ha.mantissa_lt
  omega

/-- Normal fractions of one sign and magnitude are the same. -/
theorem IsNormal.eq_of_magnitude_eq {a b : Binary} (ha : a.IsNormal) (hb : b.IsNormal)
    (hsign : a.negative = b.negative) (h : a.magnitude = b.magnitude) : a = b := by
  have hexponent := ha.exponent_eq_of_magnitude_eq hb h
  have hmantissa : a.mantissa = b.mantissa := by
    unfold magnitude at h
    rw [hexponent] at h
    exact_mod_cast mul_right_cancel₀ (by positivity) h
  obtain ⟨negative, mantissa, exponent⟩ := a
  obtain ⟨negative', mantissa', exponent'⟩ := b
  dsimp only at hsign hmantissa hexponent
  rw [hsign, hmantissa, hexponent]

end Binary

end Tabula.Decimal
