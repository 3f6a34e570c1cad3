import Mathlib.Data.Nat.Digits.Defs
import Tabula.Proofs.Decimal.Shortest
import Tabula.Proofs.Store.Numeral

/-!
# Numbers in layouts read back

A layout writes the digits of an expansion with a point among them or with an exponent, and either way
spells the number that the expansion stands for (`Layout.exists_spelling_positionalText`,
`Layout.exists_spelling_exponentText`). As the first digit of a float is at most four hundred places from
the point, its exponent has few digits. Main statement: the text of a finite float spells a number that
reads as the float (`Layout.exists_spelling_text`).
-/

namespace Tabula.Decimal

open Store (Numeral)
open Store.Numeral (Spelling digitsValue)

/-- The decimal place of the first digit of an expansion. -/
def Expansion.lead (e : Expansion) : Int :=
  ((Nat.toDigits 10 e.digits).length : Int) - 1 + e.scale

namespace Expansion

variable {e : Expansion} {b : Binary}

/-- An expansion is at least the power of ten of its first digit. -/
theorem ten_pow_lead_le (h : e.digits ≠ 0) : (10 : ℚ) ^ e.lead ≤ e.value := by
  have hlength : 0 < (Nat.toDigits 10 e.digits).length :=
    List.length_pos_of_ne_nil Nat.toDigits_ne_nil
  have hle : 10 ^ ((Nat.toDigits 10 e.digits).length - 1) ≤ e.digits := by
    by_contra hlt
    rcases Nat.eq_zero_or_pos ((Nat.toDigits 10 e.digits).length - 1) with hone | hmore
    · rw [hone] at hlt
      omega
    · have hshort := Nat.toDigits_length 10 e.digits _ hmore (not_le.1 hlt)
      omega
  rw [lead, value, zpow_add₀ (by norm_num)]
  gcongr
  rw [show ((Nat.toDigits 10 e.digits).length : ℤ) - 1
    = ((Nat.toDigits 10 e.digits).length - 1 : ℕ) by omega, zpow_natCast]
  exact_mod_cast hle

/-- It is less than the next power of ten. -/
theorem value_lt_ten_pow (e : Expansion) : e.value < (10 : ℚ) ^ (e.lead + 1) := by
  have hlt := Numeral.digitsValue_lt fun c (hc : c ∈ Nat.toDigits 10 e.digits) =>
    Numeral.isDigit_of_mem_toDigits hc
  rw [Numeral.digitsValue_toDigits] at hlt
  have hlead : e.lead + 1 = ((Nat.toDigits 10 e.digits).length : ℤ) + e.scale := by
    rw [lead]
    ring
  rw [hlead, value, zpow_add₀ (by norm_num), zpow_natCast]
  gcongr
  exact_mod_cast hlt

/-- The first digits of floats are at most four hundred places away from the point. -/
theorem natAbs_lead_shortest_le (halfway : Halfway) (hb : b.IsNormal) (hm : b.mantissa ≠ 0) :
    (shortest halfway b).lead.natAbs ≤ 400 := by
  have hcontains := (Binary.contains_ofBinary_iff hm).1 (contains_shortest halfway hb hm)
  have hlead := ten_pow_lead_le (digits_shortest_ne_zero halfway hb hm)
  have hnext := value_lt_ten_pow (shortest halfway b)
  have hquarter := b.quarter_pos
  have hmantissa : (1 : ℚ) ≤ b.mantissa := by exact_mod_cast Nat.pos_of_ne_zero hm
  have hmantissa' : (b.mantissa : ℚ) + 1 ≤ 2 ^ 53 := by exact_mod_cast hb.mantissa_lt
  have hbelow : (b.quartersBelow : ℚ) ≤ 2 := by exact_mod_cast b.quartersBelow_le
  have hleast : (2 : ℚ) ^ (-1076 : ℤ) ≤ b.quarter :=
    zpow_le_zpow_right₀ (by norm_num) (by have hexponent := hb.le_exponent; omega)
  have hgreatest : b.quarter ≤ (2 : ℚ) ^ (969 : ℤ) :=
    zpow_le_zpow_right₀ (by norm_num) (by have hexponent := hb.exponent_le; omega)
  -- What the digits stand for is near the float, so the unit of the float bounds it on both sides.
  have hvalue : b.quarter ≤ (shortest halfway b).value ∧
      (shortest halfway b).value ≤ 2 ^ 55 * b.quarter := by
    split_ifs at hcontains <;> constructor <;> nlinarith
  have hbelowTen : (2 : ℚ) ^ (1024 : ℤ) < 10 ^ (400 : ℤ) := by
    exact_mod_cast two_pow_lt_ten_pow (m := 1024) (n := 400) (by decide)
  have haboveTen : (10 : ℚ) ^ (-400 : ℤ) < 2 ^ (-1076 : ℤ) := by
    rw [zpow_neg, zpow_neg]
    refine inv_strictAnti₀ (by positivity) ?_
    exact_mod_cast two_pow_lt_ten_pow (m := 1076) (n := 400) (by decide)
  -- It lies between the powers of ten around its first digit, which bounds their exponents.
  have hlt : (shortest halfway b).lead < 400 := by
    refine (zpow_lt_zpow_iff_right₀ (show (1 : ℚ) < 10 by norm_num)).1 ?_
    calc (10 : ℚ) ^ (shortest halfway b).lead ≤ 2 ^ 55 * b.quarter := hlead.trans hvalue.2
      _ ≤ 2 ^ 55 * 2 ^ (969 : ℤ) := by gcongr
      _ = 2 ^ (1024 : ℤ) := by
          rw [show (1024 : ℤ) = (55 : ℕ) + 969 by norm_num, zpow_add₀ two_ne_zero, zpow_natCast]
      _ < 10 ^ (400 : ℤ) := hbelowTen
  have hgt : -400 < (shortest halfway b).lead + 1 := by
    refine (zpow_lt_zpow_iff_right₀ (show (1 : ℚ) < 10 by norm_num)).1 ?_
    exact (haboveTen.trans_le (hleast.trans hvalue.1)).trans hnext
  omega

end Expansion

namespace Layout

variable (l : Layout) {digits : List Char} {lead : Int}

/-- Padding is made of digits. -/
theorem isDigit_of_mem_zeros {n : Nat} {c : Char} (hc : c ∈ List.replicate n '0') :
    c.isDigit = true := by
  rw [List.eq_of_mem_replicate hc]
  rfl

/-- So is a fraction of nothing. -/
theorem isDigit_of_mem_fraction {fraction? : Option (List Char)}
    (h : ∀ fraction ∈ fraction?, fraction = ['0']) :
    ∀ fraction ∈ fraction?, ∀ c ∈ fraction, c.isDigit = true := by
  intro fraction hfraction c hc
  rw [h fraction hfraction, List.mem_singleton] at hc
  rw [hc]
  rfl

/-- A point and a zero after digits change nothing. -/
theorem magnitude_of_fraction_zero {s : Spelling} (h : ∀ fraction ∈ s.fraction?, fraction = ['0']) :
    s.numeral.magnitude = digitsValue s.whole * 10 ^ Spelling.power s.exponent? := by
  unfold Numeral.magnitude Spelling.numeral
  dsimp only
  cases hfraction : s.fraction? with
  | none => simp
  | some fraction =>
      rw [h fraction hfraction, Option.getD_some, Numeral.digitsValue_append]
      have hzero : digitsValue ['0'] = 0 := rfl
      rw [hzero, List.length_singleton, zpow_sub₀ (by norm_num)]
      push_cast
      ring

/-- The end of a whole number is none, or a point and a zero. -/
theorem exists_fraction_wholeEnd :
    ∃ fraction?, l.wholeEnd.toList = Spelling.fractionChars fraction? ∧
      (l.keepsPoint = true → fraction?.isSome) ∧
      (∀ fraction ∈ fraction?, fraction = ['0']) := by
  unfold wholeEnd
  split_ifs with hpoint
  · exact ⟨some ['0'], rfl, fun _ => rfl, fun _ h => (Option.mem_some_iff.1 h).symm⟩
  · exact ⟨none, rfl, fun h => absurd h hpoint, by simp⟩

/-- Digits written without an exponent spell the number that they are. -/
theorem exists_spelling_positionalText (lead : Int) (negative : Bool) (hne : digits ≠ [])
    (hdigits : ∀ c ∈ digits, c.isDigit = true) :
    ∃ s : Spelling, s.IsProper ∧ s.negative = negative ∧ s.exponent? = none ∧
      (l.positionalText digits lead).toList = s.whole ++ s.tail ∧
      s.numeral.magnitude = digitsValue digits * 10 ^ (lead + 1 - digits.length) ∧
      (l.keepsPoint = true → s.fraction?.isSome) := by
  unfold positionalText
  dsimp only
  split_ifs with hsign hwhole
  -- The digits stand after the point, with zeros in front of them.
  · have hfraction : ∀ c ∈ List.replicate (-lead - 1).toNat '0' ++ digits, c.isDigit = true := by
      intro c hc
      rcases List.mem_append.1 hc with hc | hc
      exacts [isDigit_of_mem_zeros hc, hdigits c hc]
    refine ⟨⟨negative, ['0'], some (List.replicate (-lead - 1).toNat '0' ++ digits), none⟩,
      .withoutExponent (List.cons_ne_nil _ _) (by simp) ?_, rfl, rfl, ?_, ?_, fun _ => rfl⟩
    · simpa using hfraction
    · simp [Spelling.tail, Spelling.fractionChars, Spelling.exponentChars]
    · have hvalue : digitsValue (['0'] ++ (List.replicate (-lead - 1).toNat '0' ++ digits))
          = digitsValue digits := by
        have hzero : digitsValue ['0'] = 0 := rfl
        rw [Numeral.digitsValue_append, Numeral.digitsValue_append, Numeral.digitsValue_zeros, hzero]
        ring
      unfold Numeral.magnitude Spelling.numeral
      dsimp only [Option.getD_some, Spelling.power]
      rw [hvalue, List.length_append, List.length_replicate]
      congr 2
      omega
  -- They stand before the point, with zeros after them.
  · obtain ⟨fraction?, hend, hpoint, hzero⟩ := l.exists_fraction_wholeEnd
    refine ⟨⟨negative, digits ++ List.replicate ((lead + 1).toNat - digits.length) '0', fraction?,
      none⟩, .withoutExponent (by simp [hne]) ?_ (isDigit_of_mem_fraction hzero), rfl, rfl, ?_, ?_,
      hpoint⟩
    · intro c hc
      rcases List.mem_append.1 hc with hc | hc
      exacts [hdigits c hc, isDigit_of_mem_zeros hc]
    · simp [Spelling.tail, Spelling.exponentChars, hend]
    · rw [magnitude_of_fraction_zero hzero]
      dsimp only [Spelling.power]
      rw [Numeral.digitsValue_append, Numeral.digitsValue_zeros, List.length_replicate]
      have hscale : lead + 1 - digits.length = ((lead + 1).toNat - digits.length : ℕ) := by omega
      rw [hscale, zpow_natCast]
      push_cast
      ring
  -- The point stands among them.
  · refine ⟨⟨negative, digits.take (lead + 1).toNat, some (digits.drop (lead + 1).toNat), none⟩,
      .withoutExponent ?_ ?_ ?_, rfl, rfl, ?_, ?_, fun _ => rfl⟩
    · rw [ne_eq, List.take_eq_nil_iff, not_or]
      exact ⟨by omega, hne⟩
    · exact fun c hc => hdigits c (List.mem_of_mem_take hc)
    · intro fraction hfraction c hc
      obtain rfl := Option.some.inj hfraction
      exact hdigits c (List.mem_of_mem_drop hc)
    · simp [Spelling.tail, Spelling.fractionChars, Spelling.exponentChars]
    · unfold Numeral.magnitude Spelling.numeral
      dsimp only [Option.getD_some, Spelling.power]
      rw [List.take_append_drop, List.length_drop]
      congr 2
      omega

/-- The digits of an exponent, with zeros in front. -/
def exponentDigits (lead : Int) : List Char :=
  List.replicate (l.exponentWidth - (Nat.toDigits 10 lead.natAbs).length) '0'
    ++ Nat.toDigits 10 lead.natAbs

/-- The sign that an exponent has. -/
def exponentSign? (lead : Int) : Option Bool :=
  if lead < 0 then some true else if l.plusSign then some false else none

/-- The digits of an exponent are its magnitude. -/
theorem digitsValue_exponentDigits : digitsValue (l.exponentDigits lead) = lead.natAbs := by
  rw [exponentDigits, Numeral.digitsValue_append, Numeral.digitsValue_zeros,
    Numeral.digitsValue_toDigits, zero_mul, zero_add]

/-- An exponent is read as it was written. -/
theorem power_exponent :
    Spelling.power (some (l.exponentSign? lead, l.exponentDigits lead)) = lead := by
  rw [Spelling.power, digitsValue_exponentDigits]
  by_cases hsign : lead < 0
  · rw [exponentSign?, if_pos hsign, if_pos rfl]
    omega
  · have hpositive : l.exponentSign? lead ≠ some true := by
      rw [exponentSign?, if_neg hsign]
      split_ifs <;> decide
    rw [if_neg hpositive]
    omega

/-- A first digit with an exponent, with or without more digits, is proper. -/
theorem isProper_exponent (negative : Bool) {c : Char} {fraction? : Option (List Char)}
    (hc : c.isDigit = true) (hfraction : ∀ fraction ∈ fraction?, ∀ c ∈ fraction, c.isDigit = true)
    (hlead : lead.natAbs < 10000) :
    (⟨negative, [c], fraction?, some (l.exponentSign? lead, l.exponentDigits lead)⟩ :
      Spelling).IsProper where
  whole_ne_nil := List.cons_ne_nil _ _
  whole := List.forall_mem_singleton.2 hc
  fraction := hfraction
  exponent_ne_nil := by simp [exponentDigits, Nat.toDigits_ne_nil]
  exponent := by
    have hexponent : ∀ c ∈ l.exponentDigits lead, c.isDigit = true := by
      intro c hc
      rcases List.mem_append.1 hc with hc | hc
      exacts [isDigit_of_mem_zeros hc, Numeral.isDigit_of_mem_toDigits hc]
    simpa using hexponent
  exponent_lt := by simpa [digitsValue_exponentDigits] using hlead

/-- The digits after a point in front of an exponent. -/
def exponentFraction? : List Char → Option (List Char)
  | [] => if l.pointBeforeExponent then some ['0'] else none
  | digits => some digits

/-- A number with an exponent is its digits with a point after the first, and the exponent. -/
theorem toList_exponentText (c : Char) (cs : List Char) :
    (l.exponentText (c :: cs) lead).toList
      = [c] ++ (Spelling.fractionChars (l.exponentFraction? cs)
        ++ Spelling.exponentChars (some (l.exponentSign? lead, l.exponentDigits lead))) := by
  have hzero : ".0".toList = ['.', '0'] := rfl
  unfold exponentText exponentDigits exponentSign? exponentFraction?
  rw [Nat.toString_eq_repr, Nat.toList_repr]
  cases cs <;> split_ifs <;>
    simp [Spelling.fractionChars, Spelling.exponentChars, Spelling.signChars, hzero]

/-- Digits written with an exponent spell the number that they are. -/
theorem exists_spelling_exponentText (negative : Bool) (hne : digits ≠ [])
    (hdigits : ∀ c ∈ digits, c.isDigit = true) (hlead : lead.natAbs < 10000) :
    ∃ s : Spelling, s.IsProper ∧ s.negative = negative ∧ s.exponent?.isSome ∧
      (l.exponentText digits lead).toList = s.whole ++ s.tail ∧
      s.numeral.magnitude = digitsValue digits * 10 ^ (lead + 1 - digits.length) := by
  obtain ⟨c, cs, rfl⟩ := List.exists_cons_of_ne_nil hne
  obtain ⟨hc, hcs⟩ := List.forall_mem_cons.1 hdigits
  -- A single digit is followed by a point and a zero, or by nothing; more digits are a fraction.
  cases cs with
  | nil =>
      have hzero : ∀ fraction ∈ l.exponentFraction? [], fraction = ['0'] := by
        unfold exponentFraction?
        split_ifs
        · exact fun _ h => (Option.mem_some_iff.1 h).symm
        · simp
      refine ⟨_, l.isProper_exponent negative hc (isDigit_of_mem_fraction hzero) hlead, rfl, rfl,
        l.toList_exponentText c [], ?_⟩
      rw [magnitude_of_fraction_zero hzero]
      dsimp only
      rw [power_exponent, List.length_singleton, Nat.cast_one, add_sub_cancel_right]
  | cons d ds =>
      have hfraction : ∀ fraction ∈ some (d :: ds), ∀ c ∈ fraction, c.isDigit = true := by
        simpa using hcs
      refine ⟨_, l.isProper_exponent negative hc hfraction hlead, rfl, rfl,
        l.toList_exponentText c (d :: ds), ?_⟩
      unfold Numeral.magnitude Spelling.numeral
      dsimp only [Option.getD_some]
      rw [power_exponent, List.singleton_append]
      congr 2
      simp only [List.length_cons]
      push_cast
      ring

/-- An expansion as text spells the number that it stands for. -/
theorem exists_spelling_expansionText (negative : Bool) {e : Expansion}
    (hlead : e.digits ≠ 0 → e.lead.natAbs < 10000) :
    ∃ s : Spelling, s.IsProper ∧ s.negative = negative ∧
      (l.expansionText e).toList = s.whole ++ s.tail ∧ s.numeral.magnitude = e.value ∧
      (l.keepsPoint = true → s.numeral.isWhole = false) := by
  unfold expansionText
  rw [Nat.toString_eq_repr, Nat.toList_repr]
  -- Zero is written as a digit of its own; anything else with or without an exponent, by its place.
  by_cases hzero : e.digits = 0
  · obtain ⟨fraction?, hend, hpoint, hfraction⟩ := l.exists_fraction_wholeEnd
    refine ⟨⟨negative, ['0'], fraction?, none⟩,
      .withoutExponent (List.cons_ne_nil _ _) (by simp) (isDigit_of_mem_fraction hfraction), rfl,
      ?_, ?_, ?_⟩
    · rw [if_pos hzero, String.toList_append, hend]
      simp [Spelling.tail, Spelling.exponentChars]
    · have hvalue : digitsValue ['0'] = 0 := rfl
      rw [magnitude_of_fraction_zero hfraction, hvalue, Expansion.value, hzero]
      simp
    · exact fun h => Spelling.isWhole_numeral_of_isSome (.inl (hpoint h))
  · rw [if_neg hzero]
    have hne : Nat.toDigits 10 e.digits ≠ [] := Nat.toDigits_ne_nil
    have hdigits : ∀ c ∈ Nat.toDigits 10 e.digits, c.isDigit = true :=
      fun c => Numeral.isDigit_of_mem_toDigits
    have hvalue : (digitsValue (Nat.toDigits 10 e.digits) : ℚ)
        * 10 ^ (e.lead + 1 - (Nat.toDigits 10 e.digits).length) = e.value := by
      rw [Numeral.digitsValue_toDigits, Expansion.lead, Expansion.value]
      congr 2
      ring
    dsimp only
    rw [← Expansion.lead]
    split_ifs with hpositional
    · obtain ⟨s, hproper, hnegative, hexponent, htext, hmagnitude, hpoint⟩ :=
        l.exists_spelling_positionalText e.lead negative hne hdigits
      exact ⟨s, hproper, hnegative, htext, hmagnitude.trans hvalue,
        fun h => Spelling.isWhole_numeral_of_isSome (.inl (hpoint h))⟩
    · obtain ⟨s, hproper, hnegative, hexponent, htext, hmagnitude⟩ :=
        l.exists_spelling_exponentText negative hne hdigits (hlead hzero)
      exact ⟨s, hproper, hnegative, htext, hmagnitude.trans hvalue,
        fun _ => Spelling.isWhole_numeral_of_isSome (.inr hexponent)⟩

/-- **The text of a finite float spells a number that reads as the float.** -/
theorem exists_spelling_text {x : Float} {b : Binary} (h : Binary.ofFloat? x = some b) :
    ∃ s : Spelling, s.IsProper ∧ l.text x = String.ofList s.chars ∧ s.negative = b.negative ∧
      b.IsNearest s.numeral.magnitude ∧ (l.keepsPoint = true → s.numeral.isWhole = false) := by
  have hb := Binary.isNormal_of_ofFloat? h
  have hlead : (Expansion.shortest l.halfway b).digits ≠ 0 →
      (Expansion.shortest l.halfway b).lead.natAbs < 10000 := by
    intro hdigits
    have hm : b.mantissa ≠ 0 := fun hm => hdigits (by rw [Expansion.shortest, if_pos hm])
    exact (Expansion.natAbs_lead_shortest_le l.halfway hb hm).trans_lt (by decide)
  obtain ⟨s, hproper, hnegative, htext, hmagnitude, hpoint⟩ :=
    l.exists_spelling_expansionText b.negative hlead
  refine ⟨s, hproper, ?_, hnegative, hmagnitude ▸ Expansion.isNearest_shortest l.halfway hb, hpoint⟩
  rw [← String.toList_inj, String.toList_ofList, text, h]
  dsimp only
  rw [String.toList_append, htext, Spelling.chars, hnegative]
  cases b.negative <;> rfl

end Layout

end Tabula.Decimal
