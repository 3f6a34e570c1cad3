import Tabula.Proofs.Decimal.Layout
import Tabula.Proofs.Sql.Lexeme
import Tabula.Sql.Definition
import Tabula.Store.Cell

/-!
# Number literals

A number literal stands for a whole number of 64 bits if it is one, and otherwise for the float that its
number reads as (`Numeral.Denotes`). Main statements: a literal stands for one cell at most
(`Numeral.Denotes.unique`), and the literals of whole numbers and of finite floats stand for these
(`exists_numeral_int`, `exists_numeral_float`).
-/

namespace Tabula

open Decimal (Binary)

namespace Store.Numeral

/-- The number that a numeral stands for. -/
def value (n : Numeral) : ℚ := if n.negative then -n.magnitude else n.magnitude

/-- Whether a numeral is a literal of a cell: of a whole number if it has neither a point nor an
exponent and fits 64 bits, and otherwise of the float that its number reads as. -/
inductive Denotes (n : Numeral) : Cell → Prop
  | int {k : Int64} (hwhole : n.isWhole = true) (hvalue : n.value = k.toInt) : Denotes n (.int k)
  | real {x : Float} {b : Binary} (hreal : n.isWhole = true → ∀ k : Int64, n.value ≠ k.toInt)
      (hx : Binary.ofFloat? x = some b) (hsign : b.negative = n.negative)
      (hnearest : b.IsNearest n.magnitude) : Denotes n (.real x)

/-- A literal stands for one cell at most. -/
theorem Denotes.unique {n : Numeral} {c d : Cell} (hc : n.Denotes c) (hd : n.Denotes d) : c = d := by
  cases hc with
  | @int k hwhole hk =>
      cases hd with
      | @int k' _ hk' =>
          have hkk' : (k.toInt : ℚ) = k'.toInt := hk.symm.trans hk'
          exact congrArg Cell.int (Int64.toInt_inj.1 (by exact_mod_cast hkk'))
      | real hreal => exact absurd hk (hreal hwhole k)
  | @real x b hreal hx hsign hnearest =>
      cases hd with
      | @int k' hwhole hk' => exact absurd hk' (hreal hwhole k')
      | @real y b' _ hy hsign' hnearest' =>
          have hb := Binary.isNormal_of_ofFloat? hx
          have hb' := Binary.isNormal_of_ofFloat? hy
          have hsame : b = b' := hb.eq_of_magnitude_eq hb' (hsign.trans hsign'.symm)
            (hnearest.magnitude_eq hb hb' hnearest')
          exact congrArg Cell.real (Binary.ofFloat?_inj (hsame ▸ hx) hy)

end Store.Numeral

namespace Sql

open Store (Numeral)
open Store.Numeral (Spelling)

theorem of?_of_isDigit {c : Char} (h : c.isDigit = true) : Lexeme.Run.of? c = some .numeral := by
  have hletter : Lexeme.Run.letters.takes c = false := by
    have hhigh : c.toNat ≤ 57 := by
      simp only [Char.isDigit, Bool.and_eq_true, decide_eq_true_eq] at h
      exact h.2
    have hupper : c.isUpper = false := by
      refine decide_eq_false fun hupper => ?_
      have hle : 65 ≤ c.toNat := UInt32.le_iff_toNat_le.1 hupper.1
      omega
    have hlower : c.isLower = false := by
      refine Bool.and_eq_false_imp.2 fun hlower => ?_
      have hle : 97 ≤ c.toNat := UInt32.le_iff_toNat_le.1 (of_decide_eq_true hlower)
      omega
    have halpha : c.isAlpha = false := Bool.or_eq_false_iff.2 ⟨hupper, hlower⟩
    have hline : c ≠ '_' := by
      rintro rfl
      cases h
    simp [Lexeme.Run.takes, halpha, hline]
  have hrelation : Lexeme.Run.relation.takes c = false := by
    simp only [Lexeme.Run.takes, Bool.or_eq_false_iff, decide_eq_false_iff_not]
    refine ⟨⟨?_, ?_⟩, ?_⟩ <;> rintro rfl <;> cases h
  simp [Lexeme.Run.of?, hletter, hrelation, h]

/-- A spelling is one run of numeral characters. -/
theorem isRun_spelling {s : Spelling} (h : s.IsProper) :
    isRun [.numeral] (String.ofList s.chars) = true := by
  obtain ⟨c, cs, hchars, hc⟩ := s.exists_cons_chars h
  have hall : ∀ d ∈ s.chars, Lexeme.Run.numeral.takes d = true := by
    intro d hd
    rcases s.mem_chars h hd with hdigit | rfl | rfl | rfl | rfl
    · simp [Lexeme.Run.takes, hdigit]
    all_goals rfl
  rw [hchars] at hall
  have hfirst : Lexeme.Run.of? c = some .numeral := by
    rcases hc with rfl | hc
    exacts [rfl, of?_of_isDigit hc]
  unfold isRun
  rw [String.toList_ofList, hchars]
  simpa [hfirst] using (List.forall_mem_cons.1 hall).2

/-- The text of a whole number is a literal of it. -/
theorem exists_numeral_int (k : Int64) :
    ∃ n, Numeral.ofText? (toString k.toInt) = some n ∧ n.Denotes (.int k) ∧
      isRun [.numeral] (toString k.toInt) = true := by
  obtain ⟨s, hproper, htext, hwhole, hvalue⟩ : ∃ s : Spelling, s.IsProper ∧
      toString k.toInt = String.ofList s.chars ∧ s.numeral.isWhole = true ∧
      s.numeral.value = k.toInt := by
    have hproper (negative : Bool) (m : Nat) :
        (⟨negative, Nat.toDigits 10 m, none, none⟩ : Spelling).IsProper :=
      .withoutExponent Nat.toDigits_ne_nil (fun c => Numeral.isDigit_of_mem_toDigits) (by simp)
    cases k.toInt with
    | ofNat m =>
        refine ⟨_, hproper false m, ?_, rfl, ?_⟩
        · show toString m = _
          rw [Nat.toString_eq_repr, Nat.repr_eq_ofList_toDigits]
          simp [Spelling.chars, Spelling.tail, Spelling.fractionChars, Spelling.exponentChars]
        · simp [Spelling.numeral, Numeral.value, Numeral.magnitude, Spelling.power]
    | negSucc m =>
        refine ⟨_, hproper true (m + 1), ?_, rfl, ?_⟩
        · show "-" ++ (m + 1).repr = _
          rw [Nat.repr_eq_ofList_toDigits]
          simp [Spelling.chars, Spelling.tail, Spelling.fractionChars, Spelling.exponentChars]
        · simp [Spelling.numeral, Numeral.value, Numeral.magnitude, Spelling.power]
  rw [htext]
  exact ⟨s.numeral, Numeral.ofText?_spelling hproper, .int hwhole hvalue, isRun_spelling hproper⟩

/-- The text of a finite float is a literal of it. -/
theorem exists_numeral_float {x : Float} (h : x.isFinite = true) :
    ∃ n, Numeral.ofText? (numberLayout.text x) = some n ∧ n.Denotes (.real x) ∧
      isRun [.numeral] (numberLayout.text x) = true := by
  obtain ⟨b, hb⟩ := Binary.isFinite_iff.1 h
  obtain ⟨s, hproper, htext, hsign, hnearest, hpoint⟩ := numberLayout.exists_spelling_text hb
  rw [htext]
  refine ⟨s.numeral, Numeral.ofText?_spelling hproper, ?_, isRun_spelling hproper⟩
  have hreal : s.numeral.isWhole = false := hpoint rfl
  exact .real (fun hwhole => absurd hwhole (by simp [hreal])) hb hsign.symm hnearest

end Sql

end Tabula
