import Mathlib.Algebra.Order.Field.Power
import Mathlib.Data.List.Induction
import Mathlib.Tactic.Linarith
import Mathlib.Tactic.Ring
import Tabula.Store.Numeric

/-!
# Numerals

A numeral is spelled with a sign, digits, a point and more digits, and an exponent, of which only the
first digits have to be there (`Numeral.Spelling`). Main statement: the store reads every spelling as
the number that it stands for (`Numeral.ofText?_spelling`).
-/

namespace Tabula.Store

namespace Numeral

/-- The magnitude that a numeral stands for. -/
def magnitude (n : Numeral) : ℚ :=
  digitsValue (n.whole ++ n.fraction) * 10 ^ (n.exponent - n.fraction.length)

/-! ## Rows of digits -/

/-- The value of digits is the one that the library gives them. -/
theorem digitsValue_eq (cs : List Char) : digitsValue cs = Nat.ofDigitChars 10 cs 0 :=
  Nat.ofDigitChars_eq_foldl.symm

theorem isDigit_of_mem_toDigits {n : Nat} {c : Char} (h : c ∈ Nat.toDigits 10 n) :
    c.isDigit = true :=
  Nat.isDigit_of_mem_toDigits (by decide) (by decide) h

/-- The digits of a number have its value. -/
@[simp] theorem digitsValue_toDigits (n : Nat) : digitsValue (Nat.toDigits 10 n) = n := by
  rw [digitsValue_eq, Nat.ofDigitChars_ten_toDigits]

/-- Digits before others count as many powers of ten more. -/
theorem digitsValue_append (cs ds : List Char) :
    digitsValue (cs ++ ds) = digitsValue cs * 10 ^ ds.length + digitsValue ds := by
  rw [digitsValue_eq, Nat.ofDigitChars_append, Nat.ofDigitChars_eq_ofDigitChars_zero, digitsValue_eq,
    digitsValue_eq, mul_comm]

@[simp] theorem digitsValue_zeros (n : Nat) : digitsValue (List.replicate n '0') = 0 := by
  rw [digitsValue_eq, Nat.ofDigitChars_replicate_zero, mul_zero]

/-- So many digits are less than that power of ten. -/
theorem digitsValue_lt {cs : List Char} (h : ∀ c ∈ cs, c.isDigit = true) :
    digitsValue cs < 10 ^ cs.length := by
  induction cs with
  | nil => decide
  | cons c cs ih =>
      obtain ⟨hc, hcs⟩ := List.forall_mem_cons.1 h
      have hdigit : digitsValue [c] ≤ 9 := by
        have hle : c.toNat ≤ 57 := by
          simp only [Char.isDigit, Bool.and_eq_true, decide_eq_true_eq] at hc
          exact hc.2
        exact (Nat.zero_add _).trans_le (Nat.sub_le_sub_right hle 48)
      have hrest := ih hcs
      rw [← List.singleton_append, digitsValue_append, List.length_append, List.length_singleton,
        pow_add]
      nlinarith

/-- Up to four digits, and more if they begin with zeros, an exponent is its digits. -/
theorem exponentValue_eq {cs : List Char} (h : digitsValue cs < 10000) :
    exponentValue cs = digitsValue cs := by
  induction cs using List.reverseRecOn with
  | nil => rfl
  | append_singleton cs c ih =>
      rw [digitsValue_append] at h ⊢
      have hcs : exponentValue cs = digitsValue cs := ih (by simp at h; omega)
      unfold exponentValue at hcs ⊢
      rw [List.foldl_append, hcs]
      simp only [List.foldl_cons, List.foldl_nil]
      rw [if_pos (by simp at h; omega)]
      simp [mul_comm, add_comm]

/-! ## Spellings -/

/-- How a numeral is spelled: its sign, its first digits, the digits after a point and the exponent with
its sign. -/
structure Spelling where
  negative : Bool
  whole : List Char
  fraction? : Option (List Char)
  exponent? : Option (Option Bool × List Char)

namespace Spelling

/-- A sign, if one is written. -/
def signChars : Option Bool → List Char
  | none => []
  | some negative => [if negative then '-' else '+']

/-- The characters of an exponent. -/
def exponentChars : Option (Option Bool × List Char) → List Char
  | none => []
  | some (negative?, digits) => 'e' :: (signChars negative? ++ digits)

/-- A point with the digits after it. -/
def fractionChars : Option (List Char) → List Char
  | none => []
  | some digits => '.' :: digits

/-- What follows the first digits. -/
def tail (s : Spelling) : List Char :=
  fractionChars s.fraction? ++ exponentChars s.exponent?

/-- The characters of a spelling. -/
def chars (s : Spelling) : List Char :=
  (if s.negative then ['-'] else []) ++ (s.whole ++ s.tail)

/-- The number that an exponent is. -/
def power : Option (Option Bool × List Char) → Int
  | none => 0
  | some (negative?, digits) =>
    if negative? = some true then -digitsValue digits else digitsValue digits

/-- The numeral that a spelling spells. -/
def numeral (s : Spelling) : Numeral where
  negative := s.negative
  whole := s.whole
  fraction := s.fraction?.getD []
  exponent := power s.exponent?
  isWhole := s.fraction?.isNone && s.exponent?.isNone

/-- A spelling with a fraction or an exponent is no whole numeral. -/
theorem isWhole_numeral_of_isSome {s : Spelling}
    (h : s.fraction?.isSome = true ∨ s.exponent?.isSome = true) : s.numeral.isWhole = false := by
  unfold numeral
  rcases h with h | h <;> cases hfraction : s.fraction? <;> simp_all

/-- Whether a spelling is one of a numeral. -/
structure IsProper (s : Spelling) : Prop where
  whole_ne_nil : s.whole ≠ []
  whole : ∀ c ∈ s.whole, c.isDigit = true
  fraction : ∀ digits ∈ s.fraction?, ∀ c ∈ digits, c.isDigit = true
  exponent_ne_nil : ∀ exponent ∈ s.exponent?, exponent.2 ≠ []
  exponent : ∀ exponent ∈ s.exponent?, ∀ c ∈ exponent.2, c.isDigit = true
  exponent_lt : ∀ exponent ∈ s.exponent?, digitsValue exponent.2 < 10000

/-- Digits with or without a fraction are a proper spelling. -/
theorem IsProper.withoutExponent {negative : Bool} {whole : List Char} {fraction? : Option (List Char)}
    (hne : whole ≠ []) (hwhole : ∀ c ∈ whole, c.isDigit = true)
    (hfraction : ∀ digits ∈ fraction?, ∀ c ∈ digits, c.isDigit = true) :
    (⟨negative, whole, fraction?, none⟩ : Spelling).IsProper where
  whole_ne_nil := hne
  whole := hwhole
  fraction := hfraction
  exponent_ne_nil := by simp
  exponent := by simp
  exponent_lt := by simp

variable {s : Spelling}

/-- A spelling consists of digits, signs, points and the mark of an exponent. -/
theorem mem_chars (h : s.IsProper) {c : Char} (hc : c ∈ s.chars) :
    c.isDigit = true ∨ c = '-' ∨ c = '+' ∨ c = '.' ∨ c = 'e' := by
  have hsign {negative? : Option Bool} (hc : c ∈ signChars negative?) : c = '-' ∨ c = '+' := by
    cases negative? with
    | none => cases hc
    | some negative => cases negative <;> simp_all [signChars]
  simp only [chars, tail, List.mem_append, List.mem_ite_nil_right, List.mem_singleton] at hc
  rcases hc with ⟨-, rfl⟩ | hc | hc | hc
  · simp
  · exact .inl (h.whole c hc)
  · cases hfraction : s.fraction? with
    | none => simp [hfraction, fractionChars] at hc
    | some digits =>
        rw [hfraction, fractionChars, List.mem_cons] at hc
        rcases hc with rfl | hc
        · simp
        · exact .inl (h.fraction digits hfraction c hc)
  · cases hexponent : s.exponent? with
    | none => simp [hexponent, exponentChars] at hc
    | some exponent =>
        obtain ⟨negative?, digits⟩ := exponent
        rw [hexponent, exponentChars, List.mem_cons, List.mem_append] at hc
        rcases hc with rfl | hc | hc
        · simp
        · rcases hsign hc with rfl | rfl <;> simp
        · exact .inl (h.exponent _ hexponent c hc)

/-- A spelling begins with its sign or with a digit. -/
theorem exists_cons_chars (h : s.IsProper) :
    ∃ c cs, s.chars = c :: cs ∧ (c = '-' ∨ c.isDigit = true) := by
  obtain ⟨d, digits, hdigits⟩ := List.exists_cons_of_ne_nil h.whole_ne_nil
  unfold chars
  cases s.negative with
  | true => exact ⟨_, _, rfl, .inl rfl⟩
  | false =>
      rw [hdigits]
      exact ⟨d, _, rfl, .inr (h.whole d (hdigits ▸ List.mem_cons_self))⟩

/-- An exponent begins with its mark. -/
theorem head?_exponentChars {exponent? : Option (Option Bool × List Char)} {c : Char}
    (hc : c ∈ (exponentChars exponent?).head?) : c = 'e' := by
  cases exponent? <;> simp_all [exponentChars, eq_comm (b := c)]

/-- What follows the whole digits begins with a point or a mark. -/
theorem head?_tail {c : Char} (hc : c ∈ s.tail.head?) : c = '.' ∨ c = 'e' := by
  unfold tail at hc
  cases hfraction : s.fraction? with
  | none =>
      rw [hfraction] at hc
      exact .inr (head?_exponentChars hc)
  | some digits =>
      rw [hfraction] at hc
      exact .inl (Option.mem_some_iff.1 hc).symm

/-- A sign is told from the digits after it. -/
theorem sign_of_isDigit {cs : List Char} (hne : cs ≠ []) (hcs : ∀ c ∈ cs.head?, c.isDigit = true)
    (negative? : Option Bool) :
    sign (signChars negative? ++ cs) = (negative? == some true, cs) := by
  cases negative? with
  | some negative => cases negative <;> rfl
  | none =>
      obtain ⟨c, cs, rfl⟩ := List.exists_cons_of_ne_nil hne
      have hc := hcs c rfl
      show sign (c :: cs) = _
      unfold sign
      split
      · next heq =>
          obtain rfl := (List.cons.inj heq).1
          cases hc
      · next heq =>
          obtain rfl := (List.cons.inj heq).1
          cases hc
      · rfl

/-- An exponent is read as its power. -/
theorem exponent?_exponentChars (h : s.IsProper) :
    Numeral.exponent? (exponentChars s.exponent?) = some (power s.exponent?) := by
  cases hexponent : s.exponent? with
  | none => rfl
  | some exponent =>
      obtain ⟨negative?, digits⟩ := exponent
      have hne : digits ≠ [] := h.exponent_ne_nil _ hexponent
      have hdigits : ∀ c ∈ digits, c.isDigit = true := h.exponent _ hexponent
      have hvalue : exponentValue digits = digitsValue digits :=
        exponentValue_eq (h.exponent_lt _ hexponent)
      have hhead : ∀ c ∈ digits.head?, c.isDigit = true :=
        fun c hc => hdigits c (List.mem_of_mem_head? hc)
      rw [exponentChars, Numeral.exponent?, sign_of_isDigit hne hhead, power]
      simp [hne, hvalue, List.all_eq_true.2 hdigits]

end Spelling

theorem dropWhile_eq_self {p : Char → Bool} {cs : List Char} (h : ∀ c ∈ cs, p c = false) :
    cs.dropWhile p = cs := by
  cases cs with
  | nil => rfl
  | cons c cs => simp [h c List.mem_cons_self]

/-- A row is cut where a property ends. -/
theorem takeWhile_append_eq {p : Char → Bool} {cs rest : List Char} (hcs : ∀ c ∈ cs, p c = true)
    (hrest : ∀ c ∈ rest.head?, p c = false) :
    (cs ++ rest).takeWhile p = cs ∧ (cs ++ rest).dropWhile p = rest := by
  rw [List.takeWhile_append_of_pos hcs, List.dropWhile_append_of_pos hcs]
  cases rest with
  | nil => simp
  | cons c rest => simp [hrest c rfl]

/-- No digit is a blank. -/
theorem isBlank_of_isDigit {c : Char} (h : c.isDigit = true) : isBlank c = false := by
  unfold isBlank
  simp only [Bool.or_eq_false_iff, decide_eq_false_iff_not]
  refine ⟨⟨⟨⟨⟨?_, ?_⟩, ?_⟩, ?_⟩, ?_⟩, ?_⟩ <;> rintro rfl <;> cases h

namespace Spelling

/-- A spelling has no blanks around it. -/
theorem trim_chars {s : Spelling} (h : s.IsProper) :
    ((s.chars.dropWhile isBlank).reverse.dropWhile isBlank).reverse = s.chars := by
  have hblank : ∀ c ∈ s.chars, isBlank c = false := by
    intro c hc
    rcases s.mem_chars h hc with hdigit | rfl | rfl | rfl | rfl
    · exact isBlank_of_isDigit hdigit
    all_goals rfl
  rw [dropWhile_eq_self hblank, dropWhile_eq_self (by simpa using hblank), List.reverse_reverse]

/-- A spelling is read as its sign and the rest. -/
theorem sign_chars {s : Spelling} (h : s.IsProper) :
    sign s.chars = (s.negative, s.whole ++ s.tail) := by
  have hhead : ∀ c ∈ (s.whole ++ s.tail).head?, c.isDigit = true := by
    obtain ⟨d, digits, hdigits⟩ := List.exists_cons_of_ne_nil h.whole_ne_nil
    intro c hc
    refine h.whole c ?_
    rw [hdigits] at hc ⊢
    exact List.mem_of_mem_head? (a := c) hc
  have hread := sign_of_isDigit (List.append_ne_nil_of_left_ne_nil h.whole_ne_nil s.tail)
    hhead (if s.negative then some true else none)
  unfold chars
  cases hnegative : s.negative <;> rw [hnegative] at hread <;> exact hread

end Spelling

/-- **The store reads a spelling as the numeral that it spells.** -/
theorem ofText?_spelling {s : Spelling} (h : s.IsProper) :
    ofText? (String.ofList s.chars) = some s.numeral := by
  have htail : ∀ c ∈ s.tail.head?, c.isDigit = false := by
    intro c hc
    rcases Spelling.head?_tail hc with rfl | rfl <;> rfl
  obtain ⟨htake, hdrop⟩ := takeWhile_append_eq h.whole htail
  have hexponent := Spelling.exponent?_exponentChars h
  unfold ofText?
  rw [String.toList_ofList, Spelling.trim_chars h]
  dsimp only
  rw [Spelling.sign_chars h]
  dsimp only
  rw [htake, hdrop]
  -- What is left is the fraction, if there is one, and then the exponent.
  cases hfraction : s.fraction? with
  | some digits =>
      have hend : ∀ c ∈ (Spelling.exponentChars s.exponent?).head?, c.isDigit = false := by
        intro c hc
        rw [Spelling.head?_exponentChars hc]
        rfl
      obtain ⟨htake, hdrop⟩ := takeWhile_append_eq (h.fraction digits hfraction) hend
      have htail : s.tail = '.' :: (digits ++ Spelling.exponentChars s.exponent?) := by
        rw [Spelling.tail, hfraction]
        rfl
      simp [htail, htake, hdrop, h.whole_ne_nil, hexponent, Spelling.numeral, hfraction]
  | none =>
      have htail : s.tail = Spelling.exponentChars s.exponent? := by
        rw [Spelling.tail, hfraction]
        rfl
      rw [htail]
      cases hpower : s.exponent? with
      | none =>
          rw [hpower] at hexponent
          simp [Spelling.exponentChars, h.whole_ne_nil, exponent?, Spelling.numeral, hfraction, hpower,
            Spelling.power]
      | some exponent =>
          rw [hpower, Spelling.exponentChars] at hexponent
          simp [Spelling.exponentChars, h.whole_ne_nil, hexponent, Spelling.numeral, hfraction, hpower]

end Numeral

end Tabula.Store
