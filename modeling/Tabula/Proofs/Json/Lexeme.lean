import Mathlib.Data.List.TakeWhile
import Tabula.Json.Lexeme
import Tabula.Json.Printer
import Tabula.Proofs.Decimal.Layout
import Tabula.Proofs.Result

/-!
# Lexemes of written JSON

What is written for strings and whole numbers is cut out of a text as one lexeme of the same string or
number. A string ends with its quote and a bracket is itself, whatever follows (`AlwaysCutsInto`); a
numeral ends before a character that cannot go on with it (`CutsInto`). Main statements: a string in
quotes (`AlwaysCutsInto.quote`) and a whole number (`CutsInto.int`) are one lexeme each, and a numeral that
is one lexeme by itself is so in front of others (`CutsInto.number`).
-/

namespace Tabula.Json

namespace Lexeme

/-! ## Strings -/

/-- A character that needs no escape stands for itself. -/
theorem quoted_cons_of_ne {c : Char} (hquote : c ≠ '\x22') (hslash : c ≠ '\x5c')
    (hplain : ¬ c.toNat < 0x20) (rest : List Char) : quoted (c :: rest) = (quoted rest).cons (.char c) 1 := by
  rw [quoted.eq_def]
  split <;> simp_all

/-- A character that is written in a string is read as one part, which stands for the character. -/
theorem exists_piece_escape (c : Char) (rest : List Char) :
    ∃ piece, quoted (escape c ++ rest) = (quoted rest).cons piece (escape c).length ∧
      ∀ pairFault pieces,
        joinPieces pairFault (piece :: pieces) = (c :: ·) <$> joinPieces pairFault pieces := by
  unfold escape
  split
  · exact ⟨.char '\x22', rfl, fun _ _ => rfl⟩
  · exact ⟨.char '\x5c', rfl, fun _ _ => rfl⟩
  · exact ⟨.char '\x08', rfl, fun _ _ => rfl⟩
  · exact ⟨.char '\x0c', rfl, fun _ _ => rfl⟩
  · exact ⟨.char '\n', rfl, fun _ _ => rfl⟩
  · exact ⟨.char '\r', rfl, fun _ _ => rfl⟩
  · exact ⟨.char '\t', rfl, fun _ _ => rfl⟩
  · next _ hquote hslash _ _ _ _ _ =>
    -- A control character is written by its number, in hexadecimal digits that read as it.
    split_ifs with hcontrol
    · have hunit : hexUnit? ['0', '0', hexDigit (c.toNat / 16), hexDigit (c.toNat % 16)]
          = some c.toNat := by
        have hall : ∀ n < 0x20,
            hexUnit? ['0', '0', hexDigit (n / 16), hexDigit (n % 16)] = some n := by decide
        exact hall c.toNat hcontrol
      refine ⟨.unit c.toNat, ?_, fun pairFault pieces => ?_⟩
      · simp [quoted, hunit]
      · -- Control characters are far below the halves of surrogate pairs.
        have hhigh : isHighSurrogate c.toNat = false := by
          simp only [isHighSurrogate, Bool.and_eq_false_iff, decide_eq_false_iff_not]
          omega
        have hlow : isLowSurrogate c.toNat = false := by
          simp only [isLowSurrogate, Bool.and_eq_false_iff, decide_eq_false_iff_not]
          omega
        rw [joinPieces.eq_def]
        simp only [hhigh, hlow, Char.ofNat_toNat, Bool.false_eq_true, if_false]
    · refine ⟨.char c, ?_, fun _ _ => rfl⟩
      exact quoted_cons_of_ne hquote hslash hcontrol rest

/-- A string that is written is read as its characters. -/
theorem quoted_escaped (cs rest : List Char) :
    (quoted (cs.flatMap escape ++ '\x22' :: rest)).fault = none ∧
      joinPieces (quoted (cs.flatMap escape ++ '\x22' :: rest)).pairFault
        (quoted (cs.flatMap escape ++ '\x22' :: rest)).pieces = .ok cs ∧
      (quoted (cs.flatMap escape ++ '\x22' :: rest)).length = (cs.flatMap escape).length + 1 := by
  induction cs with
  | nil => exact ⟨rfl, rfl, rfl⟩
  | cons c cs ih =>
      obtain ⟨hfault, hpieces, hlength⟩ := ih
      obtain ⟨piece, hquoted, hpiece⟩ := exists_piece_escape c (cs.flatMap escape ++ '\x22' :: rest)
      rw [List.flatMap_cons, List.append_assoc, hquoted]
      refine ⟨hfault, ?_, ?_⟩
      · show joinPieces _ (piece :: _) = _
        rw [hpiece]
        exact congrArg ((c :: ·) <$> ·) hpieces
      · show _ + _ = _
        rw [hlength, List.length_append, Nat.add_assoc]

/-! ## Numerals -/

/-- Whether a character can go on with a numeral. -/
def extendsNumeral (c : Char) : Bool :=
  c.isDigit || c = '.' || c = 'e' || c = 'E'

/-- The sign of an exponent, what follows it, and the count of characters up to there with the mark of
the exponent. -/
def exponentSign : List Char → Bool × List Char × Nat
  | '+' :: cs => (false, cs, 2)
  | '-' :: cs => (true, cs, 2)
  | cs => (false, cs, 1)

/-- The sign of an exponent is told without what follows. -/
theorem exponentSign_append {cs : List Char} (hne : cs ≠ []) (rest : List Char) :
    exponentSign (cs ++ rest)
      = ((exponentSign cs).1, (exponentSign cs).2.1 ++ rest, (exponentSign cs).2.2) := by
  obtain ⟨c, cs, rfl⟩ := List.exists_cons_of_ne_nil hne
  by_cases hplus : c = '+'
  · subst hplus
    rfl
  by_cases hminus : c = '-'
  · subst hminus
    rfl
  simp [exponentSign, hplus, hminus]

/-- A sign is one character, or none. -/
theorem length_exponentSign (cs : List Char) :
    (exponentSign cs).2.2 + (exponentSign cs).2.1.length = cs.length + 1 := by
  unfold exponentSign
  split <;> simp only [List.length_cons] <;> omega

/-- After its mark an exponent is a sign and at least one digit. -/
theorem exponentPart_cons {c : Char} (hmark : (c = 'e' || c = 'E') = true) (cs : List Char) :
    exponentPart (c :: cs) =
      if ((exponentSign cs).2.1.takeWhile Char.isDigit).isEmpty then
        .error (missingDigit (exponentSign cs).2.1)
      else
        .ok (some ((exponentSign cs).1, (exponentSign cs).2.1.takeWhile Char.isDigit),
          (exponentSign cs).2.2 + ((exponentSign cs).2.1.takeWhile Char.isDigit).length) :=
  if_pos hmark

/-- Without its mark there is no exponent. -/
theorem exponentPart_of_not_mark {cs : List Char} (h : ∀ c ∈ cs.head?, (c = 'e' || c = 'E') = false) :
    exponentPart cs = .ok (none, 0) := by
  cases cs with
  | nil => rfl
  | cons c cs =>
      show (if (c = 'e' || c = 'E') = true then _ else _) = _
      rw [h c rfl]
      rfl

/-- A numeral has digits, more than a zero only if they do not begin with it, and then its fraction and
its exponent. -/
theorem numeral_eq_ok_iff {negative : Bool} {cs : List Char} {n : Numeral} {used : Nat} :
    numeral negative cs = .ok (n, used) ↔
      cs.takeWhile Char.isDigit ≠ [] ∧
      ((cs.takeWhile Char.isDigit).head? = some '0' → (cs.takeWhile Char.isDigit).length ≤ 1) ∧
      ∃ fraction fractionLength exponent exponentLength,
        fractionPart (cs.drop (cs.takeWhile Char.isDigit).length) = .ok (fraction, fractionLength) ∧
        exponentPart (cs.drop ((cs.takeWhile Char.isDigit).length + fractionLength))
          = .ok (exponent, exponentLength) ∧
        (⟨negative, cs.takeWhile Char.isDigit, fraction, exponent⟩ : Numeral) = n ∧
        (cs.takeWhile Char.isDigit).length + fractionLength + exponentLength = used := by
  unfold numeral
  generalize cs.takeWhile Char.isDigit = whole
  by_cases hwhole : whole = []
  · subst hwhole
    exact iff_of_false nofun fun h => h.1 rfl
  by_cases hzero : whole.head? = some '0' ∧ 1 < whole.length
  · refine iff_of_false ?_ fun h => absurd (h.2.1 hzero.1) (by omega)
    simp only [hwhole, hzero, List.isEmpty_iff, if_false, decide_true, Bool.and_self, if_true]
    nofun
  · have hle : whole.head? = some '0' → whole.length ≤ 1 := fun h => by
      by_contra hlt
      exact hzero ⟨h, by omega⟩
    simp only [hwhole, hzero, List.isEmpty_iff, Bool.and_eq_true, decide_eq_true_eq, if_false]
    constructor
    · intro h
      obtain ⟨⟨fraction, fractionLength⟩, hfraction, h⟩ := Except.bind_eq_ok_iff.1 h
      obtain ⟨⟨exponent, exponentLength⟩, hexponent, h⟩ := Except.bind_eq_ok_iff.1 h
      cases h
      exact ⟨hwhole, hle, _, _, _, _, hfraction, hexponent, rfl, rfl⟩
    · rintro ⟨-, -, fraction, fractionLength, exponent, exponentLength, hfraction, hexponent, rfl, rfl⟩
      exact Except.bind_eq_ok_iff.2 ⟨_, hfraction, Except.bind_eq_ok_iff.2 ⟨_, hexponent, rfl⟩⟩
section Numeral

variable {negative : Bool} {cs rest : List Char} {n : Numeral} {used : Nat}
variable (hrest : ∀ c ∈ rest.head?, extendsNumeral c = false)
include hrest

/-- Digits end where no digit follows. -/
theorem takeWhile_isDigit_append (cs : List Char) :
    (cs ++ rest).takeWhile Char.isDigit = cs.takeWhile Char.isDigit := by
  induction cs with
  | nil =>
      cases rest with
      | nil => rfl
      | cons c rest =>
          have hc := hrest c rfl
          simp only [extendsNumeral, Bool.or_eq_false_iff] at hc
          simp [hc.1.1.1]
  | cons c cs ih => rw [List.cons_append, List.takeWhile_cons, List.takeWhile_cons, ih]

/-- A fraction is read the same if no digit follows. -/
theorem fractionPart_append {fraction : Option (List Char)}
    (h : fractionPart cs = .ok (fraction, used)) :
    used ≤ cs.length ∧ fractionPart (cs ++ rest) = .ok (fraction, used) := by
  have hother (ds : List Char) (hds : ∀ c ∈ ds.head?, c ≠ '.') : fractionPart ds = .ok (none, 0) := by
    unfold fractionPart
    split
    · exact absurd rfl (hds '.' rfl)
    · rfl
  -- What follows could go on with the digits only if it began with one, or with the point that
  -- begins a fraction.
  cases cs with
  | nil =>
      have hnone := hother rest fun c hc => by
        rintro rfl
        cases hrest _ hc
      cases h
      exact ⟨Nat.le_refl 0, hnone⟩
  | cons c cs =>
      by_cases hpoint : c = '.'
      · subst hpoint
        rw [List.cons_append]
        simp only [fractionPart, takeWhile_isDigit_append hrest] at h ⊢
        split_ifs at h ⊢ with hdigits
        cases h
        have hle := (List.takeWhile_prefix (l := cs) Char.isDigit).length_le
        refine ⟨?_, rfl⟩
        rw [List.length_cons]
        omega
      · have hnone := hother (c :: cs) fun d hd => by
          rwa [← Option.mem_some_iff.1 hd]
        have hnone' := hother (c :: cs ++ rest) fun d hd => by
          rwa [← Option.mem_some_iff.1 hd]
        rw [hnone] at h
        cases h
        exact ⟨Nat.zero_le _, hnone'⟩

/-- So is an exponent. -/
theorem exponentPart_append {exponent : Option (Bool × List Char)}
    (h : exponentPart cs = .ok (exponent, used)) :
    used ≤ cs.length ∧ exponentPart (cs ++ rest) = .ok (exponent, used) := by
  cases cs with
  | nil =>
      cases h
      refine ⟨Nat.le_refl 0, exponentPart_of_not_mark fun c hc => ?_⟩
      have hstops := hrest c hc
      simp only [extendsNumeral, Bool.or_eq_false_iff] at hstops
      simp [hstops.1.2, hstops.2]
  | cons c cs =>
      by_cases hmark : (c = 'e' || c = 'E') = true
      · have hne : cs ≠ [] := by
          rintro rfl
          rw [exponentPart_cons hmark] at h
          cases h
        rw [exponentPart_cons hmark] at h
        rw [List.cons_append, exponentPart_cons hmark, exponentSign_append hne]
        simp only [takeWhile_isDigit_append hrest]
        split_ifs at h ⊢
        cases h
        have hle := (List.takeWhile_prefix (l := (exponentSign cs).2.1) Char.isDigit).length_le
        have hlength := length_exponentSign cs
        refine ⟨?_, rfl⟩
        rw [List.length_cons]
        omega
      · rw [Bool.not_eq_true] at hmark
        have hnone (ds : List Char) : exponentPart (c :: ds) = .ok (none, 0) :=
          exponentPart_of_not_mark fun d hd => by rwa [← Option.mem_some_iff.1 hd]
        rw [hnone] at h
        cases h
        exact ⟨Nat.zero_le _, hnone _⟩

/-- A numeral ends where what follows does not go on with it. -/
theorem numeral_append (h : numeral negative cs = .ok (n, used)) :
    used ≤ cs.length ∧ numeral negative (cs ++ rest) = .ok (n, used) := by
  obtain ⟨hne, hzero, fraction, fractionLength, exponent, exponentLength, hfraction, hexponent, hn,
    hused⟩ := numeral_eq_ok_iff.1 h
  have hwhole := (List.takeWhile_prefix (l := cs) Char.isDigit).length_le
  obtain ⟨hfractionLe, hfraction'⟩ := fractionPart_append hrest hfraction
  rw [List.length_drop] at hfractionLe
  obtain ⟨hexponentLe, hexponent'⟩ := exponentPart_append hrest hexponent
  rw [List.length_drop] at hexponentLe
  refine ⟨by omega, numeral_eq_ok_iff.2 ?_⟩
  rw [takeWhile_isDigit_append hrest]
  refine ⟨hne, hzero, fraction, fractionLength, exponent, exponentLength, ?_, ?_, hn, hused⟩
  · rwa [List.drop_append_of_le_length hwhole]
  · rwa [List.drop_append_of_le_length (by omega)]

variable {v : Except SyntaxError Json}

/-- So is a whole numeral. -/
theorem ofNumeral_append (h : ofNumeral negative cs = (.number v, used)) :
    used ≤ cs.length ∧ ofNumeral negative (cs ++ rest) = (.number v, used) := by
  unfold ofNumeral at h ⊢
  cases hnumeral : numeral negative cs with
  | error fault =>
      rw [hnumeral] at h
      cases h
  | ok result =>
      obtain ⟨hle, happend⟩ := numeral_append hrest hnumeral
      rw [hnumeral] at h
      rw [happend]
      cases h
      exact ⟨hle, rfl⟩

omit hrest in
/-- A digit begins a numeral. -/
theorem ofChar_of_isDigit {c : Char} (h : c.isDigit = true) (cs : List Char) :
    ofChar c cs = ((ofNumeral false (c :: cs)).1, (ofNumeral false (c :: cs)).2 - 1) := by
  unfold ofChar
  split
  all_goals try cases h
  rw [if_pos h]

omit hrest in
/-- What begins like a numeral is one or breaks off. -/
theorem ofChar_of_numeral {c : Char} (hc : c = '-' ∨ c.isDigit = true) (cs : List Char) :
    (∃ v, (ofChar c cs).1 = .number v) ∨ ∃ fault, (ofChar c cs).1 = .broken fault := by
  have hnumeral (negative : Bool) (cs : List Char) : (∃ v, (ofNumeral negative cs).1 = .number v) ∨
      ∃ fault, (ofNumeral negative cs).1 = .broken fault := by
    unfold ofNumeral
    cases numeral negative cs with
    | error fault => exact .inr ⟨_, rfl⟩
    | ok result => exact .inl ⟨_, rfl⟩
  rcases hc with rfl | hc
  · exact hnumeral true cs
  · rw [ofChar_of_isDigit hc]
    exact hnumeral false (c :: cs)

/-- A numeral is read the same if nothing follows that extends it. -/
theorem ofChar_append {c : Char} (hc : c = '-' ∨ c.isDigit = true)
    (h : ofChar c cs = (.number v, used)) :
    used ≤ cs.length ∧ ofChar c (cs ++ rest) = (.number v, used) := by
  rcases hc with rfl | hc
  · exact ofNumeral_append hrest h
  · rw [ofChar_of_isDigit hc] at h ⊢
    have hv : (ofNumeral false (c :: cs)).1 = .number v := congrArg Prod.fst h
    have hused : (ofNumeral false (c :: cs)).2 - 1 = used := congrArg Prod.snd h
    have hnumeral : ofNumeral false (c :: cs) = (.number v, (ofNumeral false (c :: cs)).2) :=
      Prod.ext hv rfl
    obtain ⟨hle, happend⟩ := ofNumeral_append hrest hnumeral
    rw [List.cons_append] at happend
    rw [List.length_cons] at hle
    rw [happend]
    exact ⟨by omega, congrArg (Prod.mk _) hused⟩

end Numeral

/-! ## Cutting a text -/

/-- What is no blank begins a lexeme. -/
theorem all_cons {c : Char} (h : isBlank c = false) (cs : List Char) :
    all (c :: cs) = (ofChar c cs).1 :: all (cs.drop (ofChar c cs).2) := by
  rw [all, if_neg (by simp [h])]

/-- Blanks are passed over. -/
theorem all_blank {c : Char} (h : isBlank c = true) (cs : List Char) : all (c :: cs) = all cs := by
  rw [all, if_pos h]

/-- Only the empty text has no lexemes, but for blanks. -/
theorem eq_nil_of_all_eq_nil {cs : List Char} (hcs : ∀ c ∈ cs, isBlank c = false) (h : all cs = []) :
    cs = [] := by
  cases cs with
  | nil => rfl
  | cons c cs =>
      rw [all_cons (hcs c List.mem_cons_self)] at h
      cases h

/-- Whether a text is cut into lexemes by itself, whatever follows. -/
def AlwaysCutsInto (text : String) (lexemes : List Lexeme) : Prop :=
  ∀ rest, all (text.toList ++ rest) = lexemes ++ all rest

/-- Whether a text is cut into lexemes by itself, as long as what follows does not go on with a
numeral. -/
def CutsInto (text : String) (lexemes : List Lexeme) : Prop :=
  ∀ rest, (∀ c ∈ rest.head?, extendsNumeral c = false) → all (text.toList ++ rest) = lexemes ++ all rest

variable {a b : String} {la lb : List Lexeme}

namespace AlwaysCutsInto

/-- What is cut so whatever follows is cut so by itself. -/
theorem cutsInto (h : AlwaysCutsInto a la) : CutsInto a la :=
  fun rest _ => h rest

/-- Texts one after the other are cut into the lexemes of both. -/
theorem append (ha : AlwaysCutsInto a la) (hb : CutsInto b lb) : CutsInto (a ++ b) (la ++ lb) := by
  intro rest hrest
  rw [String.toList_append, List.append_assoc, ha, hb rest hrest, List.append_assoc]

/-- Blanks are no lexemes. -/
theorem blank {text : String} (h : ∀ c ∈ text.toList, isBlank c = true) : AlwaysCutsInto text [] := by
  intro rest
  generalize text.toList = cs at h
  induction cs with
  | nil => rfl
  | cons c cs ih =>
      obtain ⟨hc, hcs⟩ := List.forall_mem_cons.1 h
      rw [List.cons_append, all_blank hc, ih hcs]

/-- A string in quotes is one lexeme. -/
theorem quote (s : String) : AlwaysCutsInto (Json.quote s) [.text (.ok s)] := by
  intro rest
  obtain ⟨hfault, hpieces, hlength⟩ := quoted_escaped s.toList rest
  have hlexeme : ofChar '\x22' (s.toList.flatMap escape ++ '\x22' :: rest)
      = (.text (.ok s), (s.toList.flatMap escape).length + 1) := by
    show (ofQuoted _, _) = _
    rw [hlength, ofQuoted, hfault, hpieces]
    show (Lexeme.text (.ok (String.ofList s.toList)), _) = _
    rw [String.ofList_toList]
  have htext : (Json.quote s).toList ++ rest = '\x22' :: (s.toList.flatMap escape ++ '\x22' :: rest) := by
    simp [Json.quote]
  rw [htext, all_cons rfl, hlexeme, List.drop_length_add_append]
  rfl

end AlwaysCutsInto

namespace CutsInto

theorem append (ha : CutsInto a la) (hb : CutsInto b lb)
    (hhead : ∀ c ∈ b.toList.head?, extendsNumeral c = false) : CutsInto (a ++ b) (la ++ lb) := by
  intro rest hrest
  have hboth : ∀ c ∈ (b.toList ++ rest).head?, extendsNumeral c = false := by
    cases hb : b.toList with
    | nil => exact hrest
    | cons c cs =>
        rw [hb] at hhead
        exact hhead
  rw [String.toList_append, List.append_assoc, ha _ hboth, hb _ hrest, List.append_assoc]

/-- A numeral by itself is one in front of others. -/
theorem number {text : String} {c : Char} {cs : List Char} {v : Except SyntaxError Json}
    (htext : text.toList = c :: cs) (hc : c = '-' ∨ c.isDigit = true)
    (hcs : ∀ c ∈ text.toList, isBlank c = false) (h : all text.toList = [.number v]) :
    CutsInto text [.number v] := by
  intro rest hrest
  rw [htext] at h hcs ⊢
  obtain ⟨hblank, hcs⟩ := List.forall_mem_cons.1 hcs
  rw [all_cons hblank] at h
  obtain ⟨hv, hnone⟩ := List.cons.inj h
  obtain ⟨hle, happend⟩ := ofChar_append hrest hc (Prod.ext hv rfl)
  have hdrop := eq_nil_of_all_eq_nil (fun d hd => hcs d (List.mem_of_mem_drop hd)) hnone
  rw [List.cons_append, all_cons hblank, happend, List.drop_append_of_le_length hle, hdrop]
  rfl

end CutsInto

end Lexeme

/-! ## Whole numbers -/

namespace Numeral

/-- Digits are all read if their number fits. -/
theorem accumulate_eq {cs : List Char} {significand : Nat}
    (h : Nat.ofDigitChars 10 cs significand < UInt64.size) :
    accumulate significand cs = (Nat.ofDigitChars 10 cs significand, []) := by
  induction cs generalizing significand with
  | nil => rfl
  | cons c cs ih =>
      rw [Nat.ofDigitChars_cons] at h ⊢
      have hnext : ¬ UInt64.size ≤ 10 * significand + digitValue c := by
        rw [Nat.ofDigitChars_eq_ofDigitChars_zero] at h
        have hpos := Nat.one_le_pow cs.length 10 (by decide)
        have hle := Nat.le_mul_of_pos_left (10 * significand + digitValue c) hpos
        unfold digitValue at hle ⊢
        omega
      exact (if_neg hnext).trans (ih h)

end Numeral

namespace Lexeme

open Store.Numeral (isDigit_of_mem_toDigits digitsValue)

variable {m : Nat}

/-- A number begins with zero only if it is zero. -/
theorem length_toDigits_le_one (h : (Nat.toDigits 10 m).head? = some '0') :
    (Nat.toDigits 10 m).length ≤ 1 := by
  obtain ⟨cs, hcs⟩ := List.head?_eq_some_iff.1 h
  by_contra hlong
  have hdigits : ∀ c ∈ cs, c.isDigit = true :=
    fun c hc => isDigit_of_mem_toDigits (hcs ▸ List.mem_cons_of_mem _ hc)
  have hvalue : digitsValue cs = m := by
    rw [← Store.Numeral.digitsValue_toDigits m, hcs, ← List.singleton_append,
      Store.Numeral.digitsValue_append]
    show _ = 0 * _ + _
    omega
  have hlt := Store.Numeral.digitsValue_lt hdigits
  rw [hcs, List.length_cons] at hlong
  rw [hvalue] at hlt
  have hle := (Nat.length_toDigits_le_iff (b := 10) (by decide) (by omega)).2 hlt
  rw [hcs, List.length_cons] at hle
  omega

/-- Digits are read as a whole numeral. -/
theorem numeral_toDigits (negative : Bool) (m : Nat) :
    numeral negative (Nat.toDigits 10 m)
      = .ok (⟨negative, Nat.toDigits 10 m, none, none⟩, (Nat.toDigits 10 m).length) := by
  rw [numeral_eq_ok_iff, List.takeWhile_eq_self_iff.2 fun c => isDigit_of_mem_toDigits]
  refine ⟨Nat.toDigits_ne_nil, length_toDigits_le_one, none, 0, none, 0, ?_, ?_, rfl, rfl⟩ <;>
    simp [fractionPart, exponentPart]

/-- The digits of a number below `2 ^ 64` are read as that number. -/
theorem ofNumeral_toDigits (negative : Bool) {m : Nat} (h : m < UInt64.size) :
    ofNumeral negative (Nat.toDigits 10 m)
      = (.number (.ok (Numeral.wholeValue ⟨negative, Nat.toDigits 10 m, none, none⟩ m)),
        (Nat.toDigits 10 m).length) := by
  have haccumulate : Numeral.accumulate 0 (Nat.toDigits 10 m) = (m, []) := by
    rw [Numeral.accumulate_eq (by rwa [Nat.ofDigitChars_ten_toDigits]), Nat.ofDigitChars_ten_toDigits]
  rw [ofNumeral, numeral_toDigits]
  simp [Numeral.value, haccumulate, Numeral.accumulate]

/-- No numeral begins with a blank. -/
theorem isBlank_of_numeral {c : Char} (h : c = '-' ∨ c.isDigit = true) : isBlank c = false := by
  rcases h with rfl | h
  · rfl
  · unfold isBlank
    simp only [Bool.or_eq_false_iff, decide_eq_false_iff_not]
    refine ⟨⟨⟨?_, ?_⟩, ?_⟩, ?_⟩ <;> rintro rfl <;> cases h

/-- A natural number below `2 ^ 64` is read from its digits. -/
theorem CutsInto.natural (h : m < UInt64.size) :
    CutsInto (toString m) [.number (.ok (.int m))] := by
  have htext : (toString m).toList = Nat.toDigits 10 m := by
    rw [Nat.toString_eq_repr, Nat.toList_repr]
  obtain ⟨c, cs, hcs⟩ := List.exists_cons_of_ne_nil (Nat.toDigits_ne_nil (b := 10) (n := m))
  have hc : c.isDigit = true := isDigit_of_mem_toDigits (hcs ▸ List.mem_cons_self)
  refine .number (htext.trans hcs) (.inr hc) (fun d hd => ?_) ?_
  · exact isBlank_of_numeral (.inr (isDigit_of_mem_toDigits (htext ▸ hd)))
  · rw [htext, hcs, all_cons (isBlank_of_numeral (.inr hc)), ofChar_of_isDigit hc, ← hcs,
      ofNumeral_toDigits false h, hcs]
    simp [all, Numeral.wholeValue]

/-- A negative number within 64 bits is read from its sign and digits. -/
theorem CutsInto.negative (h : m + 1 ≤ 2 ^ 63) :
    CutsInto ("-" ++ (m + 1).repr) [.number (.ok (.int (Int.negSucc m)))] := by
  have htext : ("-" ++ (m + 1).repr).toList = '-' :: Nat.toDigits 10 (m + 1) := by
    rw [String.toList_append, Nat.toList_repr]
    rfl
  refine .number htext (.inl rfl) (fun d hd => isBlank_of_numeral ?_) ?_
  · rw [htext, List.mem_cons] at hd
    exact hd.imp_right isDigit_of_mem_toDigits
  · have hsize : m + 1 < UInt64.size := h.trans_lt (by decide)
    have hvalue : Numeral.wholeValue ⟨true, Nat.toDigits 10 (m + 1), none, none⟩ (m + 1)
        = .int (Int.negSucc m) := by
      have hleast : Int64.minValue.toInt.natAbs = 2 ^ 63 := rfl
      have hfits : ¬ (m + 1 = 0 || Int64.minValue.toInt.natAbs < m + 1) = true := by
        simp only [hleast, Bool.or_eq_true, decide_eq_true_eq]
        omega
      rw [Numeral.wholeValue, if_pos rfl, if_neg hfits]
      rfl
    have hlexeme : ofChar '-' (Nat.toDigits 10 (m + 1))
        = (.number (.ok (.int (Int.negSucc m))), (Nat.toDigits 10 (m + 1)).length) :=
      (ofNumeral_toDigits true hsize).trans (by rw [hvalue])
    rw [htext, all_cons rfl, hlexeme, List.drop_length, all]

/-- A whole number that fits 64 bits, with a sign or without, is one lexeme. -/
theorem CutsInto.int {n : Int} (hlow : -2 ^ 63 ≤ n) (hhigh : n < 2 ^ 64) :
    CutsInto (toString n) [.number (.ok (.int n))] := by
  cases n with
  | ofNat m => exact .natural (Int.ofNat_lt.1 hhigh)
  | negSucc m => exact .negative (by omega)

end Lexeme

end Tabula.Json
