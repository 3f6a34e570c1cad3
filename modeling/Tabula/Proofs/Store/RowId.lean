import Tabula.Proofs.Decimal.Binary
import Tabula.Store.Access.Tour

/-!
# Searches by row id

A search by row id looks for a whole number and finds the rows whose id it is. Main statement: it
finds the rows for which the comparison is true, unless it passes over a row that has the least id
that there can be, because the value that it is given is the float of that number (`holds_found`).
-/

namespace Tabula

open Decimal (Binary)

/-! ## Whole numbers among floats -/

/-- No float is the greatest number of 64 bits. -/
theorem fraction_ne_maxValue {x : Float} {b : Binary} (h : Binary.ofFloat? x = some b) :
    Int64.maxValue.toInt * b.fraction.2 ≠ b.fraction.1 := by
  have hmantissa := (Binary.isNormal_of_ofFloat? h).mantissa_lt
  have hmax : Int64.maxValue.toInt = 0x7fffffffffffffff := by decide
  rw [hmax]
  obtain ⟨negative, mantissa, exponent⟩ := b
  dsimp only at hmantissa
  intro heq
  unfold Binary.fraction at heq
  dsimp only at heq
  rw [Nat.one_shiftLeft, Nat.shiftLeft_eq] at heq
  have hpositive : 0 < 2 ^ (-exponent).toNat := Nat.two_pow_pos _
  rcases Int.le_total 0 exponent with hsign | hsign
  · have hzero : (-exponent).toNat = 0 := by omega
    rw [hzero] at heq
    cases hexponent : exponent.toNat with
    | zero =>
        rw [hexponent] at heq
        split at heq <;> omega
    | succ e =>
        -- An even number on the right, an odd one on the left.
        rw [hexponent, Nat.pow_succ, ← Nat.mul_assoc] at heq
        split at heq <;> omega
  · have hzero : exponent.toNat = 0 := by omega
    rw [hzero] at heq
    generalize 2 ^ (-exponent).toNat = denominator at heq hpositive
    split at heq <;> omega

/-- A binary fraction is a whole number if that times its denominator is its numerator. -/
theorem toInt?_eq_some_iff {b : Binary} {n : Int} :
    b.toInt? = some n ↔ n * b.fraction.2 = b.fraction.1 := by
  have hden : (b.fraction.2 : Int) ≠ 0 := by
    have hpositive : 0 < b.fraction.2 := by
      unfold Binary.fraction
      rw [Nat.one_shiftLeft]
      exact Nat.two_pow_pos _
    omega
  have htoInt : b.toInt? = if b.fraction.1 % b.fraction.2 = 0
      then some (b.fraction.1 / b.fraction.2) else none := rfl
  rw [htoInt]
  constructor
  · intro h
    split at h
    · next hmod =>
        rw [← Option.some.inj h]
        exact Int.ediv_mul_cancel (Int.dvd_of_emod_eq_zero hmod)
    · cases h
  · intro h
    rw [← h, if_pos (Int.mul_emod_left ..), Int.mul_ediv_cancel _ hden]

/-- No float is searched for as the least number of 64 bits. -/
theorem wholeOfFloat?_ne_minValue (x : Float) : Store.wholeOfFloat? x ≠ some Int64.minValue := by
  intro h
  unfold Store.wholeOfFloat? at h
  obtain ⟨b, -, h⟩ := Option.bind_eq_some_iff.1 h
  obtain ⟨n, -, h⟩ := Option.bind_eq_some_iff.1 h
  split at h
  · next hrange =>
      rw [Bool.and_eq_true, decide_eq_true_iff, decide_eq_true_iff] at hrange
      obtain ⟨hlow, hhigh⟩ := hrange
      have hmin : Int64.minValue.toInt = -0x8000000000000000 := by decide
      have hmax : Int64.maxValue.toInt = 0x7fffffffffffffff := by decide
      have hn := congrArg Int64.toInt (Option.some.inj h)
      rw [Int64.toInt_ofInt_of_le (by omega) (by omega)] at hn
      omega
  · cases h

/-- A whole number that is not the least one compares as equal to the floats that are searched for
as that number. -/
theorem compareIntReal_eq_iff_of_ne {n : Int64} (hn : n ≠ Int64.minValue) (x : Float) :
    Cell.compareIntReal n x = .eq ↔ Store.wholeOfFloat? x = some n := by
  unfold Cell.compareIntReal Store.wholeOfFloat?
  cases hb : Binary.ofFloat? x with
  | none =>
      dsimp only [bind, Option.bind]
      split <;> simp
  | some b =>
      have hcompare : b.compareInt n.toInt = .eq ↔ b.toInt? = some n.toInt := by
        rw [toInt?_eq_some_iff, Binary.compareInt, Int.compare_eq_eq]
      dsimp only [bind, Option.bind]
      rw [hcompare]
      constructor
      · intro h
        -- The bounds are excluded by the reading of a float as a whole number: the least by
        -- assumption, and the greatest because no float is equal to it.
        have hlow : Int64.minValue.toInt < n.toInt := by
          rcases Int.lt_or_eq_of_le (Int64.minValue_le_toInt n) with hlt | heq
          · exact hlt
          · exact absurd (Int64.toInt_inj.1 heq).symm hn
        have hhigh : n.toInt < Int64.maxValue.toInt := by
          rcases Int.lt_or_eq_of_le (Int64.toInt_le n) with hlt | heq
          · exact hlt
          · rw [toInt?_eq_some_iff, heq] at h
            exact absurd h (fraction_ne_maxValue hb)
        have hrange : (decide (Int64.minValue.toInt < n.toInt)
            && decide (n.toInt < Int64.maxValue.toInt)) = true := by
          rw [Bool.and_eq_true, decide_eq_true_iff, decide_eq_true_iff]
          exact ⟨hlow, hhigh⟩
        rw [h]
        dsimp only
        rw [if_pos hrange, Int64.ofInt_toInt]
      · intro h
        cases htoInt : b.toInt? with
        | none => simp [htoInt] at h
        | some m =>
            rw [htoInt] at h
            dsimp only at h
            split at h
            · next hrange =>
                obtain rfl := Option.some.inj h
                rw [Bool.and_eq_true, decide_eq_true_iff, decide_eq_true_iff] at hrange
                obtain ⟨hlow, hhigh⟩ := hrange
                have hmin : Int64.minValue.toInt = -0x8000000000000000 := by decide
                have hmax : Int64.maxValue.toInt = 0x7fffffffffffffff := by decide
                rw [Int64.toInt_ofInt_of_le (by omega) (by omega)]
            · cases h

/-- A whole number compares as equal to the floats that are searched for as that number, but for the
float of the least one. -/
theorem compareIntReal_eq_iff {n : Int64} {x : Float}
    (h : n = Int64.minValue → Cell.compareIntReal Int64.minValue x ≠ .eq) :
    Cell.compareIntReal n x = .eq ↔ Store.wholeOfFloat? x = some n := by
  by_cases hn : n = Int64.minValue
  · subst hn
    exact ⟨fun heq => absurd heq (h rfl), fun heq => absurd heq (wholeOfFloat?_ne_minValue x)⟩
  · exact compareIntReal_eq_iff_of_ne hn x

/-- Whether a cell is, when it is read as a number, the float of the least number of 64 bits. -/
def Cell.isLeastFloat (c : Cell) : Bool :=
  match c.toNumber with
  | .real x => Cell.compareIntReal Int64.minValue x = .eq
  | _ => false

namespace Store

/-! ## What a search looks for -/

/-- Whole numbers compare as equal if they are. -/
theorem compare_int_eq_iff (m n : Int64) : Cell.compare (.int m) (.int n) = .eq ↔ m = n := by
  have h : Ord.compare m n = .eq ↔ m = n := Std.LawfulEqOrd.compare_eq_iff_eq
  exact h

/-- A row id is equal to a value if it is the id that is looked for when the value is given. -/
theorem same_toNumber_iff {n : Int64} {value : Cell}
    (hn : n = Int64.minValue → value.isLeastFloat = false) :
    (Cell.int n).same value.toNumber = true ↔ soughtId? value = some (.int n) := by
  have hstore : Affinity.integer.store value = value.toNumber.toWhole := rfl
  rw [Cell.same, decide_eq_true_iff]
  unfold soughtId?
  rw [hstore]
  unfold Cell.isLeastFloat at hn
  generalize value.toNumber = number at hn
  cases number with
  | null => simp [Cell.compare, Cell.toWhole]
  | text s => simp [Cell.compare, Cell.toWhole]
  | int m =>
      rw [compare_int_eq_iff]
      simp [Cell.toWhole, eq_comm]
  | real x =>
      show Cell.compareIntReal n x = .eq ↔ _
      rw [compareIntReal_eq_iff fun hleast => by simpa using hn hleast]
      cases hwhole : wholeOfFloat? x with
      | none => simp [Cell.toWhole, hwhole]
      | some m => simp [Cell.toWhole, hwhole]

/-- A cell is the same as a whole number from either side. -/
theorem same_int_comm (n : Int64) (c : Cell) : c.same (.int n) = (Cell.int n).same c := by
  unfold Cell.same
  rw [Bool.eq_iff_iff, decide_eq_true_iff, decide_eq_true_iff]
  cases c with
  | null => simp [Cell.compare]
  | text s => simp [Cell.compare]
  | int m => rw [compare_int_eq_iff, compare_int_eq_iff, eq_comm]
  | real x =>
      show (Cell.compareIntReal n x).swap = .eq ↔ Cell.compareIntReal n x = .eq
      rw [Ordering.swap_eq_eq]

/-! ## What a search finds -/

@[simp] theorem holds_ofBool (b : Bool) : (Truth.ofBool b).holds = b := by
  cases b <;> rfl

/-- A cell is among others when it is not null and the same as one of them. -/
theorem holds_isAmong (c : Cell) (others : List Cell) :
    (c.isAmong others).holds = (!c.isNull && others.any c.same) := by
  unfold Cell.isAmong
  cases others with
  | nil => simp [Truth.holds]
  | cons first rest =>
      rw [List.isEmpty_cons, if_neg (by simp)]
      split
      · next hnull => simp [hnull, Truth.holds]
      · next hnull =>
          split
          · next hany => simp [hnull, hany, Truth.holds]
          · next hany =>
              have hany : (first :: rest).any c.same = false := by simpa using hany
              rw [hany, Bool.and_false]
              split <;> rfl

/-- Whether a place can be searched: if it has row ids, they are whole numbers. -/
def Choice.IsSearchable (choice : Choice) (p : Place) : Prop :=
  p.slot = .rowId → p.affinity = .integer ∧ ∃ n, cellAt choice p = .int n

/-- Whether a search by row id for a value passes over a row that it should find: one with the least
id, if the value is the float of that number. -/
def Place.passesOver (p : Place) (choice : Choice) (value : Cell) : Bool :=
  p.slot = .rowId && (cellAt choice p).same (.int Int64.minValue) && value.isLeastFloat

/-- Whether a search that answers a check passes over a row that it should find. -/
def Check.passesOver (choice : Choice) : Check → Bool
  | decided _ => false
  | value left method right => method = .eq && left.passesOver choice right
  | list left method right => method = .member && right.any (left.passesOver choice)
  | column left method right =>
      method = .eq && (left.passesOver choice (cellAt choice right)
        || right.passesOver choice (cellAt choice left))

/-- Whether searches answer a check for a choice of rows. -/
structure Check.IsSearchable (choice : Choice) (c : Check) : Prop where
  places : ∀ p ∈ c.places, choice.IsSearchable p
  passesOver_eq : c.passesOver choice = false

theorem toNumber_int (n : Int64) : (Cell.int n).toNumber = .int n := rfl

/-- A row with the least id is passed over for the float of that number alone. -/
theorem isLeastFloat_of_passesOver {choice : Choice} {p : Place} {value : Cell} {n : Int64}
    (hslot : p.slot = .rowId) (hcell : cellAt choice p = .int n)
    (h : p.passesOver choice value = false) (hn : n = Int64.minValue) :
    value.isLeastFloat = false := by
  have hsame : (Cell.int n).same (.int Int64.minValue) = true := by
    rw [Cell.same, decide_eq_true_iff, compare_int_eq_iff]
    exact hn
  unfold Place.passesOver at h
  rwa [hslot, hcell, hsame, decide_eq_true rfl, Bool.true_and, Bool.true_and] at h

/-- The number that is looked for is the same as the value, as far as row ids are concerned. -/
theorem same_of_soughtId?_some {n : Int64} {value key : Cell}
    (hn : n = Int64.minValue → value.isLeastFloat = false) (h : soughtId? value = some key) :
    (Cell.int n).same key.toNumber = (Cell.int n).same value.toNumber := by
  obtain ⟨m, rfl⟩ : ∃ m, key = .int m := by
    unfold soughtId? at h
    split at h
    · next m _ => exact ⟨m, (Option.some.inj h).symm⟩
    · cases h
  have hself : soughtId? (.int m) = some (.int m) := rfl
  rw [Bool.eq_iff_iff, same_toNumber_iff fun _ => rfl, same_toNumber_iff hn, h, hself]

/-- A value for which nothing is looked for is no row id. -/
theorem same_of_soughtId?_none {n : Int64} {value : Cell}
    (hn : n = Int64.minValue → value.isLeastFloat = false) (h : soughtId? value = none) :
    (Cell.int n).same value.toNumber = false := by
  rw [Bool.eq_false_iff]
  intro htrue
  rw [same_toNumber_iff hn, h] at htrue
  cases htrue

/-- Among converted values a row id is found as among those that are looked for. -/
theorem any_same_filterMap {n : Int64} {values : List Cell}
    (hn : ∀ value ∈ values, n = Int64.minValue → value.isLeastFloat = false) :
    ((values.filterMap soughtId?).map Cell.toNumber).any (Cell.int n).same
      = (values.map Cell.toNumber).any (Cell.int n).same := by
  induction values with
  | nil => rfl
  | cons value values ih =>
      have hvalue := hn value List.mem_cons_self
      have hrest := ih fun other hother => hn other (List.mem_cons_of_mem _ hother)
      cases hsought : soughtId? value with
      | none => simp [hsought, hrest, same_of_soughtId?_none hvalue hsought]
      | some key => simp [hsought, hrest, same_of_soughtId?_some hvalue hsought]

/-! ## What comparisons with a row id say -/

section

variable {choice : Choice} {p : Place} {n : Int64}

/-- A row id equals a value if it is the same as its number. -/
theorem holds_value (haffinity : p.affinity = .integer) (hcell : cellAt choice p = .int n)
    (value : Cell) :
    (Check.eval choice (.value p .eq value)).holds = (Cell.int n).same value.toNumber := by
  simp [Check.eval, compareCells, Comparison.isTextual, Comparison.holdsOn, haffinity,
    Affinity.meet, Affinity.isNumeric, hcell, toNumber_int]

/-- A row id is in a list if it is the same as the number of one of the values. -/
theorem holds_list (haffinity : p.affinity = .integer) (hcell : cellAt choice p = .int n)
    (values : List Cell) :
    (Check.eval choice (.list p .member values)).holds
      = (values.map Cell.toNumber).any (Cell.int n).same := by
  have hbound : convertBound p = Cell.toNumber := by
    funext value
    simp [convertBound, haffinity, Affinity.meet, Affinity.isNumeric]
  simp only [Check.eval, haffinity, hcell, Affinity.meet, Affinity.isNumeric, if_true,
    toNumber_int, Comparison.holdsOnList, holds_isAmong, hbound, Cell.isNull,
    Bool.not_false, Bool.true_and]

/-- Both sides of a comparison are read as numbers if the column of either is whole. -/
theorem meet_integer {left right : Affinity} (h : left = .integer ∨ right = .integer) (a b : Cell) :
    Affinity.meet (some left) (some right) a b = (a.toNumber, b.toNumber) := by
  rcases h with rfl | rfl
  · rfl
  · simp [Affinity.meet, Affinity.isNumeric]

/-- A row id equals a column if it is the same as its number. -/
theorem holds_column_left (haffinity : p.affinity = .integer) (hcell : cellAt choice p = .int n)
    (right : Place) :
    (Check.eval choice (.column p .eq right)).holds
      = (Cell.int n).same (cellAt choice right).toNumber := by
  simp only [Check.eval, compareCells, Comparison.isTextual, Bool.false_eq_true, if_false,
    Comparison.holdsOn, holds_ofBool]
  rw [meet_integer (.inl haffinity), hcell, toNumber_int]

/-- So it does from the other side. -/
theorem holds_column_right (haffinity : p.affinity = .integer) (hcell : cellAt choice p = .int n)
    (left : Place) :
    (Check.eval choice (.column left .eq p)).holds
      = (Cell.int n).same (cellAt choice left).toNumber := by
  simp only [Check.eval, compareCells, Comparison.isTextual, Bool.false_eq_true, if_false,
    Comparison.holdsOn, holds_ofBool]
  rw [meet_integer (.inr haffinity), hcell, toNumber_int, same_int_comm]

/-- A row that is found by its id is one whose id equals the value, but for the least float. -/
theorem holds_foundById_value (haffinity : p.affinity = .integer) (hcell : cellAt choice p = .int n)
    {value : Cell} (hn : n = Int64.minValue → value.isLeastFloat = false) :
    (Check.foundById choice p (.value p .eq value)).holds = (Cell.int n).same value.toNumber := by
  simp only [Check.foundById]
  cases hsought : soughtId? value with
  | none => exact (same_of_soughtId?_none hn hsought).symm
  | some key =>
      dsimp only
      rw [holds_value haffinity hcell, same_of_soughtId?_some hn hsought]

/-- In a comparison of two columns, the row id at one place is looked for by what is held at the
other. -/
theorem foundById_column (sought left right : Place) (method : Comparison) :
    Check.foundById choice sought (.column left method right)
      = Check.foundById choice sought
          (.value sought method (cellAt choice (if sought = left then right else left))) :=
  rfl

end

/-! ## Searches -/

open Access (Narrowing)

/-- Equality is the only method of a comparison with one cell that a search by row id answers. -/
theorem eq_of_isLookup {method : Comparison} {narrowing : Narrowing}
    (h : Narrowing.ofMethod? method = some narrowing) (hlookup : narrowing.isLookup = true) :
    method = .eq := by
  cases method with
  | eq => rfl
  | lt | le | gt | ge =>
      obtain rfl := Option.some.inj h
      cases hlookup
  | ne | member | notMember | like | unlike => cases h

/-- **A search by row id answers a comparison.** If it passes over no row, an equality or a membership
that a search answers is true of the rows that the search finds. -/
theorem holds_found {choice : Choice} {sought : Place} {c : Check} {narrowing : Narrowing}
    (hsought : sought ∈ c.places) (hsearchable : c.IsSearchable choice)
    (hnarrowing : Narrowing.ofCheck? c = some narrowing) (hlookup : narrowing.isLookup = true) :
    (c.found choice sought).holds = (c.eval choice).holds := by
  unfold Check.found
  cases hslot : sought.slot with
  | field position => rfl
  | rowId =>
      obtain ⟨haffinity, n, hcell⟩ := hsearchable.places sought hsought hslot
      have hfound := hsearchable.passesOver_eq
      cases c with
      | decided holds => simp [Check.places] at hsought
      | value left method right =>
          obtain rfl : sought = left := by simpa [Check.places] using hsought
          obtain rfl := eq_of_isLookup hnarrowing hlookup
          rw [Check.passesOver, decide_eq_true rfl, Bool.true_and] at hfound
          have hn := isLeastFloat_of_passesOver hslot hcell hfound
          show (Check.foundById choice sought (.value sought .eq right)).holds = _
          rw [holds_foundById_value haffinity hcell hn, holds_value haffinity hcell]
      | list left method right =>
          obtain rfl : sought = left := by simpa [Check.places] using hsought
          obtain rfl : method = .member := by
            cases method with
            | member => rfl
            | _ => cases hnarrowing
          rw [Check.passesOver, decide_eq_true rfl, Bool.true_and, List.any_eq_false] at hfound
          have hn : ∀ value ∈ right, n = Int64.minValue → value.isLeastFloat = false :=
            fun value hmem => isLeastFloat_of_passesOver hslot hcell (by simpa using hfound value hmem)
          simp only [Check.foundById]
          rw [holds_list haffinity hcell, holds_list haffinity hcell, any_same_filterMap hn]
      | column left method right =>
          obtain rfl := eq_of_isLookup hnarrowing hlookup
          rw [Check.passesOver, decide_eq_true rfl, Bool.true_and, Bool.or_eq_false_iff] at hfound
          have hends : sought = left ∨ sought = right := by simpa [Check.places] using hsought
          show (Check.foundById choice sought (.column left .eq right)).holds = _
          rw [foundById_column]
          -- The row id may stand on either side, and the value to look for on the other.
          by_cases hleft : sought = left
          · subst hleft
            have hn := isLeastFloat_of_passesOver hslot hcell hfound.1
            rw [if_pos rfl, holds_foundById_value haffinity hcell hn,
              holds_column_left haffinity hcell]
          · obtain rfl := hends.resolve_left hleft
            have hn := isLeastFloat_of_passesOver hslot hcell hfound.2
            rw [if_neg hleft, holds_foundById_value haffinity hcell hn,
              holds_column_right haffinity hcell]

end Store

end Tabula
