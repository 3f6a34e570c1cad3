import Mathlib.Algebra.Order.Field.Rat
import Mathlib.Order.Std
import Tabula.Store.Execute

/-!
# The order of cells

The order of cells comes from where they lie: null before all numbers, numbers by their exact value,
texts after them. So it is a total preorder, and so is the order of choices by the terms of an
ordering. Main statement: rows that are sorted by an ordering come in its order
(`pairwise_standsBefore`).
-/

namespace Tabula

open Decimal (Binary)

/-! ## Numbers -/

namespace Decimal.Binary

/-- The number that a binary fraction is. -/
def toRat (b : Binary) : ℚ := b.fraction.1 / b.fraction.2

theorem fraction_pos (b : Binary) : (0 : ℚ) < b.fraction.2 := by
  have hpos : 0 < b.fraction.2 := by
    unfold fraction
    rw [Nat.one_shiftLeft]
    exact Nat.two_pow_pos _
  exact_mod_cast hpos

theorem toRat_mul (b : Binary) : b.toRat * b.fraction.2 = b.fraction.1 :=
  div_mul_cancel₀ _ (fraction_pos b).ne'

/-- Whole numbers compare as rational numbers do. -/
theorem compare_cast (m n : Int) : compare (m : ℚ) (n : ℚ) = compare m n := by
  rcases lt_trichotomy m n with h | h | h
  · rw [compare_lt_iff_lt.2 h, compare_lt_iff_lt.2 (by exact_mod_cast h)]
  · rw [compare_eq_iff_eq.2 h, compare_eq_iff_eq.2 (by exact_mod_cast h)]
  · rw [compare_gt_iff_gt.2 h, compare_gt_iff_gt.2 (by exact_mod_cast h)]

/-- Numbers compare as their multiples do. -/
theorem compare_mul {x y c : ℚ} (hc : 0 < c) : compare (x * c) (y * c) = compare x y := by
  rcases lt_trichotomy x y with h | h | h
  · rw [compare_lt_iff_lt.2 h, compare_lt_iff_lt.2 (mul_lt_mul_of_pos_right h hc)]
  · rw [h, compare_eq_iff_eq.2 rfl, compare_eq_iff_eq.2 rfl]
  · rw [compare_gt_iff_gt.2 h, compare_gt_iff_gt.2 (mul_lt_mul_of_pos_right h hc)]

/-- Binary fractions are compared as the numbers that they are. -/
theorem compareTo_eq (a b : Binary) : a.compareTo b = compare a.toRat b.toRat := by
  have ha := fraction_pos a
  have hb := fraction_pos b
  unfold compareTo
  rw [← compare_mul (mul_pos ha hb), ← compare_cast]
  push_cast
  congr 1
  · rw [← mul_assoc, toRat_mul]
  · rw [mul_comm (a.fraction.2 : ℚ), ← mul_assoc, toRat_mul]

/-- A whole number is compared with a binary fraction as the number that this is. -/
theorem compareInt_eq (n : Int) (b : Binary) : b.compareInt n = compare (n : ℚ) b.toRat := by
  have hb := fraction_pos b
  unfold compareInt
  rw [← compare_mul hb, ← compare_cast]
  push_cast
  rw [toRat_mul]

end Decimal.Binary

namespace Cell

/-! ## Where cells lie -/

/-- Where a float lies: below all numbers, at a number, or above all numbers. -/
def lineOfFloat (x : Float) : Nat × ℚ :=
  match Binary.ofFloat? x with
  | some b => (2, b.toRat)
  | none => if isBelowAll x then (1, 0) else (3, 0)

/-- Where a cell lies: null first, then numbers, then texts. -/
def line : Cell → Nat × ℚ
  | null => (0, 0)
  | int n => (2, n.toInt)
  | real x => lineOfFloat x
  | text _ => (4, 0)

/-- The text of a cell that is one. -/
def letters : Cell → String
  | text s => s
  | _ => ""

theorem compare_int (m n : Int64) : Ord.compare m n = Ord.compare m.toInt n.toInt := by
  rcases lt_trichotomy m.toInt n.toInt with h | h | h
  · rw [Std.compare_eq_lt.2 h, Std.compare_eq_lt.2 (Int64.lt_iff_toInt_lt.2 h)]
  · obtain rfl := Int64.toInt_inj.1 h
    rw [Std.ReflOrd.compare_self, Std.ReflOrd.compare_self]
  · rw [Std.compare_eq_gt.2 h, Std.compare_eq_gt.2 (Int64.lt_iff_toInt_lt.2 h)]

/-- The order of where two numbers lie. -/
def compareLines (a b : Nat × ℚ) : Ordering := (Ord.compare a.1 b.1).then (Ord.compare a.2 b.2)

theorem compareIntReal_eq (n : Int64) (x : Float) :
    compareIntReal n x = compareLines (2, n.toInt) (lineOfFloat x) := by
  unfold compareIntReal lineOfFloat
  cases Binary.ofFloat? x with
  | some b => exact Decimal.Binary.compareInt_eq n.toInt b
  | none => cases isBelowAll x <;> rfl

theorem compareReal_eq (x y : Float) :
    compareReal x y = compareLines (lineOfFloat x) (lineOfFloat y) := by
  unfold compareReal lineOfFloat
  cases Binary.ofFloat? x with
  | some a => cases Binary.ofFloat? y with
    | some b => exact Decimal.Binary.compareTo_eq a b
    | none => cases isBelowAll y <;> rfl
  | none => cases Binary.ofFloat? y with
    | some b => cases isBelowAll x <;> rfl
    | none => cases isBelowAll x <;> cases isBelowAll y <;> rfl

theorem lineOfFloat_fst (x : Float) :
    (lineOfFloat x).1 = 1 ∨ (lineOfFloat x).1 = 2 ∨ (lineOfFloat x).1 = 3 := by
  unfold lineOfFloat
  cases Binary.ofFloat? x with
  | some b => exact .inr (.inl rfl)
  | none => cases isBelowAll x with
    | true => exact .inl rfl
    | false => exact .inr (.inr rfl)

/-- Cells are compared by where they lie, then by their text. -/
theorem compare_eq (a b : Cell) :
    compare a b = (compareLines a.line b.line).then (Ord.compare a.letters b.letters) := by
  have hempty : Ord.compare "" "" = .eq := Std.ReflOrd.compare_self
  cases a with
  | null => cases b with
    | real y =>
        show Ordering.lt = (compareLines (0, 0) (lineOfFloat y)).then _
        rw [compareLines]
        rcases lineOfFloat_fst y with h | h | h <;> rw [h] <;> rfl
    | _ => rfl
  | int m => cases b with
    | int n =>
        show Ord.compare m n = (Ord.compare (m.toInt : ℚ) (n.toInt : ℚ)).then (Ord.compare "" "")
        rw [compare_int, Decimal.Binary.compare_cast, hempty, Ordering.then_eq]
    | real y =>
        show compareIntReal m y = (compareLines (2, m.toInt) (lineOfFloat y)).then (Ord.compare "" "")
        rw [hempty, Ordering.then_eq, compareIntReal_eq]
    | _ => rfl
  | real x => cases b with
    | int n =>
        show (compareIntReal n x).swap
          = (compareLines (lineOfFloat x) (2, n.toInt)).then (Ord.compare "" "")
        rw [hempty, Ordering.then_eq, compareIntReal_eq, compareLines, compareLines,
          Ordering.swap_then, ← Std.OrientedOrd.eq_swap, ← Std.OrientedOrd.eq_swap]
    | real y =>
        show compareReal x y
          = (compareLines (lineOfFloat x) (lineOfFloat y)).then (Ord.compare "" "")
        rw [hempty, Ordering.then_eq, compareReal_eq]
    | null =>
        show Ordering.gt = (compareLines (lineOfFloat x) (0, 0)).then _
        rw [compareLines]
        rcases lineOfFloat_fst x with h | h | h <;> rw [h] <;> rfl
    | text t =>
        show Ordering.lt = (compareLines (lineOfFloat x) (4, 0)).then _
        rw [compareLines]
        rcases lineOfFloat_fst x with h | h | h <;> rw [h] <;> rfl
  | text s => cases b with
    | real y =>
        show Ordering.gt = (compareLines (4, 0) (lineOfFloat y)).then _
        rw [compareLines]
        rcases lineOfFloat_fst y with h | h | h <;> rw [h] <;> rfl
    | _ => rfl

/-- The order of cells is a total preorder. -/
instance : Std.TransCmp compare := by
  have h : compare = compareLex (compareLex (compareOn fun c => c.line.1) (compareOn fun c => c.line.2))
      (compareOn letters) := by
    funext a b
    exact compare_eq a b
  rw [h]
  infer_instance

end Cell

/-! ## Orderings -/

namespace Store

open Sql (Direction)

/-- The order of choices by the terms of an ordering. -/
def compareBy : List (Place × Direction) → Choice → Choice → Ordering
  | [] => fun _ _ => .eq
  | (p, .ascending) :: terms =>
      compareLex (fun a b => (cellAt a p).compare (cellAt b p)) (compareBy terms)
  | (p, .descending) :: terms =>
      compareLex (fun a b => (cellAt b p).compare (cellAt a p)) (compareBy terms)

/-- A choice stands no later than another if it is not greater. -/
theorem standsBefore_eq (terms : List (Place × Direction)) (a b : Choice) :
    standsBefore a b terms = (compareBy terms a b).isLE := by
  induction terms with
  | nil => rfl
  | cons term terms ih =>
      obtain ⟨p, direction⟩ := term
      cases direction with
      | ascending =>
          rw [compareBy, compareLex]
          cases h : (cellAt a p).compare (cellAt b p) with
          | eq => simpa [standsBefore, h] using ih
          | lt => simp [standsBefore, h]
          | gt => simp [standsBefore, h]
      | descending =>
          have hswap : (cellAt b p).compare (cellAt a p)
              = ((cellAt a p).compare (cellAt b p)).swap := Std.OrientedCmp.eq_swap
          rw [compareBy, compareLex, hswap]
          cases h : (cellAt a p).compare (cellAt b p) with
          | eq => simpa [standsBefore, h] using ih
          | lt => simp [standsBefore, h]
          | gt => simp [standsBefore, h]

/-- The order by an ordering is a total preorder. -/
theorem transCmp_compareBy (terms : List (Place × Direction)) : Std.TransCmp (compareBy terms) := by
  induction terms with
  | nil => exact { eq_swap := rfl, isLE_trans := fun _ _ => rfl }
  | cons term terms ih =>
      obtain ⟨p, direction⟩ := term
      cases direction with
      | ascending =>
          have hcells : Std.TransCmp fun a b : Choice => (cellAt a p).compare (cellAt b p) :=
            { eq_swap := Std.OrientedCmp.eq_swap, isLE_trans := Std.TransCmp.isLE_trans }
          rw [compareBy]
          infer_instance
      | descending =>
          have hcells : Std.TransCmp fun a b : Choice => (cellAt b p).compare (cellAt a p) :=
            { eq_swap := Std.OrientedCmp.eq_swap,
              isLE_trans := fun hab hbc => Std.TransCmp.isLE_trans hbc hab }
          rw [compareBy]
          infer_instance

/-- **Sorting sorts.** Choices that are sorted by an ordering come in its order. -/
theorem pairwise_standsBefore (terms : List (Place × Direction)) (chosen : List Choice) :
    (chosen.mergeSort fun a b => standsBefore a b terms).Pairwise
      fun a b => standsBefore a b terms = true := by
  have htrans := transCmp_compareBy terms
  apply List.pairwise_mergeSort
  · intro a b c hab hbc
    rw [standsBefore_eq] at *
    exact Std.TransCmp.isLE_trans hab hbc
  · intro a b
    have hswap : compareBy terms b a = (compareBy terms a b).swap := Std.OrientedCmp.eq_swap
    rw [standsBefore_eq, standsBefore_eq, hswap]
    cases compareBy terms a b <;> rfl

end Store

end Tabula
