/-!
# Three-valued truth

A comparison with null is neither true nor false. Conjunction is the least and disjunction the
greatest of its parts in the order false, unknown, true.
-/

namespace Tabula

/-- A truth value. -/
inductive Truth where
  | false
  | unknown
  | true
  deriving DecidableEq, Repr

namespace Truth

/-- The truth value of a decided question. -/
def ofBool : Bool → Truth
  | .true => true
  | .false => false

/-- The opposite; what is unknown stays unknown. -/
def not : Truth → Truth
  | true => false
  | unknown => unknown
  | false => true

/-- Conjunction. -/
def and : Truth → Truth → Truth
  | false, _ => false
  | _, false => false
  | true, b => b
  | unknown, _ => unknown

/-- Disjunction. -/
def or : Truth → Truth → Truth
  | true, _ => true
  | _, true => true
  | false, b => b
  | unknown, _ => unknown

/-- Whether a row with this truth value is kept. -/
def holds : Truth → Bool
  | true => .true
  | _ => .false

@[simp] theorem true_and (a : Truth) : and true a = a := by cases a <;> rfl
@[simp] theorem and_true (a : Truth) : and a true = a := by cases a <;> rfl
@[simp] theorem false_or (a : Truth) : or false a = a := by cases a <;> rfl
@[simp] theorem or_false (a : Truth) : or a false = a := by cases a <;> rfl

theorem and_assoc (a b c : Truth) : and (and a b) c = and a (and b c) := by
  cases a <;> cases b <;> cases c <;> rfl

theorem or_assoc (a b c : Truth) : or (or a b) c = or a (or b c) := by
  cases a <;> cases b <;> cases c <;> rfl

@[simp] theorem not_not (a : Truth) : a.not.not = a := by cases a <;> rfl

/-- A conjunction keeps a row when both parts do. -/
@[simp] theorem holds_and (a b : Truth) : (and a b).holds = (a.holds && b.holds) := by
  cases a <;> cases b <;> rfl

/-- A disjunction keeps a row when one of its parts does. -/
@[simp] theorem holds_or (a b : Truth) : (or a b).holds = (a.holds || b.holds) := by
  cases a <;> cases b <;> rfl

end Truth

end Tabula
