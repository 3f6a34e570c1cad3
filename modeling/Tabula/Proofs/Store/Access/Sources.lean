import Mathlib.Data.Nat.Bitwise
import Tabula.Store.Access.Term

/-!
# Sets of sources as sets

The operations on sets of sources, told by which sources are in the result.
-/

namespace Tabula.Store.Access.Sources

@[simp] theorem has_none (n : Nat) : none.has n = false :=
  Nat.zero_testBit n

/-- The set of one source has that source alone. -/
@[simp] theorem has_one (m n : Nat) : (one m).has n = decide (m = n) := by
  unfold has one
  rw [Nat.one_shiftLeft, Nat.testBit_two_pow]

/-- A union has what one of the two sets has. -/
@[simp] theorem has_union (a b : Sources) (n : Nat) : (a.union b).has n = (a.has n || b.has n) :=
  Nat.testBit_or ..

/-- An intersection has what both sets have. -/
@[simp] theorem has_inter (a b : Sources) (n : Nat) : (a.inter b).has n = (a.has n && b.has n) :=
  Nat.testBit_and ..

/-- Two sets with the same sources are the same. -/
theorem ext_has {a b : Sources} (h : ∀ n, a.has n = b.has n) : a = b := by
  cases a
  cases b
  congr 1
  exact Nat.eq_of_testBit_eq h

/-- A set lies within another if that has all its sources. -/
theorem isWithin_iff {a b : Sources} :
    a.isWithin b = true ↔ ∀ n, a.has n = true → b.has n = true := by
  unfold isWithin
  rw [decide_eq_true_iff]
  constructor
  · intro h n hn
    have hinter := congrArg (fun s => s.has n) h
    simp only [has_inter, hn, Bool.true_and] at hinter
    exact hinter
  · intro h
    apply ext_has
    intro n
    rw [has_inter]
    cases ha : a.has n with
    | false => rfl
    | true => simpa using h n ha

/-- Nothing but the empty set lies within the empty set. -/
theorem isWithin_none {a : Sources} (h : a.isWithin none = true) : a = none := by
  apply ext_has
  intro n
  rw [has_none]
  cases ha : a.has n with
  | false => rfl
  | true => simpa using isWithin_iff.1 h n ha

/-- The empty set lies within every set. -/
theorem none_isWithin (a : Sources) : none.isWithin a = true :=
  isWithin_iff.2 fun n h => by simp at h

/-- Two sets meet if they have a source in common. -/
theorem meets_iff {a b : Sources} :
    a.meets b = true ↔ ∃ n, a.has n = true ∧ b.has n = true := by
  unfold meets
  rw [decide_eq_true_iff]
  constructor
  · intro h
    obtain ⟨n, hn⟩ := Nat.exists_testBit_of_ne_zero h
    have hn : (a.inter b).has n = true := hn
    rw [has_inter, Bool.and_eq_true] at hn
    exact ⟨n, hn⟩
  · rintro ⟨n, ha, hb⟩ hzero
    have hn : (a.inter b).has n = true := by rw [has_inter, ha, hb]; rfl
    unfold has at hn
    rw [hzero, Nat.zero_testBit] at hn
    simp at hn

/-- The set of a list has the members of the list. -/
theorem has_ofList {ns : List Nat} {n : Nat} : (ofList ns).has n = true ↔ n ∈ ns := by
  have h : ∀ s : Sources,
      (ns.foldl (fun s n => s.union (one n)) s).has n = true ↔ s.has n = true ∨ n ∈ ns := by
    induction ns with
    | nil => simp
    | cons m ns ih =>
        intro s
        rw [List.foldl_cons, ih, has_union, Bool.or_eq_true, has_one, decide_eq_true_iff,
          List.mem_cons, or_assoc, eq_comm (a := m)]
  rw [ofList, h, has_none]
  simp

end Tabula.Store.Access.Sources
