import Mathlib.Data.List.Nodup
import Tabula.Proofs.Logic.Formula
import Tabula.Proofs.Store.Tables

/-!
# Located columns

Where the columns of a statement are. Main statements: a column is located in the one source that
goes by the name in its reference (`locate_eq`), where it is located it is in a source that goes by
the name (`eq_place_of_locate`), and the checks of a condition have the truth value of the condition
(`eval_of_checksOf`).
-/

namespace Tabula.Store

open Formula (atomsOf)
open Except (bind_eq_ok_iff map_eq_ok_iff)
open Sql (ColumnRef Condition JoinStep)

variable {sources : List Source}

/-! ## Places -/

/-- A column is declared under its name if no other column has the same name. -/
theorem declared?_eq {rel : Relation} {name : String} {position : Nat}
    (hdistinct : rel.fields.Pairwise fun f g => sameName f.name g.name = false)
    (h : rel.fields.findIdx? (·.name = name) = some position) :
    rel.declared? name = some (rel.slotAt position) := by
  obtain ⟨hlt, hname, -⟩ := List.findIdx?_eq_some_iff_getElem.1 h
  have hposition : rel.position? name = some position := by
    unfold Relation.position?
    refine List.findIdx?_eq_some_iff_getElem.2 ⟨hlt, ?_, ?_⟩
    · rw [of_decide_eq_true hname]
      exact sameName_self name
    · intro j hj
      rw [← of_decide_eq_true hname, Bool.not_eq_true]
      exact List.pairwise_iff_getElem.1 hdistinct j position _ hlt hj
  unfold Relation.declared?
  rw [hposition]
  rfl

/-- A join is prepared if both its columns are located. -/
theorem checkOfStep_eq_ok_iff {step : JoinStep} {check : Check} :
    checkOfStep sources step = .ok check ↔ ∃ left right, locate sources step.left = .ok left ∧
      locate sources step.right = .ok right ∧ check = .column left step.method right := by
  unfold checkOfStep
  constructor
  · intro h
    obtain ⟨left, hleft, h⟩ := bind_eq_ok_iff.1 h
    obtain ⟨right, hright, h⟩ := bind_eq_ok_iff.1 h
    exact ⟨left, right, hleft, hright, (Except.ok.inj h).symm⟩
  · rintro ⟨left, right, hleft, hright, rfl⟩
    rw [hleft, hright]
    rfl

/-- A conjunction is prepared part by part, unless one of them never holds. -/
theorem checksOf_all {part : Condition} {parts : List Condition} :
    checksOf sources (.all (part :: parts)) =
      if someNeverHolds (part :: parts) then .ok (.atom (.decided false))
      else .all <$> checksOfEach sources (part :: parts) := by
  rw [checksOf]
  simp

/-- Whether a check is decided without looking at a row, or is that of one of some comparisons. -/
def Check.IsAmong (sources : List Source) (tests : List Sql.Test) (check : Check) : Prop :=
  (∃ holds, check = .decided holds) ∨ ∃ t ∈ tests, checkOfTest sources t = .ok check

/-- A check of some comparisons is one of more. -/
theorem Check.IsAmong.mono {tests tests' : List Sql.Test} {check : Check}
    (h : check.IsAmong sources tests) (hsubset : ∀ t ∈ tests, t ∈ tests') :
    check.IsAmong sources tests' := by
  rcases h with h | ⟨t, ht, hcheck⟩
  · exact .inl h
  · exact .inr ⟨t, hsubset t ht, hcheck⟩

mutual

/-- The checks of a condition are those of its comparisons. -/
theorem isAmong_of_checksOf : (c : Condition) → {checks : Formula Check} →
    checksOf sources c = .ok checks → ∀ check ∈ checks.atoms, check.IsAmong sources c.atoms
  | .atom t, checks, h, check, hcheck => by
      rw [checksOf, map_eq_ok_iff] at h
      obtain ⟨one, hone, rfl⟩ := h
      obtain rfl := List.mem_singleton.1 hcheck
      exact .inr ⟨t, List.mem_singleton.2 rfl, hone⟩
  | .all [], checks, h, check, hcheck => by
      rw [checksOf] at h
      obtain rfl := Except.ok.inj h
      exact .inl ⟨true, List.mem_singleton.1 hcheck⟩
  | .all (part :: parts), checks, h, check, hcheck => by
      rw [checksOf_all] at h
      split at h
      · obtain rfl := Except.ok.inj h
        exact .inl ⟨false, List.mem_singleton.1 hcheck⟩
      · obtain ⟨each, heach, rfl⟩ := map_eq_ok_iff.1 h
        exact isAmong_of_checksOfEach (part :: parts) heach check hcheck
  | .any parts, checks, h, check, hcheck => by
      rw [checksOf, map_eq_ok_iff] at h
      obtain ⟨each, heach, rfl⟩ := h
      exact isAmong_of_checksOfEach parts heach check hcheck

theorem isAmong_of_checksOfEach : (parts : List Condition) → {each : List (Formula Check)} →
    checksOfEach sources parts = .ok each → ∀ check ∈ atomsOf each,
      check.IsAmong sources (atomsOf parts)
  | [], each, h, check, hcheck => by
      rw [checksOfEach] at h
      obtain rfl := Except.ok.inj h
      cases hcheck
  | part :: parts, each, h, check, hcheck => by
      rw [checksOfEach] at h
      obtain ⟨first, hfirst, h⟩ := bind_eq_ok_iff.1 h
      obtain ⟨rest, hrest, h⟩ := bind_eq_ok_iff.1 h
      obtain rfl := Except.ok.inj h
      rcases List.mem_append.1 hcheck with hcheck | hcheck
      · exact (isAmong_of_checksOf part hfirst check hcheck).mono
          fun t ht => List.mem_append_left _ ht
      · exact (isAmong_of_checksOfEach parts hrest check hcheck).mono
          fun t ht => List.mem_append_right _ ht

end

/-! ## Conditions -/

/-- Whether the checks of a comparison have a truth value for a choice of rows. -/
def Reads (sources : List Source) (choice : Choice) (v : Sql.Test → Truth) (t : Sql.Test) : Prop :=
  ∀ check, checkOfTest sources t = .ok check → check.eval choice = v t

variable {choice : Choice} {v : Sql.Test → Truth}

/-- No value is in an empty list. -/
theorem Reads.isAmongNone {t : Sql.Test} (h : Reads sources choice v t) (hmethod : t.method = .member)
    (hoperand : t.operand = .list []) : v t = .false := by
  have hcheck : checkOfTest sources t = .ok (.decided false) := by
    unfold checkOfTest
    rw [hoperand, hmethod]
    rfl
  exact (h _ hcheck).symm

mutual

/-- A condition that asks for a column among no values is false. -/
theorem eval_of_neverHolds : (c : Condition) → neverHolds c = true →
    (∀ t ∈ c.atoms, Reads sources choice v t) → c.eval v = .false
  | .atom t, h, hv => by
      rw [neverHolds, Bool.and_eq_true, decide_eq_true_iff] at h
      obtain ⟨hmethod, hoperand⟩ := h
      cases hlist : t.operand with
      | value _ => rw [hlist] at hoperand; cases hoperand
      | list vs => cases vs with
        | nil => exact (hv t (List.mem_singleton.2 rfl)).isAmongNone hmethod hlist
        | cons _ _ => rw [hlist] at hoperand; cases hoperand
  | .all parts, h, hv => by
      rw [neverHolds] at h
      exact eval_of_someNeverHolds parts h hv
  | .any [], h, _ => by
      rw [neverHolds] at h
      · cases h
      · simp
  | .any [part], h, hv => by
      rw [neverHolds] at h
      rw [Formula.eval, Formula.evalAny, Formula.evalAny, Truth.or_false]
      exact eval_of_neverHolds part h fun t ht => hv t (List.mem_append_left _ ht)
  | .any (_ :: _ :: _), h, _ => by
      rw [neverHolds] at h
      · cases h
      · simp

theorem eval_of_someNeverHolds : (parts : List Condition) → someNeverHolds parts = true →
    (∀ t ∈ atomsOf parts, Reads sources choice v t) → Formula.evalAll v parts = .false
  | [], h, _ => by cases h
  | part :: parts, h, hv => by
      rw [someNeverHolds, Bool.or_eq_true] at h
      rw [Formula.evalAll]
      rcases h with h | h
      · rw [eval_of_neverHolds part h fun t ht => hv t (List.mem_append_left _ ht)]
        rfl
      · rw [eval_of_someNeverHolds parts h fun t ht => hv t (List.mem_append_right _ ht)]
        cases Formula.eval v part <;> rfl

end

mutual

/-- **Checks read as their condition.** The checks of a condition have the truth value of the
condition with its comparisons read as their checks. -/
theorem eval_of_checksOf : (c : Condition) → {checks : Formula Check} →
    checksOf sources c = .ok checks → (∀ t ∈ c.atoms, Reads sources choice v t) →
      checks.eval (Check.eval choice) = c.eval v
  | .atom t, checks, h, hv => by
      rw [checksOf, map_eq_ok_iff] at h
      obtain ⟨one, hone, rfl⟩ := h
      exact hv t (List.mem_singleton.2 rfl) one hone
  | .all [], checks, h, _ => by
      rw [checksOf] at h
      obtain rfl := Except.ok.inj h
      rfl
  | .all (part :: parts), checks, h, hv => by
      rw [checksOf_all] at h
      split at h
      · next hnever =>
          obtain rfl := Except.ok.inj h
          exact (eval_of_someNeverHolds (part :: parts) hnever hv).symm
      · obtain ⟨each, heach, rfl⟩ := map_eq_ok_iff.1 h
        exact (eval_of_checksOfEach (part :: parts) heach hv).1
  | .any parts, checks, h, hv => by
      rw [checksOf, map_eq_ok_iff] at h
      obtain ⟨each, heach, rfl⟩ := h
      exact (eval_of_checksOfEach parts heach hv).2

theorem eval_of_checksOfEach : (parts : List Condition) → {each : List (Formula Check)} →
    checksOfEach sources parts = .ok each → (∀ t ∈ atomsOf parts, Reads sources choice v t) →
      Formula.evalAll (Check.eval choice) each = Formula.evalAll v parts ∧
        Formula.evalAny (Check.eval choice) each = Formula.evalAny v parts
  | [], each, h, _ => by
      rw [checksOfEach] at h
      obtain rfl := Except.ok.inj h
      exact ⟨rfl, rfl⟩
  | part :: parts, each, h, hv => by
      rw [checksOfEach] at h
      obtain ⟨first, hfirst, h⟩ := bind_eq_ok_iff.1 h
      obtain ⟨rest, hrest, h⟩ := bind_eq_ok_iff.1 h
      obtain rfl := Except.ok.inj h
      have hone := eval_of_checksOf part hfirst fun t ht => hv t (List.mem_append_left _ ht)
      obtain ⟨hall, hany⟩ := eval_of_checksOfEach parts hrest fun t ht =>
        hv t (List.mem_append_right _ ht)
      constructor
      · rw [Formula.evalAll, Formula.evalAll, hone, hall]
      · rw [Formula.evalAny, Formula.evalAny, hone, hany]

end

mutual

/-- A condition has checks if its comparisons have. -/
theorem exists_checksOf : (c : Condition) →
    (∀ t ∈ c.atoms, ∃ check, checkOfTest sources t = .ok check) →
      ∃ checks, checksOf sources c = .ok checks
  | .atom t, h => by
      obtain ⟨check, hcheck⟩ := h t (List.mem_singleton.2 rfl)
      rw [checksOf, hcheck]
      exact ⟨_, rfl⟩
  | .all [], _ => ⟨_, by rw [checksOf]⟩
  | .all (part :: parts), h => by
      obtain ⟨each, heach⟩ := exists_checksOfEach (part :: parts) h
      rw [checksOf_all, heach]
      split
      · exact ⟨_, rfl⟩
      · exact ⟨_, rfl⟩
  | .any parts, h => by
      obtain ⟨each, heach⟩ := exists_checksOfEach parts h
      rw [checksOf, heach]
      exact ⟨_, rfl⟩

theorem exists_checksOfEach : (parts : List Condition) →
    (∀ t ∈ atomsOf parts, ∃ check, checkOfTest sources t = .ok check) →
      ∃ each, checksOfEach sources parts = .ok each
  | [], _ => ⟨_, by rw [checksOfEach]⟩
  | part :: parts, h => by
      obtain ⟨first, hfirst⟩ := exists_checksOf part fun t ht => h t (List.mem_append_left _ ht)
      obtain ⟨rest, hrest⟩ := exists_checksOfEach parts fun t ht => h t (List.mem_append_right _ ht)
      rw [checksOfEach, hfirst, hrest]
      exact ⟨_, rfl⟩

end

/-! ## Columns by name -/

/-- The entries of a list for which a test is true, if it is true for a single one. -/
theorem filter_zipIdx_eq {α : Type} {as : List α} {test : α × Nat → Bool} {i : Nat} {a : α}
    (ha : as[i]? = some a) (htrue : test (a, i) = true)
    (honly : ∀ j b, as[j]? = some b → test (b, j) = true → j = i) :
    as.zipIdx.filter test = [(a, i)] := by
  rw [← List.perm_singleton, List.perm_ext_iff_of_nodup]
  · rintro ⟨b, j⟩
    rw [List.mem_filter, List.mem_zipIdx_iff_getElem?, List.mem_singleton]
    constructor
    · rintro ⟨hb, hj⟩
      obtain rfl := honly j b hb hj
      rw [ha] at hb
      rw [Option.some.inj hb]
    · intro h
      obtain ⟨rfl, rfl⟩ := Prod.mk.inj h
      exact ⟨ha, htrue⟩
  · have hpositions : (as.zipIdx.map (·.2)).Nodup := by
      rw [List.zipIdx_map_snd]
      exact List.nodup_range' _
    exact (List.Nodup.of_map _ hpositions).filter _
  · exact List.nodup_singleton _

/-- **A column is where its source is.** If one source alone goes by a name and declares a column,
the column is located there. -/
theorem locate_eq {i : Nat} {s : Source} {name column : String} {slot : Slot}
    (hs : sources[i]? = some s) (hcalled : s.isCalled name = true)
    (honly : ∀ j other, sources[j]? = some other → other.isCalled name = true → j = i)
    (hcolumn : s.relation.declared? column = some slot) :
    locate sources ⟨name, column⟩ = .ok (s.place i slot) := by
  have hplaces : placesOf sources ⟨name, column⟩ = [s.place i slot] := by
    unfold placesOf
    dsimp only
    rw [filter_zipIdx_eq hs hcalled honly]
    simp [hcolumn]
  unfold locate
  rw [hplaces]

/-- A column that is located at all is where a source is that goes by its name and declares it. -/
theorem eq_place_of_locate {r : ColumnRef} {p : Place} (h : locate sources r = .ok p) {i : Nat}
    {s : Source} {slot : Slot} (hs : sources[i]? = some s) (hcalled : s.isCalled r.source = true)
    (hcolumn : s.relation.declared? r.column = some slot) : p = s.place i slot := by
  have hmem : s.place i slot ∈ (sources.zipIdx.filter fun entry => entry.1.isCalled r.source).filterMap
      fun entry => (entry.1.relation.declared? r.column).map (entry.1.place entry.2) := by
    refine List.mem_filterMap.2 ⟨(s, i), List.mem_filter.2 ⟨?_, hcalled⟩, ?_⟩
    · exact List.mem_zipIdx_iff_getElem?.2 hs
    · rw [hcolumn]
      rfl
  have hplaces : s.place i slot ∈ placesOf sources r := by
    unfold placesOf
    dsimp only
    split
    · next hnone _ =>
        rw [hnone] at hmem
        cases hmem
    · exact hmem
  unfold locate at h
  split at h
  · next place hone =>
      rw [hone] at hplaces
      rw [← Except.ok.inj h]
      exact (List.mem_singleton.1 hplaces).symm
  · cases h
  · cases h

end Tabula.Store
