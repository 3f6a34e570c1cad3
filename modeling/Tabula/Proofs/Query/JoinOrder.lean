import Mathlib.Data.List.Perm.Basic
import Tabula.Proofs.Query.Plan

/-!
# The order of aliases in a plan

Aliases can be planned in any order: the plan is the same but for the order of its steps
(`Plan.exists_read_of_perm`), because references look aliases up by their names.
-/

namespace Tabula

open Sql (ColumnRef Direction JoinStep Condition)

/-! ## Joins -/

namespace Join

variable {catalog : Catalog} {base : Table}

/-- The steps of the chain of an alias, and the alias with the table that it names. -/
def planOne (catalog : Catalog) (base : Table) (entry : String × List (List String)) :
    Except Error (List JoinStep × (String × Table)) := do
  checkAlias base entry.1
  if entry.2.isEmpty then throw (.join (.noSteps entry.1))
  let (steps, last) ← chain catalog entry.1 base.name base 0 entry.2
  return (steps, (entry.1, last))

/-- Joins are planned one after the other. -/
theorem plan_cons (entry : String × List (List String)) (joins : JoinSpec) :
    plan catalog base (entry :: joins) = do
      let first ← planOne catalog base entry
      let others ← plan catalog base joins
      return ⟨first.1 ++ others.steps, first.2 :: others.aliases⟩ := by
  obtain ⟨aliasName, steps⟩ := entry
  rw [plan]
  unfold planOne
  cases checkAlias base aliasName with
  | error e => rfl
  | ok _ =>
      rw [Except.ok_bind, Except.ok_bind]
      by_cases hnone : steps.isEmpty = true
      · rw [if_pos hnone, if_pos hnone]
        rfl
      · rw [if_neg hnone, if_neg hnone]
        cases chain catalog aliasName base.name base 0 steps with
        | error e => rfl
        | ok chained => rfl

/-- The plan of all aliases is made from the plans of each. -/
theorem plan_eq_ok_iff {joins : JoinSpec} {p : JoinPlan} :
    plan catalog base joins = .ok p ↔ ∃ ps, joins.mapM (planOne catalog base) = .ok ps ∧
      p = ⟨ps.flatMap (·.1), ps.map (·.2)⟩ := by
  induction joins generalizing p with
  | nil =>
      constructor
      · intro h
        exact ⟨[], rfl, (Except.ok.inj h).symm⟩
      · rintro ⟨ps, hps, rfl⟩
        obtain rfl := Except.ok.inj hps
        rfl
  | cons entry joins ih =>
      rw [plan_cons]
      constructor
      · intro h
        obtain ⟨first, hfirst, h⟩ := Except.bind_eq_ok_iff.1 h
        obtain ⟨others, hothers, h⟩ := Except.bind_eq_ok_iff.1 h
        obtain rfl := Except.ok.inj h
        obtain ⟨ps, hps, rfl⟩ := ih.1 hothers
        refine ⟨first :: ps, ?_, rfl⟩
        rw [List.mapM_cons, hfirst, hps]
        rfl
      · rintro ⟨ps, hps, rfl⟩
        rw [List.mapM_cons] at hps
        obtain ⟨first, hfirst, hps⟩ := Except.bind_eq_ok_iff.1 hps
        obtain ⟨rest, hrest, hps⟩ := Except.bind_eq_ok_iff.1 hps
        obtain rfl := Except.ok.inj hps
        rw [hfirst, Except.ok_bind, ih.2 ⟨rest, hrest, rfl⟩]
        rfl

/-- A join is planned under its alias. -/
theorem name_of_planOne {entry : String × List (List String)}
    {p : List JoinStep × (String × Table)} (h : planOne catalog base entry = .ok p) :
    p.2.1 = entry.1 := by
  unfold planOne at h
  obtain ⟨_, -, h⟩ := Except.bind_eq_ok_iff.1 h
  split at h
  · cases h
  · obtain ⟨⟨steps, last⟩, -, h⟩ := Except.bind_eq_ok_iff.1 h
    obtain rfl := Except.ok.inj h
    rfl

/-- The aliases of a plan are those that are declared, in order. -/
theorem keys_plan {joins : JoinSpec} {p : JoinPlan} (h : plan catalog base joins = .ok p) :
    p.aliases.map (·.1) = joins.map (·.1) := by
  obtain ⟨ps, hps, rfl⟩ := plan_eq_ok_iff.1 h
  have hforall := Except.mapM_eq_ok_iff.1 hps
  clear hps h
  induction hforall with
  | nil => rfl
  | cons hone _ ih => rw [List.map_cons, List.map_cons, List.map_cons, ih, name_of_planOne hone]

/-- Aliases are planned in any order, with the same steps and tables. -/
theorem exists_plan_of_perm {joins joins' : JoinSpec} (hperm : joins'.Perm joins) {p : JoinPlan}
    (h : plan catalog base joins = .ok p) :
    ∃ p', plan catalog base joins' = .ok p' ∧ p'.steps.Perm p.steps ∧
      p'.aliases.Perm p.aliases := by
  obtain ⟨ps, hps, rfl⟩ := plan_eq_ok_iff.1 h
  obtain ⟨ps', hps', hperm'⟩ := List.perm_comp_forall₂ hperm (Except.mapM_eq_ok_iff.1 hps)
  exact ⟨_, plan_eq_ok_iff.2 ⟨ps', Except.mapM_eq_ok_iff.2 hps', rfl⟩, hperm'.flatMap_right _,
    hperm'.map _⟩

end Join

/-! ## References -/

namespace Scope

variable {s s' : Scope}

/-- Scopes with the same base table and the same tables of aliases look references up alike. -/
theorem resolve_congr (hbase : s.base = s'.base)
    (haliases : ∀ name, Assoc.find? s.aliases name = Assoc.find? s'.aliases name) :
    s.resolve = s'.resolve := by
  have htable : s.table? = s'.table? := by
    funext source
    unfold table?
    rw [hbase, haliases]
  have hsource : s.sourceTable = s'.sourceTable := by
    funext reference source?
    unfold sourceTable
    rw [hbase, htable]
  funext reference
  unfold resolve
  rw [hsource]

/-- Scopes that resolve references alike give the same columns. -/
theorem resolveColumn_congr (h : s.resolve = s'.resolve) : s.resolveColumn = s'.resolveColumn := by
  funext reference
  unfold resolveColumn
  rw [h]

/-- They select the same columns. -/
theorem selectList_congr (h : s.resolve = s'.resolve) : s.selectList = s'.selectList := by
  have hselect : s.select = s'.select := by
    funext reference
    unfold select
    rw [h]
  funext references
  unfold selectList
  rw [hselect]

/-- They compile the same conditions. -/
theorem conditionOfJson_congr (h : s.resolve = s'.resolve) :
    Filter.conditionOfJson s = Filter.conditionOfJson s' := by
  have htest : Constraint.test s = Constraint.test s' := by
    funext c
    unfold Constraint.test
    rw [resolveColumn_congr h]
  have hcondition : Filter.condition s = Filter.condition s' := by
    funext f
    unfold Filter.condition
    rw [htest]
  funext raw?
  unfold Filter.conditionOfJson
  rw [hcondition]

/-- They give the same orderings. -/
theorem ordering_congr (h : s.resolve = s'.resolve) : Plan.ordering s = Plan.ordering s' := by
  funext terms
  unfold Plan.ordering
  rw [resolveColumn_congr h]

end Scope

/-! ## Plans -/

namespace Plan

variable {catalog : Catalog} {r : ReadRequest} {plan : ReadPlan}

/-- **Aliases can be planned in any order.** The plan of a request whose aliases are given in another
order is the same but for the order of its steps. -/
theorem exists_read_of_perm (h : read catalog r = .ok plan)
    (hnodup : ((r.joins.getD []).map (·.1)).Nodup) {joins : Option JoinSpec}
    (hperm : (joins.getD []).Perm (r.joins.getD [])) :
    ∃ steps, steps.Perm plan.select.joins ∧ read catalog { r with joins }
      = .ok { plan with select := { plan.select with joins := steps } } := by
  obtain ⟨table, limit, planned, columns, condition, terms, htable, hlimit, hjoins, hcolumns,
    hcondition, hterms, rfl⟩ := read_eq_ok_iff.1 h
  obtain ⟨planned', hjoins', hsteps, haliases⟩ := Join.exists_plan_of_perm hperm hjoins
  have hkeys : (planned.aliases.map (·.1)).Nodup := by
    rw [Join.keys_plan hjoins]
    exact hnodup
  have hresolve : Scope.resolve ⟨table, planned'.aliases⟩ = Scope.resolve ⟨table, planned.aliases⟩ :=
    Scope.resolve_congr rfl fun name => (Assoc.find?_perm haliases.symm hkeys name).symm
  refine ⟨planned'.steps, hsteps, read_eq_ok_iff.2 ⟨table, limit, planned', columns, condition, terms,
    htable, hlimit, hjoins', ?_, ?_, ?_, rfl⟩⟩
  · rw [Scope.selectList_congr hresolve]
    exact hcolumns
  · rw [Scope.conditionOfJson_congr hresolve]
    exact hcondition
  · rw [Scope.ordering_congr hresolve]
    exact hterms

end Plan

end Tabula
