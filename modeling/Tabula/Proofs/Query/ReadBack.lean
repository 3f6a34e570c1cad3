import Tabula.Proofs.Query.FilterMeaning
import Tabula.Proofs.Query.Route
import Tabula.Proofs.Query.Wildcard
import Tabula.Proofs.Sql.Statement

/-!
# Planned statements read back

A request is planned as a statement, which is executed as a tree and shown as a text. Main statement:
the text of a planned statement, read as SQL with its parameters, is that tree, but for a condition
that may be another with the same truth values (`Plan.readStatement_of_isPlanned`).
-/

namespace Tabula

open Sql (Condition Statement Test)
open Formula (IsSound)

variable {catalog : Catalog}

/-! ## The parts of planned statements -/

/-- A comparison is compiled to one that compares with a list exactly if its operator takes one. -/
theorem Constraint.isShaped_of_test {s : Scope} {k : Constraint} {t : Test} (hk : k.IsShaped)
    (h : k.test s = .ok t) : t.IsShaped := by
  obtain ⟨c, hc, -⟩ := Scope.test_eq_ok h
  have htest : k.test s = .ok (k.testAt fun _ => c.ref) := test_eq hk ⟨c, hc, rfl⟩
  obtain rfl := Except.ok.inj (h.symm.trans htest)
  exact isShaped_testAt _ hk

/-- Conditions compare with lists exactly where their operators take one. -/
theorem Filter.isSound_of_condition {s : Scope} {raw : Option Json} {condition : Option Condition}
    (h : conditionOfJson s raw = .ok condition) : ∀ c ∈ condition, IsSound Test.IsShaped c := by
  rintro c rfl
  cases raw with
  | none => cases Except.ok.inj h
  | some raw =>
      obtain ⟨f, hf, h⟩ := Except.bind_eq_ok_iff.1 h
      unfold condition at h
      split at h
      · cases Except.ok.inj h
      · obtain ⟨compiled, hcompiled, heq⟩ := Except.map_eq_ok_iff.1 h
        obtain rfl := Option.some.inj heq
        refine IsSound.of_mapM (fun k t hk ht => ?_) f.prune
          (IsSound.prune f (isShaped_of_ofJson raw f hf)) hcompiled
        exact Constraint.isShaped_of_test hk ht

/-- Joins compare by methods that take no list. -/
theorem Join.takesNoList_of_plan {base : Table} {joins : JoinSpec} {p : JoinPlan}
    (h : plan catalog base joins = .ok p) : ∀ s ∈ p.steps, s.method.takesList = false := by
  obtain ⟨qs, hqs, rfl⟩ := plan_eq_ok_iff.1 h
  obtain ⟨routes, -, rfl⟩ := exists_routes_of_forall₂ (Except.mapM_eq_ok_iff.1 hqs)
  intro s hs
  obtain ⟨q, hq, hs⟩ := List.mem_flatMap.1 hs
  obtain ⟨r, -, rfl⟩ := List.mem_map.1 hq
  obtain ⟨i, hi, hs⟩ := List.getElem_of_mem hs
  have hstop : i < r.stops.length := by
    rw [r.isRoute.length_stops, ← r.isRoute.length_steps]
    exact hi
  obtain ⟨_, _, -, -, hconnects⟩ := r.isRoute.exists_connects (List.getElem?_eq_getElem hstop)
    (List.getElem?_eq_some_iff.2 ⟨hi, hs⟩)
  exact hconnects.takesNoList

/-- A reference selects at least one column. -/
theorem Scope.IsAddressable.ne_nil_of_select {s : Scope} (hs : s.IsAddressable) {reference : String}
    {columns : List OutputColumn} (h : s.select reference = .ok columns) : columns ≠ [] := by
  obtain ⟨found, hfound, h⟩ := Except.bind_eq_ok_iff.1 h
  split at h
  · obtain rfl := Except.ok.inj h
    exact List.cons_ne_nil _ _
  · obtain rfl := Except.ok.inj h
    have hcolumns := (hs.of_table? (table?_of_resolve hfound).1).2.ne_nil
    simpa using hcolumns

/-- A column list that is not empty selects at least one column. -/
theorem Scope.IsAddressable.ne_nil_of_selectList {s : Scope} (hs : s.IsAddressable)
    {references : List String} (hne : references ≠ []) {columns : List OutputColumn}
    (h : s.selectList references = .ok columns) : columns ≠ [] := by
  cases references with
  | nil => exact absurd rfl hne
  | cons reference references =>
      rw [selectList_cons] at h
      obtain ⟨first, hfirst, h⟩ := Except.bind_eq_ok_iff.1 h
      obtain ⟨others, -, h⟩ := Except.bind_eq_ok_iff.1 h
      obtain rfl := Except.ok.inj h
      exact List.append_ne_nil_of_left_ne_nil (hs.ne_nil_of_select hfirst) others

/-! ## Planned statements -/

namespace Plan

/-- Whether a statement is one that a request, or a row of one, is planned as. -/
inductive IsPlanned (catalog : Catalog) : Statement → Prop
  | read {r : ReadRequest} {plan : ReadPlan} (h : read catalog r = .ok plan) :
    IsPlanned catalog (.select plan.select)
  | insert {t : Table} {row : RowValues} {s : Sql.Insert} (ht : t ∈ catalog.tables)
    (h : insert t row = .ok s) : IsPlanned catalog (.insert s)
  | update {r : UpdateRequest} {s : Sql.Update} (h : update catalog r = .ok s) :
    IsPlanned catalog (.update s)
  | delete {r : DeleteRequest} {s : Sql.Delete} (h : delete catalog r = .ok s) :
    IsPlanned catalog (.delete s)

theorem isShaped_of_isPlanned {tables : List Table} (hbuild : Catalog.build tables = .ok catalog)
    {s : Statement} (h : IsPlanned catalog s) : s.IsShaped := by
  cases h with
  | @read r _ h =>
      obtain ⟨base, limit, joins, columns, condition, terms, hbase, -, hjoins, hcolumns, hcondition,
        -, rfl⟩ := read_eq_ok_iff.1 h
      have hs : Scope.IsAddressable ⟨base, joins.aliases⟩ :=
        Scope.isAddressable_of_plan hbuild (Catalog.table_eq_ok_iff.1 hbase) hjoins
      have hreferences : (if r.columns.isEmpty then [wildcard] else r.columns) ≠ [] := by
        split
        · exact List.cons_ne_nil _ _
        · next hne => simpa using hne
      refine ⟨?_, Join.takesNoList_of_plan hjoins, Filter.isSound_of_condition hcondition⟩
      simpa using hs.ne_nil_of_selectList hreferences hcolumns
  | insert ht h => trivial
  | update h =>
      obtain ⟨t, condition, -, -, hcondition, hs⟩ := update_eq_ok h
      refine ⟨values_ne_nil_of_update h, ?_⟩
      rw [hs]
      exact Filter.isSound_of_condition hcondition
  | delete h =>
      obtain ⟨t, condition, -, hcondition, rfl⟩ := delete_eq_ok h
      exact Filter.isSound_of_condition hcondition

/-- **What is planned is what the text says.** In a built catalog, the text of a statement that is
planned, read as SQL with its parameters, is the statement: its columns, tables, joins, written
values, ordering and limit, and a condition with the same truth values. -/
theorem readStatement_of_isPlanned {tables : List Table}
    (hbuild : Catalog.build tables = .ok catalog) {s : Statement} (h : IsPlanned catalog s) :
    ∃ read, s.Agree read ∧
      Sql.readStatement (Sql.render s.tokens) (Sql.parameters s.tokens) = some read :=
  Sql.readStatement_render (isShaped_of_isPlanned hbuild h)

end Plan

end Tabula
