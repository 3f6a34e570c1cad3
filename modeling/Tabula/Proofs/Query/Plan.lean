import Tabula.Proofs.Catalog.Build
import Tabula.Query.Plan

/-!
# What plans are made of

A request that is planned has passed every check of its planner, and its statement is made of what
the checks gave. Main statements: `Plan.read_eq_ok_iff`, `Plan.insert_eq_ok`, `Plan.update_eq_ok` and
`Plan.delete_eq_ok`, one for each kind of request.
-/

namespace Tabula.Plan

variable {catalog : Catalog} {t : Table}

/-- Values that are checked are ones that the columns of their names accept. -/
theorem exists_of_checkValues {values : RowValues} (h : checkValues t values = .ok ()) :
    ∀ entry ∈ values, ∃ c ∈ t.columns, c.name = entry.1 ∧ c.type.accepts entry.2 = true := by
  intro entry hentry
  have hone : checkValue t entry.1 entry.2 = .ok () := Except.forM_eq_ok_iff.1 h entry hentry
  obtain ⟨c, hc, hone⟩ := Except.bind_eq_ok_iff.1 hone
  obtain ⟨hmem, hname⟩ := Table.column_eq_ok hc
  refine ⟨c, hmem, hname, ?_⟩
  dsimp only at hone
  split at hone
  · cases hone
  · next haccepts => simpa using haccepts

/-- What the plan of a read request is made of. -/
theorem read_eq_ok_iff {r : ReadRequest} {plan : ReadPlan} :
    read catalog r = .ok plan ↔ ∃ table limit joins columns condition terms,
      catalog.table r.table = .ok table ∧ r.limit.mapM checkLimit = .ok limit ∧
      Join.plan catalog table (r.joins.getD []) = .ok joins ∧
      Scope.selectList ⟨table, joins.aliases⟩
        (if r.columns.isEmpty then [wildcard] else r.columns) = .ok columns ∧
      Filter.conditionOfJson ⟨table, joins.aliases⟩ r.filters = .ok condition ∧
      ordering ⟨table, joins.aliases⟩ (r.ordering.getD []) = .ok terms ∧
      plan = ⟨⟨columns.map OutputColumn.ref, table.name, joins.steps, condition, terms, limit⟩,
        columns⟩ := by
  constructor
  · intro h
    obtain ⟨table, htable, h⟩ := Except.bind_eq_ok_iff.1 h
    obtain ⟨limit, hlimit, h⟩ := Except.bind_eq_ok_iff.1 h
    obtain ⟨joins, hjoins, h⟩ := Except.bind_eq_ok_iff.1 h
    obtain ⟨columns, hcolumns, h⟩ := Except.bind_eq_ok_iff.1 h
    obtain ⟨condition, hcondition, h⟩ := Except.bind_eq_ok_iff.1 h
    obtain ⟨terms, hterms, h⟩ := Except.bind_eq_ok_iff.1 h
    exact ⟨table, limit, joins, columns, condition, terms, htable, hlimit, hjoins, hcolumns,
      hcondition, hterms, (Except.ok.inj h).symm⟩
  · rintro ⟨table, limit, joins, columns, condition, terms, htable, hlimit, hjoins, hcolumns,
      hcondition, hterms, rfl⟩
    unfold read
    rw [htable, Except.ok_bind, hlimit, Except.ok_bind, hjoins, Except.ok_bind]
    dsimp only
    rw [hcolumns, Except.ok_bind, hcondition, Except.ok_bind, hterms]
    rfl

/-- What the statement that adds a row is made of. -/
theorem insert_eq_ok {values : RowValues} {q : Sql.Insert} (h : insert t values = .ok q) :
    checkValues t values = .ok () ∧ q = ⟨t.name, values⟩ := by
  obtain ⟨⟨⟩, hvalues, h⟩ := Except.bind_eq_ok_iff.1 h
  exact ⟨hvalues, (Except.ok.inj h).symm⟩

/-- What the statement of an update request is made of. -/
theorem update_eq_ok {r : UpdateRequest} {q : Sql.Update} (h : update catalog r = .ok q) :
    ∃ t condition, catalog.table r.table = .ok t ∧ checkValues t r.values = .ok () ∧
      Filter.conditionOfJson ⟨t, []⟩ r.filters = .ok condition ∧
      q = ⟨t.name, r.values, condition⟩ := by
  obtain ⟨t, ht, h⟩ := Except.bind_eq_ok_iff.1 h
  split at h
  · cases h
  · obtain ⟨⟨⟩, hvalues, h⟩ := Except.bind_eq_ok_iff.1 h
    obtain ⟨condition, hcondition, h⟩ := Except.bind_eq_ok_iff.1 h
    exact ⟨t, condition, ht, hvalues, hcondition, (Except.ok.inj h).symm⟩

/-- An update that is planned sets a column. -/
theorem values_ne_nil_of_update {r : UpdateRequest} {q : Sql.Update} (h : update catalog r = .ok q) :
    q.values ≠ [] := by
  obtain ⟨t, -, hrest⟩ := Except.bind_eq_ok_iff.1 h
  obtain ⟨_, _, -, -, -, rfl⟩ := update_eq_ok h
  split at hrest
  · cases hrest
  · next hne => simpa using hne

/-- What the statement of a delete request is made of. -/
theorem delete_eq_ok {r : DeleteRequest} {q : Sql.Delete} (h : delete catalog r = .ok q) :
    ∃ t condition, catalog.table r.table = .ok t ∧
      Filter.conditionOfJson ⟨t, []⟩ r.filters = .ok condition ∧ q = ⟨t.name, condition⟩ := by
  obtain ⟨t, ht, h⟩ := Except.bind_eq_ok_iff.1 h
  obtain ⟨condition, hcondition, h⟩ := Except.bind_eq_ok_iff.1 h
  exact ⟨t, condition, ht, hcondition, (Except.ok.inj h).symm⟩

end Tabula.Plan
