import Tabula.Proofs.Query.Chain

/-!
# Columns that references mean

A reference that is resolved in a scope means a column of the table behind a source name. Main
statements: the columns of a column list, of an ordering and of a condition are all such columns
(`Scope.declares_of_selectList`, `Scope.declares_of_ordering`, `Scope.declares_of_condition`).
-/

namespace Tabula

open Sql (ColumnRef Condition Direction Test)

namespace Scope

variable {s : Scope}

/-- Whether the table behind the source name of a column has that column. -/
def Declares (s : Scope) (r : ColumnRef) (c : Column) : Prop :=
  ∃ t, s.table? r.source = some t ∧ c ∈ t.columns ∧ r.column = c.name

/-- A source that is found stands for its table. -/
theorem table?_of_sourceTable {reference source : String} {source? : Option String} {t : Table}
    (h : s.sourceTable reference source? = .ok (t, source)) : s.table? source = some t := by
  cases source? with
  | none =>
      obtain ⟨rfl, rfl⟩ := Prod.mk.inj (Except.ok.inj h)
      exact if_pos rfl
  | some named =>
      unfold sourceTable at h
      dsimp only at h
      split at h
      · next found hfound =>
          obtain ⟨rfl, rfl⟩ := Prod.mk.inj (Except.ok.inj h)
          exact hfound
      · cases h

/-- What a reference is resolved to is the table of its source, and one of its columns. -/
theorem table?_of_resolve {reference : String} {found : Resolved}
    (h : s.resolve reference = .ok found) : s.table? found.source = some found.table ∧
      ∀ c, found.target = .column c → c ∈ found.table.columns := by
  unfold resolve at h
  split at h
  · cases h
  · next source? name _ =>
      obtain ⟨⟨t, source⟩, hsource, h⟩ := Except.bind_eq_ok_iff.1 h
      dsimp only at h
      split at h
      · obtain rfl := Except.ok.inj h
        exact ⟨table?_of_sourceTable hsource, fun c hc => by cases hc⟩
      · obtain ⟨target, htarget, h⟩ := Except.bind_eq_ok_iff.1 h
        obtain rfl := Except.ok.inj h
        refine ⟨table?_of_sourceTable hsource, ?_⟩
        rintro c rfl
        obtain ⟨column, hcolumn, heq⟩ := Except.map_eq_ok_iff.1 htarget
        obtain rfl := Target.column.inj heq
        exact (Table.column_eq_ok hcolumn).1

/-- A column that a reference names is declared. -/
theorem declares_of_resolveColumn {reference : String} {c : ScopedColumn}
    (h : s.resolveColumn reference = .ok c) : s.Declares c.ref c.column := by
  obtain ⟨found, hfound, h⟩ := Except.bind_eq_ok_iff.1 h
  obtain ⟨htable, hcolumn⟩ := table?_of_resolve hfound
  split at h
  · next column htarget =>
      obtain rfl := Except.ok.inj h
      exact ⟨found.table, htable, hcolumn column htarget, rfl⟩
  · cases h

/-- The columns that a reference selects are declared, with their types. -/
theorem declares_of_select {reference : String} {columns : List OutputColumn}
    (h : s.select reference = .ok columns) :
    ∀ out ∈ columns, ∃ c, s.Declares out.ref c ∧ out.type = c.type := by
  obtain ⟨found, hfound, h⟩ := Except.bind_eq_ok_iff.1 h
  obtain ⟨htable, hcolumn⟩ := table?_of_resolve hfound
  intro out hout
  split at h
  · next column htarget =>
      obtain rfl := Except.ok.inj h
      obtain rfl := List.mem_singleton.1 hout
      exact ⟨column, ⟨found.table, htable, hcolumn column htarget, rfl⟩, rfl⟩
  · obtain rfl := Except.ok.inj h
    obtain ⟨column, hmem, rfl⟩ := List.mem_map.1 hout
    exact ⟨column, ⟨found.table, htable, hmem, rfl⟩, rfl⟩

/-- The columns of a column list have the types of the columns that they mean. -/
theorem declares_of_selectList {references : List String} {columns : List OutputColumn}
    (h : s.selectList references = .ok columns) :
    ∀ out ∈ columns, ∃ c, s.Declares out.ref c ∧ out.type = c.type := by
  obtain ⟨lists, hlists, h⟩ := Except.bind_eq_ok_iff.1 h
  obtain rfl := Except.ok.inj h
  intro out hout
  obtain ⟨list, hlist, hout⟩ := List.mem_flatten.1 hout
  obtain ⟨reference, -, hselect⟩ := Except.exists_of_mem_mapM hlists hlist
  exact declares_of_select hselect out hout

/-- The columns of an ordering are declared. -/
theorem declares_of_ordering {terms : List (String × Direction)}
    {ordering : List (ColumnRef × Direction)} (h : Plan.ordering s terms = .ok ordering) :
    ∀ term ∈ ordering, ∃ c, s.Declares term.1 c := by
  intro term hterm
  obtain ⟨⟨reference, direction⟩, -, hone⟩ := Except.exists_of_mem_mapM h hterm
  obtain ⟨column, hcolumn, hone⟩ := Except.bind_eq_ok_iff.1 hone
  obtain rfl := Except.ok.inj hone
  exact ⟨column.column, declares_of_resolveColumn hcolumn⟩

/-! ## Conditions -/

/-- The column and the operand that a comparison of a filter is compiled to. -/
theorem test_eq_ok {k : Constraint} {t : Test} (h : k.test s = .ok t) :
    ∃ c, s.resolveColumn k.column = .ok c ∧ ∃ operand, k.operand c.column = .ok operand ∧
      t = ⟨c.ref, k.method, operand⟩ := by
  obtain ⟨c, hc, h⟩ := Except.bind_eq_ok_iff.1 h
  obtain ⟨operand, hoperand, h⟩ := Except.bind_eq_ok_iff.1 h
  exact ⟨c, hc, operand, hoperand, (Except.ok.inj h).symm⟩

/-- The comparisons of a condition are those of its filter, in order. -/
theorem forall₂_atoms_of_condition {f : Filter} {c : Condition}
    (h : Filter.condition s f = .ok (some c)) :
    List.Forall₂ (fun k t => Constraint.test s k = .ok t) f.atoms c.atoms := by
  unfold Filter.condition at h
  split at h
  · cases Except.ok.inj h
  · obtain ⟨compiled, hcompiled, heq⟩ := Except.map_eq_ok_iff.1 h
    obtain rfl := Option.some.inj heq
    rw [← Formula.atoms_prune f]
    exact Formula.forall₂_atoms_of_mapM f.prune hcompiled

/-- The columns of a condition are declared. -/
theorem declares_of_condition {raw : Option Json} {c : Option Condition}
    (h : Filter.conditionOfJson s raw = .ok c) :
    ∀ part ∈ c, ∀ t ∈ part.atoms, ∃ column, s.Declares t.column column := by
  rintro part rfl t ht
  cases raw with
  | none => cases Except.ok.inj h
  | some raw =>
      obtain ⟨f, -, h⟩ := Except.bind_eq_ok_iff.1 h
      obtain ⟨k, -, hk⟩ := (forall₂_atoms_of_condition h).exists_of_mem_right ht
      obtain ⟨c, hc, operand, -, rfl⟩ := test_eq_ok hk
      exact ⟨c.column, declares_of_resolveColumn hc⟩

end Scope

end Tabula
