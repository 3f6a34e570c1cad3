import Tabula.Proofs.Query.JoinOrder
import Tabula.Proofs.Query.Mismatch

/-!
# Requests that are accepted

A read request is planned exactly if it is well formed in the catalog: its table exists, its limit
is a positive 64 bit number, its joins lead from table to table over columns that there are, its
filter has the form of one, and its references name columns of its sources. Another join changes
nothing about that. Main statement: `exists_read_iff_isWellFormed`.
-/

namespace Tabula

/-- Whether a table has a column of a name. -/
def Table.Has (t : Table) (name : String) : Prop := ∃ c ∈ t.columns, c.name = name

/-! ## Joins -/

namespace Join

/-- Whether a chain of steps leads from a table to another. Each step has four parts: a column of
the table before it, the name of a method that takes no list, the name of a table, and a column of
that table. -/
inductive Leads (catalog : Catalog) : Table → List (List String) → Table → Prop where
  | here (t : Table) : Leads catalog t [] t
  | step {t joined last : Table} {m : Comparison} {column target targetColumn : String}
      {rest : List (List String)} (takesNoList : m.takesList = false)
      (exists_table : catalog.table? target = some joined) (left : t.Has column)
      (right : joined.Has targetColumn) (leads : Leads catalog joined rest last) :
      Leads catalog t ([column, m.name, target, targetColumn] :: rest) last

/-- Whether an alias with a chain of steps is a join of a base table. -/
structure IsValid (catalog : Catalog) (base : Table) (aliasName : String)
    (steps : List (List String)) : Prop where
  ne_empty : aliasName ≠ ""
  noPoint : '.' ∉ aliasName.toList
  noMark : '#' ∉ aliasName.toList
  ne_base : aliasName ≠ base.name
  ne_nil : steps ≠ []
  leads : ∃ last, Leads catalog base steps last

end Join

/-! ## References -/

/-- The tables that a request can name, by the names for them: the base table, and the last table of
the chain of every alias. -/
inductive IsSource (catalog : Catalog) (base : Table) (joins : JoinSpec) :
    String → Table → Prop where
  | base : IsSource catalog base joins base.name base
  | aliasName {a : String} {steps : List (List String)} {t : Table}
      (declared : Assoc.find? joins a = some steps) (leads : Join.Leads catalog base steps t) :
      IsSource catalog base joins a t

/-- Whether a reference is to a name in a table: it is the name alone for the base table, or that of
a source and the name with a point between them. -/
inductive RefersTo (base : Table) (isSource : String → Table → Prop) :
    String → Table → String → Prop where
  | bare {name : String} (noPoint : '.' ∉ name.toList) : RefersTo base isSource name base name
  | qualified {source name : String} {t : Table} (means : isSource source t)
      (noPointBefore : '.' ∉ source.toList) (noPointAfter : '.' ∉ name.toList) :
      RefersTo base isSource (source ++ "." ++ name) t name

section References

variable (base : Table) (isSource : String → Table → Prop)

/-- Whether a reference names a single column. -/
def NamesColumn (reference : String) : Prop :=
  ∃ t name, RefersTo base isSource reference t name ∧ name ≠ wildcard ∧ t.Has name

/-- Whether a reference names a column or all columns of a source. -/
def NamesColumns (reference : String) : Prop :=
  ∃ t name, RefersTo base isSource reference t name ∧ (name = wildcard ∨ t.Has name)

end References

/-! ## Requests -/

/-- Whether a read request is well formed in a catalog, on a base table. -/
structure ReadRequest.IsWellFormed (catalog : Catalog) (base : Table) (r : ReadRequest) : Prop where
  exists_table : catalog.table? r.table = some base
  limit : ∀ n ∈ r.limit, 1 ≤ n ∧ n ≤ 2 ^ 63 - 1
  joins : ∀ join ∈ r.joins.getD [], Join.IsValid catalog base join.1 join.2
  columns : ∀ reference ∈ r.columns,
    NamesColumns base (IsSource catalog base (r.joins.getD [])) reference
  filters : ∀ raw ∈ r.filters, ∃ f, Filter.IsFilter raw ∧ Filter.Describes raw f ∧
    ∀ reference ∈ f.columns, NamesColumn base (IsSource catalog base (r.joins.getD [])) reference
  ordering : ∀ term ∈ r.ordering.getD [],
    NamesColumn base (IsSource catalog base (r.joins.getD [])) term.1

/-! ## Planned joins -/

/-- A table gives a column of a name exactly if it has one. -/
theorem Table.exists_column_iff {t : Table} {name : String} :
    (∃ c, t.column name = .ok c) ↔ t.Has name := by
  constructor
  · rintro ⟨c, hc⟩
    exact ⟨c, column_eq_ok hc⟩
  · rintro ⟨c, hc, hname⟩
    obtain ⟨found, hfound⟩ : ∃ found, t.column? name = some found :=
      Option.isSome_iff_exists.1 (List.find?_isSome.2 ⟨c, hc, by simpa using hname⟩)
    exact ⟨found, column_eq_ok_iff.2 hfound⟩

namespace Join

variable {catalog : Catalog} {base t : Table}

/-- A step has the method of its name, which takes no list. -/
theorem stepMethod_eq_ok_iff {aliasName name : String} {index : Nat} {m : Comparison} :
    stepMethod aliasName index name = .ok m ↔ m.name = name ∧ m.takesList = false := by
  unfold stepMethod
  split
  · next hnone =>
    simp only [reduceCtorEq, false_iff, not_and]
    rintro rfl
    rw [Comparison.ofName?_name] at hnone
    cases hnone
  · next method hmethod =>
    obtain rfl := Comparison.ofName?_eq_some_iff.1 hmethod
    constructor
    · intro h
      split at h
      · cases h
      · next hlist =>
        obtain rfl := Except.ok.inj h
        exact ⟨rfl, by simpa using hlist⟩
    · rintro ⟨hname, hlist⟩
      obtain rfl := Comparison.name_injective hname
      rw [hlist]
      rfl

/-- A step is planned exactly if it leads to a table. -/
theorem exists_step_iff {aliasName source : String} {index : Nat} {last : Bool}
    {part : List String} {joined : Table} :
    (∃ first, step catalog aliasName source t index last part = .ok (first, joined)) ↔
      ∃ (m : Comparison) (column target targetColumn : String),
        part = [column, m.name, target, targetColumn] ∧ m.takesList = false ∧
        catalog.table? target = some joined ∧ t.Has column ∧ joined.Has targetColumn := by
  constructor
  · rintro ⟨first, h⟩
    unfold step at h
    split at h
    · next column method target targetColumn =>
      obtain ⟨m, hm, h⟩ := Except.bind_eq_ok_iff.1 h
      obtain ⟨found, hfound, h⟩ := Except.bind_eq_ok_iff.1 h
      obtain ⟨left, hleft, h⟩ := Except.bind_eq_ok_iff.1 h
      obtain ⟨right, hright, h⟩ := Except.bind_eq_ok_iff.1 h
      obtain ⟨-, rfl⟩ := Prod.mk.inj (Except.ok.inj h)
      obtain ⟨rfl, hlist⟩ := stepMethod_eq_ok_iff.1 hm
      exact ⟨m, column, target, targetColumn, rfl, hlist, Catalog.table_eq_ok_iff.1 hfound,
        Table.exists_column_iff.1 ⟨left, hleft⟩, Table.exists_column_iff.1 ⟨right, hright⟩⟩
    · cases h
  · rintro ⟨m, column, target, targetColumn, rfl, hlist, htarget, hleft, hright⟩
    obtain ⟨left, hleft⟩ := Table.exists_column_iff.2 hleft
    obtain ⟨right, hright⟩ := Table.exists_column_iff.2 hright
    have hm : stepMethod aliasName index m.name = .ok m := stepMethod_eq_ok_iff.2 ⟨rfl, hlist⟩
    unfold step
    dsimp only
    rw [hm, Except.ok_bind, Catalog.table_eq_ok_iff.2 htarget, Except.ok_bind, hleft,
      Except.ok_bind, hright]
    exact ⟨_, rfl⟩

/-- A chain is planned exactly if it leads somewhere, and comes to where it leads. -/
theorem exists_chain_iff {aliasName source : String} {index : Nat} {parts : List (List String)}
    {last : Table} :
    (∃ steps, chain catalog aliasName source t index parts = .ok (steps, last)) ↔
      Leads catalog t parts last := by
  induction parts generalizing t source index with
  | nil =>
    constructor
    · rintro ⟨steps, h⟩
      obtain ⟨rfl, rfl⟩ := Prod.mk.inj (Except.ok.inj h)
      exact .here _
    · rintro ⟨⟩
      exact ⟨[], rfl⟩
  | cons part parts ih =>
    rw [chain]
    constructor
    · rintro ⟨steps, h⟩
      obtain ⟨⟨first, joined⟩, hfirst, h⟩ := Except.bind_eq_ok_iff.1 h
      obtain ⟨⟨others, final⟩, hothers, h⟩ := Except.bind_eq_ok_iff.1 h
      obtain ⟨rfl, rfl⟩ := Prod.mk.inj (Except.ok.inj h)
      obtain ⟨m, column, target, targetColumn, rfl, hlist, htarget, hleft, hright⟩ :=
        exists_step_iff.1 ⟨_, hfirst⟩
      exact .step hlist htarget hleft hright (ih.1 ⟨others, hothers⟩)
    · rintro (_ | ⟨hlist, htarget, hleft, hright, hrest⟩)
      obtain ⟨first, hfirst⟩ := exists_step_iff.2 ⟨_, _, _, _, rfl, hlist, htarget, hleft, hright⟩
      obtain ⟨others, hothers⟩ := ih.2 hrest
      exact ⟨first :: others, by rw [hfirst, Except.ok_bind]; dsimp only; rw [hothers]; rfl⟩

/-- A chain leads to one table. -/
theorem Leads.unique {parts : List (List String)} {a b : Table} (ha : Leads catalog t parts a)
    (hb : Leads catalog t parts b) : a = b := by
  obtain ⟨steps, hsteps⟩ : ∃ steps, chain catalog "" "" t 0 parts = .ok (steps, a) :=
    exists_chain_iff.2 ha
  obtain ⟨steps', hsteps'⟩ : ∃ steps, chain catalog "" "" t 0 parts = .ok (steps, b) :=
    exists_chain_iff.2 hb
  exact (Prod.mk.inj (Except.ok.inj (hsteps.symm.trans hsteps'))).2

/-- An alias is accepted if it is not empty, has neither point nor mark, and is not the base table.
-/
theorem checkAlias_eq_ok_iff {aliasName : String} :
    checkAlias base aliasName = .ok () ↔ aliasName ≠ "" ∧ '.' ∉ aliasName.toList ∧
      '#' ∉ aliasName.toList ∧ aliasName ≠ base.name := by
  have halias : isAlias aliasName = true ↔
      aliasName ≠ "" ∧ '.' ∉ aliasName.toList ∧ '#' ∉ aliasName.toList := by
    simp [isAlias, and_assoc]
  unfold checkAlias
  constructor
  · intro h
    have hname : isAlias aliasName = true := by
      by_contra hnot
      rw [if_pos (by simpa using hnot)] at h
      cases h
    obtain ⟨hempty, hpoint, hmark⟩ := halias.1 hname
    rw [if_neg (by simpa using hname)] at h
    split at h
    · cases h
    · next hbase => exact ⟨hempty, hpoint, hmark, hbase⟩
  · rintro ⟨hempty, hpoint, hmark, hbase⟩
    have hname : ¬ (!isAlias aliasName) = true := by simp [halias.2 ⟨hempty, hpoint, hmark⟩]
    rw [if_neg hname, if_neg hbase]
    rfl

/-- An alias is planned exactly if it is valid, and then stands for the table that its chain leads
to. -/
theorem exists_planOne_iff {entry : String × List (List String)} {last : Table} :
    (∃ steps, planOne catalog base entry = .ok (steps, entry.1, last)) ↔
      checkAlias base entry.1 = .ok () ∧ entry.2 ≠ [] ∧ Leads catalog base entry.2 last := by
  unfold planOne
  constructor
  · rintro ⟨steps, h⟩
    obtain ⟨⟨⟩, halias, h⟩ := Except.bind_eq_ok_iff.1 h
    split at h
    · cases h
    · next hsome =>
      obtain ⟨⟨planned, final⟩, hchain, h⟩ := Except.bind_eq_ok_iff.1 h
      obtain ⟨rfl, hfinal⟩ := Prod.mk.inj (Except.ok.inj h)
      obtain ⟨-, rfl⟩ := Prod.mk.inj hfinal
      exact ⟨halias, by simpa using hsome, exists_chain_iff.1 ⟨planned, hchain⟩⟩
  · rintro ⟨halias, hsome, hleads⟩
    obtain ⟨steps, hsteps⟩ : ∃ steps, chain catalog entry.1 base.name base 0 entry.2
        = .ok (steps, last) := exists_chain_iff.2 hleads
    have hnonempty : ¬ entry.2.isEmpty = true := by simpa using hsome
    refine ⟨steps, ?_⟩
    rw [halias, Except.ok_bind, if_neg hnonempty, hsteps]
    rfl

/-- Joins are planned exactly if each of them is valid. -/
theorem exists_plan_iff {joins : JoinSpec} :
    (∃ p, plan catalog base joins = .ok p) ↔
      ∀ join ∈ joins, IsValid catalog base join.1 join.2 := by
  have hone (join : String × List (List String)) :
      (∃ q, planOne catalog base join = .ok q) ↔ IsValid catalog base join.1 join.2 := by
    constructor
    · rintro ⟨⟨steps, aliasName, last⟩, hq⟩
      obtain rfl : aliasName = join.1 := name_of_planOne hq
      obtain ⟨halias, hsome, hleads⟩ := exists_planOne_iff.1 ⟨steps, hq⟩
      obtain ⟨hempty, hpoint, hmark, hbase⟩ := checkAlias_eq_ok_iff.1 halias
      exact ⟨hempty, hpoint, hmark, hbase, hsome, last, hleads⟩
    · rintro ⟨hempty, hpoint, hmark, hbase, hsome, last, hleads⟩
      obtain ⟨steps, hsteps⟩ := exists_planOne_iff.2
        ⟨checkAlias_eq_ok_iff.2 ⟨hempty, hpoint, hmark, hbase⟩, hsome, hleads⟩
      exact ⟨_, hsteps⟩
  simp only [← hone, ← Except.exists_mapM_eq_ok_iff, plan_eq_ok_iff]
  constructor
  · rintro ⟨p, qs, hqs, -⟩
    exact ⟨qs, hqs⟩
  · rintro ⟨qs, hqs⟩
    exact ⟨_, qs, hqs, rfl⟩

/-- The names of a planned request's sources stand for the tables that they can name. -/
theorem table?_eq_some_iff {joins : JoinSpec} {p : JoinPlan} (h : plan catalog base joins = .ok p)
    {source : String} : Scope.table? ⟨base, p.aliases⟩ source = some t ↔
      IsSource catalog base joins source t := by
  obtain ⟨qs, hqs, rfl⟩ := plan_eq_ok_iff.1 h
  have hrel : List.Forall₂ (fun join entry => entry.1 = join.1 ∧ Leads catalog base join.2 entry.2)
      joins (qs.map (·.2)) := by
    rw [List.forall₂_map_right_iff]
    refine (Except.mapM_eq_ok_iff.1 hqs).imp ?_
    rintro join ⟨steps, aliasName, last⟩ hq
    obtain rfl : aliasName = join.1 := name_of_planOne hq
    exact ⟨rfl, (exists_planOne_iff.1 ⟨steps, hq⟩).2.2⟩
  have hfound : Option.Rel (Leads catalog base) (Assoc.find? joins source)
      (Assoc.find? (qs.map (·.2)) source) := Assoc.rel_find? hrel
  -- The base table goes before an alias of its name, which a valid join does not have.
  unfold Scope.table?
  dsimp only
  split
  · next hsource =>
    constructor
    · rintro ⟨⟩
      rw [hsource]
      exact .base
    · rintro (_ | ⟨hdeclared, -⟩)
      · rfl
      · -- No alias has the name of the base table.
        exact absurd hsource (exists_plan_iff.1 ⟨_, h⟩ _ (Assoc.mem_of_find? hdeclared)).ne_base
  · next hsource =>
    constructor
    · intro ht
      rw [ht] at hfound
      generalize hdeclared : Assoc.find? joins source = declared at hfound
      cases hfound with
      | some hleads => exact .aliasName hdeclared hleads
    · rintro (_ | ⟨hdeclared, hleads⟩)
      · exact absurd rfl hsource
      · rw [hdeclared] at hfound
        generalize Assoc.find? (qs.map (·.2)) source = found at hfound ⊢
        cases hfound with
        | some hfinal => rw [hfinal.unique hleads]

end Join

/-! ## Resolved references -/

/-- A reference has no point, or it is a source, a point and what comes after the first point. -/
theorem exists_point (reference : String) : '.' ∉ reference.toList ∨
    ∃ source rest, reference = source ++ "." ++ rest ∧ '.' ∉ source.toList := by
  by_cases h : '.' ∈ reference.toList
  · obtain ⟨before, after, heq, hbefore⟩ := List.eq_append_cons_of_mem h
    refine .inr ⟨String.ofList before, String.ofList after, ?_, by rwa [String.toList_ofList]⟩
    rw [← String.toList_inj, heq]
    simp
  · exact .inl h

/-- A reference without a point is the name of a column. -/
theorem splitReference_bare {name : String} (h : '.' ∉ name.toList) :
    splitReference name = some (none, name) := by
  have hdrop : name.toList.dropWhile (· ≠ '.') = [] := by
    refine List.dropWhile_eq_nil_iff.2 fun c hc => ?_
    have hne : c ≠ '.' := fun heq => h (heq ▸ hc)
    simpa using hne
  unfold splitReference
  dsimp only
  rw [hdrop]

/-- A reference is cut at its first point, and may have no other. -/
theorem splitReference_qualified {source rest : String} (h : '.' ∉ source.toList) :
    splitReference (source ++ "." ++ rest)
      = if rest.toList.contains '.' then none else some (some source, rest) := by
  have hbefore : ∀ c ∈ source.toList, decide (c ≠ '.') = true := by
    intro c hc
    have hne : c ≠ '.' := fun heq => h (heq ▸ hc)
    simpa using hne
  have hlist : (source ++ "." ++ rest).toList = source.toList ++ '.' :: rest.toList := by
    rw [String.toList_append, String.toList_append, List.append_assoc]
    rfl
  unfold splitReference
  dsimp only
  rw [hlist, List.dropWhile_append_of_pos hbefore, List.takeWhile_append_of_pos hbefore,
    List.dropWhile_cons_of_neg (by decide), List.takeWhile_cons_of_neg (by decide),
    List.append_nil, String.ofList_toList]
  dsimp only
  rw [String.ofList_toList]

namespace Scope

variable {s : Scope} {reference : String}

/-- The tables of a scope, by the names for them. -/
def IsTable (s : Scope) (source : String) (t : Table) : Prop := s.table? source = some t

/-- A source is found exactly under its own name. -/
theorem sourceTable_some_eq_ok_iff {source found : String} {t : Table} :
    s.sourceTable reference (some source) = .ok (t, found) ↔
      s.table? source = some t ∧ found = source := by
  unfold sourceTable
  dsimp only
  cases s.table? source with
  | none => simp
  | some u => simp [eq_comm]

/-- A reference refers to what its parts are found to be. -/
theorem refersTo_iff {t : Table} {name : String} :
    RefersTo s.base s.IsTable reference t name ↔ ∃ source? source,
      splitReference reference = some (source?, name) ∧
      s.sourceTable reference source? = .ok (t, source) := by
  constructor
  · rintro (⟨hpoint⟩ | ⟨hmeans, hbefore, hafter⟩)
    · exact ⟨none, _, splitReference_bare hpoint, rfl⟩
    · refine ⟨some _, _, ?_, sourceTable_some_eq_ok_iff.2 ⟨hmeans, rfl⟩⟩
      rw [splitReference_qualified hbefore, if_neg (by simpa using hafter)]
  · rintro ⟨source?, found, hsplit, hsource⟩
    rcases exists_point reference with hpoint | ⟨source, rest, rfl, hbefore⟩
    · rw [splitReference_bare hpoint] at hsplit
      obtain ⟨rfl, rfl⟩ := Prod.mk.inj (Option.some.inj hsplit)
      obtain ⟨rfl, -⟩ := Prod.mk.inj (Except.ok.inj hsource)
      exact .bare hpoint
    · rw [splitReference_qualified hbefore] at hsplit
      split at hsplit
      · cases hsplit
      · next hafter =>
        obtain ⟨rfl, rfl⟩ := Prod.mk.inj (Option.some.inj hsplit)
        exact .qualified (sourceTable_some_eq_ok_iff.1 hsource).1 hbefore (by simpa using hafter)

/-- What a reference resolves to. -/
theorem resolve_eq_ok_iff {found : Resolved} :
    s.resolve reference = .ok found ↔ ∃ source? source t name,
      splitReference reference = some (source?, name) ∧
      s.sourceTable reference source? = .ok (t, source) ∧
      ((name = wildcard ∧ found = ⟨t, source, source?.isSome, .wildcard⟩) ∨
        (name ≠ wildcard ∧ ∃ c, t.column name = .ok c ∧
          found = ⟨t, source, source?.isSome, .column c⟩)) := by
  unfold resolve
  constructor
  · intro h
    split at h
    · cases h
    · next source? name hsplit =>
      obtain ⟨⟨t, source⟩, hsource, h⟩ := Except.bind_eq_ok_iff.1 h
      refine ⟨source?, source, t, name, hsplit, hsource, ?_⟩
      dsimp only at h
      split at h
      · next hname => exact .inl ⟨hname, (Except.ok.inj h).symm⟩
      · next hname =>
        obtain ⟨target, htarget, h⟩ := Except.bind_eq_ok_iff.1 h
        obtain ⟨c, hc, rfl⟩ := Except.map_eq_ok_iff.1 htarget
        exact .inr ⟨hname, c, hc, (Except.ok.inj h).symm⟩
  · rintro ⟨source?, source, t, name, hsplit, hsource, ⟨hname, rfl⟩ | ⟨hname, c, hc, rfl⟩⟩
    · rw [hsplit]
      dsimp only
      rw [hsource, Except.ok_bind]
      dsimp only
      rw [if_pos hname]
      rfl
    · rw [hsplit]
      dsimp only
      rw [hsource, Except.ok_bind]
      dsimp only
      rw [if_neg hname, hc]
      rfl

/-- A reference resolves exactly if it names a column or all columns of a table of the scope. -/
theorem exists_resolve_iff :
    (∃ found, s.resolve reference = .ok found) ↔ NamesColumns s.base s.IsTable reference := by
  unfold NamesColumns
  simp only [resolve_eq_ok_iff, refersTo_iff]
  constructor
  · rintro ⟨found, source?, source, t, name, hsplit, hsource, ⟨hname, -⟩ | ⟨-, c, hc, -⟩⟩
    · exact ⟨t, name, ⟨source?, source, hsplit, hsource⟩, .inl hname⟩
    · exact ⟨t, name, ⟨source?, source, hsplit, hsource⟩, .inr (Table.exists_column_iff.1 ⟨c, hc⟩)⟩
  · rintro ⟨t, name, ⟨source?, source, hsplit, hsource⟩, hname⟩
    by_cases hwildcard : name = wildcard
    · exact ⟨_, source?, source, t, name, hsplit, hsource, .inl ⟨hwildcard, rfl⟩⟩
    · obtain ⟨c, hc⟩ := Table.exists_column_iff.2 (hname.resolve_left hwildcard)
      exact ⟨_, source?, source, t, name, hsplit, hsource, .inr ⟨hwildcard, c, hc, rfl⟩⟩

/-- A reference resolves to a column exactly if it names one. -/
theorem exists_resolveColumn_iff :
    (∃ c, s.resolveColumn reference = .ok c) ↔ NamesColumn s.base s.IsTable reference := by
  unfold NamesColumn resolveColumn
  simp only [Except.bind_eq_ok_iff, resolve_eq_ok_iff, refersTo_iff]
  constructor
  · rintro ⟨c, found, ⟨source?, source, t, name, hsplit, hsource, ⟨-, rfl⟩ | ⟨hname, d, hd, -⟩⟩, h⟩
    · cases h
    · exact ⟨t, name, ⟨source?, source, hsplit, hsource⟩, hname,
        Table.exists_column_iff.1 ⟨d, hd⟩⟩
  · rintro ⟨t, name, ⟨source?, source, hsplit, hsource⟩, hname, hcolumn⟩
    obtain ⟨c, hc⟩ := Table.exists_column_iff.2 hcolumn
    exact ⟨_, _, ⟨source?, source, t, name, hsplit, hsource, .inr ⟨hname, c, hc, rfl⟩⟩, rfl⟩

/-- An entry of a column list is selected exactly if its reference resolves. -/
theorem exists_select_iff :
    (∃ columns, s.select reference = .ok columns) ↔ NamesColumns s.base s.IsTable reference := by
  rw [← exists_resolve_iff]
  unfold select
  constructor
  · rintro ⟨columns, h⟩
    obtain ⟨found, hfound, -⟩ := Except.bind_eq_ok_iff.1 h
    exact ⟨found, hfound⟩
  · rintro ⟨found, hfound⟩
    rw [hfound, Except.ok_bind]
    cases found.target with
    | column c => exact ⟨_, rfl⟩
    | wildcard => exact ⟨_, rfl⟩

end Scope

/-! ## Planned requests -/

/-- A reference still refers to what it does among more sources. -/
theorem RefersTo.imp {base t : Table} {isSource isSource' : String → Table → Prop}
    (himp : ∀ source t, isSource source t → isSource' source t) {reference name : String} :
    RefersTo base isSource reference t name → RefersTo base isSource' reference t name
  | .bare hpoint => .bare hpoint
  | .qualified hmeans hbefore hafter => .qualified (himp _ _ hmeans) hbefore hafter

/-- So it still names a column. -/
theorem NamesColumn.imp {base : Table} {isSource isSource' : String → Table → Prop}
    (himp : ∀ source t, isSource source t → isSource' source t) {reference : String} :
    NamesColumn base isSource reference → NamesColumn base isSource' reference
  | ⟨t, name, hrefers, hcolumn⟩ => ⟨t, name, hrefers.imp himp, hcolumn⟩

/-- So it still names columns. -/
theorem NamesColumns.imp {base : Table} {isSource isSource' : String → Table → Prop}
    (himp : ∀ source t, isSource source t → isSource' source t) {reference : String} :
    NamesColumns base isSource reference → NamesColumns base isSource' reference
  | ⟨t, name, hrefers, hcolumn⟩ => ⟨t, name, hrefers.imp himp, hcolumn⟩

namespace Plan

variable {catalog : Catalog} {scope : Scope}

/-- A limit is accepted if it is from one to the greatest number of 64 bits. -/
theorem exists_limit_iff {limit : Option Nat} :
    (∃ n, limit.mapM checkLimit = .ok n) ↔ ∀ n ∈ limit, 1 ≤ n ∧ n ≤ 2 ^ 63 - 1 := by
  cases limit with
  | none => exact ⟨fun _ => nofun, fun _ => ⟨none, rfl⟩⟩
  | some n =>
    have hmax : Int64.maxValue.toNatClampNeg = 2 ^ 63 - 1 := by decide
    have hcheck : (∃ m, checkLimit n = .ok m) ↔ 1 ≤ n ∧ n ≤ 2 ^ 63 - 1 := by
      unfold checkLimit
      rw [hmax]
      split
      · next h =>
        simp only [Bool.and_eq_true, decide_eq_true_eq] at h
        exact ⟨fun _ => h, fun _ => ⟨_, rfl⟩⟩
      · next h =>
        simp only [Bool.and_eq_true, decide_eq_true_eq] at h
        exact ⟨nofun, fun hn => absurd hn h⟩
    simp only [Option.mapM_some, Except.map_eq_ok_iff, Option.mem_def, Option.some.injEq,
      forall_eq', ← hcheck]
    constructor
    · rintro ⟨_, m, hm, -⟩
      exact ⟨m, hm⟩
    · rintro ⟨m, hm⟩
      exact ⟨_, m, hm, rfl⟩

/-- A column list is accepted if each of its references names columns. -/
theorem exists_selectList_iff {references : List String} :
    (∃ columns, scope.selectList references = .ok columns) ↔
      ∀ reference ∈ references, NamesColumns scope.base scope.IsTable reference := by
  simp only [← Scope.exists_select_iff, ← Except.exists_mapM_eq_ok_iff]
  unfold Scope.selectList
  constructor
  · rintro ⟨columns, h⟩
    obtain ⟨lists, hlists, -⟩ := Except.bind_eq_ok_iff.1 h
    exact ⟨lists, hlists⟩
  · rintro ⟨lists, hlists⟩
    exact ⟨_, Except.bind_eq_ok_iff.2 ⟨lists, hlists, rfl⟩⟩

/-- An ordering is accepted if each of its references names a column. -/
theorem exists_ordering_iff {terms : List (String × Sql.Direction)} :
    (∃ planned, ordering scope terms = .ok planned) ↔
      ∀ term ∈ terms, NamesColumn scope.base scope.IsTable term.1 := by
  unfold ordering
  simp only [Except.exists_mapM_eq_ok_iff, ← Scope.exists_resolveColumn_iff]
  refine forall₂_congr fun term _ => ?_
  constructor
  · rintro ⟨planned, h⟩
    obtain ⟨c, hc, -⟩ := Except.bind_eq_ok_iff.1 h
    exact ⟨c, hc⟩
  · rintro ⟨c, hc⟩
    exact ⟨_, Except.bind_eq_ok_iff.2 ⟨c, hc, rfl⟩⟩

/-- A filter compiles exactly if it has the form of one and its references name columns. -/
theorem exists_conditionOfJson_iff {filters : Option Json} :
    (∃ condition, Filter.conditionOfJson scope filters = .ok condition) ↔
      ∀ raw ∈ filters, ∃ f, Filter.IsFilter raw ∧ Filter.Describes raw f ∧
        ∀ reference ∈ f.columns, NamesColumn scope.base scope.IsTable reference := by
  cases filters with
  | none => simp [Filter.conditionOfJson]
  | some raw =>
    simp only [Filter.conditionOfJson, Except.bind_eq_ok_iff, Option.mem_def, Option.some.injEq,
      forall_eq', ← Scope.exists_resolveColumn_iff]
    constructor
    · rintro ⟨condition, f, hf, hcondition⟩
      obtain ⟨hform, hread⟩ := (Filter.ofJson_eq_ok_iff raw f).1 hf
      exact ⟨f, hform, hread, Filter.resolveColumn_of_condition hcondition⟩
    · rintro ⟨f, hform, hread, hcolumns⟩
      have hf := (Filter.ofJson_eq_ok_iff raw f).2 ⟨hform, hread⟩
      rcases Filter.condition_or_isFirstUnresolved (Filter.isShaped_of_ofJson raw f hf) with
        ⟨-, condition, hcondition⟩ | ⟨cause, ⟨before, reference, after, heq, -, hfails⟩, -⟩
      · exact ⟨condition, f, hf, hcondition⟩
      · obtain ⟨c, hc⟩ := hcolumns reference (by simp [heq])
        rw [hfails] at hc
        cases hc

/-- The references of a planned request are to the tables that it can name. -/
theorem isTable_eq {base : Table} {joins : JoinSpec} {p : JoinPlan}
    (h : Join.plan catalog base joins = .ok p) :
    Scope.IsTable ⟨base, p.aliases⟩ = IsSource catalog base joins := by
  ext source t
  exact Join.table?_eq_some_iff h

/-- The wildcard names the columns of the base table. -/
theorem namesColumns_wildcard (base : Table) (isSource : String → Table → Prop) :
    NamesColumns base isSource wildcard :=
  ⟨base, wildcard, .bare (by decide), .inl rfl⟩

/-- A read request that is planned is well formed. -/
theorem isWellFormed_of_read {r : ReadRequest} {plan : ReadPlan} (h : read catalog r = .ok plan) :
    ∃ base, r.IsWellFormed catalog base := by
  obtain ⟨base, limit, joins, columns, condition, terms, hbase, hlimit, hjoins, hcolumns,
    hcondition, hterms, -⟩ := read_eq_ok_iff.1 h
  have hselected := exists_selectList_iff.1 ⟨columns, hcolumns⟩
  have hfilters := exists_conditionOfJson_iff.1 ⟨condition, hcondition⟩
  have hordering := exists_ordering_iff.1 ⟨terms, hterms⟩
  rw [isTable_eq hjoins] at hselected hfilters hordering
  refine ⟨base, Catalog.table_eq_ok_iff.1 hbase, exists_limit_iff.1 ⟨limit, hlimit⟩,
    Join.exists_plan_iff.1 ⟨joins, hjoins⟩, ?_, hfilters, hordering⟩
  intro reference hreference
  have hnonempty : ¬ r.columns.isEmpty = true := by
    rw [List.isEmpty_iff]
    exact List.ne_nil_of_mem hreference
  rw [if_neg hnonempty] at hselected
  exact hselected reference hreference

/-- A read request that is well formed is planned. -/
theorem exists_read_of_isWellFormed {base : Table} {r : ReadRequest}
    (h : r.IsWellFormed catalog base) : ∃ plan, read catalog r = .ok plan := by
  obtain ⟨limit, hlimit⟩ := exists_limit_iff.2 h.limit
  obtain ⟨joins, hjoins⟩ := Join.exists_plan_iff.2 h.joins
  have hreferences : ∀ reference ∈ if r.columns.isEmpty then [wildcard] else r.columns,
      NamesColumns base (IsSource catalog base (r.joins.getD [])) reference := by
    split
    · exact List.forall_mem_singleton.2 (namesColumns_wildcard _ _)
    · exact h.columns
  have hfilters := h.filters
  have hordering := h.ordering
  rw [← isTable_eq hjoins] at hreferences hfilters hordering
  let scope : Scope := ⟨base, joins.aliases⟩
  obtain ⟨columns, hcolumns⟩ : ∃ columns, scope.selectList _ = .ok columns :=
    exists_selectList_iff.2 hreferences
  obtain ⟨condition, hcondition⟩ : ∃ condition, Filter.conditionOfJson scope _ = .ok condition :=
    exists_conditionOfJson_iff.2 hfilters
  obtain ⟨terms, hterms⟩ : ∃ terms, ordering scope _ = .ok terms :=
    exists_ordering_iff.2 hordering
  exact ⟨_, read_eq_ok_iff.2 ⟨base, limit, joins, columns, condition, terms,
    Catalog.table_eq_ok_iff.2 h.exists_table, hlimit, hjoins, hcolumns, hcondition, hterms, rfl⟩⟩

end Plan

/-! ## Another join -/

/-- Another alias leaves what the others stand for. -/
theorem IsSource.insert {catalog : Catalog} {base : Table} {joins : JoinSpec} {aliasName : String}
    (hnew : Assoc.find? joins aliasName = none) (steps : List (List String)) :
    ∀ source t, IsSource catalog base joins source t →
      IsSource catalog base (Assoc.insert joins aliasName steps) source t
  | _, _, .base => .base
  | source, t, .aliasName hdeclared hleads => by
    have hne : source ≠ aliasName := by
      rintro rfl
      rw [hnew] at hdeclared
      cases hdeclared
    exact .aliasName ((Assoc.find?_insert_of_ne hne).trans hdeclared) hleads

/-- A request stays well formed with another join. -/
theorem ReadRequest.IsWellFormed.insert {catalog : Catalog} {base : Table} {r : ReadRequest}
    (h : r.IsWellFormed catalog base) {aliasName : String} {steps : List (List String)}
    (hjoin : Join.IsValid catalog base aliasName steps)
    (hnew : Assoc.find? (r.joins.getD []) aliasName = none) :
    { r with joins := some (Assoc.insert (r.joins.getD []) aliasName steps) }.IsWellFormed
      catalog base where
  exists_table := h.exists_table
  limit := h.limit
  joins := by
    intro join hmem
    rcases Assoc.mem_of_mem_insert hmem with rfl | hmem
    · exact hjoin
    · exact h.joins join hmem
  columns reference hreference := (h.columns reference hreference).imp (IsSource.insert hnew steps)
  filters raw hraw := by
    obtain ⟨f, hform, hread, hcolumns⟩ := h.filters raw hraw
    exact ⟨f, hform, hread, fun reference hreference =>
      (hcolumns reference hreference).imp (IsSource.insert hnew steps)⟩
  ordering term hterm := (h.ordering term hterm).imp (IsSource.insert hnew steps)

/-- **Exactly the well formed requests are accepted.** A read request is planned if and only if it
is well formed on some table of the catalog. A request that is planned is so too with another join
that is valid on its table. -/
theorem Plan.exists_read_iff_isWellFormed (catalog : Catalog) (r : ReadRequest) :
    ((∃ plan, read catalog r = .ok plan) ↔ ∃ base, r.IsWellFormed catalog base) ∧
    ∀ base aliasName steps, catalog.table? r.table = some base →
      Join.IsValid catalog base aliasName steps →
      Assoc.find? (r.joins.getD []) aliasName = none → (∃ plan, read catalog r = .ok plan) →
      ∃ plan, read catalog
        { r with joins := some (Assoc.insert (r.joins.getD []) aliasName steps) } = .ok plan := by
  refine ⟨⟨?_, ?_⟩, ?_⟩
  · rintro ⟨plan, h⟩
    exact isWellFormed_of_read h
  · rintro ⟨base, h⟩
    exact exists_read_of_isWellFormed h
  · rintro base aliasName steps hbase hjoin hnew ⟨plan, hplan⟩
    obtain ⟨found, h⟩ := isWellFormed_of_read hplan
    obtain rfl := Option.some.inj (hbase.symm.trans h.exists_table)
    exact exists_read_of_isWellFormed (h.insert hjoin hnew)

/-- A read over two steps of links, with a comparison and an ordering by what they lead to, and with
another join of the shots before each. -/
theorem Plan.exists_read_iff_isWellFormed_linked :
    let shot : Table := {
      name := "Shot"
      columns := [{ name := "id", type := .int, isKey := true },
        { name := "asset", type := .int }] }
    let asset : Table := {
      name := "Asset"
      columns := [{ name := "id", type := .int, isKey := true },
        { name := "parent", type := .int }] }
    let catalog : Catalog := ⟨[("Asset", asset), ("Shot", shot)]⟩
    let r : ReadRequest := {
      table := "Shot"
      columns := ["id", "parent.*"]
      filters := some (.object [("or", .array [.object [("eq", .object [("parent.id", .int 2)])]])])
      joins := some [("parent", [["asset", "eq", "Asset", "id"], ["parent", "eq", "Asset", "id"]])]
      limit := some 5
      ordering := some [("parent.id", .descending)] }
    let earlier : List (List String) := [["id", "gt", "Shot", "id"]]
    (∃ base, r.IsWellFormed catalog base) ∧
    ∃ plan, read catalog
      { r with joins := some (Assoc.insert (r.joins.getD []) "earlier" earlier) } = .ok plan := by
  intro shot asset catalog r earlier
  obtain ⟨hiff, hanother⟩ := exists_read_iff_isWellFormed catalog r
  have hplan : ∃ plan, read catalog r = .ok plan :=
    Except.isOk_iff.1 (by decide +kernel : (read catalog r).isOk = true)
  have hshot : catalog.table? "Shot" = some shot := by rfl
  have hid : shot.Has "id" := ⟨_, List.mem_cons_self, rfl⟩
  have hleads : Join.Leads catalog shot earlier shot :=
    .step (m := .gt) rfl hshot hid hid (.here shot)
  have hjoin : Join.IsValid catalog shot "earlier" earlier :=
    ⟨by decide, by decide, by decide, by decide, List.cons_ne_nil _ _, shot, hleads⟩
  have hnew : Assoc.find? (r.joins.getD []) "earlier" = none := by decide +kernel
  exact ⟨hiff.1 hplan, hanother shot "earlier" earlier hshot hjoin hnew hplan⟩

end Tabula
