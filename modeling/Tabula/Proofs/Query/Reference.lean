import Tabula.Proofs.Query.Acceptance
import Tabula.Proofs.Query.Statements

/-!
# The spellings of columns

A column of the base table is spelled by its name, or with the name of the table and a point before
it; a column of a joined table is spelled with the alias and a point before it. Main statement: these
are all references that name a column, each of them names the column it spells, and two of them name
the same column only if they are the same but for the name of the base table
(`Scope.unambiguous_of_plan`).
-/

namespace Tabula

open Sql (ColumnRef)

/-! ## Names in references -/

/-- A name with one point is cut at it in one way. -/
theorem eq_of_point {a b x y : String} (ha : '.' ∉ a.toList) (hb : '.' ∉ b.toList)
    (h : x ++ "." ++ y = a ++ "." ++ b) : x = a ∧ y = b := by
  have hlist : a.toList ++ '.' :: b.toList = x.toList ++ '.' :: y.toList := by
    simpa using congrArg String.toList h.symm
  rw [List.append_cons_inj_of_notMem ha hb] at hlist
  exact ⟨String.toList_inj.1 hlist.1.symm, String.toList_inj.1 hlist.2.2.symm⟩

theorem point_mem (a b : String) : '.' ∈ (a ++ "." ++ b).toList := by
  simp

namespace Table

/-- Whether references can name a table and each of its columns. -/
structure IsAddressable (t : Table) : Prop where
  noPoint : '.' ∉ t.name.toList
  columns : ∀ c ∈ t.columns, '.' ∉ c.name.toList ∧ c.name ≠ wildcard
  nodup : (t.columns.map Column.name).Nodup
  ne_nil : t.columns ≠ []

/-- A table that passes its check is addressable. -/
theorem isAddressable_of_check {t : Table} (h : t.check = .ok ()) : t.IsAddressable := by
  obtain ⟨hname, hne, hcolumns, -, -⟩ := check_eq_ok_iff.1 h
  obtain ⟨hall, hnodup⟩ := checkColumns_eq_ok_iff.1 hcolumns
  exact ⟨(isName_iff.1 hname).2.1, fun c hc => (isName_iff.1 (hall c hc).1).2, hnodup, hne⟩

/-- A column is found by its name. -/
theorem IsAddressable.column_eq_ok {t : Table} (h : t.IsAddressable) {c : Column}
    (hc : c ∈ t.columns) : t.column c.name = .ok c := by
  obtain ⟨found, hfound⟩ := exists_column_iff.2 ⟨c, hc, rfl⟩
  obtain ⟨hmem, hname⟩ := Table.column_eq_ok hfound
  rw [hfound, List.inj_on_of_nodup_map h.nodup hmem hc hname]

end Table

namespace Scope

variable {s : Scope} {reference : String} {c : ScopedColumn}

/-- Whether references can tell the sources of a scope and their columns apart. -/
structure IsAddressable (s : Scope) : Prop where
  base : s.base.IsAddressable
  aliases : ∀ a t, Assoc.find? s.aliases a = some t →
    '.' ∉ a.toList ∧ '#' ∉ a.toList ∧ a ≠ s.base.name ∧ t.IsAddressable

/-- The sources of a request can be told apart if the catalog was built. -/
theorem isAddressable_of_plan {tables : List Table} {catalog : Catalog} {name : String}
    {base : Table} {joins : JoinSpec} {p : JoinPlan} (hbuild : Catalog.build tables = .ok catalog)
    (hbase : catalog.table? name = some base) (hplan : Join.plan catalog base joins = .ok p) :
    IsAddressable ⟨base, p.aliases⟩ := by
  have hall : ∀ t ∈ catalog.tables, t.IsAddressable := fun t ht =>
    Table.isAddressable_of_check (Catalog.check_of_build hbuild t ht)
  have hmem : base ∈ catalog.tables := (Catalog.mem_of_table? hbuild hbase).2
  refine ⟨hall base hmem, fun a t ht => ?_⟩
  have hentry := Assoc.mem_of_find? ht
  obtain ⟨entry, hentry', rfl⟩ : ∃ entry ∈ joins, entry.1 = a := by
    rw [← List.mem_map, ← Join.keys_plan hplan]
    exact List.mem_map_of_mem hentry
  have hvalid := Join.exists_plan_iff.1 ⟨p, hplan⟩ entry hentry'
  exact ⟨hvalid.noPoint, hvalid.noMark, hvalid.ne_base,
    hall t ((Join.areNamed_of_plan hplan hmem).2 _ hentry).1⟩

/-- A source is the base table or an alias. -/
theorem table?_cases {source : String} {t : Table} (h : s.table? source = some t) :
    (source = s.base.name ∧ t = s.base) ∨ Assoc.find? s.aliases source = some t := by
  unfold table? at h
  split at h
  · next hsource => exact .inl ⟨hsource, (Option.some.inj h).symm⟩
  · exact .inr h

theorem table?_base : s.table? s.base.name = some s.base := if_pos rfl

namespace IsAddressable

/-- An alias stands for its table. -/
theorem table?_alias (hs : s.IsAddressable) {a : String} {t : Table}
    (ht : Assoc.find? s.aliases a = some t) : s.table? a = some t := by
  unfold table?
  rw [if_neg (hs.aliases a t ht).2.2.1, ht]

/-- The table of a source is addressable, and its name has no point. -/
theorem of_table? (hs : s.IsAddressable) {source : String} {t : Table}
    (h : s.table? source = some t) : '.' ∉ source.toList ∧ t.IsAddressable := by
  rcases table?_cases h with ⟨rfl, rfl⟩ | ht
  · exact ⟨hs.base.noPoint, hs.base⟩
  · exact ⟨(hs.aliases source t ht).1, (hs.aliases source t ht).2.2.2⟩

end IsAddressable

/-! ## What a reference resolves to -/

/-- A reference names the column of its name in the table of its source. -/
theorem resolveColumn_eq_ok_iff : s.resolveColumn reference = .ok c ↔ ∃ source? name,
    splitReference reference = some (source?, name) ∧
    s.sourceTable reference source? = .ok (c.table, c.source) ∧ name ≠ wildcard ∧
    c.table.column name = .ok c.column := by
  unfold resolveColumn
  simp only [Except.bind_eq_ok_iff, resolve_eq_ok_iff]
  constructor
  · rintro ⟨found, ⟨source?, source, t, name, hsplit, hsource, ⟨-, rfl⟩ | ⟨hname, d, hd, rfl⟩⟩, h⟩
    · cases h
    · obtain rfl := Except.ok.inj h
      exact ⟨source?, name, hsplit, hsource, hname, hd⟩
  · rintro ⟨source?, name, hsplit, hsource, hname, hcolumn⟩
    exact ⟨_, ⟨source?, c.source, c.table, name, hsplit, hsource, .inr ⟨hname, c.column, hcolumn, rfl⟩⟩,
      rfl⟩

/-- Without a point it names a column of the base table. -/
theorem resolveColumn_bare (hpoint : '.' ∉ reference.toList) :
    s.resolveColumn reference = .ok c ↔ c.table = s.base ∧ c.source = s.base.name ∧
      reference ≠ wildcard ∧ c.table.column reference = .ok c.column := by
  rw [resolveColumn_eq_ok_iff, splitReference_bare hpoint]
  constructor
  · rintro ⟨source?, name, hsplit, hsource, hname, hcolumn⟩
    obtain ⟨rfl, rfl⟩ := Prod.mk.inj (Option.some.inj hsplit)
    obtain ⟨htable, hbase⟩ := Prod.mk.inj (Except.ok.inj hsource)
    exact ⟨htable.symm, hbase.symm, hname, hcolumn⟩
  · rintro ⟨htable, hsource, hname, hcolumn⟩
    refine ⟨none, reference, rfl, ?_, hname, hcolumn⟩
    rw [htable, hsource]
    rfl

/-- With a point it names a column of the source before it. -/
theorem resolveColumn_qualified {source name : String} (hpoint : '.' ∉ source.toList) :
    s.resolveColumn (source ++ "." ++ name) = .ok c ↔ '.' ∉ name.toList ∧ c.source = source ∧
      s.table? source = some c.table ∧ name ≠ wildcard ∧ c.table.column name = .ok c.column := by
  rw [resolveColumn_eq_ok_iff, splitReference_qualified hpoint]
  constructor
  · rintro ⟨source?, found, hsplit, hsource, hname, hcolumn⟩
    split at hsplit
    · cases hsplit
    · next hafter =>
      obtain ⟨rfl, rfl⟩ := Prod.mk.inj (Option.some.inj hsplit)
      obtain ⟨htable, hfound⟩ := sourceTable_some_eq_ok_iff.1 hsource
      exact ⟨by simpa using hafter, hfound, htable, hname, hcolumn⟩
  · rintro ⟨hafter, hfound, htable, hname, hcolumn⟩
    exact ⟨some source, name, if_neg (by simpa using hafter),
      sourceTable_some_eq_ok_iff.2 ⟨htable, hfound⟩, hname, hcolumn⟩

/-! ## Spellings -/

/-- Whether a reference spells a column: by its name for a column of the base table, or by its name
after that of the base table or of an alias and a point. -/
inductive Spells (s : Scope) : String → ScopedColumn → Prop where
  | bare {c : Column} (hc : c ∈ s.base.columns) : Spells s c.name ⟨s.base, s.base.name, c⟩
  | ofBase {c : Column} (hc : c ∈ s.base.columns) :
      Spells s (s.base.name ++ "." ++ c.name) ⟨s.base, s.base.name, c⟩
  | ofAlias {a : String} {t : Table} {c : Column} (ht : Assoc.find? s.aliases a = some t)
      (hc : c ∈ t.columns) : Spells s (a ++ "." ++ c.name) ⟨t, a, c⟩

namespace IsAddressable

/-- The columns of a source are named with the name of the source. -/
theorem resolveColumn_of_mem (hs : s.IsAddressable) {source : String} {t : Table} {c : Column}
    (ht : s.table? source = some t) (hc : c ∈ t.columns) :
    s.resolveColumn (source ++ "." ++ c.name) = .ok ⟨t, source, c⟩ := by
  obtain ⟨hpoint, htable⟩ := hs.of_table? ht
  obtain ⟨hafter, hname⟩ := htable.columns c hc
  exact (resolveColumn_qualified hpoint).2 ⟨hafter, rfl, ht, hname, htable.column_eq_ok hc⟩

/-- A reference names a column exactly if it spells it. -/
theorem resolveColumn_iff_spells (hs : s.IsAddressable) :
    s.resolveColumn reference = .ok c ↔ s.Spells reference c := by
  constructor
  · intro h
    obtain ⟨t, source, column⟩ := c
    rcases exists_point reference with hpoint | ⟨named, rest, rfl, hpoint⟩
    · obtain ⟨rfl, rfl, -, hcolumn⟩ := (resolveColumn_bare hpoint).1 h
      obtain ⟨hmem, rfl⟩ := Table.column_eq_ok hcolumn
      exact .bare hmem
    · obtain ⟨-, rfl, ht, -, hcolumn⟩ := (resolveColumn_qualified hpoint).1 h
      obtain ⟨hmem, rfl⟩ := Table.column_eq_ok hcolumn
      rcases table?_cases ht with ⟨hsource, htable⟩ | ht
      · dsimp only at hsource htable hmem
        subst hsource htable
        exact .ofBase hmem
      · exact .ofAlias ht hmem
  · intro h
    cases h with
    | bare hc =>
      obtain ⟨hpoint, hname⟩ := hs.base.columns _ hc
      exact (resolveColumn_bare hpoint).2 ⟨rfl, rfl, hname, hs.base.column_eq_ok hc⟩
    | ofBase hc => exact hs.resolveColumn_of_mem table?_base hc
    | ofAlias ht hc => exact hs.resolveColumn_of_mem (hs.table?_alias ht) hc

/-- What is spelled is a column of a source, with the name of the source in front or, if that is the
base table, without. -/
theorem spells_cases (hs : s.IsAddressable) (h : s.Spells reference c) :
    s.table? c.source = some c.table ∧ c.column ∈ c.table.columns ∧
      (reference = c.source ++ "." ++ c.column.name ∨
        c.source = s.base.name ∧ reference = c.column.name) := by
  cases h with
  | bare hc => exact ⟨table?_base, hc, .inr ⟨rfl, rfl⟩⟩
  | ofBase hc => exact ⟨table?_base, hc, .inl rfl⟩
  | ofAlias ht hc => exact ⟨hs.table?_alias ht, hc, .inl rfl⟩

/-- With a point in it, only the source and the column that a reference spells stand around it. -/
theorem eq_of_spells_point (hs : s.IsAddressable) {x y : String} (h : s.Spells (x ++ "." ++ y) c) :
    x = c.source ∧ y = c.column.name := by
  obtain ⟨ht, hc, hreference⟩ := hs.spells_cases h
  obtain ⟨hsource, htable⟩ := hs.of_table? ht
  have hname := (htable.columns _ hc).1
  rcases hreference with hreference | ⟨-, hreference⟩
  · exact eq_of_point hsource hname hreference
  · exact absurd (hreference ▸ point_mem x y) hname

end IsAddressable

/-! ## References that name no column -/

/-- References that are to no single column, whatever the columns are called: those to all columns,
those through a step on the way, unless the base table has its name, and those with several points. -/
inductive NamesNone (base : Table) : String → Prop where
  | wildcard : NamesNone base wildcard
  | wildcardOf (source : String) : NamesNone base (source ++ "." ++ Tabula.wildcard)
  | onTheWay {a : String} {i : Nat} (rest : String) (hne : a ++ "#" ++ toString i ≠ base.name) :
      NamesNone base (a ++ "#" ++ toString i ++ "." ++ rest)
  | points {reference : String} (h : 2 ≤ reference.toList.count '.') : NamesNone base reference

/-- What names nothing spells no column. -/
theorem IsAddressable.not_spells (hs : s.IsAddressable) (h : NamesNone s.base reference) :
    ¬ s.Spells reference c := by
  intro hspells
  obtain ⟨ht, hc, hreference⟩ := hs.spells_cases hspells
  obtain ⟨hsource, htable⟩ := hs.of_table? ht
  obtain ⟨hname, hne⟩ := htable.columns _ hc
  cases h with
  | wildcard =>
    rcases hreference with hreference | ⟨-, hreference⟩
    · exact absurd (hreference ▸ point_mem c.source c.column.name) (by decide)
    · exact hne hreference.symm
  | wildcardOf source => exact hne (hs.eq_of_spells_point hspells).2.symm
  | @onTheWay a i rest hbase =>
    obtain ⟨hstep, -⟩ := hs.eq_of_spells_point hspells
    rcases table?_cases ht with ⟨hsource, -⟩ | ht
    · exact hbase (hstep.trans hsource)
    · exact (hs.aliases _ _ ht).2.1 (hstep ▸ by simp)
  | points hpoints =>
    rw [← List.count_eq_zero] at hsource hname
    rcases hreference with rfl | ⟨-, rfl⟩
    · simp [hsource, hname] at hpoints
    · omega

/-! ## References to the same column -/

/-- Whether two references are the same but for the name of the base table. -/
def SameButForBase (base : Table) (r r' : String) : Prop :=
  r = r' ∨ r = base.name ++ "." ++ r' ∨ r' = base.name ++ "." ++ r

namespace IsAddressable

variable {r r' : String} {c' : ScopedColumn}

/-- With and without the name of the base table, references name one column. -/
theorem ref_eq_of_base (hs : s.IsAddressable) (h : s.Spells (s.base.name ++ "." ++ r) c)
    (h' : s.Spells r c') : c.ref = c'.ref := by
  obtain ⟨hsource, rfl⟩ := hs.eq_of_spells_point h
  obtain ⟨ht, hc, -⟩ := hs.spells_cases h
  have hname := ((hs.of_table? ht).2.columns _ hc).1
  obtain ⟨-, -, hreference | ⟨hbase, hreference⟩⟩ := hs.spells_cases h'
  · exact absurd (hreference ▸ point_mem c'.source c'.column.name) hname
  · unfold ScopedColumn.ref
    rw [← hsource, hbase, hreference]

/-- References are to the same column exactly if they are the same but for the name of the base
table. -/
theorem ref_eq_iff (hs : s.IsAddressable) (h : s.Spells r c) (h' : s.Spells r' c') :
    c.ref = c'.ref ↔ SameButForBase s.base r r' := by
  constructor
  · intro href
    obtain ⟨hsource, hname⟩ : c.source = c'.source ∧ c.column.name = c'.column.name :=
      Sql.ColumnRef.mk.inj href
    obtain ⟨-, -, hr⟩ := hs.spells_cases h
    obtain ⟨-, -, hr'⟩ := hs.spells_cases h'
    rw [hsource, hname] at hr
    rcases hr with rfl | ⟨hbase, rfl⟩ <;> rcases hr' with rfl | ⟨hbase', rfl⟩
    · exact .inl rfl
    · exact .inr (.inl (hbase' ▸ rfl))
    · exact .inr (.inr (hbase ▸ rfl))
    · exact .inl rfl
  · rintro (rfl | rfl | rfl)
    · rw [← hs.resolveColumn_iff_spells] at h h'
      rw [Except.ok.inj (h.symm.trans h')]
    · exact hs.ref_eq_of_base h h'
    · exact (hs.ref_eq_of_base h' h).symm

/-- A column is determined by the name of its source and its own. -/
theorem eq_of_ref_eq (hs : s.IsAddressable) (h : s.Spells r c) (h' : s.Spells r' c')
    (href : c.ref = c'.ref) : c = c' := by
  obtain ⟨t, source, column⟩ := c
  obtain ⟨t', source', column'⟩ := c'
  obtain ⟨hsource, hname⟩ : source = source' ∧ column.name = column'.name :=
    Sql.ColumnRef.mk.inj href
  obtain ⟨ht, hc, -⟩ := hs.spells_cases h
  obtain ⟨ht', hc', -⟩ := hs.spells_cases h'
  dsimp only at ht hc ht' hc'
  subst hsource
  obtain rfl := Option.some.inj (ht.symm.trans ht')
  rw [List.inj_on_of_nodup_map (hs.of_table? ht).2.nodup hc hc' hname]

end IsAddressable

/-- **Column references are complete and unambiguous.** In the scope of a base table of a built catalog
and its joins, the references that name a column are the spellings of the columns, each naming the
column that it spells; every other string is refused for what is not declared, among them those to all
columns, those through a step on the way and those with several points. So every column of every
source can be named, and two references name the same column exactly if they are the same but for the
name of the base table. -/
theorem unambiguous_of_plan {tables : List Table} {catalog : Catalog} {name : String} {base : Table}
    {joins : JoinSpec} {p : JoinPlan} (hbuild : Catalog.build tables = .ok catalog)
    (hbase : catalog.table? name = some base) (hplan : Join.plan catalog base joins = .ok p) :
    let s : Scope := ⟨base, p.aliases⟩
    (∀ reference c, s.resolveColumn reference = .ok c ↔ s.Spells reference c) ∧
    (∀ reference, (∀ c, ¬ s.Spells reference c) →
      ∃ cause, s.resolveColumn reference = .error (.schema cause)) ∧
    (∀ reference, NamesNone base reference → ∀ c, ¬ s.Spells reference c) ∧
    (∀ source t, s.table? source = some t → ∀ c ∈ t.columns,
      s.resolveColumn (source ++ "." ++ c.name) = .ok ⟨t, source, c⟩) ∧
    ∀ r r' c c', s.resolveColumn r = .ok c → s.resolveColumn r' = .ok c' →
      (c.ref = c'.ref ↔ SameButForBase base r r') ∧ (c.ref = c'.ref → c = c') := by
  intro s
  have hs : s.IsAddressable := isAddressable_of_plan hbuild hbase hplan
  refine ⟨fun _ _ => hs.resolveColumn_iff_spells, ?_, fun _ h _ => hs.not_spells h,
    fun _ _ ht _ hc => hs.resolveColumn_of_mem ht hc, ?_⟩
  · intro reference hnone
    cases hresolved : s.resolveColumn reference with
    | ok c => exact absurd (hs.resolveColumn_iff_spells.1 hresolved) (hnone c)
    | error e =>
      obtain ⟨cause, rfl⟩ := failsWith_resolveColumn (P := fun e => ∃ cause, e = .schema cause)
        (fun cause => ⟨cause, rfl⟩) reference e hresolved
      exact ⟨cause, rfl⟩
  · intro r r' c c' h h'
    rw [hs.resolveColumn_iff_spells] at h h'
    exact ⟨hs.ref_eq_iff h h', hs.eq_of_ref_eq h h'⟩

/-- References on a table that has the name of a step, next to an alias with two steps: the column of
the table can be named with and without the table, and that of the alias, but not that of the second
step on the way. -/
theorem unambiguous_of_plan_linked :
    let catalog := Join.linked
    let joins : JoinSpec :=
      [("S", [["next", "eq", "S#0", "next"], ["next", "lt", "S#0", "next"],
        ["next", "eq", "Asset", "id"]])]
    ∃ base p, Catalog.build catalog.tables = .ok catalog ∧ catalog.table? "S#0" = some base ∧
      Join.plan catalog base joins = .ok p ∧
      (∃ c, resolveColumn ⟨base, p.aliases⟩ "next" = .ok c ∧
        resolveColumn ⟨base, p.aliases⟩ "S#0.next" = .ok c) ∧
      (∃ c, resolveColumn ⟨base, p.aliases⟩ "S.id" = .ok c) ∧
      ∃ cause, resolveColumn ⟨base, p.aliases⟩ "S#1.next" = .error (.schema cause) := by
  intro catalog joins
  have hbuild : Catalog.build catalog.tables = .ok catalog := rfl
  obtain ⟨base, hbase⟩ : ∃ base, catalog.table? "S#0" = some base := ⟨_, rfl⟩
  obtain ⟨p, hplan⟩ : ∃ p, Join.plan catalog base joins = .ok p := by
    obtain rfl := Option.some.inj hbase
    exact ⟨_, rfl⟩
  obtain ⟨hspells, hrefused, hnone, hnamed, hsame⟩ := unambiguous_of_plan hbuild hbase hplan
  refine ⟨base, p, hbuild, hbase, hplan, ?_, ?_, ?_⟩
  · obtain ⟨c, hc⟩ : ∃ c, resolveColumn ⟨base, p.aliases⟩ "next" = .ok c := by
      obtain rfl := Option.some.inj hbase
      exact ⟨_, rfl⟩
    obtain ⟨c', hc'⟩ : ∃ c, resolveColumn ⟨base, p.aliases⟩ "S#0.next" = .ok c := by
      obtain rfl := Option.some.inj hbase
      exact ⟨_, rfl⟩
    have hbut : SameButForBase base "next" "S#0.next" := by
      obtain rfl := Option.some.inj hbase
      exact .inr (.inr rfl)
    obtain ⟨hiff, heq⟩ := hsame _ _ c c' hc hc'
    obtain rfl := heq (hiff.2 hbut)
    exact ⟨c, hc, hc'⟩
  · obtain rfl := Option.some.inj hbase
    obtain rfl := Except.ok.inj hplan
    exact ⟨_, hnamed "S" _ rfl _ List.mem_cons_self⟩
  · have hstep : NamesNone base "S#1.next" := by
      obtain rfl := Option.some.inj hbase
      exact .onTheWay (a := "S") (i := 1) "next" (by decide)
    exact hrefused _ (hnone _ hstep)

end Scope

end Tabula
