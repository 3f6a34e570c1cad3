import Tabula.Proofs.Query.Reference

/-!
# References to all columns

In a column list `*` stands for the columns of the base table, and `*` after a source and a point for
the columns of that source. Main statement: a read request with such a reference is planned as the
request that lists the columns, each by the reference to it (`Plan.read_of_expands`).
-/

namespace Tabula

/-- Whether a column list comes from another by replacing some of the references to all columns with
references to each of them, in the order of the table. -/
inductive Expands (base : Table) (isSource : String → Table → Prop) :
    List String → List String → Prop where
  | nil : Expands base isSource [] []
  | keep (reference : String) {references expanded : List String}
      (rest : Expands base isSource references expanded) :
      Expands base isSource (reference :: references) (reference :: expanded)
  | ofBase {references expanded : List String} (rest : Expands base isSource references expanded) :
      Expands base isSource (wildcard :: references) (base.columns.map Column.name ++ expanded)
  | ofSource {source : String} {t : Table} {references expanded : List String}
      (means : isSource source t) (rest : Expands base isSource references expanded) :
      Expands base isSource ((source ++ "." ++ wildcard) :: references)
        (t.columns.map (fun c => source ++ "." ++ c.name) ++ expanded)

/-! ## Selected columns -/

namespace Scope

variable {s : Scope} {references expanded : List String} {source : String} {t : Table}

theorem selectList_cons (reference : String) (references : List String) :
    s.selectList (reference :: references) = do
      let first ← s.select reference
      let others ← s.selectList references
      return first ++ others := by
  unfold selectList
  simp only [List.mapM_cons, bind_assoc, pure_bind, List.flatten_cons]

theorem selectList_append (before after : List String) :
    s.selectList (before ++ after) = do
      let first ← s.selectList before
      let others ← s.selectList after
      return first ++ others := by
  unfold selectList
  simp only [List.mapM_append, bind_assoc, pure_bind, List.flatten_append]

/-- A reference to a column selects that column, with the reference as its label. -/
theorem select_of_resolveColumn {reference : String} {c : ScopedColumn}
    (h : s.resolveColumn reference = .ok c) :
    s.select reference = .ok [⟨c.ref, reference, c.column.type⟩] := by
  obtain ⟨found, hfound, h⟩ := Except.bind_eq_ok_iff.1 h
  split at h
  · next column htarget =>
    obtain rfl := Except.ok.inj h
    unfold select
    rw [hfound, Except.ok_bind, htarget]
    rfl
  · cases h

/-- References to columns of one source select these, each with its reference as its label. -/
theorem selectList_of_resolveColumn {columns : List Column} {nameOf : Column → String}
    (h : ∀ c ∈ columns, s.resolveColumn (nameOf c) = .ok ⟨t, source, c⟩) :
    s.selectList (columns.map nameOf)
      = .ok (columns.map fun c => ⟨⟨source, c.name⟩, nameOf c, c.type⟩) := by
  induction columns with
  | nil => rfl
  | cons c columns ih =>
    obtain ⟨hc, hcolumns⟩ := List.forall_mem_cons.1 h
    rw [List.map_cons, selectList_cons, select_of_resolveColumn hc, Except.ok_bind, ih hcolumns]
    rfl

theorem select_wildcard : s.select wildcard
    = .ok (s.base.columns.map fun c => ⟨⟨s.base.name, c.name⟩, c.name, c.type⟩) := by
  have hfound : s.resolve wildcard = .ok ⟨s.base, s.base.name, false, .wildcard⟩ :=
    resolve_eq_ok_iff.2 ⟨none, s.base.name, s.base, wildcard, splitReference_bare (by decide), rfl,
      .inl ⟨rfl, rfl⟩⟩
  unfold select
  rw [hfound]
  rfl

theorem select_wildcardOf (hpoint : '.' ∉ source.toList) (ht : s.table? source = some t) :
    s.select (source ++ "." ++ wildcard)
      = .ok (t.columns.map fun c => ⟨⟨source, c.name⟩, source ++ "." ++ c.name, c.type⟩) := by
  have hfound : s.resolve (source ++ "." ++ wildcard) = .ok ⟨t, source, true, .wildcard⟩ := by
    refine resolve_eq_ok_iff.2 ⟨some source, source, t, wildcard, ?_,
      sourceTable_some_eq_ok_iff.2 ⟨ht, rfl⟩, .inl ⟨rfl, rfl⟩⟩
    rw [splitReference_qualified hpoint, if_neg (by decide)]
  unfold select
  rw [hfound]
  rfl

namespace IsAddressable

/-- The references to the columns of the base table select what the reference to all of them does. -/
theorem selectList_base (hs : s.IsAddressable) :
    s.selectList (s.base.columns.map Column.name) = s.select wildcard := by
  rw [select_wildcard]
  exact selectList_of_resolveColumn fun c hc => hs.resolveColumn_iff_spells.2 (.bare hc)

/-- The references to the columns of a source select what the reference to all of them does. -/
theorem selectList_source (hs : s.IsAddressable) (ht : s.table? source = some t) :
    s.selectList (t.columns.map fun c => source ++ "." ++ c.name)
      = s.select (source ++ "." ++ wildcard) := by
  rw [select_wildcardOf (hs.of_table? ht).1 ht]
  exact selectList_of_resolveColumn fun c hc => hs.resolveColumn_of_mem ht hc

/-- A column list selects what it expands to. -/
theorem selectList_of_expands (hs : s.IsAddressable)
    (h : Expands s.base s.IsTable references expanded) :
    s.selectList expanded = s.selectList references := by
  induction h with
  | nil => rfl
  | keep reference _ ih => rw [selectList_cons, selectList_cons, ih]
  | ofBase _ ih => rw [selectList_append, selectList_cons, ih, hs.selectList_base]
  | ofSource means _ ih => rw [selectList_append, selectList_cons, ih, hs.selectList_source means]

/-- Every table has columns, so that only an empty column list expands to an empty one. -/
theorem isEmpty_of_expands (hs : s.IsAddressable)
    (h : Expands s.base s.IsTable references expanded) :
    expanded.isEmpty = references.isEmpty := by
  cases h with
  | nil => rfl
  | keep => rfl
  | ofBase => simp [hs.base.ne_nil]
  | ofSource means => simp [(hs.of_table? means).2.ne_nil]

end IsAddressable

end Scope

/-! ## Planned requests -/

namespace Plan

variable {catalog : Catalog} {r : ReadRequest}

/-- A request is planned as one with another column list if both select the same. -/
theorem read_congr_columns {columns : List String}
    (h : ∀ base p, catalog.table r.table = .ok base →
      Join.plan catalog base (r.joins.getD []) = .ok p →
      Scope.selectList ⟨base, p.aliases⟩ (if columns.isEmpty then [wildcard] else columns)
        = Scope.selectList ⟨base, p.aliases⟩ (if r.columns.isEmpty then [wildcard] else r.columns)) :
    read catalog { r with columns } = read catalog r := by
  unfold read
  refine Except.bind_congr_of_ok fun base hbase => ?_
  refine Except.bind_congr_of_ok fun limit _ => ?_
  refine Except.bind_congr_of_ok fun p hjoins => ?_
  dsimp only
  rw [h base p hbase hjoins]

/-- **References to all columns are shorthand.** In a built catalog, a read request with no columns is
planned as that for all columns of its base table. With references to all columns of the base table or
of a source replaced by references to each of these columns, a request is planned, or refused, as it
was. Requests that have no base table or a join that leads nowhere are refused as they are whatever
their columns. -/
theorem read_of_expands {tables : List Table} (hbuild : Catalog.build tables = .ok catalog)
    (r : ReadRequest) :
    read catalog { r with columns := [] } = read catalog { r with columns := [wildcard] } ∧
    (∀ base columns, catalog.table? r.table = some base →
      Expands base (IsSource catalog base (r.joins.getD [])) r.columns columns →
      read catalog { r with columns } = read catalog r) ∧
    ((∀ base, catalog.table? r.table = some base →
        ∃ join ∈ r.joins.getD [], ¬ Join.IsValid catalog base join.1 join.2) →
      ∀ columns, read catalog { r with columns } = read catalog r) := by
  refine ⟨rfl, ?_, ?_⟩
  · intro base columns hbase hexpands
    refine read_congr_columns fun found p hfound hjoins => ?_
    rw [Catalog.table_eq_ok_iff, hbase] at hfound
    obtain rfl := Option.some.inj hfound
    rw [← isTable_eq hjoins] at hexpands
    have hs : Scope.IsAddressable ⟨base, p.aliases⟩ := Scope.isAddressable_of_plan hbuild hbase hjoins
    rw [hs.isEmpty_of_expands hexpands]
    split
    · rfl
    · exact hs.selectList_of_expands hexpands
  · intro hnone columns
    refine read_congr_columns fun base p hbase hjoins => ?_
    obtain ⟨join, hjoin, hinvalid⟩ := hnone base (Catalog.table_eq_ok_iff.1 hbase)
    exact absurd (Join.exists_plan_iff.1 ⟨p, hjoins⟩ join hjoin) hinvalid

/-- Shots of assets. -/
def shotTable : Table where
  name := "Shot"
  columns := [{ name := "id", type := .int, isKey := true }, { name := "asset", type := .int }]

/-- Assets with a parent. -/
def assetTable : Table where
  name := "Asset"
  columns := [{ name := "id", type := .int, isKey := true }, { name := "parent", type := .int }]

/-- The steps from a shot to the parent of its asset. -/
def toParent : List (List String) :=
  [["asset", "eq", "Asset", "id"], ["parent", "eq", "Asset", "id"]]

/-- Shots with the parents of their assets, under the alias `*`. -/
def starred : ReadRequest where
  table := "Shot"
  columns := ["*.*", "asset", "*", "Shot.*", "*.*"]
  joins := some [("*", toParent)]

/-- In the column list of `starred` the alias `*` is a name like any other. A join with the name of the
base table leads nowhere. -/
theorem read_of_expands_starred :
    let catalog : Catalog := ⟨[("Asset", assetTable), ("Shot", shotTable)]⟩
    let columns := ["*.id", "*.parent", "asset", "id", "asset", "Shot.id", "Shot.asset", "*.*"]
    let ofBase : ReadRequest := { starred with joins := some [("Shot", toParent)] }
    Catalog.build [shotTable, assetTable] = .ok catalog ∧
      (∃ plan, read catalog starred = .ok plan ∧ read catalog { starred with columns } = .ok plan) ∧
      read catalog { starred with columns := [] }
        = read catalog { starred with columns := [wildcard] } ∧
      read catalog { ofBase with columns } = read catalog ofBase := by
  intro catalog columns ofBase
  have hbuild : Catalog.build [shotTable, assetTable] = .ok catalog := by rfl
  have hshot : catalog.table? "Shot" = some shotTable := rfl
  have hasset : catalog.table? "Asset" = some assetTable := rfl
  have hid : assetTable.Has "id" := ⟨_, List.mem_cons_self, rfl⟩
  have hparent : assetTable.Has "parent" := ⟨_, List.mem_cons_of_mem _ List.mem_cons_self, rfl⟩
  have hleft : shotTable.Has "asset" := ⟨_, List.mem_cons_of_mem _ List.mem_cons_self, rfl⟩
  have hleads : Join.Leads catalog shotTable toParent assetTable :=
    .step (m := .eq) rfl hasset hleft hid
      (.step (m := .eq) rfl hasset hparent hid (.here assetTable))
  have hbase : IsSource catalog shotTable [("*", toParent)] "Shot" shotTable := .base
  have hsource : IsSource catalog shotTable [("*", toParent)] "*" assetTable :=
    .aliasName rfl hleads
  have hexpands : Expands shotTable (IsSource catalog shotTable [("*", toParent)]) starred.columns
      columns :=
    .ofSource hsource (.keep _ (.ofBase (.ofSource hbase (.keep _ .nil))))
  obtain ⟨hempty, hplanned, -⟩ := read_of_expands hbuild starred
  obtain ⟨plan, hplan⟩ : ∃ plan, read catalog starred = .ok plan :=
    Except.isOk_iff.1 (by decide +kernel : (read catalog starred).isOk = true)
  refine ⟨hbuild, ⟨plan, hplan, (hplanned shotTable columns hshot hexpands).trans hplan⟩, hempty, ?_⟩
  obtain ⟨-, -, hrefused⟩ := read_of_expands hbuild ofBase
  refine hrefused (fun base hbase => ?_) columns
  obtain rfl := Option.some.inj (hshot.symm.trans hbase)
  exact ⟨_, List.mem_cons_self, fun hvalid => hvalid.ne_base rfl⟩

end Plan

end Tabula
