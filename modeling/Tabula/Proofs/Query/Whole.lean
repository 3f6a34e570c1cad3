import Tabula.Proofs.Query.Read
import Tabula.Proofs.Query.Scope
import Tabula.Proofs.Store.Selected
import Tabula.Proofs.Store.Size

/-!
# Reading whole rows

A request without joins for all columns of a table succeeds unless the condition that its filter is
compiled to is too large or a pattern too long (`read_whole_cases`), and gives the rows for which the filter is true
(`perm_of_read_whole`). The checks of the condition are true for the same rows
(`exists_checks_of_whole`).
-/

namespace Tabula

open Sql (Condition)
open Store (Check Choice Relation Row baseSource checkClause)

/-! ## Long patterns -/

/-- Whether a comparison of a filter is with a pattern that is too long for the store. -/
def Constraint.hasLongPattern (k : Constraint) : Bool :=
  k.method.isTextual && (Cell.ofValue? k.value).any Store.isLongPattern

namespace Filter

/-- Whether a comparison of a filter is with a pattern that is too long for the store. -/
def hasLongPattern : Option Json → Bool
  | none => false
  | some raw =>
      match ofJson raw with
      | .ok f => f.atoms.any Constraint.hasLongPattern
      | .error _ => false

/-- The check of a comparison has a long pattern only if the comparison has. -/
theorem mayHaveLongPattern_of_test {scope : Scope} {sources : List Store.Source} {k : Constraint}
    {t : Sql.Test} {check : Check} (hk : k.test scope = .ok t)
    (hcheck : Store.checkOfTest sources t = .ok check) (hshort : k.hasLongPattern = false)
    (relations : List Relation) : Store.mayHaveLongPattern relations check = false := by
  obtain ⟨c, -, operand, hoperand, rfl⟩ := Scope.test_eq_ok hk
  unfold Store.checkOfTest at hcheck
  rcases Scene.operand_eq_ok hoperand with ⟨vs, -, -, rfl⟩ | ⟨-, rfl⟩
  · cases vs with
    | nil =>
        obtain rfl := Except.ok.inj hcheck
        rfl
    | cons v vs =>
        obtain ⟨place, -, hcheck⟩ := Except.bind_eq_ok_iff.1 hcheck
        obtain ⟨cells, -, hcheck⟩ := Except.bind_eq_ok_iff.1 hcheck
        obtain rfl := Except.ok.inj hcheck
        rfl
  · obtain ⟨place, -, hcheck⟩ := Except.bind_eq_ok_iff.1 hcheck
    obtain ⟨cell, hcell, hcheck⟩ := Except.bind_eq_ok_iff.1 hcheck
    obtain rfl := Except.ok.inj hcheck
    have hcell : Cell.ofValue? k.value = some cell := by
      unfold Store.bindValue at hcell
      split at hcell
      · next c hc => rw [hc, Except.ok.inj hcell]
      · cases hcell
    unfold Constraint.hasLongPattern at hshort
    rwa [hcell] at hshort

/-- **The checks of a compiled filter have no long pattern** if the filter has none. -/
theorem mayHaveLongPattern_of_filter {scope : Scope} {sources : List Store.Source}
    {filters : Option Json} {condition : Option Condition} {checks : Formula Check}
    (hcondition : conditionOfJson scope filters = .ok condition)
    (hchecks : Store.checksOfClause sources condition = .ok checks)
    (hshort : hasLongPattern filters = false) (relations : List Relation) :
    ∀ check ∈ checks.atoms, Store.mayHaveLongPattern relations check = false := by
  intro check hcheck
  cases condition with
  | none =>
      obtain rfl := Except.ok.inj hchecks
      cases hcheck
  | some c =>
      rcases Store.isAmong_of_checksOf c hchecks check hcheck with ⟨holds, rfl⟩ | ⟨t, ht, htest⟩
      · rfl
      · cases filters with
        | none => cases Except.ok.inj hcondition
        | some raw =>
            obtain ⟨f, hf, hcondition⟩ := Except.bind_eq_ok_iff.1 hcondition
            obtain ⟨k, hk, htestOf⟩ :=
              (Scope.forall₂_atoms_of_condition hcondition).exists_of_mem_right ht
            unfold hasLongPattern at hshort
            dsimp only at hshort
            rw [hf] at hshort
            have hone : k.hasLongPattern = false := by simpa using List.any_eq_false.1 hshort k hk
            exact mayHaveLongPattern_of_test htestOf htest hone relations

end Filter

/-! ## Records that are shown -/

namespace Record

/-- The result row of all columns of a record. -/
def shown (r : Record) : ResultRow := r.table.columns.map fun c => ⟨c.name, r.value c⟩

/-- Whether the filter of a request without joins is true for a record. -/
def passes (r : Record) (filters : Option Json) : Bool := Selection.passes ⟨r, []⟩ filters

/-- Whether a record is passed over in a comparison of the filter. -/
def isPassedOver (r : Record) (filters : Option Json) : Bool :=
  Selection.isPassedOverByFilter ⟨r, []⟩ filters

theorem row_wildcard (r : Record) : Selection.row ⟨r, []⟩ [wildcard] = r.shown := by
  have hsplit : splitReference wildcard = some (none, wildcard) := by decide
  unfold Selection.row Selection.fieldsOf shown
  rw [if_neg (by decide), List.flatMap_singleton, hsplit]
  show (if wildcard = wildcard then _ else _) = _
  rw [if_pos rfl]
  apply List.map_congr_left
  intro c _
  rw [Option.elim_none, String.empty_append]

end Record

/-! ## Whole rows -/

/-- A request for all columns of the rows of a table for which a filter is true. -/
def ReadRequest.whole (table : String) (filters : Option Json) : ReadRequest where
  table := table
  filters := filters

namespace Database

variable {db : Database} {table : String} {filters : Option Json} {scoping : Scoping}

theorem selections_whole : db.selections (.whole table filters)
    = (db.records table).map fun r => ⟨r, []⟩ := by
  unfold selections
  rw [List.map_eq_flatMap]
  rfl

theorem meaning_whole : db.meaning (.whole table filters)
    = ((db.records table).filter (·.passes filters)).map fun r => ⟨r, []⟩ := by
  unfold meaning
  rw [selections_whole, List.filter_map]
  rfl

/-- The rows of some records, in another order. -/
theorem perm_shown {chosen : List Selection}
    (hperm : chosen.Perm (db.meaning (.whole table filters))) :
    (((ReadRequest.whole table filters).upTo chosen).map fun s => s.row [wildcard]).Perm
      (((db.records table).filter (·.passes filters)).map Record.shown) := by
  show (chosen.map fun s => s.row [wildcard]).Perm _
  rw [meaning_whole] at hperm
  refine (hperm.map _).trans (.of_eq ?_)
  rw [List.map_map]
  apply List.map_congr_left
  intro r _
  exact r.row_wildcard

theorem selectList_wildcard (t : Table) : Scope.selectList ⟨t, []⟩ [wildcard]
    = .ok (t.columns.map fun c => ⟨⟨t.name, c.name⟩, c.name, c.type⟩) := by
  have hsplit : splitReference wildcard = some (none, wildcard) := by decide
  have hresolve : Scope.resolve ⟨t, []⟩ wildcard = .ok ⟨t, t.name, false, .wildcard⟩ := by
    unfold Scope.resolve
    rw [hsplit]
    rfl
  have hselect : Scope.select ⟨t, []⟩ wildcard
      = .ok (t.columns.map fun c => ⟨⟨t.name, c.name⟩, c.name, c.type⟩) := by
    unfold Scope.select
    rw [hresolve]
    rfl
  unfold Scope.selectList
  rw [List.mapM_cons, hselect]
  show Except.ok (List.flatten [_]) = _
  rw [List.flatten_singleton]

/-- The plan of a request for whole rows. -/
theorem plan_whole {t : Table} (ht : db.catalog.table table = .ok t) :
    Plan.read db.catalog (.whole table filters) = do
      let condition ← Filter.conditionOfJson ⟨t, []⟩ filters
      return ⟨t.selectWhole condition,
        t.columns.map fun c => ⟨⟨t.name, c.name⟩, c.name, c.type⟩⟩ := by
  have ht : db.catalog.table (ReadRequest.whole table filters).table = .ok t := ht
  have hlimit : (ReadRequest.whole table filters).limit.mapM Plan.checkLimit = .ok none := rfl
  have hjoins : Join.plan db.catalog t ((ReadRequest.whole table filters).joins.getD [])
      = .ok ⟨[], []⟩ := rfl
  unfold Plan.read
  rw [ht, Except.ok_bind, hlimit, Except.ok_bind, hjoins, Except.ok_bind]
  show (Scope.selectList ⟨t, []⟩ [wildcard] >>= _) = _
  rw [selectList_wildcard t, Except.ok_bind]
  show (Filter.conditionOfJson ⟨t, []⟩ filters >>= _) = _
  cases Filter.conditionOfJson ⟨t, []⟩ filters with
  | error e => rfl
  | ok condition =>
      show Except.ok _ = Except.ok _
      rw [List.map_map]
      rfl

theorem plan_whole_eq_ok {t : Table} (ht : db.catalog.table table = .ok t)
    {condition : Option Condition}
    (hcondition : Filter.conditionOfJson ⟨t, []⟩ filters = .ok condition) :
    Plan.read db.catalog (.whole table filters)
      = .ok ⟨t.selectWhole condition,
        t.columns.map fun c => ⟨⟨t.name, c.name⟩, c.name, c.type⟩⟩ := by
  rw [plan_whole ht, hcondition]
  rfl

/-- A request for whole rows finds all if its filter passes over no record. -/
theorem findsAll_whole (hfinds : ∀ r ∈ db.records table, r.isPassedOver filters = false) :
    db.FindsAll (.whole table filters) := by
  intro s hs
  rw [selections_whole] at hs
  obtain ⟨r, hr, rfl⟩ := List.mem_map.1 hs
  exact ⟨hfinds r hr, rfl⟩

/-- Whether a request fails for a pattern of its filter that is too long for the store. -/
def FailsOverlong {α : Type} (db : Database) (filters : Option Json)
    (outcome : Except Error α × Database) : Prop :=
  Filter.hasLongPattern filters = true ∧ outcome = (.error (.storage .patternTooLong), db)

/-- **When whole rows can be read.** A request for the whole rows of a table is refused if the condition
that its filter is compiled to is too large, and otherwise only for a long pattern. -/
theorem read_whole_cases (hfits : db.Fits) {t : Table} (ht : db.catalog.table table = .ok t)
    (hdefinable : t.IsDefinable) {condition : Option Condition}
    (hcondition : Filter.conditionOfJson ⟨t, []⟩ filters = .ok condition)
    (hscope : scoping = .joined ∨ db.inTransaction = false) :
    (∃ e, checkClause 0 condition = .error e ∧
        read scoping (.whole table filters) db = (.error e, db)) ∨
      (checkClause 0 condition = .ok () ∧
        ((∃ rows, read scoping (.whole table filters) db = (.ok rows, db)) ∨
          db.FailsOverlong filters (read scoping (.whole table filters) db))) := by
  have hplan := plan_whole_eq_ok ht hcondition
  obtain ⟨found, -⟩ := exists_resolved_of_read hfits (List.pairwise_singleton _ _) hplan
  obtain hjoins : found.joins = [] := (Except.ok.inj found.joins_eq).symm
  have hpatterns (hshort : Filter.hasLongPattern filters = false) :
      Store.checkPatterns found.sources found.tour = .ok () := by
    apply found.checkPatterns_eq_ok
    rw [hjoins, List.append_nil]
    exact Filter.mayHaveLongPattern_of_filter hcondition found.condition_eq hshort _
  rw [read_eq_fetch hscope hplan, found.select_eq, hdefinable.checkSelect_eq]
  cases checkClause 0 condition with
  | error e => exact .inl ⟨e, rfl, rfl⟩
  | ok _ =>
      refine .inr ⟨rfl, ?_⟩
      cases hchecked : Store.checkPatterns found.sources found.tour with
      | ok _ => exact .inl ⟨_, rfl⟩
      | error e =>
          obtain rfl := Store.checkPatterns_eq_error hchecked
          refine .inr ⟨?_, rfl⟩
          cases hlong : Filter.hasLongPattern filters with
          | true => rfl
          | false =>
              rw [hpatterns hlong] at hchecked
              cases hchecked

/-- **Reading whole rows.** A request for the whole rows of a table that succeeds gives those for which
its filter is true. -/
theorem perm_of_read_whole {after : Database} {rows : List ResultRow} (hfits : db.Fits)
    (hfinds : ∀ r ∈ db.records table, r.isPassedOver filters = false)
    (hscope : scoping = .joined ∨ db.inTransaction = false)
    (h : read scoping (.whole table filters) db = (.ok rows, after)) :
    after = db ∧ rows.Perm (((db.records table).filter (·.passes filters)).map Record.shown) := by
  cases hplan : Plan.read db.catalog (.whole table filters) with
  | error e =>
      unfold read at h
      rw [hplan] at h
      cases (Prod.mk.inj h).1
  | ok plan =>
      rw [read_eq_fetch hscope hplan] at h
      obtain ⟨hrows, hafter⟩ := Prod.mk.inj h
      refine ⟨hafter.symm, ?_⟩
      rcases select_of_read hfits (findsAll_whole hfinds) (List.pairwise_singleton _ _) hplan with
        ⟨e, hselect, -⟩ | ⟨chosen, hperm, -, cells, hselect, hcells⟩
      · rw [hselect] at hrows
        cases hrows
      · rw [hselect] at hrows
        obtain rfl := Except.ok.inj hrows
        rw [hcells]
        exact perm_shown hperm

/-- **A table that can be created can be read as a whole.** -/
theorem exists_read_whole (hfits : db.Fits) {t : Table} (ht : db.catalog.table table = .ok t)
    (hdefinable : t.IsDefinable) (hscope : scoping = .joined ∨ db.inTransaction = false) :
    ∃ rows, read scoping (.whole table none) db = (.ok rows, db) ∧
      rows.Perm ((db.records table).map Record.shown) := by
  have hall : (db.records table).filter (·.passes none) = db.records table :=
    List.filter_eq_self.2 fun _ _ => rfl
  have hcases := @read_whole_cases db table none scoping hfits t ht hdefinable none rfl hscope
  rcases hcases with ⟨e, hclause, -⟩ | ⟨-, ⟨rows, hread⟩ | ⟨hlong, -⟩⟩
  · cases hclause
  · have hperm := (perm_of_read_whole hfits (fun _ _ => rfl) hscope hread).2
    rw [hall] at hperm
    exact ⟨rows, hread, hperm⟩
  · cases hlong

/-- **The checks of a compiled filter** are true for the rows for which the filter is true, and pass
over no row if the filter passes over none. -/
theorem exists_checks_of_whole (hfits : db.Fits) {t : Table}
    (ht : db.catalog.table table = .ok t) {rel : Relation}
    (hrel : db.store.relation? t.name = some rel) {condition : Option Condition}
    (hcondition : Filter.conditionOfJson ⟨t, []⟩ filters = .ok condition) :
    ∃ checks, Store.checksOfClause [baseSource rel] condition = .ok checks ∧
      ((∀ r ∈ db.records table, r.isPassedOver filters = false) →
        Store.AreSearchable [baseSource rel] checks []) ∧
      rel.rows.filter (fun r => (checks.eval (Check.eval [some r])).holds)
        = rel.rows.filter fun r => Record.passes ⟨t, rel, r⟩ filters := by
  have hplan := plan_whole_eq_ok ht hcondition
  obtain ⟨⟨base, joined, joins, columns, checks, ordering, hbase, hjoined, hjoins, hcolumns, hchecks,
    hordering⟩, hsearchable, hmeaning, -⟩ :=
      exists_resolved_of_read hfits (List.pairwise_singleton _ _) hplan
  obtain rfl : [] = joined := Except.ok.inj hjoined
  obtain rfl : [] = joins := Except.ok.inj hjoins
  obtain rfl : rel = base :=
    Except.ok.inj ((Store.readable_of_relation? hfits.isSound hrel).symm.trans hbase)
  refine ⟨checks, hchecks, fun hfinds => hsearchable (findsAll_whole hfinds), ?_⟩
  have htable := Catalog.table_eq_ok_iff.1 ht
  obtain rfl := hfits.name_eq table t htable
  -- The choices of a row are the rows.
  have hinjective : Function.Injective fun r : Row => [some r] := by
    intro a b hab
    exact Option.some.inj (List.cons.inj hab).1
  rw [meaning_whole, records_eq htable hrel] at hmeaning
  change List.filter _ ((Store.combinations [rel]).map Choice.ofRows) = _ at hmeaning
  rw [Store.combinations_singleton, List.filter_map, List.filter_map, List.map_map, List.map_map]
    at hmeaning
  have hrows := hinjective.list_map hmeaning
  refine .trans (List.filter_congr fun r _ => ?_) hrows
  exact (Bool.and_true _).symm

end Database

end Tabula
