import Tabula.Proofs.Query.Chain
import Tabula.Proofs.Query.FilterMeaning

/-!
# Scenes

A scene is a request with the sources of its statement. Main statements: what a reference of the
request is resolved to shows, for every selection of records, what the reference stands for
(`Scene.isShown_of_resolveColumn`); the checks of the condition express the filter
(`Scene.exists_checks_of_filter`), and the columns of the statement give the row of the selection
(`Scene.exists_places_of_selectList`).
-/

namespace Tabula

open Sql (ColumnRef Direction JoinStep)
open Store (Check Choice Place Relation Row Source cellAt combinations locate sameName)

namespace Selection

/-- The records of a selection, in the order of the steps that come to them. -/
def records (s : Selection) : List Record := s.base :: Chains.recordsOf s.ways

/-- The choice of the rows of a selection. -/
def choice (s : Selection) : Choice := choiceOf s.records

end Selection

/-- A request with the sources of its statement and their origins. -/
structure Scene (db : Database) (r : ReadRequest) where
  base : Origin
  joined : List JoinStep
  aliases : Assoc Origin
  origins : List Origin
  sources : List Source
  base_name : base.name = base.table.name
  base_table : base.table.name = r.table
  base_isStored : base.IsStored db
  chains : Chains db base (r.joins.getD []) joined aliases origins
  stage : Stage sources (base :: origins)

namespace Scene

variable {db : Database} {r : ReadRequest} (scene : Scene db r) {s : Selection}

/-- What the references of the request can mean. -/
def scope : Scope := ⟨scene.base.table, tablesOf scene.aliases⟩

/-! ## Selections -/

theorem mem_selections (hs : s ∈ db.selections r) :
    s.base ∈ db.records r.table ∧ s.ways ∈ db.chains (r.joins.getD []) := by
  obtain ⟨base, hbase, hs⟩ := List.mem_flatMap.1 hs
  obtain ⟨m, hm, rfl⟩ := List.mem_map.1 hs
  exact ⟨hbase, hm⟩

include scene in
/-- A selection has a record of each origin. -/
theorem suits (hs : s ∈ db.selections r) :
    List.Forall₂ Origin.Suits (scene.base :: scene.origins) s.records := by
  obtain ⟨hbase, hm⟩ := mem_selections hs
  rw [← scene.base_table, scene.base_isStored.records_eq] at hbase
  obtain ⟨row, -, hrow⟩ := List.mem_map.1 hbase
  refine .cons ?_ (scene.chains.suits hm)
  rw [← hrow]
  exact ⟨rfl, rfl⟩

/-- The selections are the combinations of the rows of the sources. -/
theorem choices_selections :
    (db.selections r).map Selection.choice
      = (combinations (scene.sources.map Source.relation)).map Choice.ofRows := by
  rw [scene.stage.relations_eq, List.map_cons, combinations, ← scene.chains.rows_chains,
    Database.selections, ← scene.base_table, scene.base_isStored.records_eq, List.map_flatMap, List.flatMap_map,
    List.map_flatMap]
  congr 1
  funext row
  rw [List.map_map, List.map_map, List.map_map]
  rfl

include scene in
/-- No alias is declared twice. -/
theorem nodup_keys : ((r.joins.getD []).map (·.1)).Nodup :=
  scene.chains.nodup_keys (List.pairwise_cons.1 scene.stage.distinct).2

include scene in
/-- The way of an alias is the one that was chosen for it. -/
theorem way_eq (hs : s ∈ db.selections r) : ∀ entry ∈ s.ways, s.way entry.1 = entry.2 := by
  have hnodup := scene.nodup_keys
  rw [← scene.chains.keys_eq (mem_selections hs).2] at hnodup
  intro entry hentry
  unfold Selection.way
  rw [Assoc.find?_of_mem hnodup hentry]
  rfl

/-! ## References -/

/-- Whether an origin is the one that a source of a reference means: its record is the one that the
source refers to in every selection. -/
structure Means (scene : Scene db r) (source? : Option String) (o : Origin) : Prop where
  mem : o ∈ scene.base :: scene.origins
  exists_record : ∀ s ∈ db.selections r, ∃ record, s.referred? source? = some record ∧
    (o, record) ∈ (scene.base :: scene.origins).zip s.records

theorem table_base (hs : s ∈ db.selections r) : s.base.table = scene.base.table := by
  cases scene.suits hs with
  | cons hbase _ => exact hbase.table

theorem means_base (source? : Option String)
    (h : ∀ s : Selection, s.base.table = scene.base.table → s.referred? source? = some s.base) :
    scene.Means source? scene.base := by
  refine ⟨List.mem_cons_self, ?_⟩
  intro s hs
  exact ⟨s.base, h s (scene.table_base hs), List.mem_cons_self⟩

/-- The source of a reference that is looked up means an origin. -/
theorem exists_of_sourceTable {reference source : String} {source? : Option String} {t : Table}
    (h : scene.scope.sourceTable reference source? = .ok (t, source)) :
    ∃ o, scene.Means source? o ∧ o.table = t ∧ o.name = source ∧
      ∀ named ∈ source?, named = source := by
  cases source? with
  | none =>
      obtain ⟨rfl, rfl⟩ := Prod.mk.inj (Except.ok.inj h)
      exact ⟨scene.base, scene.means_base none fun _ _ => rfl, rfl, scene.base_name, by simp⟩
  | some named =>
      unfold Scope.sourceTable at h
      dsimp only at h
      split at h
      · next table htable =>
          obtain ⟨rfl, rfl⟩ := Prod.mk.inj (Except.ok.inj h)
          unfold Scope.table? at htable
          -- The name of the base table comes before those of the aliases.
          split at htable
          · next hbase =>
              have hbase : named = scene.base.table.name := hbase
              obtain rfl := Option.some.inj htable
              refine ⟨scene.base, scene.means_base (some named) ?_, rfl, ?_, by simp⟩
              · intro s hs
                show s.record? named = some s.base
                unfold Selection.record?
                rw [hs, if_pos hbase]
              · exact scene.base_name.trans hbase.symm
          · next hbase =>
              have hbase : ¬ named = scene.base.table.name := hbase
              rw [show scene.scope.aliases = tablesOf scene.aliases from rfl, find?_tablesOf] at htable
              obtain ⟨o, ho, rfl⟩ := Option.map_eq_some_iff.1 htable
              obtain ⟨hmem, hname, hlast⟩ := scene.chains.exists_last ho
              refine ⟨o, ⟨List.mem_cons_of_mem _ hmem, ?_⟩, rfl, hname, by simp⟩
              intro s hs
              obtain ⟨record, hrecord, hzip⟩ := hlast s.ways (mem_selections hs).2 s.way
                (scene.way_eq hs)
              refine ⟨record, ?_, List.mem_cons_of_mem _ hzip⟩
              show s.record? named = some record
              unfold Selection.record?
              rw [scene.table_base hs, if_neg hbase]
              exact hrecord
      · cases h

/-- Whether a column of the statement is located, and shows what is held somewhere. -/
structure IsShown (scene : Scene db r) (ref : ColumnRef) (f : Selection → Datum) : Prop where
  exists_place : ∃ p, locate scene.sources ref = .ok p ∧ p.IsIn scene.sources
  shows : ∀ p, locate scene.sources ref = .ok p → ∀ s ∈ db.selections r, Shows s.choice p (f s)

variable {scene}

/-- A column of an origin shows what the record of its source holds in it. -/
theorem Means.isShown {source? : Option String} {o : Origin} (h : scene.Means source? o) {c : Column}
    (hc : c ∈ o.table.columns) :
    scene.IsShown ⟨o.name, c.name⟩ fun s =>
      ((s.referred? source?).map (·.datum c.name)).getD .missing := by
  constructor
  · exact scene.stage.exists_place h.mem hc
  · intro p hp s hs
    obtain ⟨record, hrecord, hzip⟩ := h.exists_record s hs
    rw [hrecord]
    exact scene.stage.shows (scene.suits hs) hzip hc hp

/-- What a reference that is looked up names. -/
theorem exists_of_resolve {reference : String} {found : Resolved}
    (h : scene.scope.resolve reference = .ok found) :
    ∃ source? name o, splitReference reference = some (source?, name) ∧ scene.Means source? o ∧
      o.table = found.table ∧ o.name = found.source ∧ (∀ named ∈ source?, named = found.source) ∧
      found.qualified = source?.isSome ∧
      ((name = wildcard ∧ found.target = .wildcard) ∨
        (name ≠ wildcard ∧ ∃ c, found.table.column name = .ok c ∧ found.target = .column c)) := by
  unfold Scope.resolve at h
  split at h
  · cases h
  · next source? name hsplit =>
      obtain ⟨⟨t, source⟩, hsource, h⟩ := Except.bind_eq_ok_iff.1 h
      dsimp only at h
      obtain ⟨o, hmeans, htable, hname, hnamed⟩ := scene.exists_of_sourceTable hsource
      split at h
      · next hwildcard =>
          obtain rfl := Except.ok.inj h
          exact ⟨source?, name, o, hsplit, hmeans, htable, hname, hnamed, rfl,
            .inl ⟨hwildcard, rfl⟩⟩
      · next hwildcard =>
          obtain ⟨target, htarget, h⟩ := Except.bind_eq_ok_iff.1 h
          obtain rfl := Except.ok.inj h
          obtain ⟨c, hc, rfl⟩ := Except.map_eq_ok_iff.1 htarget
          exact ⟨source?, name, o, hsplit, hmeans, htable, hname, hnamed, rfl,
            .inr ⟨hwildcard, c, hc, rfl⟩⟩

/-- **References show what they stand for.** A column that a reference is resolved to shows, for
every selection, what the reference stands for. -/
theorem isShown_of_resolveColumn {reference : String} {c : ScopedColumn}
    (h : scene.scope.resolveColumn reference = .ok c) :
    scene.IsShown c.ref fun s => s.datum reference := by
  unfold Scope.resolveColumn at h
  obtain ⟨found, hfound, h⟩ := Except.bind_eq_ok_iff.1 h
  obtain ⟨source?, name, o, hsplit, hmeans, htable, hname, -, -, htarget⟩ := exists_of_resolve hfound
  rcases htarget with ⟨-, htarget⟩ | ⟨-, column, hcolumn, htarget⟩
  · rw [htarget] at h
    cases h
  · rw [htarget] at h
    obtain rfl := Except.ok.inj h
    rw [← htable] at hcolumn
    obtain ⟨hmem, rfl⟩ := Table.column_eq_ok hcolumn
    have hshown := hmeans.isShown hmem
    unfold Selection.datum
    rw [hsplit]
    rw [hname] at hshown
    exact hshown

/-! ## Filters -/

theorem exists_cell {v : Value} (h : v.isList = false) :
    ∃ c, Store.bindValue v = .ok c ∧ Cell.ofValue? v = some c := by
  cases v with
  | list _ => cases h
  | _ => exact ⟨_, rfl, rfl⟩

theorem mapM_bindValue {vs : List Value} (h : ∀ v ∈ vs, v.isList = false) :
    vs.mapM Store.bindValue = .ok (vs.map fun v => (Cell.ofValue? v).getD .null) := by
  induction vs with
  | nil => rfl
  | cons v vs ih =>
      obtain ⟨c, hc, hcell⟩ := exists_cell (h v List.mem_cons_self)
      rw [List.mapM_cons, hc, ih fun w hw => h w (List.mem_cons_of_mem _ hw), List.map_cons, hcell]
      rfl

/-- Whether a check compares what is held somewhere with a value: it looks at places in the sources,
and is true of a selection and passes over one of its records if the comparison is and does. -/
structure Compares (scene : Scene db r) (check : Check) (f : Selection → Datum) (method : Comparison)
    (v : Value) : Prop where
  places : ∀ p ∈ check.places, p.IsIn scene.sources
  eval : ∀ s ∈ db.selections r, check.eval s.choice = (f s).compareWith method v
  passesOver : ∀ s ∈ db.selections r, check.passesOver s.choice = (f s).isPassedOverBy method v

/-- A comparison with a value that is no list has a check. -/
theorem IsShown.exists_check_value {ref : ColumnRef} {f : Selection → Datum} (h : scene.IsShown ref f)
    (method : Comparison) {v : Value} (hv : v.isList = false) :
    ∃ check, Store.checkOfTest scene.sources ⟨ref, method, .value v⟩ = .ok check ∧
      scene.Compares check f method v := by
  obtain ⟨p, hp, hplace⟩ := h.exists_place
  obtain ⟨c, hc, hcell⟩ := exists_cell hv
  refine ⟨.value p method c, ?_, ?_, ?_, ?_⟩
  · unfold Store.checkOfTest
    dsimp only
    rw [hp, hc]
    rfl
  · intro q hq
    obtain rfl := List.mem_singleton.1 hq
    exact hplace
  · intro s hs
    have hshown := h.shows p hp s hs
    have hcompare : (f s).compareWith method v
        = Store.compareCells method (some (f s).affinity) none (f s).cell
          ((Cell.ofValue? v).getD .null) := by
      cases v with
      | list _ => cases hv
      | _ => rfl
    rw [hcompare, hcell, ← hshown.affinity, ← hshown.cell]
    rfl
  · intro s hs
    have hpassed : (f s).isPassedOverBy method v
        = (method = .eq && (f s).isPassedOver ((Cell.ofValue? v).getD .null)) := by
      cases v with
      | list _ => cases hv
      | _ => rfl
    rw [hpassed, hcell, ← (h.shows p hp s hs).passesOver]
    rfl

/-- A comparison with a list of values that are no lists has a check. -/
theorem IsShown.exists_check_list {ref : ColumnRef} {f : Selection → Datum} (h : scene.IsShown ref f)
    {method : Comparison} (hmethod : method.takesList = true) {vs : List Value}
    (hvs : ∀ v ∈ vs, v.isList = false) :
    ∃ check, Store.checkOfTest scene.sources ⟨ref, method, .list vs⟩ = .ok check ∧
      scene.Compares check f method (.list vs) := by
  obtain ⟨p, hp, hplace⟩ := h.exists_place
  cases vs with
  | nil =>
      -- What is among no values is decided without its column being looked up.
      refine ⟨.decided (method ≠ .member), rfl, ?_, ?_, ?_⟩
      · intro q hq
        cases hq
      · intro s _
        cases method with
        | member => rfl
        | notMember => rfl
        | _ => cases hmethod
      · intro s _
        unfold Datum.isPassedOverBy
        dsimp only
        rw [List.any_nil, Bool.and_false]
        rfl
  | cons v vs =>
      refine ⟨.list p method ((v :: vs).map fun v => (Cell.ofValue? v).getD .null), ?_, ?_, ?_, ?_⟩
      · unfold Store.checkOfTest
        dsimp only
        rw [hp, mapM_bindValue hvs]
        rfl
      · intro q hq
        obtain rfl := List.mem_singleton.1 hq
        exact hplace
      · intro s hs
        have hshown := h.shows p hp s hs
        unfold Datum.compareWith
        rw [← hshown.affinity, ← hshown.cell]
        show method.holdsOnList _ (((v :: vs).map _).map _) = _
        rw [List.map_map]
        rfl
      · intro s hs
        have hpassed : p.passesOver s.choice = (f s).isPassedOver := by
          funext value
          exact (h.shows p hp s hs).passesOver value
        unfold Datum.isPassedOverBy Check.passesOver
        dsimp only
        rw [hpassed, List.any_map]
        rfl

/-- What a comparison is given to compare with is its list or its single value. -/
theorem operand_eq_ok {k : Constraint} {c : Column} {operand : Sql.Operand}
    (h : k.operand c = .ok operand) :
    (∃ vs, k.value = .list vs ∧ k.method.takesList = true ∧ operand = .list vs) ∨
      (k.value.isList = false ∧ operand = .value k.value) := by
  unfold Constraint.operand at h
  split at h
  · next vs hmethod hvalue => exact .inl ⟨vs, hvalue, hmethod, (Except.ok.inj h).symm⟩
  · cases h
  · cases h
  · next _ hlist =>
      refine .inr ⟨?_, (Except.ok.inj h).symm⟩
      cases hvalue : k.value with
      | list vs => exact absurd hvalue (hlist vs)
      | _ => rfl

/-- Comparisons of a filter are checked: what a comparison is resolved to has a check that compares
what its column holds with its value. -/
theorem exists_check_of_test {k : Constraint} (hfits : k.Fits) {t : Sql.Test}
    (h : k.test scene.scope = .ok t) :
    ∃ check, Store.checkOfTest scene.sources t = .ok check ∧
      scene.Compares check (fun s => s.datum k.column) k.method k.value := by
  unfold Constraint.test at h
  obtain ⟨c, hc, h⟩ := Except.bind_eq_ok_iff.1 h
  obtain ⟨operand, hoperand, h⟩ := Except.bind_eq_ok_iff.1 h
  obtain rfl := Except.ok.inj h
  have hshown := isShown_of_resolveColumn hc
  rcases operand_eq_ok hoperand with ⟨vs, hvalue, hmethod, rfl⟩ | ⟨hvalue, rfl⟩
  · rw [hvalue]
    apply hshown.exists_check_list hmethod
    intro v hv
    have hfits : k.method.fits (.list vs) = true := by
      rw [← hvalue]
      exact hfits
    cases hk : k.method with
    | member | notMember =>
        rw [hk] at hfits
        simpa using List.all_eq_true.1 hfits v hv
    | _ =>
        rw [hk] at hmethod
        cases hmethod
  · exact hshown.exists_check_value k.method hvalue

/-- The truth value that the check of a comparison has for a selection. -/
def truthOfTest (scene : Scene db r) (s : Selection) (t : Sql.Test) : Truth :=
  match Store.checkOfTest scene.sources t with
  | .ok check => check.eval s.choice
  | .error _ => .false

theorem reads_truthOfTest (scene : Scene db r) (s : Selection) (t : Sql.Test) :
    Store.Reads scene.sources s.choice (scene.truthOfTest s) t := by
  intro check hcheck
  unfold truthOfTest
  rw [hcheck]

/-- Whether the checks of a condition express a filter: they look at places in the sources, are
true of a selection that passes the filter, and pass over one of its records only if the filter
does. -/
structure Expresses (scene : Scene db r) (checks : Formula Check) (filter : Option Json) : Prop where
  places : ∀ check ∈ checks.atoms, ∀ p ∈ check.places, p.IsIn scene.sources
  holds : ∀ s ∈ db.selections r, (checks.eval (Check.eval s.choice)).holds = s.passes filter
  passesOver_eq : ∀ s ∈ db.selections r, s.isPassedOverByFilter filter = false →
    ∀ check ∈ checks.atoms, check.passesOver s.choice = false

/-- No checks express a filter that everything passes. -/
theorem expresses_none (scene : Scene db r) {filter : Option Json}
    (h : ∀ s : Selection, s.passes filter = true) : scene.Expresses (.all []) filter := by
  refine ⟨?_, ?_, ?_⟩
  · intro check hcheck
    cases hcheck
  · intro s _
    rw [h]
    rfl
  · intro s _ _ check hcheck
    cases hcheck

/-- The condition that comparisons are compiled to has checks: those of its comparisons, and with
them the truth value of the comparisons. -/
theorem exists_checks_of_condition {f : Filter} (hfits : ∀ k ∈ f.atoms, k.Fits)
    {condition : Sql.Condition} (h : f.mapM (Constraint.test scene.scope) = .ok condition) :
    ∃ checks, Store.checksOf scene.sources condition = .ok checks ∧
      (∀ check ∈ checks.atoms, (∃ holds, check = .decided holds) ∨ ∃ k ∈ f.atoms,
        scene.Compares check (fun s => s.datum k.column) k.method k.value) ∧
      ∀ s ∈ db.selections r, checks.eval (Check.eval s.choice) = s.truth f := by
  -- Every comparison of the condition is one of the filter, and has a check.
  have htests : ∀ t ∈ condition.atoms, ∃ k ∈ f.atoms, ∃ check,
      Store.checkOfTest scene.sources t = .ok check ∧
        scene.Compares check (fun s => s.datum k.column) k.method k.value := by
    intro t ht
    obtain ⟨k, hk, hkt⟩ := Formula.exists_of_mem_mapM f h t ht
    obtain ⟨check, hcheck, hcompares⟩ := exists_check_of_test (hfits k hk) hkt
    exact ⟨k, hk, check, hcheck, hcompares⟩
  obtain ⟨checks, hchecks⟩ := Store.exists_checksOf condition fun t ht => by
    obtain ⟨_, -, check, hcheck, -⟩ := htests t ht
    exact ⟨check, hcheck⟩
  refine ⟨checks, hchecks, ?_, ?_⟩
  · intro check hcheck
    rcases Store.isAmong_of_checksOf condition hchecks check hcheck with hdecided | ⟨t, ht, htest⟩
    · exact .inl hdecided
    · obtain ⟨k, hk, other, hother, hcompares⟩ := htests t ht
      obtain rfl : check = other := Except.ok.inj (htest.symm.trans hother)
      exact .inr ⟨k, hk, hcompares⟩
  · intro s hs
    rw [Store.eval_of_checksOf condition hchecks fun t _ => scene.reads_truthOfTest s t]
    apply Formula.eval_of_mapM f h
    intro k hk t hkt
    obtain ⟨check, hcheck, hcompares⟩ := exists_check_of_test (hfits k hk) hkt
    rw [← hcompares.eval s hs]
    exact (scene.reads_truthOfTest s t check hcheck).symm

/-- **The condition of a statement expresses the filter.** The condition that the filter of a
request is compiled to has checks, which are true for the selections that pass the filter. -/
theorem exists_checks_of_filter {filter : Option Json} {condition : Option Sql.Condition}
    (h : Filter.conditionOfJson scene.scope filter = .ok condition) :
    ∃ checks, Store.checksOfClause scene.sources condition = .ok checks ∧
      scene.Expresses checks filter := by
  cases filter with
  | none =>
      obtain rfl := Except.ok.inj h
      exact ⟨.all [], rfl, scene.expresses_none fun s => rfl⟩
  | some raw =>
      obtain ⟨f, hf, h⟩ := Except.bind_eq_ok_iff.1 h
      have hpasses : ∀ s : Selection, s.passes (some raw) = (s.truth f).holds := by
        intro s
        unfold Selection.passes
        dsimp only
        rw [hf]
      unfold Filter.condition at h
      split at h
      · next hempty =>
          obtain rfl := Except.ok.inj h
          refine ⟨.all [], rfl, scene.expresses_none fun s => ?_⟩
          rw [hpasses, Selection.truth, Formula.eval_of_isEmpty _ f hempty]
          rfl
      · obtain ⟨c, hc, rfl⟩ := Except.map_eq_ok_iff.1 h
        have hfits : ∀ k ∈ f.prune.atoms, k.Fits := by
          intro k hk
          rw [Formula.atoms_prune] at hk
          exact Formula.IsSound.of_mem_atoms f (Filter.isSound_of_ofJson raw f hf) k hk
        obtain ⟨checks, hchecks, hamong, heval⟩ := exists_checks_of_condition hfits hc
        rw [Formula.atoms_prune] at hamong
        refine ⟨checks, hchecks, ?_, ?_, ?_⟩
        · intro check hcheck p hp
          rcases hamong check hcheck with ⟨holds, rfl⟩ | ⟨k, -, hcompares⟩
          · cases hp
          · exact hcompares.places p hp
        · intro s hs
          rw [heval s hs, hpasses, Selection.truth, Formula.eval_prune]
          rfl
        · intro s hs hfound check hcheck
          rcases hamong check hcheck with ⟨holds, rfl⟩ | ⟨k, hk, hcompares⟩
          · rfl
          · rw [hcompares.passesOver s hs]
            unfold Selection.isPassedOverByFilter at hfound
            dsimp only at hfound
            rw [hf] at hfound
            simpa using List.any_eq_false.1 hfound k hk

/-! ## Column lists -/

/-- The columns of an origin are located, and give the values of the records of its source. -/
theorem Means.exists_places {source? : Option String} {o : Origin} (h : scene.Means source? o)
    (label : Column → String) (cs : List Column) (hcs : ∀ c ∈ cs, c ∈ o.table.columns) :
    ∃ places, (cs.map fun c => ColumnRef.mk o.name c.name).mapM (locate scene.sources) = .ok places ∧
      ∀ s ∈ db.selections r, ∀ record, s.referred? source? = some record →
        Database.resultRow (cs.map fun c => ⟨⟨o.name, c.name⟩, label c, c.type⟩)
            (places.map (cellAt s.choice))
          = cs.map fun c => ⟨label c, record.value c⟩ := by
  induction cs with
  | nil => exact ⟨[], rfl, fun _ _ _ _ => rfl⟩
  | cons c cs ih =>
      have hshown := h.isShown (hcs c List.mem_cons_self)
      obtain ⟨p, hp, -⟩ := hshown.exists_place
      obtain ⟨places, hplaces, hrow⟩ := ih fun d hd => hcs d (List.mem_cons_of_mem _ hd)
      refine ⟨p :: places, ?_, ?_⟩
      · rw [List.map_cons, List.mapM_cons, hp, hplaces]
        rfl
      · intro s hs record hrecord
        have hcell := (hshown.shows p hp s hs).cell
        rw [hrecord] at hcell
        show (⟨label c, (cellAt s.choice p).toValue c.type⟩ : ResultField) ::
          Database.resultRow _ (places.map (cellAt s.choice)) = _
        rw [hcell, hrow s hs record hrecord]
        rfl

/-- A wildcard stands for all columns of a record. -/
theorem fieldsOf_wildcard {reference : String} {source? : Option String} {record : Record}
    (hsplit : splitReference reference = some (source?, wildcard))
    (hrecord : s.referred? source? = some record) :
    s.fieldsOf reference = record.table.columns.map fun c =>
      ⟨(source?.elim "" (· ++ ".")) ++ c.name, record.value c⟩ := by
  unfold Selection.fieldsOf
  rw [hsplit]
  dsimp only
  rw [hrecord]
  dsimp only
  rw [if_pos rfl]

/-- Any other name stands for the column of that name. -/
theorem fieldsOf_column {reference name : String} {source? : Option String} {record : Record}
    {c : Column} (hsplit : splitReference reference = some (source?, name))
    (hrecord : s.referred? source? = some record) (hname : name ≠ wildcard)
    (hc : record.table.column? name = some c) :
    s.fieldsOf reference = [⟨reference, record.value c⟩] := by
  unfold Selection.fieldsOf
  rw [hsplit]
  dsimp only
  rw [hrecord]
  dsimp only
  rw [if_neg hname, hc]
  rfl

/-- The result columns of an entry of a column list are located, and give the fields of the entry. -/
theorem exists_places_of_select {reference : String} {columns : List OutputColumn}
    (h : scene.scope.select reference = .ok columns) :
    ∃ places, (columns.map OutputColumn.ref).mapM (locate scene.sources) = .ok places ∧
      ∀ s ∈ db.selections r,
        Database.resultRow columns (places.map (cellAt s.choice)) = s.fieldsOf reference := by
  unfold Scope.select at h
  obtain ⟨found, hfound, h⟩ := Except.bind_eq_ok_iff.1 h
  obtain ⟨source?, name, o, hsplit, hmeans, htable, hname, hnamed, hqualified, htarget⟩ :=
    exists_of_resolve hfound
  have hrecords : ∀ s ∈ db.selections r, ∃ record, s.referred? source? = some record ∧
      record.table = found.table := by
    intro s hs
    obtain ⟨record, hrecord, hzip⟩ := hmeans.exists_record s hs
    exact ⟨record, hrecord, (List.forall₂_zip (scene.suits hs) hzip).table.trans htable⟩
  -- The entry is for all columns of its source, or for one column by name.
  rcases htarget with ⟨rfl, htarget⟩ | ⟨hwildcard, c, hc, htarget⟩
  · rw [htarget] at h
    obtain rfl := Except.ok.inj h
    obtain ⟨places, hplaces, hrow⟩ := hmeans.exists_places (Scope.wildcardLabel found)
      o.table.columns fun c hc => hc
    rw [hname, htable] at hplaces hrow
    have hlabel : ∀ c : Column,
        Scope.wildcardLabel found c = (source?.elim "" (· ++ ".")) ++ c.name := by
      intro c
      unfold Scope.wildcardLabel
      rw [hqualified]
      cases source? with
      | none => simp
      | some named =>
          obtain rfl := hnamed named rfl
          rfl
    refine ⟨places, ?_, ?_⟩
    · rw [List.map_map]
      exact hplaces
    · intro s hs
      obtain ⟨record, hrecord, hsame⟩ := hrecords s hs
      rw [hrow s hs record hrecord, fieldsOf_wildcard hsplit hrecord, hsame]
      simp only [hlabel]
  · rw [htarget] at h
    obtain rfl := Except.ok.inj h
    obtain ⟨hmem, rfl⟩ := Table.column_eq_ok hc
    rw [← htable] at hmem
    obtain ⟨places, hplaces, hrow⟩ := hmeans.exists_places (fun _ => reference) [c] fun d hd => by
      obtain rfl := List.mem_singleton.1 hd
      exact hmem
    rw [hname] at hplaces hrow
    refine ⟨places, hplaces, ?_⟩
    intro s hs
    obtain ⟨record, hrecord, hsame⟩ := hrecords s hs
    have hcolumn : record.table.column? c.name = some c := by
      rw [hsame]
      exact Table.column_eq_ok_iff.1 hc
    rw [fieldsOf_column hsplit hrecord hwildcard hcolumn]
    exact hrow s hs record hrecord

/-- **The columns of a statement give the row of a selection.** -/
theorem exists_places_of_selectList {references : List String} {columns : List OutputColumn}
    (h : scene.scope.selectList references = .ok columns) :
    ∃ places, (columns.map OutputColumn.ref).mapM (locate scene.sources) = .ok places ∧
      ∀ s ∈ db.selections r, Database.resultRow columns (places.map (cellAt s.choice))
        = references.flatMap s.fieldsOf := by
  rw [Scope.selectList, Except.bind_eq_ok_iff] at h
  obtain ⟨lists, hlists, h⟩ := h
  obtain rfl := Except.ok.inj h
  have hforall := Except.mapM_eq_ok_iff.1 hlists
  clear hlists h
  induction hforall with
  | nil => exact ⟨[], rfl, fun _ _ => rfl⟩
  | @cons reference columns references lists hselect _ ih =>
      obtain ⟨places, hplaces, hrow⟩ := exists_places_of_select hselect
      obtain ⟨others, hothers, hrest⟩ := ih
      refine ⟨places ++ others, ?_, ?_⟩
      · rw [List.flatten_cons, List.map_append, List.mapM_append, hplaces, hothers]
        rfl
      · intro s hs
        have hlength : columns.length = (places.map (cellAt s.choice)).length := by
          have hforall := (Except.mapM_eq_ok_iff.1 hplaces).length_eq
          simpa using hforall
        rw [List.flatten_cons, List.map_append, List.flatMap_cons, ← hrow s hs, ← hrest s hs]
        unfold Database.resultRow
        rw [List.zip_append hlength, List.map_append]

/-! ## Orderings -/

/-- **The ordering of a statement is that of the request.** -/
theorem exists_places_of_ordering {terms : List (String × Direction)}
    {refs : List (ColumnRef × Direction)} (h : Plan.ordering scene.scope terms = .ok refs) :
    ∃ places, (refs.mapM fun (ref, d) => do return ((← locate scene.sources ref), d)) = .ok places ∧
      ∀ a ∈ db.selections r, ∀ b ∈ db.selections r,
        Store.standsBefore a.choice b.choice places = a.standsBefore b terms := by
  have hforall := Except.mapM_eq_ok_iff.1 h
  clear h
  induction hforall with
  | nil => exact ⟨[], rfl, fun _ _ _ _ => rfl⟩
  | @cons term ref terms refs hterm _ ih =>
      obtain ⟨reference, direction⟩ := term
      obtain ⟨c, hc, hterm⟩ := Except.bind_eq_ok_iff.1 hterm
      obtain rfl := Except.ok.inj hterm
      have hshown := isShown_of_resolveColumn hc
      obtain ⟨p, hp, -⟩ := hshown.exists_place
      obtain ⟨places, hplaces, hrest⟩ := ih
      refine ⟨(p, direction) :: places, ?_, ?_⟩
      · rw [List.mapM_cons]
        dsimp only
        rw [hp, hplaces]
        rfl
      · intro a ha b hb
        have hcell := (hshown.shows p hp a ha).cell
        have hcell' := (hshown.shows p hp b hb).cell
        unfold Store.standsBefore
        rw [hcell, hcell', hrest a ha b hb]
        rfl

end Scene

end Tabula
