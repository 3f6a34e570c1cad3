import Tabula.Proofs.Query.JoinOrder
import Tabula.Proofs.Query.Scene

/-!
# Reading

What a read request gives. Main statement: in a database that fits its catalog, reading gives the
rows of the meaning of the request, whatever the order of its aliases (`read_eq_meaning`). The one
exception are rows whose id is the least number of 64 bits: a search by row id passes them over when
it is given the float of that number (`read_least_key`).
-/

namespace Tabula

open Sql (JoinStep)
open Store (Check Choice Source baseSource cellAt combinations meetsChecks sameName)

variable {db : Database} {r : ReadRequest}

/-! ## The sources of a plan -/

namespace Origin.IsStored

variable {o : Origin}

theorem isSound (h : o.IsStored db) (hfits : db.Fits) : o.IsSound := by
  obtain ⟨rel, hrel, hstored⟩ := hfits.holds _ _ h.table
  obtain rfl : rel = o.relation := Option.some.inj (hrel.symm.trans h.relation)
  exact ⟨hstored.fields, hstored.distinct⟩

/-- The source that a statement is about is called by the name of its table only. -/
theorem isOf_baseSource (h : o.IsStored db) (hfits : db.Fits) (hname : o.name = o.table.name) :
    Origin.IsOf (baseSource o.relation) o := by
  obtain ⟨rel, hrel, hstored⟩ := hfits.holds _ _ h.table
  obtain rfl : rel = o.relation := Option.some.inj (hrel.symm.trans h.relation)
  refine ⟨rfl, ?_⟩
  intro name
  show (Store.Contents.namesOf o.relation.name).any (sameName name) = _
  rw [Store.namesOf_eq hstored.unreserved, List.any_cons, List.any_nil, Bool.or_false,
    Store.sameName_comm, Store.sameName_congr (Store.sameName_of_relation? hrel), hname]

end Origin.IsStored

/-- The sources of the steps of a statement are those of their origins. -/
theorem exists_sources (hfits : db.Fits) {joined : List JoinStep} {origins : List Origin}
    (h : List.Forall₂ JoinStep.Joins joined origins) (hstored : ∀ o ∈ origins, o.IsStored db) :
    ∃ sources, (joined.mapM fun step => do
        return Source.mk [step.aliasName] (← db.store.readable step.table)) = .ok sources ∧
      List.Forall₂ Origin.IsOf sources origins := by
  induction h with
  | nil => exact ⟨[], rfl, .nil⟩
  | @cons step o joined origins hstep _ ih =>
      obtain ⟨sources, hsources, hisOf⟩ := ih fun o ho => hstored o (List.mem_cons_of_mem _ ho)
      have hreadable : db.store.readable step.table = .ok o.relation := by
        rw [hstep.table]
        exact Store.readable_of_relation? hfits.isSound (hstored o List.mem_cons_self).relation
      refine ⟨⟨[step.aliasName], o.relation⟩ :: sources, ?_, .cons ⟨rfl, ?_⟩ hisOf⟩
      · rw [List.mapM_cons, hreadable, hsources]
        rfl
      · intro name
        show [step.aliasName].any (sameName name) = _
        rw [hstep.aliasName, List.any_cons, List.any_nil, Bool.or_false, Store.sameName_comm]

/-- The sources of a statement whose joins are planned are those of stored origins: the base table,
and the tables that the steps of its chains come to. -/
theorem exists_origins (hfits : db.Fits) {table : String} {t : Table}
    (ht : db.catalog.table? table = some t) {joins : JoinSpec} {p : JoinPlan}
    (hplan : Join.plan db.catalog t joins = .ok p) :
    ∃ rel aliases origins joined, Chains db ⟨t.name, t, rel⟩ joins p.steps aliases origins ∧
      p.aliases = tablesOf aliases ∧
      (p.steps.mapM fun step => do
        return Source.mk [step.aliasName] (← db.store.readable step.table)) = .ok joined ∧
      List.Forall₂ Origin.IsOf (baseSource rel :: joined) (⟨t.name, t, rel⟩ :: origins) ∧
      ∀ o ∈ Origin.mk t.name t rel :: origins, o.IsStored db := by
  obtain ⟨-, rel, hbase⟩ := hfits.isStored ht t.name
  obtain ⟨aliases, origins, hchains, haliases⟩ : ∃ aliases origins,
      Chains db ⟨t.name, t, rel⟩ joins p.steps aliases origins ∧ p.aliases = tablesOf aliases :=
    Chains.exists_of_plan hfits rfl hplan
  obtain ⟨joined, hjoined, hisOf⟩ := exists_sources hfits hchains.forall₂_joins hchains.isStored
  refine ⟨rel, aliases, origins, joined, hchains, haliases, hjoined,
    .cons (hbase.isOf_baseSource hfits rfl) hisOf, ?_⟩
  intro o ho
  rcases List.mem_cons.1 ho with rfl | ho
  · exact hbase
  · exact hchains.isStored o ho

/-- The joins of a request that are planned have a scene, with the sources of the statement. -/
theorem exists_scene (hfits : db.Fits)
    (hnames : r.sourceNames.Pairwise fun a b => sameName a b = false) {t : Table}
    (ht : db.catalog.table? r.table = some t) {p : JoinPlan}
    (hplan : Join.plan db.catalog t (r.joins.getD []) = .ok p) :
    ∃ (scene : Scene db r) (joined : List Source), scene.base.table = t ∧ scene.joined = p.steps ∧
      tablesOf scene.aliases = p.aliases ∧
      scene.sources = baseSource scene.base.relation :: joined ∧
      (p.steps.mapM fun step => do
        return Source.mk [step.aliasName] (← db.store.readable step.table)) = .ok joined := by
  obtain ⟨rel, aliases, origins, joined, hchains, haliases, hjoined, hisOf, hstored⟩ :=
    exists_origins hfits ht hplan
  have hname := hfits.name_eq r.table t ht
  have hsourceNames : (Origin.mk t.name t rel :: origins).map Origin.name = r.sourceNames := by
    rw [List.map_cons, hchains.names_eq, hname]
    rfl
  refine ⟨⟨⟨t.name, t, rel⟩, p.steps, aliases, origins, baseSource rel :: joined, rfl, hname,
    hstored _ List.mem_cons_self, hchains, ⟨hisOf, ?_, ?_⟩⟩, joined, rfl, rfl, haliases.symm, rfl,
    hjoined⟩
  · rw [← hsourceNames, List.pairwise_map] at hnames
    exact hnames
  · exact fun o ho => (hstored o ho).isSound hfits

/-! ## Selections of a statement -/

namespace Scene

variable (scene : Scene db r) {condition : Formula Check} {joins : List Check}

/-- What the checks of the steps of a statement say of a selection. -/
theorem all_checks (hjoins : scene.joined.mapM (Store.checkOfStep scene.sources) = .ok joins)
    {s : Selection} (hs : s ∈ db.selections r) :
    (joins.all fun c => (c.eval s.choice).holds) = s.follows (r.joins.getD []) ∧
      joins.any (Check.passesOver s.choice) = s.isPassedOverByJoins (r.joins.getD []) :=
  scene.chains.all_checks scene.stage (scene.suits hs) hjoins List.mem_cons_self
    (mem_selections hs).2 (scene.way_eq hs) fun _ hentry => List.mem_cons_of_mem _ hentry

variable {scene}

/-- The checks of a statement are true for the selections that its request asks for. -/
theorem choices_meaning (hjoins : scene.joined.mapM (Store.checkOfStep scene.sources) = .ok joins)
    (hexpresses : scene.Expresses condition r.filters) :
    ((combinations (scene.sources.map Source.relation)).map Choice.ofRows).filter
        (meetsChecks condition joins)
      = (db.meaning r).map Selection.choice := by
  rw [← scene.choices_selections, List.filter_map, Database.meaning]
  congr 1
  apply List.filter_congr
  intro s hs
  have hfollows : (joins.all fun c => (c.eval s.choice).holds) = s.follows (r.joins.getD []) :=
    (scene.all_checks hjoins hs).1
  show ((condition.eval (Check.eval s.choice)).holds && joins.all fun c => (c.eval s.choice).holds)
    = _
  rw [hexpresses.holds s hs, hfollows, Bool.and_comm]

/-- The checks of a statement can be searched if no comparison of its request passes over a row. -/
theorem areSearchable (hjoins : scene.joined.mapM (Store.checkOfStep scene.sources) = .ok joins)
    (hplaces : ∀ check ∈ joins, ∀ p ∈ check.places, p.IsIn scene.sources)
    (hexpresses : scene.Expresses condition r.filters) (hfinds : db.FindsAll r) :
    Store.AreSearchable scene.sources condition joins := by
  constructor
  · intro check hcheck
    rcases List.mem_append.1 hcheck with hcheck | hcheck
    · exact hexpresses.places check hcheck
    · exact hplaces check hcheck
  · intro rows hrows check hcheck
    obtain ⟨s, hs, hchoice⟩ : ∃ s ∈ db.selections r, s.choice = Choice.ofRows rows := by
      rw [← List.mem_map, scene.choices_selections]
      exact List.mem_map.2 ⟨rows, hrows, rfl⟩
    obtain ⟨hfilter, hchains⟩ := hfinds s hs
    rw [← hchoice]
    rcases List.mem_append.1 hcheck with hcheck | hcheck
    · exact hexpresses.passesOver_eq s hs hfilter check hcheck
    · have hany : joins.any (Check.passesOver s.choice) = false :=
        (scene.all_checks hjoins hs).2.trans hchains
      simpa using List.any_eq_false.1 hany check hcheck

end Scene

/-- Choices in another order are the choices of selections in another order. -/
theorem exists_selections_of_perm {chosen : List Choice} {selections : List Selection}
    (h : chosen.Perm (selections.map Selection.choice)) :
    ∃ ordered : List Selection, ordered.Perm selections ∧ chosen = ordered.map Selection.choice := by
  have hcomp := congrFun (congrFun (List.eq_map_comp_perm Selection.choice) chosen) selections
  obtain ⟨ordered, hchosen, hperm⟩ := hcomp.mpr h
  exact ⟨ordered, hperm, hchosen⟩

theorem upTo_map {α β : Type} (limit : Option Int64) (f : α → β) (entries : List α) :
    Store.upTo limit (entries.map f) = (Store.upTo limit entries).map f := by
  cases limit with
  | none => rfl
  | some n => exact List.map_take.symm

/-- The limit of a statement is that of its request. -/
theorem upTo_of_checkLimit {α : Type} {limit : Option Int64}
    (h : r.limit.mapM Plan.checkLimit = .ok limit) (entries : List α) :
    Store.upTo limit entries = r.upTo entries := by
  unfold ReadRequest.upTo
  cases hlimit : r.limit with
  | none =>
      rw [hlimit] at h
      obtain rfl := Except.ok.inj h
      rfl
  | some n =>
      rw [hlimit] at h
      obtain ⟨m, hm, rfl⟩ := Except.map_eq_ok_iff.1 h
      unfold Plan.checkLimit at hm
      split at hm
      · next hbounds =>
          obtain rfl := Except.ok.inj hm
          rw [Bool.and_eq_true, decide_eq_true_iff, decide_eq_true_iff] at hbounds
          have hlt : n < 2 ^ 63 := Nat.lt_succ_of_le hbounds.2
          show entries.take (Int64.ofNat n).toNatClampNeg = _
          rw [Int64.toNatClampNeg_ofNat_of_lt hlt]
      · cases hm

/-! ## Reading -/

/-- Everything that the statement of a read request names is found in the store, and what it is
stands for what the request names. -/
theorem exists_resolved_of_read (hfits : db.Fits)
    (hnames : r.sourceNames.Pairwise fun a b => sameName a b = false) {plan : ReadPlan}
    (hplan : Plan.read db.catalog r = .ok plan) :
    ∃ found : Store.Resolved db.store plan.select,
      (db.FindsAll r → Store.AreSearchable found.sources found.condition found.joins) ∧
      ((combinations (found.sources.map Source.relation)).map Choice.ofRows).filter
          (meetsChecks found.condition found.joins) = (db.meaning r).map Selection.choice ∧
      (∀ s ∈ db.selections r, Database.resultRow plan.columns (found.columns.map (cellAt s.choice))
        = s.row r.columns) ∧
      (∀ a ∈ db.selections r, ∀ b ∈ db.selections r,
        Store.standsBefore a.choice b.choice found.ordering
          = a.standsBefore b (r.ordering.getD [])) ∧
      r.limit.mapM Plan.checkLimit = .ok plan.select.limit := by
  obtain ⟨t, limit, joins, columns, condition, terms, ht, hlimit, hjoins, hcolumns, hcondition,
    hterms, rfl⟩ := Plan.read_eq_ok_iff.1 hplan
  obtain ⟨scene, joined, rfl, hsteps, haliases, hsources, hjoined⟩ :=
    exists_scene hfits hnames (Catalog.table_eq_ok_iff.1 ht) hjoins
  rw [← haliases] at hcolumns hcondition hterms
  obtain ⟨places, hplaces, hrow⟩ := scene.exists_places_of_selectList hcolumns
  obtain ⟨checks, hchecks, hexpresses⟩ := scene.exists_checks_of_filter hcondition
  obtain ⟨ordering, hordering, hbefore⟩ := scene.exists_places_of_ordering hterms
  obtain ⟨steps, hstepChecks, hstepPlaces⟩ := scene.chains.exists_checks scene.stage
    List.mem_cons_self fun o ho => List.mem_cons_of_mem _ ho
  have hmeaning := Scene.choices_meaning hstepChecks hexpresses
  have hsearchable := Scene.areSearchable hstepChecks hstepPlaces hexpresses
  rw [hsteps] at hstepChecks
  rw [hsources] at hplaces hchecks hordering hstepChecks hmeaning hsearchable
  let found : Store.Resolved db.store ⟨columns.map OutputColumn.ref, scene.base.table.name,
      joins.steps, condition, terms, limit⟩ := {
    base := scene.base.relation
    joined
    joins := steps
    columns := places
    condition := checks
    ordering
    base_eq := Store.readable_of_relation? hfits.isSound scene.base_isStored.relation
    joined_eq := hjoined
    joins_eq := hstepChecks
    columns_eq := hplaces
    condition_eq := hchecks
    ordering_eq := hordering }
  exact ⟨found, hsearchable, hmeaning, hrow, hbefore, hlimit⟩

/-- **What the statement of a read request gives.** Unless it is too large, the statement of a request
gives the rows of the meaning, in the order and up to the limit that are asked for. -/
theorem select_of_read (hfits : db.Fits) (hfinds : db.FindsAll r)
    (hnames : r.sourceNames.Pairwise fun a b => sameName a b = false) {plan : ReadPlan}
    (hplan : Plan.read db.catalog r = .ok plan) :
    (∃ e, db.store.select plan.select = .error e ∧ Store.IsLimit plan.select e) ∨
      ∃ chosen : List Selection, chosen.Perm (db.meaning r) ∧
        chosen.Pairwise (fun a b => a.standsBefore b (r.ordering.getD []) = true) ∧
        ∃ cells, db.store.select plan.select = .ok cells ∧
          cells.map (Database.resultRow plan.columns)
            = (r.upTo chosen).map fun s => s.row r.columns := by
  obtain ⟨found, hsearchable, hmeaning, hrow, hbefore, hlimit⟩ :=
    exists_resolved_of_read hfits hnames hplan
  rcases Store.select_of_resolved found (hsearchable hfinds) with
    hlarge | ⟨chosen, hperm, hsorted, hselect⟩
  · exact .inl hlarge
  · rw [hmeaning] at hperm
    -- The choices are those of the meaning, in the order that the statement sorts them in.
    obtain ⟨ordered, hordered, rfl⟩ := exists_selections_of_perm hperm
    have hmem : ∀ s ∈ ordered, s ∈ db.selections r := fun s hs =>
      (List.mem_filter.1 (hordered.mem_iff.1 hs)).1
    refine .inr ⟨ordered, hordered, ?_, _, hselect, ?_⟩
    · rw [List.pairwise_map] at hsorted
      apply hsorted.imp_of_mem
      intro a b ha hb hstands
      rw [← hbefore a (hmem a ha) b (hmem b hb)]
      exact hstands
    · rw [upTo_map, upTo_of_checkLimit hlimit, List.map_map, List.map_map]
      apply List.map_congr_left
      intro s hs
      have hs : s ∈ ordered := by
        unfold ReadRequest.upTo at hs
        split at hs
        · exact List.mem_of_mem_take hs
        · exact hs
      exact hrow s (hmem s hs)

namespace Database

theorem read_eq_fetch {scoping : Scoping} {plan : ReadPlan}
    (hscope : scoping = .joined ∨ db.inTransaction = false)
    (hplan : Plan.read db.catalog r = .ok plan) :
    read scoping r db
      = (do return (← db.store.select plan.select).map (resultRow plan.columns), db) := by
  unfold read
  rw [hplan]
  cases scoping with
  | joined => rfl
  | own =>
      have hclosed : db.inTransaction = false := by simpa using hscope
      show transaction (fetch plan) db = _
      unfold transaction fetch
      rw [if_neg (by simp [hclosed])]
      obtain ⟨catalog, store, keys, inTransaction⟩ := db
      obtain rfl : inTransaction = false := hclosed
      dsimp only
      cases store.select plan.select with
      | ok rows => rfl
      | error e => rfl

/-- No alias is declared twice in a request that is accepted. -/
theorem nodup_keys_of_read {plan : ReadPlan} (hfits : db.Fits)
    (hplan : Plan.read db.catalog r = .ok plan)
    (hnames : r.sourceNames.Pairwise fun a b => sameName a b = false) :
    ((r.joins.getD []).map (·.1)).Nodup := by
  obtain ⟨t, _, joins, _, _, _, ht, -, hjoins, -⟩ := Plan.read_eq_ok_iff.1 hplan
  obtain ⟨scene, -⟩ := exists_scene hfits hnames (Catalog.table_eq_ok_iff.1 ht) hjoins
  exact scene.nodup_keys

/-- **Reading gives the meaning of a request.** In a database that fits its catalog, a request whose
sources have names that are not the same name for any two, and that is accepted, is accepted with its
aliases in any order. Unless its statement is too large, the result has a row for each selection that
the request asks for, in the ordering and up to the limit that are asked for; the order of the aliases
makes no difference. -/
theorem read_eq_meaning {scoping : Scoping} {plan : ReadPlan} {joins : Option JoinSpec}
    (hfits : db.Fits) (hplan : Plan.read db.catalog r = .ok plan)
    (hnames : r.sourceNames.Pairwise fun a b => sameName a b = false)
    (hfinds : db.FindsAll r) (hscope : scoping = .joined ∨ db.inTransaction = false)
    (hperm : (joins.getD []).Perm (r.joins.getD [])) :
    ∃ steps : List JoinStep, steps.Perm plan.select.joins ∧
      Plan.read db.catalog { r with joins }
        = .ok { plan with select := { plan.select with joins := steps } } ∧
      ((∃ e, read scoping { r with joins } db = (.error e, db) ∧
          Store.IsLimit { plan.select with joins := steps } e) ∨
        ∃ chosen : List Selection, chosen.Perm (db.meaning { r with joins }) ∧
          (chosen.map fun s => s.row r.columns).Perm
            ((db.meaning r).map fun s => s.row r.columns) ∧
          chosen.Pairwise (fun a b => a.standsBefore b (r.ordering.getD []) = true) ∧
          read scoping { r with joins } db
            = (.ok ((r.upTo chosen).map fun s => s.row r.columns), db)) := by
  have hnodup := nodup_keys_of_read hfits hplan hnames
  obtain ⟨steps, hsteps, hplan'⟩ := Plan.exists_read_of_perm hplan hnodup hperm
  refine ⟨steps, hsteps, hplan', ?_⟩
  have hsourceNames : ReadRequest.sourceNames { r with joins } |>.Perm r.sourceNames :=
    (hperm.flatMap_right _).cons _
  have hnames' : (ReadRequest.sourceNames { r with joins }).Pairwise
      fun a b => sameName a b = false := by
    apply hsourceNames.symm.pairwise hnames
    intro a b h
    rw [Store.sameName_comm, h]
  rw [read_eq_fetch hscope hplan']
  rcases select_of_read hfits (hfinds.perm hperm hnodup) hnames' hplan' with
    ⟨e, hselect, hlimit⟩ | ⟨chosen, hchosen, hsorted, cells, hselect, hrows⟩
  · refine .inl ⟨e, ?_, hlimit⟩
    rw [hselect]
    rfl
  · refine .inr ⟨chosen, hchosen, ?_, hsorted, ?_⟩
    · exact (hchosen.map _).trans (meaning_perm db r hperm hnodup)
    · rw [hselect]
      show (Except.ok (cells.map (resultRow plan.columns)), db) = _
      rw [hrows]
      rfl

/-- A stored table, whose key is the row id, with some rows. -/
def shotRelation (rows : List Store.Row) : Store.Relation where
  name := "Shot"
  fields := [⟨"id", .integer, false, .cell .null⟩, ⟨"name", .text, true, .cell .null⟩]
  idField := some 0
  indexes := []
  rows

/-- A database with one table and some rows. -/
def shots (rows : List Store.Row) : Database where
  catalog := ⟨[("Shot", {
    name := "Shot"
    columns := [{ name := "id", type := .int, isKey := true }, { name := "name", type := .string }]
  })]⟩
  store := { Store.empty 0 with relations := [shotRelation rows] }
  keys := none

theorem relation?_shots (rows : List Store.Row) :
    (shots rows).store.relation? "Shot" = some (shotRelation rows) := by
  have hname : sameName (shotRelation rows).name "Shot" = true := Store.sameName_self "Shot"
  show [shotRelation rows].find? (fun rel => sameName rel.name "Shot") = _
  rw [List.find?_cons, hname]

theorem fits_shots (rows : List Store.Row) : (shots rows).Fits := by
  have hreserved : Store.isReserved "Shot" = false := by decide
  have hfind : ∀ name t, (shots rows).catalog.table? name = some t →
      t.name = name ∧ (shots rows).store.Holds t := by
    intro name t ht
    have hmem : (name, t) ∈ (shots rows).catalog.entries := Assoc.mem_of_find? ht
    obtain ⟨rfl, rfl⟩ := Prod.mk.inj (List.mem_singleton.1 hmem)
    exact ⟨rfl, shotRelation rows, relation?_shots rows, hreserved, rfl, by decide⟩
  exact ⟨rfl, fun name t ht => (hfind name t ht).1, fun name t ht => (hfind name t ht).2⟩

/-- Shots with a later one, and with one of the same name. -/
def pairs : ReadRequest where
  table := "Shot"
  columns := ["id", "later.id"]
  filters := some (.object [("gt", .object [("later.id", .int 2)])])
  joins := some [("later", [["id", "lt", "Shot", "id"]]), ("same", [["name", "eq", "Shot", "name"]])]
  ordering := some [("id", .descending)]

theorem read_eq_meaning_pairs :
    let db := shots [⟨1, [.int 1, .text "A"]⟩, ⟨2, [.int 2, .text "B"]⟩, ⟨3, [.int 3, .text "C"]⟩]
    let joins := some (pairs.joins.getD []).reverse
    ∃ chosen : List Selection, chosen.length = 2 ∧
      (chosen.map fun s => s.row pairs.columns).Perm
        ((db.meaning pairs).map fun s => s.row pairs.columns) ∧
      read .own { pairs with joins } db = (.ok (chosen.map fun s => s.row pairs.columns), db) := by
  intro db joins
  have haccepted : (Plan.read db.catalog pairs).isOk = true := by decide +kernel
  have hread : (read .own { pairs with joins } db).1.isOk = true := by decide +kernel
  have hlength : (db.meaning pairs).length = 2 := by decide +kernel
  have hfinds : db.FindsAll pairs := by
    have hall : ((db.selections pairs).all fun s => !s.isPassedOverByFilter pairs.filters
        && !s.isPassedOverByJoins (pairs.joins.getD [])) = true := by decide +kernel
    intro s hs
    simpa using List.all_eq_true.1 hall s hs
  have hperm : (joins.getD []).Perm (pairs.joins.getD []) := List.reverse_perm _
  obtain ⟨plan, hplan⟩ := Except.isOk_iff.1 haccepted
  obtain ⟨steps, -, -, h⟩ :=
    read_eq_meaning (fits_shots _) hplan (by decide) hfinds (.inr rfl) hperm
  rcases h with ⟨e, he, -⟩ | ⟨chosen, -, hrows, -, hchosen⟩
  · rw [he] at hread
    cases hread
  · refine ⟨chosen, ?_, hrows, hchosen⟩
    rw [← hlength]
    simpa using hrows.length_eq

/-- A shot with the least number of 64 bits as its key, looked up by the float of that number. -/
def leastByFloat : ReadRequest where
  table := "Shot"
  filters := some (.object [("eq", .object [("id", .float (Float.ofBits 0xC3E0000000000000))])])

/-- **The least key is passed over.** A search by row id finds no row when it is given the float of
the least number, although the comparison is true: the request asks for a row, and reading gives
none. -/
theorem read_least_key :
    let db := shots [⟨Int64.minValue, [.int Int64.minValue, .text "A"]⟩]
    let asked := (db.meaning leastByFloat).map fun s => s.row leastByFloat.columns
    Catalog.build db.catalog.tables = .ok db.catalog ∧ db.Fits ∧
      (∃ plan, Plan.read db.catalog leastByFloat = .ok plan) ∧
      leastByFloat.sourceNames.Pairwise (fun a b => sameName a b = false) ∧
      leastByFloat.ordering = none ∧ leastByFloat.limit = none ∧
      asked = [[⟨"id", .int Int64.minValue⟩, ⟨"name", .string "A"⟩]] ∧
      read .own leastByFloat db = (.ok [], db) ∧
      ¬ ∃ rows, (read .own leastByFloat db).1 = .ok rows ∧ rows.Perm asked := by
  intro db asked
  have hasked : asked = [[⟨"id", .int Int64.minValue⟩, ⟨"name", .string "A"⟩]] := by rfl
  have hread : read .own leastByFloat db = (.ok [], db) := by rfl
  refine ⟨by rfl, fits_shots _, ?_, by decide, rfl, rfl, hasked, hread, ?_⟩
  · apply Except.isOk_iff.1
    decide +kernel
  · rintro ⟨rows, hrows, hperm⟩
    rw [hread] at hrows
    obtain rfl := Except.ok.inj hrows
    rw [hasked] at hperm
    simpa using hperm.length_eq

end Database

end Tabula
