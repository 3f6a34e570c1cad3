import Tabula.Proofs.Database.Agreement
import Tabula.Proofs.Store.Repeated

/-!
# Requests that are repeated

A store is reachable if it comes about by opening stores with catalogs, whatever comes of that, and by
what happens to databases while they are open. Main statement: in such a store, an update that has
succeeded can be requested once more, and changes nothing then; and so can a deletion, which removes
nothing then (`update_delete_again`). The one exception are patterns that are too long, which the store
refuses only when it comes to compare a row with them (`update_again_refused`).
-/

namespace Tabula

open Store (Check Relation Row baseSource checksOfClause matching)
open Store.Access (Goal)

/-! ## Reachable stores -/

namespace Store

variable {s s' : Store}

/-- Whether all tables of a store are in order. -/
def IsInOrder (s : Store) : Prop := ∀ rel ∈ s.relations, rel.IsInOrder

namespace IsInOrder

variable {rel : Relation} {d : Sql.Definition}

/-- A table of a store in order is in order. -/
theorem of_relation? (h : s.IsInOrder) {name : String} (hrel : s.relation? name = some rel) :
    rel.IsInOrder :=
  h rel (List.mem_of_find?_eq_some hrel)

/-- A store stays in order when a table is replaced by one in order. -/
theorem replace (h : s.IsInOrder) (hrel : rel.IsInOrder) : (s.replace rel).IsInOrder := by
  intro replaced hreplaced
  obtain ⟨old, hold, rfl⟩ := List.mem_map.1 hreplaced
  split
  · exact hrel
  · exact h old hold

/-- An index is only added at which the rows of its table differ. -/
theorem checkIndex_of_define {name owner : String} {columns : List String}
    (h : s.define (.index name owner columns) = .ok s') (hrel : s.relation? owner = some rel)
    (hfree : s.hasIndex name = false) :
    checkIndex rel ⟨some name, columns.map (indexTerm rel)⟩ rel.rows = .ok () := by
  unfold Store.define at h
  obtain ⟨-, -, h⟩ := Except.bind_eq_ok_iff.1 h
  obtain ⟨-, -, h⟩ := Except.bind_eq_ok_iff.1 h
  dsimp only at h
  rw [hrel, hfree] at h
  dsimp only at h
  split at h
  · cases h
  split at h
  · cases h
  rw [if_neg nofun] at h
  obtain ⟨-, -, h⟩ := Except.bind_eq_ok_iff.1 h
  obtain ⟨-, -, h⟩ := Except.bind_eq_ok_iff.1 h
  obtain ⟨⟨⟩, hcheck, -⟩ := Except.bind_eq_ok_iff.1 h
  exact hcheck

/-- So it does with one more definition. -/
theorem define (h : s.IsInOrder) (hdefine : s.define d = .ok s') : s'.IsInOrder := by
  cases d with
  | table name columns =>
      rcases (define_table_cases hdefine).2 with ⟨-, rfl⟩ | ⟨-, -, rfl⟩
      · exact h
      · intro rel hrel
        rcases List.mem_append.1 hrel with hrel | hrel
        · exact h rel hrel
        · obtain rfl := List.mem_singleton.1 hrel
          exact Relation.isInOrder_of_rows_eq_nil rfl
  | index name owner columns =>
      obtain ⟨rel, hrel, ⟨-, rfl⟩ | ⟨hfree, rfl⟩⟩ := define_index_eq_ok hdefine
      · exact h
      · exact h.replace ((h.of_relation? hrel).addIndex (checkIndex_of_define hdefine hrel hfree))

/-- Tables stay in order up to a definition that fails. -/
theorem defineAll (h : s.IsInOrder) (ds : List Sql.Definition) : (s.defineAll ds).2.IsInOrder := by
  induction ds generalizing s with
  | nil => exact h
  | cons d ds ih =>
      unfold Store.defineAll
      split
      · next hdefine => exact ih (h.define hdefine)
      · exact h

/-- So it does when it is opened. -/
theorem openStore (h : s.IsInOrder) (c : Configuration) (catalog : Catalog) (entropy : Entropy) :
    (Database.openStore c catalog entropy s).2.IsInOrder := by
  unfold Database.openStore
  dsimp only
  split
  · exact h.defineAll catalog.definitions
  · exact h

end IsInOrder

end Store

namespace Database

variable {a b db after : Database}

/-- **Tables stay in order in every step.** -/
theorem Step.isInOrder (h : Step a b) (ha : a.store.IsInOrder) : b.store.IsInOrder := by
  cases h with
  | insert _ _ hinsert =>
      obtain ⟨rel, rel', id, hrel, hadded, rfl⟩ := Store.insert_eq_ok hinsert
      exact ha.replace ((ha.of_relation? hrel).insert hadded)
  | update _ hupdate =>
      obtain ⟨rel, assignment, rows, arrangement, ids, rel', hrel, -, -, -, hset, rfl, -⟩ :=
        Store.update_eq_ok hupdate
      exact ha.replace ((ha.of_relation? hrel).updateRows hset)
  | delete _ hdelete =>
      obtain ⟨rel, rows, arrangement, hrel, -, rfl, -⟩ := Store.delete_eq_ok hdelete
      exact ha.replace ((ha.of_relation? hrel).filter _)
  | aside => exact ha

/-- A database is opened on what is then in the store, with no row added yet. -/
theorem store_of_openStore {c : Configuration} {catalog : Catalog} {entropy : Entropy}
    {store : Store} (h : (openStore c catalog entropy store).1 = .ok db) :
    db.store = { (openStore c catalog entropy store).2 with lastId := 0 } := by
  unfold openStore at h ⊢
  obtain ⟨⟨⟩, -, h⟩ := Except.bind_eq_ok_iff.1 h
  obtain ⟨keys, -, h⟩ := Except.bind_eq_ok_iff.1 h
  rw [← Except.ok.inj h]

end Database

namespace Store

-- Tables are compared where it is checked what a run makes of them.
deriving instance DecidableEq for Filler, Field, Index, Relation

/-- Which stores can come about. -/
inductive IsReachable : Store → Prop
  /-- There is nothing in it. -/
  | empty (now : Int64) : IsReachable (empty now)
  /-- It was opened, whether or not that has failed. -/
  | opened {s : Store} (c : Configuration) (catalog : Catalog) (entropy : Entropy) :
    IsReachable s → IsReachable (Database.openStore c catalog entropy s).2
  /-- It is that of a database which was opened, after whatever has happened to it. -/
  | run {s : Store} {start db : Database} (c : Configuration) (catalog : Catalog)
    (entropy : Entropy) : IsReachable s →
    (Database.openStore c catalog entropy s).1 = .ok start → Database.Run start db →
    IsReachable db.store
  /-- It is found at another time, or where other things may be done with it. -/
  | found {s : Store} (now : Int64) (standing : Standing) :
    IsReachable s → IsReachable { s with now, standing }

/-- **The tables of a store that can come about are in order.** -/
theorem IsReachable.isInOrder {s : Store} (h : s.IsReachable) : s.IsInOrder := by
  induction h with
  | empty now => exact fun rel hrel => nomatch hrel
  | opened c catalog entropy _ ih => exact ih.openStore c catalog entropy
  | run c catalog entropy _ hopen hrun ih =>
      refine hrun.keeps (P := fun db => db.store.IsInOrder) Database.Step.isInOrder ?_
      rw [Database.store_of_openStore hopen]
      exact ih.openStore c catalog entropy
  | found now standing _ ih => exact ih

end Store

/-! ## Requests -/

namespace Filter

/-- Rows are only compared with a pattern that is too long if there is one in the filter. -/
theorem hasLongPattern_of_comesTo {scope : Scope} {filters : Option Json}
    {condition : Option Sql.Condition} (hcondition : conditionOfJson scope filters = .ok condition)
    (h : Store.ComesToLongPattern condition) : hasLongPattern filters = true := by
  obtain ⟨rel, checks, hchecks, hlong⟩ := h
  by_contra hnone
  obtain ⟨found, hfound⟩ := Store.exists_matching hchecks
    (mayHaveLongPattern_of_filter hcondition hchecks (Bool.eq_false_of_not_eq_true hnone) _)
  cases hfound.symm.trans hlong

end Filter

namespace Database

variable {db after : Database} {count : Nat} {scoping : Scoping}

/-- A request that is planned to one statement and succeeds does what the statement does, and so does
every other one in the same place. -/
theorem change_of_within {run : Store → Except Error (Store × Nat)}
    (h : within scoping (change run) db = (.ok count, after)) :
    ∃ store, run db.store = .ok (store, count) ∧ after = { db with store } ∧
      ∀ store, within scoping (change run) { db with store } = change run { db with store } := by
  have hscope : scoping = .joined ∨ db.inTransaction = false := by
    obtain ⟨-, -, -, -, -, -, hscope⟩ := within_eq_ok h
    exact hscope
  rw [within_change hscope] at h
  obtain ⟨store, hstore, rfl⟩ := change_eq_ok_iff.1 h
  exact ⟨store, hstore, rfl, fun _ => within_change hscope⟩

/-- A request for an update is refused the second time if what it is planned to is. -/
theorem update_again_of_plan {r : UpdateRequest} {q : Sql.Update} {store : Store} {e : Error}
    (hplan : Plan.update db.catalog r = .ok q) (hclosed : db.inTransaction = false)
    (hupdate : db.store.update q = .ok (store, count)) (hagain : store.update q = .error e) :
    ∃ after, update .own r db = (.ok count, after) ∧ update .own r after = (.error e, after) := by
  refine ⟨{ db with store }, ?_, ?_⟩
  · unfold update
    rw [hplan]
    dsimp only
    rw [within_change (.inr hclosed)]
    exact change_eq_ok_iff.2 ⟨store, hupdate, rfl⟩
  · have hclosed : ({ db with store } : Database).inTransaction = false := hclosed
    unfold update
    dsimp only
    rw [hplan]
    dsimp only
    rw [within_change (.inr hclosed)]
    exact change_eq_error hagain

/-- **Updates and deletions can be requested once more.** In a database whose store can come about, an
update that has succeeded succeeds again, is about no more rows than before and changes nothing,
unless it is refused for a pattern of its filter that is too long, which changes nothing either; and a
deletion that has succeeded succeeds again and removes nothing. -/
theorem update_delete_again (hreachable : db.store.IsReachable) (scoping : Scoping) :
    (∀ r count after, update scoping r db = (.ok count, after) →
      (∃ n ≤ count, update scoping r after = (.ok n, after)) ∨
        Filter.hasLongPattern r.filters = true ∧
          update scoping r after = (.error (.storage .patternTooLong), after)) ∧
    ∀ r count after, delete scoping r db = (.ok count, after) →
      delete scoping r after = (.ok 0, after) := by
  constructor
  · intro r count after h
    unfold update at h
    cases hplan : Plan.update db.catalog r with
    | error e =>
        rw [hplan] at h
        cases (Prod.mk.inj h).1
    | ok q =>
        rw [hplan] at h
        obtain ⟨t, condition, -, -, hcondition, rfl⟩ := Plan.update_eq_ok hplan
        obtain ⟨store, hstore, rfl, hwithin⟩ := change_of_within h
        have hagain := Store.update_again
          (fun rel hrel => hreachable.isInOrder.of_relation? hrel) hstore
        unfold update
        dsimp only
        rw [hplan]
        dsimp only
        rw [hwithin]
        -- A pattern may be too long for rows that the first update has brought under it.
        rcases hagain with ⟨n, hn, hagain⟩ | ⟨hlong, hagain⟩
        · exact .inl ⟨n, hn, change_eq_ok_iff.2 ⟨store, hagain, rfl⟩⟩
        · exact .inr ⟨Filter.hasLongPattern_of_comesTo hcondition hlong, change_eq_error hagain⟩
  · intro r count after h
    unfold delete at h
    cases hplan : Plan.delete db.catalog r with
    | error e =>
        rw [hplan] at h
        cases (Prod.mk.inj h).1
    | ok q =>
        rw [hplan] at h
        obtain ⟨store, hstore, rfl, hwithin⟩ := change_of_within h
        unfold delete
        dsimp only
        rw [hplan]
        dsimp only
        rw [hwithin]
        exact change_eq_ok_iff.2 ⟨store, Store.delete_again hstore, rfl⟩

/-- What gives a count succeeds with it. -/
theorem exists_of_toOption {p : Except Error Nat × Database} (h : p.1.toOption = some count) :
    ∃ after, p = (.ok count, after) :=
  ⟨p.2, Prod.ext (Except.toOption_eq_some_iff.1 h) rfl⟩

/-- The one book that is in a place is taken from it, or removed, and then there is none. -/
theorem update_delete_again_books :
    let taking : UpdateRequest := ⟨"Book", [("place", .null)], inPlace⟩
    let removal : DeleteRequest := ⟨"Book", inPlace⟩
    booksAdded.store.IsReachable ∧
      (∃ after, update .own taking booksAdded = (.ok 1, after) ∧
        ∃ n ≤ 1, update .own taking after = (.ok n, after)) ∧
      ∃ after, delete .own removal booksAdded = (.ok 1, after) ∧
        delete .own removal after = (.ok 0, after) := by
  intro taking removal
  have hchecked : (update .own taking booksAdded).1.toOption = some 1 ∧
      (delete .own removal booksAdded).1.toOption = some 1 ∧
      Filter.hasLongPattern taking.filters = false := by decide +kernel
  obtain ⟨hupdate, hdelete, hshort⟩ := hchecked
  have hreachable : booksAdded.store.IsReachable :=
    .run {} books ⟨0⟩ (.empty 0) (by rw [openStore_books]) (.execute .own _ (.refl _))
  obtain ⟨taken, hupdated⟩ := exists_of_toOption hupdate
  obtain ⟨removed, hdeleted⟩ := exists_of_toOption hdelete
  obtain ⟨hagain, hgone⟩ := update_delete_again hreachable .own
  refine ⟨hreachable, ⟨taken, hupdated, ?_⟩, removed, hdeleted, hgone _ _ _ hdeleted⟩
  rcases hagain _ _ _ hupdated with hagain | ⟨hlong, -⟩
  · exact hagain
  · cases hshort.symm.trans hlong

/-- A table of markers on beats. -/
def markerTable : Table where
  name := "Marker"
  columns := [
    { name := "id", type := .int, isKey := true },
    { name := "beat", type := .int },
    { name := "label", type := .string }]

/-- A catalog with the table of markers. -/
def markers : Catalog where
  entries := [("Marker", markerTable)]

/-- A database that was opened with the catalog in an empty store. -/
def markersOpened : Database where
  catalog := markers
  store := { ((Store.empty 0).defineAll markers.definitions).2 with lastId := 0 }
  keys := none

/-- The database after a marker is added on the first beat. -/
def markerAdded : Database :=
  let marker : RowValues := [("beat", .int 1), ("id", .int 1), ("label", .string "intro")]
  (execute .own (.create ⟨"Marker", [marker]⟩) markersOpened).2

theorem run_markerAdded : Run markersOpened markerAdded := .execute .own _ (.refl _)

/-- The store of the example is reachable. -/
theorem isReachable_markerAdded : markerAdded.store.IsReachable := by
  have hopen : openStore {} markers ⟨0⟩ (Store.empty 0)
      = (.ok markersOpened, ((Store.empty 0).defineAll markers.definitions).2) :=
    openStore_of_defineAll (by decide +kernel)
  exact .run {} markers ⟨0⟩ (.empty 0) (by rw [hopen]) run_markerAdded

/-- A pattern that is one character too long. -/
def longPattern : String := String.ofList (List.replicate (Store.maxPattern + 1) 'x')

/-- A letter takes one byte each time. -/
theorem utf8ByteSize_replicate (n : Nat) :
    (String.ofList (List.replicate n 'x')).utf8ByteSize = n := by
  rw [String.utf8ByteSize_ofList]
  induction n with
  | zero => rfl
  | succ n ih =>
      rw [List.replicate_succ, String.utf8Len, ih]
      rfl

/-- The pattern of the example is too long. -/
theorem isLongPattern_longPattern : Store.isLongPattern (.text longPattern) = true := by
  have htext (s : String) :
      Store.isLongPattern (.text s) = true ↔ Store.maxPattern < s.utf8ByteSize := decide_eq_true_iff
  unfold longPattern
  rw [htext, utf8ByteSize_replicate]
  exact Nat.lt_add_one _

/-- A request that moves the markers of the first beat, and those with a label that is like a
pattern, to the second beat. -/
def moving (pattern : String) : UpdateRequest where
  table := "Marker"
  values := [("beat", .int 2)]
  filters := some (.object [("or", .array [
    .object [("eq", .object [("beat", .int 1)])],
    .object [("like", .object [("label", .string pattern)])]])])

/-- The statement that the request is planned to. -/
def movingPlan (pattern : String) : Sql.Update where
  table := "Marker"
  values := [("beat", .int 2)]
  condition := some (.all [.any [
    .all [.atom ⟨⟨"Marker", "beat"⟩, .eq, .value (.int 1)⟩],
    .all [.atom ⟨⟨"Marker", "label"⟩, .like, .value (.string pattern)⟩]]])

/-- The condition of the example. -/
theorem condition_moving (pattern : String) :
    Filter.conditionOfJson ⟨markerTable, []⟩ (moving pattern).filters
      = .ok (movingPlan pattern).condition := by
  have hbeat : Filter.constraints "eq" (.object [("beat", .int 1)])
      = .ok [⟨.eq, "beat", .int 1⟩] := by rfl
  have hlabel : Filter.constraints "like" (.object [("label", .string pattern)])
      = .ok [⟨.like, "label", .string pattern⟩] := by rfl
  have hresolved : Filter.condition ⟨markerTable, []⟩ (.all [.any [
      .all [.atom ⟨.eq, "beat", .int 1⟩], .all [.atom ⟨.like, "label", .string pattern⟩]]])
      = .ok (movingPlan pattern).condition := by
    cbv
  simp only [moving, Filter.conditionOfJson, Filter.ofJson, Filter.parts, Filter.alternatives,
    Filter.ofJsonItems, hbeat, hlabel]
  exact hresolved

/-- The statement of the example. -/
theorem plan_moving (pattern : String) :
    Plan.update markers (moving pattern) = .ok (movingPlan pattern) := by
  have htable : markersOpened.catalog.table "Marker" = .ok markerTable := rfl
  have hset : markerTable.CanSet [("beat", .int 2)] := by
    refine ⟨?_, List.cons_ne_nil _ _, by rfl⟩
    unfold Assoc.IsOrdered
    decide
  have hplan : Plan.update markersOpened.catalog (moving pattern) = _ := plan_update htable hset
  exact hplan.trans (congrArg (Except.map _) (condition_moving pattern))

/-- The table of markers, with one marker on a beat. -/
def markerRelation (beat : Int64) : Relation :=
  { Store.relationOf "Marker" (markerTable.columns.map Column.definition) with
    rows := [⟨1, [.int 1, .int beat, .text "intro"]⟩] }

/-- The checks that the condition of the request amounts to. -/
def movingChecks (pattern : String) : Formula Check :=
  .all [.any [
    .all [.atom (.value ⟨0, .field 1, .integer⟩ .eq (.int 1))],
    .all [.atom (.value ⟨0, .field 2, .text⟩ .like (.text pattern))]]]

/-- The condition of the example as the store prepares it. -/
theorem checks_moving (pattern : String) (beat : Int64) :
    checksOfClause [baseSource (markerRelation beat)] (movingPlan pattern).condition
      = .ok (movingChecks pattern) := by
  have hbeat : Store.locate [baseSource (markerRelation 1)] ⟨"Marker", "beat"⟩
      = .ok ⟨0, .field 1, .integer⟩ :=
    Except.toOption_eq_some_iff.1 (by decide +kernel)
  have hlabel : Store.locate [baseSource (markerRelation 1)] ⟨"Marker", "label"⟩
      = .ok ⟨0, .field 2, .text⟩ :=
    Except.toOption_eq_some_iff.1 (by decide +kernel)
  have hemptied : (markerRelation beat).emptied = (markerRelation 1).emptied := rfl
  rw [Store.checksOfClause_congr hemptied]
  unfold movingPlan checksOfClause
  simp only [Store.checksOf, Store.checksOfEach, Store.checkOfTest, hbeat, hlabel]
  rfl

/-- The goals by which the request finds its rows, in the order in which they are decided. -/
def movingGoals (pattern : String) (beat : Int64) : List (Formula Goal) :=
  Store.searchedFirst (Store.dueGoals
    (Store.changingTour (baseSource (markerRelation beat)) (movingChecks pattern)).goals [] 0)

/-- The request finds the marker on the first beat, where it does not come to the pattern. -/
theorem matching_moving : ∃ arrangement,
    matching (markerRelation 1) (movingPlan longPattern).condition
      = .ok ((markerRelation 1).rows, arrangement) := by
  -- What is evaluated here stops before the pattern, whose length only a lemma can tell.
  have hchecked :
      (∀ r ∈ (markerRelation 1).rows,
        Store.someOfAll [some r] (movingGoals longPattern 1) = false) ∧
      (markerRelation 1).rows.filter
          (Store.isMatched (markerRelation 1) (movingChecks longPattern))
        = (markerRelation 1).rows := by decide +kernel
  obtain ⟨hshort, hmatched⟩ := hchecked
  have hchecks := checks_moving longPattern 1
  cases hmatching : matching (markerRelation 1) (movingPlan longPattern).condition with
  | ok found =>
      obtain ⟨found, arrangement⟩ := found
      obtain ⟨checks, hchecks', hperm⟩ := Store.perm_isMatched hmatching
      obtain rfl := Except.ok.inj (hchecks.symm.trans hchecks')
      rw [hmatched] at hperm
      exact ⟨arrangement, by rw [List.perm_singleton.1 hperm]; rfl⟩
  | error e =>
      obtain rfl := Store.matching_eq_error hmatching hchecks
      obtain ⟨-, r, hr, hcomes⟩ := (Store.matching_eq_error_iff hchecks).1 hmatching
      cases hcomes.symm.trans (hshort r hr)

/-- Whether there is one goal, with a part that a row does not meet before a comparison with a
pattern. -/
def comesToPattern (r : Row) : List (Formula Goal) → Bool
  | [.any [first, .atom g]] =>
    !(first.eval (Goal.eval [some r])).holds && Store.Access.isTextual g.check
  | _ => false

/-- A row comes to a pattern past a first alternative that does not hold. -/
theorem exists_of_comesToPattern {r : Row} {goals : List (Formula Goal)}
    (h : comesToPattern r goals = true) : ∃ first g, goals = [.any [first, .atom g]] ∧
      (first.eval (Goal.eval [some r])).holds = false ∧
      Store.Access.isTextual g.check = true := by
  unfold comesToPattern at h
  split at h
  · next first g => exact ⟨first, g, rfl, by simpa using h⟩
  · cases h

/-- Off the first beat, the marker is compared with the pattern. -/
theorem matching_moved {pattern : String} {r : Row} (hr : r ∈ (markerRelation 2).rows)
    (hcomes : comesToPattern r (movingGoals pattern 2) = true)
    (hlong : Store.isLongPattern (.text pattern) = true) :
    matching (markerRelation 2) (movingPlan pattern).condition
      = .error (.storage .patternTooLong) := by
  obtain ⟨first, g, hgoals, hfirst, htextual⟩ := exists_of_comesToPattern hcomes
  have hgoal : .any [first, .atom g] ∈
      (Store.changingTour (baseSource (markerRelation 2)) (movingChecks pattern)).goals :=
    Store.mem_of_mem_searchedFirst (hgoals ▸ List.mem_singleton_self _)
  have hg : g ∈ (Formula.any [first, .atom g]).atoms := by
    simp [Formula.atoms, Formula.atomsOf]
  -- A goal may be drawn from several checks, but one that compares with a pattern is one of them.
  have hcheck : g.check = .value ⟨0, .field 2, .text⟩ .like (.text pattern) := by
    have hmem := Store.check_mem_of_isTextual hgoal hg htextual
    simp only [movingChecks, Formula.atoms, Formula.atomsOf, List.append_nil, List.cons_append,
      List.nil_append, List.mem_cons, List.not_mem_nil, or_false] at hmem
    rcases hmem with hcheck | hcheck
    · rw [hcheck] at htextual
      cases htextual
    · exact hcheck
  refine Store.matching_eq_error_of_any (checks_moving pattern 2) hgoals hr hfirst ?_ ?_
  all_goals
    rw [hcheck]
    exact hlong

/-- What the request is planned to moves the marker, and is refused when it is carried out once more. -/
theorem update_moving : ∃ store,
    markerAdded.store.update (movingPlan longPattern) = .ok (store, 1) ∧
      store.update (movingPlan longPattern) = .error (.storage .patternTooLong) := by
  have hchecked : markerAdded.store.relation? "Marker" = some (markerRelation 1) ∧
      (markerAdded.store.changeable "Marker").isOk = true ∧
      (Store.checkUpdate (movingPlan longPattern)).isOk = true ∧
      ((markerRelation 1).bind [("beat", .int 2)]).toOption = some [(.field 1, .int 2)] ∧
      ((markerRelation 1).updateRows [(.field 1, .int 2)] [1]).toOption = some (markerRelation 2) ∧
      ∀ r ∈ (markerRelation 2).rows, comesToPattern r (movingGoals longPattern 2) = true := by
    decide +kernel
  obtain ⟨hrel, hchangeable, hform, hbind, hupdate, hcomes⟩ := hchecked
  have hbind := Except.toOption_eq_some_iff.1 hbind
  obtain ⟨arrangement, hmatching⟩ := matching_moving
  have hset : (markerRelation 1).set (movingPlan longPattern) = .ok (markerRelation 2, 1) :=
    Store.set_eq_ok_of_singleton hbind hmatching (Except.toOption_eq_some_iff.1 hupdate)
  have hrefused : (markerRelation 2).set (movingPlan longPattern)
      = .error (.storage .patternTooLong) := by
    have hcompared := matching_moved List.mem_cons_self (hcomes _ List.mem_cons_self)
      isLongPattern_longPattern
    unfold Relation.set
    have hbind : (markerRelation 2).bind (movingPlan longPattern).values = _ := hbind
    rw [hbind, Except.ok_bind, hcompared]
    rfl
  have hrevised : markerAdded.store.revise (Store.checkUpdate (movingPlan longPattern)) "Marker"
      (Relation.set (movingPlan longPattern)) = .ok (markerRelation 2, 1) := by
    obtain ⟨⟨⟩, hform⟩ := Except.isOk_iff.1 hform
    obtain ⟨rel, hchangeable⟩ := Except.isOk_iff.1 hchangeable
    obtain rfl := Option.some.inj (hrel.symm.trans (Store.relation?_of_changeable hchangeable))
    unfold Store.revise
    rw [hform, Except.ok_bind, hchangeable, Except.ok_bind, hset]
  obtain ⟨rel, -, -, hagain⟩ := Store.revise_replace (fun _ _ _ => Store.emptied_set) hrevised
  refine ⟨markerAdded.store.replace (markerRelation 2), ?_, ?_⟩
  · rw [Store.update_eq_revise]
    exact Except.map_eq_ok_iff.2 ⟨_, hrevised, rfl⟩
  · rw [Store.update_eq_revise]
    change _ <$> (markerAdded.store.replace (markerRelation 2)).revise _ "Marker" _ = _
    rw [hagain, hrefused]
    rfl

/-- **An update that has succeeded may be refused when it is requested once more**: a marker that
was moved off the first beat comes to be compared with a pattern that is too long. -/
theorem update_again_refused :
    markerAdded.store.IsReachable ∧
      ∃ after, update .own (moving longPattern) markerAdded = (.ok 1, after) ∧
        update .own (moving longPattern) after = (.error (.storage .patternTooLong), after) ∧
        ¬ ∃ n ≤ 1, update .own (moving longPattern) after = (.ok n, after) := by
  refine ⟨isReachable_markerAdded, ?_⟩
  obtain ⟨store, hupdate, hagain⟩ := update_moving
  have hclosed : markerAdded.inTransaction = false := by decide +kernel
  have hplan : Plan.update markerAdded.catalog (moving longPattern) = .ok (movingPlan longPattern) := by
    rw [run_markerAdded.steps.isBeside.catalog]
    exact plan_moving longPattern
  obtain ⟨after, hmoved, hrefused⟩ := update_again_of_plan hplan hclosed hupdate hagain
  refine ⟨after, hmoved, hrefused, ?_⟩
  rintro ⟨n, -, hsucceeds⟩
  cases hrefused.symm.trans hsucceeds

end Database

end Tabula
