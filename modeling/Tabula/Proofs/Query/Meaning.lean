import Mathlib.Data.Multiset.Bind
import Tabula.Database.Operations
import Tabula.Proofs.Store.RowId

/-!
# What a read request means

A read request asks for one row for every choice of a row of its base table and, for every alias, of
one row of each step's target, such that all steps lead from row to row and the filter is true. The
meaning looks at tables, columns and aliases by their names; it knows nothing of statements and
sources. Main statement: it does not depend on the order of the aliases (`meaning_perm`).
-/

namespace Tabula

open Sql (Direction)
open Store (Relation Row)

/-! ## Records -/

/-- A stored row with its table. -/
structure Record where
  table : Table
  relation : Relation
  row : Row

/-- What a column holds, with the affinity that it is compared in, and whether it is the row id. -/
structure Datum where
  affinity : Affinity
  cell : Cell
  isRowId : Bool

namespace Datum

/-- What there is where there is no column. -/
def missing : Datum := ⟨.numeric, .null, false⟩

/-- The truth value of a comparison with the value of a filter. -/
def compareWith (d : Datum) (method : Comparison) : Value → Truth
  | .list items =>
      method.holdsOnList (Affinity.meet (some d.affinity) none d.cell .null).1
        (items.map fun v =>
          (Affinity.meet (some d.affinity) none .null ((Cell.ofValue? v).getD .null)).2)
  | v => Store.compareCells method (some d.affinity) none d.cell ((Cell.ofValue? v).getD .null)

/-- Whether a comparison of two columns is true. -/
def leadsTo (left : Datum) (method : Comparison) (right : Datum) : Bool :=
  (Store.compareCells method (some left.affinity) (some right.affinity) left.cell right.cell).holds

end Datum

namespace Record

/-- What a record holds in the column of a name. -/
def datum (r : Record) (column : String) : Datum :=
  match r.relation.fields.findIdx? (·.name = column) with
  | some position =>
      ⟨r.relation.affinity (r.relation.slotAt position), r.row.cellOf (r.relation.slotAt position),
        r.relation.slotAt position = .rowId⟩
  | none => .missing

/-- The value of a column in a result. -/
def value (r : Record) (c : Column) : Value := (r.datum c.name).cell.toValue c.type

end Record

/-! ## Chains of steps -/

namespace Join

/-- The table that a step comes to. -/
def target : List String → String
  | [_, _, name, _] => name
  | _ => ""

/-- Whether a step leads from one record to another. -/
def leads (here there : Record) : List String → Bool
  | [column, method, _, targetColumn] =>
      match Comparison.ofName? method with
      | some method => (here.datum column).leadsTo method (there.datum targetColumn)
      | none => false
  | _ => false

/-- Whether the steps of a chain lead from a record along others, one after the other. -/
def follows (here : Record) : List (List String) → List Record → Bool
  | [], [] => true
  | step :: steps, there :: way => leads here there step && follows there steps way
  | _, _ => false

/-- The names that the steps of a chain have from step `index` on. -/
def stepNames (aliasName : String) (index : Nat) : List (List String) → List String
  | [] => []
  | _ :: steps => stepAlias aliasName index steps.isEmpty :: stepNames aliasName (index + 1) steps

end Join

/-! ## Selections -/

/-- A row of the base table, and for every alias a row of each step's target. -/
structure Selection where
  base : Record
  ways : Assoc (List Record)

namespace Selection

/-- The records along the chain of an alias. -/
def way (s : Selection) (aliasName : String) : List Record :=
  (Assoc.find? s.ways aliasName).getD []

/-- The record that a source name stands for: that of the base table, or the last one of an
alias. -/
def record? (s : Selection) (source : String) : Option Record :=
  if source = s.base.table.name then some s.base else (s.way source).getLast?

/-- The record that a reference is to a column of; without a source that of the base table. -/
def referred? (s : Selection) : Option String → Option Record
  | none => some s.base
  | some source => s.record? source

/-- What a reference stands for. -/
def datum (s : Selection) (reference : String) : Datum :=
  match splitReference reference with
  | some (source?, column) => ((s.referred? source?).map (·.datum column)).getD .missing
  | none => .missing

/-- The truth value of a filter. -/
def truth (s : Selection) (f : Filter) : Truth :=
  f.eval fun c => (s.datum c.column).compareWith c.method c.value

/-- Whether the filter of a request is true, if it has one. -/
def passes (s : Selection) : Option Json → Bool
  | none => true
  | some raw =>
      match Filter.ofJson raw with
      | .ok f => (s.truth f).holds
      | .error _ => false

/-- Whether the steps of all aliases lead from row to row. -/
def follows (s : Selection) (joins : JoinSpec) : Bool :=
  joins.all fun (aliasName, steps) => Join.follows s.base steps (s.way aliasName)

/-- The fields of one entry of a column list. -/
def fieldsOf (s : Selection) (reference : String) : ResultRow :=
  match splitReference reference with
  | none => []
  | some (source?, name) =>
      match s.referred? source? with
      | none => []
      | some record =>
          if name = wildcard then
            record.table.columns.map fun c =>
              ⟨(source?.elim "" (· ++ ".")) ++ c.name, record.value c⟩
          else (record.table.column? name).toList.map fun c => ⟨reference, record.value c⟩

/-- The result row of a column list, which stands for all columns of the base table if it is
empty. -/
def row (s : Selection) (columns : List String) : ResultRow :=
  (if columns.isEmpty then [wildcard] else columns).flatMap s.fieldsOf

/-- Whether one selection stands no later than another under an ordering. -/
def standsBefore (a b : Selection) : List (String × Direction) → Bool
  | [] => true
  | (reference, direction) :: terms =>
      match direction, (a.datum reference).cell.compare (b.datum reference).cell with
      | _, .eq => standsBefore a b terms
      | .ascending, order => order = .lt
      | .descending, order => order = .gt

end Selection

/-! ## Requests -/

namespace ReadRequest

/-- The names of all sources of a request: its base table and the steps of all aliases. -/
def sourceNames (r : ReadRequest) : List String :=
  r.table :: (r.joins.getD []).flatMap fun (aliasName, steps) => Join.stepNames aliasName 0 steps

/-- The first of some entries, as many as a request asks for. -/
def upTo {α : Type} (r : ReadRequest) (entries : List α) : List α :=
  match r.limit with
  | some n => entries.take n
  | none => entries

end ReadRequest

namespace Database

/-- The records of a table. -/
def records (db : Database) (name : String) : List Record :=
  match db.catalog.table? name, db.store.relation? name with
  | some t, some rel => rel.rows.map fun r => ⟨t, rel, r⟩
  | _, _ => []

/-- The records of a table are its rows. -/
theorem records_eq {db : Database} {name : String} {t : Table} {rel : Relation}
    (ht : db.catalog.table? name = some t) (hrel : db.store.relation? name = some rel) :
    db.records name = rel.rows.map fun r => ⟨t, rel, r⟩ := by
  unfold records
  rw [ht, hrel]

/-- All ways to take one record of each step's target. -/
def waysAlong (db : Database) : List (List String) → List (List Record)
  | [] => [[]]
  | step :: steps =>
      (db.records (Join.target step)).flatMap fun r => (db.waysAlong steps).map (r :: ·)

/-- All ways to take one record of each step's target for every alias. -/
def chains (db : Database) : JoinSpec → List (Assoc (List Record))
  | [] => [[]]
  | (aliasName, steps) :: joins =>
      (db.waysAlong steps).flatMap fun way => (db.chains joins).map ((aliasName, way) :: ·)

/-- All selections of one record of each table that a request reads. -/
def selections (db : Database) (r : ReadRequest) : List Selection :=
  (db.records r.table).flatMap fun base => (db.chains (r.joins.getD [])).map (⟨base, ·⟩)

/-- The selections that a request asks for. -/
def meaning (db : Database) (r : ReadRequest) : List Selection :=
  (db.selections r).filter fun s => s.follows (r.joins.getD []) && s.passes r.filters

end Database

/-! ## Rows that are passed over -/

namespace Datum

/-- Whether a row id is the least number of 64 bits and a value is the float of that number. The
store passes over a row when it searches for its id by such a value. -/
def isPassedOver (d : Datum) (value : Cell) : Bool :=
  d.isRowId && d.cell.same (.int Int64.minValue) && value.isLeastFloat

/-- Whether a row is passed over in a comparison with the value of a filter. -/
def isPassedOverBy (d : Datum) (method : Comparison) : Value → Bool
  | .list items => method = .member && items.any fun v => d.isPassedOver ((Cell.ofValue? v).getD .null)
  | v => method = .eq && d.isPassedOver ((Cell.ofValue? v).getD .null)

end Datum

namespace Join

/-- Whether one of two records is passed over in the comparison of a step. -/
def passesOver (here there : Record) : List String → Bool
  | [column, method, _, targetColumn] =>
      Comparison.ofName? method = some .eq
        && ((here.datum column).isPassedOver (there.datum targetColumn).cell
          || (there.datum targetColumn).isPassedOver (here.datum column).cell)
  | _ => false

/-- Whether a record is passed over along a chain. -/
def passesOverAny (here : Record) : List (List String) → List Record → Bool
  | step :: steps, there :: way => passesOver here there step || passesOverAny there steps way
  | _, _ => false

end Join

namespace Selection

/-- Whether a record is passed over in a comparison of the filter. -/
def isPassedOverByFilter (s : Selection) : Option Json → Bool
  | none => false
  | some raw =>
      match Filter.ofJson raw with
      | .ok f => f.atoms.any fun c => (s.datum c.column).isPassedOverBy c.method c.value
      | .error _ => false

/-- Whether a record is passed over along the chain of an alias. -/
def isPassedOverByJoins (s : Selection) (joins : JoinSpec) : Bool :=
  joins.any fun (aliasName, steps) => Join.passesOverAny s.base steps (s.way aliasName)

end Selection

/-- Whether no comparison of a request passes over a row. -/
def Database.FindsAll (db : Database) (r : ReadRequest) : Prop :=
  ∀ s ∈ db.selections r, s.isPassedOverByFilter r.filters = false ∧
    s.isPassedOverByJoins (r.joins.getD []) = false

/-! ## The order of aliases -/

/-- A function of ways that depends on the way of each alias only. -/
def IsByAlias {α : Type} (f : Assoc (List Record) → List α) : Prop :=
  ∀ m n : Assoc (List Record), (∀ key, Assoc.find? m key = Assoc.find? n key) → f m = f n

namespace Database

variable {α β γ : Type}

/-- Two lists may be gone through in either nesting; what comes of them differs in its order alone. -/
theorem flatMap_comm (as : List β) (bs : List γ) (f : β → γ → List α) :
    (as.flatMap fun a => bs.flatMap fun b => f a b).Perm
      (bs.flatMap fun b => as.flatMap fun a => f a b) := by
  rw [← Multiset.coe_eq_coe]
  simp only [← Multiset.coe_bind]
  exact Multiset.bind_bind _ _

/-- A choice for several joins is one way along the first and a choice for the others. -/
theorem mem_chains_cons {db : Database} {aliasName : String} {steps : List (List String)}
    {joins : JoinSpec} {m : Assoc (List Record)} :
    m ∈ db.chains ((aliasName, steps) :: joins) ↔ ∃ way ∈ db.waysAlong steps,
      ∃ rest ∈ db.chains joins, (aliasName, way) :: rest = m := by
  rw [chains, List.mem_flatMap]
  simp only [List.mem_map]

/-- So are the things that are made of choices. -/
theorem flatMap_chains_cons (db : Database) (aliasName : String) (steps : List (List String))
    (joins : JoinSpec) (f : Assoc (List Record) → List α) :
    (db.chains ((aliasName, steps) :: joins)).flatMap f =
      (db.waysAlong steps).flatMap fun way =>
        (db.chains joins).flatMap fun m => f ((aliasName, way) :: m) := by
  rw [chains, List.flatMap_assoc]
  congr 1
  funext way
  rw [List.flatMap_map]

/-- **The order of aliases does not matter.** What is made of the ways of each alias is the same, in
some order, for the aliases in any order. -/
theorem flatMap_chains_perm (db : Database) {joins joins' : JoinSpec} (h : joins.Perm joins')
    (hnodup : (joins.map (·.1)).Nodup) {f : Assoc (List Record) → List α} (hf : IsByAlias f) :
    ((db.chains joins).flatMap f).Perm ((db.chains joins').flatMap f) := by
  -- By induction on the permutation. Two neighbours can change places because no two aliases are
  -- the same, so neither hides the other from what depends on records by alias.
  induction h generalizing f with
  | nil => exact .refl _
  | @cons entry joins joins' _ ih =>
      obtain ⟨aliasName, steps⟩ := entry
      rw [flatMap_chains_cons, flatMap_chains_cons]
      apply List.Perm.flatMap_left
      intro way _
      apply ih (List.nodup_cons.1 hnodup).2
      intro m n hmn
      apply hf
      intro key
      have hkey := hmn key
      unfold Assoc.find? at hkey ⊢
      rw [List.find?_cons, List.find?_cons]
      split
      · rfl
      · exact hkey
  | swap x y joins =>
      obtain ⟨first, steps⟩ := x
      obtain ⟨second, steps'⟩ := y
      have hne : second ≠ first := by
        intro heq
        rw [List.map_cons, List.map_cons, List.nodup_cons] at hnodup
        exact hnodup.1 (by rw [heq]; exact List.mem_cons_self)
      rw [flatMap_chains_cons, flatMap_chains_cons]
      simp only [flatMap_chains_cons]
      refine (flatMap_comm _ _ _).trans (List.Perm.of_eq ?_)
      congr 1
      funext way
      congr 1
      funext way'
      congr 1
      funext m
      apply hf
      intro key
      unfold Assoc.find?
      simp only [List.find?_cons]
      by_cases hfirst : first = key
      · have hsecond : second ≠ key := fun hsecond => hne (hsecond.trans hfirst.symm)
        simp [hfirst, hsecond]
      · simp [hfirst]
  | trans hfirst _ ih ih' =>
      exact (ih hnodup hf).trans (ih' ((hfirst.map _).nodup_iff.1 hnodup) hf)

/-- The ways of aliases in one order are those of the aliases in another order. -/
theorem exists_chains_of_perm {db : Database} {joins joins' : JoinSpec} (h : joins.Perm joins')
    (hnodup : (joins'.map (·.1)).Nodup) {m : Assoc (List Record)} (hm : m ∈ db.chains joins) :
    ∃ n ∈ db.chains joins', ∀ key, Assoc.find? m key = Assoc.find? n key := by
  have hbyAlias : IsByAlias fun m : Assoc (List Record) => [Assoc.find? m] := by
    intro m n hmn
    show [Assoc.find? m] = [Assoc.find? n]
    rw [funext hmn]
  have hperm := flatMap_chains_perm db h ((h.map _).nodup_iff.2 hnodup) hbyAlias
  have hmem : Assoc.find? m ∈ (db.chains joins').flatMap fun m => [Assoc.find? m] := by
    rw [← hperm.mem_iff]
    exact List.mem_flatMap.2 ⟨m, hm, List.mem_singleton.2 rfl⟩
  obtain ⟨n, hn, heq⟩ := List.mem_flatMap.1 hmem
  exact ⟨n, hn, congrFun (List.mem_singleton.1 heq)⟩

end Database

namespace Selection

variable {base : Record} {m n : Assoc (List Record)}

/-- What depends on a selection depends on the way of each alias. -/
theorem record?_congr (h : ∀ key, Assoc.find? m key = Assoc.find? n key) :
    record? ⟨base, m⟩ = record? ⟨base, n⟩ := by
  funext source
  unfold record? way
  rw [h]

/-- What a reference means in a choice depends on what aliases stand for, not on their order. -/
theorem datum_congr (h : ∀ key, Assoc.find? m key = Assoc.find? n key) :
    datum ⟨base, m⟩ = datum ⟨base, n⟩ := by
  funext reference
  have hreferred : referred? ⟨base, m⟩ = referred? ⟨base, n⟩ := by
    funext source?
    unfold referred?
    rw [record?_congr h]
  unfold datum
  rw [hreferred]

/-- So does whether a choice passes the filter. -/
theorem passes_congr (h : ∀ key, Assoc.find? m key = Assoc.find? n key) :
    passes ⟨base, m⟩ = passes ⟨base, n⟩ := by
  funext raw?
  unfold passes truth
  rw [datum_congr h]

/-- So does whether it follows the joins. -/
theorem follows_congr (h : ∀ key, Assoc.find? m key = Assoc.find? n key) :
    follows ⟨base, m⟩ = follows ⟨base, n⟩ := by
  funext joins
  unfold follows way
  simp only [h]

/-- So does whether the filter passes it over. -/
theorem isPassedOverByFilter_congr (h : ∀ key, Assoc.find? m key = Assoc.find? n key) :
    isPassedOverByFilter ⟨base, m⟩ = isPassedOverByFilter ⟨base, n⟩ := by
  funext raw?
  unfold isPassedOverByFilter
  rw [datum_congr h]

/-- So does whether the joins pass it over. -/
theorem isPassedOverByJoins_congr (h : ∀ key, Assoc.find? m key = Assoc.find? n key) :
    isPassedOverByJoins ⟨base, m⟩ = isPassedOverByJoins ⟨base, n⟩ := by
  funext joins
  unfold isPassedOverByJoins way
  simp only [h]

/-- So does the row that is made of it. -/
theorem row_congr (h : ∀ key, Assoc.find? m key = Assoc.find? n key) :
    row ⟨base, m⟩ = row ⟨base, n⟩ := by
  funext columns
  have hfields : fieldsOf ⟨base, m⟩ = fieldsOf ⟨base, n⟩ := by
    funext reference
    have hreferred : referred? ⟨base, m⟩ = referred? ⟨base, n⟩ := by
      funext source?
      unfold referred?
      rw [record?_congr h]
    unfold fieldsOf
    rw [hreferred]
  unfold row
  rw [hfields]

end Selection

namespace Database

theorem map_filter_eq_flatMap {α β : Type} (test : α → Bool) (f : α → β) (as : List α) :
    (as.filter test).map f = as.flatMap fun a => if test a then [f a] else [] := by
  induction as with
  | nil => rfl
  | cons a as ih =>
      rw [List.filter_cons, List.flatMap_cons, ← ih]
      split
      · rfl
      · rfl

/-- The rows that a request asks for, base row by base row. -/
theorem map_row_meaning (db : Database) (r : ReadRequest) :
    ((db.meaning r).map fun s => s.row r.columns) =
      (db.records r.table).flatMap fun base => (db.chains (r.joins.getD [])).flatMap fun m =>
        if (Selection.mk base m).follows (r.joins.getD []) && (Selection.mk base m).passes r.filters
        then [(Selection.mk base m).row r.columns] else [] := by
  unfold meaning selections
  rw [List.filter_flatMap, List.map_flatMap]
  congr 1
  funext base
  rw [map_filter_eq_flatMap, List.flatMap_map]

/-- **A meaning does not depend on the order of aliases.** The rows that a request asks for are the
same, in some order, when its aliases are given in another order. -/
theorem meaning_perm (db : Database) (r : ReadRequest) {joins : Option JoinSpec}
    (h : (joins.getD []).Perm (r.joins.getD [])) (hnodup : ((r.joins.getD []).map (·.1)).Nodup) :
    ((db.meaning { r with joins }).map fun s => s.row r.columns).Perm
      ((db.meaning r).map fun s => s.row r.columns) := by
  have hfollows : ∀ s : Selection, s.follows (joins.getD []) = s.follows (r.joins.getD []) := by
    intro s
    exact h.all_eq
  rw [map_row_meaning, show ((db.meaning { r with joins }).map fun s => s.row r.columns) = _ from
    map_row_meaning db { r with joins }]
  apply List.Perm.flatMap_left
  intro base _
  dsimp only
  simp only [hfollows]
  apply flatMap_chains_perm db h ((h.map _).nodup_iff.2 hnodup)
  intro m n hmn
  dsimp only
  rw [Selection.follows_congr hmn, Selection.passes_congr hmn, Selection.row_congr hmn]

/-- Aliases in another order pass over the same rows. -/
theorem FindsAll.perm {db : Database} {r : ReadRequest} (hfinds : db.FindsAll r)
    {joins : Option JoinSpec} (h : (joins.getD []).Perm (r.joins.getD []))
    (hnodup : ((r.joins.getD []).map (·.1)).Nodup) : db.FindsAll { r with joins } := by
  have hjoins : ∀ s : Selection,
      s.isPassedOverByJoins (joins.getD []) = s.isPassedOverByJoins (r.joins.getD []) := by
    intro s
    exact h.any_eq
  rintro ⟨base, m⟩ hs
  obtain ⟨base', hbase, hs⟩ := List.mem_flatMap.1 hs
  obtain ⟨m', hm, hs⟩ := List.mem_map.1 hs
  obtain ⟨rfl, rfl⟩ := Selection.mk.inj hs
  rw [hjoins]
  -- The ways of the aliases are the same, entry by entry, as those of some selection of the request.
  obtain ⟨n, hn, hways⟩ := exists_chains_of_perm h hnodup hm
  have hfound := hfinds ⟨base', n⟩
    (List.mem_flatMap.2 ⟨base', hbase, List.mem_map.2 ⟨n, hn, rfl⟩⟩)
  rw [Selection.isPassedOverByFilter_congr hways, Selection.isPassedOverByJoins_congr hways]
  exact hfound

end Database

end Tabula
