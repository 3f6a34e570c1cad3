import Tabula.Proofs.Query.Scope
import Tabula.Proofs.Query.SourceNames
import Tabula.Proofs.Sql.Placeholder

/-!
# The text of planned statements

Requests that are accepted become statements whose text holds nothing of the request but names that
the catalog or the joins declare, each quoted. Main statement: the text of a planned statement reads
back as such names and fixed keywords, and its placeholders are, in order, those of the values that
the request writes, of the comparands of its filter as they stand in the tree, and of its limit
(`isFaithful_of_planned`).
-/

namespace Tabula

open Sql (ColumnRef Condition JoinStep Lexeme Role Says render parameters)

/-! ## Names -/

/-- The names that statements may have: those of tables and columns of a catalog, the aliases of
joins, and their steps on the way. -/
inductive StatementName (catalog : Catalog) (joins : JoinSpec) : String → Prop
  | table {t : Table} : t ∈ catalog.tables → StatementName catalog joins t.name
  | column {t : Table} {c : Column} :
    t ∈ catalog.tables → c ∈ t.columns → StatementName catalog joins c.name
  | aliasName {entry : String × List (List String)} :
    entry ∈ joins → StatementName catalog joins entry.1
  | step {entry : String × List (List String)} {i : Nat} : entry ∈ joins → i + 1 < entry.2.length →
    StatementName catalog joins (Join.stepAlias entry.1 i false)

variable {catalog : Catalog} {joins : JoinSpec}

namespace Join

/-- The steps of a chain have statement names, if its own names are some, and it comes to a table of
the catalog. -/
theorem areNamed_of_chain {aliasName source : String} {table last : Table} {index : Nat}
    {parts : List (List String)} {steps : List JoinStep}
    (h : chain catalog aliasName source table index parts = .ok (steps, last))
    (htable : table ∈ catalog.tables) (hsource : StatementName catalog joins source)
    (hnames : ∀ n ∈ stepNames aliasName index parts, StatementName catalog joins n) :
    last ∈ catalog.tables ∧ ∀ s ∈ steps, StatementName catalog joins s.table ∧
      s.left.IsNamed (StatementName catalog joins) ∧
      s.right.IsNamed (StatementName catalog joins) := by
  induction parts generalizing source table index steps with
  | nil =>
      obtain ⟨rfl, rfl⟩ := Prod.mk.inj (Except.ok.inj h)
      exact ⟨htable, fun s hs => by cases hs⟩
  | cons part parts ih =>
      obtain ⟨first, joined, others, hfirst, hothers, rfl⟩ := chain_cons_eq_ok h
      obtain ⟨left, right, name, target, method, -, -, hleft, hright, hjoined, rfl⟩ :=
        step_eq_ok hfirst
      have hjoined : joined ∈ catalog.tables := List.mem_map.2 ⟨_, Assoc.mem_of_find? hjoined, rfl⟩
      have hname := hnames _ List.mem_cons_self
      obtain ⟨hlast, hrest⟩ := ih hothers hjoined hname fun n hn =>
        hnames n (List.mem_cons_of_mem _ hn)
      refine ⟨hlast, fun s hs => ?_⟩
      rcases List.mem_cons.1 hs with rfl | hs
      · exact ⟨.table hjoined, ⟨hsource, .column htable hleft⟩, ⟨hname, .column hjoined hright⟩⟩
      · exact hrest s hs

/-- The steps of planned joins have statement names, and aliases that are declared stand for tables
of the catalog. -/
theorem areNamed_of_plan {base : Table} {p : JoinPlan} (h : plan catalog base joins = .ok p)
    (hbase : base ∈ catalog.tables) :
    (∀ s ∈ p.steps, StatementName catalog joins s.table ∧
      s.left.IsNamed (StatementName catalog joins) ∧
      s.right.IsNamed (StatementName catalog joins)) ∧
    ∀ entry ∈ p.aliases, entry.2 ∈ catalog.tables ∧ StatementName catalog joins entry.1 := by
  obtain ⟨ps, hps, rfl⟩ := plan_eq_ok_iff.1 h
  have hone : ∀ q ∈ ps, (∀ s ∈ q.1, StatementName catalog joins s.table ∧
      s.left.IsNamed (StatementName catalog joins) ∧
      s.right.IsNamed (StatementName catalog joins)) ∧
      q.2.2 ∈ catalog.tables ∧ StatementName catalog joins q.2.1 := by
    intro q hq
    obtain ⟨entry, hentry, hplanned⟩ := (Except.mapM_eq_ok_iff.1 hps).exists_of_mem_right hq
    have hnames : ∀ n ∈ stepNames entry.1 0 entry.2, StatementName catalog joins n := by
      intro n hn
      rcases mem_stepNames.1 hn with ⟨-, rfl⟩ | ⟨i, -, hi, rfl⟩
      · exact .aliasName hentry
      · exact .step hentry (by omega)
    rw [name_of_planOne hplanned]
    unfold planOne at hplanned
    obtain ⟨_, -, hplanned⟩ := Except.bind_eq_ok_iff.1 hplanned
    split at hplanned
    · cases hplanned
    · obtain ⟨⟨steps, last⟩, hchain, hplanned⟩ := Except.bind_eq_ok_iff.1 hplanned
      obtain rfl := Except.ok.inj hplanned
      obtain ⟨hlast, hsteps⟩ := areNamed_of_chain hchain hbase (.table hbase) hnames
      exact ⟨hsteps, hlast, .aliasName hentry⟩
  constructor
  · intro s hs
    obtain ⟨q, hq, hs⟩ := List.mem_flatMap.1 hs
    exact (hone q hq).1 s hs
  · intro entry hentry
    obtain ⟨q, hq, rfl⟩ := List.mem_map.1 hentry
    exact (hone q hq).2

end Join

/-- A column that a scope declares has statement names. -/
theorem Scope.Declares.isNamed {s : Scope} {r : ColumnRef} {c : Column} (h : s.Declares r c)
    (hbase : s.base ∈ catalog.tables)
    (haliases : ∀ entry ∈ s.aliases, entry.2 ∈ catalog.tables ∧
      StatementName catalog joins entry.1) :
    r.IsNamed (StatementName catalog joins) := by
  obtain ⟨t, htable, hmem, hname⟩ := h
  unfold table? at htable
  unfold ColumnRef.IsNamed
  rw [hname]
  split at htable
  · next hsource =>
      obtain rfl := Option.some.inj htable
      rw [hsource]
      exact ⟨.table hbase, .column hbase hmem⟩
  · have hentry := haliases _ (Assoc.mem_of_find? htable)
    exact ⟨hentry.2, .column hentry.1 hmem⟩

/-! ## Comparands of filters -/

/-- The values of a comparand: the items of a list, or the value itself. -/
def Value.items : Value → List Value
  | .list vs => vs
  | v => [v]

/-- What the comparands of a comparison are for, in a scope. -/
def Constraint.bindings (s : Scope) (k : Constraint) : List (Role × Value) :=
  match s.resolveColumn k.column with
  | .ok c => k.value.items.map fun v => (.comparand c.ref k.method.operator, v)
  | .error _ => []

/-- What the comparands of an optional filter are for, in the order in which they stand in the
tree. -/
def Filter.bindings (s : Scope) : Option Json → List (Role × Value)
  | none => []
  | some raw =>
    match ofJson raw with
    | .ok f => f.atoms.flatMap (Constraint.bindings s)
    | .error _ => []

/-- An operand has the values of the comparand that it is compiled from. -/
theorem Constraint.values_of_operand {k : Constraint} {column : Column} {operand : Sql.Operand}
    (h : k.operand column = .ok operand) : operand.values = k.value.items := by
  unfold Constraint.operand at h
  split at h
  · next hvalue =>
      obtain rfl := Except.ok.inj h
      rw [hvalue]
      rfl
  · cases h
  · cases h
  · next hnot =>
      obtain rfl := Except.ok.inj h
      cases hvalue : k.value with
      | list vs => exact absurd hvalue (hnot vs)
      | _ => rfl

/-- A comparison is for the comparands that it is compiled from. -/
theorem Constraint.bindings_eq {s : Scope} {k : Constraint} {t : Sql.Test}
    (h : k.test s = .ok t) : t.bindings = k.bindings s := by
  obtain ⟨c, hc, operand, hoperand, rfl⟩ := Scope.test_eq_ok h
  unfold Sql.Test.bindings Constraint.bindings
  rw [hc, values_of_operand hoperand]

/-- A condition is for the comparands of the filter that it is compiled from. -/
theorem Filter.bindings_eq {s : Scope} {raw : Option Json} {c : Option Condition}
    (h : conditionOfJson s raw = .ok c) : Condition.clauseBindings c = bindings s raw := by
  cases raw with
  | none =>
      obtain rfl := Except.ok.inj h
      rfl
  | some raw =>
      obtain ⟨f, hf, h⟩ := Except.bind_eq_ok_iff.1 h
      have hbindings : bindings s (some raw) = f.atoms.flatMap (Constraint.bindings s) := by
        simp only [bindings, hf]
      rw [hbindings]
      cases c with
      | none =>
          have hempty : f.atoms = [] := by
            unfold condition at h
            split at h
            · next hempty => exact Formula.atoms_eq_nil f hempty
            · obtain ⟨compiled, -, hnone⟩ := Except.map_eq_ok_iff.1 h
              cases hnone
          rw [hempty]
          rfl
      | some c =>
          have hall : ∀ {ks : List Constraint} {ts : List Sql.Test},
              List.Forall₂ (fun k t => Constraint.test s k = .ok t) ks ts →
              ts.flatMap Sql.Test.bindings = ks.flatMap (Constraint.bindings s) := by
            intro ks ts hcompiled
            induction hcompiled with
            | nil => rfl
            | cons hone _ ih =>
                rw [List.flatMap_cons, List.flatMap_cons, ih, Constraint.bindings_eq hone]
          exact hall (Scope.forall₂_atoms_of_condition h)

/-! ## Planned statements -/

namespace Sql

/-- Whether the text of a statement with parameters reads back as names of some kind, fixed keywords,
the literal one, punctuation and placeholders, with one placeholder for every parameter, and the
placeholders and their parameters are those of some values in order. -/
def IsFaithful (isName : String → Prop) (text : String) (values : List Value)
    (bindings : List (Role × Value)) : Prop :=
  ∃ lexemes, lex text.toList = some lexemes ∧ (∀ l ∈ lexemes, l.IsKnown isName) ∧
    lexemes.count .placeholder = values.length ∧
    Role.among [] lexemes = bindings.map (fun binding => some binding.1) ∧
    values = bindings.map fun binding => binding.2

/-- There are as many roles as placeholders. -/
theorem Role.length_among (lexemes before : List Lexeme) :
    (among before lexemes).length = lexemes.count .placeholder := by
  induction lexemes generalizing before with
  | nil => rfl
  | cons l lexemes ih => cases l <;> simp [among, ih]

/-- A row of tokens that says what its values are for is faithful as a text. -/
theorem Says.isFaithful {isName : String → Prop} {tokens : List Token}
    {bindings : List (Role × Value)} (h : Says isName tokens bindings) :
    IsFaithful isName (render tokens) (Sql.parameters tokens) bindings := by
  obtain ⟨hlegible, hknown, hparameters, hroles⟩ := h []
  refine ⟨_, lex_render hlegible, hknown, ?_, hroles, hparameters⟩
  rw [← Role.length_among _ [], hroles, hparameters, List.length_map, List.length_map]

end Sql

namespace Plan

open Sql (writtenBindings)

/-- Values that pass their check are those of columns of the table. -/
theorem isName_of_checkValues {t : Table} {values : RowValues} (h : checkValues t values = .ok ())
    (ht : t ∈ catalog.tables) : ∀ entry ∈ values, StatementName catalog joins entry.1 := by
  intro entry hentry
  obtain ⟨c, hc, hname, -⟩ := exists_of_checkValues h entry hentry
  rw [← hname]
  exact .column ht hc

/-- The columns of a condition on one table have statement names. -/
theorem isNamed_of_condition {t : Table} (ht : t ∈ catalog.tables) {raw : Option Json}
    {condition : Option Condition} (h : Filter.conditionOfJson ⟨t, []⟩ raw = .ok condition) :
    ∀ c ∈ condition, ∀ test ∈ c.atoms,
      test.column.IsNamed (StatementName catalog joins) := by
  intro c hc test htest
  obtain ⟨column, hdeclares⟩ := Scope.declares_of_condition h c hc test htest
  exact hdeclares.isNamed ht fun entry hentry => by cases hentry

/-- A planned read says what its filter and its limit are for. -/
theorem says_read {r : ReadRequest} {plan : ReadPlan} (h : read catalog r = .ok plan) :
    ∃ base planned, catalog.table r.table = .ok base ∧
      Join.plan catalog base (r.joins.getD []) = .ok planned ∧
      Says (StatementName catalog (r.joins.getD [])) plan.select.tokens
        (Filter.bindings ⟨base, planned.aliases⟩ r.filters
          ++ r.limit.toList.map fun n => (.limit, .int (Int64.ofNat n))) := by
  obtain ⟨base, limit, planned, columns, condition, terms, hbase, hlimit, hplanned, hcolumns,
    hcondition, hterms, rfl⟩ := read_eq_ok_iff.1 h
  refine ⟨base, planned, hbase, hplanned, ?_⟩
  have hmem := Catalog.mem_tables hbase
  obtain ⟨hsteps, haliases⟩ := Join.areNamed_of_plan hplanned hmem
  have hnamed : ∀ {ref : ColumnRef} {c : Column}, Scope.Declares ⟨base, planned.aliases⟩ ref c →
      ref.IsNamed (StatementName catalog (r.joins.getD [])) :=
    fun hdeclares => hdeclares.isNamed hmem haliases
  -- The number that is bound for the limit is the one that was asked for.
  have hlimits : limit.toList.map (fun n => (Role.limit, Value.int n))
      = r.limit.toList.map fun n => (.limit, .int (Int64.ofNat n)) := by
    cases hr : r.limit with
    | none =>
        rw [hr] at hlimit
        obtain rfl := Except.ok.inj hlimit
        rfl
    | some n =>
        rw [hr] at hlimit
        obtain ⟨checked, hchecked, hlimit⟩ := Except.map_eq_ok_iff.1 hlimit
        subst hlimit
        unfold checkLimit at hchecked
        split at hchecked
        · obtain rfl := Except.ok.inj hchecked
          rfl
        · cases hchecked
  rw [← Filter.bindings_eq hcondition, ← hlimits]
  refine Sql.says_select (.table hmem) ?_ hsteps ?_ ?_
  · intro ref href
    obtain ⟨out, hout, rfl⟩ := List.mem_map.1 href
    obtain ⟨c, hdeclares, -⟩ := Scope.declares_of_selectList hcolumns out hout
    exact hnamed hdeclares
  · intro c hc test htest
    obtain ⟨column, hdeclares⟩ := Scope.declares_of_condition hcondition c hc test htest
    exact hnamed hdeclares
  · intro term hterm
    obtain ⟨c, hdeclares⟩ := Scope.declares_of_ordering hterms term hterm
    exact hnamed hdeclares

/-- A planned row says which columns its values are written to. -/
theorem says_planned_insert {t : Table} (ht : t ∈ catalog.tables) {row : RowValues}
    {statement : Sql.Insert} (h : insert t row = .ok statement) :
    Says (StatementName catalog []) statement.tokens (writtenBindings row) := by
  obtain ⟨hvalues, rfl⟩ := insert_eq_ok h
  exact Sql.says_insert (.table ht) (isName_of_checkValues hvalues ht)

/-- A planned update says so too, and what its filter is for. -/
theorem says_planned_update {r : UpdateRequest} {statement : Sql.Update}
    (h : update catalog r = .ok statement) :
    ∃ t, catalog.table r.table = .ok t ∧ Says (StatementName catalog []) statement.tokens
      (writtenBindings r.values ++ Filter.bindings ⟨t, []⟩ r.filters) := by
  obtain ⟨t, condition, ht, hvalues, hcondition, rfl⟩ := update_eq_ok h
  have hmem := Catalog.mem_tables ht
  refine ⟨t, ht, ?_⟩
  rw [← Filter.bindings_eq hcondition]
  exact Sql.says_update (.table hmem) (isName_of_checkValues hvalues hmem)
    (isNamed_of_condition hmem hcondition)

/-- A planned deletion says what its filter is for. -/
theorem says_planned_delete {r : DeleteRequest} {statement : Sql.Delete}
    (h : delete catalog r = .ok statement) :
    ∃ t, catalog.table r.table = .ok t ∧ Says (StatementName catalog []) statement.tokens
      (Filter.bindings ⟨t, []⟩ r.filters) := by
  obtain ⟨t, condition, ht, hcondition, rfl⟩ := delete_eq_ok h
  have hmem := Catalog.mem_tables ht
  refine ⟨t, ht, ?_⟩
  rw [← Filter.bindings_eq hcondition]
  exact Sql.says_delete (.table hmem) (isNamed_of_condition hmem hcondition)

/-- **Statements hold nothing of a request but declared names and placeholders.** The text of a
statement that is planned reads back, by the rule that a doubled quote in a quoted name stands for
one, as names that the catalog or the joins declare, fixed keywords and operators, the literal one,
punctuation and placeholders. There is a placeholder for every parameter, and by the text before
them the placeholders are, in order, those of the values that are written to columns, of the
comparands of the filter, and of the limit. -/
theorem isFaithful_of_planned (catalog : Catalog) :
    (∀ r plan, read catalog r = .ok plan → ∃ base planned, catalog.table r.table = .ok base ∧
      Join.plan catalog base (r.joins.getD []) = .ok planned ∧
      Sql.IsFaithful (StatementName catalog (r.joins.getD [])) (render plan.select.tokens)
        (parameters plan.select.tokens)
        (Filter.bindings ⟨base, planned.aliases⟩ r.filters
          ++ r.limit.toList.map fun n => (.limit, .int (Int64.ofNat n)))) ∧
    (∀ name t row statement, catalog.table name = .ok t → insert t row = .ok statement →
      Sql.IsFaithful (StatementName catalog []) (render statement.tokens)
        (parameters statement.tokens) (writtenBindings row)) ∧
    (∀ r statement, update catalog r = .ok statement → ∃ t, catalog.table r.table = .ok t ∧
      Sql.IsFaithful (StatementName catalog []) (render statement.tokens)
        (parameters statement.tokens)
        (writtenBindings r.values ++ Filter.bindings ⟨t, []⟩ r.filters)) ∧
    (∀ r statement, delete catalog r = .ok statement → ∃ t, catalog.table r.table = .ok t ∧
      Sql.IsFaithful (StatementName catalog []) (render statement.tokens)
        (parameters statement.tokens) (Filter.bindings ⟨t, []⟩ r.filters)) := by
  refine ⟨?_, ?_, ?_, ?_⟩
  · intro r plan h
    obtain ⟨base, planned, hbase, hplanned, hsays⟩ := says_read h
    exact ⟨base, planned, hbase, hplanned, hsays.isFaithful⟩
  · intro name t row statement ht h
    exact (says_planned_insert (Catalog.mem_tables ht) h).isFaithful
  · intro r statement h
    obtain ⟨t, ht, hsays⟩ := says_planned_update h
    exact ⟨t, ht, hsays.isFaithful⟩
  · intro r statement h
    obtain ⟨t, ht, hsays⟩ := says_planned_delete h
    exact ⟨t, ht, hsays.isFaithful⟩

/-- A table whose names have quotes, placeholders and keywords in them. -/
def awkward : Table where
  name := "T\" WHERE ?"
  columns := [{ name := "id", type := .int, isKey := true }, { name := "na\"me?", type := .string }]

theorem isFaithful_of_planned_awkward :
    let catalog : Catalog := ⟨[(awkward.name, awkward)]⟩
    let filters : Option Json := some (.object [
      ("in", .object [("id", .array [.int 1, .int 2])]),
      ("or", .array [.object [("like", .object [("na\"me?", .string "\"?%")])], .object []])])
    let r : ReadRequest := {
      table := awkward.name
      columns := ["*", "a\"?.id"]
      filters
      joins := some [("a\"?", [["id", "eq", awkward.name, "id"], ["id", "lt", awkward.name, "id"]])]
      limit := some 3
      ordering := some [("a\"?.na\"me?", .descending)] }
    let values : RowValues := [("id", .int 7), ("na\"me?", .string "?\"")]
    ∃ plan inserted updated deleted, read catalog r = .ok plan ∧
      insert awkward values = .ok inserted ∧
      update catalog ⟨awkward.name, values, filters⟩ = .ok updated ∧
      delete catalog ⟨awkward.name, filters⟩ = .ok deleted ∧
      (∃ bindings, bindings.length = 4 ∧ Sql.IsFaithful (StatementName catalog (r.joins.getD []))
        (render plan.select.tokens) (parameters plan.select.tokens) bindings) ∧
      Sql.IsFaithful (StatementName catalog []) (render inserted.tokens)
        (parameters inserted.tokens) (writtenBindings values) ∧
      Sql.IsFaithful (StatementName catalog []) (render updated.tokens) (parameters updated.tokens)
        (writtenBindings values ++ Filter.bindings ⟨awkward, []⟩ filters) ∧
      Sql.IsFaithful (StatementName catalog []) (render deleted.tokens) (parameters deleted.tokens)
        (Filter.bindings ⟨awkward, []⟩ filters) := by
  intro catalog filters r values
  obtain ⟨plan, hplan⟩ := Except.isOk_iff.1 (by decide +kernel : (read catalog r).isOk = true)
  obtain ⟨inserted, hinserted⟩ :=
    Except.isOk_iff.1 (by decide +kernel : (insert awkward values).isOk = true)
  obtain ⟨updated, hupdated⟩ := Except.isOk_iff.1
    (by decide +kernel : (update catalog ⟨awkward.name, values, filters⟩).isOk = true)
  obtain ⟨deleted, hdeleted⟩ := Except.isOk_iff.1
    (by decide +kernel : (delete catalog ⟨awkward.name, filters⟩).isOk = true)
  have htable : catalog.table awkward.name = .ok awkward := by rfl
  obtain ⟨hread, hinsert, hupdate, hdelete⟩ := isFaithful_of_planned catalog
  refine ⟨plan, inserted, updated, deleted, hplan, hinserted, hupdated, hdeleted, ?_,
    hinsert _ _ _ _ htable hinserted, ?_, ?_⟩
  · obtain ⟨base, planned, hbase, hplanned, hfaithful⟩ := hread r plan hplan
    obtain rfl := Except.ok.inj (htable.symm.trans hbase)
    refine ⟨_, ?_, hfaithful⟩
    obtain rfl : planned = _ := Except.ok.inj (hplanned.symm.trans rfl)
    decide +kernel
  · obtain ⟨t, ht, hfaithful⟩ := hupdate _ _ hupdated
    obtain rfl := Except.ok.inj (htable.symm.trans ht)
    exact hfaithful
  · obtain ⟨t, ht, hfaithful⟩ := hdelete _ _ hdeleted
    obtain rfl := Except.ok.inj (htable.symm.trans ht)
    exact hfaithful

end Plan

end Tabula
