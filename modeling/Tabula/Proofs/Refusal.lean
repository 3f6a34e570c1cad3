import Tabula.Database.Batch
import Tabula.Proofs.Result

/-!
# Why operations fail

Each check of a request or of a statement fails for reasons of its own. For every one of them there is
a lemma that says for which: what fails does so with an error of a kind that covers these reasons. None
of them is that a transaction is open; only a transaction that finds another one open says so. Main
statements: `failsWith_execute` and `failsWith_batch`.
-/

namespace Except

variable {ε ε' α β : Type} {P : ε → Prop}

/-- Whether what fails does so with an error of a kind. -/
def FailsWith (P : ε → Prop) (x : Except ε α) : Prop := ∀ e, x = .error e → P e

/-- What succeeds has no error to speak of. -/
@[simp] theorem failsWith_ok {a : α} : FailsWith P (.ok a) := nofun

@[simp] theorem failsWith_pure {a : α} : FailsWith P (pure a) := nofun

/-- A failure has the property exactly if its error does. -/
@[simp] theorem failsWith_error_iff {e : ε} : FailsWith (α := α) P (.error e) ↔ P e := by
  constructor
  · intro h
    exact h e rfl
  · intro h _ he
    exact Except.error.inj he ▸ h

@[simp] theorem failsWith_throw_iff {e : ε} : FailsWith (α := α) P (throw e) ↔ P e :=
  failsWith_error_iff

/-- What runs after something else fails as the first part does, or as the second on what the first
gave. -/
@[simp] theorem failsWith_bind_iff {x : Except ε α} {f : α → Except ε β} :
    FailsWith P (x >>= f) ↔ FailsWith P x ∧ ∀ a, x = .ok a → FailsWith P (f a) := by
  cases x with
  | error e => simp [bind, Except.bind]
  | ok a => simp [bind, Except.bind]

/-- Changing a result changes no error. -/
@[simp] theorem failsWith_map_iff {x : Except ε α} {f : α → β} :
    FailsWith P (f <$> x) ↔ FailsWith P x := by
  cases x with
  | error e => simp [Functor.map, Except.map]
  | ok a => simp [Functor.map, Except.map]

/-- A choice fails as the branch that is taken. -/
@[simp] theorem failsWith_ite_iff {c : Prop} [Decidable c] {x y : Except ε α} :
    FailsWith P (if c then x else y) ↔ (c → FailsWith P x) ∧ (¬ c → FailsWith P y) := by
  split <;> simp [*]

/-- An error that is wrapped is what the wrapping makes of it, whatever it was. -/
theorem failsWith_mapError {x : Except ε' α} {f : ε' → ε} (h : ∀ e, P (f e)) :
    FailsWith P (x.mapError f) := by
  cases x with
  | error e => simpa [Except.mapError] using h e
  | ok a => simp [Except.mapError]

/-- Steps along a list fail as one of them does. -/
theorem failsWith_mapM {f : α → Except ε β} {xs : List α} (h : ∀ x ∈ xs, FailsWith P (f x)) :
    FailsWith P (xs.mapM f) := by
  induction xs with
  | nil => simp
  | cons x xs ih =>
      obtain ⟨hx, hxs⟩ := List.forall_mem_cons.1 h
      simp [hx, ih hxs]

/-- Checks along a list fail as one of them does. -/
theorem failsWith_forM {f : α → Except ε PUnit} {xs : List α} (h : ∀ x ∈ xs, FailsWith P (f x)) :
    FailsWith P (xs.forM f) := by
  induction xs with
  | nil => simp
  | cons x xs ih =>
      obtain ⟨hx, hxs⟩ := List.forall_mem_cons.1 h
      show FailsWith P (f x >>= fun _ => xs.forM f)
      exact failsWith_bind_iff.2 ⟨hx, fun _ _ => ih hxs⟩

end Except

namespace Tabula.Formula

variable {ε α β : Type} {P : ε → Prop} {f : α → Except ε β}

mutual

/-- Changing the atoms of a formula fails as the change of one atom does. -/
theorem failsWith_mapM (hf : ∀ a, (f a).FailsWith P) : (g : Formula α) → (g.mapM f).FailsWith P
  | .atom a => by simp [mapM, hf a]
  | .all parts => by simp [mapM, failsWith_mapEach hf parts]
  | .any parts => by simp [mapM, failsWith_mapEach hf parts]

/-- Changing formulas one after the other fails as the change of one atom does. -/
theorem failsWith_mapEach (hf : ∀ a, (f a).FailsWith P) :
    (parts : List (Formula α)) → (mapEach f parts).FailsWith P
  | [] => by simp [mapEach]
  | part :: parts => by simp [mapEach, failsWith_mapM hf part, failsWith_mapEach hf parts]

end

end Tabula.Formula

namespace Tabula

/-- Whether an error has another cause than an open transaction, be it that of a whole batch or of
one of its commands. -/
@[simp] def Error.IsOther : Error → Prop
  | .request .transactionOpen => False
  | .batch _ source => source.IsOther
  | _ => True

/-- Whether what the data keep from being written is refused with an error of a kind; that keys have
run out is no such cause. -/
abbrev Error.CoversData (P : Error → Prop) : Prop :=
  ∀ cause, (∀ table attempts, cause ≠ .keysExhausted table attempts) → P (.database cause)

/-- Whether every storage error is of a kind, but for that of a list which is bound. -/
abbrev Error.CoversStorage (P : Error → Prop) : Prop :=
  ∀ cause, cause ≠ .listParameter → P (.storage cause)

open Error (IsOther)

/-! ## Requests -/

section Requests

variable {catalog : Catalog} {t : Table} {scope : Scope} {P : Error → Prop}

section References

/-! References are refused for what is not declared. -/

variable (hschema : ∀ cause, P (.schema cause))

include hschema

/-- A table that is missing is an error of the schema. -/
theorem failsWith_table (name : String) : (catalog.table name).FailsWith P := by
  unfold Catalog.table
  split <;> simp [hschema]

/-- So is a column that is missing. -/
theorem failsWith_column (name : String) : (t.column name).FailsWith P := by
  unfold Table.column
  split <;> simp [hschema]

/-- A reference that means nothing is an error of the schema. -/
theorem failsWith_resolve (reference : String) : (scope.resolve reference).FailsWith P := by
  unfold Scope.resolve
  split
  · simp [hschema]
  · next source? name _ =>
      refine Except.failsWith_bind_iff.2 ⟨?_, fun source _ => ?_⟩
      · unfold Scope.sourceTable
        split
        · simp
        · split <;> simp [hschema]
      · simp [failsWith_column hschema]

/-- So is one that has to mean a single column. -/
theorem failsWith_resolveColumn (reference : String) :
    (scope.resolveColumn reference).FailsWith P := by
  refine Except.failsWith_bind_iff.2 ⟨failsWith_resolve hschema reference, fun r _ => ?_⟩
  split <;> simp [hschema]

/-- A column list fails as one of its references does. -/
theorem failsWith_selectList (references : List String) :
    (scope.selectList references).FailsWith P := by
  refine Except.failsWith_bind_iff.2 ⟨Except.failsWith_mapM fun reference _ => ?_, by simp⟩
  refine Except.failsWith_bind_iff.2 ⟨failsWith_resolve hschema reference, fun r _ => ?_⟩
  split <;> simp

/-- Values fail their check by the schema or by the data. -/
theorem failsWith_checkValues (hdata : Error.CoversData P)
    (values : RowValues) : (Plan.checkValues t values).FailsWith P := by
  refine Except.failsWith_forM fun entry _ => ?_
  simp [Plan.checkValue, failsWith_column hschema, hdata]

/-- A row is refused as its values are. -/
theorem failsWith_planInsert (hdata : Error.CoversData P)
    (values : RowValues) : (Plan.insert t values).FailsWith P := by
  simp [Plan.insert, failsWith_checkValues hschema hdata]

end References

section Filters

/-! What is refused in a filter, at any depth, is an error of the filter. -/

/-- A misfit comparand becomes an error of the filter it stands in. -/
theorem failsWith_comparand (hfilters : ∀ cause, P (.filters cause)) (method : Comparison)
    (column : String) (raw : Json) :
    (Filter.comparand method column raw).FailsWith fun e => P (Filter.asFilterError e) := by
  unfold Filter.comparand
  split <;> simp [Filter.asFilterError, hfilters]

/-- The comparisons of one method fail by errors of filters. -/
theorem failsWith_constraints (hfilters : ∀ cause, P (.filters cause)) (name : String)
    (raw : Json) :
    (Filter.constraints name raw).FailsWith P := by
  unfold Filter.constraints
  split
  · simp [hfilters]
  · next method _ =>
      split
      · refine Except.failsWith_mapM fun entry _ => ?_
        have hcomparand := failsWith_comparand hfilters method entry.1 entry.2
        dsimp only
        split
        · simp
        · next e he => simpa using hcomparand e he
      · simp [hfilters]

mutual

/-- A filter that cannot be read is an error of filters. -/
theorem failsWith_filter (hfilters : ∀ cause, P (.filters cause)) :
    (raw : Json) → (Filter.ofJson raw).FailsWith P
  | .object fields => by simp [Filter.ofJson, failsWith_parts hfilters fields]
  | .null | .bool _ | .int _ | .float _ | .string _ | .array _ => by simp [Filter.ofJson, hfilters]

/-- The entries of a filter object fail by errors of filters. -/
theorem failsWith_parts (hfilters : ∀ cause, P (.filters cause)) :
    (fields : List (String × Json)) → (Filter.parts fields).FailsWith P
  | [] => by simp [Filter.parts]
  | (key, raw) :: fields => by
      have hfirst := failsWith_alternatives hfilters raw
      have hothers := failsWith_parts hfilters fields
      by_cases hkey : key = "or"
      · simp [Filter.parts, hkey, hfirst, hothers]
      · simp [Filter.parts, hkey, failsWith_constraints hfilters, hothers]

/-- So do the alternatives of a disjunction. -/
theorem failsWith_alternatives (hfilters : ∀ cause, P (.filters cause)) :
    (raw : Json) → (Filter.alternatives raw).FailsWith P
  | .array [] => by simp [Filter.alternatives, hfilters]
  | .array (item :: items) => by
      simp [Filter.alternatives, failsWith_filter hfilters item, failsWith_items hfilters items]
  | .null | .bool _ | .int _ | .float _ | .string _ | .object _ => by
      simp [Filter.alternatives, hfilters]

/-- So do the items of a list of filters. -/
theorem failsWith_items (hfilters : ∀ cause, P (.filters cause)) :
    (items : List Json) → (Filter.ofJsonItems items).FailsWith P
  | [] => by simp [Filter.ofJsonItems]
  | item :: items => by
      simp [Filter.ofJsonItems, failsWith_filter hfilters item, failsWith_items hfilters items]

end

end Filters

section Plans

variable (hschema : ∀ cause, P (.schema cause))

include hschema

section Conditions

variable (hfilters : ∀ cause, P (.filters cause))

include hfilters

/-- A comparison is compiled, or fails by the schema or by its comparand. -/
theorem failsWith_test (c : Constraint) : (c.test scope).FailsWith P := by
  refine Except.failsWith_bind_iff.2 ⟨failsWith_resolveColumn hschema c.column,
    fun column _ => ?_⟩
  refine Except.failsWith_bind_iff.2 ⟨?_, by simp⟩
  unfold Constraint.operand
  split <;> simp [hfilters]

/-- An optional filter becomes a condition, or fails by the schema or as a filter. -/
theorem failsWith_conditionOfJson (filters : Option Json) :
    (Filter.conditionOfJson scope filters).FailsWith P := by
  cases filters with
  | none => simp [Filter.conditionOfJson]
  | some raw =>
      refine Except.failsWith_bind_iff.2 ⟨failsWith_filter hfilters raw, fun f _ => ?_⟩
      unfold Filter.condition
      split
      · simp
      · simpa using Formula.failsWith_mapM (failsWith_test hschema hfilters) f.prune

/-- An update is refused by the schema, its filter, its data, or for want of values. -/
theorem failsWith_planUpdate (hdata : Error.CoversData P)
    (hvalues : ∀ table, P (.request (.noValues table))) (r : UpdateRequest) :
    (Plan.update catalog r).FailsWith P := by
  refine Except.failsWith_bind_iff.2 ⟨failsWith_table hschema r.table, fun t _ => ?_⟩
  split
  · simp [hvalues]
  · simp [failsWith_checkValues hschema hdata, failsWith_conditionOfJson hschema hfilters]

/-- A deletion is refused by the schema or its filter. -/
theorem failsWith_planDelete (r : DeleteRequest) : (Plan.delete catalog r).FailsWith P := by
  simp [Plan.delete, failsWith_table hschema, failsWith_conditionOfJson hschema hfilters]

end Conditions

section Joins

variable (hjoin : ∀ cause, P (.join cause))

include hjoin

/-- A chain of steps is refused by the schema or as a join. -/
theorem failsWith_chain (aliasName source : String) (table : Table) (index : Nat)
    (parts : List (List String)) :
    (Join.chain catalog aliasName source table index parts).FailsWith P := by
  induction parts generalizing source table index with
  | nil => simp [Join.chain]
  | cons step parts ih =>
      refine Except.failsWith_bind_iff.2 ⟨?_, fun found _ => ?_⟩
      · unfold Join.step
        split
        · next column method target targetColumn =>
            have hmethod : (Join.stepMethod aliasName index method).FailsWith P := by
              unfold Join.stepMethod
              split
              · simp [hjoin]
              · split <;> simp [hjoin]
            simp [hmethod, failsWith_table hschema, failsWith_column hschema]
        · simp [hjoin]
      · simp [ih]

/-- Joins are refused as one of their chains or aliases is. -/
theorem failsWith_joins (base : Table) (spec : JoinSpec) :
    (Join.plan catalog base spec).FailsWith P := by
  induction spec with
  | nil => simp [Join.plan]
  | cons join spec ih =>
      obtain ⟨aliasName, parts⟩ := join
      have halias : (Join.checkAlias base aliasName).FailsWith P := by
        simp [Join.checkAlias, hjoin]
      refine Except.failsWith_bind_iff.2 ⟨halias, fun _ _ => ?_⟩
      split
      · simp [hjoin]
      · simp [failsWith_chain hschema hjoin, ih]

/-- A read request is refused by the schema, its joins, its filter or its limit. -/
theorem failsWith_planRead (hfilters : ∀ cause, P (.filters cause))
    (hlimit : ∀ n, P (.request (.limit n))) (r : ReadRequest) :
    (Plan.read catalog r).FailsWith P := by
  refine Except.failsWith_bind_iff.2 ⟨failsWith_table hschema r.table, fun table _ => ?_⟩
  refine Except.failsWith_bind_iff.2 ⟨?_, fun limit _ => ?_⟩
  · cases r.limit with
    | none => simp
    | some n =>
        have hlimit : (Plan.checkLimit n).FailsWith P := by
          simp [Plan.checkLimit, hlimit]
        simpa using hlimit
  · have hordering (scope : Scope) terms : (Plan.ordering scope terms).FailsWith P := by
      refine Except.failsWith_mapM fun term _ => ?_
      simp [failsWith_resolveColumn hschema]
    simp [failsWith_joins hschema hjoin, failsWith_selectList hschema,
      failsWith_conditionOfJson hschema hfilters, hordering]

end Joins

end Plans

/-- A command that does not decode is malformed, unknown or none that a batch can have. -/
theorem failsWith_command (hrequest : ∀ cause, cause ≠ .transactionOpen → P (.request cause))
    (raw : Json) : (Command.ofJson raw).FailsWith P := by
  have henvelope : (Request.Envelope.ofJson raw).FailsWith P := by
    unfold Request.Envelope.ofJson
    split
    · exact Except.failsWith_mapError (by simp [hrequest])
    · simp [hrequest]
  have hdecode {α : Type} (e : Request.Envelope) (d : Json.Decoder α) :
      (e.decode d).FailsWith P := Except.failsWith_mapError (by simp [hrequest])
  refine Except.failsWith_bind_iff.2 ⟨henvelope, fun e _ => ?_⟩
  split <;> simp [hdecode, hrequest]

end Requests

/-! ## Statements -/

/-- Whether what goes wrong when a value is bound is of a kind. -/
def Value.BindsWith (P : Error → Prop) (v : Value) : Prop :=
  v.isList = true → P (.storage .listParameter)

/-- Whether what goes wrong when the values of an operand are bound is of a kind. -/
def Sql.Operand.BindsWith (P : Error → Prop) : Operand → Prop
  | .list vs => ∀ v ∈ vs, v.BindsWith P
  | .value v => v.BindsWith P

/-- If every storage error is of a kind, values are bound with errors of the kind. -/
theorem Sql.Operand.bindsWith_of_forall {P : Error → Prop} (hstorage : ∀ cause, P (.storage cause))
    (operand : Operand) : operand.BindsWith P := by
  cases operand with
  | list vs => exact fun v _ _ => hstorage .listParameter
  | value v => exact fun _ => hstorage .listParameter

/-- Only lists are not bound as cells. -/
theorem Cell.isList_of_ofValue? {v : Value} (h : Cell.ofValue? v = none) : v.isList = true := by
  cases v <;> simp_all [Cell.ofValue?, Value.isList]

section Statements

open Store

variable {P : Error → Prop} {s : Store} {rel : Relation} {sources : List Source}

section Rows

/-! Rows are refused for what the data are. -/

variable (hdata : Error.CoversData P)

include hdata

/-- A cell that is no row id is an error of the data. -/
theorem failsWith_idOfCell (c : Cell) : (Relation.idOfCell c).FailsWith P := by
  unfold Relation.idOfCell
  split <;> simp [hdata]

/-- A row gets no id only by an error of the data. -/
theorem failsWith_newId (assignment : Relation.Assignment) :
    (rel.newId assignment).FailsWith P := by
  unfold Relation.newId
  split <;> simp [failsWith_idOfCell hdata]

/-- A row is refused by an error of the data. -/
theorem failsWith_checkRow (others : List Row) (r : Row) :
    (rel.checkRow others r).FailsWith P := by
  have hpresent : (rel.checkPresent r).FailsWith P := by
    unfold Relation.checkPresent
    split <;> simp [hdata]
  have hkeys : (rel.checkKeys others r).FailsWith P := by
    unfold Relation.checkKeys Relation.duplicateKey
    split
    · dsimp only
      split <;> simp [hdata]
    · simp
  simp [Relation.checkRow, hpresent, hkeys, Relation.duplicateId, hdata]

/-- Rows are changed one by one, and one that is refused is an error of the data. -/
theorem failsWith_updateRows (assignment : Relation.Assignment) (ids : List Int64) :
    (rel.updateRows assignment ids).FailsWith P := by
  induction ids generalizing rel with
  | nil => simp [Relation.updateRows]
  | cons id ids ih =>
      unfold Relation.updateRows
      split
      · exact ih
      · next old _ =>
          have hset : (rel.setCells assignment old).FailsWith P := by
            unfold Relation.setCells
            split <;> simp [failsWith_idOfCell hdata]
          simp [hset, failsWith_checkRow hdata, ih]

end Rows

/-- A text that is too long is refused by the store. -/
theorem failsWith_checkTokens (hP : Error.CoversStorage P) (tokens : List Sql.Token) :
    (checkTokens tokens).FailsWith P := by
  simp [checkTokens, checkReadable, checkCount, hP]

/-- A condition that is too deep is refused by the store. -/
theorem failsWith_bounded (hP : Error.CoversStorage P) (e : Extent) : e.bounded.FailsWith P := by
  simp [Extent.bounded, hP]

/-- So is a conjunction of two conditions. -/
theorem failsWith_both (hP : Error.CoversStorage P) (a b : Extent) :
    (Extent.both a b).FailsWith P := by
  simp [Extent.both, failsWith_bounded hP]

/-- So is a disjunction of two conditions. -/
theorem failsWith_either (hP : Error.CoversStorage P) (a b : Extent) :
    (Extent.either a b).FailsWith P :=
  failsWith_bounded hP _

mutual

/-- The extent of a condition is found, or the condition is refused by the store. -/
theorem failsWith_ofCondition (hP : Error.CoversStorage P) : (c : Sql.Condition) →
    (Extent.ofCondition c).FailsWith P
  | .atom _ | .all [] | .any [] => by simp [Extent.ofCondition]
  | .all (part :: parts) => by
      simp [Extent.ofCondition, failsWith_ofCondition hP part,
        failsWith_ofChain hP (failsWith_both hP)]
  | .any (part :: parts) => by
      simp [Extent.ofCondition, failsWith_ofCondition hP part,
        failsWith_ofChain hP (failsWith_either hP)]

/-- Conditions that are put together one by one are refused as each step is. -/
theorem failsWith_ofChain (hP : Error.CoversStorage P)
    {combine : Extent → Extent → Except Error Extent}
    (hcombine : ∀ a b, (combine a b).FailsWith P) : (parts : List Sql.Condition) →
    ∀ {e}, (Extent.ofChain combine e parts).FailsWith P
  | [] => by simp [Extent.ofChain]
  | part :: parts => by
      simp [Extent.ofChain, failsWith_ofCondition hP part, hcombine,
        failsWith_ofChain hP hcombine parts]

end

/-- The check of a whole clause is refused by the store. -/
theorem failsWith_extent (hP : Error.CoversStorage P) (condition : Option Sql.Condition)
    (joins : Nat) :
    (Extent.check condition joins).FailsWith P := by
  have hjoins (e : Extent) (joins : Nat) : (Extent.withJoins e joins).FailsWith P := by
    induction joins with
    | zero => simp [Extent.withJoins]
    | succ joins ih => simp [Extent.withJoins, ih, failsWith_bounded hP]
  unfold Extent.check
  split
  · simp [failsWith_ofCondition hP, hjoins]
  · simp [hjoins]
  · simp

/-- A table that cannot be read is refused by the store. -/
theorem failsWith_readable (hP : Error.CoversStorage P) (name : String) :
    (s.readable name).FailsWith P := by
  refine Except.failsWith_bind_iff.2 ⟨by simp [checkSound, hP], fun _ _ => ?_⟩
  split <;> simp [hP]

/-- A table that cannot be changed is refused by the store. -/
theorem failsWith_changeable (hP : Error.CoversStorage P) (name : String) :
    (s.changeable name).FailsWith P := by
  simp [changeable, failsWith_readable hP, checkWritable, hP]

/-- Values are bound, or refused by the store or as one of them is. -/
theorem failsWith_bind (hP : Error.CoversStorage P) {values : RowValues}
    (hvalues : ∀ entry ∈ values, entry.2.BindsWith P) :
    (rel.bind values).FailsWith P := by
  refine Except.failsWith_mapM fun entry hentry => ?_
  have hbinds := hvalues entry hentry
  dsimp only
  split
  · split
    · simp
    · next hnone =>
        have hlist := Cell.isList_of_ofValue? (Option.eq_none_iff_forall_not_mem.2 hnone)
        simpa using hbinds hlist
  · simp [hP]

/-- A row is added, or refused by the store or its data. -/
theorem failsWith_insert (hP : Error.CoversStorage P) (hdata : Error.CoversData P) {q : Sql.Insert}
    (hvalues : ∀ entry ∈ q.values, entry.2.BindsWith P) :
    (s.insert q).FailsWith P := by
  have hinsert (rel : Relation) : (rel.insert s.now q.values).FailsWith P := by
    simp [Relation.insert, failsWith_bind hP hvalues, failsWith_newId hdata,
      failsWith_checkRow hdata]
  simp [Store.insert, failsWith_checkTokens hP, failsWith_changeable hP, hinsert]

/-- A column that is missing from all sources is refused by the store. -/
theorem failsWith_locate (hP : Error.CoversStorage P) (r : Sql.ColumnRef) :
    (locate sources r).FailsWith P := by
  unfold locate
  split <;> simp [hP]

/-- A value is bound, or refused as a list is. -/
theorem failsWith_bindValue {v : Value} (hv : v.BindsWith P) : (bindValue v).FailsWith P := by
  unfold bindValue
  split
  · simp
  · next hnone => simpa using hv (Cell.isList_of_ofValue? hnone)

/-- A comparison is prepared, or refused by the store or as its operand is. -/
theorem failsWith_checkOfTest (hP : Error.CoversStorage P)
    {t : Sql.Test} (ht : t.operand.BindsWith P) :
    (checkOfTest sources t).FailsWith P := by
  unfold checkOfTest
  split
  · simp
  · next vs _ hoperand =>
      rw [hoperand] at ht
      simp [failsWith_locate hP, Except.failsWith_mapM fun v hv => failsWith_bindValue (ht v hv)]
  · next v hoperand =>
      rw [hoperand] at ht
      simp [failsWith_locate hP, failsWith_bindValue ht]

mutual

/-- A condition is prepared, or refused by the store or as one of its operands is. -/
theorem failsWith_checksOf (hP : Error.CoversStorage P) : (c : Sql.Condition) →
    (∀ t ∈ c.atoms, t.operand.BindsWith P) → (checksOf sources c).FailsWith P
  | .atom t, h => by
      simp [checksOf, failsWith_checkOfTest hP (h t (by simp [Formula.atoms]))]
  | .all [], _ => by simp [checksOf]
  | .all (part :: parts), h => by simp [checksOf, failsWith_checksOfEach hP (part :: parts) h]
  | .any parts, h => by simp [checksOf, failsWith_checksOfEach hP parts h]

/-- Conditions are prepared one after the other, or refused as one of them is. -/
theorem failsWith_checksOfEach (hP : Error.CoversStorage P) : (parts : List Sql.Condition) →
    (∀ t ∈ Formula.atomsOf parts, t.operand.BindsWith P) →
    (checksOfEach sources parts).FailsWith P
  | [], _ => by simp [checksOfEach]
  | part :: parts, h => by
      obtain ⟨hpart, hparts⟩ := List.forall_mem_append.1 h
      simp [checksOfEach, failsWith_checksOf hP part hpart, failsWith_checksOfEach hP parts hparts]

end

/-- An optional condition is prepared, or refused as its comparisons are. -/
theorem failsWith_checksOfClause (hP : Error.CoversStorage P) {condition : Option Sql.Condition}
    (h : ∀ c ∈ condition, ∀ t ∈ c.atoms, t.operand.BindsWith P) :
    (checksOfClause sources condition).FailsWith P := by
  cases condition with
  | none => simp [checksOfClause]
  | some c => exact failsWith_checksOf hP c (h c rfl)

/-- A pattern that is too long is refused by the store. -/
theorem failsWith_checkPatterns (hP : Error.CoversStorage P) (tour : Access.Tour) :
    (checkPatterns sources tour).FailsWith P := by
  simp [checkPatterns, hP]

/-- The rows that meet a condition are found, or it is refused as its comparisons are. -/
theorem failsWith_matching (hP : Error.CoversStorage P) {condition : Option Sql.Condition}
    (h : ∀ c ∈ condition, ∀ t ∈ c.atoms, t.operand.BindsWith P) :
    (matching rel condition).FailsWith P := by
  simp [matching, failsWith_checksOfClause hP h, failsWith_checkPatterns hP]

/-- Rows are changed, or the statement is refused by the store, its data or an operand. -/
theorem failsWith_update (hP : Error.CoversStorage P) (hdata : Error.CoversData P) {q : Sql.Update}
    (hvalues : ∀ entry ∈ q.values, entry.2.BindsWith P)
    (h : ∀ c ∈ q.condition, ∀ t ∈ c.atoms, t.operand.BindsWith P) :
    (s.update q).FailsWith P := by
  simp [Store.update, checkUpdate, failsWith_checkTokens hP, checkCount, failsWith_extent hP,
    failsWith_changeable hP, failsWith_bind hP hvalues, failsWith_matching hP h,
    failsWith_updateRows hdata, hP]

/-- Rows are deleted, or the statement is refused by the store or an operand. -/
theorem failsWith_delete (hP : Error.CoversStorage P) {q : Sql.Delete}
    (h : ∀ c ∈ q.condition, ∀ t ∈ c.atoms, t.operand.BindsWith P) :
    (s.delete q).FailsWith P := by
  simp [Store.delete, checkDelete, failsWith_checkTokens hP, failsWith_extent hP,
    failsWith_changeable hP, failsWith_matching hP h]

/-- Rows are read, or the statement is refused by the store or an operand. -/
theorem failsWith_select (hP : Error.CoversStorage P) {q : Sql.Select}
    (h : ∀ c ∈ q.condition, ∀ t ∈ c.atoms, t.operand.BindsWith P) :
    (s.select q).FailsWith P := by
  have hsize : (checkSelect q).FailsWith P := by
    simp [checkSelect, failsWith_checkTokens hP, checkCount, failsWith_extent hP, hP]
  refine Except.failsWith_bind_iff.2 ⟨hsize, fun _ _ => ?_⟩
  refine Except.failsWith_bind_iff.2 ⟨failsWith_readable hP q.table, fun base _ => ?_⟩
  refine Except.failsWith_bind_iff.2
    ⟨Except.failsWith_mapM fun step _ => by simp [failsWith_readable hP], fun joined _ => ?_⟩
  refine Except.failsWith_bind_iff.2
    ⟨Except.failsWith_mapM fun step _ => by simp [checkOfStep, failsWith_locate hP],
      fun joins _ => ?_⟩
  refine Except.failsWith_bind_iff.2
    ⟨Except.failsWith_mapM fun r _ => failsWith_locate hP r, fun columns _ => ?_⟩
  refine Except.failsWith_bind_iff.2 ⟨failsWith_checksOfClause hP h, fun condition _ => ?_⟩
  refine Except.failsWith_bind_iff.2
    ⟨Except.failsWith_mapM fun term _ => by simp [failsWith_locate hP], fun ordering _ => ?_⟩
  simp [failsWith_checkPatterns hP]

end Statements

/-! ## Operations -/

namespace Database

variable {α β γ : Type} {scoping : Scoping} {db : Database} {P : Error → Prop}

/-- Changing the result of an operation changes no error. -/
theorem failsWith_mapResult {operation : Operation α} (f : α → β)
    (h : (operation db).1.FailsWith P) : (mapResult f operation db).1.FailsWith P := by
  unfold mapResult
  split
  · simp
  · next e after heq =>
      rw [heq] at h
      simpa using h

/-- An operation that needs no transaction of its own, or can have one, fails as its body does. -/
theorem failsWith_within {body : Operation α} (hbody : ∀ db, (body db).1.FailsWith P)
    (hdb : scoping = .own → db.inTransaction = false) :
    (within scoping body db).1.FailsWith P := by
  cases scoping with
  | joined => exact hbody db
  | own =>
      have hopened := hbody { db with inTransaction := true }
      have hclosed : ¬ (db.inTransaction = true) := by simp [hdb rfl]
      show (transaction body db).1.FailsWith P
      rw [transaction, if_neg hclosed]
      split
      · simp
      · next e after heq =>
          rw [heq] at hopened
          simpa using hopened

/-- A change of the store fails as its statement does. -/
theorem failsWith_change {run : Store → Except Error (Store × Nat)}
    (h : ∀ s, (run s).FailsWith P) (db : Database) : (change run db).1.FailsWith P := by
  unfold change
  split
  · simp
  · next e he => simpa using h db.store e he

/-- Planned rows are added, or refused by the store or their data. -/
theorem failsWith_addRows (hdata : Error.CoversData P) (hstorage : ∀ cause, P (.storage cause))
    (rows : List PlannedRow) (db : Database) : (addRows rows db).1.FailsWith P := by
  induction rows generalizing db with
  | nil => simp [addRows]
  | cons row rows ih =>
      unfold addRows addRow
      cases hinsert : db.store.insert row.statement with
      | error e =>
          have hbinds (entry) (_ : entry ∈ row.statement.values) : entry.2.BindsWith P :=
            fun _ => hstorage .listParameter
          simpa using failsWith_insert (fun cause _ => hstorage cause) hdata hbinds e hinsert
      | ok store =>
          have hrows := ih { db with store }
          dsimp only
          split
          · simp
          · next heq =>
              rw [heq] at hrows
              simpa using hrows

section Requests

variable (hschema : ∀ cause, P (.schema cause))

include hschema

section Create

variable (hdatabase : ∀ cause, P (.database cause))

include hdatabase

/-- A key is drawn, or the generator gives none that is unused. -/
theorem failsWith_drawUnused (t : Table) (used : List String) (attempts : Nat)
    (source : KeySource) : (drawUnused t used attempts source).1.FailsWith P := by
  induction attempts generalizing source with
  | zero => simp [drawUnused, hdatabase]
  | succ attempts ih =>
      have hdraw : (KeyGenerator.draw source t).1.FailsWith P := by
        show (source.draw t).1.FailsWith P
        unfold KeySource.draw
        cases source <;> cases t.primaryKey?.map Column.type with
        | none => simp [hschema]
        | some type => cases type <;> simp
      unfold drawUnused
      split
      · split
        · exact ih _
        · simp
      · next e after heq =>
          rw [heq] at hdraw
          simpa using hdraw

/-- Rows are planned with their keys, or refused as one of them is. -/
theorem failsWith_planRows (t : Table) (p : Planning) (rows : List RowValues) :
    (planRows t p rows).1.FailsWith P := by
  induction rows generalizing p with
  | nil => simp [planRows]
  | cons row rows ih =>
      -- Settling a key fails only if one has to be drawn.
      have hsettled : (settleKey t p row).1.FailsWith P := by
        unfold settleKey
        split
        · simp
        · split
          · simp
          · simp
          · next source _ _ =>
              have hdrawn := failsWith_drawUnused hschema hdatabase t p.used maxDraws source
              split
              · simp
              · next heq =>
                  rw [heq] at hdrawn
                  simpa using hdrawn
      unfold planRows
      split
      · next heq =>
          rw [heq] at hsettled
          simpa using hsettled
      · next values key p _ =>
          have hrows := ih p
          split
          · next e he =>
              have hinsert := failsWith_planInsert (t := t) hschema (fun cause _ => hdatabase cause)
              simpa using hinsert values e he
          · split
            · simp
            · next heq =>
                rw [heq] at hrows
                simpa using hrows

/-- A create request fails by the schema, its data, its keys or the store. -/
theorem failsWith_create (hstorage : ∀ cause, P (.storage cause)) (r : CreateRequest)
    (hdb : scoping = .own → db.inTransaction = false) : (create scoping r db).1.FailsWith P := by
  unfold create
  split
  · next e he => simpa using failsWith_table hschema r.table e he
  · next t _ =>
      have hplanned := failsWith_planRows hschema hdatabase t ⟨suppliedKeys t r.rows, db.keys⟩ r.rows
      dsimp only
      split
      · next e he => simpa using hplanned e he
      · next planned _ =>
          have hadd := failsWith_addRows (fun cause _ => hdatabase cause) hstorage planned
          exact failsWith_within hadd hdb

end Create

section Filtered

variable (hfilters : ∀ cause, P (.filters cause)) (hstorage : ∀ cause, P (.storage cause))

include hfilters hstorage

/-- A read request fails as its plan does, or by the store. -/
theorem failsWith_read (hjoin : ∀ cause, P (.join cause)) (hlimit : ∀ n, P (.request (.limit n)))
    (r : ReadRequest) (hdb : scoping = .own → db.inTransaction = false) :
    (read scoping r db).1.FailsWith P := by
  unfold read
  split
  · next e he => simpa using failsWith_planRead hschema hjoin hfilters hlimit r e he
  · next plan _ =>
      refine failsWith_within (fun db => ?_) hdb
      have hselect : (db.store.select plan.select).FailsWith P :=
        failsWith_select (fun cause _ => hstorage cause)
          fun c _ t _ => t.operand.bindsWith_of_forall hstorage
      simp [fetch, hselect]

/-- An update request fails as its plan does, by its data or by the store. -/
theorem failsWith_updateRequest (hdatabase : ∀ cause, P (.database cause))
    (hvalues : ∀ table, P (.request (.noValues table))) (r : UpdateRequest)
    (hdb : scoping = .own → db.inTransaction = false) :
    (update scoping r db).1.FailsWith P := by
  unfold update
  split
  · next e he =>
      have hplan : (Plan.update db.catalog r).FailsWith P :=
        failsWith_planUpdate hschema hfilters (fun cause _ => hdatabase cause) hvalues r
      simpa using hplan e he
  · next q _ =>
      have hupdate (s : Store) : (s.update q).FailsWith P :=
        failsWith_update (fun cause _ => hstorage cause) (fun cause _ => hdatabase cause)
          (fun _ _ _ => hstorage .listParameter)
          fun c _ t _ => t.operand.bindsWith_of_forall hstorage
      exact failsWith_within (failsWith_change hupdate) hdb

/-- A delete request fails as its plan does, or by the store. -/
theorem failsWith_deleteRequest (r : DeleteRequest)
    (hdb : scoping = .own → db.inTransaction = false) :
    (delete scoping r db).1.FailsWith P := by
  unfold delete
  split
  · next e he => simpa using failsWith_planDelete hschema hfilters r e he
  · next q _ =>
      have hdelete (s : Store) : (s.delete q).FailsWith P :=
        failsWith_delete (fun cause _ => hstorage cause)
          fun c _ t _ => t.operand.bindsWith_of_forall hstorage
      exact failsWith_within (failsWith_change hdelete) hdb

end Filtered

end Requests

/-! ## Open transactions -/

theorem isOther_schema (cause : SchemaError) : IsOther (.schema cause) := trivial

theorem isOther_filters (cause : FilterError) : IsOther (.filters cause) := trivial

theorem isOther_database (cause : DatabaseError) : IsOther (.database cause) := trivial

theorem isOther_storage (cause : StorageError) : IsOther (.storage cause) := trivial

/-- A command that joins the open transaction, or finds none open, does not fail for one. -/
theorem failsWith_run (command : Command) (hdb : scoping = .own → db.inTransaction = false) :
    (run scoping command db).1.FailsWith IsOther := by
  cases command with
  | create r =>
      exact failsWith_mapResult _
        (failsWith_create isOther_schema isOther_database isOther_storage r hdb)
  | update r =>
      exact failsWith_mapResult _ (failsWith_updateRequest isOther_schema isOther_filters
        isOther_storage isOther_database (fun _ => trivial) r hdb)
  | delete r =>
      exact failsWith_mapResult _
        (failsWith_deleteRequest isOther_schema isOther_filters isOther_storage r hdb)

/-- Nor do commands that are run one after the other. -/
theorem failsWith_inOrder {step : γ → Operation β}
    (hstep : ∀ item db, (step item db).1.FailsWith IsOther) (items : List γ) (index : Nat)
    (db : Database) : (inOrder step index items db).1.FailsWith IsOther := by
  induction items generalizing index db with
  | nil => simp [inOrder]
  | cons item items ih =>
      have hitem := hstep item db
      unfold inOrder
      split
      · next heq =>
          rw [heq] at hitem
          simpa using hitem
      · next b between _ =>
          have hitems := ih (index + 1) between
          split
          · simp
          · next heq =>
              rw [heq] at hitems
              simpa using hitems

/-- Nor does a command that is given as JSON. -/
theorem failsWith_runJson (raw : Json) (db : Database) :
    (runJson raw db).1.FailsWith IsOther := by
  unfold runJson
  split
  · exact failsWith_run _ nofun
  · next e he =>
      have hrequest (cause : RequestError) (hcause : cause ≠ .transactionOpen) :
          IsOther (.request cause) := by
        cases cause <;> trivial
      simpa using failsWith_command hrequest raw e he

/-- **Commands that can be run as one do not fail for an open transaction.** -/
theorem failsWith_batch (commands : List Command)
    (hdb : scoping = .own → db.inTransaction = false) :
    (batch scoping commands db).1.FailsWith IsOther := by
  have hrun (command : Command) (db : Database) : (run .joined command db).1.FailsWith IsOther :=
    failsWith_run command nofun
  exact failsWith_within (failsWith_inOrder hrun commands 0) hdb

/-- **A request that joins the open transaction, or finds none open, does not fail for an open
transaction.** -/
theorem failsWith_execute (request : Request) (hdb : scoping = .own → db.inTransaction = false) :
    (execute scoping request db).1.FailsWith IsOther := by
  cases request with
  | create r =>
      exact failsWith_mapResult _
        (failsWith_create isOther_schema isOther_database isOther_storage r hdb)
  | read r =>
      exact failsWith_mapResult _ (failsWith_read isOther_schema isOther_filters isOther_storage
        (fun _ => trivial) (fun _ => trivial) r hdb)
  | update r =>
      exact failsWith_mapResult _ (failsWith_updateRequest isOther_schema isOther_filters
        isOther_storage isOther_database (fun _ => trivial) r hdb)
  | delete r =>
      exact failsWith_mapResult _
        (failsWith_deleteRequest isOther_schema isOther_filters isOther_storage r hdb)
  | batch commands =>
      have hbatch := failsWith_within (failsWith_inOrder failsWith_runJson commands 0) hdb
      exact failsWith_mapResult _ hbatch

end Database

end Tabula
