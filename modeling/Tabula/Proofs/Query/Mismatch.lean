import Tabula.Proofs.Query.FilterMeaning
import Tabula.Proofs.Query.Grammar
import Tabula.Proofs.Query.Statements

/-!
# Mismatches that cannot occur

A comparison whose comparand has the wrong shape is refused when its filter is read, and a value
that its column does not take when its request is planned. Main statement: a filter that was read
compiles unless a reference of it does not resolve, and it then fails as the first such reference
does; and no parameter of a planned statement is a list, so that no store refuses to bind one
(`no_mismatch_of_accepted`).
-/

namespace Tabula

open Sql (Condition parameters)

/-! ## Compiling -/

namespace Filter

variable {scope : Scope} {f : Filter}

/-- Whether a filter has a column reference that does not resolve for some cause, while every
reference before it does. -/
def IsFirstUnresolved (scope : Scope) (f : Filter) (cause : SchemaError) : Prop :=
  ∃ before reference after, f.columns = before ++ reference :: after ∧
    (∀ r ∈ before, ∃ c, scope.resolveColumn r = .ok c) ∧
    scope.resolveColumn reference = .error (.schema cause)

/-- A filter fails to compile as its comparisons do, one after the other. -/
theorem mapM_atoms_of_condition {e : Error} (h : condition scope f = .error e) :
    f.atoms.mapM (Constraint.test scope) = .error e := by
  unfold condition at h
  split at h
  · cases h
  · rw [← Formula.atoms_prune, ← Formula.atoms_mapM]
    cases hprune : f.prune.mapM (Constraint.test scope) with
    | ok c =>
      rw [hprune] at h
      cases h
    | error e' =>
      rw [hprune] at h
      obtain rfl := Except.error.inj h
      rfl

/-- The references of a filter that compiles resolve. -/
theorem resolveColumn_of_condition {compiled : Option Condition}
    (h : condition scope f = .ok compiled) :
    ∀ reference ∈ f.columns, ∃ c, scope.resolveColumn reference = .ok c := by
  have htests : ∀ k ∈ f.atoms, ∃ t, k.test scope = .ok t := by
    cases compiled with
    | none =>
      have hempty : f.isEmpty = true := by
        by_contra hsome
        rw [condition, if_neg hsome] at h
        obtain ⟨c, -, hc⟩ := Except.map_eq_ok_iff.1 h
        cases hc
      rw [Formula.atoms_eq_nil f hempty]
      exact List.forall_mem_nil _
    | some c =>
      intro k hk
      obtain ⟨t, -, ht⟩ := (Scope.forall₂_atoms_of_condition h).exists_of_mem_left hk
      exact ⟨t, ht⟩
  intro reference hreference
  obtain ⟨k, hk, rfl⟩ := List.mem_map.1 hreference
  obtain ⟨t, ht⟩ := htests k hk
  obtain ⟨c, hc, -⟩ := Scope.test_eq_ok ht
  exact ⟨c, hc⟩

/-- A filter whose comparands have the right shape compiles, or fails as the first reference that
does not resolve. -/
theorem condition_or_isFirstUnresolved (hshaped : f.IsShaped) :
    ((∀ reference ∈ f.columns, ∃ c, scope.resolveColumn reference = .ok c) ∧
      ∃ compiled, condition scope f = .ok compiled) ∨
      ∃ cause, IsFirstUnresolved scope f cause ∧ condition scope f = .error (.schema cause) := by
  cases hcondition : condition scope f with
  | ok compiled => exact .inl ⟨resolveColumn_of_condition hcondition, compiled, rfl⟩
  | error e =>
    obtain ⟨before, k, after, hatoms, hbefore, hk⟩ :=
      Except.exists_of_mapM_eq_error (mapM_atoms_of_condition hcondition)
    have hkshaped : k.IsShaped := Formula.IsSound.of_mem_atoms f hshaped k (by simp [hatoms])
    -- With a comparand of the right shape, only the reference is left to fail.
    have hresolve : scope.resolveColumn k.column = .error e := by
      cases hcolumn : scope.resolveColumn k.column with
      | error e' =>
        rw [Constraint.test, hcolumn] at hk
        obtain rfl : e' = e := Except.error.inj hk
        rfl
      | ok c =>
        rw [Constraint.test_eq (ρ := fun _ => c.ref) hkshaped ⟨c, hcolumn, rfl⟩] at hk
        cases hk
    obtain ⟨cause, rfl⟩ := failsWith_resolveColumn (P := fun e => ∃ cause, e = .schema cause)
      (fun cause => ⟨cause, rfl⟩) k.column e hresolve
    refine .inr ⟨cause, ⟨before.map Constraint.column, k.column, after.map Constraint.column, ?_,
      ?_, hresolve⟩, rfl⟩
    · rw [columns, hatoms, List.map_append, List.map_cons]
    · intro reference hreference
      obtain ⟨j, hj, rfl⟩ := List.mem_map.1 hreference
      obtain ⟨t, ht⟩ := hbefore j hj
      obtain ⟨c, hc, -⟩ := Scope.test_eq_ok ht
      exact ⟨c, hc⟩

end Filter

/-! ## Binding -/

/-- The items of a comparand are no lists. -/
theorem Comparison.isList_of_mem_items {m : Comparison} {v w : Value} (h : m.fits v = true)
    (hw : w ∈ v.items) : w.isList = false := by
  rcases isFlat_of_fits h with hlist | ⟨vs, rfl, hvs⟩
  · have hitems : v.items = [v] := by
      cases v <;> first | rfl | cases hlist
    rw [hitems] at hw
    rwa [List.mem_singleton.1 hw]
  · exact hvs w hw

namespace Sql

/-- Whether an optional condition compares with no lists but those of a method that takes one. -/
def Condition.IsFlat (condition : Option Condition) : Prop :=
  ∀ c ∈ condition, ∀ t ∈ c.atoms, ∀ v ∈ t.operand.values, v.isList = false

/-- Whether no value of a row is a list. -/
def IsFlatRow (values : RowValues) : Prop := ∀ entry ∈ values, entry.2.isList = false

/-- A flat condition binds no list. -/
theorem isList_of_clauseBindings {condition : Option Condition} (h : Condition.IsFlat condition) :
    ∀ binding ∈ Condition.clauseBindings condition, binding.2.isList = false := by
  intro binding hbinding
  cases condition with
  | none => cases hbinding
  | some c =>
    obtain ⟨t, ht, hbinding⟩ := List.mem_flatMap.1 hbinding
    obtain ⟨v, hv, rfl⟩ := List.mem_map.1 hbinding
    exact h c rfl t ht v hv

/-- A flat row binds no list. -/
theorem isList_of_writtenBindings {values : RowValues} (h : IsFlatRow values) :
    ∀ binding ∈ writtenBindings values, binding.2.isList = false := by
  intro binding hbinding
  obtain ⟨entry, hentry, rfl⟩ := List.mem_map.1 hbinding
  exact h entry hentry

/-- The parameters of a row of tokens are the values that it has placeholders for. -/
theorem Says.isList_of_mem {isName : String → Prop} {tokens : List Token}
    {bindings : List (Role × Value)} (h : Says isName tokens bindings)
    (hbindings : ∀ binding ∈ bindings, binding.2.isList = false) :
    ∀ v ∈ parameters tokens, v.isList = false := by
  intro v hv
  rw [(h []).parameters] at hv
  obtain ⟨binding, hbinding, rfl⟩ := List.mem_map.1 hv
  exact hbindings binding hbinding

variable {condition : Option Condition} {values : RowValues} {P : Error → Prop}

/-- Nothing goes wrong when the operands of a flat condition are bound. -/
theorem Condition.IsFlat.bindsWith (h : IsFlat condition) :
    ∀ c ∈ condition, ∀ t ∈ c.atoms, t.operand.BindsWith P := by
  intro c hc t ht
  have hvalues := h c hc t ht
  cases hoperand : t.operand with
  | value v =>
    rw [hoperand] at hvalues
    intro hlist
    rw [hvalues v (List.mem_singleton_self v)] at hlist
    cases hlist
  | list vs =>
    rw [hoperand] at hvalues
    intro v hv hlist
    rw [hvalues v hv] at hlist
    cases hlist

/-- Nor when the values of a flat row are. -/
theorem IsFlatRow.bindsWith (h : IsFlatRow values) : ∀ entry ∈ values, entry.2.BindsWith P := by
  intro entry hentry hlist
  rw [h entry hentry] at hlist
  cases hlist

end Sql

namespace Filter

/-- A filter that was read compares with lists only where its methods take one. -/
theorem isFlat_of_conditionOfJson {scope : Scope} {raw : Option Json}
    {condition : Option Condition} (h : conditionOfJson scope raw = .ok condition) :
    Condition.IsFlat condition := by
  rintro c rfl t ht v hv
  cases raw with
  | none => cases h
  | some raw =>
    obtain ⟨f, hf, hc⟩ := Except.bind_eq_ok_iff.1 h
    obtain ⟨k, hk, htest⟩ := (Scope.forall₂_atoms_of_condition hc).exists_of_mem_right ht
    obtain ⟨column, -, operand, hoperand, rfl⟩ := Scope.test_eq_ok htest
    have hfits : k.Fits := Formula.IsSound.of_mem_atoms f (isSound_of_ofJson raw f hf) k hk
    rw [Constraint.values_of_operand hoperand] at hv
    exact Comparison.isList_of_mem_items hfits hv

end Filter

/-! ## Statements -/

/-- Whether an error is another one than that a list is bound. -/
def Error.IsNotOfList (e : Error) : Prop := e ≠ .storage .listParameter

theorem Error.coversData_isNotOfList : CoversData IsNotOfList := fun _ _ => nofun

/-- No other error of storage is that of a list. -/
theorem Error.coversStorage_isNotOfList : CoversStorage IsNotOfList := by
  rintro cause hcause ⟨⟩
  exact hcause rfl

namespace Sql

/-- Whether a statement has no list among its parameters, and is never refused because a list is
bound. -/
structure BindsNoList {α : Type} (tokens : List Token) (run : Store → Except Error α) : Prop where
  parameters : ∀ v ∈ parameters tokens, v.isList = false
  run : ∀ s, run s ≠ .error (.storage .listParameter)

/-- A select statement with a flat condition binds no list. -/
theorem Select.bindsNoList {q : Select} (h : Condition.IsFlat q.condition) :
    BindsNoList q.tokens fun s => s.select q where
  parameters := by
    have hsaid : Says (fun _ => True) q.tokens (Condition.clauseBindings q.condition
        ++ q.limit.toList.map fun n => (.limit, .int n)) :=
      says_select trivial (fun _ _ => ⟨trivial, trivial⟩)
        (fun _ _ => ⟨trivial, ⟨trivial, trivial⟩, ⟨trivial, trivial⟩⟩)
        (fun _ _ _ _ => ⟨trivial, trivial⟩) fun _ _ => ⟨trivial, trivial⟩
    refine hsaid.isList_of_mem (List.forall_mem_append.2 ⟨isList_of_clauseBindings h, ?_⟩)
    intro binding hbinding
    obtain ⟨n, -, rfl⟩ := List.mem_map.1 hbinding
    rfl
  run s hrun := failsWith_select Error.coversStorage_isNotOfList h.bindsWith _ hrun rfl

/-- An insert statement with a flat row binds no list. -/
theorem Insert.bindsNoList {q : Insert} (h : IsFlatRow q.values) :
    BindsNoList q.tokens fun s => s.insert q where
  parameters := by
    have hsaid : Says (fun _ => True) q.tokens (writtenBindings q.values) :=
      says_insert trivial fun _ _ => trivial
    exact hsaid.isList_of_mem (isList_of_writtenBindings h)
  run s hrun :=
    failsWith_insert Error.coversStorage_isNotOfList Error.coversData_isNotOfList h.bindsWith _ hrun
      rfl

/-- An update statement with a flat row and a flat condition binds no list. -/
theorem Update.bindsNoList {q : Update} (hrow : IsFlatRow q.values)
    (h : Condition.IsFlat q.condition) : BindsNoList q.tokens fun s => s.update q where
  parameters := by
    have hsaid : Says (fun _ => True) q.tokens
        (writtenBindings q.values ++ Condition.clauseBindings q.condition) :=
      says_update trivial (fun _ _ => trivial) fun _ _ _ _ => ⟨trivial, trivial⟩
    exact hsaid.isList_of_mem
      (List.forall_mem_append.2 ⟨isList_of_writtenBindings hrow, isList_of_clauseBindings h⟩)
  run s hrun :=
    failsWith_update Error.coversStorage_isNotOfList Error.coversData_isNotOfList hrow.bindsWith
      h.bindsWith _ hrun rfl

/-- A delete statement with a flat condition binds no list. -/
theorem Delete.bindsNoList {q : Delete} (h : Condition.IsFlat q.condition) :
    BindsNoList q.tokens fun s => s.delete q where
  parameters := by
    have hsaid : Says (fun _ => True) q.tokens (Condition.clauseBindings q.condition) :=
      says_delete trivial fun _ _ _ _ => ⟨trivial, trivial⟩
    exact hsaid.isList_of_mem (isList_of_clauseBindings h)
  run s hrun := failsWith_delete Error.coversStorage_isNotOfList h.bindsWith _ hrun rfl

end Sql

namespace Plan

open Sql (BindsNoList IsFlatRow)

/-- Values that pass their check are flat. -/
theorem isFlatRow_of_checkValues {t : Table} {values : RowValues}
    (h : checkValues t values = .ok ()) : IsFlatRow values := by
  intro entry hentry
  obtain ⟨c, -, -, haccepts⟩ := exists_of_checkValues h entry hentry
  cases hvalue : entry.2 with
  | list items =>
    rw [hvalue, ColumnType.accepts_list] at haccepts
    cases haccepts
  | _ => rfl

/-- **What is accepted has no mismatches left.** A filter that was read compiles in every scope
unless a column reference of it does not resolve, and then fails with the schema error of the first
such reference in order of appearance. A statement that is planned has no list among its parameters,
so no store refuses it because a list is bound. -/
theorem no_mismatch_of_accepted (catalog : Catalog) :
    (∀ raw f, Filter.ofJson raw = .ok f → ∀ scope,
      ((∀ reference ∈ f.columns, ∃ c, scope.resolveColumn reference = .ok c) ∧
        ∃ compiled, Filter.condition scope f = .ok compiled) ∨
      ∃ cause, Filter.IsFirstUnresolved scope f cause ∧
        Filter.condition scope f = .error (.schema cause)) ∧
    (∀ r plan, read catalog r = .ok plan →
      BindsNoList plan.select.tokens fun s => s.select plan.select) ∧
    (∀ t row q, insert t row = .ok q → BindsNoList q.tokens fun s => s.insert q) ∧
    (∀ r q, update catalog r = .ok q → BindsNoList q.tokens fun s => s.update q) ∧
    (∀ r q, delete catalog r = .ok q → BindsNoList q.tokens fun s => s.delete q) := by
  refine ⟨?_, ?_, ?_, ?_, ?_⟩
  · intro raw f hf scope
    exact Filter.condition_or_isFirstUnresolved (Filter.isShaped_of_ofJson raw f hf)
  · intro r plan h
    obtain ⟨base, limit, planned, columns, condition, terms, -, -, -, -, hcondition, -, rfl⟩ :=
      read_eq_ok_iff.1 h
    exact Sql.Select.bindsNoList (Filter.isFlat_of_conditionOfJson hcondition)
  · intro t row q h
    obtain ⟨hvalues, rfl⟩ := insert_eq_ok h
    exact Sql.Insert.bindsNoList (isFlatRow_of_checkValues hvalues)
  · intro r q h
    obtain ⟨t, condition, -, hvalues, hcondition, rfl⟩ := update_eq_ok h
    exact Sql.Update.bindsNoList (isFlatRow_of_checkValues hvalues)
      (Filter.isFlat_of_conditionOfJson hcondition)
  · intro r q h
    obtain ⟨t, condition, -, hcondition, rfl⟩ := delete_eq_ok h
    exact Sql.Delete.bindsNoList (Filter.isFlat_of_conditionOfJson hcondition)

/-- A filter in which a list is fine and the second and third references do not resolve, and a read
with a list, a limit and an alternative that constrains nothing. -/
theorem no_mismatch_of_accepted_awkward :
    let catalog : Catalog := ⟨[(awkward.name, awkward)]⟩
    let unresolved : Json := .object [("in", .object [("id", .array [.int 1, .int 2])]),
      ("or", .array [.object [("eq", .object [("size", .int 1), ("depth", .int 2)])], .object []])]
    let filters : Option Json := some (.object [
      ("in", .object [("id", .array [.int 1, .int 2])]),
      ("or", .array [.object [("like", .object [("na\"me?", .string "\"?%")])], .object []])])
    (∃ f cause, Filter.ofJson unresolved = .ok f ∧
      Filter.IsFirstUnresolved ⟨awkward, []⟩ f cause ∧
      Filter.condition ⟨awkward, []⟩ f = .error (.schema cause)) ∧
    ∃ plan, read catalog { table := awkward.name, filters, limit := some 3 } = .ok plan ∧
      BindsNoList plan.select.tokens fun s => s.select plan.select := by
  intro catalog unresolved filters
  obtain ⟨hcompiles, hread, -⟩ := no_mismatch_of_accepted catalog
  constructor
  · obtain ⟨f, hf⟩ : ∃ f, Filter.ofJson unresolved = .ok f := ⟨_, rfl⟩
    refine ⟨f, ?_⟩
    rcases hcompiles unresolved f hf ⟨awkward, []⟩ with ⟨hresolve, -⟩ | ⟨cause, hfirst, hfails⟩
    · obtain rfl := Except.ok.inj hf
      obtain ⟨c, hc⟩ := hresolve "size" (by decide +kernel)
      cases hc
    · exact ⟨cause, hf, hfirst, hfails⟩
  · obtain ⟨plan, hplan⟩ := Except.isOk_iff.1 (by decide +kernel : (read catalog
      { table := awkward.name, filters, limit := some 3 }).isOk = true)
    exact ⟨plan, hplan, hread _ _ hplan⟩

end Plan

end Tabula
