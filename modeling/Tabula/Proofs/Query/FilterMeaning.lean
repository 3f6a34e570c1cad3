import Tabula.Proofs.Result
import Tabula.Proofs.Sql.Predicate
import Tabula.Query.Filter

/-!
# What compiled filters mean

A filter is compiled into the text of a predicate with parameters. Main statement: read with the
precedence of SQL, that text has the truth value of the filter under every assignment of truth
values to single comparisons (`readPredicate_condition`).
-/

namespace Tabula

open Formula (IsSound AreSound)
open Sql (ColumnRef Operand Test)

/-- A value as an operand: a list is a list of operands. -/
def Sql.Operand.ofValue : Value → Operand
  | .list vs => .list vs
  | v => .value v

namespace Constraint

/-- Whether a comparison carries a comparand of its method. -/
def Fits (k : Constraint) : Prop := k.method.fits k.value = true

/-- Whether a comparison carries a list exactly if its method takes one. -/
def IsShaped (k : Constraint) : Prop := k.method.takesList = k.value.isList

/-- A comparison of a filter as one of a statement, by what its reference means. -/
def testAt (ρ : String → ColumnRef) (k : Constraint) : Test :=
  ⟨ρ k.column, k.method, .ofValue k.value⟩

/-- A shaped comparison is so for the column that its reference means. -/
theorem isShaped_testAt (ρ : String → ColumnRef) {k : Constraint} (h : k.IsShaped) :
    (k.testAt ρ).IsShaped := by
  obtain ⟨m, column, v⟩ := k
  cases v <;> exact h

/-- A shaped comparison whose reference means a column is compiled to a comparison of it. -/
theorem test_eq {scope : Scope} {ρ : String → ColumnRef} {k : Constraint} (h : k.IsShaped)
    (hρ : ∃ c, scope.resolveColumn k.column = .ok c ∧ c.ref = ρ k.column) :
    k.test scope = .ok (k.testAt ρ) := by
  obtain ⟨c, hc, href⟩ := hρ
  have hoperand : k.operand c.column = .ok (.ofValue k.value) := by
    obtain ⟨m, column, v⟩ := k
    simp only [IsShaped] at h
    cases v <;> simp_all [operand, Value.isList, Operand.ofValue]
  rw [test, hc]
  simp only [Except.bind, bind, hoperand]
  rw [href]
  rfl

end Constraint

namespace Filter

/-- Whether no disjunction of a filter is empty and every comparison carries what its method
takes. -/
def IsShaped (f : Filter) : Prop := IsSound Constraint.IsShaped f

/-! ## Filters that are read from JSON -/

/-- What carries a comparand of its method is shaped. -/
theorem isShaped_of_fits {k : Constraint} (h : k.Fits) : k.IsShaped := by
  obtain ⟨m, column, v⟩ := k
  cases m <;> cases v <;> simp_all [Constraint.Fits, Constraint.IsShaped, Comparison.fits,
    Comparison.takesList, Value.isList]

/-- A comparand that is read fits its method. -/
theorem comparand_fits {m : Comparison} {column : String} {raw : Json} {v : Value}
    (h : comparand m column raw = .ok v) : m.fits v = true := by
  unfold comparand at h
  split at h
  · simp at h
  · next w hw =>
      split at h
      · next hfits =>
          obtain rfl : w = v := by simpa using h
          exact hfits
      · simp at h

/-- The comparisons of one method that are read carry comparands of it. -/
theorem constraints_fit {name : String} {raw : Json} {cs : List Constraint}
    (h : constraints name raw = .ok cs) : ∀ c ∈ cs, c.Fits := by
  unfold constraints at h
  split at h
  · simp at h
  · next m hm =>
      split at h
      · next fields =>
          intro c hc
          obtain ⟨⟨column, item⟩, -, hitem⟩ := Except.exists_of_mem_mapM h hc
          dsimp only at hitem
          split at hitem
          · next v hv =>
              obtain rfl := Except.ok.inj hitem
              exact comparand_fits hv
          · simp at hitem
      · simp at h

/-- Comparisons that carry their comparands are sound filters. -/
theorem areSound_atoms {cs : List Constraint} (h : ∀ c ∈ cs, c.Fits) :
    AreSound Constraint.Fits (cs.map .atom) := by
  induction cs with
  | nil => trivial
  | cons c cs ih => exact ⟨h c (by simp), ih fun d hd => h d (by simp [hd])⟩

mutual

/-- The comparisons of a filter that is read from JSON carry comparands of their methods. -/
theorem isSound_of_ofJson : (raw : Json) → (f : Filter) → ofJson raw = .ok f →
    IsSound Constraint.Fits f
  | .object fields, f, h => by
    rw [ofJson, Except.map_eq_ok_iff] at h
    obtain ⟨fs, hfs, rfl⟩ := h
    exact areSound_of_parts fields fs hfs
  | .null, f, h | .bool _, f, h | .int _, f, h | .float _, f, h | .string _, f, h
  | .array _, f, h => by simp [ofJson] at h

theorem areSound_of_parts : (fields : List (String × Json)) → (fs : List Filter) →
    parts fields = .ok fs → AreSound Constraint.Fits fs
  | [], fs, h => by
    obtain rfl : [] = fs := by simpa [parts] using h
    trivial
  | (key, raw) :: fields, fs, h => by
    have hsound : ∀ first : List Filter, AreSound Constraint.Fits first →
        (do return first ++ (← parts fields)) = Except.ok fs → AreSound Constraint.Fits fs := by
      intro first hfirst hrest
      obtain ⟨others, hothers, hrest⟩ := Except.bind_eq_ok_iff.1 hrest
      obtain rfl := Except.ok.inj hrest
      exact Formula.areSound_append hfirst (areSound_of_parts fields others hothers)
    rw [parts] at h
    split at h
    · obtain ⟨first, hfirst, h⟩ := Except.bind_eq_ok_iff.1 h
      obtain ⟨f, hf, rfl⟩ := Except.map_eq_ok_iff.1 hfirst
      exact hsound [f] ⟨isSound_of_alternatives raw f hf, trivial⟩ h
    · obtain ⟨first, hfirst, h⟩ := Except.bind_eq_ok_iff.1 h
      obtain ⟨cs, hcs, rfl⟩ := Except.map_eq_ok_iff.1 hfirst
      exact hsound _ (areSound_atoms (constraints_fit hcs)) h

theorem isSound_of_alternatives : (raw : Json) → (f : Filter) → alternatives raw = .ok f →
    IsSound Constraint.Fits f
  | .array (item :: items), f, h => by
    rw [alternatives, Except.bind_eq_ok_iff] at h
    obtain ⟨first, hfirst, h⟩ := h
    obtain ⟨others, hothers, h⟩ := Except.bind_eq_ok_iff.1 h
    obtain rfl := Except.ok.inj h
    exact ⟨by simp, isSound_of_ofJson item first hfirst, areSound_of_items items others hothers⟩
  | .array [], f, h | .null, f, h | .bool _, f, h | .int _, f, h | .float _, f, h
  | .string _, f, h | .object _, f, h => by simp [alternatives] at h

theorem areSound_of_items : (items : List Json) → (fs : List Filter) →
    ofJsonItems items = .ok fs → AreSound Constraint.Fits fs
  | [], fs, h => by
    obtain rfl : [] = fs := by simpa [ofJsonItems] using h
    trivial
  | item :: items, fs, h => by
    rw [ofJsonItems, Except.bind_eq_ok_iff] at h
    obtain ⟨f, hf, h⟩ := h
    obtain ⟨others, hothers, h⟩ := Except.bind_eq_ok_iff.1 h
    obtain rfl := Except.ok.inj h
    exact ⟨isSound_of_ofJson item f hf, areSound_of_items items others hothers⟩

end

/-- A filter that is read from JSON is shaped. -/
theorem isShaped_of_ofJson (raw : Json) (f : Filter) (h : ofJson raw = .ok f) : f.IsShaped :=
  Formula.IsSound.imp f (isSound_of_ofJson raw f h) fun _ _ hfits => isShaped_of_fits hfits

/-! ## Compiled filters -/

/-- A filter that becomes no condition is true. -/
theorem eval_of_condition_none {scope : Scope} {f : Filter} (h : condition scope f = .ok none)
    (valuation : Constraint → Truth) : f.eval valuation = .true := by
  unfold condition at h
  split at h
  · next hempty => exact Formula.eval_of_isEmpty valuation f hempty
  · obtain ⟨c, -, h⟩ := Except.map_eq_ok_iff.1 h
    simp at h

/-- A shaped filter all of whose references mean columns is compiled to its comparisons of these
columns, without its empty branches. -/
theorem condition_eq {scope : Scope} {f : Filter} {ρ : String → ColumnRef} (h : f.IsShaped)
    (hρ : ∀ column ∈ f.columns, ∃ c, scope.resolveColumn column = .ok c ∧ c.ref = ρ column) :
    condition scope f
      = .ok (if f.isEmpty then none else some (f.prune.map (Constraint.testAt ρ))) := by
  have htests : IsSound (fun k => k.test scope = .ok (k.testAt ρ)) f.prune :=
    Formula.IsSound.prune f <| Formula.IsSound.imp f h fun k hk hshaped =>
      Constraint.test_eq hshaped (hρ k.column (List.mem_map_of_mem hk))
  unfold condition
  split
  · rfl
  · rw [Formula.mapM_eq_map f.prune htests]
    rfl

/-- **Compiling a filter keeps its meaning.** Filters that are read from JSON are shaped. A filter
that is compiled to nothing is true. A shaped filter whose references mean columns is compiled, and
the text of what it is compiled to, read with its parameters, has the truth value of the filter
whatever the truth values of the single comparisons are. -/
theorem readPredicate_condition :
    (∀ (raw : Json) (f : Filter), ofJson raw = .ok f → f.IsShaped)
    ∧ (∀ (scope : Scope) (f : Filter), condition scope f = .ok none →
        ∀ valuation, f.eval valuation = .true)
    ∧ ∀ (scope : Scope) (f : Filter) (ρ : String → ColumnRef), f.IsShaped →
        (∀ column ∈ f.columns, ∃ c, scope.resolveColumn column = .ok c ∧ c.ref = ρ column) →
        ∃ compiled, condition scope f = .ok compiled ∧ ∀ c ∈ compiled, ∃ e,
          Sql.readPredicate (Sql.render c.tokens) (Sql.parameters c.tokens) = some e
          ∧ ∀ valuation : Test → Truth,
              e.eval valuation = f.eval fun k => valuation (k.testAt ρ) := by
  refine ⟨isShaped_of_ofJson, fun scope f => eval_of_condition_none, ?_⟩
  intro scope f ρ h hρ
  refine ⟨_, condition_eq h hρ, ?_⟩
  intro c hc
  have hempty : f.isEmpty = false := by
    by_contra hne
    simp [hne] at hc
  obtain rfl : f.prune.map (Constraint.testAt ρ) = c := by simpa [hempty] using hc
  have hsound : IsSound Test.IsShaped (f.prune.map (Constraint.testAt ρ)) :=
    Formula.IsSound.map (fun k hk => Constraint.isShaped_testAt ρ hk) _
      (Formula.IsSound.prune f h)
  obtain ⟨e, hread, heval⟩ := Sql.Condition.readPredicate_render hsound
  refine ⟨e, hread, fun valuation => ?_⟩
  rw [heval, Formula.eval_map, Formula.eval_prune]

/-- A conjunction with a disjunction of conjunctions, one of which constrains nothing. -/
theorem readPredicate_condition_nested :
    let shot : Table := {
      name := "Shot"
      columns := [{ name := "id", type := .int }, { name := "na\"me", type := .string }] }
    let f : Filter := .all [
      .atom ⟨.like, "na\"me", .string "S?%"⟩,
      .any [.all [.atom ⟨.member, "Shot.id", .list [.int 1, .int 2]⟩, .atom ⟨.gt, "id", .int 2⟩],
        .all []]]
    ∃ compiled, condition ⟨shot, []⟩ f = .ok compiled ∧ ∀ c ∈ compiled, ∃ e,
      Sql.readPredicate (Sql.render c.tokens) (Sql.parameters c.tokens) = some e
      ∧ ∀ valuation : Test → Truth, e.eval valuation
          = f.eval fun k => valuation (k.testAt fun column =>
              ⟨"Shot", if column = "Shot.id" then "id" else column⟩) := by
  intro shot f
  refine readPredicate_condition.2.2 ⟨shot, []⟩ f _ ?_ ?_
  · simp [f, IsShaped, IsSound, AreSound, Constraint.IsShaped, Comparison.takesList, Value.isList]
  · intro column hcolumn
    have hcases : column = "na\"me" ∨ column = "Shot.id" ∨ column = "id" := by
      simpa [f, columns, Formula.atoms, Formula.atomsOf] using hcolumn
    rcases hcases with rfl | rfl | rfl
    · exact ⟨⟨shot, "Shot", shot.columns[1]⟩, by rfl, rfl⟩
    · exact ⟨⟨shot, "Shot", shot.columns[0]⟩, by rfl, rfl⟩
    · exact ⟨⟨shot, "Shot", shot.columns[0]⟩, by rfl, rfl⟩

end Filter

end Tabula
