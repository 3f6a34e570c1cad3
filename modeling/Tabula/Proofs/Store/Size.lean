import Mathlib.Data.List.Perm.Subperm
import Tabula.Proofs.Sql.Predicate
import Tabula.Proofs.Store.Tables

/-!
# Sizes of statements

When a statement about one table is too large. The names of a table that can be created have no zero
character in them, and its columns are not too many; so the statements that read, remove and set its
rows under a condition are too large only if the clause of the condition is, or if what is set comes
to too many parameters together with it (`Table.IsDefinable.checkSelect_eq`,
`Table.IsDefinable.checkDelete_eq`, `Table.IsDefinable.checkUpdate_eq`).
-/

namespace Tabula

open Sql (ColumnRef Condition Select Token bracketed commas parameters render words)

/-! ## Characters of tokens -/

namespace Sql

variable {tokens : List Token} {rows : List (List Token)} {t : Token} {c : Char}

/-- A character that is no blank is in the text of tokens if it is in one of them. -/
theorem mem_render_iff (hc : c ≠ ' ') :
    c ∈ (render tokens).toList ↔ ∃ t ∈ tokens, c ∈ t.spelling.toList := by
  induction tokens with
  | nil => simp [render]
  | cons t tokens ih =>
      cases tokens with
      | nil => simp [render]
      | cons u tokens =>
          have hblank :
              c ∉ (if (t.gluesRight || u.gluesLeft) = true then "" else " ").toList := by
            split <;> simp [hc]
          rw [render, String.toList_append, String.toList_append, List.mem_append, List.mem_append,
            ih, or_iff_left hblank]
          simp only [List.exists_mem_cons_iff]

theorem mem_commas_iff (ht : t ≠ .comma) : t ∈ commas rows ↔ ∃ row ∈ rows, t ∈ row := by
  cases rows with
  | nil => simp [commas, separated, List.intercalate]
  | cons row rows => simp [commas, separated_cons, ht]

theorem mem_quoteName_iff (hc : c ≠ '\x22') {s : String} :
    c ∈ (quoteName s).toList ↔ c ∈ s.toList := by
  have hdoubled : c ∈ doubled '\x22' s.toList ↔ c ∈ s.toList := by
    rw [← List.count_pos_iff, ← List.count_pos_iff, count_doubled, if_neg hc, Nat.one_mul]
  unfold quoteName enclosed
  rw [String.toList_ofList, List.mem_append, List.mem_cons, hdoubled]
  simp [hc]

/-- Whether tokens have no zero character in them, at which the text of a statement would end. -/
def AreLegible (tokens : List Token) : Prop := ∀ t ∈ tokens, '\x00' ∉ t.spelling.toList

instance (tokens : List Token) : Decidable (AreLegible tokens) :=
  inferInstanceAs (Decidable (∀ t ∈ tokens, '\x00' ∉ t.spelling.toList))

theorem areLegible_append {a b : List Token} :
    AreLegible (a ++ b) ↔ AreLegible a ∧ AreLegible b :=
  List.forall_mem_append

theorem areLegible_name {s : String} (h : '\x00' ∉ s.toList) : AreLegible [.name s] := by
  intro t ht
  obtain rfl := List.mem_singleton.1 ht
  rwa [← mem_quoteName_iff (by decide)] at h

theorem areLegible_commas (h : ∀ row ∈ rows, AreLegible row) : AreLegible (commas rows) := by
  intro t ht
  by_cases hcomma : t = .comma
  · subst hcomma
    decide
  · obtain ⟨row, hrow, ht⟩ := (mem_commas_iff hcomma).1 ht
    exact h row hrow t ht

end Sql

/-! ## Clauses -/

namespace Store

variable {before tokens : List Token} {condition : Option Condition}

/-- A statement can be read if its tokens are legible. -/
theorem checkReadable_eq_ok_iff : checkReadable tokens = .ok () ↔ Sql.AreLegible tokens := by
  have hmem : '\x00' ∈ (render tokens).toList ↔ ∃ t ∈ tokens, '\x00' ∈ t.spelling.toList :=
    Sql.mem_render_iff (by decide)
  unfold checkReadable
  by_cases hzero : (render tokens).toList.contains '\x00' = true
  · obtain ⟨t, ht, hc⟩ := hmem.1 (List.contains_iff_mem.1 hzero)
    rw [if_pos hzero]
    exact ⟨nofun, fun h => absurd hc (h t ht)⟩
  · rw [if_neg hzero]
    rw [List.contains_iff_mem, hmem] at hzero
    exact ⟨fun _ t ht hc => hzero ⟨t, ht, hc⟩, fun _ => rfl⟩

/-- What is in front of a clause can be read if it is legible. -/
theorem checkReadable_append (hbefore : Sql.AreLegible before) :
    checkReadable (before ++ tokens) = checkReadable tokens := by
  have hiff : checkReadable (before ++ tokens) = .ok () ↔ checkReadable tokens = .ok () := by
    rw [checkReadable_eq_ok_iff, checkReadable_eq_ok_iff, Sql.areLegible_append]
    exact and_iff_right hbefore
  unfold checkReadable at hiff ⊢
  split at hiff <;> split at hiff <;> simp_all

/-- Checks that a clause can be read, that it has not too many parameters together with so many
others, and that its condition is not too deep. -/
def checkClause (others : Nat) (condition : Option Condition) : Except Error Unit := do
  let tokens := Condition.clause condition
  checkReadable tokens
  checkCount (others + (parameters tokens).length) maxParameters .tooManyParameters
  Extent.check condition 0

/-- Parameters in front of a clause make no difference unless there are too many together. -/
theorem checkClause_cases (others : Nat) (condition : Option Condition) :
    checkClause others condition = checkClause 0 condition ∨
      maxParameters < others + (parameters (Condition.clause condition)).length ∧
        checkClause others condition = .error (.storage .tooManyParameters) := by
  by_cases hle : others + (parameters (Condition.clause condition)).length ≤ maxParameters
  · left
    have hle' : 0 + (parameters (Condition.clause condition)).length ≤ maxParameters := by omega
    unfold checkClause
    dsimp only
    rw [checkCount_eq_ok_iff.2 hle, checkCount_eq_ok_iff.2 hle']
  · cases hreadable : checkReadable (Condition.clause condition) with
    | error e =>
        left
        unfold checkClause
        dsimp only
        rw [hreadable]
        rfl
    | ok _ =>
        refine .inr ⟨Nat.lt_of_not_le hle, ?_⟩
        unfold checkClause checkCount
        dsimp only
        rw [hreadable, if_neg hle]
        rfl

end Store

/-! ## Tables that can be created -/

/-- Whether a table can be created. -/
def Table.IsDefinable (t : Table) : Prop :=
  ∃ s s' : Store, s.relation? t.name = none ∧
    s.define (.table t.name (t.columns.map Column.definition)) = .ok s'

/-- The statement that reads all columns of the rows of a table that meet a condition. -/
def Table.selectWhole (t : Table) (condition : Option Condition) : Select where
  columns := t.columns.map fun c => ⟨t.name, c.name⟩
  table := t.name
  joins := []
  condition := condition
  ordering := []
  limit := none

namespace Table.IsDefinable

variable {t : Table}

/-- The names of a table that can be created have no zero character in them, and there are not too
many columns. -/
theorem legible (h : t.IsDefinable) : '\x00' ∉ t.name.toList ∧
    (∀ c ∈ t.columns, '\x00' ∉ c.name.toList) ∧ t.columns.length ≤ Store.maxTerms := by
  obtain ⟨s, s', hfree, h⟩ := h
  obtain ⟨⟨⟩, hreadable, h⟩ := Except.bind_eq_ok_iff.1 h
  rw [Store.checkReadable_eq_ok_iff] at hreadable
  have hname {n : String} (hn : .name n ∈ (Sql.Definition.table t.name
      (t.columns.map Column.definition)).body) : '\x00' ∉ n.toList := by
    have hspelling := hreadable (.name n) (List.mem_append_right _ hn)
    rwa [Token.spelling, Sql.mem_quoteName_iff (by decide)] at hspelling
  refine ⟨hname List.mem_cons_self, fun c hc => hname ?_, ?_⟩
  -- The names of the columns are written in the definition, which has been read.
  · have hcolumn : .name c.name ∈ commas ((t.columns.map Column.definition).map
        Sql.ColumnDefinition.tokens) := by
      refine (Sql.mem_commas_iff (t := .name c.name) (by simp)).2 ⟨c.definition.tokens, ?_, ?_⟩
      · exact List.mem_map_of_mem (List.mem_map_of_mem hc)
      · exact List.mem_cons_self
    exact List.mem_cons_of_mem _ (List.mem_append_left _ (List.mem_cons_of_mem _ hcolumn))
  · obtain ⟨-, -, h⟩ := Except.bind_eq_ok_iff.1 h
    dsimp only at h
    split at h
    · cases h
    rw [hfree] at h
    split at h
    · next hused => cases hused
    split at h
    · cases h
    obtain ⟨⟨⟩, hfits, -⟩ := Except.bind_eq_ok_iff.1 h
    have hlength := ((Store.checkColumns_eq_ok_iff (Nat.zero_le _)).1 hfits).1
    simpa using hlength

/-- **A table can be read under a condition** if the clause of the condition is not too large. -/
theorem checkSelect_eq (h : t.IsDefinable) (condition : Option Condition) :
    Store.checkSelect (t.selectWhole condition) = Store.checkClause 0 condition := by
  obtain ⟨hname, hcolumns, hlength⟩ := h.legible
  -- What stands before the condition is legible, has no parameters, and is of no more columns than
  -- there may be; so only the condition is left to check.
  generalize hbefore : words ["SELECT"]
    ++ commas ((t.selectWhole condition).columns.map ColumnRef.tokens)
    ++ (words ["FROM"] ++ [.name t.name]) = before
  have htokens : (t.selectWhole condition).tokens = before ++ Condition.clause condition := by
    rw [← hbefore]
    simp [Table.selectWhole, Select.tokens, words]
  have hlegible : Sql.AreLegible before := by
    rw [← hbefore, Sql.areLegible_append, Sql.areLegible_append, Sql.areLegible_append]
    refine ⟨⟨by decide, Sql.areLegible_commas ?_⟩, by decide, Sql.areLegible_name hname⟩
    intro row hrow
    obtain ⟨ref, href, rfl⟩ := List.mem_map.1 hrow
    obtain ⟨c, hc, rfl⟩ := List.mem_map.1 href
    have htable := Sql.areLegible_name hname
    have hcolumn := Sql.areLegible_name (hcolumns c hc)
    have hdot : Sql.AreLegible [.dot] := by decide
    exact Sql.areLegible_append.2 ⟨htable, Sql.areLegible_append.2 ⟨hdot, hcolumn⟩⟩
  have hnone : parameters before = [] := by
    rw [← hbefore, Sql.parameters_append, Sql.parameters_append, Sql.parameters_append, commas,
      Sql.parameters_separated rfl, List.flatMap_map, Table.selectWhole, List.flatMap_map]
    simp [parameters, ColumnRef.tokens, words]
  have hcount : (t.selectWhole condition).columns.length ≤ Store.maxTerms := by
    rw [Table.selectWhole, List.length_map]
    exact hlength
  unfold Store.checkSelect Store.checkTokens Store.checkClause
  dsimp only
  rw [htokens, Store.checkReadable_append hlegible, Sql.parameters_append, hnone, List.nil_append,
    Store.checkCount_eq_ok_iff.2 hcount, Nat.zero_add, bind_assoc]
  rfl

/-- **Rows of a table can be removed under a condition** if its clause is not too large. -/
theorem checkDelete_eq (h : t.IsDefinable) (condition : Option Condition) :
    Store.checkDelete ⟨t.name, condition⟩ = Store.checkClause 0 condition := by
  have hlegible : Sql.AreLegible (words ["DELETE", "FROM"] ++ [.name t.name]) :=
    Sql.areLegible_append.2 ⟨by decide, Sql.areLegible_name h.legible.1⟩
  have hnone : parameters (words ["DELETE", "FROM"] ++ [.name t.name]) = [] := rfl
  have htokens : (Sql.Delete.mk t.name condition).tokens
      = words ["DELETE", "FROM"] ++ [.name t.name] ++ Condition.clause condition := rfl
  unfold Store.checkDelete Store.checkTokens Store.checkClause
  dsimp only
  rw [htokens, Store.checkReadable_append hlegible, Sql.parameters_append, hnone, List.nil_append,
    Nat.zero_add, bind_assoc]

/-- **Rows of a table can be set under a condition** if its clause is not too large, together with the
parameters for what is set. -/
theorem checkUpdate_eq (h : t.IsDefinable) {values : RowValues}
    (hcolumns : ∀ entry ∈ values, ∃ c ∈ t.columns, c.name = entry.1)
    (hnodup : (values.map (·.1)).Nodup) (condition : Option Condition) :
    Store.checkUpdate ⟨t.name, values, condition⟩ = Store.checkClause values.length condition := by
  obtain ⟨hname, hlegible, hlength⟩ := h.legible
  -- No more values are assigned than the table has columns, as each is for a column of its own.
  have hcount : values.length ≤ Store.maxTerms := by
    have hsubset : values.map (·.1) ⊆ t.columns.map Column.name := by
      intro name hmem
      obtain ⟨entry, hentry, rfl⟩ := List.mem_map.1 hmem
      obtain ⟨c, hc, hcname⟩ := hcolumns entry hentry
      exact List.mem_map.2 ⟨c, hc, hcname⟩
    have hle := (List.subperm_of_subset hnodup hsubset).length_le
    rw [List.length_map, List.length_map] at hle
    exact hle.trans hlength
  generalize hbefore : words ["UPDATE"] ++ [.name t.name] ++ words ["SET"]
    ++ commas (values.map fun entry => [.name entry.1, .word "=", .parameter entry.2]) = before
  have htokens : (Sql.Update.mk t.name values condition).tokens
      = before ++ Condition.clause condition := by
    rw [← hbefore]
    rfl
  have hbeforeLegible : Sql.AreLegible before := by
    rw [← hbefore, Sql.areLegible_append, Sql.areLegible_append, Sql.areLegible_append]
    refine ⟨⟨⟨by decide, Sql.areLegible_name hname⟩, by decide⟩, Sql.areLegible_commas ?_⟩
    intro row hrow
    obtain ⟨entry, hentry, rfl⟩ := List.mem_map.1 hrow
    obtain ⟨c, hc, hcname⟩ := hcolumns entry hentry
    have hcolumn := Sql.areLegible_name (hlegible c hc)
    rw [hcname] at hcolumn
    refine Sql.areLegible_append.2 ⟨hcolumn, ?_⟩
    intro token htoken
    rcases List.mem_cons.1 htoken with rfl | htoken
    · decide
    · obtain rfl := List.mem_singleton.1 htoken
      show '\x00' ∉ "?".toList
      decide
  have hparameters : (parameters before).length = values.length := by
    rw [← hbefore, Sql.parameters_append, Sql.parameters_append, Sql.parameters_append, commas,
      Sql.parameters_separated rfl, List.flatMap_map]
    simp [parameters, words]
  unfold Store.checkUpdate Store.checkTokens Store.checkClause
  dsimp only
  rw [htokens, Store.checkReadable_append hbeforeLegible, Sql.parameters_append, List.length_append,
    hparameters, Store.checkCount_eq_ok_iff.2 hcount, bind_assoc]
  rfl

end Table.IsDefinable

end Tabula
