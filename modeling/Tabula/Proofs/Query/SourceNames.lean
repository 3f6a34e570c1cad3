import Tabula.Proofs.Query.Chain
import Tabula.Proofs.Query.JoinOrder

/-!
# The names of a statement's sources

A read statement names its base table and every step of every alias. The numbered name of a step on
the way is that of one step only, because no alias contains the mark before the number. Main
statement: the names of the sources are all different exactly if no two aliases are the same name
and the base table has neither the name of an alias nor that of a step (`pairwise_sourceNames_iff`).
-/

namespace Tabula

open Sql (JoinStep)
open Store (sameName sameName_comm sameName_iff)

/-! ## Small letters -/

/-- The mark is no capital letter's small letter. -/
theorem eq_mark_of_toLower {c : Char} (h : c.toLower = '#') : c = '#' := by
  unfold Char.toLower at h
  split at h
  · next hcapital =>
      have hlow : 65 ≤ c.val.toNat := UInt32.le_iff_toNat_le.1 hcapital.1
      have hhigh : c.val.toNat ≤ 90 := UInt32.le_iff_toNat_le.1 hcapital.2
      have hsum : (c.val.toNat + 32) % 2 ^ 32 = 35 := congrArg (fun c : Char => c.val.toNat) h
      omega
  · exact h

theorem toLower_of_isDigit {c : Char} (h : c.isDigit = true) : c.toLower = c := by
  have hhigh : c.val.toNat ≤ 57 := by
    unfold Char.isDigit at h
    simp only [Bool.and_eq_true, decide_eq_true_eq] at h
    exact UInt32.le_iff_toNat_le.1 h.2
  unfold Char.toLower
  rw [dif_neg]
  rintro ⟨hcapital, -⟩
  have hlow : 65 ≤ c.val.toNat := UInt32.le_iff_toNat_le.1 hcapital
  omega

namespace Join

variable {catalog : Catalog} {base : Table} {joins : JoinSpec} {p : JoinPlan} {a b : String}

/-! ## Numbered names -/

/-- The name of a step on the way is the alias, the mark and the number of the step. -/
theorem toList_stepAlias (a : String) (i : Nat) :
    (stepAlias a i false).toList = a.toList ++ '#' :: Nat.toDigits 10 i := by
  show (toString a ++ "#" ++ toString i).toList = _
  rw [String.toList_append, String.toList_append, Nat.toString_eq_repr, Nat.toList_repr,
    List.append_assoc]
  rfl

theorem toLower_stepAlias (a : String) (i : Nat) :
    (stepAlias a i false).toList.map Char.toLower
      = a.toList.map Char.toLower ++ '#' :: Nat.toDigits 10 i := by
  have hdigits : (Nat.toDigits 10 i).map Char.toLower = (Nat.toDigits 10 i).map id := by
    apply List.map_congr_left
    intro c hc
    exact toLower_of_isDigit (Nat.isDigit_of_mem_toDigits (by decide) (by decide) hc)
  rw [toList_stepAlias, List.map_append, List.map_cons, hdigits, List.map_id]
  rfl

/-- An alias has no mark in it, in small letters either. -/
theorem mark_notMem (h : isAlias a = true) : '#' ∉ a.toList.map Char.toLower := by
  intro hmem
  obtain ⟨c, hc, hlower⟩ := List.mem_map.1 hmem
  obtain rfl := eq_mark_of_toLower hlower
  simp [isAlias, hc] at h

/-- A step on the way does not have the name of an alias. -/
theorem sameName_stepAlias_alias (hb : isAlias b = true) (i : Nat) :
    sameName (stepAlias a i false) b = false := by
  rw [Bool.eq_false_iff]
  intro hsame
  rw [sameName_iff, toLower_stepAlias] at hsame
  apply mark_notMem hb
  rw [← hsame]
  exact List.mem_append_right _ List.mem_cons_self

/-- Steps on the way that have the same name are the same step of the same alias. -/
theorem eq_of_sameName_stepAlias (ha : isAlias a = true) {i j : Nat}
    (h : sameName (stepAlias a i false) (stepAlias b j false) = true) :
    sameName a b = true ∧ i = j := by
  have hdigits : '#' ∉ Nat.toDigits 10 i := fun hmem =>
    absurd (Nat.isDigit_of_mem_toDigits (by decide) (by decide) hmem) (by decide)
  rw [sameName_iff, toLower_stepAlias, toLower_stepAlias,
    List.append_cons_inj_of_notMem (mark_notMem ha) hdigits] at h
  obtain ⟨hname, -, hnumber⟩ := h
  refine ⟨sameName_iff.2 hname, ?_⟩
  calc
    i = Nat.ofDigitChars 10 (Nat.toDigits 10 i) 0 := Nat.ofDigitChars_ten_toDigits.symm
    _ = Nat.ofDigitChars 10 (Nat.toDigits 10 j) 0 := by rw [hnumber]
    _ = j := Nat.ofDigitChars_ten_toDigits

/-! ## Names of chains -/

/-- The names of a chain are those of its steps on the way, and the alias itself. -/
theorem mem_stepNames {steps : List (List String)} {index : Nat} {name : String} :
    name ∈ stepNames a index steps ↔
      (steps ≠ [] ∧ name = a) ∨
      ∃ i, index ≤ i ∧ i + 1 < index + steps.length ∧ name = stepAlias a i false := by
  induction steps generalizing index with
  | nil =>
      constructor
      · intro h
        cases h
      · rintro (⟨h, -⟩ | ⟨i, hlow, hhigh, -⟩)
        · exact absurd rfl h
        · rw [List.length_nil] at hhigh
          omega
  | cons step steps ih =>
      rw [stepNames, List.mem_cons, ih]
      cases steps with
      | nil =>
          constructor
          · rintro (rfl | ⟨h, -⟩ | ⟨i, hlow, hhigh, -⟩)
            · exact .inl ⟨List.cons_ne_nil _ _, rfl⟩
            · exact absurd rfl h
            · rw [List.length_nil] at hhigh
              omega
          · rintro (⟨-, rfl⟩ | ⟨i, hlow, hhigh, -⟩)
            · exact .inl rfl
            · rw [List.length_singleton] at hhigh
              omega
      | cons next rest =>
          simp only [List.length_cons]
          constructor
          · rintro (rfl | ⟨-, rfl⟩ | ⟨i, hlow, hhigh, rfl⟩)
            · exact .inr ⟨index, le_rfl, by omega, rfl⟩
            · exact .inl ⟨List.cons_ne_nil _ _, rfl⟩
            · exact .inr ⟨i, by omega, by omega, rfl⟩
          · rintro (⟨-, rfl⟩ | ⟨i, hlow, hhigh, rfl⟩)
            · exact .inr (.inl ⟨List.cons_ne_nil _ _, rfl⟩)
            · rcases Nat.eq_or_lt_of_le hlow with rfl | hlater
              · exact .inl rfl
              · exact .inr (.inr ⟨i, hlater, by omega, rfl⟩)

/-- The names of a chain are all different. -/
theorem pairwise_stepNames (ha : isAlias a = true) (steps : List (List String)) (index : Nat) :
    (stepNames a index steps).Pairwise fun n m => sameName n m = false := by
  induction steps generalizing index with
  | nil => exact .nil
  | cons step steps ih =>
      refine .cons ?_ (ih (index + 1))
      intro name hname
      cases steps with
      | nil => cases hname
      | cons next rest =>
          rcases mem_stepNames.1 hname with ⟨-, rfl⟩ | ⟨i, hlow, -, rfl⟩
          · exact sameName_stepAlias_alias ha index
          · rw [Bool.eq_false_iff]
            intro hsame
            have heq : index = i := (eq_of_sameName_stepAlias ha hsame).2
            omega

/-- Chains have a name in common only if their aliases are the same name. -/
theorem forall_stepNames_iff (ha : isAlias a = true) (hb : isAlias b = true)
    {steps steps' : List (List String)} (hsteps : steps ≠ []) (hsteps' : steps' ≠ []) :
    (∀ n ∈ stepNames a 0 steps, ∀ m ∈ stepNames b 0 steps', sameName n m = false) ↔
      sameName a b = false := by
  constructor
  · intro h
    exact h a (mem_stepNames.2 (.inl ⟨hsteps, rfl⟩)) b (mem_stepNames.2 (.inl ⟨hsteps', rfl⟩))
  · intro h n hn m hm
    rcases mem_stepNames.1 hn with ⟨-, rfl⟩ | ⟨i, -, -, rfl⟩
    · rcases mem_stepNames.1 hm with ⟨-, rfl⟩ | ⟨j, -, -, rfl⟩
      · exact h
      · rw [sameName_comm]
        exact sameName_stepAlias_alias ha j
    · rcases mem_stepNames.1 hm with ⟨-, rfl⟩ | ⟨j, -, -, rfl⟩
      · exact sameName_stepAlias_alias hb i
      · rw [Bool.eq_false_iff]
        intro hsame
        rw [(eq_of_sameName_stepAlias ha hsame).1] at h
        cases h

/-! ## Names of plans -/

theorem names_of_chain {aliasName source : String} {table last : Table} {index : Nat}
    {parts : List (List String)} {steps : List JoinStep}
    (h : chain catalog aliasName source table index parts = .ok (steps, last)) :
    steps.map JoinStep.aliasName = stepNames aliasName index parts := by
  induction parts generalizing source table index steps with
  | nil =>
      obtain ⟨rfl, -⟩ := Prod.mk.inj (Except.ok.inj h)
      rfl
  | cons part parts ih =>
      obtain ⟨first, joined, others, hfirst, hothers, rfl⟩ := chain_cons_eq_ok h
      obtain ⟨left, right, name, target, method, -, -, -, -, -, rfl⟩ := step_eq_ok hfirst
      rw [List.map_cons, ih hothers, stepNames]

/-- What a chain that is planned has: an alias, steps, and their names. -/
theorem names_of_planOne {entry : String × List (List String)}
    {q : List JoinStep × (String × Table)} (h : planOne catalog base entry = .ok q) :
    isAlias entry.1 = true ∧ entry.2 ≠ [] ∧
      q.1.map JoinStep.aliasName = stepNames entry.1 0 entry.2 := by
  unfold planOne at h
  obtain ⟨_, hcheck, h⟩ := Except.bind_eq_ok_iff.1 h
  split at h
  · cases h
  · next hsteps =>
      obtain ⟨⟨steps, last⟩, hchain, h⟩ := Except.bind_eq_ok_iff.1 h
      obtain rfl := Except.ok.inj h
      refine ⟨?_, by simpa using hsteps, names_of_chain hchain⟩
      unfold checkAlias at hcheck
      by_contra hnot
      rw [if_pos (by simpa using hnot)] at hcheck
      cases hcheck

/-- The names of a plan's steps are those of its chains. -/
theorem names_of_plan (h : plan catalog base joins = .ok p) :
    p.steps.map JoinStep.aliasName = joins.flatMap fun entry => stepNames entry.1 0 entry.2 := by
  obtain ⟨ps, hps, rfl⟩ := plan_eq_ok_iff.1 h
  have hall := Except.mapM_eq_ok_iff.1 hps
  clear hps h
  induction hall with
  | nil => rfl
  | cons hone _ ih =>
      rw [List.flatMap_cons, List.flatMap_cons, List.map_append, ih, (names_of_planOne hone).2.2]

/-- Every alias that is planned may be one, and has a chain. -/
theorem isAlias_of_plan (h : plan catalog base joins = .ok p) {entry : String × List (List String)}
    (hentry : entry ∈ joins) : isAlias entry.1 = true ∧ entry.2 ≠ [] := by
  obtain ⟨ps, hps, -⟩ := plan_eq_ok_iff.1 h
  obtain ⟨q, -, hq⟩ := (Except.mapM_eq_ok_iff.1 hps).exists_of_mem_left hentry
  exact ⟨(names_of_planOne hq).1, (names_of_planOne hq).2.1⟩

/-- **When the names of the sources are all different.** The names that a statement gives its
sources are different from each other exactly if no two aliases are the same name, and the base
table's name is neither that of an alias nor that of a step on the way. The names that steps on
the way are given never clash by themselves. -/
theorem pairwise_sourceNames_iff (h : plan catalog base joins = .ok p) :
    (base.name :: p.steps.map JoinStep.aliasName).Pairwise (fun n m => sameName n m = false) ↔
      (joins.map Prod.fst).Pairwise (fun a b => sameName a b = false) ∧
      ∀ entry ∈ joins, sameName base.name entry.1 = false ∧
        ∀ i, i + 1 < entry.2.length → sameName base.name (stepAlias entry.1 i false) = false := by
  have haliases : (joins.flatMap fun entry => stepNames entry.1 0 entry.2).Pairwise
      (fun n m => sameName n m = false) ↔
      (joins.map Prod.fst).Pairwise (fun a b => sameName a b = false) := by
    rw [List.pairwise_flatMap, List.pairwise_map]
    constructor
    · rintro ⟨-, hdiffer⟩
      refine hdiffer.imp_of_mem fun {x y} hx hy => ?_
      obtain ⟨hxname, hxsteps⟩ := isAlias_of_plan h hx
      obtain ⟨hyname, hysteps⟩ := isAlias_of_plan h hy
      exact (forall_stepNames_iff hxname hyname hxsteps hysteps).1
    · intro hdiffer
      refine ⟨fun entry hentry => pairwise_stepNames (isAlias_of_plan h hentry).1 _ _, ?_⟩
      refine hdiffer.imp_of_mem fun {x y} hx hy => ?_
      obtain ⟨hxname, hxsteps⟩ := isAlias_of_plan h hx
      obtain ⟨hyname, hysteps⟩ := isAlias_of_plan h hy
      exact (forall_stepNames_iff hxname hyname hxsteps hysteps).2
  rw [List.pairwise_cons, names_of_plan h, haliases, and_comm]
  refine and_congr_right fun _ => ?_
  constructor
  · intro hbase entry hentry
    have hname : ∀ n ∈ stepNames entry.1 0 entry.2, sameName base.name n = false :=
      fun n hn => hbase n (List.mem_flatMap.2 ⟨entry, hentry, hn⟩)
    refine ⟨hname _ (mem_stepNames.2 (.inl ⟨(isAlias_of_plan h hentry).2, rfl⟩)), fun i hi => ?_⟩
    exact hname _ (mem_stepNames.2 (.inr ⟨i, Nat.zero_le i, by omega, rfl⟩))
  · intro hbase n hn
    obtain ⟨entry, hentry, hn⟩ := List.mem_flatMap.1 hn
    rcases mem_stepNames.1 hn with ⟨-, rfl⟩ | ⟨i, -, hi, rfl⟩
    · exact (hbase entry hentry).1
    · exact (hbase entry hentry).2 i (by omega)

/-- Tables of which one refers to another, and one to itself, under a name that a step could have. -/
def linked : Catalog where
  entries := [
    ("Asset", { name := "Asset", columns := [{ name := "id", type := .int, isKey := true }] }),
    ("S#0", { name := "S#0", columns := [{ name := "next", type := .int, isKey := true }] }),
    ("Shot", { name := "Shot", columns := [{ name := "asset", type := .int, isKey := true }] })]

/-- Two steps to further rows by one alias, and one by another. -/
def linkedJoins : JoinSpec :=
  [("A", [["next", "eq", "S#0", "next"], ["next", "lt", "S#0", "next"]]),
    ("B", [["next", "eq", "Asset", "id"]])]

theorem pairwise_sourceNames_linked :
    ∃ base p, linked.table "S#0" = .ok base ∧ plan linked base linkedJoins = .ok p ∧
      (base.name :: p.steps.map JoinStep.aliasName).Pairwise (fun n m => sameName n m = false) := by
  obtain ⟨base, hbase⟩ : ∃ base, linked.table "S#0" = .ok base := ⟨_, rfl⟩
  have hname : base.name = "S#0" := by
    obtain rfl := Except.ok.inj hbase
    rfl
  obtain ⟨p, hplan⟩ : ∃ p, plan linked base linkedJoins = .ok p := by
    obtain rfl := Except.ok.inj hbase
    exact ⟨_, rfl⟩
  refine ⟨base, p, hbase, hplan, (pairwise_sourceNames_iff hplan).2 ⟨by decide, ?_⟩⟩
  rw [hname]
  intro entry hentry
  rcases List.mem_cons.1 hentry with rfl | hentry
  · refine ⟨by decide, fun i hi => ?_⟩
    obtain rfl : i = 0 := by
      have : i + 1 < 2 := hi
      omega
    decide
  · obtain rfl := List.mem_singleton.1 hentry
    exact ⟨by decide, fun i hi => absurd hi (by simp)⟩

/-- The alias of a join may be the base table's name in small letters, and the base table may have
the name of a step on the way: then two sources have the same name. -/
theorem not_pairwise_sourceNames :
    Catalog.build linked.tables = .ok linked ∧
    (∃ base p, linked.table "Shot" = .ok base ∧
      plan linked base [("shot", [["asset", "eq", "Asset", "id"]])] = .ok p ∧
      ¬ (base.name :: p.steps.map JoinStep.aliasName).Pairwise (fun n m => sameName n m = false)) ∧
    (∃ base p, linked.table "S#0" = .ok base ∧
      plan linked base [("S", [["next", "eq", "S#0", "next"], ["next", "eq", "S#0", "next"]])]
        = .ok p ∧
      ¬ (base.name :: p.steps.map JoinStep.aliasName).Pairwise (fun n m => sameName n m = false)) := by
  refine ⟨rfl, ⟨_, _, rfl, rfl, ?_⟩, ⟨_, _, rfl, rfl, ?_⟩⟩
  all_goals decide +kernel

end Join

end Tabula
