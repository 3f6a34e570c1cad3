import Tabula.Proofs.Store.Access.Path
import Tabula.Proofs.Store.Choices
import Tabula.Proofs.Store.RowId

/-!
# Goals of a tour

The goals of a tour take the place of the conjuncts of a condition: some are answered by searches,
some by the branches of a disjunction one after the other, the others as they stand. Main statement:
a tour comes to every source once and its goals are met by the choices for which the conjuncts hold
(`isAnswer_tourOf`).
-/

namespace Tabula.Store.Access

open Formula (atomsOf)

variable {known later : Sources} {parts : List (Formula Atom)} {choice : Choice}

/-! ## Formulas of atoms -/

/-- The truth value of a formula of atoms for a choice of rows. -/
def truthOf (choice : Choice) (f : Formula Atom) : Truth := f.eval fun a => a.check.eval choice

/-- The places that a formula of atoms looks at. -/
def placesIn (f : Formula Atom) : List Place := f.atoms.flatMap (·.check.places)

/-- A goal that stands for a whole part has its truth. -/
theorem eval_plainly (choice : Choice) (f : Formula Atom) :
    (plainly f).eval (Goal.eval choice) = truthOf choice f :=
  Formula.eval_map _ _ f

/-- A disjunction holds if one of its branches does. -/
theorem holds_any (choice : Choice) (parts : List (Formula Atom)) :
    (truthOf choice (.any parts)).holds = parts.any fun f => (truthOf choice f).holds :=
  Formula.holds_evalAny

/-- A part holds if all its conjuncts do. -/
theorem holds_conjuncts (choice : Choice) (f : Formula Atom) :
    (f.conjuncts.all fun part => (truthOf choice part).holds) = (truthOf choice f).holds := by
  have h := Formula.evalAll_conjuncts (fun a : Atom => a.check.eval choice) f
  unfold truthOf
  rw [← h, Formula.holds_evalAll]

/-- A part holds if one of its disjuncts does. -/
theorem holds_disjuncts (choice : Choice) (f : Formula Atom) :
    (f.disjuncts.any fun part => (truthOf choice part).holds) = (truthOf choice f).holds := by
  have h := Formula.evalAny_disjuncts (fun a : Atom => a.check.eval choice) f
  unfold truthOf
  rw [← h, Formula.holds_evalAny]

/-- The atoms of a conjunct are atoms of the whole. -/
theorem mem_atoms_of_mem_conjuncts {f part : Formula Atom} (hpart : part ∈ f.conjuncts) {a : Atom}
    (ha : a ∈ part.atoms) : a ∈ f.atoms := by
  cases f with
  | all parts => exact Formula.mem_atomsOf_iff.2 ⟨part, hpart, ha⟩
  | atom b =>
      obtain rfl := List.mem_singleton.1 hpart
      exact ha
  | any parts =>
      obtain rfl := List.mem_singleton.1 hpart
      exact ha

/-- The atoms of a disjunct are atoms of the whole. -/
theorem mem_atoms_of_mem_disjuncts {f part : Formula Atom} (hpart : part ∈ f.disjuncts) {a : Atom}
    (ha : a ∈ part.atoms) : a ∈ f.atoms := by
  cases f with
  | any parts => exact Formula.mem_atomsOf_iff.2 ⟨part, hpart, ha⟩
  | atom b =>
      obtain rfl := List.mem_singleton.1 hpart
      exact ha
  | all parts =>
      obtain rfl := List.mem_singleton.1 hpart
      exact ha

/-! ## What leaves stand for -/

/-- A leaf that can be searched by a column of its check, as its check says. -/
def Leaf.IsProper (t : Leaf) : Prop :=
  ∀ probe, t.probe? = some probe → probe.column ∈ t.check.places ∧
    ∃ n, Narrowing.ofCheck? t.check = some n ∧ probe.narrowing.isLookup = n.isLookup

/-- Whether a check compares with a pattern. -/
def isTextual : Check → Bool
  | .value _ method _ | .column _ method _ => method.isTextual
  | .decided _ | .list _ _ _ => false

/-- Whether a check is drawn from a formula: it looks at no other places, and is one of the formula if
it compares with a pattern. -/
structure IsDrawn (check : Check) (f : Formula Atom) : Prop where
  places : ∀ p ∈ check.places, p ∈ placesIn f
  exists_atom : isTextual check = true → ∃ a ∈ f.atoms, a.check = check

/-- The check of an atom is drawn from each part with the atom. -/
theorem isDrawn_of_mem {f : Formula Atom} {a : Atom} (ha : a ∈ f.atoms) : IsDrawn a.check f :=
  ⟨fun _ hp => List.mem_flatMap.2 ⟨a, ha, hp⟩, fun _ => ⟨a, ha, rfl⟩⟩

/-- What is drawn from a part of a formula is drawn from the formula. -/
theorem IsDrawn.of_part {check : Check} {f part : Formula Atom} (h : IsDrawn check part)
    (hpart : ∀ a ∈ part.atoms, a ∈ f.atoms) : IsDrawn check f := by
  constructor
  · intro p hp
    obtain ⟨a, ha, hp⟩ := List.mem_flatMap.1 (h.places p hp)
    exact List.mem_flatMap.2 ⟨a, hpart a ha, hp⟩
  · intro htextual
    obtain ⟨a, ha, hcheck⟩ := h.exists_atom htextual
    exact ⟨a, hpart a ha, hcheck⟩

/-- Whether a formula holds of the choices for which a check is true, which is drawn from it and can be
searched if the checks of the formula can. -/
structure Amounts (check : Check) (f : Formula Atom) : Prop where
  isDrawn : IsDrawn check f
  isSearchable : ∀ choice, (∀ a ∈ f.atoms, a.check.IsSearchable choice) → check.IsSearchable choice
  holds : ∀ choice, (check.eval choice).holds = (truthOf choice f).holds

/-- A leaf that stands for the part at its position, if that is the position of a part. -/
structure Leaf.Stands (parts : List (Formula Atom)) (t : Leaf) : Prop where
  isProper : t.IsProper
  amounts : ∀ i, t.position.path = [i] → ∃ f, parts[i]? = some f ∧ Amounts t.check f

/-- A lookup is one from either side. -/
theorem isLookup_swap (n : Narrowing) : n.swap.isLookup = n.isLookup := by
  cases n <;> rfl

/-- The probes of an atom are for columns of its check. -/
theorem mem_probes {a : Atom} {probe : Probe} (h : probe ∈ probes known a) :
    probe.column ∈ a.check.places ∧
      ∃ n, Narrowing.ofCheck? a.check = some n ∧ probe.narrowing.isLookup = n.isLookup := by
  unfold probes at h
  split at h
  · simp at h
  · next n hn =>
      split at h
      · next l method r hcheck =>
          rw [hcheck] at hn ⊢
          have hstraight : l ∈ Check.places (.column l method r) := by simp [Check.places]
          have hturned : r ∈ Check.places (.column l method r) := by simp [Check.places]
          -- Each of two columns can be sought by the other, if the other is known by then.
          dsimp only at h
          split at h
          · rcases List.mem_cons.1 h with rfl | h
            · exact ⟨hstraight, n, hn, rfl⟩
            · obtain rfl := List.mem_singleton.1 h
              exact ⟨hturned, n, hn, isLookup_swap n⟩
          · obtain rfl := List.mem_singleton.1 h
            exact ⟨hstraight, n, hn, rfl⟩
          · obtain rfl := List.mem_singleton.1 h
            exact ⟨hturned, n, hn, isLookup_swap n⟩
          · simp at h
      · next l method cell hcheck =>
          rw [hcheck] at hn ⊢
          split at h
          · obtain rfl := List.mem_singleton.1 h
            exact ⟨by simp [Check.places, probeOf], n, hn, rfl⟩
          · simp at h
      · next l method cells hcheck =>
          rw [hcheck] at hn ⊢
          split at h
          · obtain rfl := List.mem_singleton.1 h
            exact ⟨by simp [Check.places, probeOf], n, hn, rfl⟩
          · simp at h
      · simp at h

/-- The leaves of an atom are proper, have its check and stand at its path. -/
theorem leavesOf_fst (known : Sources) (path : List Nat) (a : Atom) :
    (leavesOf known path a).1.check = a.check ∧ (leavesOf known path a).1.position.path = path ∧
      (leavesOf known path a).1.IsProper := by
  unfold leavesOf Leaf.IsProper
  dsimp only
  split
  · exact ⟨rfl, rfl, by simp⟩
  · next p hp =>
      refine ⟨rfl, rfl, ?_⟩
      intro probe hprobe
      obtain rfl : p = probe := Option.some.inj hprobe
      exact mem_probes (by rw [hp]; simp)
  · next p q rest hp =>
      refine ⟨rfl, rfl, ?_⟩
      intro probe hprobe
      obtain rfl : p = probe := Option.some.inj hprobe
      exact mem_probes (by rw [hp]; simp)

/-- The second leaf of an atom keeps its check and its place. -/
theorem leavesOf_snd {path : List Nat} {a : Atom} {t : Leaf}
    (h : (leavesOf known path a).2 = some t) :
    t.check = a.check ∧ t.position.path = path ∧ t.IsProper := by
  unfold leavesOf at h
  dsimp only at h
  split at h
  · cases h
  · cases h
  · next p q rest hp =>
      obtain rfl := Option.some.inj h
      refine ⟨rfl, rfl, ?_⟩
      intro probe hprobe
      obtain rfl : q = probe := Option.some.inj hprobe
      exact mem_probes (by rw [hp]; simp)

/-- The check of an atom amounts to it. -/
theorem amounts_atom (a : Atom) : Amounts a.check (.atom a) := by
  have ha : a ∈ (Formula.atom a).atoms := by simp [Formula.atoms]
  refine ⟨isDrawn_of_mem ha, ?_, ?_⟩
  · intro choice hsearchable
    exact hsearchable a ha
  · intro choice
    rfl

/-- Whether a branch asks for a column to be among one value. -/
def AsksFor (branch : Formula Atom) (value : Place × Cell) : Prop :=
  ∃ settled, branch = .atom ⟨.list value.1 .member [value.2], settled⟩

/-- A branch with a value asks for it. -/
theorem asksFor_of_valueOf? {branch : Formula Atom} {value : Place × Cell}
    (h : valueOf? branch = some value) : AsksFor branch value := by
  unfold valueOf? at h
  split at h
  · next p c settled =>
      obtain rfl := Option.some.inj h
      exact ⟨settled, rfl⟩
  · cases h

/-- Branches with values ask for these, one for each. -/
theorem asksFor_of_mapM {branches : List (Formula Atom)} {values : List (Place × Cell)}
    (h : branches.mapM valueOf? = some values) : List.Forall₂ AsksFor branches values := by
  induction branches generalizing values with
  | nil =>
      obtain rfl : [] = values := by simpa using h
      exact .nil
  | cons branch branches ih =>
      rw [List.mapM_cons] at h
      obtain ⟨value, hvalue, h⟩ := Option.bind_eq_some_iff.1 h
      obtain ⟨rest, hrest, h⟩ := Option.bind_eq_some_iff.1 h
      obtain rfl := Option.some.inj h
      exact .cons (asksFor_of_valueOf? hvalue) (ih hrest)

/-- Branches that ask for one column hold together when the column is among the values. -/
theorem holds_of_asksFor {branches : List (Formula Atom)} {values : List (Place × Cell)}
    (h : List.Forall₂ AsksFor branches values) {place : Place}
    (hplace : ∀ value ∈ values, value.1 = place) (choice : Choice) :
    ((Check.list place .member (values.map (·.2))).eval choice).holds
      = branches.any fun f => (truthOf choice f).holds := by
  simp only [Check.eval, Comparison.holdsOnList, holds_isAmong]
  induction h with
  | nil => simp
  | @cons branch value branches values hbranch _ ih =>
      obtain ⟨settled, rfl⟩ := hbranch
      have hrest := ih fun other hother => hplace other (by simp [hother])
      rw [List.any_cons, ← hrest, List.map_cons, List.map_cons, List.any_cons,
        Bool.and_or_distrib_left]
      congr 1
      simp [truthOf, Formula.eval, Check.eval, Comparison.holdsOnList, holds_isAmong,
        hplace value (by simp)]

/-- Branches that ask for one column can be searched together when each of them can. -/
theorem isSearchable_of_asksFor {branches : List (Formula Atom)} {values : List (Place × Cell)}
    (h : List.Forall₂ AsksFor branches values) {place : Place}
    (hplace : ∀ value ∈ values, value.1 = place) (hvalues : values ≠ []) {choice : Choice}
    (hsearchable : ∀ a ∈ Formula.atomsOf branches, a.check.IsSearchable choice) :
    (Check.list place .member (values.map (·.2))).IsSearchable choice := by
  have hone : ∀ value ∈ values, (Check.list place .member [value.2]).IsSearchable choice := by
    intro value hvalue
    obtain ⟨branch, hbranch, settled, rfl⟩ := h.exists_of_mem_right hvalue
    have hatom : (⟨.list value.1 .member [value.2], settled⟩ : Atom) ∈ Formula.atomsOf branches :=
      Formula.mem_atomsOf_iff.2 ⟨_, hbranch, List.mem_singleton.2 rfl⟩
    rw [← hplace value hvalue]
    exact hsearchable _ hatom
  obtain ⟨first, hfirst⟩ := List.exists_mem_of_ne_nil values hvalues
  refine ⟨(hone first hfirst).places, ?_⟩
  rw [Check.passesOver, decide_eq_true rfl, Bool.true_and, List.any_eq_false]
  intro c hc
  obtain ⟨value, hvalue, rfl⟩ := List.mem_map.1 hc
  simpa [Check.passesOver] using (hone value hvalue).passesOver_eq

/-- A disjunction of equalities of one column amounts to the column being among the values. -/
theorem amounts_listOf? {branches : List (Formula Atom)} {check : Check}
    (h : listOf? branches = some check) : Amounts check (.any branches) := by
  unfold listOf? at h
  obtain ⟨values, hvalues, h⟩ := Option.bind_eq_some_iff.1 h
  obtain ⟨⟨place, first⟩, hfirst, h⟩ := Option.bind_eq_some_iff.1 h
  dsimp only at h
  split at h
  · next hsame =>
      obtain rfl := Option.some.inj h
      have hplace : ∀ value ∈ values, value.1 = place := by
        simpa using hsame
      have hasks := asksFor_of_mapM hvalues
      have hsome : values ≠ [] := by
        rintro rfl
        cases hfirst
      refine ⟨⟨?_, nofun⟩, ?_, ?_⟩
      · intro p hp
        obtain rfl : p = place := by simpa [Check.places] using hp
        cases hasks with
        | nil => simp at hfirst
        | @cons branch value branches values hbranch _ =>
            obtain ⟨settled, rfl⟩ := hbranch
            refine List.mem_flatMap.2 ⟨⟨.list value.1 .member [value.2], settled⟩, ?_, ?_⟩
            · simp [Formula.atoms, Formula.atomsOf]
            · simp [Check.places, hplace value (by simp)]
      · intro choice hsearchable
        rw [Formula.atoms] at hsearchable
        exact isSearchable_of_asksFor hasks hplace hsome hsearchable
      · intro choice
        rw [holds_any, holds_of_asksFor hasks hplace]
  · cases h

/-! ## Leaves of a clause -/

/-- The terms of parts stand at their places. -/
theorem mem_termsOf {path : List Nat} {first : Nat} {parts : List (Formula Atom)} {t : Term}
    (h : t ∈ termsOf known path first parts) :
    ∃ k f, parts[k]? = some f ∧ t = termOf known (path ++ [first + k]) f := by
  induction parts generalizing first with
  | nil => simp [termsOf] at h
  | cons part parts ih =>
      rw [termsOf] at h
      rcases List.mem_cons.1 h with rfl | h
      · exact ⟨0, part, rfl, rfl⟩
      · obtain ⟨k, f, hf, rfl⟩ := ih h
        refine ⟨k + 1, f, by simpa using hf, ?_⟩
        rw [Nat.add_assoc, Nat.add_comm 1 k]

/-- A leaf stands for the part at whose place it is, if its check amounts to that. -/
theorem stands_of_path {t : Leaf} {i : Nat} {f : Formula Atom} (hproper : t.IsProper)
    (hpath : t.position.path = [i]) (hf : parts[i]? = some f) (hamounts : Amounts t.check f) :
    t.Stands parts := by
  refine ⟨hproper, ?_⟩
  intro j hj
  rw [hpath] at hj
  obtain rfl : i = j := by simpa using hj
  exact ⟨f, hf, hamounts⟩

/-- The comparisons of a clause stand for the conjuncts that they are written in or derived from. -/
theorem stands_of_mem_leaves {t : Leaf} (h : t ∈ (Clause.ofConjuncts known parts).leaves) :
    t.Stands parts := by
  unfold Clause.leaves Clause.ofConjuncts at h
  rw [branchOf, List.append_nil] at h
  obtain ⟨term, hterm, hleaf⟩ := List.mem_filterMap.1 h
  rcases List.mem_append.1 hterm with hterm | hterm
  · -- A comparison that is written in the clause.
    obtain ⟨k, f, hf, rfl⟩ := mem_termsOf hterm
    rw [List.nil_append, Nat.zero_add] at hleaf
    cases f with
    | atom a =>
        rw [termOf] at hleaf
        obtain rfl := Option.some.inj hleaf
        obtain ⟨hcheck, hpath, hproper⟩ := leavesOf_fst known [k] a
        exact stands_of_path hproper hpath hf (by rw [hcheck]; exact amounts_atom a)
    | all parts => cases hleaf
    | any parts => cases hleaf
  · -- One that is derived: a comparison the other way, or a list in place of a disjunction.
    unfold derivedTerms at hterm
    rw [List.mem_reverse] at hterm
    obtain ⟨⟨f, i⟩, hf, hterm⟩ := List.mem_filterMap.1 hterm
    obtain ⟨derived, hderived, rfl⟩ := Option.map_eq_some_iff.1 hterm
    obtain rfl := Option.some.inj hleaf
    have hf : parts[i]? = some f := by simpa [List.mem_zipIdx_iff_getElem?] using hf
    rw [List.nil_append] at hderived
    cases f with
    | atom a =>
        obtain ⟨hcheck, hpath, hproper⟩ := leavesOf_snd hderived
        exact stands_of_path hproper hpath hf (by rw [hcheck]; exact amounts_atom a)
    | all parts => cases hderived
    | any branches =>
        obtain ⟨check, hcheck, hderived⟩ := Option.bind_eq_some_iff.1 hderived
        dsimp only at hderived
        split at hderived
        · obtain rfl := Option.some.inj hderived
          obtain ⟨hsame, hpath, hproper⟩ := leavesOf_fst known [i] ⟨check, []⟩
          have hsame : ({ (leavesOf known [i] ⟨check, []⟩).1 with
              position := ⟨(leavesOf known [i] ⟨check, []⟩).1.position.path, true⟩ } : Leaf).check
                = check := hsame
          exact stands_of_path hproper hpath hf (by rw [hsame]; exact amounts_listOf? hcheck)
        · cases hderived

/-! ## Answers -/

/-- A goal that takes the place of a formula: its checks are drawn from the formula, and it is met by
the choices for which the formula holds as long as searches answer its checks. -/
structure IsAnswer (goal : Formula Goal) (f : Formula Atom) : Prop where
  isProper : AreProper goal
  isDrawn : ∀ g ∈ goal.atoms, IsDrawn g.check f
  holds : ∀ choice : Choice, (∀ a ∈ f.atoms, a.check.IsSearchable choice) →
    (goal.eval (Goal.eval choice)).holds = (truthOf choice f).holds

/-- A part by itself answers for itself. -/
theorem isAnswer_plainly (f : Formula Atom) : IsAnswer (plainly f) f := by
  have hatoms : (plainly f).atoms = f.atoms.map fun a => ⟨a.check, none⟩ := Formula.atoms_map _ f
  refine ⟨?_, ?_, ?_⟩
  · intro g hg
    rw [hatoms] at hg
    obtain ⟨a, -, rfl⟩ := List.mem_map.1 hg
    intro p hp
    cases hp
  · intro g hg
    rw [hatoms] at hg
    obtain ⟨a, ha, rfl⟩ := List.mem_map.1 hg
    exact isDrawn_of_mem ha
  · intro choice _
    rw [eval_plainly]

/-- The goal of a leaf has its check. -/
theorem check_goalOf (t : Leaf) : (goalOf t).check = t.check := by
  unfold goalOf
  split <;> rfl

/-- What the goal of a comparison seeks is a column of the comparison, and a row id is sought by
lookups only. -/
theorem sought_goalOf {t : Leaf} (hproper : t.IsProper) {column : Place}
    (h : (goalOf t).sought = some column) :
    column ∈ t.check.places ∧
      (column.slot = .rowId → ∃ n, Narrowing.ofCheck? t.check = some n ∧ n.isLookup = true) := by
  unfold goalOf at h
  split at h
  · cases h
  · next probe hprobe =>
      obtain ⟨hmem, n, hn, hlookup⟩ := hproper probe hprobe
      cases hslot : probe.column.slot with
      | rowId =>
          simp only [hslot, Option.ite_none_left_eq_some, Bool.not_eq_true, Bool.not_eq_false',
            Option.some.injEq] at h
          obtain ⟨hplain, rfl⟩ := h
          exact ⟨hmem, fun _ => ⟨n, hn, by rw [← hlookup, hplain]⟩⟩
      | field position =>
          simp only [hslot, Option.ite_none_left_eq_some, Option.some.injEq] at h
          obtain ⟨-, rfl⟩ := h
          exact ⟨hmem, fun hid => by rw [hslot] at hid; cases hid⟩

/-- The goal of a comparison answers what the comparison amounts to. -/
theorem isAnswer_goalOf {t : Leaf} (hproper : t.IsProper) {f : Formula Atom}
    (hamounts : Amounts t.check f) : IsAnswer (.atom (goalOf t)) f := by
  have hatoms : (Formula.atom (goalOf t)).atoms = [goalOf t] := by rw [Formula.atoms]
  refine ⟨?_, ?_, ?_⟩
  · intro g hg
    rw [hatoms] at hg
    obtain rfl := List.mem_singleton.1 hg
    intro column hcolumn
    rw [check_goalOf]
    exact (sought_goalOf hproper hcolumn).1
  · intro g hg
    rw [hatoms] at hg
    obtain rfl := List.mem_singleton.1 hg
    rw [check_goalOf]
    exact hamounts.isDrawn
  · intro choice hsearchable
    rw [← hamounts.holds]
    have hcheckSearchable := hamounts.isSearchable choice hsearchable
    show ((goalOf t).eval choice).holds = _
    unfold Goal.eval
    rw [check_goalOf]
    split
    · rfl
    · next column hcolumn =>
        -- A search finds just the rows of its check in a field; by row id, if it is a lookup.
        obtain ⟨hmem, hlookup⟩ := sought_goalOf hproper hcolumn
        cases hslot : column.slot with
        | field position => simp [Check.found, hslot]
        | rowId =>
            obtain ⟨n, hn, hlookup⟩ := hlookup hslot
            exact holds_found hmem hcheckSearchable hn hlookup

/-- Whether goals, given by the positions of parts, answer these parts. -/
def AreAnswers (parts : List (Formula Atom)) (answered : List (Nat × Formula Goal)) : Prop :=
  ∀ i goal, (i, goal) ∈ answered → ∀ f, parts[i]? = some f → IsAnswer goal f

/-- What terms answer for they stand for. -/
theorem areAnswers_answeredBy {terms : List Leaf} (h : ∀ t ∈ terms, t.Stands parts) :
    AreAnswers parts (answeredBy later terms) := by
  intro i goal hmem f hf
  obtain ⟨t, ht, hgoal⟩ := List.mem_filterMap.1 hmem
  split at hgoal
  · next j hpath =>
      split at hgoal
      · cases hgoal
      · obtain ⟨rfl, rfl⟩ := Prod.mk.inj (Option.some.inj hgoal)
        obtain ⟨g, hg, hamounts⟩ := (h t ht).amounts j hpath
        obtain rfl : g = f := by
          rw [hf] at hg
          exact (Option.some.inj hg).symm
        exact isAnswer_goalOf (h t ht).isProper hamounts
  · cases hgoal

/-- What is not answered stands as it is. -/
theorem isAnswer_lookup {answered : List (Nat × Formula Goal)} (h : AreAnswers parts answered)
    {i : Nat} {f : Formula Atom} (hf : parts[i]? = some f) :
    IsAnswer ((answered.lookup i).getD (plainly f)) f := by
  cases hlookup : answered.lookup i with
  | none => exact isAnswer_plainly f
  | some goal =>
      have hmem : (i, goal) ∈ answered := by
        clear h hf
        induction answered with
        | nil => cases hlookup
        | cons entry answered ih =>
            obtain ⟨j, other⟩ := entry
            rw [List.lookup_cons] at hlookup
            split at hlookup
            · next heq =>
                obtain rfl := Option.some.inj hlookup
                obtain rfl : i = j := by simpa using heq
                simp
            · exact List.mem_cons_of_mem _ (ih hlookup)
      exact h i goal hmem f hf

/-! ## Branches -/

/-- What a formula does not depend on, its parts do not depend on. -/
theorem meets_dependsOn {f part : Formula Atom} (h : ∀ a ∈ part.atoms, a ∈ f.atoms)
    (hf : (dependsOn f).meets later = false) : (dependsOn part).meets later = false := by
  rw [Bool.eq_false_iff] at hf ⊢
  intro hpart
  apply hf
  obtain ⟨n, hn, hlater⟩ := Sources.meets_iff.1 hpart
  refine Sources.meets_iff.2 ⟨n, ?_, hlater⟩
  rw [dependsOn, Sources.has_ofList] at hn ⊢
  obtain ⟨p, hp, rfl⟩ := List.mem_map.1 hn
  obtain ⟨a, ha, hp⟩ := List.mem_flatMap.1 hp
  exact List.mem_map.2 ⟨p, List.mem_flatMap.2 ⟨a, h a ha, hp⟩, rfl⟩

/-- A goal for part of what a formula asks for: for all of it if that does not depend on sources to
come later. -/
structure IsPartialAnswer (later : Sources) (goal : Formula Goal) (f : Formula Atom) : Prop where
  isProper : AreProper goal
  isDrawn : ∀ g ∈ goal.atoms, IsDrawn g.check f
  holds_of : ∀ choice : Choice, (∀ a ∈ f.atoms, a.check.IsSearchable choice) →
    (truthOf choice f).holds = true → (goal.eval (Goal.eval choice)).holds = true
  of_holds : (dependsOn f).meets later = false → ∀ choice : Choice,
    (∀ a ∈ f.atoms, a.check.IsSearchable choice) →
    (goal.eval (Goal.eval choice)).holds = true → (truthOf choice f).holds = true

/-- The goals of the conjuncts of a branch that do not depend on sources to come later. -/
def goalsOfBranch (later : Sources) (own : List (Formula Atom))
    (answered : List (Nat × Formula Goal)) : List (Formula Goal) :=
  own.zipIdx.filterMap fun (f, j) =>
    if (dependsOn f).meets later then none else some ((answered.lookup j).getD (plainly f))

section Branch

variable {branch : Formula Atom} {others : List (Formula Atom)}
  {answered : List (Nat × Formula Goal)}

/-- A conjunct is answered for by what is said about it, or else by itself. -/
theorem isAnswer_of_mem_conjuncts (h : AreAnswers (branch.conjuncts ++ others) answered) {j : Nat}
    {f : Formula Atom} (hf : branch.conjuncts[j]? = some f) :
    IsAnswer ((answered.lookup j).getD (plainly f)) f := by
  apply isAnswer_lookup h
  rw [List.getElem?_append_left (List.getElem?_eq_some_iff.1 hf).1, hf]

/-- Every goal of a branch answers one of its conjuncts. -/
theorem exists_of_mem_goalsOfBranch (h : AreAnswers (branch.conjuncts ++ others) answered)
    {goal : Formula Goal} (hgoal : goal ∈ goalsOfBranch later branch.conjuncts answered) :
    ∃ f ∈ branch.conjuncts, IsAnswer goal f := by
  obtain ⟨⟨f, j⟩, hf, hgoal⟩ := List.mem_filterMap.1 hgoal
  rw [List.mem_zipIdx_iff_getElem?] at hf
  dsimp only at hf hgoal
  split at hgoal
  · cases hgoal
  · obtain rfl := Option.some.inj hgoal
    exact ⟨f, List.mem_of_getElem? hf, isAnswer_of_mem_conjuncts h hf⟩

/-- The goals of a branch answer it in part. -/
theorem isPartialAnswer_branch (h : AreAnswers (branch.conjuncts ++ others) answered) :
    IsPartialAnswer later (.all (goalsOfBranch later branch.conjuncts answered)) branch := by
  have hatoms : ∀ f ∈ branch.conjuncts, ∀ a ∈ f.atoms, a ∈ branch.atoms :=
    fun f hf a ha => mem_atoms_of_mem_conjuncts hf ha
  have hmem : ∀ g ∈ (Formula.all (goalsOfBranch later branch.conjuncts answered)).atoms,
      ∃ goal ∈ goalsOfBranch later branch.conjuncts answered, g ∈ goal.atoms :=
    fun g hg => Formula.mem_atomsOf_iff.1 hg
  have hholds : ∀ choice : Choice,
      ((Formula.all (goalsOfBranch later branch.conjuncts answered)).eval (Goal.eval choice)).holds
        = (goalsOfBranch later branch.conjuncts answered).all
            fun goal => (goal.eval (Goal.eval choice)).holds :=
    fun choice => Formula.holds_evalAll
  refine ⟨?_, ?_, ?_, ?_⟩
  · intro g hg
    obtain ⟨goal, hmem, hg⟩ := hmem g hg
    obtain ⟨f, -, hf⟩ := exists_of_mem_goalsOfBranch h hmem
    exact hf.isProper g hg
  · intro g hg
    obtain ⟨goal, hmem, hg⟩ := hmem g hg
    obtain ⟨f, hown, hf⟩ := exists_of_mem_goalsOfBranch h hmem
    exact (hf.isDrawn g hg).of_part (hatoms f hown)
  · intro choice hsearchable hbranch
    rw [hholds, List.all_eq_true]
    rw [← holds_conjuncts, List.all_eq_true] at hbranch
    intro goal hmem
    obtain ⟨f, hown, hf⟩ := exists_of_mem_goalsOfBranch h hmem
    rw [hf.holds choice fun a ha => hsearchable a (hatoms f hown a ha)]
    exact hbranch f hown
  · -- If the branch depends on nothing to come later, then none of its conjuncts is left out.
    intro hlater choice hsearchable hgoals
    rw [hholds, List.all_eq_true] at hgoals
    rw [← holds_conjuncts, List.all_eq_true]
    intro f hown
    obtain ⟨j, hj⟩ := List.mem_iff_getElem?.1 hown
    have hanswer := isAnswer_of_mem_conjuncts h hj
    rw [← hanswer.holds choice fun a ha => hsearchable a (hatoms f hown a ha)]
    apply hgoals
    refine List.mem_filterMap.2 ⟨(f, j), List.mem_zipIdx_iff_getElem?.2 hj, ?_⟩
    simp [meets_dependsOn (hatoms f hown) hlater]

end Branch

/-- Partial answers to the branches of a disjunction are a partial answer to it. -/
theorem isPartialAnswer_any {whole : Formula Atom} {goal : Formula Atom → Formula Goal}
    (h : ∀ branch ∈ whole.disjuncts, IsPartialAnswer later (goal branch) branch) :
    IsPartialAnswer later (.any (whole.disjuncts.map goal)) whole := by
  have hatoms : ∀ f ∈ whole.disjuncts, ∀ a ∈ f.atoms, a ∈ whole.atoms :=
    fun f hf a ha => mem_atoms_of_mem_disjuncts hf ha
  have hmem : ∀ g ∈ (Formula.any (whole.disjuncts.map goal)).atoms,
      ∃ branch ∈ whole.disjuncts, g ∈ (goal branch).atoms := by
    intro g hg
    obtain ⟨_, hgoal, hg⟩ := Formula.mem_atomsOf_iff.1 hg
    obtain ⟨branch, hbranch, rfl⟩ := List.mem_map.1 hgoal
    exact ⟨branch, hbranch, hg⟩
  have hholds : ∀ choice : Choice,
      ((Formula.any (whole.disjuncts.map goal)).eval (Goal.eval choice)).holds
        = whole.disjuncts.any fun branch => ((goal branch).eval (Goal.eval choice)).holds := by
    intro choice
    rw [Formula.eval, Formula.holds_evalAny, List.any_map]
    rfl
  refine ⟨?_, ?_, ?_, ?_⟩
  · intro g hg
    obtain ⟨branch, hbranch, hg⟩ := hmem g hg
    exact (h branch hbranch).isProper g hg
  · intro g hg
    obtain ⟨branch, hbranch, hg⟩ := hmem g hg
    exact ((h branch hbranch).isDrawn g hg).of_part (hatoms branch hbranch)
  · intro choice hsearchable hwhole
    rw [hholds, List.any_eq_true]
    rw [← holds_disjuncts, List.any_eq_true] at hwhole
    obtain ⟨branch, hbranch, htrue⟩ := hwhole
    exact ⟨branch, hbranch, (h branch hbranch).holds_of choice
      (fun a ha => hsearchable a (hatoms branch hbranch a ha)) htrue⟩
  · intro hlater choice hsearchable hgoals
    rw [hholds, List.any_eq_true] at hgoals
    rw [← holds_disjuncts, List.any_eq_true]
    obtain ⟨branch, hbranch, htrue⟩ := hgoals
    exact ⟨branch, hbranch, (h branch hbranch).of_holds
      (meets_dependsOn (hatoms branch hbranch) hlater) choice
      (fun a ha => hsearchable a (hatoms branch hbranch a ha)) htrue⟩

/-- A partial answer becomes an answer when the formula itself is asked for as well, which is not
needed if it does not depend on sources to come later. -/
theorem isAnswer_of_isPartialAnswer {goal : Formula Goal} {f : Formula Atom} {isUntested : Bool}
    (h : IsPartialAnswer later goal f)
    (htested : isUntested = false → (dependsOn f).meets later = false) :
    IsAnswer (if isUntested then .all [goal, plainly f] else goal) f := by
  have hplainly := isAnswer_plainly f
  cases isUntested with
  | false =>
      refine ⟨h.isProper, h.isDrawn, ?_⟩
      intro choice hsearchable
      rw [Bool.eq_iff_iff]
      exact ⟨h.of_holds (htested rfl) choice hsearchable, h.holds_of choice hsearchable⟩
  | true =>
      have hatoms : ∀ g ∈ (Formula.all [goal, plainly f]).atoms,
          g ∈ goal.atoms ∨ g ∈ (plainly f).atoms := by
        intro g hg
        simpa [Formula.atoms, Formula.atomsOf] using hg
      refine ⟨?_, ?_, ?_⟩
      · intro g hg
        rcases hatoms g hg with hg | hg
        · exact h.isProper g hg
        · exact hplainly.isProper g hg
      · intro g hg
        rcases hatoms g hg with hg | hg
        · exact h.isDrawn g hg
        · exact hplainly.isDrawn g hg
      · intro choice hsearchable
        have hweak := h.holds_of choice hsearchable
        rw [if_pos rfl, Formula.eval, Formula.holds_evalAll, List.all_cons, List.all_cons,
          List.all_nil, Bool.and_true, eval_plainly]
        cases htruth : (truthOf choice f).holds with
        | true => rw [hweak htruth, Bool.and_true]
        | false => rw [Bool.and_false]

/-! ## Following routes -/

/-- The best path is made of routes that there are. -/
theorem mem_routes_of_mem_bestPath {p : Problem} {c : Clause} {count : Nat}
    {sorting : Option Estimate} {routes : List Route} {r : Route}
    (h : r ∈ (bestPath p c count sorting routes).routes) : r ∈ routes := by
  unfold bestPath at h
  by_cases hpaths : pathsAfter p c (keptPaths count) sorting routes count = []
  · rw [hpaths] at h
    simp [cheapest] at h
  · exact (isSound_of_mem_pathsAfter (cheapest_mem hpaths)).1.mem_routes r h

/-- The path to a single source goes by comparisons that stand for conjuncts. -/
theorem stands_of_bestPath {p : Problem} {source : Nat} {r : Route} {rest : List Route}
    (h : (bestPath p (.ofConjuncts known parts) 1 none
      (addRoutes p (.ofConjuncts known parts) false [] 0 source).1).routes = r :: rest) :
    ∀ t ∈ r.terms, t.Stands parts := by
  have hroutes := (Route.AreSound.nil (Clause.ofConjuncts known parts).leaves [source]).addRoutes
    p 0 false (List.mem_singleton.2 rfl) (by simp)
  have hr : r ∈ (addRoutes p (.ofConjuncts known parts) false [] 0 source).1 := by
    apply mem_routes_of_mem_bestPath
    rw [h]
    exact List.mem_cons_self
  intro t ht
  exact stands_of_mem_leaves ((hroutes.isSound r hr).terms t ht)

/-- **Following a route answers conjuncts.** Whatever a route goes by, the goals that take the place
of conjuncts are met by the choices for which the conjuncts hold. -/
theorem areAnswers_followRoute (p : Problem) (parts : List (Formula Atom))
    (placed later : Sources) (r : Route) (isReversed : Bool) (depth : Nat)
    (h : ∀ t ∈ r.terms, t.Stands parts) :
    AreAnswers parts (followRoute p parts placed later r isReversed depth).answered := by
  induction depth generalizing p parts placed r isReversed with
  | zero =>
      intro i goal hmem
      simp [followRoute] at hmem
  | succ depth ih =>
      rw [followRoute]
      split
      · exact areAnswers_answeredBy h
      · apply areAnswers_answeredBy
        intro t ht
        obtain ⟨route, hroute, ht⟩ := List.mem_flatMap.1 ht
        obtain ⟨-, -, hsound⟩ := isSound_automaticRoutes (List.mem_filter.1 hroute).1
        exact stands_of_mem_leaves (hsound.terms t ht)
      · next position _ =>
          intro i goal hmem f hf
          obtain ⟨rfl, rfl⟩ := Prod.mk.inj (List.mem_singleton.1 hmem)
          have hwhole : (parts[position.path.headD 0]?).getD (.all []) = f := by rw [hf]; rfl
          dsimp only
          rw [hwhole, List.map_map]
          apply isAnswer_of_isPartialAnswer
          · apply isPartialAnswer_any
            intro branch _
            apply isPartialAnswer_branch
            split
            · next route rest hroutes =>
                apply ih
                exact stands_of_bestPath hroutes
            · intro j other hother
              simp at hother
          · intro hfalse
            rw [List.any_cons, Bool.or_eq_false_iff] at hfalse
            exact hfalse.1

/-! ## Following a path -/

/-- A path has one leg for each route, to the same source. -/
theorem legs_followPath (p : Problem) (parts : List (Formula Atom)) (depth : Nat)
    (reversed : List Nat) (routes : List (Route × Nat)) (placed : Sources)
    (answered : List (Nat × Formula Goal)) :
    (followPath p parts depth reversed routes placed answered).legs.map Leg.source
      = routes.map (·.1.source) := by
  induction routes generalizing placed answered with
  | nil => rfl
  | cons route routes ih =>
      obtain ⟨r, place⟩ := route
      rw [followPath, List.map_cons, List.map_cons, ih]

/-- The goals of a path answer the conjuncts one by one. -/
theorem goals_followPath (p : Problem) (parts : List (Formula Atom)) (depth : Nat)
    (reversed : List Nat) (routes : List (Route × Nat)) (placed : Sources)
    (answered : List (Nat × Formula Goal))
    (hroutes : ∀ route ∈ routes, ∀ t ∈ route.1.terms, t.Stands parts)
    (hanswered : AreAnswers parts answered) :
    List.Forall₂ IsAnswer (followPath p parts depth reversed routes placed answered).goals parts := by
  induction routes generalizing placed answered with
  | nil =>
      rw [followPath, List.forall₂_iff_get]
      refine ⟨by simp, ?_⟩
      intro i hi hi'
      simp only [List.get_eq_getElem, List.getElem_map, List.getElem_zipIdx, Nat.zero_add]
      exact isAnswer_lookup hanswered (List.getElem?_eq_getElem hi')
  | cons route routes ih =>
      obtain ⟨r, place⟩ := route
      rw [followPath]
      apply ih
      · exact fun other hother => hroutes other (by simp [hother])
      · intro i goal hmem
        rcases List.mem_append.1 hmem with hmem | hmem
        · exact hanswered i goal hmem
        · exact areAnswers_followRoute _ _ _ _ _ _ _ (hroutes (r, place) (by simp)) i goal hmem

/-! ## Tours -/

/-- A part is bound by a term of the clause. -/
theorem mem_leaves_of_boundTo? {p : Problem} {c : Clause} {accepts : Narrowing → Bool}
    {isIndex : Bool} {part : Part} {t : Leaf} (h : boundTo? p c accepts isIndex part = some t) :
    t ∈ c.leaves := by
  unfold boundTo? at h
  obtain ⟨slot, -, h⟩ := Option.bind_eq_some_iff.1 h
  exact mem_leaves_of_mem_seekers (List.mem_of_find?_eq_some h)

/-- So are all parts of a key. -/
theorem mem_leaves_of_mapM {p : Problem} {c : Clause} {accepts : Narrowing → Bool}
    {isIndex : Bool} {keys : List Part} {terms : List Leaf}
    (h : keys.mapM (boundTo? p c accepts isIndex) = some terms) : ∀ t ∈ terms, t ∈ c.leaves := by
  induction keys generalizing terms with
  | nil =>
      obtain rfl : [] = terms := by simpa using h
      simp
  | cons key keys ih =>
      rw [List.mapM_cons] at h
      obtain ⟨t, ht, h⟩ := Option.bind_eq_some_iff.1 h
      obtain ⟨rest, hrest, h⟩ := Option.bind_eq_some_iff.1 h
      obtain rfl := Option.some.inj h
      intro u hu
      rcases List.mem_cons.1 hu with rfl | hu
      · exact mem_leaves_of_boundTo? ht
      · exact ih hrest u hu

/-- The path to a single row takes the one route of the one source. -/
theorem singlePath?_eq_some {p : Problem} {c : Clause} {path : Path}
    (h : singlePath? p c = some path) :
    p.relations.length = 1 ∧ path.sources = [0] ∧
      ∀ r ∈ path.routes, ∀ t ∈ r.terms, t ∈ c.leaves := by
  unfold singlePath? at h
  split at h
  · next rel hrelations =>
      obtain ⟨g, -, h⟩ := List.exists_of_findSome?_eq_some h
      obtain ⟨r, hr, rfl⟩ := Option.map_eq_some_iff.1 h
      unfold singleRoute? at hr
      dsimp only at hr
      split at hr
      · cases hr
      · obtain ⟨terms, hterms, hr⟩ := Option.bind_eq_some_iff.1 hr
        obtain rfl := Option.some.inj hr
        refine ⟨by rw [hrelations]; rfl, rfl, ?_⟩
        intro r hr
        obtain rfl := List.mem_singleton.1 hr
        exact mem_leaves_of_mapM hterms
  · cases h

/-- **A tour answers its conjuncts.** The tour of a problem comes to every source exactly once, and
its goals answer the conjuncts one by one. -/
theorem isAnswer_tourOf (p : Problem) (parts : List (Formula Atom)) :
    ((tourOf p parts).legs.map Leg.source).Perm (List.range p.relations.length) ∧
      List.Forall₂ IsAnswer (tourOf p parts).goals parts := by
  unfold tourOf
  dsimp only
  generalize hclause : Clause.ofConjuncts (.ofList (List.range p.relations.length)) parts = c
  have hleaves : ∀ t ∈ c.leaves, t.Stands parts := by
    intro t ht
    rw [← hclause] at ht
    exact stands_of_mem_leaves ht
  -- Any path does that comes to every source, if what it searches by stands in the clause.
  have hfollow : ∀ path : Path, path.sources.Perm (List.range p.relations.length) →
      (∀ r ∈ path.routes, ∀ t ∈ r.terms, t ∈ c.leaves) →
      ((followPath p parts ((parts.flatMap Formula.atoms).length + 1) path.reversed
          path.routes.zipIdx .none []).legs.map Leg.source).Perm (List.range p.relations.length) ∧
        List.Forall₂ IsAnswer (followPath p parts ((parts.flatMap Formula.atoms).length + 1)
          path.reversed path.routes.zipIdx .none []).goals parts := by
    intro path hpath hterms
    constructor
    · rw [legs_followPath]
      have hsources : path.routes.zipIdx.map (·.1.source) = path.sources := by
        rw [Path.sources, ← List.zipIdx_map_fst 0 path.routes, List.map_map, List.zipIdx_map_fst]
        rfl
      rw [hsources]
      exact hpath
    · apply goals_followPath
      · intro route hroute t ht
        exact hleaves t (hterms route.1 (List.fst_mem_of_mem_zipIdx hroute) t ht)
      · intro i goal hmem
        simp at hmem
  have hroutes := (Route.AreSound.nil c.leaves (List.range p.relations.length)).foldl_addRoutes p
    (List.range p.relations.length) 0 List.nodup_range (fun source hsource => ⟨hsource, by simp⟩)
  rw [List.append_nil] at hroutes
  have hchosen := choosePath_sources_perm (p := p) (c := c) hroutes
  -- The path is the lookup of one row if there is one, and else the best one.
  apply hfollow
  · split
    · next path hpath =>
        obtain ⟨hlength, hsources, -⟩ := singlePath?_eq_some hpath
        rw [hsources, hlength]
        exact .refl _
    · rw [List.length_range]
      exact hchosen.2
  · split
    · next path hpath => exact (singlePath?_eq_some hpath).2.2
    · intro r hr t ht
      rw [List.length_range] at hr
      exact (hroutes.isSound r (hchosen.1 r hr)).terms t ht

end Tabula.Store.Access
