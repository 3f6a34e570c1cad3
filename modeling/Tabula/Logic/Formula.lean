import Tabula.Logic.Truth

/-!
# Formulas

Conjunctions and disjunctions over atoms of any kind. A filter is a formula over comparisons that
name columns by reference, a statement's condition one over comparisons of resolved columns; both
are read by the same evaluator. Main statements: dropping the branches that constrain nothing
(`prune`) and merging nested branches (`flatten`) keep the truth value (`eval_prune`,
`eval_flatten`).
-/

namespace Tabula

/-- A formula over atoms. -/
inductive Formula (α : Type) where
  | atom (a : α)
  | all (parts : List (Formula α))
  | any (parts : List (Formula α))
  deriving Repr

namespace Formula

variable {α β : Type}

/-! ## Reading -/

mutual

/-- The truth value of a formula under a valuation of its atoms. -/
def eval (valuation : α → Truth) : Formula α → Truth
  | atom a => valuation a
  | all parts => evalAll valuation parts
  | any parts => evalAny valuation parts

/-- The conjunction of some formulas. -/
def evalAll (valuation : α → Truth) : List (Formula α) → Truth
  | [] => .true
  | part :: parts => (eval valuation part).and (evalAll valuation parts)

/-- The disjunction of some formulas. -/
def evalAny (valuation : α → Truth) : List (Formula α) → Truth
  | [] => .false
  | part :: parts => (eval valuation part).or (evalAny valuation parts)

end

mutual

/-- The atoms in order of appearance. -/
def atoms : Formula α → List α
  | atom a => [a]
  | all parts => atomsOf parts
  | any parts => atomsOf parts

/-- The atoms of some formulas in order of appearance. -/
def atomsOf : List (Formula α) → List α
  | [] => []
  | part :: parts => atoms part ++ atomsOf parts

end

/-! ## Empty branches -/

mutual

/-- Whether a formula is a conjunction that constrains nothing. -/
def isEmpty : Formula α → Bool
  | atom _ => false
  | all parts => allEmpty parts
  | any _ => false

/-- Whether none of some formulas constrains anything. -/
def allEmpty : List (Formula α) → Bool
  | [] => true
  | part :: parts => isEmpty part && allEmpty parts

end

mutual

/-- The formula without empty branches of conjunctions. An empty branch of a disjunction, which
makes it true, becomes the empty conjunction. -/
def prune : Formula α → Formula α
  | atom a => atom a
  | all parts => all (pruneParts parts)
  | any parts => any (pruneEach parts)

/-- The formulas that constrain something, each without its empty branches. -/
def pruneParts : List (Formula α) → List (Formula α)
  | [] => []
  | part :: parts => if isEmpty part then pruneParts parts else prune part :: pruneParts parts

/-- Every formula without its empty branches. -/
def pruneEach : List (Formula α) → List (Formula α)
  | [] => []
  | part :: parts => prune part :: pruneEach parts

end

mutual

/-- An empty formula is true. -/
theorem eval_of_isEmpty (valuation : α → Truth) :
    (f : Formula α) → isEmpty f = true → eval valuation f = .true
  | atom _, h => by simp [isEmpty] at h
  | any _, h => by simp [isEmpty] at h
  | all parts, h => by
    simp only [isEmpty] at h
    simpa only [eval] using evalAll_of_allEmpty valuation parts h

/-- Empty formulas are true together. -/
theorem evalAll_of_allEmpty (valuation : α → Truth) :
    (parts : List (Formula α)) → allEmpty parts = true → evalAll valuation parts = .true
  | [], _ => by simp [evalAll]
  | part :: parts, h => by
    simp only [allEmpty, Bool.and_eq_true] at h
    simp [evalAll, eval_of_isEmpty valuation part h.1, evalAll_of_allEmpty valuation parts h.2]

end

mutual

/-- Dropping empty branches keeps the truth value. -/
theorem eval_prune (valuation : α → Truth) :
    (f : Formula α) → eval valuation (prune f) = eval valuation f
  | atom _ => by simp [prune]
  | all parts => by simp [prune, eval, evalAll_pruneParts valuation parts]
  | any parts => by simp [prune, eval, evalAny_pruneEach valuation parts]

/-- Dropping empty parts keeps the conjunction. -/
theorem evalAll_pruneParts (valuation : α → Truth) :
    (parts : List (Formula α)) → evalAll valuation (pruneParts parts) = evalAll valuation parts
  | [] => by simp [pruneParts]
  | part :: parts => by
    by_cases h : isEmpty part = true
    · simp [pruneParts, evalAll, h, eval_of_isEmpty valuation part h,
        evalAll_pruneParts valuation parts]
    · simp [pruneParts, evalAll, h, eval_prune valuation part, evalAll_pruneParts valuation parts]

/-- Dropping empty branches inside each part keeps the disjunction. -/
theorem evalAny_pruneEach (valuation : α → Truth) :
    (parts : List (Formula α)) → evalAny valuation (pruneEach parts) = evalAny valuation parts
  | [] => by simp [pruneEach]
  | part :: parts => by
    simp [pruneEach, evalAny, eval_prune valuation part, evalAny_pruneEach valuation parts]

end

/-! ## Nested branches -/

/-- The parts of a conjunction; any other formula is the only part of itself. -/
def conjuncts : Formula α → List (Formula α)
  | all parts => parts
  | f => [f]

/-- The parts of a disjunction; any other formula is the only part of itself. -/
def disjuncts : Formula α → List (Formula α)
  | any parts => parts
  | f => [f]

/-- The conjunction of some formulas, which is the formula itself if there is only one. -/
def conjunction : List (Formula α) → Formula α
  | [f] => f
  | parts => all parts

/-- The disjunction of some formulas, which is the formula itself if there is only one. -/
def disjunction : List (Formula α) → Formula α
  | [f] => f
  | parts => any parts

mutual

/-- The formula in which no conjunction is part of a conjunction, no disjunction part of a
disjunction, and neither has a single part. -/
def flatten : Formula α → Formula α
  | atom a => atom a
  | all parts => conjunction (flattenAll parts)
  | any parts => disjunction (flattenAny parts)

/-- The conjuncts of some formulas, each flattened. -/
def flattenAll : List (Formula α) → List (Formula α)
  | [] => []
  | part :: parts => (flatten part).conjuncts ++ flattenAll parts

/-- The disjuncts of some formulas, each flattened. -/
def flattenAny : List (Formula α) → List (Formula α)
  | [] => []
  | part :: parts => (flatten part).disjuncts ++ flattenAny parts

end

/-- Conjunctions one after the other hold together. -/
theorem evalAll_append (valuation : α → Truth) (as bs : List (Formula α)) :
    evalAll valuation (as ++ bs) = (evalAll valuation as).and (evalAll valuation bs) := by
  induction as with
  | nil => simp [evalAll]
  | cons a as ih => simp [evalAll, ih, Truth.and_assoc]

/-- Of disjunctions one after the other one holds. -/
theorem evalAny_append (valuation : α → Truth) (as bs : List (Formula α)) :
    evalAny valuation (as ++ bs) = (evalAny valuation as).or (evalAny valuation bs) := by
  induction as with
  | nil => simp [evalAny]
  | cons a as ih => simp [evalAny, ih, Truth.or_assoc]

/-- A formula is the conjunction of its conjuncts. -/
@[simp] theorem evalAll_conjuncts (valuation : α → Truth) (f : Formula α) :
    evalAll valuation f.conjuncts = eval valuation f := by
  cases f <;> simp [conjuncts, evalAll, eval]

/-- A formula is the disjunction of its disjuncts. -/
@[simp] theorem evalAny_disjuncts (valuation : α → Truth) (f : Formula α) :
    evalAny valuation f.disjuncts = eval valuation f := by
  cases f <;> simp [disjuncts, evalAny, eval]

/-- A conjunction is true as its parts are together. -/
@[simp] theorem eval_conjunction (valuation : α → Truth) (parts : List (Formula α)) :
    eval valuation (conjunction parts) = evalAll valuation parts := by
  unfold conjunction
  split <;> simp [evalAll, eval]

/-- A disjunction is true as one of its parts is. -/
@[simp] theorem eval_disjunction (valuation : α → Truth) (parts : List (Formula α)) :
    eval valuation (disjunction parts) = evalAny valuation parts := by
  unfold disjunction
  split <;> simp [evalAny, eval]

mutual

/-- Flattening keeps the truth value. -/
theorem eval_flatten (valuation : α → Truth) :
    (f : Formula α) → eval valuation (flatten f) = eval valuation f
  | atom _ => by simp [flatten]
  | all parts => by simp [flatten, eval, evalAll_flattenAll valuation parts]
  | any parts => by simp [flatten, eval, evalAny_flattenAny valuation parts]

/-- Flattening the parts of a conjunction keeps its truth value. -/
theorem evalAll_flattenAll (valuation : α → Truth) :
    (parts : List (Formula α)) → evalAll valuation (flattenAll parts) = evalAll valuation parts
  | [] => by simp [flattenAll]
  | part :: parts => by
    simp [flattenAll, evalAll, evalAll_append, eval_flatten valuation part,
      evalAll_flattenAll valuation parts]

/-- Flattening the parts of a disjunction keeps its truth value. -/
theorem evalAny_flattenAny (valuation : α → Truth) :
    (parts : List (Formula α)) → evalAny valuation (flattenAny parts) = evalAny valuation parts
  | [] => by simp [flattenAny]
  | part :: parts => by
    simp [flattenAny, evalAny, evalAny_append, eval_flatten valuation part,
      evalAny_flattenAny valuation parts]

end

/-! ## Changing atoms -/

mutual

/-- The formula with its atoms changed. -/
def map (f : α → β) : Formula α → Formula β
  | atom a => atom (f a)
  | all parts => all (mapParts f parts)
  | any parts => any (mapParts f parts)

/-- The formulas with their atoms changed. -/
def mapParts (f : α → β) : List (Formula α) → List (Formula β)
  | [] => []
  | part :: parts => map f part :: mapParts f parts

end

mutual

/-- Changes every atom in order of appearance; the first failure counts. -/
def mapM {ε : Type} (f : α → Except ε β) : Formula α → Except ε (Formula β)
  | atom a => atom <$> f a
  | all parts => all <$> mapEach f parts
  | any parts => any <$> mapEach f parts

/-- Changes every atom of some formulas. -/
def mapEach {ε : Type} (f : α → Except ε β) : List (Formula α) → Except ε (List (Formula β))
  | [] => .ok []
  | part :: parts => do
    let changed ← mapM f part
    return changed :: (← mapEach f parts)

end

end Formula

end Tabula
