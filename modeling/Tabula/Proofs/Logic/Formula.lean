import Tabula.Logic.Formula
import Tabula.Proofs.Result

/-!
# Sound formulas

A formula is sound for a property of atoms if its atoms have the property and none of its
disjunctions is empty. Sound formulas stay sound when empty branches are dropped and when atoms are
changed, and changing atoms commutes with reading (`eval_map`).
-/

namespace Tabula.Formula

variable {α β : Type}

/-! ## Soundness -/

mutual

/-- Whether all atoms of a formula have a property and no disjunction in it is empty. -/
def IsSound (p : α → Prop) : Formula α → Prop
  | atom a => p a
  | all parts => AreSound p parts
  | any parts => parts ≠ [] ∧ AreSound p parts

/-- Whether all of some formulas are sound. -/
def AreSound (p : α → Prop) : List (Formula α) → Prop
  | [] => True
  | part :: parts => IsSound p part ∧ AreSound p parts

end

/-- Formulas one after the other are sound if the first ones and the others are. -/
theorem areSound_append {p : α → Prop} {as bs : List (Formula α)} (ha : AreSound p as)
    (hb : AreSound p bs) : AreSound p (as ++ bs) := by
  induction as with
  | nil => exact hb
  | cons a as ih =>
    simp only [AreSound] at ha
    exact ⟨ha.1, ih ha.2⟩

mutual

/-- A sound formula is sound for what the property means for its own atoms. -/
theorem IsSound.imp {p q : α → Prop} : (f : Formula α) → IsSound p f →
    (∀ a ∈ f.atoms, p a → q a) → IsSound q f
  | atom a, h, hq => hq a (by simp [atoms]) h
  | all parts, h, hq => AreSound.imp parts h hq
  | any parts, h, hq => ⟨h.1, AreSound.imp parts h.2 hq⟩

/-- So are the parts of a sound formula. -/
theorem AreSound.imp {p q : α → Prop} : (parts : List (Formula α)) → AreSound p parts →
    (∀ a ∈ atomsOf parts, p a → q a) → AreSound q parts
  | [], _, _ => trivial
  | part :: parts, h, hq =>
    ⟨IsSound.imp part h.1 fun a ha => hq a (by simp [atomsOf, ha]),
      AreSound.imp parts h.2 fun a ha => hq a (by simp [atomsOf, ha])⟩

end

mutual

/-- The atoms of a sound formula have the property. -/
theorem IsSound.of_mem_atoms {p : α → Prop} : (f : Formula α) → IsSound p f → ∀ a ∈ f.atoms, p a
  | atom b, h, a, ha => by
    obtain rfl := List.mem_singleton.1 ha
    exact h
  | all parts, h, a, ha => AreSound.of_mem_atoms parts h a ha
  | any parts, h, a, ha => AreSound.of_mem_atoms parts h.2 a ha

/-- The atoms of sound formulas have their property. -/
theorem AreSound.of_mem_atoms {p : α → Prop} : (parts : List (Formula α)) → AreSound p parts →
    ∀ a ∈ atomsOf parts, p a
  | [], _, a, ha => by cases ha
  | part :: parts, h, a, ha => by
    rcases List.mem_append.1 ha with ha | ha
    · exact IsSound.of_mem_atoms part h.1 a ha
    · exact AreSound.of_mem_atoms parts h.2 a ha

end

/-! ## Empty branches -/

mutual

/-- A sound formula is sound without its empty parts. -/
theorem IsSound.prune {p : α → Prop} : (f : Formula α) → IsSound p f → IsSound p f.prune
  | atom _, h => h
  | all parts, h => AreSound.pruneParts parts h
  | any [], h => absurd rfl h.1
  | any (part :: parts), h => ⟨by simp [pruneEach], AreSound.pruneEach (part :: parts) h.2⟩

theorem AreSound.pruneParts {p : α → Prop} : (parts : List (Formula α)) → AreSound p parts →
    AreSound p (pruneParts parts)
  | [], _ => trivial
  | part :: parts, h => by
    rw [Formula.pruneParts]
    split
    · exact AreSound.pruneParts parts h.2
    · exact ⟨IsSound.prune part h.1, AreSound.pruneParts parts h.2⟩

theorem AreSound.pruneEach {p : α → Prop} : (parts : List (Formula α)) → AreSound p parts →
    AreSound p (pruneEach parts)
  | [], _ => trivial
  | part :: parts, h => ⟨IsSound.prune part h.1, AreSound.pruneEach parts h.2⟩

end

/-! ## Changing atoms -/

mutual

/-- A changed formula is sound for what the property becomes. -/
theorem IsSound.map {p : α → Prop} {q : β → Prop} {g : α → β} (hg : ∀ a, p a → q (g a)) :
    (f : Formula α) → IsSound p f → IsSound q (f.map g)
  | atom a, h => hg a h
  | all parts, h => AreSound.mapParts hg parts h
  | any [], h => absurd rfl h.1
  | any (part :: parts), h => ⟨by simp [mapParts], AreSound.mapParts hg (part :: parts) h.2⟩

theorem AreSound.mapParts {p : α → Prop} {q : β → Prop} {g : α → β} (hg : ∀ a, p a → q (g a)) :
    (parts : List (Formula α)) → AreSound p parts → AreSound q (mapParts g parts)
  | [], _ => trivial
  | part :: parts, h => ⟨IsSound.map hg part h.1, AreSound.mapParts hg parts h.2⟩

end

mutual

/-- A formula with changed atoms reads as the formula with its atoms read after the change. -/
theorem eval_map (g : α → β) (valuation : β → Truth) :
    (f : Formula α) → eval valuation (f.map g) = eval (fun a => valuation (g a)) f
  | atom _ => by simp [map, eval]
  | all parts => by simpa [map, eval] using evalAll_mapParts g valuation parts
  | any parts => by simpa [map, eval] using evalAny_mapParts g valuation parts

theorem evalAll_mapParts (g : α → β) (valuation : β → Truth) : (parts : List (Formula α)) →
    evalAll valuation (mapParts g parts) = evalAll (fun a => valuation (g a)) parts
  | [] => by simp [mapParts, evalAll]
  | part :: parts => by
    simp [mapParts, evalAll, eval_map g valuation part, evalAll_mapParts g valuation parts]

theorem evalAny_mapParts (g : α → β) (valuation : β → Truth) : (parts : List (Formula α)) →
    evalAny valuation (mapParts g parts) = evalAny (fun a => valuation (g a)) parts
  | [] => by simp [mapParts, evalAny]
  | part :: parts => by
    simp [mapParts, evalAny, eval_map g valuation part, evalAny_mapParts g valuation parts]

end

mutual

/-- A change that cannot fail on the atoms of a formula changes the formula. -/
theorem mapM_eq_map {ε : Type} {t : α → Except ε β} {g : α → β} :
    (f : Formula α) → IsSound (fun a => t a = .ok (g a)) f → f.mapM t = .ok (f.map g)
  | atom a, h => by
    simp only [IsSound] at h
    rw [mapM, h]
    rfl
  | all parts, h => by
    rw [mapM, mapEach_eq_mapParts parts h]
    rfl
  | any parts, h => by
    rw [mapM, mapEach_eq_mapParts parts h.2]
    rfl

/-- So it changes the parts of a formula. -/
theorem mapEach_eq_mapParts {ε : Type} {t : α → Except ε β} {g : α → β} :
    (parts : List (Formula α)) → AreSound (fun a => t a = .ok (g a)) parts →
      mapEach t parts = .ok (mapParts g parts)
  | [], _ => rfl
  | part :: parts, h => by
    rw [mapEach, mapM_eq_map part h.1, mapEach_eq_mapParts parts h.2]
    rfl

end

/-- The parts of a formula are changed one by one. -/
theorem mapParts_eq_map (g : α → β) (parts : List (Formula α)) :
    mapParts g parts = parts.map (map g) := by
  induction parts with
  | nil => rfl
  | cons part parts ih => rw [mapParts, ih, List.map_cons]

mutual

/-- Changing atoms makes no formula empty. -/
theorem isEmpty_map (g : α → β) : (f : Formula α) → (f.map g).isEmpty = f.isEmpty
  | atom _ => rfl
  | all parts => allEmpty_mapParts g parts
  | any _ => rfl

theorem allEmpty_mapParts (g : α → β) : (parts : List (Formula α)) →
    allEmpty (mapParts g parts) = allEmpty parts
  | [] => rfl
  | part :: parts => by
    rw [mapParts, allEmpty, allEmpty, isEmpty_map g part, allEmpty_mapParts g parts]

end

mutual

/-- Changing atoms does not change which branches are empty. -/
theorem prune_map (g : α → β) : (f : Formula α) → (f.map g).prune = f.prune.map g
  | atom _ => rfl
  | all parts => by rw [map, Formula.prune, Formula.prune, map, pruneParts_mapParts g parts]
  | any parts => by rw [map, Formula.prune, Formula.prune, map, pruneEach_mapParts g parts]

theorem pruneParts_mapParts (g : α → β) : (parts : List (Formula α)) →
    Formula.pruneParts (mapParts g parts) = mapParts g (Formula.pruneParts parts)
  | [] => rfl
  | part :: parts => by
    rw [mapParts, Formula.pruneParts, Formula.pruneParts, isEmpty_map g part]
    split
    · exact pruneParts_mapParts g parts
    · rw [mapParts, prune_map g part, pruneParts_mapParts g parts]

theorem pruneEach_mapParts (g : α → β) : (parts : List (Formula α)) →
    Formula.pruneEach (mapParts g parts) = mapParts g (Formula.pruneEach parts)
  | [] => rfl
  | part :: parts => by
    rw [mapParts, Formula.pruneEach, Formula.pruneEach, mapParts, prune_map g part,
      pruneEach_mapParts g parts]

end

mutual

/-- A change that can fail may be made after one that cannot, if it gives there what the changed
atoms give. -/
theorem mapM_map {ε γ δ : Type} {t : α → Except ε β} {t' : γ → Except ε δ} {g : α → γ}
    {h : β → δ} (ht : ∀ a b, t a = .ok b → t' (g a) = .ok (h b)) : (f : Formula α) →
    {changed : Formula β} → f.mapM t = .ok changed → (f.map g).mapM t' = .ok (changed.map h)
  | atom a, changed, hchanged => by
    obtain ⟨b, hb, rfl⟩ := Except.map_eq_ok_iff.1 hchanged
    exact Except.map_eq_ok_iff.2 ⟨h b, ht a b hb, rfl⟩
  | all parts, changed, hchanged => by
    obtain ⟨fs, hfs, rfl⟩ := Except.map_eq_ok_iff.1 hchanged
    exact Except.map_eq_ok_iff.2 ⟨_, mapEach_mapParts ht parts hfs, rfl⟩
  | any parts, changed, hchanged => by
    obtain ⟨fs, hfs, rfl⟩ := Except.map_eq_ok_iff.1 hchanged
    exact Except.map_eq_ok_iff.2 ⟨_, mapEach_mapParts ht parts hfs, rfl⟩

theorem mapEach_mapParts {ε γ δ : Type} {t : α → Except ε β} {t' : γ → Except ε δ} {g : α → γ}
    {h : β → δ} (ht : ∀ a b, t a = .ok b → t' (g a) = .ok (h b)) : (parts : List (Formula α)) →
    {changed : List (Formula β)} → mapEach t parts = .ok changed →
      mapEach t' (mapParts g parts) = .ok (mapParts h changed)
  | [], changed, hchanged => by
    obtain rfl := Except.ok.inj hchanged
    rfl
  | part :: parts, changed, hchanged => by
    rw [mapEach] at hchanged
    obtain ⟨first, hfirst, hchanged⟩ := Except.bind_eq_ok_iff.1 hchanged
    obtain ⟨rest, hrest, hchanged⟩ := Except.bind_eq_ok_iff.1 hchanged
    obtain rfl := Except.ok.inj hchanged
    rw [mapParts, mapEach, mapM_map ht part hfirst, Except.ok_bind, mapEach_mapParts ht parts hrest]
    rfl

end

/-! ## Reading atom by atom -/

/-- The atoms of some formulas are those of each of them. -/
theorem mem_atomsOf_iff {a : α} {parts : List (Formula α)} :
    a ∈ atomsOf parts ↔ ∃ part ∈ parts, a ∈ part.atoms := by
  induction parts with
  | nil => simp [atomsOf]
  | cons part parts ih => simp [atomsOf, ih]

mutual

/-- A formula reads the same under valuations that agree on its atoms. -/
theorem eval_congr {v w : α → Truth} : (f : Formula α) → (∀ a ∈ f.atoms, v a = w a) →
    eval v f = eval w f
  | atom a, h => h a (by simp [atoms])
  | all parts, h => evalAll_congr parts h
  | any parts, h => evalAny_congr parts h

/-- So does a conjunction. -/
theorem evalAll_congr {v w : α → Truth} : (parts : List (Formula α)) →
    (∀ a ∈ atomsOf parts, v a = w a) → evalAll v parts = evalAll w parts
  | [], _ => rfl
  | part :: parts, h => by
    rw [evalAll, evalAll, eval_congr part fun a ha => h a (by simp [atomsOf, ha]),
      evalAll_congr parts fun a ha => h a (by simp [atomsOf, ha])]

/-- So does a disjunction. -/
theorem evalAny_congr {v w : α → Truth} : (parts : List (Formula α)) →
    (∀ a ∈ atomsOf parts, v a = w a) → evalAny v parts = evalAny w parts
  | [], _ => rfl
  | part :: parts, h => by
    rw [evalAny, evalAny, eval_congr part fun a ha => h a (by simp [atomsOf, ha]),
      evalAny_congr parts fun a ha => h a (by simp [atomsOf, ha])]

end

/-! ## Whether a formula holds -/

/-- A conjunction holds if all its parts do. -/
@[simp] theorem holds_evalAll {v : α → Truth} {parts : List (Formula α)} :
    (evalAll v parts).holds = parts.all fun f => (eval v f).holds := by
  induction parts with
  | nil => rfl
  | cons part parts ih => simp [evalAll, ih]

/-- A disjunction holds if one of its parts does. -/
@[simp] theorem holds_evalAny {v : α → Truth} {parts : List (Formula α)} :
    (evalAny v parts).holds = parts.any fun f => (eval v f).holds := by
  induction parts with
  | nil => rfl
  | cons part parts ih => simp [evalAny, ih]

mutual

/-- The atoms of a changed formula are the changed atoms. -/
theorem atoms_map (g : α → β) : (f : Formula α) → (f.map g).atoms = f.atoms.map g
  | atom _ => rfl
  | all parts => atomsOf_mapParts g parts
  | any parts => atomsOf_mapParts g parts

theorem atomsOf_mapParts (g : α → β) : (parts : List (Formula α)) →
    atomsOf (mapParts g parts) = (atomsOf parts).map g
  | [] => rfl
  | part :: parts => by
    rw [mapParts, atomsOf, atomsOf, List.map_append, atoms_map g part, atomsOf_mapParts g parts]

end

mutual

/-- An empty formula has no atoms. -/
theorem atoms_eq_nil : (f : Formula α) → f.isEmpty = true → f.atoms = []
  | atom _, h => by cases h
  | all parts, h => atomsOf_eq_nil parts h
  | any _, h => by cases h

/-- Empty parts have no atoms. -/
theorem atomsOf_eq_nil : (parts : List (Formula α)) → allEmpty parts = true → atomsOf parts = []
  | [], _ => rfl
  | part :: parts, h => by
    rw [allEmpty, Bool.and_eq_true] at h
    rw [atomsOf, atoms_eq_nil part h.1, atomsOf_eq_nil parts h.2, List.append_nil]

end

mutual

/-- Dropping empty branches drops no atoms. -/
theorem atoms_prune : (f : Formula α) → f.prune.atoms = f.atoms
  | atom _ => rfl
  | all parts => atomsOf_pruneParts parts
  | any parts => atomsOf_pruneEach parts

/-- Nor does dropping the empty parts of a conjunction. -/
theorem atomsOf_pruneParts : (parts : List (Formula α)) →
    atomsOf (Formula.pruneParts parts) = atomsOf parts
  | [] => rfl
  | part :: parts => by
    rw [Formula.pruneParts]
    split
    · next hempty =>
      rw [atomsOf, atoms_eq_nil part hempty, List.nil_append, atomsOf_pruneParts parts]
    · rw [atomsOf, atomsOf, atoms_prune part, atomsOf_pruneParts parts]

/-- Nor does dropping what is empty within the parts of a disjunction. -/
theorem atomsOf_pruneEach : (parts : List (Formula α)) →
    atomsOf (Formula.pruneEach parts) = atomsOf parts
  | [] => rfl
  | part :: parts => by
    rw [Formula.pruneEach, atomsOf, atomsOf, atoms_prune part, atomsOf_pruneEach parts]

end

/-! ## Nested branches -/

/-- Atoms of formulas one after the other stand one after the other. -/
theorem atomsOf_append (as bs : List (Formula α)) :
    atomsOf (as ++ bs) = atomsOf as ++ atomsOf bs := by
  induction as with
  | nil => rfl
  | cons a as ih => rw [List.cons_append, atomsOf, atomsOf, ih, List.append_assoc]

/-- Atoms by themselves are formulas whose atoms they are. -/
theorem atomsOf_map_atom (as : List α) : atomsOf (as.map atom) = as := by
  induction as with
  | nil => rfl
  | cons a as ih => rw [List.map_cons, atomsOf, ih, atoms, List.singleton_append]

/-- The conjuncts of a formula have its atoms. -/
@[simp] theorem atomsOf_conjuncts (f : Formula α) : atomsOf f.conjuncts = f.atoms := by
  cases f with
  | all parts => rfl
  | atom a => exact List.append_nil _
  | any parts => exact List.append_nil _

/-- So do its disjuncts. -/
@[simp] theorem atomsOf_disjuncts (f : Formula α) : atomsOf f.disjuncts = f.atoms := by
  cases f with
  | any parts => rfl
  | atom a => exact List.append_nil _
  | all parts => exact List.append_nil _

/-- A conjunction has the atoms of its parts. -/
theorem atoms_conjunction (parts : List (Formula α)) : (conjunction parts).atoms = atomsOf parts := by
  unfold conjunction
  split
  · exact (List.append_nil _).symm
  · rfl

/-- So has a disjunction. -/
theorem atoms_disjunction (parts : List (Formula α)) : (disjunction parts).atoms = atomsOf parts := by
  unfold disjunction
  split
  · exact (List.append_nil _).symm
  · rfl

mutual

/-- Flattening keeps the atoms. -/
theorem atoms_flatten : (f : Formula α) → f.flatten.atoms = f.atoms
  | atom _ => rfl
  | all parts => by rw [flatten, atoms_conjunction, atomsOf_flattenAll parts, atoms]
  | any parts => by rw [flatten, atoms_disjunction, atomsOf_flattenAny parts, atoms]

theorem atomsOf_flattenAll : (parts : List (Formula α)) →
    atomsOf (flattenAll parts) = atomsOf parts
  | [] => rfl
  | part :: parts => by
    rw [flattenAll, atomsOf_append, atomsOf_conjuncts, atoms_flatten part,
      atomsOf_flattenAll parts, atomsOf]

theorem atomsOf_flattenAny : (parts : List (Formula α)) →
    atomsOf (flattenAny parts) = atomsOf parts
  | [] => rfl
  | part :: parts => by
    rw [flattenAny, atomsOf_append, atomsOf_disjuncts, atoms_flatten part,
      atomsOf_flattenAny parts, atomsOf]

end

/-! ## Changes that can fail -/

mutual

/-- A changed formula reads as the formula if its atoms read as those that they were changed
into. -/
theorem eval_of_mapM {ε : Type} {t : α → Except ε β} {v : α → Truth} {w : β → Truth} :
    (f : Formula α) → {g : Formula β} → f.mapM t = .ok g →
      (∀ a ∈ f.atoms, ∀ b, t a = .ok b → w b = v a) → eval w g = eval v f
  | atom a, g, h, hw => by
    obtain ⟨b, hb, rfl⟩ := Except.map_eq_ok_iff.1 h
    exact hw a (List.mem_singleton.2 rfl) b hb
  | all parts, g, h, hw => by
    obtain ⟨changed, hchanged, rfl⟩ := Except.map_eq_ok_iff.1 h
    exact (evalAll_of_mapEach parts hchanged hw).1
  | any parts, g, h, hw => by
    obtain ⟨changed, hchanged, rfl⟩ := Except.map_eq_ok_iff.1 h
    exact (evalAll_of_mapEach parts hchanged hw).2

/-- So do changed conjunctions and disjunctions. -/
theorem evalAll_of_mapEach {ε : Type} {t : α → Except ε β} {v : α → Truth} {w : β → Truth} :
    (parts : List (Formula α)) → {changed : List (Formula β)} → mapEach t parts = .ok changed →
      (∀ a ∈ atomsOf parts, ∀ b, t a = .ok b → w b = v a) →
        evalAll w changed = evalAll v parts ∧ evalAny w changed = evalAny v parts
  | [], changed, h, _ => by
    obtain rfl := Except.ok.inj h
    exact ⟨rfl, rfl⟩
  | part :: parts, changed, h, hw => by
    rw [mapEach] at h
    obtain ⟨first, hfirst, h⟩ := Except.bind_eq_ok_iff.1 h
    obtain ⟨rest, hrest, h⟩ := Except.bind_eq_ok_iff.1 h
    obtain rfl := Except.ok.inj h
    have hone := eval_of_mapM part hfirst fun a ha => hw a (List.mem_append_left _ ha)
    obtain ⟨hall, hany⟩ := evalAll_of_mapEach parts hrest fun a ha =>
      hw a (List.mem_append_right _ ha)
    constructor
    · rw [evalAll, evalAll, hone, hall]
    · rw [evalAny, evalAny, hone, hany]

end

mutual

/-- A changed formula is sound for what the atoms of a sound one are changed into. -/
theorem IsSound.of_mapM {ε : Type} {t : α → Except ε β} {p : α → Prop} {q : β → Prop}
    (ht : ∀ a b, p a → t a = .ok b → q b) : (f : Formula α) → {g : Formula β} → IsSound p f →
      f.mapM t = .ok g → IsSound q g
  | atom a, g, hf, h => by
    obtain ⟨b, hb, rfl⟩ := Except.map_eq_ok_iff.1 h
    exact ht a b hf hb
  | all parts, g, hf, h => by
    obtain ⟨changed, hchanged, rfl⟩ := Except.map_eq_ok_iff.1 h
    exact (AreSound.of_mapEach ht parts hf hchanged).1
  | any parts, g, hf, h => by
    obtain ⟨changed, hchanged, rfl⟩ := Except.map_eq_ok_iff.1 h
    obtain ⟨hsound, hlength⟩ := AreSound.of_mapEach ht parts hf.2 hchanged
    refine ⟨?_, hsound⟩
    rintro rfl
    exact hf.1 (List.length_eq_zero_iff.1 hlength)

/-- Changed parts are sound, and as many. -/
theorem AreSound.of_mapEach {ε : Type} {t : α → Except ε β} {p : α → Prop} {q : β → Prop}
    (ht : ∀ a b, p a → t a = .ok b → q b) : (parts : List (Formula α)) →
    {changed : List (Formula β)} → AreSound p parts → mapEach t parts = .ok changed →
      AreSound q changed ∧ parts.length = changed.length
  | [], changed, _, h => by
    obtain rfl := Except.ok.inj h
    exact ⟨trivial, rfl⟩
  | part :: parts, changed, hparts, h => by
    rw [mapEach] at h
    obtain ⟨first, hfirst, h⟩ := Except.bind_eq_ok_iff.1 h
    obtain ⟨rest, hrest, h⟩ := Except.bind_eq_ok_iff.1 h
    obtain rfl := Except.ok.inj h
    obtain ⟨hsound, hlength⟩ := AreSound.of_mapEach ht parts hparts.2 hrest
    exact ⟨⟨IsSound.of_mapM ht part hparts.1 hfirst, hsound⟩, congrArg (· + 1) hlength⟩

end

mutual

/-- The atoms of a changed formula come from atoms of the formula. -/
theorem exists_of_mem_mapM {ε : Type} {t : α → Except ε β} : (f : Formula α) → {g : Formula β} →
    f.mapM t = .ok g → ∀ b ∈ g.atoms, ∃ a ∈ f.atoms, t a = .ok b
  | atom a, g, h, b, hb => by
    obtain ⟨changed, hchanged, rfl⟩ := Except.map_eq_ok_iff.1 h
    obtain rfl := List.mem_singleton.1 hb
    exact ⟨a, List.mem_singleton.2 rfl, hchanged⟩
  | all parts, g, h, b, hb => by
    obtain ⟨changed, hchanged, rfl⟩ := Except.map_eq_ok_iff.1 h
    exact exists_of_mem_mapEach parts hchanged b hb
  | any parts, g, h, b, hb => by
    obtain ⟨changed, hchanged, rfl⟩ := Except.map_eq_ok_iff.1 h
    exact exists_of_mem_mapEach parts hchanged b hb

/-- So do those of changed parts. -/
theorem exists_of_mem_mapEach {ε : Type} {t : α → Except ε β} : (parts : List (Formula α)) →
    {changed : List (Formula β)} → mapEach t parts = .ok changed →
      ∀ b ∈ atomsOf changed, ∃ a ∈ atomsOf parts, t a = .ok b
  | [], changed, h, b, hb => by
    obtain rfl := Except.ok.inj h
    cases hb
  | part :: parts, changed, h, b, hb => by
    rw [mapEach] at h
    obtain ⟨first, hfirst, h⟩ := Except.bind_eq_ok_iff.1 h
    obtain ⟨rest, hrest, h⟩ := Except.bind_eq_ok_iff.1 h
    obtain rfl := Except.ok.inj h
    rcases List.mem_append.1 hb with hb | hb
    · obtain ⟨a, ha, hat⟩ := exists_of_mem_mapM part hfirst b hb
      exact ⟨a, List.mem_append_left _ ha, hat⟩
    · obtain ⟨a, ha, hat⟩ := exists_of_mem_mapEach parts hrest b hb
      exact ⟨a, List.mem_append_right _ ha, hat⟩

end

mutual

/-- The atoms of a changed formula are those that the atoms of the formula are changed into, in the
same order. -/
theorem forall₂_atoms_of_mapM {ε : Type} {t : α → Except ε β} : (f : Formula α) →
    {g : Formula β} → f.mapM t = .ok g → List.Forall₂ (fun a b => t a = .ok b) f.atoms g.atoms
  | atom a, g, h => by
    obtain ⟨b, hb, rfl⟩ := Except.map_eq_ok_iff.1 h
    exact .cons hb .nil
  | all parts, g, h => by
    obtain ⟨changed, hchanged, rfl⟩ := Except.map_eq_ok_iff.1 h
    exact forall₂_atomsOf_of_mapEach parts hchanged
  | any parts, g, h => by
    obtain ⟨changed, hchanged, rfl⟩ := Except.map_eq_ok_iff.1 h
    exact forall₂_atomsOf_of_mapEach parts hchanged

/-- So are those of changed parts. -/
theorem forall₂_atomsOf_of_mapEach {ε : Type} {t : α → Except ε β} : (parts : List (Formula α)) →
    {changed : List (Formula β)} → mapEach t parts = .ok changed →
      List.Forall₂ (fun a b => t a = .ok b) (atomsOf parts) (atomsOf changed)
  | [], changed, h => by
    obtain rfl := Except.ok.inj h
    exact .nil
  | part :: parts, changed, h => by
    rw [mapEach] at h
    obtain ⟨first, hfirst, h⟩ := Except.bind_eq_ok_iff.1 h
    obtain ⟨rest, hrest, h⟩ := Except.bind_eq_ok_iff.1 h
    obtain rfl := Except.ok.inj h
    rw [atomsOf, atomsOf]
    exact List.rel_append (forall₂_atoms_of_mapM part hfirst)
      (forall₂_atomsOf_of_mapEach parts hrest)

end

mutual

/-- Changing a formula changes its atoms one after the other, and fails as that does. -/
theorem atoms_mapM {ε : Type} {t : α → Except ε β} :
    (f : Formula α) → atoms <$> f.mapM t = f.atoms.mapM t
  | atom a => by
    rw [mapM, atoms, Except.mapM_singleton]
    cases t a <;> rfl
  | all parts => by
    rw [mapM, atoms, ← atomsOf_mapEach parts]
    cases mapEach t parts <;> rfl
  | any parts => by
    rw [mapM, atoms, ← atomsOf_mapEach parts]
    cases mapEach t parts <;> rfl

theorem atomsOf_mapEach {ε : Type} {t : α → Except ε β} :
    (parts : List (Formula α)) → atomsOf <$> mapEach t parts = (atomsOf parts).mapM t
  | [] => rfl
  | part :: parts => by
    rw [mapEach, atomsOf, List.mapM_append, ← atoms_mapM part, ← atomsOf_mapEach parts]
    cases mapM t part with
    | error e => rfl
    | ok first => cases mapEach t parts <;> rfl

end

end Tabula.Formula
