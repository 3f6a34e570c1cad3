import Tabula.Proofs.Store.Tables

/-!
# Statements of one table

A statement that changes rows has its form checked, finds its table, and puts another one in its place.
What it makes of the table is told here apart from where the table comes from and goes to. Main
statement: a statement that is carried out once more finds what it has put there (`revise_replace`).
-/

namespace Tabula.Store

/-- What a statement makes of its table, once its form is checked. -/
def revise {α : Type} (s : Store) (check : Except Error Unit) (name : String)
    (f : Relation → Except Error (Relation × α)) : Except Error (Relation × α) := do
  check
  f (← s.changeable name)

/-- What an update makes of a table; also gives the count of its rows. -/
def Relation.set (q : Sql.Update) (rel : Relation) : Except Error (Relation × Nat) := do
  let assignment ← rel.bind q.values
  let (rows, arrangement) ← matching rel q.condition
  let ids := rows.map Row.id
  let ordered := if staysPut (assignment.map (·.1)) arrangement then ids
    else ids.mergeSort fun a b => a ≤ b
  return (← rel.updateRows assignment ordered, rows.length)

/-- What a deletion makes of a table; also gives the count of the rows that are gone. -/
def Relation.remove (q : Sql.Delete) (rel : Relation) : Except Error (Relation × Nat) := do
  let (rows, _) ← matching rel q.condition
  let kept := rel.rows.filter fun r => !rows.any fun gone => gone.id = r.id
  return ({ rel with rows := kept }, rows.length)

variable {s : Store} {name : String} {rel rel' : Relation}

/-! ## The statements -/

/-- An insert statement revises its table, and gives the id of the new row. -/
theorem insert_eq_revise (s : Store) (q : Sql.Insert) :
    s.insert q = (fun p => { s.replace p.1 with lastId := p.2 }) <$>
      s.revise (checkTokens q.tokens) q.table fun rel => rel.insert s.now q.values := by
  simp only [insert, revise, map_eq_pure_bind, bind_assoc]

/-- An update statement revises its table. -/
theorem update_eq_revise (s : Store) (q : Sql.Update) :
    s.update q
      = (fun p => (s.replace p.1, p.2)) <$> s.revise (checkUpdate q) q.table (Relation.set q) := by
  simp only [update, revise, Relation.set, map_bind, map_pure]

/-- A delete statement revises its table. -/
theorem delete_eq_revise (s : Store) (q : Sql.Delete) :
    s.delete q
      = (fun p => (s.replace p.1, p.2)) <$> s.revise (checkDelete q) q.table (Relation.remove q) := by
  simp only [delete, revise, Relation.remove, map_bind, map_pure]

/-- Setting values changes nothing but rows. -/
theorem emptied_set {q : Sql.Update} {n : Nat}
    (h : rel.set q = .ok (rel', n)) : rel'.emptied = rel.emptied := by
  obtain ⟨assignment, -, h⟩ := Except.bind_eq_ok_iff.1 h
  obtain ⟨⟨rows, arrangement⟩, -, h⟩ := Except.bind_eq_ok_iff.1 h
  obtain ⟨updated, hupdated, h⟩ := Except.bind_eq_ok_iff.1 h
  obtain ⟨rfl, -⟩ := Prod.mk.inj (Except.ok.inj h)
  exact Relation.emptied_updateRows hupdated

/-- Removing rows changes nothing but rows. -/
theorem emptied_remove {q : Sql.Delete} {n : Nat}
    (h : rel.remove q = .ok (rel', n)) : rel'.emptied = rel.emptied := by
  obtain ⟨⟨rows, arrangement⟩, -, h⟩ := Except.bind_eq_ok_iff.1 h
  obtain ⟨rfl, -⟩ := Prod.mk.inj (Except.ok.inj h)
  rfl

/-! ## Once more -/

/-- A table can be changed only in a store that is sound and can be written. -/
theorem checks_of_changeable (h : s.changeable name = .ok rel) :
    s.checkSound = .ok () ∧ s.checkWritable = .ok () := by
  obtain ⟨found, hfound, h⟩ := Except.bind_eq_ok_iff.1 h
  obtain ⟨⟨⟩, hsound, -⟩ := Except.bind_eq_ok_iff.1 hfound
  dsimp only at h
  split at h
  · cases h
  · obtain ⟨⟨⟩, hwritable, -⟩ := Except.bind_eq_ok_iff.1 h
    exact ⟨hsound, hwritable⟩

/-- **What a statement makes of its table is what it finds when it is carried out once more.** -/
theorem revise_replace {α : Type} {check : Except Error Unit}
    {f : Relation → Except Error (Relation × α)} {a : α}
    (hf : ∀ rel rel' a, f rel = .ok (rel', a) → rel'.emptied = rel.emptied)
    (h : s.revise check name f = .ok (rel', a)) :
    ∃ rel, s.relation? name = some rel ∧ f rel = .ok (rel', a) ∧
      (s.replace rel').revise check name f = f rel' := by
  obtain ⟨⟨⟩, hcheck, h⟩ := Except.bind_eq_ok_iff.1 h
  obtain ⟨rel, hchangeable, h⟩ := Except.bind_eq_ok_iff.1 h
  have hrel := relation?_of_changeable hchangeable
  obtain ⟨hsound, hwritable⟩ := checks_of_changeable hchangeable
  have hname : rel'.emptied.name = rel.emptied.name := by rw [hf rel rel' a h]
  have hreplaced : (s.replace rel').changeable name = .ok rel' :=
    changeable_of_relation? hsound hwritable (relation?_replace_self hrel hname)
  refine ⟨rel, hrel, h, ?_⟩
  unfold revise
  rw [hcheck, Except.ok_bind, hreplaced, Except.ok_bind]

/-- Of two tables of one name that are put in its place, the later one stays. -/
theorem replace_replace (s : Store) {later : Relation} (h : sameName rel.name later.name = true) :
    (s.replace rel).replace later = s.replace later := by
  unfold replace
  simp only [List.map_map, Store.mk.injEq, and_true]
  refine List.map_congr_left fun old _ => ?_
  simp only [Function.comp_apply]
  by_cases hrel : sameName old.name rel.name = true
  · simp [hrel, h, sameName_congr hrel]
  · simp [hrel]

/-- Tables of different names can be put in their places in either order. -/
theorem replace_comm (s : Store) {other : Relation} (h : sameName rel.name other.name = false) :
    (s.replace rel).replace other = (s.replace other).replace rel := by
  have h' : sameName other.name rel.name = false := by rwa [sameName_comm]
  unfold replace
  simp only [List.map_map, Store.mk.injEq, and_true]
  refine List.map_congr_left fun old _ => ?_
  simp only [Function.comp_apply]
  by_cases hrel : sameName old.name rel.name = true
  · have hother : sameName old.name other.name = false := by rwa [sameName_congr hrel]
    simp [hrel, hother, h]
  · by_cases hother : sameName old.name other.name = true <;> simp [hrel, hother, h']

end Tabula.Store
