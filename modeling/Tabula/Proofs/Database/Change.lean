import Tabula.Proofs.Database.Typed
import Tabula.Proofs.Store.Written

/-!
# Changed tables

What a step does to the tables of a typed database: it adds a row of accepted values to one of them,
sets rows of it to accepted values, or removes rows. Main statement: what such a change keeps of a
table, steps keep of all tables (`IsTyped.holds_of_steps`).
-/

namespace Tabula

open Store (Relation Row)
open Store.Relation (Assignment)

/-- What a step can do to a stored table. -/
inductive Table.Change (t : Table) (rel : Relation) : Relation → Prop
  | insert {rel' : Relation} {now id : Int64} {values : RowValues}
    (accepts : t.Accepts values) (insert_eq : rel.insert now values = .ok (rel', id)) :
    Change t rel rel'
  | update {rel' : Relation} {values : RowValues} {assignment : Assignment} {ids : List Int64}
    (accepts : t.Accepts values) (bind_eq : rel.bind values = .ok assignment)
    (update_eq : rel.updateRows assignment ids = .ok rel') : Change t rel rel'
  | filter (p : Row → Bool) : Change t rel { rel with rows := rel.rows.filter p }

theorem Table.Change.emptied {t : Table} {rel rel' : Relation} (h : t.Change rel rel') :
    rel'.emptied = rel.emptied := by
  cases h with
  | insert _ hinsert => exact Store.Relation.emptied_insert hinsert
  | update _ _ hupdate => exact Store.Relation.emptied_updateRows hupdate
  | filter p => rfl

namespace Database

variable {db db' : Database}

/-- Whether every table of the catalog of a database is stored with a property. -/
def Holds (db : Database) (P : Table → Relation → Prop) : Prop :=
  ∀ t, db.catalog.table? t.name = some t → ∃ rel, db.store.relation? t.name = some rel ∧ P t rel

theorem Holds.of_relation? {P : Table → Relation → Prop} (h : db.Holds P) {t : Table}
    (ht : db.catalog.table? t.name = some t) {rel : Relation}
    (hrel : db.store.relation? t.name = some rel) : P t rel := by
  obtain ⟨found, hfound, hholds⟩ := h t ht
  obtain rfl : found = rel := Option.some.inj (hfound.symm.trans hrel)
  exact hholds

namespace IsTyped

/-- **What a step does.** It leaves all tables as they are, or changes one of them. -/
theorem exists_change_of_step (h : db.IsTyped) (hstep : Step db db') :
    db'.store.relations = db.store.relations ∨
      ∃ t rel rel', db.catalog.table? t.name = some t ∧ db.store.relation? t.name = some rel ∧
        t.Change rel rel' ∧ db'.store.relations = (db.store.replace rel').relations := by
  cases hstep with
  | aside => exact .inl rfl
  | insert htable hplan hinsert =>
      obtain ⟨hvalues, rfl⟩ := Plan.insert_eq_ok hplan
      obtain ⟨rel, rel', id, hrel, hadded, rfl⟩ := Store.insert_eq_ok hinsert
      exact .inr ⟨_, rel, rel', h.table?_eq htable, hrel,
        .insert (Plan.exists_of_checkValues hvalues) hadded, rfl⟩
  | update hplan hupdate =>
      obtain ⟨t, condition, htable, hvalues, -, rfl⟩ := Plan.update_eq_ok hplan
      obtain ⟨rel, assignment, rows, arrangement, ids, rel', hrel, hbind, -, -, hset, rfl, -⟩ :=
        Store.update_eq_ok hupdate
      exact .inr ⟨t, rel, rel', h.table?_eq htable, hrel,
        .update (Plan.exists_of_checkValues hvalues) hbind hset, rfl⟩
  | delete hplan hdelete =>
      obtain ⟨t, condition, htable, -, rfl⟩ := Plan.delete_eq_ok hplan
      obtain ⟨rel, rows, arrangement, hrel, -, rfl, -⟩ := Store.delete_eq_ok hdelete
      exact .inr ⟨t, rel, _, h.table?_eq htable, hrel, .filter _, rfl⟩

/-- A table that is replaced takes its property along, and leaves that of all others. -/
theorem holds_of_replace (h : db.IsTyped) {P : Table → Relation → Prop} (hdb : db.Holds P)
    {t : Table} (ht : db.catalog.table? t.name = some t) {rel rel' : Relation}
    (hrel : db.store.relation? t.name = some rel) (hname : rel'.name = rel.name) (hnew : P t rel')
    {u : Table} (hu : db.catalog.table? u.name = some u) :
    ∃ found, (db.store.replace rel').relation? u.name = some found ∧ P u found := by
  obtain ⟨found, hfound, hold⟩ := hdb u hu
  rw [Store.relation?_replace, hname]
  by_cases hsame : Store.sameName rel.name u.name = true
  · rw [if_pos hsame, hfound]
    obtain rfl : t = u := by
      apply h.eq_of_sameName t u ht hu
      rw [← hsame, Store.sameName_congr (Store.sameName_of_relation? hrel)]
    exact ⟨rel', rfl, hnew⟩
  · rw [if_neg hsame]
    exact ⟨found, hfound, hold⟩

/-- What changes keep of tables, steps keep of all tables. -/
theorem holds_of_step {P : Table → Relation → Prop}
    (hP : ∀ t rel rel', t.IsConsistent → t.Types rel → t.Change rel rel' → P t rel → P t rel')
    (h : db.IsTyped) (hdb : db.Holds P) (hstep : Step db db') : db'.Holds P := by
  intro u hu
  rw [hstep.isBeside.catalog] at hu
  rcases h.exists_change_of_step hstep with heq | ⟨t, rel, rel', ht, hrel, hchange, heq⟩
  · obtain ⟨found, hfound, hholds⟩ := hdb u hu
    refine ⟨found, ?_, hholds⟩
    unfold Store.relation? at hfound ⊢
    rw [heq, hfound]
  · have hname : rel'.emptied.name = rel.emptied.name := congrArg Relation.name hchange.emptied
    have hname : rel'.name = rel.name := hname
    have hnew := hP t rel rel' (h.isConsistent t ht) (h.types_of_relation? ht hrel) hchange
      (hdb.of_relation? ht hrel)
    obtain ⟨found, hfound, hholds⟩ := h.holds_of_replace hdb ht hrel hname hnew hu
    refine ⟨found, ?_, hholds⟩
    unfold Store.relation? at hfound ⊢
    rw [heq, hfound]

/-- **What changes keep of tables, steps one after the other keep of all tables.** -/
theorem holds_of_steps {P : Table → Relation → Prop}
    (hP : ∀ t rel rel', t.IsConsistent → t.Types rel → t.Change rel rel' → P t rel → P t rel')
    (h : db.IsTyped) (hdb : db.Holds P) (hsteps : Steps db db') : db'.IsTyped ∧ db'.Holds P :=
  hsteps.keeps (P := fun db => db.IsTyped ∧ db.Holds P)
    (fun hstep h => ⟨h.1.step hstep, holds_of_step hP h.1 h.2 hstep⟩) ⟨h, hdb⟩

end IsTyped

end Database

end Tabula
