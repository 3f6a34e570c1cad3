import Tabula.Proofs.Store.Typed

/-!
# Rows that are written

What is in a row that was added or set, cell by cell, and which rows a table has afterwards. Main
statements: adding a row adds the one that is made of its values (`insert_eq_ok_iff`), setting rows one
after the other sets each of them as it was found (`perm_of_updateRows`), and what a column stores of
a value that it accepts is read as that value (`ColumnType.Keeps.toValue_eq`).
-/

namespace Tabula

open Store (Field Numeral Relation Row Slot isIdColumn sameName)
open Store.Relation (Assignment fill getElem?_rowOf idOfCell lastOf mem_of_lookup place)

/-! ## Values and cells -/

/-- Which values a column of a type accepts or is filled with, and the cell that each is stored as.
Numbers in a column of floats are floats, there is no negative zero, and what is not a number is null.
A text that is no numeral can be the default of a column of floats, and stays a text. -/
inductive ColumnType.Keeps : ColumnType → Value → Cell → Prop
  | null {type : ColumnType} : Keeps type .null .null
  | string (s : String) : Keeps .string (.string s) (.text s)
  | int (n : Int64) : Keeps .int (.int n) (.int n)
  | timestamp (n : Int64) : Keeps .timestamp (.int n) (.int n)
  | bool (b : Bool) : Keeps .bool (.bool b) (.int (if b then 1 else 0))
  | float (x : Float) (h : x.isNaN = false) : Keeps .float (.float x) (.real (if x == 0 then 0 else x))
  | nan (x : Float) (h : x.isNaN = true) : Keeps .float (.float x) .null
  | word (s : String) (h : Numeral.ofText? s = none) : Keeps .float (.string s) (.text s)
  | whole (n : Int64) : Keeps .float (.int n) (.real (Cell.floatOfInt n))

/-- A value as a column of a type gives it back. -/
def ColumnType.kept : ColumnType → Value → Value
  | .float, .int n => .float (Cell.floatOfInt n)
  | .float, .float x => if x.isNaN then .null else .float (if x == 0 then 0 else x)
  | _, v => v

namespace ColumnType

variable {type : ColumnType} {v : Value} {a b cell : Cell}

/-- A column keeps a value that it accepts, as its affinity stores it. -/
theorem keeps_store (haccepts : type.accepts v = true) (hcell : Cell.ofValue? v = some cell) :
    type.Keeps v ((Affinity.ofType type.sqlType).store cell) := by
  cases v with
  | null =>
      obtain rfl := Option.some.inj hcell
      cases type <;> exact .null
  | bool b =>
      obtain rfl := Option.some.inj hcell
      cases type with
      | bool => exact .bool b
      | _ => cases haccepts
  | int n =>
      obtain rfl := Option.some.inj hcell
      cases type with
      | int => exact .int n
      | timestamp => exact .timestamp n
      | float => exact .whole n
      | _ => cases haccepts
  | float x =>
      obtain rfl := Option.some.inj hcell
      cases type with
      | float =>
          unfold Cell.ofFloat
          split
          · next hnan => exact .nan x hnan
          · next hnumber =>
            have hkeeps := Keeps.float x (eq_false_of_ne_true hnumber)
            rw [apply_ite Cell.real] at hkeeps
            exact hkeeps
      | _ => cases haccepts
  | string s =>
      obtain rfl := Option.some.inj hcell
      cases type with
      | string => exact .string s
      | _ => cases haccepts
  | list items => cases hcell

/-- Only a list has no cell, and no column accepts one. -/
theorem exists_cell_of_accepts (haccepts : type.accepts v = true) :
    ∃ cell, Cell.ofValue? v = some cell := by
  cases v with
  | list items =>
      rw [accepts_list] at haccepts
      cases haccepts
  | _ => exact ⟨_, rfl⟩

namespace Keeps

/-- **What a column stores of a value is read as the value.** -/
theorem toValue_eq (h : type.Keeps v cell) : cell.toValue type = type.kept v := by
  cases h with
  | bool b => cases b <;> rfl
  | null => cases type <;> rfl
  | float x h =>
      rw [kept, if_neg (ne_true_of_eq_false h)]
      rfl
  | nan x h =>
      rw [kept, if_pos h]
      rfl
  | _ => rfl

end Keeps

/-- Whether a cell is what a column of a type stores of a value. -/
def Forms (type : ColumnType) (cell : Cell) : Prop := ∃ v, type.Keeps v cell

/-- Cells of a column that are read as one value are one cell. -/
theorem Forms.eq_of_toValue_eq (ha : type.Forms a) (hb : type.Forms b)
    (h : a.toValue type = b.toValue type) : a = b := by
  obtain ⟨v, ha⟩ := ha
  obtain ⟨w, hb⟩ := hb
  cases ha <;> cases hb <;> simp_all [Cell.toValue]

end ColumnType

/-- The cell that a column is filled with where a row leaves it out. -/
def Column.filled (c : Column) (now : Int64) : Cell := fill now (Store.field c.definition)

/-- What a column is filled with keeps its default value. -/
theorem Column.exists_keeps_filled {c : Column} (hfits : c.defaultFits = true) (now : Int64) :
    ∃ v, c.IsDefault v ∧ c.type.Keeps v (c.filled now) := by
  obtain ⟨v, cell, hdefault, hfills, hcell, hfilled⟩ := c.exists_filled hfits now
  refine ⟨v, hdefault, ?_⟩
  rw [filled, hfilled]
  cases hfills with
  | accepted haccepts => exact ColumnType.keeps_store haccepts hcell
  | @word s hword htype hs =>
      obtain rfl := Option.some.inj hcell
      rw [htype, ColumnType.store_word hs]
      exact .word s hs

/-- What a column is filled with is a form of its type. -/
theorem Column.forms_filled {c : Column} (hfits : c.defaultFits = true) (now : Int64) :
    c.type.Forms (c.filled now) := by
  obtain ⟨v, -, hkeeps⟩ := c.exists_keeps_filled hfits now
  exact ⟨v, hkeeps⟩

/-! ## Rows -/

namespace Store.Relation

variable {rel rel' : Relation} {now id : Int64} {values : RowValues} {assignment : Assignment}
  {r new : Row} {j : Nat} {f : Field}

/-- The row that is added for an assignment. -/
def addedRow (rel : Relation) (now : Int64) (assignment : Assignment) (id : Int64) : Row :=
  rel.rowOf id (rel.fields.zipIdx.map fun (f, i) =>
    match assignment.lookup (.field i) with
    | some c => f.affinity.store c
    | none => fill now f)

/-- The id that a row has once cells of it are set. -/
def changedId (assignment : Assignment) (r : Row) : Int64 :=
  match lastOf assignment .rowId with
  | some c => (idOfCell c).toOption.getD r.id
  | none => r.id

/-- A row with the cells of an assignment set. -/
def changedRow (rel : Relation) (assignment : Assignment) (r : Row) : Row :=
  rel.rowOf (changedId assignment r) ((rel.fields.zip r.cells).zipIdx.map fun ((f, old), i) =>
    match lastOf assignment (.field i) with
    | some c => f.affinity.store c
    | none => old)

@[simp] theorem id_rowOf (rel : Relation) (id : Int64) (cells : List Cell) :
    (rel.rowOf id cells).id = id := by
  unfold rowOf
  split <;> rfl

theorem length_rowOf (rel : Relation) (id : Int64) (cells : List Cell) :
    (rel.rowOf id cells).cells.length = cells.length := by
  unfold rowOf
  split
  · exact List.length_set
  · rfl

/-- **What adding a row does.** -/
theorem insert_eq_ok_iff : rel.insert now values = .ok (rel', id) ↔
    ∃ assignment, rel.bind values = .ok assignment ∧ rel.newId assignment = .ok id ∧
      rel.checkRow rel.rows (rel.addedRow now assignment id) = .ok () ∧
      rel' = { rel with rows := place (rel.addedRow now assignment id) rel.rows } := by
  constructor
  · intro h
    obtain ⟨assignment, hbind, h⟩ := Except.bind_eq_ok_iff.1 h
    obtain ⟨n, hid, h⟩ := Except.bind_eq_ok_iff.1 h
    obtain ⟨⟨⟩, hcheck, h⟩ := Except.bind_eq_ok_iff.1 h
    obtain ⟨rfl, rfl⟩ := Prod.mk.inj (Except.ok.inj h)
    exact ⟨assignment, hbind, hid, hcheck, rfl⟩
  · rintro ⟨assignment, hbind, hid, hcheck, rfl⟩
    unfold insert
    rw [hbind, Except.ok_bind, hid, Except.ok_bind]
    show (rel.checkRow rel.rows (rel.addedRow now assignment id) >>= _) = _
    rw [hcheck]
    rfl

theorem eq_changedRow_of_setCells (h : rel.setCells assignment r = .ok new) :
    new = rel.changedRow assignment r := by
  unfold setCells at h
  unfold changedRow changedId
  cases hlast : lastOf assignment .rowId with
  | some c =>
      rw [hlast] at h
      obtain ⟨id, hid, h⟩ := Except.bind_eq_ok_iff.1 h
      dsimp only
      rw [hid]
      exact (Except.ok.inj h).symm
  | none =>
      rw [hlast] at h
      exact (Except.ok.inj h).symm

/-- A field of a new row is the row id, the value that is given first for it, or what fills it. -/
theorem getElem?_addedRow (hf : rel.fields[j]? = some f) :
    (rel.addedRow now assignment id).cells[j]?
      = some (if rel.idField = some j then .int id
        else ((assignment.lookup (.field j)).map f.affinity.store).getD (fill now f)) := by
  unfold addedRow
  rw [getElem?_rowOf, List.getElem?_map, List.getElem?_zipIdx, hf, Nat.zero_add]
  split
  · rfl
  · dsimp only [Option.map_some]
    cases assignment.lookup (.field j) <;> rfl

/-- A field of a changed row is the row id, the value that is given last for it, or what it was. -/
theorem getElem?_changedRow {old : Cell} (hf : rel.fields[j]? = some f)
    (hold : r.cells[j]? = some old) :
    (rel.changedRow assignment r).cells[j]?
      = some (if rel.idField = some j then .int (changedId assignment r)
        else ((lastOf assignment (.field j)).map f.affinity.store).getD old) := by
  have hzip : (rel.fields.zip r.cells)[j]? = some (f, old) :=
    List.getElem?_zip_eq_some.2 ⟨hf, hold⟩
  unfold changedRow
  rw [getElem?_rowOf, List.getElem?_map, List.getElem?_zipIdx, hzip, Nat.zero_add]
  split
  · rfl
  · dsimp only [Option.map_some]
    cases lastOf assignment (.field j) <;> rfl

/-- A row that is put in its place is one more row. -/
theorem perm_place (r : Row) (rows : List Row) : (place r rows).Perm (r :: rows) := by
  induction rows with
  | nil => exact .refl _
  | cons other rows ih =>
      unfold place
      split
      · exact .refl _
      · exact (ih.cons other).trans (.swap r other rows)

/-! ## Rows that are set one after the other -/

/-- A row that passes its check has an id of its own. -/
theorem notMem_of_checkRow {others : List Row} (h : rel.checkRow others r = .ok ()) :
    ∀ other ∈ others, other.id ≠ r.id := by
  obtain ⟨-, -, h⟩ := Except.bind_eq_ok_iff.1 h
  dsimp only at h
  split at h
  · cases h
  · next hany =>
      intro other hother heq
      exact hany (List.any_eq_true.2 ⟨other, hother, by simpa using heq⟩)

/-- What holds of all rows of a table, and of each once it is set, holds of all rows when some are
set. -/
theorem forall_of_updateRows {Q : Row → Prop} {ids : List Int64}
    (hset : ∀ r, Q r → Q (rel.changedRow assignment r)) (hrows : ∀ r ∈ rel.rows, Q r)
    (h : rel.updateRows assignment ids = .ok rel') : ∀ r ∈ rel'.rows, Q r := by
  induction ids generalizing rel with
  | nil =>
      obtain rfl := Except.ok.inj h
      exact hrows
  | cons id ids ih =>
      rw [updateRows] at h
      split at h
      · exact ih hset hrows h
      · next old hold =>
        obtain ⟨new, hnew, h⟩ := Except.bind_eq_ok_iff.1 h
        obtain ⟨-, -, h⟩ := Except.bind_eq_ok_iff.1 h
        obtain rfl := eq_changedRow_of_setCells hnew
        -- The rest is set in a table that differs in its rows alone.
        generalize hset' : place (rel.changedRow assignment old)
          (rel.rows.filter fun r => r.id ≠ id) = placed at h
        have hplaced : ∀ r ∈ placed, Q r := by
          intro r hr
          rw [← hset', (perm_place _ _).mem_iff] at hr
          rcases List.mem_cons.1 hr with rfl | hr
          · exact hset old (hrows old (List.mem_of_find?_eq_some hold))
          · exact hrows r (List.mem_filter.1 hr).1
        exact @ih { rel with rows := placed } hset hplaced h

/-- Rows are set only if what is assigned to their ids is an id. -/
theorem exists_id_of_updateRows {ids : List Int64} (hids : ids ≠ [])
    (hfound : ∀ id ∈ ids, ∃ r ∈ rel.rows, r.id = id)
    (h : rel.updateRows assignment ids = .ok rel') {c : Cell}
    (hc : lastOf assignment .rowId = some c) : ∃ id, idOfCell c = .ok id := by
  obtain ⟨id, ids, rfl⟩ := List.exists_cons_of_ne_nil hids
  rw [updateRows] at h
  split at h
  · next hnone =>
      obtain ⟨r, hr, hrid⟩ := hfound id List.mem_cons_self
      simpa [hrid] using List.find?_eq_none.1 hnone r hr
  · obtain ⟨new, hnew, -⟩ := Except.bind_eq_ok_iff.1 h
    unfold setCells at hnew
    rw [hc] at hnew
    obtain ⟨n, hn, -⟩ := Except.bind_eq_ok_iff.1 hnew
    exact ⟨n, hn⟩

/-- With distinct ids, the rows of a table are the one with an id and the others. -/
theorem perm_filter_of_mem {rows : List Row} (hnodup : (rows.map Row.id).Nodup) (hr : r ∈ rows) :
    rows.Perm (r :: rows.filter fun other => other.id ≠ r.id) := by
  have hrows : rows.Nodup := List.Nodup.of_map Row.id hnodup
  have herase : rows.erase r = rows.filter fun other => other.id ≠ r.id := by
    rw [hrows.erase_eq_filter]
    apply List.filter_congr
    intro other hother
    have hiff : other.id = r.id ↔ other = r :=
      ⟨fun heq => List.inj_on_of_nodup_map hnodup hother hr heq, congrArg Row.id⟩
    rw [bne, beq_eq_decide, ← decide_not]
    exact decide_eq_decide.2 (not_congr hiff.symm)
  rw [← herase]
  exact List.perm_cons_erase hr

/-- A row with an id of its own is placed among rows of distinct ids. -/
theorem nodup_place {new : Row} {others : List Row} (hfresh : ∀ other ∈ others, other.id ≠ new.id)
    (hnodup : (others.map Row.id).Nodup) : ((place new others).map Row.id).Nodup := by
  refine ((perm_place new others).map Row.id).nodup_iff.2 (List.nodup_cons.2 ⟨?_, hnodup⟩)
  intro hmem
  obtain ⟨r, hr, hrid⟩ := List.mem_map.1 hmem
  exact hfresh r hr hrid

/-- To set the rows of some ids is to set one of them, and the others among the rest. -/
theorem perm_map_cons {rows others : List Row} {old : Row} {ids : List Int64} (set : Row → Row)
    (hrows : rows.Perm (old :: others)) (hothers : ∀ r ∈ others, r.id ≠ old.id) :
    (rows.map fun r => if r.id ∈ old.id :: ids then set r else r).Perm
      (set old :: others.map fun r => if r.id ∈ ids then set r else r) := by
  refine (hrows.map _).trans (.of_eq ?_)
  rw [List.map_cons, if_pos List.mem_cons_self]
  congr 1
  apply List.map_congr_left
  intro r hr
  simp [hothers r hr]

/-- **Rows are set as they were found.** Setting the rows of some ids, each after those before it,
gives each of them the assigned cells and leaves the other rows alone. -/
theorem perm_of_updateRows {ids : List Int64} (hids : ids.Nodup)
    (hfound : ∀ id ∈ ids, ∃ r ∈ rel.rows, r.id = id) (hnodup : (rel.rows.map Row.id).Nodup)
    (h : rel.updateRows assignment ids = .ok rel') :
    rel'.rows.Perm
      (rel.rows.map fun r => if r.id ∈ ids then rel.changedRow assignment r else r) := by
  -- The induction is on the ids, over any rows: each step sets one row among all the others.
  induction ids generalizing rel with
  | nil =>
      obtain rfl := Except.ok.inj h
      simp
  | cons id ids ih =>
      obtain ⟨hid, hrest⟩ := List.nodup_cons.1 hids
      rw [updateRows] at h
      split at h
      · next hnone =>
          obtain ⟨r, hr, hrid⟩ := hfound id List.mem_cons_self
          simpa [hrid] using List.find?_eq_none.1 hnone r hr
      · next old hold =>
          obtain ⟨new, hnew, h⟩ := Except.bind_eq_ok_iff.1 h
          obtain ⟨⟨⟩, hcheck, h⟩ := Except.bind_eq_ok_iff.1 h
          obtain rfl := eq_changedRow_of_setCells hnew
          obtain rfl : old.id = id := by simpa using List.find?_some hold
          have hrows := perm_filter_of_mem hnodup (List.mem_of_find?_eq_some hold)
          have hothers : ∀ r ∈ rel.rows.filter (fun r => r.id ≠ old.id), r.id ≠ old.id :=
            fun r hr => by simpa using (List.mem_filter.1 hr).2
          have hfresh := notMem_of_checkRow hcheck
          generalize rel.rows.filter (fun r => r.id ≠ old.id) = others at hrows hothers hfresh h
          -- The rows that are still to be set are among the others, and the one that was set is not.
          have hwaiting : ∀ k ∈ ids, ∃ r ∈ others, r.id = k := by
            intro k hk
            obtain ⟨r, hr, hrid⟩ := hfound k (List.mem_cons_of_mem _ hk)
            rcases List.mem_cons.1 (hrows.mem_iff.1 hr) with rfl | hr
            · exact absurd (hrid ▸ hk) hid
            · exact ⟨r, hr, hrid⟩
          have hleft : (rel.changedRow assignment old).id ∉ ids := by
            intro hmem
            obtain ⟨r, hr, hrid⟩ := hwaiting _ hmem
            exact hfresh r hr hrid
          have hplaced := perm_place (rel.changedRow assignment old) others
          have hset : rel'.rows.Perm ((place (rel.changedRow assignment old) others).map fun r =>
              if r.id ∈ ids then rel.changedRow assignment r else r) := by
            refine ih hrest ?_ (nodup_place hfresh ?_) h
            · intro k hk
              obtain ⟨r, hr, hrid⟩ := hwaiting k hk
              exact ⟨r, hplaced.mem_iff.2 (List.mem_cons_of_mem _ hr), hrid⟩
            · exact (List.nodup_cons.1 ((hrows.map Row.id).nodup_iff.1 hnodup)).2
          refine (hset.trans (hplaced.map _)).trans (.trans (.of_eq ?_)
            (perm_map_cons _ hrows hothers).symm)
          rw [List.map_cons, if_neg hleft]

end Store.Relation

/-! ## Values of columns -/

namespace Store.Relation

variable {rel : Relation} {values : RowValues} {assignment : Assignment}

/-- Whether a slot and cell are those of a name and value. -/
structure Binds (rel : Relation) (entry : String × Value) (given : Slot × Cell) : Prop where
  slot : rel.slot? entry.1 = some given.1
  cell : Cell.ofValue? entry.2 = some given.2

/-- Values are bound in order, each to the slot of its column. -/
theorem binds_of_bind (h : rel.bind values = .ok assignment) :
    List.Forall₂ rel.Binds values assignment := by
  refine (Except.mapM_eq_ok_iff.1 h).imp ?_
  rintro ⟨name, v⟩ given hgiven
  dsimp only at hgiven
  split at hgiven
  · next slot hslot =>
      split at hgiven
      · next cell hcell =>
          obtain rfl := Except.ok.inj hgiven
          exact ⟨hslot, hcell⟩
      · cases hgiven
  · cases hgiven

/-- No two positions have one slot. -/
theorem slotAt_inj {i j : Nat} (h : rel.slotAt i = rel.slotAt j) : i = j := by
  unfold slotAt at h
  split at h
  · next hi =>
      split at h
      · next hj => exact Option.some.inj (hi.symm.trans hj)
      · cases h
  · split at h
    · cases h
    · exact Slot.field.inj h

end Store.Relation

namespace Table

open Store.Relation

variable {t : Table} {rel : Relation} {values : RowValues} {assignment : Assignment} {j : Nat}
  {c : Column} {now id : Int64}

namespace IsLaidOutAs

/-- Columns of one name stand at one position. -/
theorem eq_of_name_eq (h : t.IsLaidOutAs rel) {i : Nat} {d : Column} (hc : t.columns[j]? = some c)
    (hd : t.columns[i]? = some d) (hname : c.name = d.name) : j = i := by
  have hslot := h.declared?_eq hc
  rw [hname, h.declared?_eq hd] at hslot
  exact (slotAt_inj (Option.some.inj hslot)).symm

/-- Columns of one name are one column. -/
theorem eq_of_same_name (h : t.IsLaidOutAs rel) {d : Column} (hc : c ∈ t.columns)
    (hd : d ∈ t.columns) (hname : c.name = d.name) : c = d := by
  obtain ⟨j, hj⟩ := List.mem_iff_getElem?.1 hc
  obtain ⟨i, hi⟩ := List.mem_iff_getElem?.1 hd
  obtain rfl := h.eq_of_name_eq hj hi hname
  exact Option.some.inj (hj.symm.trans hi)

/-- Values that columns accept can be bound. -/
theorem exists_bind (h : t.IsLaidOutAs rel) (haccepts : t.Accepts values) :
    ∃ assignment, rel.bind values = .ok assignment := by
  unfold Store.Relation.bind
  induction values with
  | nil => exact ⟨[], rfl⟩
  | cons entry values ih =>
      obtain ⟨⟨d, hd, hname, hv⟩, hrest⟩ := List.forall_mem_cons.1 haccepts
      obtain ⟨i, hi⟩ := List.mem_iff_getElem?.1 hd
      obtain ⟨cell, hcell⟩ := ColumnType.exists_cell_of_accepts hv
      obtain ⟨assignment, hassignment⟩ := ih hrest
      obtain ⟨name, v⟩ := entry
      obtain rfl : d.name = name := hname
      refine ⟨(rel.slotAt i, cell) :: assignment, ?_⟩
      rw [List.mapM_cons, hassignment]
      dsimp only
      rw [h.slot?_eq hi, hcell]
      rfl

/-- **A column is given the value of its name.** -/
theorem lookup_eq (h : t.IsLaidOutAs rel) (haccepts : t.Accepts values)
    (hbinds : List.Forall₂ rel.Binds values assignment) (hc : t.columns[j]? = some c) :
    assignment.lookup (rel.slotAt j) = (Assoc.find? values c.name).bind Cell.ofValue? := by
  induction hbinds with
  | nil => rfl
  | @cons entry given values assignment hfirst _ ih =>
      obtain ⟨⟨d, hd, hname, -⟩, hrest⟩ := List.forall_mem_cons.1 haccepts
      obtain ⟨i, hi⟩ := List.mem_iff_getElem?.1 hd
      have hslot : rel.slotAt i = given.1 := by
        have hslot := hfirst.slot
        rw [← hname, h.slot?_eq hi] at hslot
        exact Option.some.inj hslot
      unfold Assoc.find?
      rw [List.find?_cons]
      -- The entry is for this column, or its name and its slot are those of another one.
      by_cases hij : j = i
      · subst hij
        obtain rfl : c = d := Option.some.inj (hc.symm.trans hi)
        rw [List.lookup_cons, hslot, beq_self_eq_true]
        simp [hname, hfirst.cell]
      · have hslots : (rel.slotAt j == given.1) = false :=
          beq_eq_false_iff_ne.2 fun heq => hij (slotAt_inj (heq.trans hslot.symm))
        have hnames : ¬ entry.1 = c.name := fun heq =>
          hij (h.eq_of_name_eq hc hi (heq.symm.trans hname.symm))
        rw [List.lookup_cons, hslots]
        simpa [hnames, Assoc.find?] using ih hrest

/-- Of the values that are given for a column, the one that counts in the end is the last. -/
theorem lastOf_eq (h : t.IsLaidOutAs rel) (haccepts : t.Accepts values)
    (hbinds : List.Forall₂ rel.Binds values assignment) (hc : t.columns[j]? = some c) :
    lastOf assignment (rel.slotAt j)
      = (Assoc.find? values.reverse c.name).bind Cell.ofValue? := by
  have haccepts : t.Accepts values.reverse := fun entry hentry =>
    haccepts entry (List.mem_reverse.1 hentry)
  exact h.lookup_eq haccepts (List.rel_reverse hbinds) hc

/-- A field is what the definition of its column says. -/
theorem field_eq (h : t.IsLaidOutAs rel) (hc : t.columns[j]? = some c) :
    rel.fields[j]? = some (Store.field c.definition) := by
  rw [h.fields, List.getElem?_map, hc]
  rfl

/-- A column keeps the value that is given for it. -/
theorem keeps_of_find? (haccepts : t.Accepts values) (h : t.IsLaidOutAs rel)
    (hc : t.columns[j]? = some c) {v : Value} {cell : Cell}
    (hv : Assoc.find? values c.name = some v) (hcell : Cell.ofValue? v = some cell) :
    c.type.Keeps v ((Store.field c.definition).affinity.store cell) := by
  obtain ⟨d, hd, hname, hv⟩ := haccepts _ (Assoc.mem_of_find? hv)
  obtain rfl := h.eq_of_same_name hd (List.mem_of_getElem? hc) hname
  exact ColumnType.keeps_store hv hcell

end IsLaidOutAs

/-- What a column is given by values: what it stores of the value of its name, if there is one. -/
structure IsGiven (values : RowValues) (c : Column) (other cell : Cell) : Prop where
  keeps : ∀ v, Assoc.find? values c.name = some v → c.type.Keeps v cell
  eq_other : Assoc.find? values c.name = none → cell = other

namespace IsLaidOutAs

/-- What a column holds is what it is given, or else what it held. -/
theorem isGiven (h : t.IsLaidOutAs rel) (haccepts : t.Accepts values) (hc : t.columns[j]? = some c)
    (other : Cell) : IsGiven values c other
      ((((Assoc.find? values c.name).bind Cell.ofValue?).map
        (Store.field c.definition).affinity.store).getD other) := by
  constructor
  · intro v hv
    obtain ⟨d, hd, hname, haccept⟩ := haccepts _ (Assoc.mem_of_find? hv)
    obtain ⟨cell, hcell⟩ := ColumnType.exists_cell_of_accepts haccept
    simpa [hv, hcell] using keeps_of_find? haccepts h hc hv hcell
  · intro hnone
    simp [hnone]

/-- **A row that is added has in each column what it is given or, left out, what the column is filled
with.** The column that is the row id shows it. -/
theorem cell_addedRow (h : t.IsLaidOutAs rel) (now id : Int64) (haccepts : t.Accepts values)
    (hbinds : List.Forall₂ rel.Binds values assignment) (hc : t.columns[j]? = some c) :
    ∃ cell, (rel.addedRow now assignment id).cells[j]? = some cell ∧
      (rel.idField = some j → cell = .int id) ∧
      (rel.idField ≠ some j → IsGiven values c (c.filled now) cell) := by
  refine ⟨_, getElem?_addedRow (h.field_eq hc), ?_, ?_⟩
  · intro hid
    rw [if_pos hid]
  · intro hid
    have hlookup := h.lookup_eq haccepts hbinds hc
    rw [slotAt, if_neg hid] at hlookup
    rw [if_neg hid, hlookup]
    exact h.isGiven haccepts hc _

/-- **A row that is set has in each column what it is given last or, left out, what it had.** -/
theorem cell_changedRow (h : t.IsLaidOutAs rel) (haccepts : t.Accepts values)
    (hbinds : List.Forall₂ rel.Binds values assignment) (hc : t.columns[j]? = some c) {r : Row}
    {old : Cell} (hold : r.cells[j]? = some old) :
    ∃ cell, (rel.changedRow assignment r).cells[j]? = some cell ∧
      (rel.idField = some j → cell = .int (changedId assignment r)) ∧
      (rel.idField ≠ some j → IsGiven values.reverse c old cell) := by
  have hreversed : t.Accepts values.reverse := fun entry hentry =>
    haccepts entry (List.mem_reverse.1 hentry)
  refine ⟨_, getElem?_changedRow (h.field_eq hc) hold, ?_, ?_⟩
  · intro hid
    rw [if_pos hid]
  · intro hid
    have hlast := h.lastOf_eq haccepts hbinds hc
    rw [slotAt, if_neg hid] at hlast
    rw [if_neg hid, hlast]
    exact h.isGiven hreversed hc _

end IsLaidOutAs

/-! ## Well-formed rows -/

/-- Whether a row holds in each column of a table what the column stores of a value, and shows its id in
the column that is the row id. -/
structure IsRow (t : Table) (rel : Relation) (r : Row) : Prop where
  forms : List.Forall₂ (fun c cell => c.type.Forms cell) t.columns r.cells
  shows : ∀ j, rel.idField = some j → r.cells[j]? = some (.int r.id)

/-- What is given to a column is a form of its type, if what it held is. -/
theorem IsGiven.forms {other cell : Cell} (h : IsGiven values c other cell)
    (hother : c.type.Forms other) : c.type.Forms cell := by
  cases hfound : Assoc.find? values c.name with
  | some v => exact ⟨v, h.keeps v hfound⟩
  | none =>
      rw [h.eq_other hfound]
      exact hother

namespace IsLaidOutAs

/-- The row id is a form of the type of its column. -/
theorem forms_id (h : t.IsLaidOutAs rel) (hid : rel.idField = some j)
    (hc : t.columns[j]? = some c) (n : Int64) : c.type.Forms (.int n) := by
  rcases h.type_of_idField hid hc with htype | htype
  · rw [htype]
    exact ⟨.int n, .int n⟩
  · rw [htype]
    exact ⟨.int n, .timestamp n⟩

/-- The field of the row id is that of a column. -/
theorem exists_column (h : t.IsLaidOutAs rel) (hid : rel.idField = some j) :
    ∃ c, t.columns[j]? = some c := by
  rw [h.idField] at hid
  obtain ⟨hj, -, -⟩ := List.findIdx?_eq_some_iff_getElem.1 hid
  exact ⟨_, List.getElem?_eq_getElem hj⟩

/-- A new row is a row of its table. -/
theorem isRow_addedRow (h : t.IsLaidOutAs rel) (hconsistent : t.IsConsistent)
    (haccepts : t.Accepts values) (hbinds : List.Forall₂ rel.Binds values assignment) :
    t.IsRow rel (rel.addedRow now assignment id) := by
  constructor
  · apply List.Forall₂.of_getElem?
    · rw [addedRow, length_rowOf, List.length_map, List.length_zipIdx, h.fields, List.length_map]
    · intro j c cell hc hcell
      obtain ⟨written, hwritten, hid, hgiven⟩ :=
        h.cell_addedRow now id haccepts hbinds hc
      obtain rfl : written = cell := Option.some.inj (hwritten.symm.trans hcell)
      -- The row id is written over what was given for its column.
      by_cases hidField : rel.idField = some j
      · rw [hid hidField]
        exact h.forms_id hidField hc id
      · have hfits := hconsistent.defaultFits c (List.mem_of_getElem? hc)
        exact (hgiven hidField).forms (c.forms_filled hfits now)
  · intro j hid
    obtain ⟨c, hc⟩ := h.exists_column hid
    rw [getElem?_addedRow (h.field_eq hc), if_pos hid, addedRow, id_rowOf]

/-- A changed row is still a row of its table. -/
theorem isRow_changedRow (h : t.IsLaidOutAs rel) (haccepts : t.Accepts values)
    (hbinds : List.Forall₂ rel.Binds values assignment) {r : Row} (hr : t.IsRow rel r) :
    t.IsRow rel (rel.changedRow assignment r) := by
  constructor
  · apply List.Forall₂.of_getElem?
    · rw [changedRow, length_rowOf, List.length_map, List.length_zipIdx, List.length_zip, h.fields,
        List.length_map, hr.forms.length_eq, Nat.min_self]
    · intro j c cell hc hcell
      obtain ⟨old, hold, hforms⟩ := hr.forms.exists_getElem?_left hc
      obtain ⟨written, hwritten, hid, hgiven⟩ := h.cell_changedRow haccepts hbinds hc hold
      obtain rfl : written = cell := Option.some.inj (hwritten.symm.trans hcell)
      by_cases hidField : rel.idField = some j
      · rw [hid hidField]
        exact h.forms_id hidField hc _
      · exact (hgiven hidField).forms hforms
  · intro j hid
    obtain ⟨c, hc⟩ := h.exists_column hid
    obtain ⟨old, hold, -⟩ := hr.forms.exists_getElem?_left hc
    rw [getElem?_changedRow (h.field_eq hc) hold, if_pos hid, changedRow, id_rowOf]

end IsLaidOutAs

namespace IsRow

variable {r : Row}

/-- A column of a row has the same cell at its position and in its slot. -/
theorem getElem?_eq (h : t.IsRow rel r) (hc : t.columns[j]? = some c) :
    r.cells[j]? = some (r.cellOf (rel.slotAt j)) := by
  obtain ⟨cell, hcell, -⟩ := h.forms.exists_getElem?_left hc
  unfold slotAt
  split
  · next hid => exact h.shows j hid
  · show r.cells[j]? = some (r.cells[j]?.getD .null)
    rw [hcell]
    rfl

/-- Each cell of a row is a form of the type of its column. -/
theorem forms_cellOf (h : t.IsRow rel r) (hc : t.columns[j]? = some c) :
    c.type.Forms (r.cellOf (rel.slotAt j)) := by
  obtain ⟨cell, hcell, hforms⟩ := h.forms.exists_getElem?_left hc
  obtain rfl := Option.some.inj (hcell.symm.trans (h.getElem?_eq hc))
  exact hforms

end IsRow

end Table

end Tabula
