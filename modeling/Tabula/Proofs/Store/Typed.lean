import Tabula.Proofs.Catalog.Build
import Tabula.Proofs.Sql.Literal
import Tabula.Proofs.Store.Tables

/-!
# Rows of their columns' types

What a table stores in a column of a catalog type, and what is read from there. Main statements: a
stored table whose rows hold cells of their columns' types goes on doing so when rows are added and
set to values that its columns accept (`Table.Types.insert`, `Table.Types.updateRows`), and the cell
of a column is read as a value of the column's type, which is null only where the column allows it
(`Table.Types.holds_cellOf`, `Column.Holds.admits`). A default that is no finite float is the one
exception: it has no numeral, and the word that it is written as is a text.
-/

namespace Tabula

open Decimal (Binary)
open Store (Field Numeral Relation Row Slot isIdColumn sameName)
open Store.Relation (Assignment fill lastOf place)

/-! ## Cells and values of a type -/

/-- Which cells a column of a type holds, null apart. -/
inductive ColumnType.Stores : ColumnType → Cell → Prop
  | string (s : String) : Stores .string (.text s)
  | int (n : Int64) : Stores .int (.int n)
  | float (x : Float) : Stores .float (.real x)
  | bool (n : Int64) : Stores .bool (.int n)
  | timestamp (n : Int64) : Stores .timestamp (.int n)

/-- Which values a column of a type shows, null apart. -/
inductive ColumnType.Shows : ColumnType → Value → Prop
  | string (s : String) : Shows .string (.string s)
  | int (n : Int64) : Shows .int (.int n)
  | float (x : Float) : Shows .float (.float x)
  | bool (b : Bool) : Shows .bool (.bool b)
  | timestamp (n : Int64) : Shows .timestamp (.int n)

/-- Null is no value of a type. -/
theorem ColumnType.not_shows_null {type : ColumnType} : ¬ type.Shows .null := by
  intro h
  cases h

/-- Whether a text is the word that the default of a column is written as, a float that is not
finite. -/
def Column.IsWord (c : Column) (s : String) : Prop :=
  ∃ x, c.default? = some (.value (.float x)) ∧ x.isFinite = false ∧ s = Sql.numberLayout.text x

/-- Which cells a column holds, null apart: those of its type, and the word of its default. -/
inductive Column.Stores (c : Column) : Cell → Prop
  | typed {cell : Cell} (h : c.type.Stores cell) : Stores c cell
  | word {s : String} (h : c.IsWord s) : Stores c (.text s)

/-- Whether a column may hold a cell. -/
structure Column.Holds (c : Column) (cell : Cell) : Prop where
  stores : cell ≠ .null → c.Stores cell
  present : cell = .null → c.nullable = true ∧ c.isKey = false

/-- Whether a column may show a value: one of its type, or null where it may be null, or the word of a
default that is no finite float. -/
structure Column.Admits (c : Column) (v : Value) : Prop where
  shows : v ≠ .null → c.type.Shows v ∨ ∃ s, c.IsWord s ∧ v = .string s
  present : v = .null → c.nullable = true ∧ c.isKey = false

/-- What a type stores is shown as one of its values. -/
theorem ColumnType.Stores.shows {type : ColumnType} {cell : Cell} (h : type.Stores cell) :
    type.Shows (cell.toValue type) := by
  cases h with
  | string s => exact .string s
  | int n => exact .int n
  | float x => exact .float x
  | bool n => exact .bool _
  | timestamp n => exact .timestamp n

/-- **What a column holds is read as a value of its type**, or as the word of its default. -/
theorem Column.Holds.admits {c : Column} {cell : Cell} (h : c.Holds cell) :
    c.Admits (cell.toValue c.type) := by
  by_cases hnull : cell = .null
  · subst hnull
    exact ⟨fun hne => absurd rfl hne, fun _ => h.present rfl⟩
  · cases h.stores hnull with
    | typed htyped =>
        have hshows := htyped.shows
        refine ⟨fun _ => .inl hshows, fun hvalue => absurd hshows ?_⟩
        rw [hvalue]
        exact ColumnType.not_shows_null
    | @word s hword => exact ⟨fun _ => .inr ⟨s, hword, rfl⟩, nofun⟩

/-! ## Storing values -/

/-- The cell of a value that a type accepts is stored as one of the type. -/
theorem ColumnType.stores_of_accepts {type : ColumnType} {v : Value} {cell : Cell}
    (haccepts : type.accepts v = true) (hcell : Cell.ofValue? v = some cell)
    (hnull : (Affinity.ofType type.sqlType).store cell ≠ .null) :
    type.Stores ((Affinity.ofType type.sqlType).store cell) := by
  cases v with
  | null =>
      obtain rfl := Option.some.inj hcell
      cases type <;> exact absurd rfl hnull
  | bool b =>
      obtain rfl := Option.some.inj hcell
      cases type with
      | bool => exact .bool _
      | _ => cases haccepts
  | int n =>
      obtain rfl := Option.some.inj hcell
      cases type with
      | int => exact .int n
      | timestamp => exact .timestamp n
      -- A whole number in a float column is stored as the float.
      | float => exact .float _
      | _ => cases haccepts
  | float x =>
      obtain rfl := Option.some.inj hcell
      cases type with
      | float =>
          unfold Cell.ofFloat at hnull ⊢
          -- What is not a number is bound as null.
          split at hnull
          · exact absurd rfl hnull
          next hnumber =>
          rw [if_neg hnumber]
          show Stores .float (if x == 0 then .real 0 else .real x)
          split
          · exact .float 0
          · exact .float x
      | _ => cases haccepts
  | string s =>
      obtain rfl := Option.some.inj hcell
      cases type with
      | string => exact .string s
      | _ => cases haccepts
  | list items => cases hcell

/-- A float is read back as a float, or it is not finite and is read back as the word that it is
written as. -/
theorem Value.readBack_float (x : Float) : (∃ y, readBack (.float x) = .float y) ∨
    x.isFinite = false ∧ Numeral.ofText? (Sql.numberLayout.text x) = none ∧
      readBack (.float x) = .string (Sql.numberLayout.text x) := by
  simp only [readBack]
  cases hread : Numeral.ofText? (Sql.numberLayout.text x) with
  | some n => exact .inl ⟨n.float, rfl⟩
  | none =>
      refine .inr ⟨?_, rfl, rfl⟩
      rw [← Bool.not_eq_true]
      intro hfinite
      obtain ⟨n, hn, -⟩ := Sql.exists_numeral_float hfinite
      rw [hread] at hn
      cases hn

/-- A column accepts its own default. -/
theorem Column.accepts_of_defaultFits {c : Column} (hfits : c.defaultFits = true) {v : Value}
    (hdefault : c.default? = some (.value v)) : c.type.accepts v = true := by
  unfold defaultFits at hfits
  rw [hdefault] at hfits
  cases v with
  | null => exact ColumnType.accepts_null c.type
  | list items => cases hfits
  | _ => exact hfits

/-- Whether a value is one that a column is filled with where a row leaves it out. -/
def Column.IsDefault (c : Column) (v : Value) : Prop :=
  match c.default? with
  | none => v = .null
  | some (.value d) => v = d.readBack
  | some .currentTimestamp => ∃ n, v = .int n

/-- What a column is filled with where a row leaves it out: a value that its type accepts, or the word
of its default. -/
inductive Column.Fills (c : Column) : Value → Prop
  | accepted {v : Value} (h : c.type.accepts v = true) : Fills c v
  | word {s : String} (h : c.IsWord s) (htype : c.type = .float) (hs : Numeral.ofText? s = none) :
      Fills c (.string s)

/-- The default of a column is filled in as it reads back. -/
theorem Column.fills_readBack {c : Column} (hfits : c.defaultFits = true) {v : Value}
    (hdefault : c.default? = some (.value v)) :
    c.Fills v.readBack ∧ Cell.ofValue? v.readBack = some (Store.defaultCell v) := by
  have haccepts := accepts_of_defaultFits hfits hdefault
  cases v with
  | float x =>
      have htype : c.type = .float := by
        cases htype : c.type with
        | float => rfl
        | _ =>
            rw [htype] at haccepts
            cases haccepts
      rw [Store.defaultCell]
      rcases Value.readBack_float x with ⟨y, hy⟩ | ⟨hfinite, hnone, hword⟩
      · rw [hy]
        refine ⟨.accepted ?_, rfl⟩
        rw [htype]
        rfl
      · rw [hword]
        exact ⟨.word ⟨x, hdefault, hfinite, rfl⟩ htype hnone, rfl⟩
  | list items =>
      rw [ColumnType.accepts_list] at haccepts
      cases haccepts
  | null => exact ⟨.accepted haccepts, rfl⟩
  | bool b => exact ⟨.accepted haccepts, rfl⟩
  | int n => exact ⟨.accepted haccepts, rfl⟩
  | string s => exact ⟨.accepted haccepts, rfl⟩

/-- **A column is filled with the cell of its default**, which is one that its type accepts, or the word
that a float is written as, if the default fits the column. -/
theorem Column.exists_filled {c : Column} (hfits : c.defaultFits = true) (now : Int64) :
    ∃ v cell, c.IsDefault v ∧ c.Fills v ∧ Cell.ofValue? v = some cell ∧
      fill now (Store.field c.definition) = (Affinity.ofType c.type.sqlType).store cell := by
  have hfiller : (Store.field c.definition).filler
      = Store.filler (c.default?.map Default.literal) := rfl
  unfold fill IsDefault
  rw [hfiller]
  cases hdefault : c.default? with
  | none => exact ⟨.null, .null, rfl, .accepted (ColumnType.accepts_null c.type), rfl, rfl⟩
  | some d =>
      cases d with
      | value v =>
          obtain ⟨hfills, hcell⟩ := fills_readBack hfits hdefault
          exact ⟨v.readBack, _, rfl, hfills, hcell, rfl⟩
      | currentTimestamp =>
          -- The time is a whole number, which both types that take it accept.
          have haccepts : c.type.accepts (.int now) = true := by
            unfold defaultFits at hfits
            rw [hdefault, Bool.or_eq_true, decide_eq_true_iff, decide_eq_true_iff] at hfits
            rcases hfits with htype | htype
            · rw [htype]
              rfl
            · rw [htype]
              rfl
          exact ⟨.int now, .int now, ⟨now, rfl⟩, .accepted haccepts, rfl, rfl⟩

/-- A text that is no numeral stays one in a column of floats. -/
theorem ColumnType.store_word {s : String} (hs : Numeral.ofText? s = none) :
    (Affinity.ofType ColumnType.float.sqlType).store (.text s) = .text s := by
  have hnumber : (Cell.text s).toNumber = .text s := by
    rw [Cell.toNumber, hs]
  show (Cell.text s).toNumber.toReal = .text s
  rw [hnumber]
  rfl

/-- A column is filled with a cell that it may hold if its default fits it. -/
theorem Column.stores_fill {c : Column} (hfits : c.defaultFits = true) (now : Int64)
    (hnull : fill now (Store.field c.definition) ≠ .null) :
    c.Stores (fill now (Store.field c.definition)) := by
  obtain ⟨v, cell, -, hfills, hcell, hfilled⟩ := c.exists_filled hfits now
  rw [hfilled] at hnull ⊢
  cases hfills with
  | accepted haccepts => exact .typed (ColumnType.stores_of_accepts haccepts hcell hnull)
  | word hword htype hs =>
      obtain rfl := Option.some.inj hcell
      rw [htype, ColumnType.store_word hs]
      exact .word hword

/-! ## Rows that are changed -/

namespace Store.Relation

/-- A field of a row is the row id or the cell at its position. -/
theorem getElem?_rowOf (rel : Relation) (id : Int64) (cells : List Cell) (j : Nat) :
    (rel.rowOf id cells).cells[j]?
      = if rel.idField = some j then cells[j]?.map fun _ => .int id else cells[j]? := by
  unfold rowOf
  cases rel.idField with
  | none => rfl
  | some i =>
      show (cells.set i (.int id))[j]? = _
      by_cases hij : i = j
      · subst hij
        rw [List.getElem?_set_self', if_pos rfl]
        rfl
      · rw [List.getElem?_set_ne hij, if_neg (by simpa using hij)]

/-- What is looked up is assigned. -/
theorem mem_of_lookup {assignment : Assignment} {slot : Slot} {cell : Cell}
    (h : assignment.lookup slot = some cell) : (slot, cell) ∈ assignment := by
  obtain ⟨before, after, rfl, -⟩ := List.lookup_eq_some_iff.1 h
  exact List.mem_append_right _ List.mem_cons_self

/-- Putting a row in its place brings no other new one. -/
theorem mem_place {new r : Row} {rows : List Row} (h : r ∈ place new rows) : r = new ∨ r ∈ rows := by
  induction rows with
  | nil => exact .inl (List.mem_singleton.1 h)
  | cons other rows ih =>
      unfold place at h
      split at h
      · exact List.mem_cons.1 h
      · rcases List.mem_cons.1 h with rfl | h
        · exact .inr List.mem_cons_self
        · rcases ih h with rfl | h
          · exact .inl rfl
          · exact .inr (List.mem_cons_of_mem _ h)

end Store.Relation

open Store.Relation (getElem?_rowOf mem_of_lookup mem_place)

/-! ## Stored tables -/

/-- Whether a stored table has the columns that a table is defined with. -/
structure Table.IsLaidOutAs (t : Table) (rel : Relation) : Prop where
  distinct : t.columns.Pairwise fun c d => sameName c.name d.name = false
  fields : rel.fields = t.columns.map fun c => Store.field c.definition
  idField : rel.idField = t.columns.findIdx? fun c => isIdColumn c.definition

/-- Whether a stored table has the columns of a table, and holds cells of their types in them. -/
structure Table.Types (t : Table) (rel : Relation) : Prop extends t.IsLaidOutAs rel where
  holds : ∀ r ∈ rel.rows, List.Forall₂ Column.Holds t.columns r.cells

namespace Table

variable {t : Table} {rel rel' : Relation} {j : Nat} {c : Column}

namespace IsLaidOutAs

/-- How a table is laid out does not depend on its rows. -/
theorem of_emptied (h : t.IsLaidOutAs rel) (hemptied : rel'.emptied = rel.emptied) :
    t.IsLaidOutAs rel' := by
  have hfields : rel'.emptied.fields = rel.emptied.fields := congrArg Relation.fields hemptied
  have hidField : rel'.emptied.idField = rel.emptied.idField := congrArg Relation.idField hemptied
  exact ⟨h.distinct, hfields.trans h.fields, hidField.trans h.idField⟩

/-- A column is declared at its position. -/
theorem declared?_eq (h : t.IsLaidOutAs rel) (hc : t.columns[j]? = some c) :
    rel.declared? c.name = some (rel.slotAt j) := by
  obtain ⟨hj, rfl⟩ := List.getElem?_eq_some_iff.1 hc
  have hposition : rel.position? t.columns[j].name = some j := by
    unfold Store.Relation.position?
    rw [h.fields, List.findIdx?_map]
    refine List.findIdx?_eq_some_iff_getElem.2 ⟨hj, Store.sameName_self _, ?_⟩
    intro i hi hsame
    have hne := List.pairwise_iff_getElem.1 h.distinct i j (Nat.lt_trans hi hj) hj hi
    have hsame : sameName t.columns[i].name t.columns[j].name = true := hsame
    rw [hne] at hsame
    cases hsame
  unfold Store.Relation.declared?
  rw [hposition]
  rfl

/-- A column is found at its own slot. -/
theorem slot?_eq (h : t.IsLaidOutAs rel) (hc : t.columns[j]? = some c) :
    rel.slot? c.name = some (rel.slotAt j) := by
  unfold Store.Relation.slot?
  rw [h.declared?_eq hc]

/-- The column that is the row id is a primary key of whole numbers. -/
theorem isIdColumn_of_idField (h : t.IsLaidOutAs rel) (hid : rel.idField = some j)
    (hc : t.columns[j]? = some c) : isIdColumn c.definition = true := by
  rw [h.idField] at hid
  obtain ⟨hj, hisId, -⟩ := List.findIdx?_eq_some_iff_getElem.1 hid
  rw [List.getElem?_eq_getElem hj] at hc
  rw [← Option.some.inj hc]
  exact hisId

/-- The column of the row id holds whole numbers or times. -/
theorem type_of_idField (h : t.IsLaidOutAs rel) (hid : rel.idField = some j)
    (hc : t.columns[j]? = some c) : c.type = .int ∨ c.type = .timestamp := by
  have hisId := h.isIdColumn_of_idField hid hc
  unfold isIdColumn at hisId
  rw [Bool.and_eq_true, decide_eq_true_iff] at hisId
  have htype : c.type.sqlType = "INTEGER" := hisId.2
  cases hctype : c.type with
  | int => exact .inl rfl
  | timestamp => exact .inr rfl
  | _ =>
      rw [hctype] at htype
      exact absurd htype (by decide)

/-- It holds every row id. -/
theorem holds_id (h : t.IsLaidOutAs rel) (hid : rel.idField = some j)
    (hc : t.columns[j]? = some c) (n : Int64) : c.Holds (.int n) := by
  refine ⟨fun _ => .typed ?_, fun hnull => by cases hnull⟩
  rcases h.type_of_idField hid hc with htype | htype
  · rw [htype]
    exact .int n
  · rw [htype]
    exact .timestamp n

/-- The key is the row id if it is declared so. -/
theorem idField_eq (h : t.IsLaidOutAs rel) (hconsistent : t.IsConsistent)
    (hc : t.columns[j]? = some c) (hid : isIdColumn c.definition = true) :
    rel.idField = some j := by
  obtain ⟨hlt, rfl⟩ := List.getElem?_eq_some_iff.1 hc
  rw [h.idField, List.findIdx?_eq_some_iff_getElem]
  refine ⟨hlt, hid, ?_⟩
  intro i hi hearlier
  -- Only one column is the key.
  have hiKey : t.columns[i].isKey = true := (Bool.and_eq_true_iff.1 hearlier).1
  have hjKey : t.columns[j].isKey = true := (Bool.and_eq_true_iff.1 hid).1
  exact List.pairwise_iff_getElem.1 hconsistent.pairwise_isKey i j _ hlt hi hiKey hjKey

/-- The primary key is the row id if it may be null in the store. -/
theorem idField_of_isKey (h : t.IsLaidOutAs rel) (hconsistent : t.IsConsistent)
    (hc : t.columns[j]? = some c) (hkey : c.isKey = true)
    (hnotNull : c.definition.notNull = false) : rel.idField = some j := by
  have hint : c.type = .int := by
    have hnotNull : (if c.isKey then decide (c.type ≠ .int) else !c.nullable) = false := hnotNull
    rw [if_pos hkey] at hnotNull
    simpa using hnotNull
  have hisId : isIdColumn c.definition = true := by
    unfold isIdColumn Column.definition
    rw [hkey, hint]
    rfl
  exact h.idField_eq hconsistent hc hisId

/-! ## Rows -/

/-- A column that holds null in a row that passed its check may hold null. -/
theorem notNull_of_checkPresent (h : t.IsLaidOutAs rel) {r : Row}
    (hpresent : rel.checkPresent r = .ok ()) (hc : t.columns[j]? = some c)
    (hnull : r.cells[j]? = some .null) : c.definition.notNull = false := by
  unfold Store.Relation.checkPresent at hpresent
  split at hpresent
  · cases hpresent
  · next hnone =>
      have hmem : (Store.field c.definition, Cell.null) ∈ rel.fields.zip r.cells := by
        apply List.mem_of_getElem? (i := j)
        rw [List.getElem?_zip_eq_some, h.fields, List.getElem?_map, hc]
        exact ⟨rfl, hnull⟩
      simpa [Cell.isNull, Store.field] using List.find?_eq_none.1 hnone _ hmem

/-- **A checked row holds cells of its columns' types** if its cells are such where they are not
null. -/
theorem holds_rowOf (h : t.IsLaidOutAs rel) (hconsistent : t.IsConsistent) {id : Int64}
    {cells : List Cell}
    (hstores : List.Forall₂ (fun c cell => cell ≠ .null → c.Stores cell) t.columns cells)
    (hpresent : rel.checkPresent (rel.rowOf id cells) = .ok ()) :
    List.Forall₂ Column.Holds t.columns (rel.rowOf id cells).cells := by
  have hlength : (rel.rowOf id cells).cells.length = cells.length := by
    unfold Store.Relation.rowOf
    split
    · exact List.length_set
    · rfl
  apply List.Forall₂.of_getElem? (hstores.length_eq.trans hlength.symm)
  intro j c cell hc hcell
  have hshown := hcell
  rw [getElem?_rowOf] at hcell
  split at hcell
  · next hid =>
      -- The column that is the row id shows it.
      obtain ⟨-, -, rfl⟩ := Option.map_eq_some_iff.1 hcell
      exact h.holds_id hid hc id
  · next hid =>
      obtain ⟨old, hold, hof⟩ := hstores.exists_getElem?_left hc
      obtain rfl : old = cell := Option.some.inj (hold.symm.trans hcell)
      refine ⟨hof, ?_⟩
      rintro rfl
      have hnotNull := h.notNull_of_checkPresent hpresent hc hshown
      cases hkey : c.isKey with
      | true => exact absurd (h.idField_of_isKey hconsistent hc hkey hnotNull) hid
      | false =>
          have hnotNull : (if c.isKey then decide (c.type ≠ .int) else !c.nullable) = false :=
            hnotNull
          rw [hkey] at hnotNull
          exact ⟨by simpa using hnotNull, rfl⟩

end IsLaidOutAs

/-- **What is read from a column of a row is what the column holds**, also where it is the row id. -/
theorem Types.holds_cellOf (h : t.Types rel) {r : Row} (hr : r ∈ rel.rows)
    (hc : t.columns[j]? = some c) : c.Holds (r.cellOf (rel.slotAt j)) := by
  unfold Store.Relation.slotAt
  split
  · next hid => exact h.holds_id hid hc r.id
  · obtain ⟨cell, hcell, hholds⟩ := (h.holds r hr).exists_getElem?_left hc
    show c.Holds (r.cells[j]?.getD .null)
    rw [hcell]
    exact hholds

/-! ## Assignments -/

/-- Whether values are ones that the columns of their names accept. -/
def Accepts (t : Table) (values : RowValues) : Prop :=
  ∀ entry ∈ values, ∃ c ∈ t.columns, c.name = entry.1 ∧ c.type.accepts entry.2 = true

/-- Whether the cells of an assignment are stored as cells of their columns' types. -/
def Suits (t : Table) (assignment : Assignment) : Prop :=
  ∀ j c cell, (Slot.field j, cell) ∈ assignment → t.columns[j]? = some c →
    (Affinity.ofType c.type.sqlType).store cell ≠ .null →
      c.type.Stores ((Affinity.ofType c.type.sqlType).store cell)

/-- The cells of values that columns accept are stored as cells of the columns' types. -/
theorem IsLaidOutAs.suits_of_bind (h : t.IsLaidOutAs rel) {values : RowValues}
    (haccepts : t.Accepts values) {assignment : Assignment}
    (hbind : rel.bind values = .ok assignment) : t.Suits assignment := by
  intro j c cell hmem hc
  obtain ⟨⟨name, v⟩, hentry, hbound⟩ := Except.exists_of_mem_mapM hbind hmem
  obtain ⟨other, hother, rfl, hv⟩ := haccepts _ hentry
  obtain ⟨i, hi⟩ := List.mem_iff_getElem?.1 hother
  dsimp only at hbound
  rw [h.slot?_eq hi] at hbound
  cases hcell : Cell.ofValue? v with
  | none =>
      rw [hcell] at hbound
      cases hbound
  | some bound =>
      rw [hcell] at hbound
      obtain ⟨hslotAt, rfl⟩ := Prod.mk.inj (Except.ok.inj hbound)
      -- The slot is that of a column beside the row id, so the column is at its position.
      have hij : i = j := by
        unfold Store.Relation.slotAt at hslotAt
        split at hslotAt
        · cases hslotAt
        · exact Slot.field.inj hslotAt
      subst hij
      obtain rfl : other = c := Option.some.inj (hi.symm.trans hc)
      exact ColumnType.stores_of_accepts hv hcell

/-! ## Changes -/

/-- **Added rows hold cells of their columns' types.** -/
theorem Types.insert (h : t.Types rel) (hconsistent : t.IsConsistent) {now id : Int64}
    {values : RowValues} (haccepts : t.Accepts values)
    (hinsert : rel.insert now values = .ok (rel', id)) : t.Types rel' := by
  have hlayout := h.toIsLaidOutAs.of_emptied (Relation.emptied_insert hinsert)
  obtain ⟨assignment, hbind, hinsert⟩ := Except.bind_eq_ok_iff.1 hinsert
  obtain ⟨_, -, hinsert⟩ := Except.bind_eq_ok_iff.1 hinsert
  obtain ⟨_, hcheck, hinsert⟩ := Except.bind_eq_ok_iff.1 hinsert
  obtain ⟨_, hpresent, -⟩ := Except.bind_eq_ok_iff.1 hcheck
  obtain ⟨rfl, rfl⟩ := Prod.mk.inj (Except.ok.inj hinsert)
  have hsuits := h.suits_of_bind haccepts hbind
  refine ⟨hlayout, fun r hr => ?_⟩
  rcases mem_place hr with rfl | hr
  · refine h.holds_rowOf hconsistent ?_ hpresent
    apply List.Forall₂.of_getElem?
    · rw [List.length_map, List.length_zipIdx, h.fields, List.length_map]
    · intro j c cell hc hcell
      rw [List.getElem?_map, List.getElem?_zipIdx, h.fields, List.getElem?_map, hc,
        Nat.zero_add] at hcell
      obtain rfl := Option.some.inj hcell
      dsimp only
      split
      · next given hgiven => exact fun hnull => .typed (hsuits j c given (mem_of_lookup hgiven) hc hnull)
      · exact Column.stores_fill (hconsistent.defaultFits c (List.mem_of_getElem? hc)) now
  · exact h.holds r hr

/-- Rows that are set hold cells of their columns' types. -/
theorem Types.setCells (h : t.Types rel) (hconsistent : t.IsConsistent) {assignment : Assignment}
    (hsuits : t.Suits assignment) {old new : Row} (hold : old ∈ rel.rows)
    (hset : rel.setCells assignment old = .ok new) (hpresent : rel.checkPresent new = .ok ()) :
    List.Forall₂ Column.Holds t.columns new.cells := by
  unfold Store.Relation.setCells at hset
  dsimp only at hset
  generalize hcells : List.map _ _ = cells at hset
  obtain ⟨id, rfl⟩ : ∃ id, rel.rowOf id cells = new := by
    split at hset
    · obtain ⟨id, -, hset⟩ := Except.bind_eq_ok_iff.1 hset
      exact ⟨id, Except.ok.inj hset⟩
    · exact ⟨old.id, Except.ok.inj hset⟩
  subst hcells
  have hheld := h.holds old hold
  refine h.holds_rowOf hconsistent ?_ hpresent
  apply List.Forall₂.of_getElem?
  · rw [List.length_map, List.length_zipIdx, List.length_zip, h.fields, List.length_map,
      hheld.length_eq, Nat.min_self]
  · intro j c cell hc hcell
    obtain ⟨kept, hkept, hholds⟩ := hheld.exists_getElem?_left hc
    have hzip : (rel.fields.zip old.cells)[j]? = some (Store.field c.definition, kept) := by
      rw [List.getElem?_zip_eq_some, h.fields, List.getElem?_map, hc]
      exact ⟨rfl, hkept⟩
    rw [List.getElem?_map, List.getElem?_zipIdx, hzip, Nat.zero_add] at hcell
    obtain rfl := Option.some.inj hcell
    dsimp only
    split
    · next given hgiven =>
        have hmem : (Slot.field j, given) ∈ assignment := List.mem_reverse.1 (mem_of_lookup hgiven)
        exact fun hnull => .typed (hsuits j c given hmem hc hnull)
    · exact hholds.stores

/-- **Changed rows hold cells of their columns' types.** -/
theorem Types.updateRows (h : t.Types rel) (hconsistent : t.IsConsistent) {assignment : Assignment}
    (hsuits : t.Suits assignment) {ids : List Int64}
    (hupdate : rel.updateRows assignment ids = .ok rel') : t.Types rel' := by
  induction ids generalizing rel with
  | nil =>
      obtain rfl := Except.ok.inj hupdate
      exact h
  | cons id ids ih =>
      rw [Store.Relation.updateRows] at hupdate
      split at hupdate
      · exact ih h hupdate
      · next old hfound =>
          obtain ⟨new, hset, hupdate⟩ := Except.bind_eq_ok_iff.1 hupdate
          obtain ⟨_, hcheck, hupdate⟩ := Except.bind_eq_ok_iff.1 hupdate
          obtain ⟨_, hpresent, -⟩ := Except.bind_eq_ok_iff.1 hcheck
          have hnew := h.setCells hconsistent hsuits (List.mem_of_find?_eq_some hfound) hset hpresent
          have hplaced :
              t.Types { rel with rows := place new (rel.rows.filter fun r => r.id ≠ id) } := by
            refine ⟨h.toIsLaidOutAs.of_emptied rfl, fun r hr => ?_⟩
            rcases mem_place hr with rfl | hr
            · exact hnew
            · exact h.holds r (List.mem_filter.1 hr).1
          exact ih hplaced hupdate

end Table

end Tabula
