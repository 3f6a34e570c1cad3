import Tabula.Proofs.Database.Apart
import Tabula.Proofs.Query.Whole

/-!
# Rows that are created

What creating rows adds to a table: a row for each that is asked for, which shows its key, what it was
given, and the defaults of the columns that it leaves out. Main statements: how the key of a row is
settled (`Plans.isSettled`), and what is in a table afterwards (`exists_rows_of_addRows`).
-/

namespace Tabula

open Store (Relation Row isIdColumn sameName)
open Store.Relation (Assignment addedRow idOfCell lastOf newId place)

/-! ## Settled keys -/

namespace Table

variable {t : Table} {c : Column}

/-- What holds of the key holds of every key: a table has one. -/
theorem forall_primaryKey? (hc : t.primaryKey? = some c) {P : Column → Prop} (hP : P c) :
    ∀ d, t.primaryKey? = some d → P d := by
  intro d hd
  obtain rfl : c = d := Option.some.inj (hc.symm.trans hd)
  exact hP

/-- In a consistent table the key is the one column that is marked so. -/
theorem primaryKey?_eq (h : t.IsConsistent) (hc : c ∈ t.columns) (hkey : c.isKey = true) :
    t.primaryKey? = some c := by
  cases hfound : t.primaryKey? with
  | none => simpa [hkey] using List.find?_eq_none.1 hfound c hc
  | some d =>
      have hd : d.isKey = true := List.find?_some (p := Column.isKey) hfound
      obtain ⟨i, hi⟩ := List.mem_iff_getElem?.1 hc
      obtain ⟨j, hj⟩ := List.mem_iff_getElem?.1 (List.mem_of_find?_eq_some hfound)
      obtain ⟨hilt, rfl⟩ := List.getElem?_eq_some_iff.1 hi
      obtain ⟨hjlt, rfl⟩ := List.getElem?_eq_some_iff.1 hj
      have hpairwise := List.pairwise_iff_getElem.1 h.pairwise_isKey
      rcases Nat.lt_trichotomy i j with hlt | rfl | hlt
      · exact (hpairwise i j hilt hjlt hlt hkey hd).elim
      · rfl
      · exact (hpairwise j i hjlt hilt hlt hd hkey).elim

end Table

namespace Database

section Planning

variable {Keys : Type} [KeyGenerator Keys] {t : Table} {p p' : Planning Keys}
  {given row : RowValues} {key : Option Value} {generates : Bool}

/-- How the key of a row is settled: there is none, the row brings it along, it is left to the store,
or it is drawn. -/
inductive Settles (t : Table) (p : Planning Keys) (given : RowValues) :
    RowValues → Option Value → Planning Keys → Prop where
  | keyless (hnone : t.primaryKey? = none) : Settles t p given given none p
  | supplied {c : Column} {v : Value} (hc : t.primaryKey? = some c)
      (hv : suppliedKey? given c.name = some v) : Settles t p given given (some v) p
  | left {c : Column} (hc : t.primaryKey? = some c) (hv : suppliedKey? given c.name = none)
      (hkeys : p.keys = none) : Settles t p given (Assoc.erase given c.name) none p
  | drawn {c : Column} {v : Value} {source after : Keys} (hc : t.primaryKey? = some c)
      (hv : suppliedKey? given c.name = none) (hkeys : p.keys = some source)
      (hdrawn : drawUnused t p.used maxDraws source = (.ok v, after)) :
      Settles t p given (Assoc.insert given c.name v) (some v) ⟨v.text :: p.used, some after⟩

/-- A key that is settled is one that the row brings, one that is drawn, or none. -/
theorem settles_of_settleKey (h : settleKey t p given = (.ok (row, key), p')) :
    Settles t p given row key p' := by
  unfold settleKey at h
  split at h
  · next hnone =>
      simp only [Prod.mk.injEq, Except.ok.injEq] at h
      obtain ⟨⟨rfl, rfl⟩, rfl⟩ := h
      exact .keyless hnone
  · next c hc =>
      split at h
      · next v _ hv =>
          simp only [Prod.mk.injEq, Except.ok.injEq] at h
          obtain ⟨⟨rfl, rfl⟩, rfl⟩ := h
          exact .supplied hc hv
      · next hv hkeys =>
          simp only [Prod.mk.injEq, Except.ok.injEq] at h
          obtain ⟨⟨rfl, rfl⟩, rfl⟩ := h
          exact .left hc hv hkeys
      · next source hv hkeys =>
          split at h
          · next v after hdrawn =>
              simp only [Prod.mk.injEq, Except.ok.injEq] at h
              obtain ⟨⟨rfl, rfl⟩, rfl⟩ := h
              exact .drawn hc hv hkeys hdrawn
          · simp at h

/-- How rows are planned: the key of each is settled, in order, and its values are checked. -/
inductive Plans (t : Table) :
    Planning Keys → List RowValues → List PlannedRow → Planning Keys → Prop where
  | nil (p : Planning Keys) : Plans t p [] [] p
  | cons {p next last : Planning Keys} {given row : RowValues} {key : Option Value}
      {givens : List RowValues} {planned : List PlannedRow} (settles : Settles t p given row key next)
      (accepts : t.Accepts row) (plans : Plans t next givens planned last) :
      Plans t p (given :: givens) (⟨⟨t.name, row⟩, key⟩ :: planned) last

/-- Rows that are planned have their keys settled one after the other. -/
theorem plans_of_planRows {rows : List RowValues} {planned : List PlannedRow}
    (h : planRows t p rows = (.ok planned, p')) : Plans t p rows planned p' := by
  induction rows generalizing p planned with
  | nil =>
      simp only [planRows, Prod.mk.injEq, Except.ok.injEq] at h
      obtain ⟨rfl, rfl⟩ := h
      exact .nil _
  | cons given rows ih =>
      unfold planRows at h
      split at h
      · simp at h
      · next row key next hsettled =>
          split at h
          · simp at h
          · next statement hstatement =>
              obtain ⟨hvalues, rfl⟩ := Plan.insert_eq_ok hstatement
              split at h
              · next others last hothers =>
                  simp only [Prod.mk.injEq, Except.ok.injEq] at h
                  obtain ⟨rfl, rfl⟩ := h
                  exact .cons (settles_of_settleKey hsettled) (Plan.exists_of_checkValues hvalues)
                    (ih hothers)
              · simp at h

/-- What a row is once its key is settled: the key is the one that it brings along, or else one that
is drawn if keys are generated, or else left to the store; all else stays. -/
structure IsSettled (t : Table) (generates : Bool) (given row : RowValues) (key : Option Value) :
    Prop where
  ordered : Assoc.IsOrdered row
  find?_key : ∀ c, t.primaryKey? = some c → Assoc.find? row c.name = key
  find?_other : ∀ name, (∀ c, t.primaryKey? = some c → name ≠ c.name) →
    Assoc.find? row name = Assoc.find? given name
  ne_null : key ≠ some .null
  supplied : ∀ c, t.primaryKey? = some c → ∀ v, suppliedKey? given c.name = some v → key = some v
  isSome_iff : ∀ c, t.primaryKey? = some c →
    (key.isSome = true ↔ generates = true ∨ (suppliedKey? given c.name).isSome = true)

/-- Whether no null is drawn, if keys are generated at all. -/
def DrawsNoNull (t : Table) (keys : Option Keys) : Prop :=
  keys.isSome = true → ∀ (source after : Keys) v, KeyGenerator.draw source t = (.ok v, after) →
    v ≠ .null

theorem drawsNoNull_none : DrawsNoNull t (none : Option Keys) := nofun

omit [KeyGenerator Keys] in
/-- No source of keys draws null. -/
theorem drawsNoNull_keySource (keys : Option KeySource) : DrawsNoNull t keys := by
  rintro - source after v h rfl
  replace h : source.draw t = (.ok .null, after) := h
  unfold KeySource.draw KeySource.keyOfInt at h
  cases source with
  | sequence next =>
      dsimp only at h
      obtain ⟨h, -⟩ := Prod.mk.inj h
      split at h
      · split at h <;> cases h
      · cases h
  | uuid bits entropy =>
      dsimp only at h
      obtain ⟨h, -⟩ := Prod.mk.inj h
      split at h <;> cases h

/-- A key that is drawn is no null. -/
theorem DrawsNoNull.of_drawUnused {used : List String} {attempts : Nat} {source after : Keys}
    {v : Value} (hdraws : DrawsNoNull t (some source))
    (h : drawUnused t used attempts source = (.ok v, after)) : v ≠ .null := by
  induction attempts generalizing source with
  | zero => simp [drawUnused] at h
  | succ attempts ih =>
      unfold drawUnused at h
      split at h
      · next hdraw =>
          split at h
          · exact ih (fun _ => hdraws rfl) h
          · obtain ⟨hv, -⟩ := Prod.mk.inj h
            rw [← Except.ok.inj hv]
            exact hdraws rfl _ _ _ hdraw
      · simp at h

/-- A key that a row brings is no null. -/
theorem suppliedKey?_ne_null {name : String} : suppliedKey? given name ≠ some .null := by
  unfold suppliedKey?
  split
  · nofun
  · next hne => exact hne

/-- A key that a row brings is one of its values. -/
theorem find?_of_suppliedKey? {name : String} {v : Value} (h : suppliedKey? given name = some v) :
    Assoc.find? given name = some v := by
  unfold suppliedKey? at h
  split at h
  · cases h
  · exact h

/-- Settling a key does not take the generator away. -/
theorem Settles.isSome_keys (h : Settles t p given row key p') :
    p'.keys.isSome = p.keys.isSome := by
  cases h with
  | keyless | supplied | left => rfl
  | drawn _ _ hkeys => rw [hkeys]; rfl

/-- **How the key of a row is settled.** -/
theorem Settles.isSettled (hgiven : Assoc.IsOrdered given) (hdraws : DrawsNoNull t p.keys)
    (h : Settles t p given row key p') : IsSettled t p.keys.isSome given row key := by
  cases h with
  | keyless hnone =>
      have hno {P : Column → Prop} : ∀ c, t.primaryKey? = some c → P c := by
        intro c hc
        rw [hnone] at hc
        cases hc
      exact ⟨hgiven, hno, fun _ _ => rfl, nofun, hno, hno⟩
  | supplied hc hv =>
      refine ⟨hgiven, t.forall_primaryKey? hc (find?_of_suppliedKey? hv), fun _ _ => rfl, ?_,
        t.forall_primaryKey? hc fun w hw => hv.symm.trans hw,
        t.forall_primaryKey? hc (by simp [hv])⟩
      rw [← hv]
      exact suppliedKey?_ne_null
  | left hc hv hkeys =>
      refine ⟨hgiven.erase, t.forall_primaryKey? hc Assoc.find?_erase_self,
        fun name hname => Assoc.find?_erase_of_ne (hname _ hc), nofun,
        t.forall_primaryKey? hc fun w hw => ?_, t.forall_primaryKey? hc (by simp [hv, hkeys])⟩
      rw [hv] at hw
      cases hw
  | drawn hc hv hkeys hdrawn =>
      rw [hkeys] at hdraws
      refine ⟨hgiven.insert, t.forall_primaryKey? hc (Assoc.find?_insert_self _ _ _),
        fun name hname => Assoc.find?_insert_of_ne (hname _ hc), ?_,
        t.forall_primaryKey? hc fun w hw => ?_, t.forall_primaryKey? hc (by simp [hkeys])⟩
      · simpa using hdraws.of_drawUnused hdrawn
      · rw [hv] at hw
        cases hw

omit [KeyGenerator Keys] in
/-- A row that brings a key along has it. -/
theorem IsSettled.getD_key_of_supplied (h : IsSettled t generates given row key) {c : Column}
    (hc : t.primaryKey? = some c) (newKey : Value) :
    ∀ v, suppliedKey? given c.name = some v → key.getD newKey = v := by
  intro v hv
  rw [h.supplied c hc v hv]
  rfl

/-- The rows of a request are planned with their keys settled. -/
theorem Plans.isSettled {rows : List RowValues} {planned : List PlannedRow}
    (hrows : ∀ row ∈ rows, Assoc.IsOrdered row) (hdraws : DrawsNoNull t p.keys)
    (h : Plans t p rows planned p') :
    List.Forall₂ (fun given row => IsSettled t p.keys.isSome given row.statement.values row.key ∧
      t.Accepts row.statement.values ∧ row.statement.table = t.name) rows planned := by
  induction h with
  | nil => exact .nil
  | cons hsettles haccepts _ ih =>
      obtain ⟨hgiven, hrows⟩ := List.forall_mem_cons.1 hrows
      have hkeys := hsettles.isSome_keys
      have hrest := ih hrows fun hsome => hdraws (hkeys ▸ hsome)
      rw [hkeys] at hrest
      exact .cons ⟨hsettles.isSettled hgiven hdraws, haccepts, rfl⟩ hrest

end Planning

end Database

/-! ## Created rows -/

/-- The value that a row gives for a column; a null key counts as none. -/
def Column.given? (c : Column) (row : RowValues) : Option Value :=
  if c.isKey then Database.suppliedKey? row c.name else Assoc.find? row c.name

/-- Whether a column shows a value in a row that was created from some values and was given an id. A
key shows the id if the store gives it one, keys are generated, or the row brings one along, which is
the id then. All else shows what was given as the column keeps it, or the default. -/
def Column.IsCreated (c : Column) (generates : Bool) (row : RowValues) (id v : Value) : Prop :=
  if c.isKey = true ∧ (c.type = .int ∨ generates = true ∨ (c.given? row).isSome = true) then
    v = id ∧ ∀ given, c.given? row = some given → id = given
  else
    match c.given? row with
    | some given => v = c.type.kept given
    | none => ∃ given, c.IsDefault given ∧ v = c.type.kept given

/-- Whether a column shows what it keeps of a value that it was given, or else of a default. -/
def Column.Shows (c : Column) (given? : Option Value) (shown : Value) : Prop :=
  match given? with
  | some v => shown = c.type.kept v
  | none => ∃ v, c.IsDefault v ∧ shown = c.type.kept v

/-- Whether a result row shows what was created from some values and was given an id. -/
def Table.IsCreated (t : Table) (generates : Bool) (row : RowValues) (id : Value)
    (shown : ResultRow) : Prop :=
  List.Forall₂ (fun c field => field.label = c.name ∧ c.IsCreated generates row id field.value)
    t.columns shown

namespace Table

variable {t : Table} {rel rel' : Relation} {j : Nat} {c : Column} {r : Row}

/-- The value of a column in a record is what its cell shows. -/
theorem IsLaidOutAs.value_eq (h : t.IsLaidOutAs rel) (hc : t.columns[j]? = some c)
    (hr : t.IsRow rel r) {cell : Cell} (hcell : r.cells[j]? = some cell) :
    Record.value ⟨t, rel, r⟩ c = cell.toValue c.type := by
  unfold Record.value
  rw [h.cell_datum hc]
  rw [hr.getElem?_eq hc] at hcell
  rw [Option.some.inj hcell]

end Table

/-- What a record shows does not depend on the other rows of its table. -/
theorem Record.shown_congr {t : Table} {rel rel' : Relation} (h : rel'.emptied = rel.emptied)
    (r : Row) : Record.shown ⟨t, rel', r⟩ = Record.shown ⟨t, rel, r⟩ := by
  have hrel : rel' = { rel with rows := rel'.rows } :=
    congrArg (fun emptied : Relation => { emptied with rows := rel'.rows }) h
  rw [hrel]
  rfl

namespace Store.Relation

variable {rel : Relation} {assignment : Assignment} {id : Int64}

/-- A row that is given an id gets it. -/
theorem newId_of_int {n : Int64} (hgiven : lastOf assignment .rowId = some (.int n))
    (h : rel.newId assignment = .ok id) : id = n := by
  unfold newId at h
  rw [hgiven] at h
  exact (Except.ok.inj h).symm

end Store.Relation

namespace Table

variable {t : Table} {rel : Relation} {values given : RowValues} {assignment : Assignment}
  {now id : Int64} {key : Option Value} {generates : Bool} {j : Nat} {c : Column}

/-- What is read from a column that was given values or else filled in. -/
theorem IsGiven.shows {cell : Cell} (h : IsGiven values c (c.filled now) cell)
    (hfits : c.defaultFits = true) :
    c.Shows (Assoc.find? values c.name) (cell.toValue c.type) := by
  unfold Column.Shows
  split
  · next v hv => exact (h.keeps v hv).toValue_eq
  · next hnone =>
      obtain ⟨v, hdefault, hkeeps⟩ := c.exists_keeps_filled hfits now
      rw [h.eq_other hnone]
      exact ⟨v, hdefault, hkeeps.toValue_eq⟩

/-- A row with a whole number for its key has it as its id. -/
theorem IsLaidOutAs.getD_key_eq (h : t.IsLaidOutAs rel) (haccepts : t.Accepts values)
    (hsettled : Database.IsSettled t generates given values key)
    (hbind : rel.bind values = .ok assignment) (hid : rel.newId assignment = .ok id)
    (hc : t.columns[j]? = some c) (hprimary : t.primaryKey? = some c) (htype : c.type = .int)
    (hidField : rel.idField = some j) : key.getD (.int id) = .int id := by
  have hfind := hsettled.find?_key c hprimary
  cases key with
  | none => rfl
  | some k =>
      obtain ⟨d, hd, hname, haccept⟩ := haccepts _ (Assoc.mem_of_find? hfind)
      obtain rfl := h.eq_of_same_name hd (List.mem_of_getElem? hc) hname
      rw [htype] at haccept
      cases k with
      | int n =>
          have hlast := h.lastOf_eq haccepts (Store.Relation.binds_of_bind hbind) hc
          rw [Store.Relation.slotAt, if_pos hidField, Assoc.find?_reverse hsettled.ordered.nodup,
            hfind] at hlast
          rw [Store.Relation.newId_of_int hlast hid]
          rfl
      | null => exact absurd rfl hsettled.ne_null
      | _ => cases haccept

/-- The key that is the row id shows the id. -/
theorem IsLaidOutAs.isCreated_idKey (h : t.IsLaidOutAs rel) (haccepts : t.Accepts values)
    (hsettled : Database.IsSettled t generates given values key)
    (hbind : rel.bind values = .ok assignment) (hid : rel.newId assignment = .ok id)
    (hc : t.columns[j]? = some c) (hprimary : t.primaryKey? = some c) (htype : c.type = .int)
    (hidField : rel.idField = some j) :
    c.IsCreated generates given (key.getD (.int id)) (.int id) := by
  have hkey : c.isKey = true := List.find?_some (p := Column.isKey) hprimary
  unfold Column.IsCreated Column.given?
  rw [if_pos hkey, if_pos ⟨hkey, .inl htype⟩]
  exact ⟨(h.getD_key_eq haccepts hsettled hbind hid hc hprimary htype hidField).symm,
    hsettled.getD_key_of_supplied hprimary _⟩

/-- A key of text shows what it was settled to, or a default if it is not settled. -/
theorem isCreated_textKey (hsettled : Database.IsSettled t generates given values key)
    (hprimary : t.primaryKey? = some c) (hstring : c.type = .string) (newKey : Value) {v : Value}
    (hshows : c.Shows key v) : c.IsCreated generates given (key.getD newKey) v := by
  have hkey : c.isKey = true := List.find?_some (p := Column.isKey) hprimary
  have hsome := hsettled.isSome_iff c hprimary
  unfold Column.IsCreated Column.given?
  rw [if_pos hkey]
  cases key with
  | some k =>
      have hkept : v = c.type.kept k := hshows
      rw [if_pos ⟨hkey, .inr (hsome.1 rfl)⟩, hkept, hstring]
      exact ⟨rfl, hsettled.getD_key_of_supplied hprimary _⟩
  | none =>
      -- Nothing has settled the key, so none is generated and the row brings none along.
      have hunset := mt hsome.2 nofun
      have htype : c.type ≠ .int := by
        rw [hstring]
        nofun
      have hsupplied := Option.not_isSome_iff_eq_none.1 fun h => hunset (.inr h)
      rw [if_neg fun hand => hunset (hand.2.resolve_left htype), hsupplied]
      exact hshows

/-- Settling the key leaves the other columns as they were given. -/
theorem IsLaidOutAs.find?_of_not_isKey (h : t.IsLaidOutAs rel)
    (hsettled : Database.IsSettled t generates given values key) (hc : c ∈ t.columns)
    (hkey : ¬ c.isKey = true) : Assoc.find? values c.name = Assoc.find? given c.name := by
  apply hsettled.find?_other
  intro d hd hname
  obtain rfl := h.eq_of_same_name hc (List.mem_of_find?_eq_some hd) hname
  exact hkey (List.find?_some (p := Column.isKey) hd)

/-- **What a row that was added shows.** -/
theorem IsLaidOutAs.isCreated_addedRow (h : t.IsLaidOutAs rel) (hcheck : t.check = .ok ())
    (haccepts : t.Accepts values) (hsettled : Database.IsSettled t generates given values key)
    (hbind : rel.bind values = .ok assignment) (hid : rel.newId assignment = .ok id) :
    t.IsCreated generates given (key.getD (.int id))
      (Record.shown ⟨t, rel, rel.addedRow now assignment id⟩) := by
  have hconsistent := isConsistent_of_check hcheck
  have hbinds := Store.Relation.binds_of_bind hbind
  have hrow : t.IsRow rel (rel.addedRow now assignment id) :=
    h.isRow_addedRow hconsistent haccepts hbinds
  refine List.forall₂_map_right_iff.2 (List.forall₂_same.2 ?_)
  intro c hc
  refine ⟨rfl, ?_⟩
  obtain ⟨j, hj⟩ := List.mem_iff_getElem?.1 hc
  obtain ⟨cell, hcell, hidCell, hgiven⟩ := h.cell_addedRow now id haccepts hbinds hj
  show c.IsCreated generates given _ (Record.value _ c)
  rw [h.value_eq hj hrow hcell]
  have hfits := hconsistent.defaultFits c hc
  -- A key of whole numbers is the row id; a key of text and all other columns are cells that were
  -- given or filled in.
  by_cases hkey : c.isKey = true
  · have hprimary := primaryKey?_eq hconsistent hc hkey
    rcases ColumnType.isKeyType_iff.1 (isKeyType_of_check hcheck hc hkey) with htype | hstring
    · have hisId : isIdColumn c.definition = true := by
        unfold isIdColumn Column.definition
        rw [hkey, htype]
        rfl
      have hidField := h.idField_eq hconsistent hj hisId
      rw [hidCell hidField, htype]
      exact h.isCreated_idKey haccepts hsettled hbind hid hj hprimary htype hidField
    · have hidField : rel.idField ≠ some j := by
        intro hidField
        rcases h.type_of_idField hidField hj with htype | htype
        · cases hstring.symm.trans htype
        · cases hstring.symm.trans htype
      have hshows := (hgiven hidField).shows hfits
      rw [hsettled.find?_key c hprimary] at hshows
      exact isCreated_textKey hsettled hprimary hstring _ hshows
  · have hidField : rel.idField ≠ some j := by
      intro hidField
      exact hkey (Bool.and_eq_true_iff.1 (h.isIdColumn_of_idField hidField hj)).1
    have hshows := (hgiven hidField).shows hfits
    rw [h.find?_of_not_isKey hsettled hc hkey] at hshows
    unfold Column.IsCreated Column.given?
    rw [if_neg fun hand => hkey hand.1, if_neg hkey]
    exact hshows

end Table

/-! ## Rows that are added -/

namespace Database

variable {Keys : Type} {db after : Database Keys} {t : Table} {rel : Relation} {generates : Bool}
  {givens : List RowValues} {planned : List PlannedRow} {ids : List Value}

/-- A row that is added is in its table next to those that were there, and no other table is
changed. -/
theorem exists_row_of_insert {s s' : Store} {q : Sql.Insert} {given : RowValues} {key : Option Value}
    (hcheck : t.check = .ok ()) (hrel : s.relation? t.name = some rel) (hlayout : t.IsLaidOutAs rel)
    (hsettled : IsSettled t generates given q.values key) (haccepts : t.Accepts q.values)
    (htable : q.table = t.name) (h : s.insert q = .ok s') :
    ∃ rel' r, s'.relation? t.name = some rel' ∧ rel'.emptied = rel.emptied ∧
      rel'.rows.Perm (r :: rel.rows) ∧
      t.IsCreated generates given (key.getD (.int s'.lastId)) (Record.shown ⟨t, rel, r⟩) ∧
      ∀ name, sameName t.name name = false → s'.relation? name = s.relation? name := by
  obtain ⟨found, rel', id, hfound, hadded, rfl⟩ := Store.insert_eq_ok h
  rw [htable] at hfound
  obtain rfl : found = rel := Option.some.inj (hfound.symm.trans hrel)
  have hemptied := Relation.emptied_insert hadded
  obtain ⟨assignment, hbind, hid, -, rfl⟩ := Store.Relation.insert_eq_ok_iff.1 hadded
  exact ⟨_, _, Store.relation?_replace_self hrel rfl, hemptied, Store.Relation.perm_place _ _,
    hlayout.isCreated_addedRow hcheck haccepts hsettled hbind hid,
    fun name hname => Store.relation?_replace_other hrel rfl hname⟩

/-- Rows that are added are added one after the other. -/
theorem addRows_cons_eq_ok {row : PlannedRow} (h : addRows (row :: planned) db = (.ok ids, after)) :
    ∃ store keys, db.store.insert row.statement = .ok store ∧
      addRows planned { db with store } = (.ok keys, after) ∧
      ids = row.key.getD (.int store.lastId) :: keys := by
  unfold addRows addRow at h
  cases hinsert : db.store.insert row.statement with
  | error e =>
      rw [hinsert] at h
      cases (Prod.mk.inj h).1
  | ok store =>
      rw [hinsert] at h
      dsimp only at h
      split at h
      · next keys last hrest =>
          obtain ⟨hids, rfl⟩ := Prod.mk.inj h
          exact ⟨store, keys, rfl, hrest, (Except.ok.inj hids).symm⟩
      · cases (Prod.mk.inj h).1

/-- **The rows that are added are in their table next to those that were there**, and no other table
is changed. -/
theorem exists_rows_of_addRows (hcheck : t.check = .ok ())
    (hplanned : List.Forall₂ (fun given row =>
      IsSettled t generates given row.statement.values row.key ∧
      t.Accepts row.statement.values ∧ row.statement.table = t.name) givens planned)
    (hrel : db.store.relation? t.name = some rel) (hlayout : t.IsLaidOutAs rel)
    (h : addRows planned db = (.ok ids, after)) :
    ∃ rel' added, after.store.relation? t.name = some rel' ∧ rel'.emptied = rel.emptied ∧
      rel'.rows.Perm (rel.rows ++ added) ∧ ids.length = givens.length ∧
      List.Forall₂ (fun entry r => t.IsCreated generates entry.1 entry.2 (Record.shown ⟨t, rel, r⟩))
        (givens.zip ids) added ∧
      ∀ name, sameName t.name name = false →
        after.store.relation? name = db.store.relation? name := by
  induction hplanned generalizing db rel ids with
  | nil =>
      obtain ⟨hids, rfl⟩ := Prod.mk.inj h
      rw [← Except.ok.inj hids]
      exact ⟨rel, [], hrel, rfl, by simp, rfl, .nil, fun _ _ => rfl⟩
  | @cons given row givens planned hfirst _ ih =>
      obtain ⟨hsettled, haccepts, htable⟩ := hfirst
      obtain ⟨store, keys, hinsert, hrest, rfl⟩ := addRows_cons_eq_ok h
      obtain ⟨next, r, hnext, hemptied, hrows, hcreated, hothers⟩ :=
        exists_row_of_insert hcheck hrel hlayout hsettled haccepts htable hinsert
      obtain ⟨rel', added, hrel', hemptied', hrows', hlength, hcreated', hothers'⟩ :=
        ih hnext (hlayout.of_emptied hemptied) hrest
      refine ⟨rel', r :: added, hrel', hemptied'.trans hemptied, ?_, by simp [hlength],
        .cons hcreated (hcreated'.imp ?_), ?_⟩
      · exact (hrows'.trans (hrows.append_right added)).trans List.perm_middle.symm
      · intro entry other hother
        rwa [Record.shown_congr hemptied] at hother
      · intro name hname
        exact (hothers' name hname).trans (hothers name hname)

end Database

end Tabula
