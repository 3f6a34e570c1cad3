import Tabula.Proofs.Result
import Tabula.Store.Execute

/-!
# Stored tables

Which table of a store a name stands for, and what statements leave alone of it. Main statements:
replacing a table keeps what all other names stand for (`relation?_replace`), a statement that
changes rows replaces its table by one with other rows (`insert_eq_ok`, `update_eq_ok`,
`delete_eq_ok`), and so it keeps everything of a store but rows and the id of the last one
(`frame_insert`, `frame_update`, `frame_delete`).
-/

namespace Tabula.Store

open Sql (ColumnDefinition)

variable {s s' : Store}

/-! ## Names -/

/-- Names are the same if they are so in lower case. -/
theorem sameName_iff {a b : String} :
    sameName a b = true ↔ a.toList.map Char.toLower = b.toList.map Char.toLower :=
  decide_eq_true_iff

theorem sameName_self (a : String) : sameName a a = true := sameName_iff.2 rfl

/-- Names are the same whichever comes first. -/
theorem sameName_comm (a b : String) : sameName a b = sameName b a := by
  rw [Bool.eq_iff_iff, sameName_iff, sameName_iff]
  exact eq_comm

/-- Names that are the same name are the same as other names. -/
theorem sameName_congr {a b : String} (h : sameName a b = true) (c : String) :
    sameName a c = sameName b c := by
  rw [Bool.eq_iff_iff, sameName_iff, sameName_iff, sameName_iff.1 h]

/-- A name that is the same as one that is kept for the store's own tables is kept for them, too. -/
theorem isReserved_congr {a b : String} (h : sameName a b = true) : isReserved a = isReserved b := by
  unfold isReserved
  rw [sameName_iff.1 h]

/-- A table whose name is not kept for the store's own goes by that name only. -/
theorem namesOf_eq {name : String} (h : isReserved name = false) : Contents.namesOf name = [name] := by
  have hkept : ∀ kept ∈ Contents.names ++ Contents.temporaryNames, isReserved kept = true := by
    decide
  have hdiffers : ∀ kept ∈ Contents.names ++ Contents.temporaryNames, sameName name kept = false := by
    intro kept hmem
    rw [Bool.eq_false_iff]
    intro hsame
    rw [isReserved_congr hsame, hkept kept hmem] at h
    cases h
  unfold Contents.namesOf
  rw [List.any_eq_false.2, List.any_eq_false.2]
  · rfl
  · intro kept hmem
    simpa using hdiffers kept (List.mem_append_right _ hmem)
  · intro kept hmem
    simpa using hdiffers kept (List.mem_append_left _ hmem)

/-! ## Columns of new tables -/

section Columns

variable {table : String} {names : List String} {c : ColumnDefinition}
  {columns : List ColumnDefinition}

/-- A count is accepted up to the most that there may be. -/
theorem checkCount_eq_ok_iff {count most : Nat} {e : StorageError} :
    checkCount count most e = .ok () ↔ count ≤ most := by
  unfold checkCount
  split_ifs with h <;> simp [h]

/-- A default is accepted if it can be read. -/
theorem checkDefault_eq_ok_iff :
    checkDefault c = .ok () ↔ ∀ l ∈ c.default?, l.isReadable = true := by
  unfold checkDefault
  cases c.default? <;> simp

/-- What is checked of a column before those behind it. -/
theorem checkColumns_cons_eq_ok_iff : checkColumns table names (c :: columns) = .ok () ↔
    names.length + 1 ≤ maxTerms ∧ (∀ name ∈ names, sameName c.name name = false) ∧
      checkDefault c = .ok () ∧ checkColumns table (c.name :: names) columns = .ok () := by
  have hfresh : (∀ name ∈ names, sameName c.name name = false) ↔
      ¬ names.any (sameName c.name) = true := by simp
  rw [checkColumns, Except.bind_eq_ok_iff, hfresh]
  constructor
  · rintro ⟨⟨⟩, hcount, h⟩
    split at h
    · cases h
    next hany =>
    obtain ⟨⟨⟩, hdefault, h⟩ := Except.bind_eq_ok_iff.1 h
    exact ⟨checkCount_eq_ok_iff.1 hcount, hany, hdefault, h⟩
  · rintro ⟨hcount, hany, hdefault, h⟩
    refine ⟨(), checkCount_eq_ok_iff.2 hcount, ?_⟩
    rw [if_neg hany, hdefault]
    exact h

/-- **Columns are accepted one by one just when they fit together**: there are not too many with those
before them, no two names are the same, and every default can be read. -/
theorem checkColumns_eq_ok_iff (hnames : names.length ≤ maxTerms) :
    checkColumns table names columns = .ok () ↔
      names.length + columns.length ≤ maxTerms ∧
        (columns.map ColumnDefinition.name).Pairwise (fun a b => sameName a b = false) ∧
        (∀ c ∈ columns, ∀ name ∈ names, sameName c.name name = false) ∧
        ∀ c ∈ columns, checkDefault c = .ok () := by
  induction columns generalizing names with
  | nil => simpa [checkColumns] using hnames
  | cons c columns ih =>
      rw [checkColumns_cons_eq_ok_iff, List.map_cons, List.pairwise_cons, List.forall_mem_map,
        List.forall_mem_cons, List.forall_mem_cons, List.length_cons]
      -- The names before the others are those before the first, and its own.
      have hothers : (∀ d ∈ columns, ∀ name ∈ c.name :: names, sameName d.name name = false) ↔
          (∀ d ∈ columns, sameName c.name d.name = false) ∧
            ∀ d ∈ columns, ∀ name ∈ names, sameName d.name name = false := by
        simp only [List.forall_mem_cons, sameName_comm _ c.name, forall_and]
      constructor
      · rintro ⟨hcount, hfresh, hdefault, h⟩
        have hcount : (c.name :: names).length ≤ maxTerms := hcount
        obtain ⟨htotal, hpairwise, hnew, hdefaults⟩ := (ih hcount).1 h
        obtain ⟨hfirst, hnew⟩ := hothers.1 hnew
        rw [List.length_cons] at htotal
        exact ⟨by omega, ⟨hfirst, hpairwise⟩, ⟨hfresh, hnew⟩, hdefault, hdefaults⟩
      · rintro ⟨htotal, ⟨hfirst, hpairwise⟩, ⟨hfresh, hnew⟩, hdefault, hdefaults⟩
        have hcount : (c.name :: names).length ≤ maxTerms := by
          rw [List.length_cons]
          omega
        refine ⟨hcount, hfresh, hdefault, (ih hcount).2 ⟨?_, hpairwise, ?_, hdefaults⟩⟩
        · rw [List.length_cons]
          omega
        · exact hothers.2 ⟨hfirst, hnew⟩

end Columns

/-! ## Tables of names -/

/-- A table is found under its own name. -/
theorem sameName_of_relation? {name : String} {rel : Relation} (h : s.relation? name = some rel) :
    sameName rel.name name = true := by
  unfold relation? at h
  simpa using List.find?_some h

/-- Names that are the same name stand for one table. -/
theorem relation?_congr {a b : String} (h : sameName a b = true) : s.relation? a = s.relation? b := by
  unfold relation?
  congr 1
  funext rel
  rw [sameName_comm rel.name a, sameName_congr h, sameName_comm]

/-- A store that can be read has the stored tables. -/
theorem readable_of_relation? {name : String} {rel : Relation} (hsound : s.checkSound = .ok ())
    (h : s.relation? name = some rel) : s.readable name = .ok rel := by
  unfold readable
  rw [hsound, h]
  rfl

/-- A store that can be read and written has its tables to be changed. -/
theorem changeable_of_relation? {name : String} {rel : Relation} (hsound : s.checkSound = .ok ())
    (hwritable : s.checkWritable = .ok ()) (h : s.relation? name = some rel) :
    s.changeable name = .ok rel := by
  unfold changeable
  rw [readable_of_relation? hsound h, Except.ok_bind, h, hwritable]
  rfl

/-- What can be changed is a stored table. -/
theorem relation?_of_changeable {name : String} {rel : Relation} (h : s.changeable name = .ok rel) :
    s.relation? name = some rel := by
  unfold changeable readable at h
  obtain ⟨found, hfound, h⟩ := Except.bind_eq_ok_iff.1 h
  obtain ⟨-, -, hfound⟩ := Except.bind_eq_ok_iff.1 hfound
  cases hrel : s.relation? name with
  | none =>
      rw [hrel] at h
      cases h
  | some rel' =>
      rw [hrel] at h hfound
      obtain rfl := Except.ok.inj hfound
      obtain ⟨-, -, h⟩ := Except.bind_eq_ok_iff.1 h
      exact congrArg some (Except.ok.inj h)

/-- What is found among changed things is what is found, changed, if the change does not bear on it.
-/
theorem find?_map_of_congr {α : Type} {p : α → Bool} {f : α → α} (h : ∀ a, p (f a) = p a)
    (as : List α) : (as.map f).find? p = (as.find? p).map f := by
  rw [List.find?_map]
  congr 2
  funext a
  exact h a

/-- **Replacing a table keeps what other names stand for.** -/
theorem relation?_replace (s : Store) (rel : Relation) (name : String) :
    (s.replace rel).relation? name
      = if sameName rel.name name then (s.relation? name).map fun _ => rel
        else s.relation? name := by
  unfold replace relation?
  dsimp only
  rw [find?_map_of_congr]
  · cases hfound : s.relations.find? fun old => sameName old.name name with
    | none => simp
    | some old =>
        have hold : sameName old.name name = true := by simpa using List.find?_some hfound
        rw [Option.map_some, sameName_congr hold rel.name, sameName_comm name]
        split
        · rfl
        · rfl
  · intro old
    split
    · next hsame => rw [sameName_congr hsame]
    · rfl

/-- A table that is replaced is found under its name. -/
theorem relation?_replace_self {name : String} {rel rel' : Relation}
    (h : s.relation? name = some rel) (hname : rel'.name = rel.name) :
    (s.replace rel').relation? name = some rel' := by
  rw [relation?_replace, hname, if_pos (sameName_of_relation? h), h]
  rfl

/-- A table that is replaced leaves those of other names as they are. -/
theorem relation?_replace_other {name other : String} {rel rel' : Relation}
    (h : s.relation? name = some rel) (hname : rel'.name = rel.name)
    (hother : sameName name other = false) :
    (s.replace rel').relation? other = s.relation? other := by
  rw [relation?_replace, hname, if_neg]
  rw [Bool.not_eq_true, ← hother]
  exact sameName_congr (sameName_of_relation? h) other

/-! ## Frames -/

/-- A table without its rows. -/
def Relation.emptied (rel : Relation) : Relation := { rel with rows := [] }

/-- What statements never change of a store. -/
structure Frame (before after : Store) : Prop where
  entries : after.entries = before.entries
  now : after.now = before.now
  standing : after.standing = before.standing
  emptied : ∀ name, (after.relation? name).map Relation.emptied
    = (before.relation? name).map Relation.emptied

theorem Frame.refl (s : Store) : Frame s s := ⟨rfl, rfl, rfl, fun _ => rfl⟩

theorem Frame.trans {a b c : Store} (h : Frame a b) (h' : Frame b c) : Frame a c :=
  ⟨h'.entries.trans h.entries, h'.now.trans h.now, h'.standing.trans h.standing,
    fun name => (h'.emptied name).trans (h.emptied name)⟩

/-- A table that is replaced by itself with other rows is in the frame. -/
theorem frame_replace {name : String} {rel rel' : Relation} (h : s.relation? name = some rel)
    (hemptied : rel'.emptied = rel.emptied) : Frame s (s.replace rel') := by
  refine ⟨rfl, rfl, rfl, ?_⟩
  intro other
  rw [relation?_replace]
  split
  · next hsame =>
      have hname : rel'.emptied.name = rel.emptied.name := by rw [hemptied]
      have hname : rel'.name = rel.name := hname
      rw [hname] at hsame
      -- The other name stands for the same table as the name that the statement has.
      rw [← relation?_congr hsame, relation?_congr (sameName_of_relation? h), h]
      exact congrArg some hemptied
  · rfl

/-- Adding a row changes nothing but rows. -/
theorem Relation.emptied_insert {rel rel' : Relation} {now id : Int64} {values : RowValues}
    (h : rel.insert now values = .ok (rel', id)) : rel'.emptied = rel.emptied := by
  obtain ⟨assignment, -, h⟩ := Except.bind_eq_ok_iff.1 h
  obtain ⟨n, -, h⟩ := Except.bind_eq_ok_iff.1 h
  obtain ⟨-, -, h⟩ := Except.bind_eq_ok_iff.1 h
  obtain ⟨rfl, rfl⟩ := Prod.mk.inj (Except.ok.inj h)
  rfl

/-- Changing rows changes nothing but rows. -/
theorem Relation.emptied_updateRows {rel rel' : Relation} {assignment : Relation.Assignment}
    {ids : List Int64} (h : rel.updateRows assignment ids = .ok rel') :
    rel'.emptied = rel.emptied := by
  induction ids generalizing rel with
  | nil =>
      obtain rfl := Except.ok.inj h
      rfl
  | cons id ids ih =>
      rw [Relation.updateRows] at h
      split at h
      · exact ih h
      · obtain ⟨new, -, h⟩ := Except.bind_eq_ok_iff.1 h
        obtain ⟨-, -, h⟩ := Except.bind_eq_ok_iff.1 h
        have hrest := ih h
        exact hrest

/-! ## Statements -/

/-- What adding a row does: the table is replaced by one with the row. -/
theorem insert_eq_ok {q : Sql.Insert} (h : s.insert q = .ok s') :
    ∃ rel rel' id, s.relation? q.table = some rel ∧ rel.insert s.now q.values = .ok (rel', id) ∧
      s' = { s.replace rel' with lastId := id } := by
  obtain ⟨-, -, h⟩ := Except.bind_eq_ok_iff.1 h
  obtain ⟨rel, hrel, h⟩ := Except.bind_eq_ok_iff.1 h
  obtain ⟨⟨rel', id⟩, hinsert, h⟩ := Except.bind_eq_ok_iff.1 h
  exact ⟨rel, rel', id, relation?_of_changeable hrel, hinsert, (Except.ok.inj h).symm⟩

/-- What setting columns does: the table is replaced by one in which the rows that meet the condition
are set, in some order. -/
theorem update_eq_ok {q : Sql.Update} {n : Nat} (h : s.update q = .ok (s', n)) :
    ∃ rel assignment rows arrangement ids rel', s.relation? q.table = some rel ∧
      rel.bind q.values = .ok assignment ∧ matching rel q.condition = .ok (rows, arrangement) ∧
      ids.Perm (rows.map Row.id) ∧ rel.updateRows assignment ids = .ok rel' ∧
      s' = s.replace rel' ∧ n = rows.length := by
  obtain ⟨-, -, h⟩ := Except.bind_eq_ok_iff.1 h
  obtain ⟨rel, hrel, h⟩ := Except.bind_eq_ok_iff.1 h
  obtain ⟨assignment, hbind, h⟩ := Except.bind_eq_ok_iff.1 h
  obtain ⟨⟨rows, arrangement⟩, hmatching, h⟩ := Except.bind_eq_ok_iff.1 h
  obtain ⟨rel', hupdate, h⟩ := Except.bind_eq_ok_iff.1 h
  obtain ⟨hstore, hcount⟩ := Prod.mk.inj (Except.ok.inj h)
  refine ⟨rel, assignment, rows, arrangement, _, rel', relation?_of_changeable hrel, hbind, hmatching,
    ?_, hupdate, hstore.symm, hcount.symm⟩
  split
  · exact .refl _
  · exact List.mergeSort_perm _ _

/-- What removing rows does: the table is replaced by one without the rows that meet the
condition. -/
theorem delete_eq_ok {q : Sql.Delete} {n : Nat} (h : s.delete q = .ok (s', n)) :
    ∃ rel rows arrangement, s.relation? q.table = some rel ∧
      matching rel q.condition = .ok (rows, arrangement) ∧
      s' = s.replace
        { rel with rows := rel.rows.filter fun r => !rows.any fun gone => gone.id = r.id } ∧
      n = rows.length := by
  obtain ⟨-, -, h⟩ := Except.bind_eq_ok_iff.1 h
  obtain ⟨rel, hrel, h⟩ := Except.bind_eq_ok_iff.1 h
  obtain ⟨⟨rows, arrangement⟩, hmatching, h⟩ := Except.bind_eq_ok_iff.1 h
  obtain ⟨hstore, hcount⟩ := Prod.mk.inj (Except.ok.inj h)
  exact ⟨rel, rows, arrangement, relation?_of_changeable hrel, hmatching, hstore.symm, hcount.symm⟩

/-- An insert statement changes no more than rows. -/
theorem frame_insert {q : Sql.Insert} (h : s.insert q = .ok s') : Frame s s' := by
  obtain ⟨rel, rel', id, hrel, hinsert, rfl⟩ := insert_eq_ok h
  have hframe := frame_replace hrel (Relation.emptied_insert hinsert)
  exact ⟨hframe.entries, hframe.now, hframe.standing, hframe.emptied⟩

/-- An update statement changes no more than rows. -/
theorem frame_update {q : Sql.Update} {n : Nat} (h : s.update q = .ok (s', n)) : Frame s s' := by
  obtain ⟨rel, assignment, rows, arrangement, ids, rel', hrel, -, -, -, hupdate, rfl, -⟩ :=
    update_eq_ok h
  exact frame_replace hrel (Relation.emptied_updateRows hupdate)

/-- A delete statement changes no more than rows. -/
theorem frame_delete {q : Sql.Delete} {n : Nat} (h : s.delete q = .ok (s', n)) : Frame s s' := by
  obtain ⟨rel, rows, arrangement, hrel, -, rfl, -⟩ := delete_eq_ok h
  exact frame_replace hrel rfl

end Tabula.Store
