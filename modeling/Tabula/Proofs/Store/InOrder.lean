import Tabula.Proofs.Store.Unique
import Tabula.Store.Basic

/-!
# Tables in order

A stored table is in order if its rows ascend by their ids, pass the check for null, and are unique. Main
statements: a table stays in order when rows are added, set and removed (`IsInOrder.insert`,
`IsInOrder.updateRows`, `IsInOrder.filter`), and setting rows to what they are changes nothing
(`IsInOrder.updateRows_eq_self`).
-/

namespace Tabula.Store.Relation

variable {rel rel' : Relation} {rows others : List Row} {r : Row} {assignment : Assignment}

/-! ## Ascending rows -/

/-- Whether rows are in ascending order of their ids, which all differ. -/
def Ascending (rows : List Row) : Prop := rows.Pairwise fun a b => a.id < b.id

/-- A row that is put in its place by id keeps the order. -/
theorem Ascending.place (h : Ascending rows) (hfresh : ∀ other ∈ rows, other.id ≠ r.id) :
    Ascending (place r rows) := by
  induction rows with
  | nil => exact List.pairwise_singleton _ _
  | cons other rows ih =>
      obtain ⟨hother, hrows⟩ := List.pairwise_cons.1 h
      obtain ⟨hne, hfresh⟩ := List.forall_mem_cons.1 hfresh
      unfold Relation.place
      split
      · next hlt =>
          refine List.pairwise_cons.2 ⟨?_, h⟩
          intro x hx
          rcases List.mem_cons.1 hx with rfl | hx
          · exact hlt
          · exact Int64.lt_trans hlt (hother x hx)
      · next hnot =>
          refine List.pairwise_cons.2 ⟨?_, ih hrows hfresh⟩
          intro x hx
          rcases List.mem_cons.1 ((perm_place r rows).mem_iff.1 hx) with rfl | hx
          · exact Int64.lt_of_le_of_ne (Int64.not_lt.1 hnot) hne
          · exact hother x hx

/-- A row that is taken out is put back where it was. -/
theorem Ascending.place_filter (h : Ascending rows) (hr : r ∈ rows) :
    Relation.place r (rows.filter fun other => other.id ≠ r.id) = rows := by
  induction rows with
  | nil => cases hr
  | cons other rows ih =>
      obtain ⟨hother, hrows⟩ := List.pairwise_cons.1 h
      rcases List.mem_cons.1 hr with rfl | hr
      · -- All rows behind it have a greater id.
        have hkept : rows.filter (fun other => other.id ≠ r.id) = rows := by
          refine List.filter_eq_self.2 fun x hx => ?_
          exact decide_eq_true (Int64.ne_of_lt (hother x hx)).symm
        rw [List.filter_cons_of_neg (by simp), hkept]
        cases rows with
        | nil => rfl
        | cons next rows =>
            unfold Relation.place
            rw [if_pos (hother next List.mem_cons_self)]
      · have hlt := hother r hr
        have hne : decide (other.id ≠ r.id) = true := decide_eq_true (Int64.ne_of_lt hlt)
        rw [List.filter_cons, if_pos hne, Relation.place, if_neg (Int64.lt_asymm hlt), ih hrows hr]

/-! ## Tables in order -/

/-- Whether the rows of a table ascend by their ids, have no null where there may be none, and no two of
them have the same key at an index. -/
structure IsInOrder (rel : Relation) : Prop where
  ascending : Ascending rel.rows
  present : ∀ r ∈ rel.rows, rel.checkPresent r = .ok ()
  unique : rel.IsUnique

theorem isInOrder_of_rows_eq_nil (h : rel.rows = []) : rel.IsInOrder := by
  refine ⟨?_, ?_, ?_⟩
  · unfold Ascending
    rw [h]
    exact .nil
  · simp [h]
  · unfold IsUnique
    rw [h]
    exact ⟨.nil, fun _ _ => .nil⟩

namespace IsInOrder

/-- A row that passes its checks beside some rows of a table can be placed among them. -/
theorem place (h : rel.IsInOrder) (hsub : others.Sublist rel.rows)
    (hcheck : rel.checkRow others r = .ok ()) :
    IsInOrder { rel with rows := place r others } := by
  have hascending : Ascending others := h.ascending.sublist hsub
  obtain ⟨⟨⟩, hpresent, -⟩ := Except.bind_eq_ok_iff.1 hcheck
  refine ⟨hascending.place (notMem_of_checkRow hcheck), ?_, ?_⟩
  · intro other hother
    rcases List.mem_cons.1 ((perm_place r others).mem_iff.1 hother) with rfl | hother
    · exact hpresent
    · exact h.present other (hsub.subset hother)
  · exact ((AreUnique.sublist h.unique hsub).cons hcheck).perm (perm_place _ _).symm

/-- **A table stays in order when a row is added.** -/
theorem insert {now id : Int64} {values : RowValues} (h : rel.IsInOrder)
    (hinsert : rel.insert now values = .ok (rel', id)) : rel'.IsInOrder := by
  obtain ⟨given, -, -, hcheck, rfl⟩ := insert_eq_ok_iff.1 hinsert
  exact h.place (.refl _) hcheck

/-- **A table stays in order when rows are set**, one after the other. -/
theorem updateRows {ids : List Int64} (h : rel.IsInOrder)
    (hupdate : rel.updateRows assignment ids = .ok rel') : rel'.IsInOrder := by
  induction ids generalizing rel with
  | nil =>
      obtain rfl := Except.ok.inj hupdate
      exact h
  | cons id ids ih =>
      rw [Relation.updateRows] at hupdate
      split at hupdate
      · exact ih h hupdate
      · obtain ⟨new, -, hupdate⟩ := Except.bind_eq_ok_iff.1 hupdate
        obtain ⟨⟨⟩, hcheck, hupdate⟩ := Except.bind_eq_ok_iff.1 hupdate
        exact ih (h.place List.filter_sublist hcheck) hupdate

/-- A table stays in order when rows are removed. -/
theorem filter (h : rel.IsInOrder) (p : Row → Bool) :
    IsInOrder { rel with rows := rel.rows.filter p } where
  ascending := h.ascending.sublist List.filter_sublist
  present r hr := h.present r (List.mem_filter.1 hr).1
  unique := h.unique.filter p

/-- A table stays in order when an index is added at which its rows differ. -/
theorem addIndex {i : Index} (h : rel.IsInOrder) (hcheck : checkIndex rel i rel.rows = .ok ()) :
    IsInOrder { rel with indexes := i :: rel.indexes } := by
  refine ⟨h.ascending, h.present, h.unique.ids, ?_⟩
  intro index hindex
  rcases List.mem_cons.1 hindex with rfl | hindex
  · show rel.rows.Pairwise _
    generalize rel.rows = rows at hcheck
    induction rows with
    | nil => exact .nil
    | cons r rows ih =>
        unfold checkIndex at hcheck
        split at hcheck
        · cases hcheck
        · next hany =>
            rw [Bool.not_eq_true, List.any_eq_false] at hany
            exact List.pairwise_cons.2 ⟨fun other hother => by simpa using hany other hother, ih hcheck⟩
  · exact h.unique.keys index hindex

/-! ## Rows as they are -/

/-- A row can stand beside the others. -/
theorem checkRow_self (h : rel.IsInOrder) (hr : r ∈ rel.rows) :
    rel.checkRow (rel.rows.filter fun other => other.id ≠ r.id) r = .ok () := by
  have hids : ¬ ((rel.rows.filter fun other => other.id ≠ r.id).any fun other => other.id = r.id) := by
    simp
  have hkeys : rel.checkKeys (rel.rows.filter fun other => other.id ≠ r.id) r = .ok () := by
    have hnone : rel.indexes.find? (fun i =>
        (rel.rows.filter fun other => other.id ≠ r.id).any (sameKey i.terms r)) = none := by
      refine List.find?_eq_none.2 fun i hi hany => ?_
      obtain ⟨other, hother, hsame⟩ := List.any_eq_true.1 hany
      obtain ⟨hother, hne⟩ := List.mem_filter.1 hother
      have : Std.Symm fun a b : Row => sameKey i.terms a b = false :=
        ⟨fun a b hab => by rw [sameKey_comm, hab]⟩
      have hdiffer := (h.unique.keys i hi).forall hr hother fun heq => by
        simp [heq] at hne
      rw [hsame] at hdiffer
      cases hdiffer
    unfold checkKeys
    rw [hnone]
  unfold checkRow
  rw [h.present r hr, Except.ok_bind]
  dsimp only
  rw [if_neg hids]
  exact hkeys

/-- **Rows that are set to what they are stay as they are.** -/
theorem updateRows_eq_self {ids : List Int64} (h : rel.IsInOrder)
    (hsame : ∀ r ∈ rel.rows, r.id ∈ ids → rel.setCells assignment r = .ok r) :
    rel.updateRows assignment ids = .ok rel := by
  induction ids with
  | nil => rfl
  | cons id ids ih =>
      have hrest := ih fun r hr hid => hsame r hr (List.mem_cons_of_mem _ hid)
      unfold Relation.updateRows
      split
      · exact hrest
      · next old hold =>
          have hmem := List.mem_of_find?_eq_some hold
          obtain rfl : old.id = id := by simpa using List.find?_some hold
          rw [hsame old hmem List.mem_cons_self, Except.ok_bind]
          dsimp only
          rw [h.checkRow_self hmem, Except.ok_bind, h.ascending.place_filter hmem]
          exact hrest

end IsInOrder

end Tabula.Store.Relation
