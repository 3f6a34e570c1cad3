import Mathlib.Data.List.Induction
import Mathlib.Data.List.Nodup
import Mathlib.Data.String.Basic
import Tabula.Assoc

/-!
# Entries by key

A lookup does not depend on the order of entries with distinct keys (`find?_perm`). Setting and
removing entries keeps them in key order, and entries that are in key order are what is kept of them
(`ofList_eq_self`).
-/

namespace Tabula.Assoc

variable {α : Type} {m n : Assoc α} {key name : String} {value : α}

/-! ## Lookups -/

/-- What is found is there. -/
theorem mem_of_find? (h : find? m key = some value) : (key, value) ∈ m := by
  obtain ⟨entry, hentry, rfl⟩ := Option.map_eq_some_iff.1 h
  have hkey : entry.1 = key := by simpa using List.find?_some hentry
  rw [← hkey]
  exact List.mem_of_find?_eq_some hentry

/-- Where keys differ, each entry is found by its key. -/
theorem find?_of_mem (hnodup : (m.map (·.1)).Nodup) {entry : String × α} (hentry : entry ∈ m) :
    find? m entry.1 = some entry.2 := by
  induction m with
  | nil => cases hentry
  | cons first m ih =>
      obtain ⟨hfirst, hnodup⟩ := List.nodup_cons.1 hnodup
      rw [find?, List.find?_cons]
      rcases List.mem_cons.1 hentry with rfl | hentry
      · simp
      · have hne : first.1 ≠ entry.1 := fun heq =>
          hfirst (List.mem_map.2 ⟨entry, hentry, heq.symm⟩)
        simpa [hne, find?] using ih hnodup hentry

/-- Lookups of a key in lists with the same keys and related entries are related. -/
theorem rel_find? {β : Type} {R : α → β → Prop} {n : Assoc β}
    (h : List.Forall₂ (fun x y => y.1 = x.1 ∧ R x.2 y.2) m n) :
    Option.Rel R (find? m key) (find? n key) := by
  induction h with
  | nil => exact .none
  | @cons x y m n hfirst _ ih =>
      obtain ⟨hkey, hvalue⟩ := hfirst
      unfold find? at ih ⊢
      by_cases hx : x.1 = key
      · rw [List.find?_cons_of_pos (by simpa using hx),
          List.find?_cons_of_pos (by simpa [hkey] using hx)]
        exact .some hvalue
      · rw [List.find?_cons_of_neg (by simpa using hx),
          List.find?_cons_of_neg (by simpa [hkey] using hx)]
        exact ih

/-- Nothing is found exactly for what is no key. -/
theorem find?_eq_none_iff : find? m key = none ↔ key ∉ m.map (·.1) := by
  unfold find?
  rw [Option.map_eq_none_iff, List.find?_eq_none]
  constructor
  · intro h hmem
    obtain ⟨entry, hentry, hkey⟩ := List.mem_map.1 hmem
    simpa [hkey] using h entry hentry
  · intro h entry hentry
    simpa using fun hkey : entry.1 = key => h (List.mem_map.2 ⟨entry, hentry, hkey⟩)

/-- Entries with distinct keys can be looked up in any order. -/
theorem find?_perm (h : m.Perm n) (hnodup : (m.map (·.1)).Nodup) (key : String) :
    find? m key = find? n key := by
  cases hm : find? m key with
  | none =>
      rw [find?_eq_none_iff, (h.map _).mem_iff, ← find?_eq_none_iff] at hm
      exact hm.symm
  | some value =>
      have hmem : (key, value) ∈ n := h.mem_iff.1 (mem_of_find? hm)
      exact (find?_of_mem ((h.map _).nodup_iff.1 hnodup) hmem).symm

/-- Setting a key that is not there adds its entry. -/
theorem insert_perm (h : find? m key = none) : (insert m key value).Perm ((key, value) :: m) := by
  induction m with
  | nil => exact .refl _
  | cons entry m ih =>
      obtain ⟨k, v⟩ := entry
      rw [find?_eq_none_iff, List.map_cons, List.mem_cons, not_or] at h
      obtain ⟨hne, hrest⟩ := h
      rw [insert, if_neg (show ¬ key = k from hne)]
      split
      · exact .refl _
      · exact ((ih (find?_eq_none_iff.2 hrest)).cons _).trans (.swap _ _ _)

/-- Inserting a key leaves the others with their values. -/
theorem find?_insert_of_ne (hne : name ≠ key) : find? (insert m key value) name = find? m name := by
  have hkey : ¬ key = name := fun heq => hne heq.symm
  induction m with
  | nil => simp [insert, find?, hkey]
  | cons entry m ih =>
      obtain ⟨k, v⟩ := entry
      unfold insert
      split
      · simp [find?, hkey]
      split
      · next heq =>
          subst heq
          simp [find?, hkey]
      · unfold find? at ih ⊢
        rw [List.find?_cons, List.find?_cons]
        split
        · rfl
        · exact ih

/-- A key that is erased is not found. -/
theorem find?_erase_self : find? (erase m key) key = none := by
  rw [find?_eq_none_iff]
  intro hmem
  obtain ⟨entry, hentry, hkey⟩ := List.mem_map.1 hmem
  simpa [hkey] using (List.mem_filter.1 hentry).2

/-- Erasing a key leaves the others with their values. -/
theorem find?_erase_of_ne (hne : name ≠ key) : find? (erase m key) name = find? m name := by
  unfold find? erase
  rw [List.find?_filter]
  congr 2
  funext entry
  by_cases hname : entry.1 = name
  · simp [hname, hne]
  · simp [hname]

/-- With distinct keys the first and the last entry of a key are the same. -/
theorem find?_reverse (hnodup : (m.map (·.1)).Nodup) (key : String) :
    find? m.reverse key = find? m key :=
  (find?_perm (List.reverse_perm m).symm hnodup key).symm

/-! ## Key order -/

/-- Whether the keys of entries ascend. -/
def IsOrdered (m : Assoc α) : Prop := (keys m).Pairwise (· < ·)

/-- Keys in order are different. -/
theorem IsOrdered.nodup (h : IsOrdered m) : (m.map (·.1)).Nodup := h.imp fun hlt => ne_of_lt hlt

/-- Entries are still in order when one is erased. -/
theorem IsOrdered.erase (h : IsOrdered m) : IsOrdered (erase m key) :=
  h.sublist (List.filter_sublist.map _)

/-- An entry is the one that was inserted or was there. -/
theorem mem_of_mem_insert {entry : String × α} (h : entry ∈ insert m key value) :
    entry = (key, value) ∨ entry ∈ m := by
  induction m with
  | nil => exact .inl (List.mem_singleton.1 h)
  | cons first m ih =>
      obtain ⟨k, v⟩ := first
      unfold insert at h
      split at h
      · exact List.mem_cons.1 h
      split at h
      · rcases List.mem_cons.1 h with rfl | h
        · exact .inl rfl
        · exact .inr (List.mem_cons_of_mem _ h)
      · rcases List.mem_cons.1 h with rfl | h
        · exact .inr List.mem_cons_self
        · exact (ih h).imp_right (List.mem_cons_of_mem _)

/-- A key is the one that was inserted or was there. -/
theorem mem_keys_insert (h : name ∈ keys (insert m key value)) : name = key ∨ name ∈ keys m := by
  obtain ⟨entry, hentry, rfl⟩ := List.mem_map.1 h
  rcases mem_of_mem_insert hentry with rfl | hentry
  · exact .inl rfl
  · exact .inr (List.mem_map.2 ⟨entry, hentry, rfl⟩)

/-- Entries are still in order when one is inserted. -/
theorem IsOrdered.insert (h : IsOrdered m) : IsOrdered (insert m key value) := by
  induction m with
  | nil => exact List.pairwise_singleton _ _
  | cons entry m ih =>
      obtain ⟨k, v⟩ := entry
      obtain ⟨hfirst, hrest⟩ := List.pairwise_cons.1 h
      unfold Assoc.insert
      split
      · next hlt =>
          refine List.pairwise_cons.2 ⟨?_, h⟩
          intro other hother
          rcases List.mem_cons.1 hother with rfl | hother
          · exact hlt
          · exact hlt.trans (hfirst other hother)
      split
      · next heq =>
          subst heq
          exact List.pairwise_cons.2 ⟨hfirst, hrest⟩
      · next hlt hne =>
          refine List.pairwise_cons.2 ⟨?_, ih hrest⟩
          intro other hother
          rcases mem_keys_insert hother with rfl | hother
          · exact (lt_or_gt_of_ne hne).resolve_left hlt
          · exact hfirst other hother

/-- Changing values leaves entries in order. -/
theorem IsOrdered.map {β : Type} (h : IsOrdered m) (f : α → β) :
    IsOrdered (m.map fun entry => (entry.1, f entry.2)) := by
  unfold IsOrdered keys at h ⊢
  rwa [List.map_map]

/-- An entry whose key is the greatest comes last. -/
theorem insert_eq_concat (h : IsOrdered (m ++ [(key, value)])) :
    insert m key value = m ++ [(key, value)] := by
  induction m with
  | nil => rfl
  | cons entry m ih =>
      obtain ⟨k, v⟩ := entry
      obtain ⟨hfirst, hrest⟩ := List.pairwise_cons.1 h
      have hlt : k < key := hfirst key (by simp)
      rw [insert, if_neg hlt.asymm, if_neg hlt.ne', ih hrest]
      rfl

/-! ## Entries in any order -/

/-- Entries are inserted one after the other. -/
theorem ofList_concat (entries : List (String × α)) (entry : String × α) :
    ofList (entries ++ [entry]) = insert (ofList entries) entry.1 entry.2 :=
  List.foldl_concat _ _ _ _

/-- Entries that are inserted are in order. -/
theorem isOrdered_ofList (entries : List (String × α)) : IsOrdered (ofList entries) := by
  induction entries using List.reverseRecOn with
  | nil => exact List.Pairwise.nil
  | append_singleton entries entry ih =>
      rw [ofList_concat]
      exact ih.insert

/-- Entries that are in key order already are kept as they are. -/
theorem ofList_eq_self (h : IsOrdered m) : ofList m = m := by
  induction m using List.reverseRecOn with
  | nil => rfl
  | append_singleton m entry ih =>
      have hinit : IsOrdered m := h.sublist ((List.sublist_append_left m [entry]).map _)
      rw [ofList_concat, ih hinit, insert_eq_concat h]

/-- Entries with distinct keys are all kept. -/
theorem ofList_perm {entries : List (String × α)} (h : (entries.map (·.1)).Nodup) :
    (ofList entries).Perm entries := by
  induction entries using List.reverseRecOn with
  | nil => exact .refl _
  | append_singleton entries entry ih =>
      rw [List.map_append, List.map_singleton, List.nodup_append] at h
      obtain ⟨hinit, -, hlast⟩ := h
      have hperm := ih hinit
      have hnone : find? (ofList entries) entry.1 = none := by
        rw [find?_eq_none_iff, (hperm.map _).mem_iff]
        intro hmem
        exact hlast _ hmem _ (List.mem_singleton_self _) rfl
      rw [ofList_concat]
      exact (insert_perm hnone).trans ((hperm.cons _).trans (List.perm_append_singleton _ _).symm)

/-- Entries in key order are determined by which there are. -/
theorem IsOrdered.eq_of_perm (hm : IsOrdered m) (hn : IsOrdered n) (h : m.Perm n) : m = n :=
  h.eq_of_pairwise (fun _ _ _ _ hlt hgt => absurd hgt hlt.asymm) (List.pairwise_map.1 hm)
    (List.pairwise_map.1 hn)

/-- The order in which entries with distinct keys are given does not matter. -/
theorem ofList_eq_of_perm {entries entries' : List (String × α)} (h : entries.Perm entries')
    (hnodup : (entries.map (·.1)).Nodup) : ofList entries = ofList entries' := by
  have hnodup' : (entries'.map (·.1)).Nodup := (h.map _).nodup_iff.1 hnodup
  exact (isOrdered_ofList entries).eq_of_perm (isOrdered_ofList entries')
    ((ofList_perm hnodup).trans (h.trans (ofList_perm hnodup').symm))

/-- Only entries of the list are inserted. -/
theorem mem_of_mem_ofList {entries : List (String × α)} {entry : String × α}
    (h : entry ∈ ofList entries) : entry ∈ entries := by
  induction entries using List.reverseRecOn with
  | nil => cases h
  | append_singleton entries last ih =>
      rw [ofList_concat] at h
      rcases mem_of_mem_insert h with rfl | h
      · simp
      · exact List.mem_append_left _ (ih h)

end Tabula.Assoc
