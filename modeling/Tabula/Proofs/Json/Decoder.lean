import Tabula.Json.Decoder
import Tabula.Proofs.Json.Document

/-!
# Decoding JSON values

What decoders read from JSON values. For each there is what it can give, and a value from which it
reads a given result.
-/

namespace Tabula.Json

namespace Document

/-- Null is read from null alone. -/
theorem eq_null_of_toJson {j : Json} (h : (ofJson j).toJson = .ok .null) : j = .null := by
  cases j with
  | null => rfl
  | bool | int | float | string => cases h
  | array items =>
      rw [toJson_ofJson_array] at h
      obtain ⟨values, -, h⟩ := Except.map_eq_ok_iff.1 h
      cases h
  | object fields =>
      rw [toJson_ofJson_object] at h
      obtain ⟨entries, -, h⟩ := Except.map_eq_ok_iff.1 h
      cases h

end Document

/-! ## Names -/

/-- Whether a key is the name itself or one of its further spellings. -/
def Name.IsSpelled (n : Name) (key : String) : Prop :=
  key ∈ n.name :: n.aliases

instance (n : Name) (key : String) : Decidable (n.IsSpelled key) :=
  inferInstanceAs (Decidable (key ∈ n.name :: n.aliases))

/-- The spellings of a name are the ways in which it is spelled. -/
theorem Name.mem_spellings {n : Name} {key : String} : key ∈ n.spellings ↔ n.IsSpelled key :=
  List.mem_mergeSort

namespace Decoder

variable {α β : Type} {d : Decoder α} {e : Decoder β} {j k : Json}

/-! ## Plain values -/

/-- JSON is read as the document that it is. -/
theorem ofJson_json_eq_ok_iff : ofJson json j = .ok k ↔ (Document.ofJson j).toJson = .ok k :=
  Except.mapError_eq_ok_iff

/-- JSON in order is read as it is. -/
theorem ofJson_json (h : j.IsOrdered) : ofJson json j = .ok j :=
  ofJson_json_eq_ok_iff.2 (Document.toJson_ofJson h)

theorem ofJson_string (s : String) : ofJson string (.string s) = .ok s := rfl

/-- A natural number is read as it is. -/
theorem ofJson_natural (n : Nat) : ofJson natural (.int n) = .ok n := by
  unfold ofJson Document.ofJson natural
  dsimp only
  rw [if_neg (Int.not_lt.2 (Int.natCast_nonneg n)), Int.toNat_natCast]

/-! ## Values that may be null -/

/-- What is no null is read as an optional value that is there. -/
theorem optional_of_ne_null {origin : Origin} (h : j ≠ .null) :
    optional d origin (.ofJson j) = some <$> d origin (.ofJson j) := by
  cases j with
  | null => exact absurd rfl h
  | bool | int | float | string | array | object => rfl

/-- An optional value that is there was read from what is no null. -/
theorem of_ofJson_optional {a : α} (h : ofJson (optional d) j = .ok (some a)) :
    j ≠ .null ∧ d.ofJson j = .ok a := by
  by_cases hnull : j = .null
  · subst hnull
    cases h
  · rw [ofJson, optional_of_ne_null hnull] at h
    obtain ⟨b, hb, heq⟩ := Except.map_eq_ok_iff.1 h
    exact ⟨hnull, Option.some.inj heq ▸ hb⟩

/-! ## Lists and pairs -/

/-- An array is read item by item. -/
theorem ofJson_list_array (d : Decoder α) (items : List Json) :
    ofJson (list d) (.array items) = items.mapM d.ofJson := by
  show (Document.itemsOfJson items).mapM (d .value) = _
  induction items with
  | nil => rfl
  | cons item items ih =>
      rw [Document.itemsOfJson, List.mapM_cons, List.mapM_cons, ih]
      rfl

/-- Every item that is read was read from an item. -/
theorem exists_of_ofJson_list {values : List α} (h : ofJson (list d) j = .ok values) {a : α}
    (ha : a ∈ values) : ∃ item, d.ofJson item = .ok a := by
  cases j with
  | null | bool | int | float | string | object => cases h
  | array items =>
      rw [ofJson_list_array] at h
      obtain ⟨item, -, hread⟩ := Except.exists_of_mem_mapM h ha
      exact ⟨item, hread⟩

/-- A list is read from an array if every item is read from what is written for it. -/
theorem ofJson_list {write : α → Json} {values : List α}
    (h : ∀ a ∈ values, d.ofJson (write a) = .ok a) :
    ofJson (list d) (.array (values.map write)) = .ok values := by
  rw [ofJson_list_array, Except.mapM_eq_ok_iff, List.forall₂_map_left_iff]
  exact List.forall₂_same.2 h

/-- A pair is read from an array of two. -/
theorem ofJson_pair {a : α} {b : β} (ha : d.ofJson j = .ok a) (hb : e.ofJson k = .ok b) :
    ofJson (pair d e) (.array [j, k]) = .ok (a, b) := by
  show (do
    let a ← d.ofJson j
    let b ← e.ofJson k
    return (a, b)) = _
  rw [ha, hb]
  rfl

/-! ## Variants -/

/-- A variant without a value is read from its name. -/
theorem ofJson_variant {variants : List (Name × Payload α)} {name : String} {a : α}
    (h : chosen variants name = .ok (.nothing a)) :
    ofJson (variant variants) (.string name) = .ok a := by
  show (chosen variants name >>= _) = _
  rw [h]
  rfl

/-! ## Entries by key -/

/-- An object is read field by field, the last of each name. -/
theorem ofJson_assoc_object (d : Decoder α) (fields : List (String × Json)) :
    ofJson (assoc d) (.object fields)
      = Assoc.ofList <$> fields.mapM fun field => (fun a => (field.1, a)) <$> d.ofJson field.2 := by
  show Assoc.ofList <$> (Document.fieldsOfJson fields).mapM _ = _
  congr 1
  induction fields with
  | nil => rfl
  | cons field fields ih =>
      rw [Document.fieldsOfJson, List.mapM_cons, List.mapM_cons, ih]
      show (d.ofJson field.2 >>= _) >>= _ = _
      cases d.ofJson field.2 <;> rfl

/-- What is read by key is in key order, and was read from the values of fields. -/
theorem of_ofJson_assoc {m : Assoc α} (h : ofJson (assoc d) j = .ok m) :
    Assoc.IsOrdered m ∧ ∀ entry ∈ m, ∃ item, d.ofJson item = .ok entry.2 := by
  cases j with
  | null | bool | int | float | string | array => cases h
  | object fields =>
      rw [ofJson_assoc_object] at h
      obtain ⟨entries, hentries, rfl⟩ := Except.map_eq_ok_iff.1 h
      refine ⟨Assoc.isOrdered_ofList entries, fun entry hentry => ?_⟩
      obtain ⟨field, -, hread⟩ :=
        Except.exists_of_mem_mapM hentries (Assoc.mem_of_mem_ofList hentry)
      obtain ⟨a, ha, rfl⟩ := Except.map_eq_ok_iff.1 hread
      exact ⟨field.2, ha⟩

/-- Entries in key order are read from an object if each is read from what is written for it. -/
theorem ofJson_assoc (write : α → Json) {m : Assoc α} (hordered : Assoc.IsOrdered m)
    (h : ∀ entry ∈ m, d.ofJson (write entry.2) = .ok entry.2) :
    ofJson (assoc d) (.object (m.map fun entry => (entry.1, write entry.2))) = .ok m := by
  have hread : (m.map fun entry => (entry.1, write entry.2)).mapM
      (fun field => (fun a => (field.1, a)) <$> d.ofJson field.2) = .ok m := by
    rw [Except.mapM_eq_ok_iff, List.forall₂_map_left_iff]
    refine List.forall₂_same.2 fun entry hentry => ?_
    rw [h entry hentry]
    rfl
  rw [ofJson_assoc_object, hread]
  show Except.ok (Assoc.ofList m) = _
  rw [Assoc.ofList_eq_self hordered]

end Decoder

end Tabula.Json
