import Tabula.Json.Document
import Tabula.Proofs.Assoc
import Tabula.Proofs.Result

/-!
# JSON values read as documents

Reading a JSON value as a document puts the fields of its objects in key order, at every depth
(`isOrdered_of_toJson`), and changes nothing else: a value whose fields are in key order already is
read as itself (`toJson_ofJson`).
-/

namespace Tabula.Json

variable {items : List Json} {fields : List (String × Json)} {j k : Json}

/-- Whether the fields of all objects in a value are in key order. -/
inductive IsOrdered : Json → Prop
  | null : IsOrdered .null
  | bool (b : Bool) : IsOrdered (.bool b)
  | int (n : Int) : IsOrdered (.int n)
  | float (x : Float) : IsOrdered (.float x)
  | string (s : String) : IsOrdered (.string s)
  | array {items : List Json} (hitems : ∀ item ∈ items, IsOrdered item) : IsOrdered (.array items)
  | object {fields : List (String × Json)} (hkeys : Assoc.IsOrdered fields)
      (hfields : ∀ field ∈ fields, IsOrdered field.2) : IsOrdered (.object fields)

namespace Document

/-! ## Values as documents -/

/-- Items are documents one by one. -/
theorem itemsOfJson_eq_map (items : List Json) : itemsOfJson items = items.map ofJson := by
  induction items with
  | nil => rfl
  | cons item items ih => rw [itemsOfJson, ih, List.map_cons]

/-- So are fields, under their keys. -/
theorem fieldsOfJson_eq_map (fields : List (String × Json)) :
    fieldsOfJson fields = fields.map fun field => (.ok field.1, ofJson field.2) := by
  induction fields with
  | nil => rfl
  | cons field fields ih => rw [fieldsOfJson, ih, List.map_cons]

/-- Items are read back one by one. -/
theorem itemsToJson_itemsOfJson (items : List Json) :
    itemsToJson (itemsOfJson items) = items.mapM fun item => (ofJson item).toJson := by
  induction items with
  | nil => rfl
  | cons item items ih => rw [itemsOfJson, itemsToJson, ih, List.mapM_cons]

/-- So are fields, under their keys. -/
theorem fieldsToJson_fieldsOfJson (fields : List (String × Json)) :
    fieldsToJson (fieldsOfJson fields)
      = fields.mapM fun field => (fun value => (field.1, value)) <$> (ofJson field.2).toJson := by
  induction fields with
  | nil => rfl
  | cons field fields ih =>
      rw [fieldsOfJson, fieldsToJson, ih, List.mapM_cons]
      show ((ofJson field.2).toJson >>= _) = _
      cases (ofJson field.2).toJson <;> rfl

/-- An array is read back item by item. -/
theorem toJson_ofJson_array (items : List Json) :
    (ofJson (.array items)).toJson
      = .array <$> items.mapM fun item => (ofJson item).toJson := by
  rw [ofJson, toJson, itemsToJson_itemsOfJson]

/-- An object is read back field by field, in the order of keys. -/
theorem toJson_ofJson_object (fields : List (String × Json)) :
    (ofJson (.object fields)).toJson
      = (fun fields => .object (Assoc.ofList fields)) <$>
          fields.mapM fun field => (fun value => (field.1, value)) <$> (ofJson field.2).toJson := by
  rw [ofJson, toJson, fieldsToJson_fieldsOfJson]

/-! ## Key order -/

/-- What is read has its fields in key order. -/
theorem isOrdered_of_toJson {j k : Json} (h : (ofJson j).toJson = .ok k) : k.IsOrdered := by
  -- By recursion on the value: its parts are in lists, which structural induction does not go under.
  match j, h with
  | .null, h =>
      obtain rfl := Except.ok.inj h
      exact .null
  | .bool b, h =>
      obtain rfl := Except.ok.inj h
      exact .bool b
  | .int n, h =>
      obtain rfl := Except.ok.inj h
      exact .int n
  | .float x, h =>
      obtain rfl := Except.ok.inj h
      exact .float x
  | .string s, h =>
      obtain rfl := Except.ok.inj h
      exact .string s
  | .array items, h =>
      rw [toJson_ofJson_array] at h
      obtain ⟨values, hvalues, rfl⟩ := Except.map_eq_ok_iff.1 h
      refine .array fun value hvalue => ?_
      obtain ⟨item, hitem, hread⟩ := Except.exists_of_mem_mapM hvalues hvalue
      exact isOrdered_of_toJson hread
  | .object fields, h =>
      rw [toJson_ofJson_object] at h
      obtain ⟨entries, hentries, rfl⟩ := Except.map_eq_ok_iff.1 h
      refine .object (Assoc.isOrdered_ofList entries) fun entry hentry => ?_
      obtain ⟨⟨name, field⟩, hfield, hread⟩ :=
        Except.exists_of_mem_mapM hentries (Assoc.mem_of_mem_ofList hentry)
      obtain ⟨value, hvalue, rfl⟩ := Except.map_eq_ok_iff.1 hread
      exact isOrdered_of_toJson hvalue
termination_by j
decreasing_by
  · have hlt := List.sizeOf_lt_of_mem hitem
    simp_wf
    omega
  · have hlt := List.sizeOf_lt_of_mem hfield
    simp_wf
    simp only [Prod.mk.sizeOf_spec] at hlt
    omega

/-- Fields whose values are read as themselves are put in key order. -/
theorem toJson_ofJson_object_of_forall
    (h : ∀ field ∈ fields, (ofJson field.2).toJson = .ok field.2) :
    (ofJson (.object fields)).toJson = .ok (.object (Assoc.ofList fields)) := by
  have hfields : fields.mapM (fun field => (fun value => (field.1, value)) <$>
      (ofJson field.2).toJson) = .ok fields := by
    refine Except.mapM_eq_ok_iff.2 (List.forall₂_same.2 fun field hfield => ?_)
    rw [h field hfield]
    rfl
  rw [toJson_ofJson_object, hfields]
  rfl

/-- A value whose fields are in key order is read as itself. -/
theorem toJson_ofJson (h : j.IsOrdered) : (ofJson j).toJson = .ok j := by
  induction h with
  | null | bool | int | float | string => rfl
  | @array items _ ih =>
      have hitems : items.mapM (fun item => (ofJson item).toJson) = .ok items :=
        Except.mapM_eq_ok_iff.2 (List.forall₂_same.2 ih)
      rw [toJson_ofJson_array, hitems]
      rfl
  | object hkeys _ ih => rw [toJson_ofJson_object_of_forall ih, Assoc.ofList_eq_self hkeys]

end Document

end Tabula.Json
