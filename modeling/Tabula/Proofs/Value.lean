import Tabula.Proofs.Json.Decoder
import Tabula.Value

/-!
# Values read from JSON

Values are read from JSON in two ways. The comparands of filters are read by the kind of the JSON value
(`Value.ofJson?`); the fields of rows and the defaults of columns are read by the first alternative that
fits (`Value.decoder`). Main statement: both read the same value, both fail exactly if there is an object
somewhere, and a value that is written as JSON is read back by both (`Value.reads_alike`).
-/

namespace Tabula

open Json (Decoder Document)

/-- Whether there is an object somewhere in a JSON value. -/
inductive Json.HasObject : Json → Prop
  | object (fields : List (String × Json)) : HasObject (.object fields)
  | array {items : List Json} {item : Json} (hmem : item ∈ items) (h : HasObject item) :
      HasObject (.array items)

/-- An array has an object if one of its items has. -/
@[simp] theorem Json.hasObject_array_iff {items : List Json} :
    (array items).HasObject ↔ ∃ item ∈ items, item.HasObject := by
  constructor
  · rintro (_ | ⟨hmem, h⟩)
    exact ⟨_, hmem, h⟩
  · rintro ⟨item, hmem, h⟩
    exact .array hmem h

namespace Value

/-! ## Reading by kind -/

mutual

/-- The only JSON values that have no value are those with an object in them. -/
theorem ofJson?_eq_none_iff : ∀ j : Json, ofJson? j = none ↔ j.HasObject
  | .null | .bool _ | .int _ | .float _ | .string _ => ⟨nofun, nofun⟩
  | .array items => by simp [ofJson?, ofJsonItems?_eq_none_iff items]
  | .object fields => ⟨fun _ => .object fields, fun _ => rfl⟩

theorem ofJsonItems?_eq_none_iff :
    ∀ items : List Json, ofJsonItems? items = none ↔ ∃ item ∈ items, item.HasObject
  | [] => by simp [ofJsonItems?]
  | item :: items => by
      have hitem := ofJson?_eq_none_iff item
      have hitems := ofJsonItems?_eq_none_iff items
      rw [ofJsonItems?, List.exists_mem_cons_iff, ← hitem, ← hitems]
      cases ofJson? item <;> cases ofJsonItems? items <;> simp

end

/-! ## Reading by alternatives -/

mutual

/-- The first alternative that fits is that of the kind. -/
theorem ofDocument?_ofJson : ∀ j : Json, ofDocument? (.ofJson j) = ofJson? j
  | .null => by rfl
  | .bool b => by rfl
  | .int n => by
      show (Decoder.firstOf? scalarDecoders (.number (.ok (.int n))) <|> none) = some (ofInt n)
      unfold Decoder.firstOf? ofInt
      -- A whole number that does not fit is left to the alternative of floats.
      by_cases hrange : (Int64.minValue.toInt ≤ n && n ≤ Int64.maxValue.toInt) = true
      · simp only [scalarDecoders, List.findSome?, Decoder.map, Decoder.integer, if_pos hrange]
        rfl
      · simp only [scalarDecoders, List.findSome?, Decoder.map, Decoder.integer, Decoder.real,
          if_neg hrange]
        split_ifs <;> rfl
  | .float x => by rfl
  | .string s => by rfl
  | .array items => by
      rw [ofJson?, ← ofDocuments?_itemsOfJson items, Document.ofJson, ofDocument?]
      rfl
  | .object fields => by rfl

theorem ofDocuments?_itemsOfJson :
    ∀ items : List Json, ofDocuments? (Document.itemsOfJson items) = ofJsonItems? items
  | [] => by rfl
  | item :: items => by
      rw [Document.itemsOfJson, ofDocuments?, ofJsonItems?, ofDocument?_ofJson item,
        ofDocuments?_itemsOfJson items]

end

mutual

/-- Putting the fields of objects in key order changes no value. -/
theorem exists_toJson_ofJson :
    ∀ j : Json, ∃ k, (Document.ofJson j).toJson = .ok k ∧ ofJson? k = ofJson? j
  | .null => ⟨.null, rfl, rfl⟩
  | .bool b => ⟨.bool b, rfl, rfl⟩
  | .int n => ⟨.int n, rfl, rfl⟩
  | .float x => ⟨.float x, rfl, rfl⟩
  | .string s => ⟨.string s, rfl, rfl⟩
  | .array items => by
      obtain ⟨values, hvalues, hread⟩ := exists_itemsToJson_itemsOfJson items
      refine ⟨.array values, ?_, by rw [ofJson?, hread, ofJson?]⟩
      rw [Document.ofJson, Document.toJson, hvalues]
      rfl
  | .object fields => by
      obtain ⟨entries, hentries⟩ := exists_fieldsToJson_fieldsOfJson fields
      refine ⟨.object (Assoc.ofList entries), ?_, rfl⟩
      rw [Document.ofJson, Document.toJson, hentries]
      rfl

theorem exists_itemsToJson_itemsOfJson :
    ∀ items : List Json, ∃ values, Document.itemsToJson (Document.itemsOfJson items) = .ok values ∧
      ofJsonItems? values = ofJsonItems? items
  | [] => ⟨[], rfl, rfl⟩
  | item :: items => by
      obtain ⟨value, hvalue, hread⟩ := exists_toJson_ofJson item
      obtain ⟨values, hvalues, hreads⟩ := exists_itemsToJson_itemsOfJson items
      refine ⟨value :: values, ?_, by rw [ofJsonItems?, hread, hreads, ofJsonItems?]⟩
      rw [Document.itemsOfJson, Document.itemsToJson, hvalue, hvalues]
      rfl

theorem exists_fieldsToJson_fieldsOfJson :
    ∀ fields : List (String × Json),
      ∃ entries, Document.fieldsToJson (Document.fieldsOfJson fields) = .ok entries
  | [] => ⟨[], rfl⟩
  | (name, item) :: fields => by
      obtain ⟨value, hvalue, -⟩ := exists_toJson_ofJson item
      obtain ⟨entries, hentries⟩ := exists_fieldsToJson_fieldsOfJson fields
      refine ⟨(name, value) :: entries, ?_⟩
      rw [Document.fieldsOfJson, Document.fieldsToJson, hvalue, hentries]
      rfl

end

/-- The alternatives read what is read by the kind, wherever the JSON value comes from. -/
theorem decoder_ofJson (origin : Json.Origin) (j : Json) :
    decoder origin (.ofJson j)
      = match ofJson? j with
        | some v => .ok v
        | none => .error (.noAlternative "Value") := by
  obtain ⟨k, hk, hread⟩ := exists_toJson_ofJson j
  rw [decoder, hk, Except.mapError, Except.ok_bind, ofDocument?_ofJson, hread]
  cases ofJson? j <;> rfl

/-! ## Values as JSON -/

/-- A number of 64 bits is read as it was written. -/
theorem ofInt_toInt (n : Int64) : ofInt n.toInt = int n := by
  have hrange : (Int64.minValue.toInt ≤ n.toInt && n.toInt ≤ Int64.maxValue.toInt) = true := by
    simpa using ⟨n.minValue_le_toInt, n.toInt_le⟩
  rw [ofInt, if_pos hrange, Int64.ofInt_toInt]

mutual

/-- A value is what is read from the value as JSON. -/
theorem ofJson?_toJson : ∀ v : Value, ofJson? v.toJson = some v
  | null | bool _ | float _ | string _ => rfl
  | int n => congrArg some (ofInt_toInt n)
  | list items => by
      rw [toJson, ofJson?, ofJsonItems?_itemsToJson items]
      rfl

theorem ofJsonItems?_itemsToJson : ∀ items : List Value,
    ofJsonItems? (itemsToJson items) = some items
  | [] => rfl
  | item :: items => by
      rw [itemsToJson, ofJsonItems?, ofJson?_toJson item, ofJsonItems?_itemsToJson items]
      rfl

end

mutual

/-- Values are written in order, since they have no objects. -/
theorem isOrdered_toJson : ∀ v : Value, v.toJson.IsOrdered
  | null => .null
  | bool b => .bool b
  | int n => .int n.toInt
  | float x => .float x
  | string s => .string s
  | list items => .array (isOrdered_of_mem_itemsToJson items)

theorem isOrdered_of_mem_itemsToJson : ∀ (items : List Value), ∀ j ∈ itemsToJson items, j.IsOrdered
  | [] => List.forall_mem_nil _
  | item :: items =>
      List.forall_mem_cons.2 ⟨isOrdered_toJson item, isOrdered_of_mem_itemsToJson items⟩

end

/-- A value is decoded as it was written. -/
theorem ofJson_decoder (v : Value) : decoder.ofJson v.toJson = .ok v := by
  rw [Decoder.ofJson, decoder_ofJson, ofJson?_toJson]

/-- **Comparands of filters and fields of rows are read the same way.** From every JSON value both read
the same value, or none if there is an object somewhere in it; and what is read is read again, either
way, from what is written for it. -/
theorem reads_alike (j : Json) :
    (∀ v, ofJson? j = some v ↔ decoder.ofJson j = .ok v) ∧
    (ofJson? j = none ↔ j.HasObject) ∧
    (∀ e, decoder.ofJson j = .error e ↔ j.HasObject ∧ e = .noAlternative "Value") ∧
    ∀ v, ofJson? j = some v → ofJson? v.toJson = some v ∧ decoder.ofJson v.toJson = .ok v := by
  have hnone := ofJson?_eq_none_iff j
  have hdecoder : decoder.ofJson j = _ := decoder_ofJson .value j
  refine ⟨?_, hnone, ?_, fun v _ => ⟨ofJson?_toJson v, ofJson_decoder v⟩⟩
  · intro v
    rw [hdecoder]
    cases ofJson? j <;> simp
  · intro e
    rw [hdecoder, ← hnone]
    cases ofJson? j <;> simp [eq_comm]

/-- A list of values of which the first is one more than the greatest whole number of 64 bits. -/
def mixed : Json :=
  .array [.int 9223372036854775808, .int (-9223372036854775808), .null, .array [],
    .array [.string "1", .bool true]]

theorem reads_alike_mixed :
    let v : Value := list [float (UInt64.toFloat 9223372036854775808), int Int64.minValue, null,
      list [], list [string "1", bool true]]
    ofJson? mixed = some v ∧ decoder.ofJson mixed = .ok v ∧ ofJson? v.toJson = some v ∧
      decoder.ofJson v.toJson = .ok v ∧
      (Json.array [mixed, .array [.object []]]).HasObject ∧
      decoder.ofJson (.array [mixed, .array [.object []]]) = .error (.noAlternative "Value") := by
  intro v
  have hread : ofJson? mixed = some v := by rfl
  have hobject : (Json.array [mixed, .array [.object []]]).HasObject :=
    .array (.tail _ (.head _)) (.array (.head _) (.object []))
  obtain ⟨hsame, -, -, hback⟩ := reads_alike mixed
  obtain ⟨-, -, hfails, -⟩ := reads_alike (.array [mixed, .array [.object []]])
  exact ⟨hread, (hsame v).1 hread, (hback v hread).1, (hback v hread).2, hobject,
    (hfails _).2 ⟨hobject, rfl⟩⟩

end Value

end Tabula
