import Tabula.Proofs.Json.Record
import Tabula.Proofs.Value

/-!
# JSON values with their fields in another order

The fields of an object are told apart by their names, so that two JSON values are the same if they
differ only in the order of fields (`Json.Reorders`). What a decoder reads from a JSON value whatever the
order of its fields, and whether it comes from a text or not, it recovers (`Decoder.Recovers`). As with
the reading of records this is settled part by part: for lists, for variants, and for records field by
field (`Fields.Recovers`).
-/

namespace Tabula.Json

/-- Whether a JSON value is another one with the fields of its objects in any order, at every depth. -/
inductive Reorders : Json → Json → Prop
  | refl (j : Json) : Reorders j j
  | array {items items' : List Json} (hitems : List.Forall₂ Reorders items items') :
      Reorders (.array items) (.array items')
  | object {fields fields' permuted : List (String × Json)}
      (hkeys : fields'.map Prod.fst = fields.map Prod.fst)
      (hitems : List.Forall₂ Reorders (fields.map Prod.snd) (fields'.map Prod.snd))
      (hperm : permuted.Perm fields') : Reorders (.object fields) (.object permuted)

variable {j k : Json}

namespace Reorders

theorem forall₂_self (items : List Json) : List.Forall₂ Reorders items items :=
  List.forall₂_same.2 fun item _ => .refl item

/-- An array is reordered item by item. -/
theorem exists_array {items : List Json} (h : Reorders (.array items) k) :
    ∃ items', k = .array items' ∧ List.Forall₂ Reorders items items' := by
  cases h with
  | refl => exact ⟨items, rfl, forall₂_self items⟩
  | array hitems => exact ⟨_, rfl, hitems⟩

/-- An object is reordered field by field, and its fields among one another. -/
theorem exists_object {keys : List String} {items : List Json} (hlength : keys.length = items.length)
    (h : Reorders (.object (keys.zip items)) k) :
    ∃ items' permuted, k = .object permuted ∧ List.Forall₂ Reorders items items' ∧
      permuted.Perm (keys.zip items') := by
  cases h with
  | refl => exact ⟨items, _, rfl, forall₂_self items, .refl _⟩
  | @object _ fields' permuted hkeys hitems hperm =>
      rw [List.map_fst_zip hlength.le] at hkeys
      rw [List.map_snd_zip hlength.ge] at hitems
      refine ⟨fields'.map Prod.snd, permuted, rfl, hitems, ?_⟩
      rwa [← hkeys, List.zip_map', List.map_id'']
      exact fun field => rfl

/-- Nothing but null is reordered into null. -/
theorem ne_null (h : Reorders j k) (hj : j ≠ .null) : k ≠ .null := by
  cases h with
  | refl => exact hj
  | array | object => nofun

mutual

/-- There is no other order if there are no objects. -/
theorem eq_of_not_hasObject : ∀ {j k : Json}, Reorders j k → ¬ j.HasObject → k = j
  | .null, _, h, _ | .bool _, _, h, _ | .int _, _, h, _ | .float _, _, h, _ | .string _, _, h, _ => by
      cases h
      rfl
  | .array items, _, h, hnone => by
      obtain ⟨items', rfl, hitems⟩ := h.exists_array
      rw [hasObject_array_iff] at hnone
      rw [items_eq_of_not_hasObject hitems fun item hitem hobject => hnone ⟨item, hitem, hobject⟩]
  | .object fields, _, _, hnone => absurd (.object fields) hnone

/-- Items without objects cannot be reordered. -/
theorem items_eq_of_not_hasObject : ∀ {items items' : List Json}, List.Forall₂ Reorders items items' →
    (∀ item ∈ items, ¬ item.HasObject) → items' = items
  | [], _, h, _ => List.forall₂_nil_left_iff.1 h
  | item :: items, _, h, hnone => by
      obtain ⟨item', items', hitem, hitems, rfl⟩ := List.forall₂_cons_left_iff.1 h
      obtain ⟨hfirst, hothers⟩ := List.forall_mem_cons.1 hnone
      rw [eq_of_not_hasObject hitem hfirst, items_eq_of_not_hasObject hitems hothers]

end

end Reorders

/-- Whether a text holds a JSON value and nothing else, with the fields of its objects in any order. -/
def IsWrittenAs (j : Json) (text : String) : Prop :=
  ∃ k, Reorders j k ∧ Document.scan text = ⟨.ofJson k, false⟩

/-! ## Decoders -/

/-- Whether a decoder reads a result from a JSON value, in any order of fields and from any origin. -/
def Decoder.Recovers {α : Type} (d : Decoder α) (j : Json) (a : α) : Prop :=
  ∀ origin k, Reorders j k → d origin (.ofJson k) = .ok a

namespace Decoder

variable {α β : Type} {d : Decoder α} {a : α}

theorem recovers_string (s : String) : string.Recovers (.string s) s := by
  intro origin k h
  cases h
  rfl

theorem recovers_boolean (b : Bool) : boolean.Recovers (.bool b) b := by
  intro origin k h
  cases h
  rfl

namespace Recovers

/-- From a text that holds a value a decoder reads what it recovers from the value. -/
theorem ofText {text : String} (h : d.Recovers j a) (htext : j.IsWrittenAs text) :
    d.ofText text = .ok a := by
  obtain ⟨k, hk, hscan⟩ := htext
  rw [Decoder.ofText, hscan, h .text k hk]
  rfl

/-- What is made of a value is recovered if the value is. -/
theorem map (f : α → β) (h : d.Recovers j a) : (Decoder.map f d).Recovers j (f a) := by
  intro origin k hk
  rw [Decoder.map, h origin k hk]
  rfl

/-- Nothing is recovered from null. -/
theorem optional_none : (Decoder.optional d).Recovers .null none := by
  intro origin k h
  cases h
  rfl

/-- A value that may be missing is recovered from what is no null. -/
theorem optional_some (hj : j ≠ .null) (h : d.Recovers j a) :
    (Decoder.optional d).Recovers j (some a) := by
  intro origin k hk
  rw [optional_of_ne_null (hk.ne_null hj), h origin k hk]
  rfl

/-- A list is recovered item by item. -/
theorem list {write : α → Json} {values : List α} (h : ∀ a ∈ values, d.Recovers (write a) a) :
    (Decoder.list d).Recovers (.array (values.map write)) values := by
  intro origin k hk
  obtain ⟨items, rfl, hitems⟩ := hk.exists_array
  show (Document.itemsOfJson items).mapM (d origin) = _
  rw [Document.itemsOfJson_eq_map, Except.mapM_eq_ok_iff, List.forall₂_map_left_iff]
  rw [List.forall₂_map_left_iff] at hitems
  refine List.forall₂_iff_get.2 ⟨hitems.length_eq.symm, fun i hi hi' => ?_⟩
  exact h _ (List.get_mem _ _) origin _ (hitems.get hi' hi)

/-- A variant without a value is recovered from its name. -/
theorem variant_nothing {variants : List (Name × Payload α)} {name : String}
    (h : chosen variants name = .ok (.nothing a)) : (variant variants).Recovers (.string name) a := by
  intro origin k hk
  cases hk
  cases origin <;> exact congrArg (· >>= _) h

/-- A variant with a value is recovered from an object with its name. -/
theorem variant_one {variants : List (Name × Payload α)} {name : String}
    (h : chosen variants name = .ok (.one d)) (hread : d.Recovers j a) :
    (variant variants).Recovers (.object [(name, j)]) a := by
  intro origin k hk
  obtain ⟨items, permuted, rfl, hitems, hperm⟩ :=
    hk.exists_object (show [name].length = [j].length from rfl)
  obtain ⟨j', _, hj', hrest, rfl⟩ := List.forall₂_cons_left_iff.1 hitems
  obtain rfl := List.forall₂_nil_left_iff.1 hrest
  obtain rfl := List.perm_singleton.1 hperm
  have hcontent := hread origin j' hj'
  cases origin with
  | value =>
      show (chosen variants name >>= _) = _
      rw [h, Except.ok_bind]
      exact hcontent
  | text =>
      show (chosen variants name >>= _) = _
      rw [h, Except.ok_bind, payload, hcontent]
      rfl

end Recovers

end Decoder

/-! ## Records -/

namespace Fields

variable {α β : Type} {f : Fields (α → β)} {g : Fields α} {d : Decoder α}

/-- Whether fields read a result from JSON values, whatever the order of the fields in these. -/
def Recovers (g : Fields α) (items : List Json) (a : α) : Prop :=
  ∀ origin items', List.Forall₂ Reorders items items' → g.Reads (items'.map some) a origin

namespace Recovers

variable {items items' : List Json} {a : α} {name : Name}

/-- Fields one after the other are recovered from items one after the other. -/
theorem seq {h : α → β} (hf : f.Recovers items h) (hg : g.Recovers items' a) :
    (f <*> g).Recovers (items ++ items') (h a) := by
  intro origin both hboth
  have hleft := (List.forall₂_take_append _ _ _ hboth.flip).flip
  have hright := (List.forall₂_drop_append _ _ _ hboth.flip).flip
  rw [← List.take_append_drop items.length both, List.map_append]
  exact (hf origin _ hleft).seq (hg origin _ hright)

/-- What is made of fields is recovered if they are. -/
theorem map (φ : α → β) (hg : g.Recovers items a) : (φ <$> g).Recovers items (φ a) :=
  fun origin items' hitems => (hg origin items' hitems).map φ

/-- A field is recovered from its item. -/
theorem single {absent? : Option α} {j : Json} (h : d.Recovers j a) :
    (single name d absent?).Recovers [j] a := by
  intro origin items' hitems
  obtain ⟨j', _, hj', hrest, rfl⟩ := List.forall₂_cons_left_iff.1 hitems
  obtain rfl := List.forall₂_nil_left_iff.1 hrest
  exact .found (h origin j' hj')

/-- A record is recovered from an object that has its fields under their names. -/
theorem record {name : String} {closed : Bool} (keys : List String) (hnames : AreApart g.names)
    (hkeys : List.Forall₂ Name.IsSpelled g.names keys) (h : g.Recovers items a) :
    (record name closed g).Recovers (.object (keys.zip items)) a := by
  intro origin k hk
  have hlength : keys.length = items.length := by
    have hreads := (h origin items (Reorders.forall₂_self items)).length
    rw [List.length_map] at hreads
    rw [hreads, hkeys.length_eq]
  obtain ⟨items', permuted, rfl, hitems, hperm⟩ := hk.exists_object hlength
  refine record_object hnames hkeys (h origin items' hitems) (hperm.trans (.of_eq ?_))
  rw [entries, List.zip_map_right, List.flatMap_map]
  exact (List.flatMap_singleton' _).symm

end Recovers

end Fields

end Tabula.Json
