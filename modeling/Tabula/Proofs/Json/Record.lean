import Tabula.Proofs.Json.Decoder

/-!
# Decoding records from JSON values

What the fields of a record give when they are read from any JSON value (`Fields.OnlyGives`), and
from which values they give what (`Fields.Reads`). Both are settled field by field. Main statement: a
record is read from an object that has its fields in any order and under any of their spellings
(`Fields.ofJson_record`), and from an array of them in order (`Fields.ofJson_record_array`).
-/

namespace Tabula.Json

/-- Whether a slot holds a JSON value, or nothing. -/
inductive Slot.Holds : Option Json → Slot → Prop
  | found (place : Nat) (j : Json) : Holds (some j) (.found place (.ofJson j))
  | absent (place : Nat) (objection : DecodeError) : Holds none (.absent place objection)

namespace Fields

variable {α β : Type} {f : Fields (α → β)} {g : Fields α} {d : Decoder α}

/-- Fields one after the other are read from as many slots as each of them has. -/
theorem read_seq_eq_ok_iff {origin : Origin} {slots : List Slot} {b : β} :
    (f <*> g).read origin slots = .ok b ↔
      ∃ h a, f.read origin (slots.take f.names.length) = .ok h ∧
        g.read origin (slots.drop f.names.length) = .ok a ∧ h a = b := by
  show (both f g).read origin slots = .ok b ↔ _
  unfold both
  dsimp only
  cases f.read origin (slots.take f.names.length) <;>
    cases g.read origin (slots.drop f.names.length) <;> simp

/-- A result stands if nothing stopped the reading. -/
theorem settle_eq_ok_iff {result : Except (Nat × DecodeError) α} {stop : Option (Nat × DecodeError)}
    {a : α} : settle result stop = .ok a ↔ result = .ok a ∧ stop = none := by
  cases result <;> cases stop <;> simp [settle]

/-! ## What fields give -/

/-- Whether whatever the fields give when they are read from JSON values has a property. -/
def OnlyGives (g : Fields α) (P : α → Prop) : Prop :=
  ∀ slots a, (∀ slot ∈ slots, ∃ cell, Slot.Holds cell slot) → g.read .value slots = .ok a → P a

namespace OnlyGives

variable {P : β → Prop} {Q : α → Prop} {name : Name}

theorem any : g.OnlyGives fun _ => True := fun _ _ _ _ => trivial

/-- What a record gives follows from what its fields give. -/
theorem seq (hf : f.OnlyGives fun h => ∀ a, Q a → P (h a)) (hg : g.OnlyGives Q) :
    (f <*> g).OnlyGives P := by
  intro slots b hslots h
  obtain ⟨φ, a, hφ, ha, rfl⟩ := read_seq_eq_ok_iff.1 h
  exact hf _ φ (fun slot hslot => hslots slot (List.mem_of_mem_take hslot)) hφ a
    (hg _ a (fun slot hslot => hslots slot (List.mem_of_mem_drop hslot)) ha)

/-- What is made of a field has what follows from the field. -/
theorem map {φ : α → β} (hg : g.OnlyGives Q) (h : ∀ a, Q a → P (φ a)) : (φ <$> g).OnlyGives P := by
  refine seq (f := pure φ) (fun slots ψ _ hψ => ?_) hg
  obtain rfl := Except.ok.inj hψ
  exact h

/-- A field gives what its decoder gives, or what stands for it when it is missing. -/
theorem single {absent : Option α} (hfound : ∀ j a, d.ofJson j = .ok a → Q a)
    (habsent : ∀ a, absent = some a → Q a) : (Fields.single name d absent).OnlyGives Q := by
  intro slots a hslots h
  cases slots with
  | nil => cases h
  | cons slot rest =>
      obtain ⟨cell, hslot⟩ := hslots slot List.mem_cons_self
      cases hslot with
      | found place j => exact hfound j a (Except.mapError_eq_ok_iff.1 h)
      | absent place objection =>
          cases absent with
          | none => cases h
          | some b => exact habsent a (congrArg some (Except.ok.inj h))

/-- A field that must be there gives what its decoder gives. -/
theorem required (h : ∀ j a, d.ofJson j = .ok a → Q a) : (Fields.required name d).OnlyGives Q :=
  single h nofun

/-- A field that may be missing gives nothing, or what its decoder gives for no null. -/
theorem optional {Q : Option α → Prop} (h : ∀ j a, j ≠ .null → d.ofJson j = .ok a → Q (some a))
    (hnone : Q none) : (Fields.optional name d).OnlyGives Q := by
  refine single (fun j a? hread => ?_) fun _ heq => Option.some.inj heq ▸ hnone
  cases a? with
  | none => exact hnone
  | some a =>
      obtain ⟨hnull, hread⟩ := Decoder.of_ofJson_optional hread
      exact h j a hnull hread

end OnlyGives

/-- The entries of an object that are sorted out by field are JSON values. -/
theorem exists_of_mem_arrange {names : List Name} {closed : Bool} {fields : List (String × Json)}
    {place : Nat} {found : List (Option (Nat × Document))}
    (hfound : ∀ p item, some (p, item) ∈ found → ∃ j, item = .ofJson j) :
    ∀ p item, some (p, item) ∈ (arrange names closed place (Document.fieldsOfJson fields) found).1 →
      ∃ j, item = .ofJson j := by
  induction fields generalizing place found with
  | nil => exact hfound
  | cons field fields ih =>
      rw [Document.fieldsOfJson, arrange]
      split
      · split
        · exact hfound
        · split
          · exact hfound
          · exact ih hfound
      · split
        · exact hfound
        · refine ih fun p item hitem => ?_
          rcases List.mem_or_eq_of_mem_set hitem with hitem | heq
          · exact hfound p item hitem
          · cases heq
            exact ⟨field.2, rfl⟩

/-- The slots of named fields hold what JSON holds. -/
theorem holds_of_mem_namedSlots {names : List Name} {closed : Bool} {fields : List (String × Json)}
    {slot : Slot} (h : slot ∈ (namedSlots names closed (Document.fieldsOfJson fields)).1) :
    ∃ cell, Slot.Holds cell slot := by
  obtain ⟨⟨⟨name, item?⟩, i⟩, hmem, rfl⟩ := List.mem_map.1 h
  cases item? with
  | none => exact ⟨none, .absent _ _⟩
  | some found =>
      obtain ⟨place, item⟩ := found
      have hitem := (List.of_mem_zip (List.fst_mem_of_mem_zipIdx hmem)).2
      obtain ⟨j, rfl⟩ :=
        exists_of_mem_arrange (fun _ _ hblank => by simp at hblank) place item hitem
      exact ⟨some j, .found place j⟩

/-- So do the slots of fields by position. -/
theorem holds_of_mem_positionalSlots {record : String} {names : List Name} {items : List Json}
    {slot : Slot}
    (h : slot ∈ (positionalSlots record names .value (Document.itemsOfJson items)).1) :
    ∃ cell, Slot.Holds cell slot := by
  obtain ⟨⟨name, i⟩, -, rfl⟩ := List.mem_map.1 h
  dsimp only
  rw [Document.itemsOfJson_eq_map, List.getElem?_map]
  cases items[i]? with
  | none => exact ⟨none, .absent _ _⟩
  | some j => exact ⟨some j, .found i j⟩

/-- A record only gives what its fields do. -/
theorem OnlyGives.record {Q : α → Prop} {name : String} {closed : Bool} (hg : g.OnlyGives Q)
    {j : Json} {a : α} (h : (record name closed g).ofJson j = .ok a) : Q a := by
  cases j with
  | null | bool | int | float | string => cases h
  | array items =>
      exact hg _ a (fun _ => holds_of_mem_positionalSlots) (settle_eq_ok_iff.1 h).1
  | object fields => exact hg _ a (fun _ => holds_of_mem_namedSlots) (settle_eq_ok_iff.1 h).1

/-! ## What fields are read from -/

/-- Whether fields give `a` when their slots hold `cells`. -/
structure Reads (g : Fields α) (cells : List (Option Json)) (a : α) (origin : Origin := .value) :
    Prop where
  length : cells.length = g.names.length
  read : ∀ slots, List.Forall₂ Slot.Holds cells slots → g.read origin slots = .ok a

namespace Reads

variable {cells cells' : List (Option Json)} {a : α} {name : Name} {absent? : Option α} {j : Json}
variable {origin : Origin}

/-- Fields one after the other are read from cells one after the other. -/
theorem seq {h : α → β} (hf : f.Reads cells h origin) (hg : g.Reads cells' a origin) :
    (f <*> g).Reads (cells ++ cells') (h a) origin := by
  refine ⟨?_, fun slots hslots => ?_⟩
  · show _ = (f.names ++ g.names).length
    rw [List.length_append, List.length_append, hf.length, hg.length]
  · have hleft := (List.forall₂_take_append _ _ _ hslots.flip).flip
    have hright := (List.forall₂_drop_append _ _ _ hslots.flip).flip
    rw [hf.length] at hleft hright
    exact read_seq_eq_ok_iff.2 ⟨h, a, hf.read _ hleft, hg.read _ hright, rfl⟩

/-- What is made of a field is read from its cell. -/
theorem map (φ : α → β) (hg : g.Reads cells a origin) : (φ <$> g).Reads cells (φ a) origin :=
  have hφ : (pure φ : Fields (α → β)).Reads [] φ origin := ⟨rfl, fun _ _ => rfl⟩
  hφ.seq hg

/-- A field is read from its cell. -/
theorem found (h : d origin (.ofJson j) = .ok a) :
    (single name d absent?).Reads [some j] a origin := by
  refine ⟨rfl, fun slots hslots => ?_⟩
  cases hslots with
  | cons hslot _ =>
      cases hslot
      exact Except.mapError_eq_ok_iff.2 h

/-- A field that is missing is read as what stands for it. -/
theorem absent (a : α) : (single name d (some a)).Reads [none] a origin := by
  refine ⟨rfl, fun slots hslots => ?_⟩
  cases hslots with
  | cons hslot _ =>
      cases hslot
      rfl

/-- A field that must be there is read from its cell. -/
theorem required (h : d origin (.ofJson j) = .ok a) :
    (Fields.required name d).Reads [some j] a origin :=
  found h

/-- A field with a default is read from its cell. -/
theorem orElse {default : α} (h : d origin (.ofJson j) = .ok a) :
    (Fields.orElse name d default).Reads [some j] a origin :=
  found h

/-- A field that may be missing is read from a cell that is no null. -/
theorem optional_some (hnull : j ≠ .null) (h : d origin (.ofJson j) = .ok a) :
    (Fields.optional name d).Reads [some j] (some a) origin := by
  refine found ?_
  rw [Decoder.optional_of_ne_null hnull, h]
  rfl

/-- A field that may be missing is read from what was written for it, if that is no null. -/
theorem optional (write : α → Json) {a? : Option α}
    (h : ∀ a, a? = some a → write a ≠ .null ∧ d origin (.ofJson (write a)) = .ok a) :
    (Fields.optional name d).Reads [a?.map write] a? origin := by
  cases a? with
  | none => exact absent none
  | some a =>
      obtain ⟨hnull, hread⟩ := h a rfl
      exact optional_some hnull hread

end Reads

/-! ## Objects -/

/-- Whether no key is a spelling of two fields. -/
def AreApart (names : List Name) : Prop :=
  names.Pairwise fun m n => ∀ key ∈ n.name :: n.aliases, ¬ m.IsSpelled key

instance (names : List Name) : Decidable (AreApart names) :=
  inferInstanceAs (Decidable (List.Pairwise _ _))

variable {names : List Name} {keys : List String} {written : List (String × Json)}

/-- A field is found under each of its spellings. -/
theorem AreApart.findIdx?_eq (h : AreApart names) {i : Nat} {n : Name} (hi : names[i]? = some n)
    {key : String} (hkey : n.IsSpelled key) :
    names.findIdx? (fun m => m.spellings.contains key) = some i := by
  obtain ⟨hlt, rfl⟩ := List.getElem?_eq_some_iff.1 hi
  rw [List.findIdx?_eq_some_iff_getElem]
  simp only [List.contains_iff_mem, Name.mem_spellings]
  refine ⟨hlt, hkey, fun j hj => ?_⟩
  exact List.pairwise_iff_getElem.1 h j i (hj.trans hlt) hlt hj key hkey

/-- Keys that spell one field each are distinct. -/
theorem AreApart.nodup (h : AreApart names) (hkeys : List.Forall₂ Name.IsSpelled names keys) :
    keys.Nodup := by
  refine List.pairwise_iff_getElem.2 fun i j hi hj hlt heq => ?_
  obtain ⟨m, hm, hmkey⟩ := hkeys.exists_getElem?_right (List.getElem?_eq_getElem hi)
  obtain ⟨n, hn, hnkey⟩ := hkeys.exists_getElem?_right (List.getElem?_eq_getElem hj)
  have hindex := h.findIdx?_eq hm hmkey
  rw [heq, h.findIdx?_eq hn hnkey] at hindex
  exact hlt.ne (Option.some.inj hindex).symm

/-- Whether `after` is `before` with the values of an object put where their fields are. -/
def Places (keys : List String) (written : List (String × Json))
    (before after : List (Option (Nat × Document))) : Prop :=
  ∀ (i : Nat) key, keys[i]? = some key →
    (Assoc.find? written key = none → after[i]? = before[i]?) ∧
    ∀ j, Assoc.find? written key = some j →
      ∃ place, after[i]? = some (some (place, Document.ofJson j))

/-- Fields are placed one by one, each at the free place of its name. -/
theorem Places.cons {before after : List (Option (Nat × Document))} {i place : Nat} {key : String}
    {j : Json} (hkeys : keys.Nodup) (hi : keys[i]? = some key) (hfree : before[i]? = some none)
    (hnew : Assoc.find? written key = none)
    (h : Places keys written (before.set i (some (place, .ofJson j))) after) :
    Places keys ((key, j) :: written) before after := by
  intro i' key' hi'
  obtain ⟨hkept, hput⟩ := h i' key' hi'
  by_cases hkey : key = key'
  · subst hkey
    have hlt := (List.getElem?_eq_some_iff.1 hi).1
    obtain rfl := (List.getElem?_inj hlt hkeys).1 (hi.trans hi'.symm)
    have hplaced : after[i]? = some (some (place, .ofJson j)) := by
      rw [hkept hnew, List.getElem?_set_self (List.getElem?_eq_some_iff.1 hfree).1]
    simp [Assoc.find?, hplaced]
  · have hne : i ≠ i' := by
      rintro rfl
      exact hkey (Option.some.inj (hi.symm.trans hi'))
    have hfind : Assoc.find? ((key, j) :: written) key' = Assoc.find? written key' := by
      simp [Assoc.find?, hkey]
    rw [List.getElem?_set_ne hne] at hkept
    rw [hfind]
    exact ⟨hkept, hput⟩

/-- Entries under keys of different fields are all sorted out to these fields. -/
theorem exists_places_of_arrange (closed : Bool) (hnames : AreApart names)
    (hkeys : List.Forall₂ Name.IsSpelled names keys) (hnodup : (written.map (·.1)).Nodup)
    (place : Nat) {found : List (Option (Nat × Document))}
    (hfree : ∀ key ∈ written.map (·.1), ∃ i : Nat, keys[i]? = some key ∧ found[i]? = some none) :
    ∃ found', arrange names closed place (Document.fieldsOfJson written) found = (found', none) ∧
      found'.length = found.length ∧ Places keys written found found' := by
  induction written generalizing place found with
  | nil => exact ⟨found, rfl, rfl, fun i key _ => ⟨fun _ => rfl, nofun⟩⟩
  | cons entry written ih =>
      obtain ⟨key, j⟩ := entry
      obtain ⟨hkey, hothers⟩ := List.nodup_cons.1 hnodup
      obtain ⟨⟨i, hi, hnone⟩, hothersFree⟩ := List.forall_mem_cons.1 hfree
      have hstillFree : ∀ other ∈ written.map (·.1), ∃ i' : Nat, keys[i']? = some other ∧
          (found.set i (some (place, .ofJson j)))[i']? = some none := by
        intro other hother
        obtain ⟨i', hi', hnone'⟩ := hothersFree other hother
        have hne : i ≠ i' := by
          rintro rfl
          exact hkey (Option.some.inj (hi'.symm.trans hi) ▸ hother)
        exact ⟨i', hi', by rwa [List.getElem?_set_ne hne]⟩
      obtain ⟨found', harrange, hlength, hplaces⟩ := ih hothers (place + 1) hstillFree
      refine ⟨found', ?_, by rw [hlength, List.length_set],
        .cons (hnames.nodup hkeys) hi hnone (Assoc.find?_eq_none_iff.2 hkey) hplaces⟩
      obtain ⟨n, hn, hspelled⟩ := hkeys.exists_getElem?_right hi
      rw [Document.fieldsOfJson, arrange, hnames.findIdx?_eq hn hspelled]
      dsimp only
      rw [hnone]
      exact harrange

/-- The slots of an object hold what it has under the keys of the fields. -/
theorem exists_namedSlots (closed : Bool) (hnames : AreApart names)
    (hkeys : List.Forall₂ Name.IsSpelled names keys) (hnodup : (written.map (·.1)).Nodup)
    (hknown : ∀ key ∈ written.map (·.1), key ∈ keys) :
    ∃ slots, namedSlots names closed (Document.fieldsOfJson written) = (slots, none) ∧
      List.Forall₂ Slot.Holds (keys.map (Assoc.find? written)) slots := by
  have hfree : ∀ key ∈ written.map (·.1), ∃ i : Nat, keys[i]? = some key ∧
      (names.map fun _ => (none : Option (Nat × Document)))[i]? = some none := by
    intro key hkey
    obtain ⟨i, hi⟩ := List.mem_iff_getElem?.1 (hknown key hkey)
    obtain ⟨n, hn, -⟩ := hkeys.exists_getElem?_right hi
    exact ⟨i, hi, by rw [List.getElem?_map, hn, Option.map_some]⟩
  obtain ⟨found, harrange, hlength, hplaces⟩ :=
    exists_places_of_arrange closed hnames hkeys hnodup 0 hfree
  rw [List.length_map] at hlength
  refine ⟨_, by rw [namedSlots, harrange], .of_getElem? (by simp [hlength, hkeys.length_eq]) ?_⟩
  intro i cell slot hcell hslot
  rw [List.getElem?_map] at hcell
  rw [List.getElem?_map, List.getElem?_zipIdx] at hslot
  obtain ⟨key, hi, rfl⟩ := Option.map_eq_some_iff.1 hcell
  obtain ⟨n, hn, -⟩ := hkeys.exists_getElem?_right hi
  obtain ⟨hblank, hput⟩ := hplaces i key hi
  -- A slot holds the value that is written under its key, or is one of those left blank.
  cases hfind : Assoc.find? written key with
  | none =>
      have hitem : found[i]? = some none := by
        rw [hblank hfind, List.getElem?_map, hn, Option.map_some]
      have hzip : (names.zip found)[i]? = some (n, none) :=
        List.getElem?_zip_eq_some.2 ⟨hn, hitem⟩
      rw [hzip] at hslot
      obtain rfl := Option.some.inj hslot
      exact .absent _ _
  | some j =>
      obtain ⟨place, hitem⟩ := hput j hfind
      have hzip : (names.zip found)[i]? = some (n, some (place, .ofJson j)) :=
        List.getElem?_zip_eq_some.2 ⟨hn, hitem⟩
      rw [hzip] at hslot
      obtain rfl := Option.some.inj hslot
      exact .found place j

/-- The fields of an object that has values under some of the keys. -/
def entries (keys : List String) (cells : List (Option Json)) : List (String × Json) :=
  (keys.zip cells).flatMap fun (key, cell) => (cell.map fun j => (key, j)).toList

/-- Entries have some of the names, in order. -/
theorem keys_entries_sublist (keys : List String) (cells : List (Option Json)) :
    ((entries keys cells).map (·.1)).Sublist keys := by
  induction keys generalizing cells with
  | nil => exact .slnil
  | cons key keys ih =>
      cases cells with
      | nil => exact List.nil_sublist _
      | cons cell cells =>
          cases cell with
          | none => exact (ih cells).cons _
          | some j => exact (ih cells).cons_cons _

/-- What holds of the values in all cells holds of the values of the fields. -/
theorem forall_mem_entries {P : Json → Prop} {cells : List (Option Json)}
    (h : ∀ cell ∈ cells, ∀ j, cell = some j → P j) : ∀ field ∈ entries keys cells, P field.2 := by
  intro field hfield
  obtain ⟨⟨key, cell⟩, hmem, hfield⟩ := List.mem_flatMap.1 hfield
  obtain ⟨j, hcell, rfl⟩ := Option.map_eq_some_iff.1 (Option.mem_toList.1 hfield)
  exact h cell (List.of_mem_zip hmem).2 j hcell

/-- Each key has its cell. -/
theorem map_find?_entries (hkeys : keys.Nodup) {cells : List (Option Json)}
    (hlength : cells.length = keys.length) :
    keys.map (Assoc.find? (entries keys cells)) = cells := by
  induction keys generalizing cells with
  | nil => exact (List.eq_nil_of_length_eq_zero hlength).symm
  | cons key keys ih =>
      cases cells with
      | nil => cases hlength
      | cons cell cells =>
          obtain ⟨hkey, hothers⟩ := List.nodup_cons.1 hkeys
          have hrest := ih hothers (Nat.succ.inj hlength)
          have hnew : Assoc.find? (entries keys cells) key = none :=
            Assoc.find?_eq_none_iff.2 fun hmem => hkey ((keys_entries_sublist _ _).subset hmem)
          have hskip : ∀ other ∈ keys, Assoc.find? (entries (key :: keys) (cell :: cells)) other
              = Assoc.find? (entries keys cells) other := by
            intro other hother
            have hne : key ≠ other := fun heq => hkey (heq ▸ hother)
            cases cell with
            | none => rfl
            | some j => simp [entries, Assoc.find?, hne]
          rw [List.map_cons, List.map_congr_left hskip, hrest]
          cases cell with
          | none => exact congrArg (· :: cells) hnew
          | some j => simp [entries, Assoc.find?]

/-- A record is read from an object that has values from which its fields can be read, each under any
spelling of its field, and all in any order. -/
theorem record_object {name : String} {closed : Bool} {origin : Origin} (hnames : AreApart g.names)
    (hkeys : List.Forall₂ Name.IsSpelled g.names keys) {cells : List (Option Json)} {a : α}
    (hreads : g.Reads cells a origin) (hwritten : written.Perm (entries keys cells)) :
    record name closed g origin (.ofJson (.object written)) = .ok a := by
  have hdistinct := hnames.nodup hkeys
  have hsublist := keys_entries_sublist keys cells
  have hentries : ((entries keys cells).map (·.1)).Nodup := hdistinct.sublist hsublist
  obtain ⟨slots, hslots, hholds⟩ := exists_namedSlots closed hnames hkeys
    ((hwritten.map _).nodup_iff.2 hentries)
    fun key hkey => hsublist.subset ((hwritten.map _).subset hkey)
  have hcells : keys.map (Assoc.find? written) = cells := by
    rw [← map_find?_entries hdistinct (hreads.length.trans hkeys.length_eq)]
    exact List.map_congr_left fun key _ => (Assoc.find?_perm hwritten.symm hentries key).symm
  rw [hcells] at hholds
  unfold record Document.ofJson
  dsimp only
  rw [hslots]
  exact settle_eq_ok_iff.2 ⟨hreads.read slots hholds, rfl⟩

/-- A record is read from its entries in any order, if its names are apart and its fields read their
cells. -/
theorem ofJson_record {name : String} {closed : Bool} (hnames : AreApart g.names)
    (hkeys : List.Forall₂ Name.IsSpelled g.names keys) {cells : List (Option Json)} {a : α}
    (hreads : g.Reads cells a) (hwritten : written.Perm (entries keys cells)) :
    (record name closed g).ofJson (.object written) = .ok a :=
  record_object hnames hkeys hreads hwritten

/-! ## Arrays -/

/-- A record is read from an array that has values from which its fields can be read, in their order;
fields for which it has none are absent. -/
theorem ofJson_record_array {name : String} {closed : Bool} {items : List Json} {a : α}
    (hlength : items.length ≤ g.names.length)
    (hreads : g.Reads ((List.range g.names.length).map (items[·]?)) a) :
    (record name closed g).ofJson (.array items) = .ok a := by
  have hstop : (Document.itemsOfJson items)[g.names.length]? = none := by
    rw [Document.itemsOfJson_eq_map, List.getElem?_map, List.getElem?_eq_none hlength,
      Option.map_none]
  unfold Decoder.ofJson record Document.ofJson positionalSlots
  dsimp only
  rw [hstop]
  refine settle_eq_ok_iff.2 ⟨hreads.read _ (.of_getElem? (by simp) ?_), rfl⟩
  intro i cell slot hcell hslot
  rw [List.getElem?_map] at hcell hslot
  rw [List.getElem?_zipIdx] at hslot
  obtain ⟨j, hj, rfl⟩ := Option.map_eq_some_iff.1 hcell
  obtain ⟨n, hn, rfl⟩ := Option.map_eq_some_iff.1 hslot
  obtain ⟨m, -, rfl⟩ := Option.map_eq_some_iff.1 hn
  obtain ⟨-, rfl⟩ := List.getElem?_eq_some_iff.1 hj
  rw [List.getElem_range, Nat.zero_add, Document.itemsOfJson_eq_map, List.getElem?_map]
  cases items[i]? with
  | none => exact .absent _ _
  | some item => exact .found i item

end Fields

end Tabula.Json
