import Tabula.Proofs.Refusal

/-!
# The grammar of filters

A filter is written as an object. Each of its entries is `or` with alternatives, which are filters
again, or the name of a comparison method with the columns that it applies to. Main statement: the
reader accepts exactly what the grammar allows, gives the filter that it describes, and refuses
everything else with an error of the filter (`ofJson_eq_ok_iff_describes`).
-/

namespace Tabula

/-- Whether a JSON value is neither an array nor an object. -/
def Json.isScalar : Json → Bool
  | array _ | object _ => false
  | _ => true

/-- Whether a JSON value is one that a method compares with. -/
def Comparison.Takes : Comparison → Json → Prop
  | member, raw | notMember, raw => ∃ items, raw = .array items ∧ ∀ item ∈ items, item.isScalar
  | like, raw | unlike, raw => ∃ pattern, raw = .string pattern
  | lt, raw | le, raw | gt, raw | ge, raw => raw.isScalar ∧ raw ≠ .null
  | eq, raw | ne, raw => raw.isScalar

namespace Filter

/-! ## The grammar -/

mutual

/-- Whether a JSON value is a filter by its form. -/
inductive IsFilter : Json → Prop where
  | object {fields : List (String × Json)} (entries : ∀ entry ∈ fields, IsEntry entry.1 entry.2) :
      IsFilter (.object fields)

/-- Whether a key with a value is an entry of a filter by its form. -/
inductive IsEntry : String → Json → Prop where
  | or {items : List Json} (nonempty : items ≠ []) (filters : ∀ item ∈ items, IsFilter item) :
      IsEntry "or" (.array items)
  | method (m : Comparison) {comparands : List (String × Json)}
      (taken : ∀ entry ∈ comparands, m.Takes entry.2) : IsEntry m.name (.object comparands)

end

/-! ## What is written -/

/-- Whether a method's entry for a column stands for a comparison. -/
structure DescribesConstraint (m : Comparison) (entry : String × Json) (k : Constraint) : Prop where
  method : k.method = m
  column : k.column = entry.1
  value : Value.ofJson? entry.2 = some k.value

mutual

/-- Whether a JSON value stands for a filter: for the conjunction of what its entries stand for. -/
inductive Describes : Json → Filter → Prop where
  | all {fields : List (String × Json)} {lists : List (List Filter)}
      (entries : List.Forall₂ (fun entry parts => DescribesEntry entry.1 entry.2 parts)
        fields lists) :
      Describes (.object fields) (.all lists.flatten)

/-- Whether a key with a value stands for some parts of a filter: `or` for one disjunction, a method
for one comparison with each of its columns. -/
inductive DescribesEntry : String → Json → List Filter → Prop where
  | or {items : List Json} {fs : List Filter} (filters : List.Forall₂ Describes items fs) :
      DescribesEntry "or" (.array items) [.any fs]
  | method (m : Comparison) {comparands : List (String × Json)} {cs : List Constraint}
      (constraints : List.Forall₂ (DescribesConstraint m) comparands cs) :
      DescribesEntry m.name (.object comparands) (cs.map .atom)

end

end Filter

/-! ## Comparands -/

namespace Value

/-- A whole number is no list. -/
@[simp] theorem isList_ofInt (n : Int) : (ofInt n).isList = false := by
  unfold ofInt
  split_ifs <;> rfl

/-- A whole number is no null. -/
@[simp] theorem isNull_ofInt (n : Int) : (ofInt n).isNull = false := by
  unfold ofInt
  split_ifs <;> rfl

/-- A whole number is no string. -/
theorem ofInt_ne_string (n : Int) (s : String) : ofInt n ≠ string s := by
  unfold ofInt
  split_ifs <;> nofun

/-- Lists are read from arrays, item by item. -/
theorem array_of_ofJson? {raw : Json} {vs : List Value} (h : ofJson? raw = some (.list vs)) :
    ∃ items, raw = .array items ∧ ofJsonItems? items = some vs := by
  cases raw with
  | array items =>
    obtain ⟨read, hitems, heq⟩ := Option.map_eq_some_iff.1 h
    obtain rfl := list.inj heq
    exact ⟨items, rfl, hitems⟩
  | int n =>
    have hlist := isList_ofInt n
    rw [Option.some.inj h] at hlist
    cases hlist
  | _ => cases h

/-- The scalars are what has a value that is no list. -/
theorem isScalar_iff_of_ofJson? {raw : Json} {v : Value} (h : ofJson? raw = some v) :
    raw.isScalar = true ↔ v.isList = false := by
  cases raw with
  | object fields => cases h
  | array items =>
    obtain ⟨vs, -, rfl⟩ := Option.map_eq_some_iff.1 h
    simp [Json.isScalar, isList]
  | int n =>
    obtain rfl := Option.some.inj h
    simp [Json.isScalar]
  | null | bool _ | float _ | string _ =>
    obtain rfl := Option.some.inj h
    simp [Json.isScalar, isList]

/-- What is no array and no object has a value. -/
theorem exists_of_isScalar {raw : Json} (h : raw.isScalar) : ∃ v, ofJson? raw = some v := by
  cases raw with
  | array items | object fields => simp [Json.isScalar] at h
  | null | bool _ | int _ | float _ | string _ => exact ⟨_, rfl⟩

/-- Null is read from null alone. -/
theorem eq_null_iff_of_ofJson? {raw : Json} {v : Value} (h : ofJson? raw = some v) :
    raw = .null ↔ v.isNull = true := by
  cases raw with
  | object fields => cases h
  | array items =>
    obtain ⟨vs, -, rfl⟩ := Option.map_eq_some_iff.1 h
    simp
  | int n =>
    obtain rfl := Option.some.inj h
    simp [-isNull_iff]
  | null | bool _ | float _ | string _ =>
    obtain rfl := Option.some.inj h
    simp

/-- Strings are read from strings alone. -/
theorem exists_string_iff_of_ofJson? {raw : Json} {v : Value} (h : ofJson? raw = some v) :
    (∃ s, raw = .string s) ↔ ∃ s, v = string s := by
  cases raw with
  | object fields => cases h
  | array items =>
    obtain ⟨vs, -, rfl⟩ := Option.map_eq_some_iff.1 h
    simp
  | int n =>
    obtain rfl := Option.some.inj h
    simp [ofInt_ne_string]
  | null | bool _ | float _ | string _ =>
    obtain rfl := Option.some.inj h
    simp

/-- Items are read one by one. -/
theorem ofJsonItems?_eq_some_iff {items : List Json} {vs : List Value} :
    ofJsonItems? items = some vs ↔ List.Forall₂ (fun item v => ofJson? item = some v) items vs := by
  induction items generalizing vs with
  | nil => simp [ofJsonItems?, eq_comm]
  | cons item items ih =>
    rw [ofJsonItems?, List.forall₂_cons_left_iff]
    simp only [Option.bind_eq_bind, Option.bind_eq_some_iff, ih, pure, Option.some.injEq]
    constructor
    · rintro ⟨v, hv, vs, hvs, rfl⟩
      exact ⟨v, vs, hv, hvs, rfl⟩
    · rintro ⟨v, vs, hv, hvs, rfl⟩
      exact ⟨v, hv, vs, hvs, rfl⟩

/-- The lists of scalars are what has a value that is a list without lists in it. -/
theorem scalars_iff_of_ofJson? {raw : Json} {v : Value} (h : ofJson? raw = some v) :
    (∃ items, raw = .array items ∧ ∀ item ∈ items, item.isScalar) ↔
      ∃ vs, v = list vs ∧ ∀ w ∈ vs, w.isList = false := by
  constructor
  · rintro ⟨items, rfl, hitems⟩
    obtain ⟨vs, hvs, rfl⟩ := Option.map_eq_some_iff.1 h
    refine ⟨vs, rfl, fun w hw => ?_⟩
    obtain ⟨item, hitem, hread⟩ := (ofJsonItems?_eq_some_iff.1 hvs).exists_of_mem_right hw
    exact (isScalar_iff_of_ofJson? hread).1 (hitems item hitem)
  · rintro ⟨vs, rfl, hvs⟩
    obtain ⟨items, rfl, hread⟩ := array_of_ofJson? h
    refine ⟨items, rfl, fun item hitem => ?_⟩
    obtain ⟨w, hw, hvalue⟩ := (ofJsonItems?_eq_some_iff.1 hread).exists_of_mem_left hitem
    exact (isScalar_iff_of_ofJson? hvalue).2 (hvs w hw)

end Value

namespace Comparison

/-- A comparand is no list, or a list without lists in it. -/
theorem isFlat_of_fits {m : Comparison} {v : Value} (h : m.fits v = true) :
    v.isList = false ∨ ∃ vs, v = .list vs ∧ ∀ w ∈ vs, w.isList = false := by
  cases v with
  | list vs => cases m <;> simp_all [fits, Value.isList]
  | _ => exact .inl rfl

/-- A method takes exactly the JSON values whose values are comparands of it. -/
theorem takes_iff_fits {m : Comparison} {raw : Json} {v : Value} (h : Value.ofJson? raw = some v) :
    m.Takes raw ↔ m.fits v = true := by
  have hscalar := Value.isScalar_iff_of_ofJson? h
  cases m with
  | member | notMember =>
    rw [Takes, Value.scalars_iff_of_ofJson? h]
    cases v <;> simp [fits]
  | like | unlike =>
    rw [Takes, Value.exists_string_iff_of_ofJson? h]
    cases v <;> simp [fits]
  | lt | le | gt | ge =>
    rw [Takes, hscalar, Ne, Value.eq_null_iff_of_ofJson? h]
    cases v <;> simp [fits, Value.isList, Value.isNull]
  | eq | ne =>
    rw [Takes, hscalar]
    simp [fits]

/-- What a method takes has a value. -/
theorem Takes.exists_value {m : Comparison} {raw : Json} (h : m.Takes raw) :
    ∃ v, Value.ofJson? raw = some v := by
  cases m with
  | member | notMember =>
    obtain ⟨items, rfl, hitems⟩ := h
    obtain ⟨vs, hvs⟩ := List.Forall₂.exists_of_forall fun item hitem =>
      Value.exists_of_isScalar (hitems item hitem)
    exact ⟨.list vs, Option.map_eq_some_iff.2 ⟨vs, Value.ofJsonItems?_eq_some_iff.2 hvs, rfl⟩⟩
  | like | unlike =>
    obtain ⟨pattern, rfl⟩ := h
    exact ⟨.string pattern, rfl⟩
  | lt | le | gt | ge => exact Value.exists_of_isScalar h.1
  | eq | ne => exact Value.exists_of_isScalar h

/-- No method is called `or`. -/
theorem name_ne_or (m : Comparison) : m.name ≠ "or" := by
  cases m <;> decide

/-- Methods have different names. -/
theorem name_injective : Function.Injective name := by
  intro m n h
  rw [← Option.some.injEq, ← ofName?_name m, h, ofName?_name]

end Comparison

namespace Filter

/-- A comparand is read if it has a value that fits its method. -/
theorem comparand_eq_ok_iff {m : Comparison} {column : String} {raw : Json} {v : Value} :
    comparand m column raw = .ok v ↔ Value.ofJson? raw = some v ∧ m.fits v = true := by
  unfold comparand
  cases Value.ofJson? raw with
  | none => simp
  | some w =>
    by_cases hfits : m.fits w = true
    · simp only [hfits, if_true, Except.ok.injEq, Option.some.injEq]
      constructor
      · rintro rfl
        exact ⟨rfl, hfits⟩
      · exact And.left
    · simp only [hfits, Bool.false_eq_true, if_false, reduceCtorEq, Option.some.injEq, false_iff]
      rintro ⟨rfl, hv⟩
      exact hfits hv

/-- Whether a comparison is what a method says of a column and its comparand. -/
def Says (m : Comparison) (field : String × Json) (k : Constraint) : Prop :=
  k.method = m ∧ k.column = field.1 ∧ comparand m field.1 field.2 = .ok k.value

/-- A field is read as the comparison that it describes, if its method takes what it holds. -/
theorem says_iff {m : Comparison} {field : String × Json} {k : Constraint} :
    Says m field k ↔ m.Takes field.2 ∧ DescribesConstraint m field k := by
  unfold Says
  rw [comparand_eq_ok_iff]
  constructor
  · rintro ⟨hmethod, hcolumn, hread, hfits⟩
    exact ⟨(Comparison.takes_iff_fits hread).2 hfits, hmethod, hcolumn, hread⟩
  · rintro ⟨htaken, hmethod, hcolumn, hread⟩
    exact ⟨hmethod, hcolumn, hread, (Comparison.takes_iff_fits hread).1 htaken⟩

/-- The comparisons of a method are those of its columns, in order. -/
theorem constraints_eq_ok_iff {name : String} {raw : Json} {cs : List Constraint} :
    constraints name raw = .ok cs ↔ ∃ m fields, Comparison.ofName? name = some m ∧
      raw = .object fields ∧ List.Forall₂ (Says m) fields cs := by
  unfold constraints
  cases Comparison.ofName? name with
  | none => simp
  | some m =>
    cases raw with
    | object fields =>
      constructor
      · intro h
        refine ⟨m, fields, rfl, rfl, (Except.mapM_eq_ok_iff.1 h).imp fun ⟨column, item⟩ k hk => ?_⟩
        dsimp only at hk
        cases hv : comparand m column item with
        | error e =>
          rw [hv] at hk
          cases hk
        | ok v =>
          rw [hv] at hk
          obtain rfl := Except.ok.inj hk
          exact ⟨rfl, rfl, hv⟩
      · rintro ⟨_, _, ⟨⟩, ⟨⟩, h⟩
        refine Except.mapM_eq_ok_iff.2 (h.imp fun ⟨column, item⟩ ⟨method, column', v⟩ hk => ?_)
        obtain ⟨rfl, rfl, hvalue⟩ := hk
        dsimp only at hvalue ⊢
        rw [hvalue]
    | _ => simp

/-- Alternatives are read as the filters of a list that is not empty. -/
theorem alternatives_array {items : List Json} (h : items ≠ []) :
    alternatives (.array items) = .any <$> ofJsonItems items := by
  cases items with
  | nil => exact absurd rfl h
  | cons item items =>
    rw [alternatives, ofJsonItems]
    cases ofJson item with
    | error e => rfl
    | ok f => cases ofJsonItems items <;> rfl

/-! ## The reader and the grammar -/

/-- An entry with an array is a disjunction of filters. -/
theorem isEntry_array_iff {key : String} {items : List Json} :
    IsEntry key (.array items) ↔ key = "or" ∧ items ≠ [] ∧ ∀ item ∈ items, IsFilter item := by
  constructor
  · rintro (⟨hne, hitems⟩)
    exact ⟨rfl, hne, hitems⟩
  · rintro ⟨rfl, hne, hitems⟩
    exact .or hne hitems

/-- An entry with an object is a method with comparands that it takes. -/
theorem isEntry_object_iff {key : String} {comparands : List (String × Json)} :
    IsEntry key (.object comparands) ↔
      ∃ m : Comparison, m.name = key ∧ ∀ entry ∈ comparands, m.Takes entry.2 := by
  constructor
  · rintro (_ | ⟨m, htaken⟩)
    exact ⟨m, rfl, htaken⟩
  · rintro ⟨m, rfl, htaken⟩
    exact .method m htaken

/-- An entry holds an array or an object. -/
theorem IsEntry.array_or_object {key : String} {raw : Json} : IsEntry key raw →
    (∃ items, raw = .array items) ∨ ∃ fields, raw = .object fields
  | .or _ _ => .inl ⟨_, rfl⟩
  | .method _ _ => .inr ⟨_, rfl⟩

/-- An entry with an array describes the disjunction of what its items describe. -/
theorem describesEntry_array_iff {key : String} {items : List Json} {parts : List Filter} :
    DescribesEntry key (.array items) parts ↔
      key = "or" ∧ ∃ fs, List.Forall₂ Describes items fs ∧ [.any fs] = parts := by
  constructor
  · rintro (⟨hfilters⟩)
    exact ⟨rfl, _, hfilters, rfl⟩
  · rintro ⟨rfl, fs, hfilters, rfl⟩
    exact .or hfilters

/-- The entry of a method is read as the grammar has it. -/
theorem constraints_eq_ok_iff_describes {key : String} {raw : Json} {parts : List Filter}
    (hkey : key ≠ "or") :
    (∃ cs, constraints key raw = .ok cs ∧ cs.map .atom = parts) ↔
      IsEntry key raw ∧ DescribesEntry key raw parts := by
  constructor
  · rintro ⟨cs, hcs, rfl⟩
    obtain ⟨m, comparands, hm, rfl, hsaid⟩ := constraints_eq_ok_iff.1 hcs
    obtain rfl := Comparison.ofName?_eq_some_iff.1 hm
    refine ⟨.method m fun entry hentry => ?_, .method m (hsaid.imp fun _ _ h => (says_iff.1 h).2)⟩
    obtain ⟨k, -, hk⟩ := hsaid.exists_of_mem_left hentry
    exact (says_iff.1 hk).1
  · rintro ⟨hform, hentry⟩
    cases hentry with
    | or filters => exact absurd rfl hkey
    | @method m comparands cs hread =>
      obtain ⟨n, hname, htaken⟩ := isEntry_object_iff.1 hform
      obtain rfl := Comparison.name_injective hname
      refine ⟨cs, constraints_eq_ok_iff.2 ⟨n, comparands, Comparison.ofName?_name n, rfl, ?_⟩, rfl⟩
      refine List.forall₂_iff_zip.2 ⟨hread.length_eq, fun hmem => says_iff.2 ⟨?_, ?_⟩⟩
      · exact htaken _ (List.of_mem_zip hmem).1
      · exact (List.forall₂_iff_zip.1 hread).2 hmem

/-- Entries are read one after the other, the first as a disjunction or as the comparisons of a
method. -/
theorem parts_cons_eq_ok_iff {key : String} {raw : Json} {fields : List (String × Json)}
    {fs : List Filter} :
    parts ((key, raw) :: fields) = .ok fs ↔ ∃ first,
      (if key = "or" then ∃ f, alternatives raw = .ok f ∧ [f] = first
        else ∃ cs, constraints key raw = .ok cs ∧ cs.map .atom = first) ∧
      ∃ rest, parts fields = .ok rest ∧ first ++ rest = fs := by
  have hrest (first : List Filter) : (do return first ++ (← parts fields)) = Except.ok fs ↔
      ∃ rest, parts fields = .ok rest ∧ first ++ rest = fs := by
    rw [Except.bind_eq_ok_iff]
    simp only [pure, Except.pure, Except.ok.injEq]
  by_cases hkey : key = "or"
  · simp only [parts, hkey, if_true, Except.bind_eq_ok_iff, hrest, Except.map_eq_ok_iff]
  · simp only [parts, hkey, if_false, Except.bind_eq_ok_iff, hrest, Except.map_eq_ok_iff]

-- The reader recurses on a value through its entries and items, and so do the proofs.
mutual

/-- A filter is read as the grammar has it. -/
theorem ofJson_eq_ok_iff : (raw : Json) → (f : Filter) →
    (ofJson raw = .ok f ↔ IsFilter raw ∧ Describes raw f)
  | .object fields, f => by
    rw [ofJson, Except.map_eq_ok_iff]
    constructor
    · rintro ⟨fs, hfs, rfl⟩
      obtain ⟨hform, lists, hlists, rfl⟩ := (parts_eq_ok_iff fields fs).1 hfs
      exact ⟨.object hform, .all hlists⟩
    · rintro ⟨⟨hform⟩, ⟨hlists⟩⟩
      exact ⟨_, (parts_eq_ok_iff fields _).2 ⟨hform, _, hlists, rfl⟩, rfl⟩
  | .null, f | .bool _, f | .int _, f | .float _, f | .string _, f | .array _, f => by
    simp only [ofJson, reduceCtorEq, false_iff, not_and]
    intro h
    cases h

/-- Entries are read exactly if each is one, as what they describe in order. -/
theorem parts_eq_ok_iff : (fields : List (String × Json)) → (fs : List Filter) →
    (parts fields = .ok fs ↔ (∀ entry ∈ fields, IsEntry entry.1 entry.2) ∧
      ∃ lists, List.Forall₂ (fun entry parts => DescribesEntry entry.1 entry.2 parts) fields lists ∧
        lists.flatten = fs)
  | [], fs => by
    simp [parts]
  | (key, raw) :: fields, fs => by
    have hfirst (first : List Filter) :
        (if key = "or" then ∃ f, alternatives raw = .ok f ∧ [f] = first
          else ∃ cs, constraints key raw = .ok cs ∧ cs.map .atom = first) ↔
        IsEntry key raw ∧ DescribesEntry key raw first := by
      split
      · next hkey => rw [hkey, alternatives_eq_ok_iff raw first]
      · next hkey => rw [constraints_eq_ok_iff_describes hkey]
    simp only [parts_cons_eq_ok_iff, hfirst, parts_eq_ok_iff fields, List.forall_mem_cons]
    constructor
    · rintro ⟨first, ⟨hform, hentry⟩, _, ⟨hforms, lists, hlists, rfl⟩, rfl⟩
      exact ⟨⟨hform, hforms⟩, first :: lists, .cons hentry hlists, rfl⟩
    · rintro ⟨⟨hform, hforms⟩, _, _ | ⟨hentry, hlists⟩, rfl⟩
      exact ⟨_, ⟨hform, hentry⟩, _, ⟨hforms, _, hlists, rfl⟩, rfl⟩

/-- Alternatives are read exactly if they make an entry, as what that describes. -/
theorem alternatives_eq_ok_iff : (raw : Json) → (parts : List Filter) →
    ((∃ f, alternatives raw = .ok f ∧ [f] = parts) ↔
      IsEntry "or" raw ∧ DescribesEntry "or" raw parts)
  | .array [], parts => by simp [alternatives, isEntry_array_iff]
  | .array (item :: items), parts => by
    simp only [alternatives, Except.bind_eq_ok_iff, ofJson_eq_ok_iff item,
      ofJsonItems_eq_ok_iff items, isEntry_array_iff, describesEntry_array_iff,
      List.forall_mem_cons]
    constructor
    · rintro ⟨_, ⟨f, ⟨hform, hf⟩, fs, ⟨hforms, hfs⟩, h⟩, rfl⟩
      obtain rfl := Except.ok.inj h
      exact ⟨⟨trivial, List.cons_ne_nil _ _, hform, hforms⟩, trivial, _, .cons hf hfs, rfl⟩
    · rintro ⟨⟨-, -, hform, hforms⟩, -, _, _ | ⟨hf, hfs⟩, rfl⟩
      exact ⟨_, ⟨_, ⟨hform, hf⟩, _, ⟨hforms, hfs⟩, rfl⟩, rfl⟩
  | .object _, parts => by
    simp [alternatives, isEntry_object_iff, Comparison.name_ne_or]
  | .null, parts | .bool _, parts | .int _, parts | .float _, parts | .string _, parts => by
    simp only [alternatives, reduceCtorEq, false_and, exists_false, false_iff, not_and]
    intro h
    simpa using h.array_or_object

/-- The items of a list are read exactly if each is a filter, as what they describe in order. -/
theorem ofJsonItems_eq_ok_iff : (items : List Json) → (fs : List Filter) →
    (ofJsonItems items = .ok fs ↔
      (∀ item ∈ items, IsFilter item) ∧ List.Forall₂ Describes items fs)
  | [], fs => by
    simp [ofJsonItems, eq_comm]
  | item :: items, fs => by
    simp only [ofJsonItems, Except.bind_eq_ok_iff, ofJson_eq_ok_iff item,
      ofJsonItems_eq_ok_iff items, List.forall_mem_cons]
    constructor
    · rintro ⟨f, ⟨hform, hf⟩, fs, ⟨hforms, hfs⟩, h⟩
      obtain rfl := Except.ok.inj h
      exact ⟨⟨hform, hforms⟩, .cons hf hfs⟩
    · rintro ⟨⟨hform, hforms⟩, _ | ⟨hf, hfs⟩⟩
      exact ⟨_, ⟨hform, hf⟩, _, ⟨hforms, hfs⟩, rfl⟩

end

mutual

/-- What is a filter by its form stands for one. -/
theorem IsFilter.exists_describes {raw : Json} : IsFilter raw → ∃ f, Describes raw f
  | .object entries => by
    obtain ⟨lists, hlists⟩ := List.Forall₂.exists_of_forall fun entry hentry =>
      (entries entry hentry).exists_describes
    exact ⟨_, .all hlists⟩

/-- An entry describes something. -/
theorem IsEntry.exists_describes {key : String} {raw : Json} :
    IsEntry key raw → ∃ parts, DescribesEntry key raw parts
  | .or _ filters => by
    obtain ⟨fs, hfs⟩ := List.Forall₂.exists_of_forall fun item hitem =>
      (filters item hitem).exists_describes
    exact ⟨_, .or hfs⟩
  | .method m taken => by
    have hread : ∀ entry ∈ _, ∃ k, DescribesConstraint m entry k := fun entry hentry => by
      obtain ⟨v, hv⟩ := (taken entry hentry).exists_value
      exact ⟨⟨m, entry.1, v⟩, rfl, rfl, hv⟩
    obtain ⟨cs, hcs⟩ := List.Forall₂.exists_of_forall hread
    exact ⟨_, .method m hcs⟩

end

/-- **The reader accepts exactly the grammar.** A filter is read from a JSON value if and only if
the value has the form of one. What is read is then the filter that the value stands for, part by
part in the order of the entries, and no other. Everything else, at any depth, is refused with an
error of the filter. -/
theorem ofJson_eq_ok_iff_describes (raw : Json) :
    ((∃ f, ofJson raw = .ok f) ↔ IsFilter raw) ∧
    (∀ f, ofJson raw = .ok f ↔ IsFilter raw ∧ Describes raw f) ∧
    ∀ e, ofJson raw = .error e → ∃ cause, e = .filters cause := by
  refine ⟨?_, ofJson_eq_ok_iff raw, ?_⟩
  · constructor
    · rintro ⟨f, hf⟩
      exact ((ofJson_eq_ok_iff raw f).1 hf).1
    · intro h
      obtain ⟨f, hf⟩ := h.exists_describes
      exact ⟨f, (ofJson_eq_ok_iff raw f).2 ⟨h, hf⟩⟩
  · exact failsWith_filter (fun cause => ⟨cause, rfl⟩) raw

/-- Alternatives one of which constrains nothing, and a comparison with null two levels down, which
no ordering has. -/
theorem ofJson_eq_ok_iff_describes_nested :
    (∃ f, ofJson (.object [("ne", .object [("name", .null)]), ("or", .array [
      .object [("in", .object [("id", .array [.int 1, .int 2])])], .object []])]) = .ok f) ∧
    ∃ cause, ofJson (.object [("or", .array [.object [("or", .array [
      .object [("gt", .object [("id", .null)])]])]])]) = .error (.filters cause) := by
  constructor
  · have hne : IsEntry "ne" (.object [("name", .null)]) :=
      .method .ne (by simp [Comparison.Takes, Json.isScalar])
    have hin : IsEntry "in" (.object [("id", .array [.int 1, .int 2])]) :=
      .method .member (by simp [Comparison.Takes, Json.isScalar])
    have hor : IsEntry "or" (.array [
        .object [("in", .object [("id", .array [.int 1, .int 2])])], .object []]) := by
      refine .or (List.cons_ne_nil _ _) (List.forall_mem_cons.2 ⟨.object ?_, ?_⟩)
      · simpa using hin
      · simpa using IsFilter.object (List.forall_mem_nil _)
    exact (ofJson_eq_ok_iff_describes _).1.2 (.object (by simpa using ⟨hne, hor⟩))
  · obtain ⟨e, he⟩ : ∃ e, ofJson (.object [("or", .array [.object [("or", .array [
      .object [("gt", .object [("id", .null)])]])]])]) = .error e := ⟨_, rfl⟩
    obtain ⟨cause, rfl⟩ := (ofJson_eq_ok_iff_describes _).2.2 e he
    exact ⟨cause, he⟩

end Filter

end Tabula
