import Tabula.Proofs.Query.Grammar
import Tabula.Proofs.Query.Statements
import Tabula.Proofs.Sql.Outline

/-!
# Statements of requests that differ in values

The outline of a request has a blank in the place of every value that it gives. Requests with the
same outline have the same tables, columns, joins and ordering, filters of the same shape, and a
limit each or none. Main statement: accepted requests with the same outline have statements with the
same text, whose parameters are the values that the requests give, place by place
(`text_of_outline_eq`).
-/

namespace Tabula

open Sql (Condition Test)

/-! ## Values in JSON -/

namespace Json

/-- A step from a JSON value into a part of it. -/
inductive Step where
  | field (name : String)
  | item (index : Nat)
  deriving DecidableEq, Repr

mutual

/-- The JSON value with blanks for everything in it that is no array and no object. -/
def outline : Json → Json
  | .array items => .array (outlineItems items)
  | .object fields => .object (outlineFields fields)
  | .null | .bool _ | .int _ | .float _ | .string _ => Value.blank.toJson

/-- The outlines of the items of an array. -/
def outlineItems : List Json → List Json
  | [] => []
  | item :: items => outline item :: outlineItems items

/-- The outlines of the fields of an object. -/
def outlineFields : List (String × Json) → List (String × Json)
  | [] => []
  | (name, value) :: fields => (name, outline value) :: outlineFields fields

end

/-- A value in a part of a JSON value, with its path in the whole. -/
def under (step : Step) (found : List Step × Value) : List Step × Value :=
  (step :: found.1, found.2)

mutual

/-- Everything in a JSON value that is no array and no object, each with its path, in order. -/
def scalars : Json → List (List Step × Value)
  | .null => [([], .null)]
  | .bool b => [([], .bool b)]
  | .int n => [([], .ofInt n)]
  | .float x => [([], .float x)]
  | .string s => [([], .string s)]
  | .array items => itemScalars 0 items
  | .object fields => fieldScalars fields

/-- The scalars of the items of an array from some index on. -/
def itemScalars (index : Nat) : List Json → List (List Step × Value)
  | [] => []
  | item :: items => (scalars item).map (under (.item index)) ++ itemScalars (index + 1) items

/-- The scalars of the fields of an object. -/
def fieldScalars : List (String × Json) → List (List Step × Value)
  | [] => []
  | (name, value) :: fields => (scalars value).map (under (.field name)) ++ fieldScalars fields

end

theorem outlineItems_eq_map (items : List Json) : outlineItems items = items.map outline := by
  induction items with
  | nil => rfl
  | cons item items ih => rw [outlineItems, ih, List.map_cons]

/-- A step before places stands before each of them. -/
theorem fst_map_under (step : Step) (found : List (List Step × Value)) :
    (found.map (under step)).map Prod.fst = (found.map Prod.fst).map (step :: ·) := by
  rw [List.map_map, List.map_map]
  rfl

@[simp] theorem snd_map_under (step : Step) (found : List (List Step × Value)) :
    (found.map (under step)).map Prod.snd = found.map Prod.snd := by
  rw [List.map_map]
  rfl

mutual

/-- The paths of scalars are those of the blanks in the outline. -/
theorem paths_outline : (raw : Json) →
    raw.outline.scalars.map Prod.fst = raw.scalars.map Prod.fst
  | .array items => by
    rw [outline, scalars, scalars]
    exact paths_outlineItems 0 items
  | .object fields => by
    rw [outline, scalars, scalars]
    exact paths_outlineFields fields
  | .null | .bool _ | .int _ | .float _ | .string _ => rfl

/-- The outlines of items have scalars at the same places. -/
theorem paths_outlineItems (index : Nat) : (items : List Json) →
    (itemScalars index (outlineItems items)).map Prod.fst = (itemScalars index items).map Prod.fst
  | [] => rfl
  | item :: items => by
    rw [outlineItems, itemScalars, itemScalars, List.map_append, List.map_append, fst_map_under,
      fst_map_under, paths_outline item, paths_outlineItems (index + 1) items]

/-- So have those of fields. -/
theorem paths_outlineFields : (fields : List (String × Json)) →
    (fieldScalars (outlineFields fields)).map Prod.fst = (fieldScalars fields).map Prod.fst
  | [] => rfl
  | (name, value) :: fields => by
    rw [outlineFields, fieldScalars, fieldScalars, List.map_append, List.map_append, fst_map_under,
      fst_map_under, paths_outline value, paths_outlineFields fields]

end

/-- The scalars of items are those of each of them. -/
theorem snd_itemScalars (index : Nat) (items : List Json) :
    (itemScalars index items).map Prod.snd
      = items.flatMap fun item => item.scalars.map Prod.snd := by
  induction items generalizing index with
  | nil => rfl
  | cons item items ih =>
    rw [itemScalars, List.map_append, snd_map_under, ih, List.flatMap_cons]

/-- The scalars of fields are those of each of them. -/
theorem snd_fieldScalars (fields : List (String × Json)) :
    (fieldScalars fields).map Prod.snd
      = fields.flatMap fun field => field.2.scalars.map Prod.snd := by
  induction fields with
  | nil => rfl
  | cons field fields ih =>
    rw [fieldScalars, List.map_append, snd_map_under, ih, List.flatMap_cons]

end Json

/-! ## Comparands -/

/-- What is read as a single value is one scalar. -/
theorem Value.scalar_of_ofJson? {raw : Json} {v : Value} (h : ofJson? raw = some v)
    (hlist : v.isList = false) : raw.outline = blank.toJson ∧ raw.scalars.map Prod.snd = [v] := by
  cases raw with
  | array items =>
    obtain ⟨vs, -, rfl⟩ := Option.map_eq_some_iff.1 h
    cases hlist
  | object fields => cases h
  | _ =>
    obtain rfl := Option.some.inj h
    exact ⟨rfl, rfl⟩

/-- Items that are read as single values are one scalar each. -/
theorem Value.items_of_ofJsonItems? {items : List Json} {vs : List Value}
    (h : ofJsonItems? items = some vs) (hlist : ∀ v ∈ vs, v.isList = false) :
    ofJsonItems? (items.map Json.outline) = some (vs.map fun _ => blank) ∧
      (items.flatMap fun item => item.scalars.map Prod.snd) = vs := by
  induction items generalizing vs with
  | nil =>
    obtain rfl := Option.some.inj h
    exact ⟨rfl, rfl⟩
  | cons item items ih =>
    obtain ⟨v, hv, h⟩ := Option.bind_eq_some_iff.1 h
    obtain ⟨rest, hrest, h⟩ := Option.bind_eq_some_iff.1 h
    obtain rfl := Option.some.inj h
    obtain ⟨houtline, hscalars⟩ := scalar_of_ofJson? hv (hlist v List.mem_cons_self)
    obtain ⟨hblanks, hvalues⟩ := ih hrest fun w hw => hlist w (List.mem_cons_of_mem _ hw)
    refine ⟨?_, ?_⟩
    · rw [List.map_cons, houtline, ofJsonItems?, hblanks]
      rfl
    · rw [List.flatMap_cons, hscalars, hvalues]
      rfl

/-- The comparison with blanks. -/
def Constraint.outline (k : Constraint) : Constraint := { k with value := k.value.outline }

/-- What fits a method does so by its outline. -/
theorem Comparison.fits_outline {m : Comparison} {v : Value} (h : m.fits v = true) :
    m.fits v.outline = true := by
  cases m <;> cases v <;> simp_all [fits, Value.outline, Value.blank, Value.isList, Value.isNull]

namespace Filter

/-- The outline of a comparand is one, and its scalars are the values that are compared with. -/
theorem comparand_outline {m : Comparison} {column : String} {raw : Json} {v : Value}
    (h : comparand m column raw = .ok v) :
    comparand m column raw.outline = .ok v.outline ∧ raw.scalars.map Prod.snd = v.items := by
  obtain ⟨hread, hfits⟩ := comparand_eq_ok_iff.1 h
  rw [comparand_eq_ok_iff, and_iff_left (Comparison.fits_outline hfits)]
  rcases Comparison.isFlat_of_fits hfits with hlist | ⟨vs, rfl, hlist⟩
  · obtain ⟨houtline, hscalars⟩ := Value.scalar_of_ofJson? hread hlist
    rw [houtline, hscalars]
    cases v <;> first | exact ⟨rfl, rfl⟩ | cases hlist
  · obtain ⟨items, rfl, hitems⟩ := Value.array_of_ofJson? hread
    obtain ⟨hblanks, hvalues⟩ := Value.items_of_ofJsonItems? hitems hlist
    rw [Json.outline, Json.outlineItems_eq_map, Json.scalars, Json.snd_itemScalars, hvalues]
    exact ⟨Option.map_eq_some_iff.2 ⟨_, hblanks, rfl⟩, rfl⟩

/-- The comparisons of a method are read from its outline, and its scalars are their values. -/
theorem constraints_outline {name : String} {raw : Json} {cs : List Constraint}
    (h : constraints name raw = .ok cs) :
    constraints name raw.outline = .ok (cs.map Constraint.outline) ∧
      raw.scalars.map Prod.snd = cs.flatMap fun k => k.value.items := by
  obtain ⟨m, fields, hm, rfl, hread⟩ := constraints_eq_ok_iff.1 h
  have hall : List.Forall₂ (Says m) (Json.outlineFields fields) (cs.map Constraint.outline) ∧
      fields.flatMap (fun field => field.2.scalars.map Prod.snd)
        = cs.flatMap fun k => k.value.items := by
    clear h
    induction hread with
    | nil => exact ⟨.nil, rfl⟩
    | cons hk hrest ih =>
      obtain ⟨hmethod, hcolumn, hvalue⟩ := hk
      obtain ⟨hblank, hscalars⟩ := comparand_outline hvalue
      rw [List.flatMap_cons, List.flatMap_cons, hscalars, ih.2]
      exact ⟨.cons ⟨hmethod, hcolumn, hblank⟩ ih.1, rfl⟩
  rw [constraints_eq_ok_iff, Json.scalars, Json.snd_fieldScalars, Json.outline]
  exact ⟨⟨m, _, hm, rfl, hall.1⟩, hall.2⟩

/-! ## Filters -/

/-- What a relation between the fields of filters and their parts must be closed under to hold of
all filters that can be read. -/
structure ClosedUnderReading (Q : List (String × Json) → List Filter → Prop) : Prop where
  nil : Q [] []
  comparisons : ∀ {key raw cs fields fs}, key ≠ "or" → constraints key raw = .ok cs →
    Q fields fs → Q ((key, raw) :: fields) (cs.map .atom ++ fs)
  alternatives : ∀ {branches : List (List (String × Json) × List Filter)} {fields fs},
    branches ≠ [] → (∀ branch ∈ branches, Q branch.1 branch.2) → Q fields fs →
    Q (("or", .array (branches.map fun branch => .object branch.1)) :: fields)
      (.any (branches.map fun branch => .all branch.2) :: fs)

variable {Q : List (String × Json) → List Filter → Prop}

mutual

/-- A filter is read from an object, and what is closed under reading holds of both. -/
theorem ClosedUnderReading.ofJson (hQ : ClosedUnderReading Q) :
    (raw : Json) → (f : Filter) → Filter.ofJson raw = .ok f →
      ∃ fields fs, raw = .object fields ∧ f = .all fs ∧ Q fields fs
  | .object fields, f, h => by
    rw [Filter.ofJson] at h
    obtain ⟨fs, hfs, rfl⟩ := Except.map_eq_ok_iff.1 h
    exact ⟨fields, fs, rfl, rfl, hQ.parts fields fs hfs⟩
  | .null, f, h | .bool _, f, h | .int _, f, h | .float _, f, h | .string _, f, h
  | .array _, f, h => by simp [Filter.ofJson] at h

/-- A closed relation holds of the fields of a filter that is read and of its parts. -/
theorem ClosedUnderReading.parts (hQ : ClosedUnderReading Q) :
    (fields : List (String × Json)) → (fs : List Filter) → Filter.parts fields = .ok fs →
      Q fields fs
  | [], fs, h => by
    rw [Filter.parts] at h
    obtain rfl := Except.ok.inj h
    exact hQ.nil
  | (key, raw) :: fields, fs, h => by
    rw [Filter.parts] at h
    split at h
    · next hkey =>
      obtain ⟨first, hfirst, h⟩ := Except.bind_eq_ok_iff.1 h
      obtain ⟨f, hf, rfl⟩ := Except.map_eq_ok_iff.1 hfirst
      obtain ⟨rest, hrest, h⟩ := Except.bind_eq_ok_iff.1 h
      obtain rfl := Except.ok.inj h
      obtain ⟨branches, hne, rfl, rfl, hbranches⟩ := hQ.disjunction raw f hf
      rw [hkey]
      exact hQ.alternatives hne hbranches (hQ.parts fields rest hrest)
    · next hkey =>
      obtain ⟨first, hfirst, h⟩ := Except.bind_eq_ok_iff.1 h
      obtain ⟨cs, hcs, rfl⟩ := Except.map_eq_ok_iff.1 hfirst
      obtain ⟨rest, hrest, h⟩ := Except.bind_eq_ok_iff.1 h
      obtain rfl := Except.ok.inj h
      exact hQ.comparisons hkey hcs (hQ.parts fields rest hrest)

/-- Alternatives are read from the objects of a list, and it holds of each. -/
theorem ClosedUnderReading.disjunction (hQ : ClosedUnderReading Q) :
    (raw : Json) → (f : Filter) → Filter.alternatives raw = .ok f →
      ∃ branches : List (List (String × Json) × List Filter), branches ≠ [] ∧
        raw = .array (branches.map fun branch => .object branch.1) ∧
        f = .any (branches.map fun branch => .all branch.2) ∧
        ∀ branch ∈ branches, Q branch.1 branch.2
  | .array (item :: items), f, h => by
    rw [Filter.alternatives] at h
    obtain ⟨first, hfirst, h⟩ := Except.bind_eq_ok_iff.1 h
    obtain ⟨rest, hrest, h⟩ := Except.bind_eq_ok_iff.1 h
    obtain rfl := Except.ok.inj h
    obtain ⟨fields, fs, rfl, rfl, hitem⟩ := hQ.ofJson item first hfirst
    obtain ⟨branches, rfl, rfl, hbranches⟩ := hQ.items items rest hrest
    exact ⟨(fields, fs) :: branches, List.cons_ne_nil _ _, rfl, rfl,
      List.forall_mem_cons.2 ⟨hitem, hbranches⟩⟩
  | .array [], f, h | .null, f, h | .bool _, f, h | .int _, f, h | .float _, f, h
  | .string _, f, h | .object _, f, h => by simp [Filter.alternatives] at h

/-- Items are read from objects, and it holds of each. -/
theorem ClosedUnderReading.items (hQ : ClosedUnderReading Q) :
    (items : List Json) → (fs : List Filter) → Filter.ofJsonItems items = .ok fs →
      ∃ branches : List (List (String × Json) × List Filter),
        items = (branches.map fun branch => .object branch.1) ∧
        fs = (branches.map fun branch => .all branch.2) ∧
        ∀ branch ∈ branches, Q branch.1 branch.2
  | [], fs, h => by
    rw [Filter.ofJsonItems] at h
    obtain rfl := Except.ok.inj h
    exact ⟨[], rfl, rfl, by simp⟩
  | item :: items, fs, h => by
    rw [Filter.ofJsonItems] at h
    obtain ⟨first, hfirst, h⟩ := Except.bind_eq_ok_iff.1 h
    obtain ⟨rest, hrest, h⟩ := Except.bind_eq_ok_iff.1 h
    obtain rfl := Except.ok.inj h
    obtain ⟨fields, gs, rfl, rfl, hitem⟩ := hQ.ofJson item first hfirst
    obtain ⟨branches, rfl, rfl, hbranches⟩ := hQ.items items rest hrest
    exact ⟨(fields, gs) :: branches, rfl, rfl, List.forall_mem_cons.2 ⟨hitem, hbranches⟩⟩

end

/-- The outlines of an `or`'s branches are read as the outlines of what the branches are. -/
theorem ofJsonItems_outline {branches : List (List (String × Json) × List Filter)}
    (h : ∀ branch ∈ branches, parts (Json.outlineFields branch.1)
      = .ok (branch.2.map (Formula.map Constraint.outline))) :
    ofJsonItems ((branches.map fun branch => .object branch.1).map Json.outline)
      = .ok ((branches.map fun branch => .all branch.2).map (Formula.map Constraint.outline)) := by
  induction branches with
  | nil => rfl
  | cons branch branches ih =>
    rw [List.map_cons, List.map_cons, ofJsonItems, Json.outline, ofJson, h branch List.mem_cons_self,
      ih fun b hb => h b (List.mem_cons_of_mem _ hb), List.map_cons, List.map_cons, Formula.map,
      Formula.mapParts_eq_map]
    rfl

/-- The outline of a filter is read as the outlines of its parts. -/
theorem closedUnderReading_outline : ClosedUnderReading fun fields fs =>
    parts (Json.outlineFields fields) = .ok (fs.map (Formula.map Constraint.outline)) where
  nil := rfl
  comparisons := by
    intro key raw cs fields fs hkey hcs hfields
    have hatoms : (cs.map Formula.atom).map (Formula.map Constraint.outline)
        = (cs.map Constraint.outline).map Formula.atom := by
      rw [List.map_map, List.map_map]
      rfl
    rw [Json.outlineFields, parts, if_neg hkey, (constraints_outline hcs).1, hfields,
      List.map_append, hatoms]
    rfl
  alternatives := by
    intro branches fields fs hne hbranches hfields
    have hsome : (branches.map fun branch => Json.object branch.1).map Json.outline ≠ [] := by
      simpa using hne
    rw [Json.outlineFields, Json.outline, Json.outlineItems_eq_map, parts, if_pos rfl,
      alternatives_array hsome, ofJsonItems_outline hbranches, hfields, List.map_cons, Formula.map,
      Formula.mapParts_eq_map]
    rfl

/-- The scalars of a filter are the values that it compares with, in order. -/
theorem closedUnderReading_scalars : ClosedUnderReading fun fields fs =>
    (Json.fieldScalars fields).map Prod.snd
      = (Formula.atomsOf fs).flatMap fun k => k.value.items where
  nil := rfl
  comparisons := by
    intro key raw cs fields fs hkey hcs hfields
    rw [Json.fieldScalars, List.map_append, Json.snd_map_under, (constraints_outline hcs).2,
      hfields, Formula.atomsOf_append, Formula.atomsOf_map_atom, List.flatMap_append]
  alternatives := by
    intro branches fields fs hne hbranches hfields
    rw [Json.fieldScalars, List.map_append, Json.snd_map_under, Json.scalars, Json.snd_itemScalars,
      hfields, Formula.atomsOf, List.flatMap_append]
    congr 1
    show _ = (Formula.atomsOf (branches.map fun branch => .all branch.2)).flatMap _
    clear hne
    induction branches with
    | nil => rfl
    | cons branch branches ih =>
      rw [List.map_cons, List.flatMap_cons, Json.scalars, hbranches branch List.mem_cons_self,
        ih fun b hb => hbranches b (List.mem_cons_of_mem _ hb), List.map_cons, Formula.atomsOf,
        List.flatMap_append, Formula.atoms]

/-- What is read from the outline of a filter, and which values a filter compares with. -/
theorem ofJson_outline {raw : Json} {f : Filter} (h : ofJson raw = .ok f) :
    ofJson raw.outline = .ok (f.map Constraint.outline) ∧
      raw.scalars.map Prod.snd = f.atoms.flatMap fun k => k.value.items := by
  obtain ⟨fields, fs, rfl, rfl, houtline⟩ := closedUnderReading_outline.ofJson raw f h
  obtain ⟨_, _, heq, heq', hscalars⟩ := closedUnderReading_scalars.ofJson _ _ h
  obtain rfl := Json.object.inj heq
  obtain rfl := Formula.all.inj heq'
  rw [Json.outline, ofJson, houtline, Formula.map, Formula.mapParts_eq_map]
  exact ⟨rfl, hscalars⟩

end Filter

/-! ## Conditions -/

/-- A comparison is compiled alike by its outline. -/
theorem Constraint.test_outline {s : Scope} {k : Constraint} {t : Test} (h : k.test s = .ok t) :
    k.outline.test s = .ok t.outline := by
  obtain ⟨c, hc, o, ho, rfl⟩ := Scope.test_eq_ok h
  have hblank : k.outline.operand c.column = .ok o.outline := by
    obtain ⟨m, column, v⟩ := k
    unfold operand at ho ⊢
    unfold outline
    cases hm : m.takesList <;> cases v <;> rw [hm] at ho <;> cases ho <;> rfl
  have hcolumn : s.resolveColumn k.outline.column = .ok c := hc
  rw [test, hcolumn, Except.ok_bind, hblank]
  rfl

namespace Filter

/-- The outline of a filter is compiled to the outline of its condition. -/
theorem conditionOfJson_outline {s : Scope} {raw : Option Json} {c : Option Condition}
    (h : conditionOfJson s raw = .ok c) :
    conditionOfJson s (raw.map Json.outline) = .ok (c.map Condition.outline) := by
  cases raw with
  | none =>
    obtain rfl := Except.ok.inj h
    rfl
  | some raw =>
    obtain ⟨f, hf, h⟩ := Except.bind_eq_ok_iff.1 h
    rw [Option.map_some, conditionOfJson, (ofJson_outline hf).1, Except.ok_bind]
    unfold condition at h ⊢
    rw [Formula.isEmpty_map, Formula.prune_map]
    split_ifs at h ⊢ with hempty
    · obtain rfl := Except.ok.inj h
      rfl
    · obtain ⟨compiled, hcompiled, rfl⟩ := Except.map_eq_ok_iff.1 h
      rw [Formula.mapM_map (fun _ _ => Constraint.test_outline) _ hcompiled]
      rfl

end Filter

/-! ## Values of requests -/

/-- Where a request gives a value. -/
inductive Request.Place where
  /-- The value of a column. -/
  | column (name : String)
  /-- A part of the filter. -/
  | filter (path : List Json.Step)
  | limit
  deriving DecidableEq, Repr

/-- The values of a row, each with its place. -/
def RowValues.placed (row : RowValues) : List (Request.Place × Value) :=
  row.map fun (column, v) => (.column column, v)

/-- The values of an optional filter, each with its place. -/
def Filter.placed : Option Json → List (Request.Place × Value)
  | none => []
  | some raw => raw.scalars.map fun (path, v) => (.filter path, v)

/-- The values that a read request gives, each with its place. -/
def ReadRequest.placed (r : ReadRequest) : List (Request.Place × Value) :=
  Filter.placed r.filters ++ r.limit.toList.map fun n => (.limit, .int (Int64.ofNat n))

/-- The values that an update request gives, each with its place. -/
def UpdateRequest.placed (r : UpdateRequest) : List (Request.Place × Value) :=
  RowValues.placed r.values ++ Filter.placed r.filters

/-- The values that a delete request gives, each with its place. -/
def DeleteRequest.placed (r : DeleteRequest) : List (Request.Place × Value) :=
  Filter.placed r.filters

/-- The request with blanks for the values of its filter, and with the limit one if it has a
limit. -/
def ReadRequest.outline (r : ReadRequest) : ReadRequest :=
  { r with filters := r.filters.map Json.outline, limit := r.limit.map fun _ => 1 }

/-- The request with blanks for its values. -/
def UpdateRequest.outline (r : UpdateRequest) : UpdateRequest :=
  { r with values := RowValues.outline r.values, filters := r.filters.map Json.outline }

/-- The request with blanks for the values of its filter. -/
def DeleteRequest.outline (r : DeleteRequest) : DeleteRequest :=
  { r with filters := r.filters.map Json.outline }

/-- Whether two statements have the same text, and their parameters are the values of two requests
that give theirs at the same places, in the same order. So there are as many of the one as of the
other, and they differ only where the requests do. -/
structure Sql.AgreeButFor (values values' : List (Request.Place × Value)) (tokens tokens' : List Token) :
    Prop where
  text : render tokens = render tokens'
  places : values.map Prod.fst = values'.map Prod.fst
  left : parameters tokens = values.map Prod.snd
  right : parameters tokens' = values'.map Prod.snd

/-! ## Same outline, same places -/

/-- Rows of one outline have values at the same places. -/
theorem RowValues.places_eq {row row' : RowValues}
    (h : RowValues.outline row = RowValues.outline row') :
    (RowValues.placed row).map Prod.fst = (RowValues.placed row').map Prod.fst := by
  have hcolumns : ∀ row : RowValues, (RowValues.placed row).map Prod.fst
      = (RowValues.outline row).map fun entry => .column entry.1 := by
    intro row
    rw [RowValues.placed, RowValues.outline, List.map_map, List.map_map]
    rfl
  rw [hcolumns, h, hcolumns]

/-- So have filters. -/
theorem Filter.places_eq {raw raw' : Option Json}
    (h : raw.map Json.outline = raw'.map Json.outline) :
    (Filter.placed raw).map Prod.fst = (Filter.placed raw').map Prod.fst := by
  have hpaths : ∀ raw : Option Json, (Filter.placed raw).map Prod.fst
      = (Filter.placed (raw.map Json.outline)).map Prod.fst := by
    intro raw
    cases raw with
    | none => rfl
    | some raw =>
      have hfirst : ∀ found : List (List Json.Step × Value),
          (found.map fun (path, v) => (Request.Place.filter path, v)).map Prod.fst
            = (found.map Prod.fst).map .filter := by
        intro found
        rw [List.map_map, List.map_map]
        rfl
      rw [Option.map_some, Filter.placed, Filter.placed, hfirst, hfirst, Json.paths_outline]
  rw [hpaths, h, ← hpaths]

/-- So have read requests. -/
theorem ReadRequest.places_eq {r r' : ReadRequest} (h : r.outline = r'.outline) :
    r.placed.map Prod.fst = r'.placed.map Prod.fst := by
  have hlimits : ∀ limit : Option Nat, (limit.toList.map fun n =>
      (Request.Place.limit, Value.int (Int64.ofNat n))).map Prod.fst
        = (limit.map fun _ => 1).toList.map fun _ => .limit := by
    intro limit
    cases limit <;> rfl
  have hlimit : (r.limit.map fun _ => 1) = r'.limit.map fun _ => 1 :=
    congrArg ReadRequest.limit h
  rw [placed, placed, List.map_append, List.map_append, hlimits, hlimit, hlimits,
    Filter.places_eq (congrArg ReadRequest.filters h)]

/-! ## Parameters -/

/-- The values of a comparison are those of its comparand. -/
theorem Constraint.snd_bindings {s : Scope} {k : Constraint} {t : Test} (h : k.test s = .ok t) :
    (k.bindings s).map Prod.snd = k.value.items := by
  obtain ⟨c, hc, -⟩ := Scope.test_eq_ok h
  unfold bindings
  rw [hc]
  exact (List.map_map).trans (List.map_id _)

/-- Every comparison of a filter that is compiled is compiled. -/
theorem Filter.exists_test_of_condition {s : Scope} {f : Filter} {c : Option Condition}
    (h : condition s f = .ok c) : ∀ k ∈ f.atoms, ∃ t, k.test s = .ok t := by
  cases c with
  | none =>
    unfold condition at h
    split_ifs at h with hempty
    · intro k hk
      rw [Formula.atoms_eq_nil f hempty] at hk
      cases hk
    · obtain ⟨compiled, -, hnone⟩ := Except.map_eq_ok_iff.1 h
      cases hnone
  | some c =>
    intro k hk
    obtain ⟨t, -, ht⟩ := (Scope.forall₂_atoms_of_condition h).exists_of_mem_left hk
    exact ⟨t, ht⟩

/-- The comparands of a filter are the values that it gives. -/
theorem Filter.snd_bindings {s : Scope} {raw : Option Json} {c : Option Condition}
    (h : conditionOfJson s raw = .ok c) :
    (bindings s raw).map Prod.snd = (Filter.placed raw).map Prod.snd := by
  cases raw with
  | none => rfl
  | some raw =>
    obtain ⟨f, hf, h⟩ := Except.bind_eq_ok_iff.1 h
    have hplaced : (Filter.placed (some raw)).map Prod.snd
        = f.atoms.flatMap fun k => k.value.items := by
      rw [← (ofJson_outline hf).2, placed, List.map_map]
      rfl
    simp only [bindings, hf]
    rw [hplaced, List.map_flatMap]
    refine List.flatMap_congr fun k hk => ?_
    obtain ⟨t, ht⟩ := exists_test_of_condition h k hk
    exact Constraint.snd_bindings ht

namespace Plan

variable {catalog : Catalog}

/-- The outline of a request is planned as the outline of its statement. -/
theorem read_outline {r : ReadRequest} {plan : ReadPlan} (h : read catalog r = .ok plan) :
    read catalog r.outline = .ok ⟨plan.select.outline, plan.columns⟩ := by
  obtain ⟨table, limit, joins, columns, condition, terms, htable, hlimit, hjoins, hcolumns,
    hcondition, hterms, rfl⟩ := read_eq_ok_iff.1 h
  refine read_eq_ok_iff.2 ⟨table, limit.map fun _ => 1, joins, columns,
    condition.map Condition.outline, terms, htable, ?_, hjoins, hcolumns,
    Filter.conditionOfJson_outline hcondition, hterms, rfl⟩
  show (r.limit.map fun _ => 1).mapM checkLimit = _
  cases hr : r.limit with
  | none =>
    rw [hr] at hlimit
    obtain rfl := Except.ok.inj hlimit
    rfl
  | some n =>
    rw [hr] at hlimit
    obtain ⟨checked, -, rfl⟩ := Except.map_eq_ok_iff.1 hlimit
    have hone : checkLimit 1 = .ok 1 := by decide +kernel
    show some <$> checkLimit 1 = _
    rw [hone]
    rfl

/-- A delete request is planned alike by its outline. -/
theorem delete_outline {r : DeleteRequest} {q : Sql.Delete} (h : delete catalog r = .ok q) :
    delete catalog r.outline = .ok q.outline := by
  obtain ⟨t, condition, ht, hcondition, rfl⟩ := delete_eq_ok h
  show (catalog.table r.table >>= _) = _
  rw [ht, Except.ok_bind, DeleteRequest.outline, Filter.conditionOfJson_outline hcondition]
  rfl

/-- Update requests of one outline have statements of one outline. -/
theorem update_outline {r r' : UpdateRequest} {q q' : Sql.Update}
    (houtline : r.outline = r'.outline) (h : update catalog r = .ok q)
    (h' : update catalog r' = .ok q') : q.outline = q'.outline := by
  obtain ⟨t, condition, ht, -, hcondition, rfl⟩ := update_eq_ok h
  obtain ⟨t', condition', ht', -, hcondition', rfl⟩ := update_eq_ok h'
  obtain ⟨htable, hvalues, hfilters⟩ := UpdateRequest.mk.inj houtline
  rw [htable] at ht
  obtain rfl := Except.ok.inj (ht.symm.trans ht')
  have hcompiled := Filter.conditionOfJson_outline hcondition
  rw [hfilters, Filter.conditionOfJson_outline hcondition'] at hcompiled
  rw [Sql.Update.outline, Sql.Update.outline, Sql.Update.mk.injEq]
  exact ⟨rfl, hvalues, (Except.ok.inj hcompiled).symm⟩

/-- The values that a row writes are those that stand in it. -/
theorem snd_writtenBindings (row : RowValues) :
    (Sql.writtenBindings row).map Prod.snd = (RowValues.placed row).map Prod.snd := by
  rw [Sql.writtenBindings, RowValues.placed, List.map_map, List.map_map]
  rfl

/-- The parameters of a read are the values of its request. -/
theorem parameters_read {r : ReadRequest} {plan : ReadPlan} (h : read catalog r = .ok plan) :
    Sql.parameters plan.select.tokens = r.placed.map Prod.snd := by
  obtain ⟨base, planned, hbase, hplanned, hmessage⟩ := says_read h
  obtain ⟨t, limit, joins, columns, condition, terms, ht, -, hjoins, -, hcondition, -⟩ :=
    read_eq_ok_iff.1 h
  obtain rfl := Except.ok.inj (hbase.symm.trans ht)
  obtain rfl := Except.ok.inj (hplanned.symm.trans hjoins)
  rw [(hmessage []).parameters, List.map_append, Filter.snd_bindings hcondition, ReadRequest.placed,
    List.map_append, List.map_map, List.map_map]
  rfl

/-- The parameters of an insertion are the values of its row. -/
theorem parameters_insert {t : Table} (ht : t ∈ catalog.tables) {row : RowValues} {q : Sql.Insert}
    (h : insert t row = .ok q) : Sql.parameters q.tokens = (RowValues.placed row).map Prod.snd := by
  rw [(says_planned_insert ht h []).parameters, snd_writtenBindings]

/-- The parameters of an update are the values of its request. -/
theorem parameters_update {r : UpdateRequest} {q : Sql.Update} (h : update catalog r = .ok q) :
    Sql.parameters q.tokens = r.placed.map Prod.snd := by
  obtain ⟨t, ht, hmessage⟩ := says_planned_update h
  obtain ⟨t', condition, ht', -, hcondition, -⟩ := update_eq_ok h
  obtain rfl := Except.ok.inj (ht.symm.trans ht')
  rw [(hmessage []).parameters, List.map_append, snd_writtenBindings, Filter.snd_bindings hcondition,
    UpdateRequest.placed, List.map_append]

/-- The parameters of a deletion are the values of its request. -/
theorem parameters_delete {r : DeleteRequest} {q : Sql.Delete} (h : delete catalog r = .ok q) :
    Sql.parameters q.tokens = r.placed.map Prod.snd := by
  obtain ⟨t, ht, hmessage⟩ := says_planned_delete h
  obtain ⟨t', condition, ht', hcondition, -⟩ := delete_eq_ok h
  obtain rfl := Except.ok.inj (ht.symm.trans ht')
  rw [(hmessage []).parameters, Filter.snd_bindings hcondition]
  rfl

/-- **The text of a statement tells nothing of values.** Let two requests of one kind have the same
outline, so that they are the same but for values. If both are accepted then their statements have
the same text, reads have the same result columns, and the parameters of each are its values, at the
same places in the same order. -/
theorem text_of_outline_eq (catalog : Catalog) :
    (∀ r r' plan plan', r.outline = r'.outline → read catalog r = .ok plan →
      read catalog r' = .ok plan' → plan.columns = plan'.columns ∧
        Sql.AgreeButFor r.placed r'.placed plan.select.tokens plan'.select.tokens) ∧
    (∀ name t row row' q q', catalog.table name = .ok t →
      RowValues.outline row = RowValues.outline row' → insert t row = .ok q →
      insert t row' = .ok q' →
        Sql.AgreeButFor (RowValues.placed row) (RowValues.placed row') q.tokens q'.tokens) ∧
    (∀ r r' q q', r.outline = r'.outline → update catalog r = .ok q → update catalog r' = .ok q' →
      Sql.AgreeButFor r.placed r'.placed q.tokens q'.tokens) ∧
    (∀ r r' q q', r.outline = r'.outline → delete catalog r = .ok q → delete catalog r' = .ok q' →
      Sql.AgreeButFor r.placed r'.placed q.tokens q'.tokens) := by
  refine ⟨?_, ?_, ?_, ?_⟩
  · intro r r' plan plan' houtline h h'
    have hplans := (read_outline h).symm.trans (houtline ▸ read_outline h')
    obtain ⟨hselect, hcolumns⟩ := ReadPlan.mk.inj (Except.ok.inj hplans)
    refine ⟨hcolumns, ?_, ReadRequest.places_eq houtline, parameters_read h, parameters_read h'⟩
    rw [← plan.select.render_outline, hselect, plan'.select.render_outline]
  · intro name t row row' q q' ht houtline h h'
    have hmem := Catalog.mem_tables ht
    refine ⟨?_, RowValues.places_eq houtline, parameters_insert hmem h, parameters_insert hmem h'⟩
    obtain ⟨-, rfl⟩ := insert_eq_ok h
    obtain ⟨-, rfl⟩ := insert_eq_ok h'
    rw [← Sql.Insert.render_outline, ← Sql.Insert.render_outline ⟨t.name, row'⟩,
      Sql.Insert.outline, Sql.Insert.outline, houtline]
  · intro r r' q q' houtline h h'
    obtain ⟨-, hvalues, hfilters⟩ := UpdateRequest.mk.inj houtline
    refine ⟨?_, ?_, parameters_update h, parameters_update h'⟩
    · rw [← q.render_outline, update_outline houtline h h', q'.render_outline]
    · rw [UpdateRequest.placed, UpdateRequest.placed, List.map_append, List.map_append,
        RowValues.places_eq hvalues, Filter.places_eq hfilters]
  · intro r r' q q' houtline h h'
    obtain ⟨-, hfilters⟩ := DeleteRequest.mk.inj houtline
    have hstatements := (delete_outline h).symm.trans (houtline ▸ delete_outline h')
    refine ⟨?_, Filter.places_eq hfilters, parameters_delete h, parameters_delete h'⟩
    rw [← q.render_outline, Except.ok.inj hstatements, q'.render_outline]

/-- Null, the empty string and a text that looks like a statement are written alike. -/
theorem text_of_outline_eq_hostile :
    let shot : Table := {
      name := "Shot"
      columns := [{ name := "id", type := .int, isKey := true },
        { name := "name", type := .string, nullable := true }] }
    let catalog : Catalog := ⟨[("Shot", shot)]⟩
    let filters (v pattern : Json) (m n : Int) : Option Json := some (.object [
      ("eq", .object [("Shot.name", v)]), ("in", .object [("id", .array [.int m, .int n])]),
      ("or", .array [.object [("like", .object [("name", pattern)])], .object []])])
    let plain := filters .null (.string "S%") 1 2
    let hostile := filters (.string "") (.string "\"; DROP TABLE \"Shot\" --") 0 (-7)
    let r : ReadRequest := { table := "Shot", filters := plain, limit := some 1 }
    let r' : ReadRequest := { table := "Shot", filters := hostile, limit := some 100 }
    let row : RowValues := [("id", .null), ("name", .string "A")]
    let row' : RowValues := [("id", .int 0), ("name", .string "?")]
    ∃ plan plan' inserted inserted' updated updated' deleted deleted',
      read catalog r = .ok plan ∧ read catalog r' = .ok plan' ∧
      insert shot row = .ok inserted ∧ insert shot row' = .ok inserted' ∧
      update catalog ⟨"Shot", row, plain⟩ = .ok updated ∧
      update catalog ⟨"Shot", row', hostile⟩ = .ok updated' ∧
      delete catalog ⟨"Shot", plain⟩ = .ok deleted ∧
      delete catalog ⟨"Shot", hostile⟩ = .ok deleted' ∧
      plan.columns = plan'.columns ∧
      Sql.AgreeButFor r.placed r'.placed plan.select.tokens plan'.select.tokens ∧
      Sql.AgreeButFor (RowValues.placed row) (RowValues.placed row') inserted.tokens
        inserted'.tokens ∧
      Sql.AgreeButFor (UpdateRequest.placed ⟨"Shot", row, plain⟩)
        (UpdateRequest.placed ⟨"Shot", row', hostile⟩) updated.tokens updated'.tokens ∧
      Sql.AgreeButFor (DeleteRequest.placed ⟨"Shot", plain⟩)
        (DeleteRequest.placed ⟨"Shot", hostile⟩) deleted.tokens deleted'.tokens := by
  intro shot catalog filters plain hostile r r' row row'
  have hok : ∀ {α : Type} (x : Except Error α), x.isOk = true → ∃ a, x = .ok a :=
    fun _ => Except.isOk_iff.1
  obtain ⟨plan, hplan⟩ := hok (read catalog r) (by decide +kernel)
  obtain ⟨plan', hplan'⟩ := hok (read catalog r') (by decide +kernel)
  obtain ⟨inserted, hinserted⟩ := hok (insert shot row) (by decide +kernel)
  obtain ⟨inserted', hinserted'⟩ := hok (insert shot row') (by decide +kernel)
  obtain ⟨updated, hupdated⟩ := hok (update catalog ⟨"Shot", row, plain⟩) (by decide +kernel)
  obtain ⟨updated', hupdated'⟩ := hok (update catalog ⟨"Shot", row', hostile⟩) (by decide +kernel)
  obtain ⟨deleted, hdeleted⟩ := hok (delete catalog ⟨"Shot", plain⟩) (by decide +kernel)
  obtain ⟨deleted', hdeleted'⟩ := hok (delete catalog ⟨"Shot", hostile⟩) (by decide +kernel)
  obtain ⟨hreads, hinserts, hupdates, hdeletes⟩ := text_of_outline_eq catalog
  obtain ⟨hcolumns, hread⟩ := hreads r r' plan plan' rfl hplan hplan'
  exact ⟨plan, plan', inserted, inserted', updated, updated', deleted, deleted', hplan, hplan',
    hinserted, hinserted', hupdated, hupdated', hdeleted, hdeleted', hcolumns, hread,
    hinserts "Shot" shot row row' _ _ rfl rfl hinserted hinserted',
    hupdates _ _ _ _ rfl hupdated hupdated', hdeletes _ _ _ _ rfl hdeleted hdeleted'⟩

end Plan

end Tabula
