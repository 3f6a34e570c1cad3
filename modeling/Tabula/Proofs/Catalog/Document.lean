import Tabula.Catalog.Document
import Tabula.Proofs.Catalog.Consistent
import Tabula.Proofs.Json.Reordered
import Tabula.Proofs.Json.Text
import Tabula.Report.Format

/-!
# Catalogs written and read again

A catalog is listed as the JSON of its tables, with every field of them written. The decoders of catalog
documents recover each part from this JSON, in whatever order a document has the fields, so that a
document with the listing passes for the tables; these are the tables of a catalog, and the catalog is
built from them again. Main statement: the listing of a catalog, as the tables of a document, is read as
the catalog (`Catalog.reloads`).
-/

namespace Tabula

open Json (Decoder)

namespace ColumnType

/-- A type is read as it was written. -/
theorem decoder_recovers (t : ColumnType) : decoder.Recovers (.string t.name) t :=
  .variant_nothing (by
    cases t <;> simp [all, name, Decoder.chosen, Json.Name.mem_spellings, Json.Name.IsSpelled])

end ColumnType

namespace Value

/-- A value has no objects in it, so that it is written in one order. -/
theorem decoder_recovers (v : Value) : decoder.Recovers v.toJson v := by
  intro origin k hk
  have hnone : ¬ v.toJson.HasObject := by
    rw [← ofJson?_eq_none_iff, ofJson?_toJson]
    nofun
  rw [hk.eq_of_not_hasObject hnone, decoder_ofJson, ofJson?_toJson]

end Value

namespace Default

/-- No default is written as null. -/
theorem toJson_ne_null (d : Default) : d.toJson ≠ .null := by
  cases d <;> nofun

/-- A default is read as it was written. -/
theorem decoder_recovers (d : Default) : decoder.Recovers d.toJson d := by
  cases d with
  | value v =>
      refine .variant_one (d := Decoder.map value Value.decoder) ?_ (v.decoder_recovers.map value)
      simp [Decoder.chosen, Json.Name.mem_spellings, Json.Name.IsSpelled]
  | currentTimestamp =>
      refine .variant_nothing ?_
      simp [Decoder.chosen, Json.Name.mem_spellings, Json.Name.IsSpelled]

end Default

namespace Column

/-- A column without a default has null in the field of the default. -/
def defaultToJson (c : Column) : Json :=
  (c.default?.map Default.toJson).getD .null

/-- The fields of a column. -/
theorem toJson_eq (c : Column) :
    c.toJson = .object [("name", .string c.name), ("type", .string c.type.name),
      ("nullable", .bool c.nullable), ("primary_key", .bool c.isKey), ("unique", .bool c.isUnique),
      ("default", c.defaultToJson)] := by
  unfold toJson defaultToJson
  cases c.default? <;> rfl

/-- A column is read as it was written. -/
theorem decoder_recovers (c : Column) : decoder.Recovers c.toJson c := by
  have hdefault : (Decoder.optional Default.decoder).Recovers c.defaultToJson c.default? := by
    unfold defaultToJson
    cases c.default? with
    | none => exact .optional_none
    | some d => exact .optional_some d.toJson_ne_null d.decoder_recovers
  rw [toJson_eq]
  exact Json.Fields.Recovers.record ["name", "type", "nullable", "primary_key", "unique", "default"]
    (by decide) (by decide)
    ((((((Json.Fields.Recovers.map ofFields (.single (Decoder.recovers_string c.name))).seq
      (.single c.type.decoder_recovers)).seq
      (.single (Decoder.recovers_boolean c.nullable))).seq
      (.single (Decoder.recovers_boolean c.isKey))).seq
      (.single (Decoder.recovers_boolean c.isUnique))).seq
      (.single hdefault))

end Column

namespace UniqueConstraint

/-- A constraint is read as it was written. -/
theorem decoder_recovers (u : UniqueConstraint) : decoder.Recovers u.toJson u :=
  Json.Fields.Recovers.record ["name", "columns"] (by decide) (by decide)
    ((Json.Fields.Recovers.map mk (.single (Decoder.recovers_string u.name))).seq
      (.single (.list fun name _ => Decoder.recovers_string name)))

end UniqueConstraint

namespace Table

/-- A table is read as it was written. -/
theorem decoder_recovers (t : Table) : decoder.Recovers t.toJson t :=
  Json.Fields.Recovers.record ["name", "columns", "unique"] (by decide) (by decide)
    (((Json.Fields.Recovers.map mk (.single (Decoder.recovers_string t.name))).seq
      (.single (.list fun c _ => c.decoder_recovers))).seq
      (.single (.list fun u _ => u.decoder_recovers)))

end Table

/-! ## Texts of catalogs -/

/-- Whether a default is no float, or one that is read from its text. -/
def Default.IsExact : Default → Prop
  | .value (.float x) => Json.parse (Json.floatText x) = .ok (.float x)
  | _ => True

section Expressible

open Json (IsExpressible)

variable {depth : Nat}

/-- A default that a column takes has a text, if its floats are exact. -/
theorem Column.Takes.isExpressible {c : Column} {d : Default} (h : c.Takes d) (hexact : d.IsExact) :
    d.toJson.IsExpressible (depth + 1) := by
  have hvalue {v : Value} (hv : v.toJson.IsExpressible depth) :
      (Default.value v).toJson.IsExpressible (depth + 1) :=
    .object (by simpa using hv)
  cases h with
  | null => exact hvalue .null
  | bool _ b => exact hvalue (.bool b)
  | int _ n =>
      have hhigh := n.toInt_lt
      exact hvalue (.int n.le_toInt (by omega))
  | float _ x => exact hvalue (.float hexact)
  | string _ s => exact hvalue (.string s)
  | currentTimestamp => exact .string _

/-- A column has a text, if its default does. -/
theorem Column.isExpressible {c : Column} (htakes : ∀ d ∈ c.default?, c.Takes d)
    (hexact : ∀ d ∈ c.default?, d.IsExact) : c.toJson.IsExpressible (depth + 2) := by
  have hdefault : c.defaultToJson.IsExpressible (depth + 1) := by
    unfold Column.defaultToJson
    cases h : c.default? with
    | none => exact .null
    | some d => exact (htakes d h).isExpressible (hexact d h)
  rw [c.toJson_eq]
  refine .object fun field hfield => ?_
  simp only [List.mem_cons, List.not_mem_nil, or_false] at hfield
  rcases hfield with rfl | rfl | rfl | rfl | rfl | rfl
  exacts [.string _, .string _, .bool _, .bool _, .bool _, hdefault]

/-- A constraint has a text. -/
theorem UniqueConstraint.isExpressible (u : UniqueConstraint) :
    u.toJson.IsExpressible (depth + 2) := by
  have hcolumns : (Json.array (u.columns.map .string)).IsExpressible (depth + 1) :=
    .array (List.forall_mem_map.2 fun name _ => .string name)
  refine .object fun field hfield => ?_
  simp only [List.mem_cons, List.not_mem_nil, or_false] at hfield
  rcases hfield with rfl | rfl
  exacts [.string _, hcolumns]

/-- A table that is well formed has a text, if its defaults are exact. -/
theorem Table.IsWellFormed.isExpressible {t : Table} (h : t.IsWellFormed)
    (hexact : ∀ c ∈ t.columns, ∀ d ∈ c.default?, d.IsExact) :
    t.toJson.IsExpressible (depth + 4) := by
  have hcolumns : (Json.array (t.columns.map Column.toJson)).IsExpressible (depth + 3) :=
    .array (List.forall_mem_map.2 fun c hc => Column.isExpressible (h.columns c hc).2 (hexact c hc))
  have hunique : (Json.array (t.unique.map UniqueConstraint.toJson)).IsExpressible (depth + 3) :=
    .array (List.forall_mem_map.2 fun u _ => u.isExpressible)
  refine .object fun field hfield => ?_
  simp only [List.mem_cons, List.not_mem_nil, or_false] at hfield
  rcases hfield with rfl | rfl | rfl
  exacts [.string _, hcolumns, hunique]

end Expressible

namespace Catalog

open Json.Lexeme (AlwaysCutsInto all_cons extendsNumeral)

/-- A document with a catalog as its tables. -/
def document (c : Catalog) : Json :=
  .object [("tables", c.toJson)]

/-- The tables of a catalog are read as they were written. -/
theorem decoder_recovers (c : Catalog) : decoder.Recovers c.document c.tables :=
  Json.Fields.Recovers.record ["tables"] (by decide) (by decide)
    (Json.Fields.Recovers.map id (.single (.list fun t _ => t.decoder_recovers)))

variable {tables : List Table} {c : Catalog}

/-- A text that holds the document of a built catalog is read as the catalog. -/
theorem ofText_of_isWrittenAs (h : build tables = .ok c) {text : String}
    (htext : c.document.IsWrittenAs text) : ofText text = .ok c := by
  have hbuild : build c.tables = .ok c := (build_eq_ok_iff_of_perm (tables_perm_of_build h)).2 h
  rw [ofText, c.decoder_recovers.ofText htext]
  exact hbuild

/-- The document of a built catalog can be read, as it has few levels. -/
theorem isExpressible_document (h : build tables = .ok c)
    (hexact : ∀ t ∈ tables, ∀ column ∈ t.columns, ∀ d ∈ column.default?, d.IsExact) :
    c.document.IsExpressible Json.Document.maxDepth := by
  have hperm := tables_perm_of_build h
  have hwell := (build_eq_ok_iff_isConsistentSchema.1 h).1.isWellFormed
  have hlisting : c.toJson.IsExpressible (121 + 5) :=
    .array (List.forall_mem_map.2 fun t ht =>
      (hwell t (hperm.mem_iff.1 ht)).isExpressible (hexact t (hperm.mem_iff.1 ht)))
  exact .object (List.forall_mem_singleton.2 hlisting)

/-- The listing of a catalog with a name before it and brackets around it holds its document. -/
theorem document_isWrittenAs_listing (hdocument : c.document.IsExpressible Json.Document.maxDepth) :
    c.document.IsWrittenAs ("\x7b\"tables\": " ++ Format.json.catalog c ++ "\x7d") := by
  have hlisting : ∃ depth, c.toJson.IsExpressible depth := by
    cases hdocument with
    | object hfields => exact ⟨_, hfields _ List.mem_cons_self⟩
  obtain ⟨depth, hlisting⟩ := hlisting
  have hopen : AlwaysCutsInto "\x7b" [.openObject] := fun rest => all_cons rfl rest
  have hclose : AlwaysCutsInto "\x7d" [.closeObject] := fun rest => all_cons rfl rest
  have hfield := Json.cutsInto_field "tables" (Json.cutsInto_indentedAt hlisting 0)
  have hend : ∀ d ∈ "\x7d".toList.head?, extendsNumeral d = false :=
    fun d hd => Option.mem_some_iff.1 hd ▸ rfl
  have hcut := hopen.append (hfield.append hclose.cutsInto hend)
  have htext : "\x7b" ++ (Json.quote "tables" ++ ": " ++ Json.indentedAt 0 c.toJson ++ "\x7d")
      = "\x7b\"tables\": " ++ Format.json.catalog c ++ "\x7d" := by
    have hquote : Json.quote "tables" = "\"tables\"" := rfl
    rw [hquote, ← String.append_assoc, ← String.append_assoc, ← String.append_assoc]
    rfl
  have hlexemes : c.document.lexemes
      = .openObject :: (.text (.ok "tables") :: .colon :: c.toJson.lexemes ++ [.closeObject]) := by
    rw [document, Json.lexemes, Json.fieldsLexemes_eq_map, List.map_singleton,
      List.intercalate_singleton]
  rw [htext, List.singleton_append, ← hlexemes] at hcut
  exact ⟨c.document, .refl _, Json.Document.scan_of_cutsInto hdocument hcut⟩

/-- **The listing of a catalog is read as the catalog.** So is every text that holds it as the tables of
a document; and if the floats among the defaults are read from their texts, such texts are the listing as
it is written, between brackets, and the document written with its fields in any order. -/
theorem reloads (h : build tables = .ok c) :
    (∀ text, c.document.IsWrittenAs text → ofText text = .ok c) ∧
    ((∀ t ∈ tables, ∀ column ∈ t.columns, ∀ d ∈ column.default?, d.IsExact) →
      ofText ("\x7b\"tables\": " ++ Format.json.catalog c ++ "\x7d") = .ok c ∧
      ∀ k, c.document.Reorders k → ofText k.indented = .ok c) := by
  refine ⟨fun text htext => ofText_of_isWrittenAs h htext, fun hexact => ?_⟩
  have hdocument := isExpressible_document h hexact
  exact ⟨ofText_of_isWrittenAs h (document_isWrittenAs_listing hdocument),
    fun k hk => ofText_of_isWrittenAs h (hdocument.isWrittenAs hk)⟩

/-- The gauges of a plant. -/
def gauges : Table where
  name := "Gauge"
  columns := [{ name := "code", type := .string, isKey := true },
    { name := "factor", type := .float, default? := some (.value (.float 2.5e-7)) },
    { name := "note", type := .string, nullable := true, default? := some (.value .null) },
    { name := "read", type := .timestamp, default? := some .currentTimestamp }]
  unique := [⟨"gauge_note", ["note", "factor"]⟩]

/-- The document of the gauges with their fields in another order. -/
def gaugesDocument : Json :=
  let columns := Json.array (gauges.columns.map Column.toJson)
  let unique := Json.array (gauges.unique.map UniqueConstraint.toJson)
  .object [("tables", .array [
    .object [("unique", unique), ("name", .string "Gauge"), ("columns", columns)]])]

theorem reloads_gauges :
    let c : Catalog := ⟨[("Gauge", gauges)]⟩
    build [gauges] = .ok c ∧
      (∀ t ∈ [gauges], ∀ column ∈ t.columns, ∀ d ∈ column.default?, d.IsExact) ∧
      c.document.Reorders gaugesDocument ∧ c.document.IsWrittenAs gaugesDocument.indented ∧
      ofText gaugesDocument.indented = .ok c ∧
      ofText ("\x7b\"tables\": " ++ Format.json.catalog c ++ "\x7d") = .ok c := by
  intro c
  have hbuild : build [gauges] = .ok c := by rfl
  have hexact : ∀ t ∈ [gauges], ∀ column ∈ t.columns, ∀ d ∈ column.default?, d.IsExact := by
    have hfloat : Json.parse (Json.floatText 2.5e-7) = .ok (.float 2.5e-7) := by with_unfolding_all rfl
    simp [gauges, Default.IsExact, hfloat]
  have hreorders : c.document.Reorders gaugesDocument := by
    let name : String × Json := ("name", .string gauges.name)
    let columns : String × Json := ("columns", .array (gauges.columns.map Column.toJson))
    let unique : String × Json := ("unique", .array (gauges.unique.map UniqueConstraint.toJson))
    have htable : gauges.toJson.Reorders (.object [unique, name, columns]) :=
      .object rfl (Json.Reorders.forall₂_self _) (List.perm_append_singleton unique [name, columns]).symm
    let listing : String × Json := ("tables", .array [.object [unique, name, columns]])
    have hlisting : c.toJson.Reorders listing.2 := .array (.cons htable .nil)
    exact @Json.Reorders.object [("tables", c.toJson)] [listing] _ rfl (.cons hlisting .nil) (.refl _)
  have hwritten := (isExpressible_document hbuild hexact).isWrittenAs hreorders
  obtain ⟨hanyText, hwrites⟩ := reloads hbuild
  exact ⟨hbuild, hexact, hreorders, hwritten, hanyText _ hwritten, (hwrites hexact).1⟩

end Catalog

end Tabula
