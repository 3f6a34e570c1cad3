import Tabula.Proofs.Json.Record
import Tabula.Proofs.Value
import Tabula.Request.Document

/-!
# Requests written and read back

What is read from a JSON value is regular: everything that is kept by key is in key order, and no
filter is null (`Request.isRegular_of_ofJson`). A regular request is what is read from its
arguments, in whatever order they are written (`Request.ofJson_of_perm`), and a change is read as a
command wherever it is read as a request (`Command.ofJson_eq_ok_iff_request`). So a request can be
passed on as JSON, whichever spellings, forms and defaults it was given with. Main statement:
`Request.reads_back_of_ofJson`.
-/

namespace Tabula

open Json (Decoder Fields)
open Json.Fields (OnlyGives Reads entries forall_mem_entries ofJson_record
  ofJson_record_array)

namespace Request

/-! ## Regular requests -/

/-- Whether a filter is one that is kept as it is: not null, and in key order. -/
def IsKept (filters : Option Json) : Prop :=
  ∀ filter, filters = some filter → filter ≠ .null ∧ filter.IsOrdered

/-- Whether everything in a request is as reading leaves it: rows, joins, and JSON in key order, and
no filter that is null. -/
def IsRegular : Request → Prop
  | create r => ∀ row ∈ r.rows, Assoc.IsOrdered row
  | read r => IsKept r.filters ∧ ∀ joins, r.joins = some joins → Assoc.IsOrdered joins
  | update r => Assoc.IsOrdered r.values ∧ IsKept r.filters
  | delete r => IsKept r.filters
  | batch commands => ∀ command ∈ commands, command.IsOrdered

/-- A row that is read has its columns in order. -/
theorem isOrdered_of_rowDecoder {j : Json} {row : RowValues} (h : rowDecoder.ofJson j = .ok row) :
    Assoc.IsOrdered row :=
  (Decoder.of_ofJson_assoc h).1

/-- A filter that is read, if there is one, is kept as it is. -/
theorem filtersField_onlyGives : filtersField.OnlyGives IsKept := by
  refine .optional (fun j filter hnull hread => ?_) nofun
  have hread := Decoder.ofJson_json_eq_ok_iff.1 hread
  intro kept heq
  obtain rfl := Option.some.inj heq
  refine ⟨?_, Json.Document.isOrdered_of_toJson hread⟩
  rintro rfl
  exact hnull (Json.Document.eq_null_of_toJson hread)

variable {j : Json}

/-- A create request that is read is regular. -/
theorem isRegular_of_createDecoder {r : CreateRequest} (h : createDecoder.ofJson j = .ok r) :
    (create r).IsRegular := by
  refine OnlyGives.record (Q := fun r => (create r).IsRegular) ?_ h
  refine .seq (Q := fun rows => ∀ row ∈ rows, Assoc.IsOrdered row)
    (.map .any fun table _ rows hrows => hrows) (.required fun item rows hread row hrow => ?_)
  obtain ⟨item, hitem⟩ := Decoder.exists_of_ofJson_list hread hrow
  exact isOrdered_of_rowDecoder hitem

/-- A read request that is read is regular. -/
theorem isRegular_of_readDecoder {r : ReadRequest} (h : readDecoder.ofJson j = .ok r) :
    (read r).IsRegular := by
  refine OnlyGives.record (Q := fun r => (read r).IsRegular) ?_ h
  have hjoins : OnlyGives (Fields.optional ⟨"joins", []⟩ (.assoc (.list (.list .string))))
      fun joins? => ∀ joins, joins? = some joins → Assoc.IsOrdered joins := by
    refine .optional (fun item joins _ hread => ?_) nofun
    intro kept heq
    obtain rfl := Option.some.inj heq
    exact (Decoder.of_ofJson_assoc hread).1
  refine .seq (.seq (.seq (.seq (.seq (.map .any ?_) .any)
    filtersField_onlyGives) hjoins) .any) .any
  intro table _ columns _ filters hfilters joins hjoins limit _ ordering _
  exact ⟨hfilters, hjoins⟩

/-- An update request that is read is regular. -/
theorem isRegular_of_updateDecoder {r : UpdateRequest} (h : updateDecoder.ofJson j = .ok r) :
    (update r).IsRegular := by
  refine OnlyGives.record (Q := fun r => (update r).IsRegular) ?_ h
  refine .seq (.seq (.map .any fun table _ values hvalues filters hfilters => ?_)
    (.required fun item row => isOrdered_of_rowDecoder)) filtersField_onlyGives
  exact ⟨hvalues, hfilters⟩

/-- A delete request that is read is regular. -/
theorem isRegular_of_deleteDecoder {r : DeleteRequest} (h : deleteDecoder.ofJson j = .ok r) :
    (delete r).IsRegular := by
  refine OnlyGives.record (Q := fun r => (delete r).IsRegular) ?_ h
  exact .seq (.map .any fun table _ filters hfilters => hfilters) filtersField_onlyGives

/-- A batch that is read is regular. -/
theorem isRegular_of_batchDecoder {commands : List Json}
    (h : batchDecoder.ofJson j = .ok commands) : (batch commands).IsRegular := by
  refine OnlyGives.record (Q := fun commands => (batch commands).IsRegular) ?_ h
  refine .map (.required fun items commands hread command hcommand => ?_) fun commands hcommands =>
    hcommands
  obtain ⟨item, hitem⟩ := Decoder.exists_of_ofJson_list hread hcommand
  exact Json.Document.isOrdered_of_toJson (Decoder.ofJson_json_eq_ok_iff.1 hitem)

/-! ## Reading what is written -/

/-- A row whose columns are in order is read as it was written. -/
theorem ofJson_rowDecoder {row : RowValues} (h : Assoc.IsOrdered row) :
    rowDecoder.ofJson (rowToJson row) = .ok row :=
  Decoder.ofJson_assoc Value.toJson h fun entry _ => Value.ofJson_decoder entry.2

/-- A direction is read as it was written. -/
theorem ofJson_directionDecoder (d : Sql.Direction) :
    directionDecoder.ofJson (directionToJson d) = .ok d := by
  cases d with
  | ascending => exact Decoder.ofJson_variant (by
      simp [Decoder.chosen, Json.Name.mem_spellings, Json.Name.IsSpelled])
  | descending => exact Decoder.ofJson_variant (by
      simp [Decoder.chosen, Json.Name.mem_spellings, Json.Name.IsSpelled])

/-- The name of a table is read as it was written. -/
theorem tableField_reads (table : String) : tableField.Reads [some (.string table)] table :=
  .required (Decoder.ofJson_string table)

/-- A filter that is kept is read as it was written. -/
theorem filtersField_reads {filters : Option Json} (h : IsKept filters) :
    filtersField.Reads [filters] filters := by
  have hreads : filtersField.Reads [filters.map id] filters := .optional id fun filter heq =>
    ⟨(h filter heq).1, Decoder.ofJson_json (h filter heq).2⟩
  rwa [Option.map_id_apply] at hreads

/-- A list of names is read as it was written. -/
theorem ofJson_stringsDecoder (names : List String) :
    (Decoder.list .string).ofJson (.array (names.map .string)) = .ok names :=
  Decoder.ofJson_list fun name _ => Decoder.ofJson_string name

theorem fieldIfSome_eq_toList (name : String) (cell : Option Json) :
    fieldIfSome name cell = (cell.map fun j => (name, j)).toList := by
  cases cell <;> rfl

/-- The fields of a create request, by name. -/
theorem createToJson_eq (r : CreateRequest) :
    createToJson r = .object (entries ["tablename", "rows"]
      [some (.string r.table), some (.array (r.rows.map rowToJson))]) :=
  rfl

/-- The fields of an update request, by name; the filter may be missing. -/
theorem updateToJson_eq (r : UpdateRequest) :
    updateToJson r = .object (entries ["tablename", "values", "filters"]
      [some (.string r.table), some (rowToJson r.values), r.filters]) := by
  simp [updateToJson, entries, fieldIfSome_eq_toList]

/-- The fields of a delete request, by name; the filter may be missing. -/
theorem deleteToJson_eq (r : DeleteRequest) :
    deleteToJson r = .object (entries ["tablename", "filters"]
      [some (.string r.table), r.filters]) := by
  simp [deleteToJson, entries, fieldIfSome_eq_toList]

/-- The fields of a read request, by name; all but the first two may be missing. -/
theorem readToJson_eq (r : ReadRequest) :
    readToJson r = .object (entries
      ["tablename", "columns", "filters", "joins", "limit", "ordering"]
      [some (.string r.table), some (.array (r.columns.map .string)), r.filters,
        r.joins.map joinsToJson, r.limit.map fun n : Nat => .int n,
        r.ordering.map orderingToJson]) := by
  obtain ⟨table, columns, filters, joins, limit, ordering⟩ := r
  cases limit <;> simp [readToJson, entries, fieldIfSome_eq_toList]

variable {fields written : List (String × Json)}

/-- A regular create request is read from its fields in any order. -/
theorem ofJson_createDecoder {r : CreateRequest} (h : (create r).IsRegular)
    (hfields : createToJson r = .object fields) (hwritten : written.Perm fields) :
    createDecoder.ofJson (.object written) = .ok r := by
  rw [createToJson_eq] at hfields
  obtain rfl := Json.object.inj hfields
  have hrows := Decoder.ofJson_list fun row hrow => ofJson_rowDecoder (h row hrow)
  exact ofJson_record (by decide) (by decide)
    (((tableField_reads r.table).map _).seq (.required hrows)) hwritten

/-- A regular read request is read from its fields in any order. -/
theorem ofJson_readDecoder {r : ReadRequest} (h : (read r).IsRegular)
    (hfields : readToJson r = .object fields) (hwritten : written.Perm fields) :
    readDecoder.ofJson (.object written) = .ok r := by
  rw [readToJson_eq] at hfields
  obtain rfl := Json.object.inj hfields
  obtain ⟨hfilters, hjoins⟩ := h
  have hchains (joins : JoinSpec) (heq : r.joins = some joins) :
      (Decoder.assoc (.list (.list .string))).ofJson (joinsToJson joins) = .ok joins :=
    Decoder.ofJson_assoc (fun chain => .array (chain.map fun parts => .array (parts.map .string)))
      (hjoins joins heq) fun entry _ =>
        Decoder.ofJson_list fun parts _ => ofJson_stringsDecoder parts
  have hterms (terms : List (String × Sql.Direction)) :
      (Decoder.list (.pair .string directionDecoder)).ofJson (orderingToJson terms) = .ok terms :=
    Decoder.ofJson_list fun term _ =>
      Decoder.ofJson_pair (Decoder.ofJson_string term.1) (ofJson_directionDecoder term.2)
  exact ofJson_record (by decide) (by decide)
    ((((((Reads.map _ (.required (Decoder.ofJson_string r.table))).seq
      (.orElse (ofJson_stringsDecoder r.columns))).seq
      (filtersField_reads hfilters)).seq
      (.optional joinsToJson fun joins heq => ⟨nofun, hchains joins heq⟩)).seq
      (.optional (fun n : Nat => .int n) fun limit _ => ⟨nofun, Decoder.ofJson_natural limit⟩)).seq
      (.optional orderingToJson fun terms _ => ⟨nofun, hterms terms⟩))
    hwritten

/-- A regular update request is read from its fields in any order. -/
theorem ofJson_updateDecoder {r : UpdateRequest} (h : (update r).IsRegular)
    (hfields : updateToJson r = .object fields) (hwritten : written.Perm fields) :
    updateDecoder.ofJson (.object written) = .ok r := by
  rw [updateToJson_eq] at hfields
  obtain rfl := Json.object.inj hfields
  obtain ⟨hvalues, hfilters⟩ := h
  exact ofJson_record (by decide) (by decide)
    ((((tableField_reads r.table).map _).seq
      (.required (ofJson_rowDecoder hvalues))).seq
      (filtersField_reads hfilters))
    hwritten

/-- A regular delete request is read from its fields in any order. -/
theorem ofJson_deleteDecoder {r : DeleteRequest} (h : (delete r).IsRegular)
    (hfields : deleteToJson r = .object fields) (hwritten : written.Perm fields) :
    deleteDecoder.ofJson (.object written) = .ok r := by
  rw [deleteToJson_eq] at hfields
  obtain rfl := Json.object.inj hfields
  exact ofJson_record (by decide) (by decide)
    (((tableField_reads r.table).map _).seq (filtersField_reads h)) hwritten

/-! ## Written arguments -/

/-- A row is written with its columns in order. -/
theorem isOrdered_rowToJson {row : RowValues} (h : Assoc.IsOrdered row) :
    (rowToJson row).IsOrdered := by
  refine .object (h.map Value.toJson) fun field hfield => ?_
  obtain ⟨entry, -, rfl⟩ := List.mem_map.1 hfield
  exact Value.isOrdered_toJson entry.2

theorem isOrdered_strings (names : List String) : (Json.array (names.map .string)).IsOrdered := by
  refine .array fun item hitem => ?_
  obtain ⟨name, -, rfl⟩ := List.mem_map.1 hitem
  exact .string name

/-- Joins are written with their aliases in order. -/
theorem isOrdered_joinsToJson {joins : JoinSpec} (h : Assoc.IsOrdered joins) :
    (joinsToJson joins).IsOrdered := by
  refine .object (h.map fun chain => Json.array (chain.map fun parts => .array (parts.map .string)))
    fun field hfield => ?_
  obtain ⟨entry, -, rfl⟩ := List.mem_map.1 hfield
  refine .array fun item hitem => ?_
  obtain ⟨parts, -, rfl⟩ := List.mem_map.1 hitem
  exact isOrdered_strings parts

theorem isOrdered_orderingToJson (terms : List (String × Sql.Direction)) :
    (orderingToJson terms).IsOrdered := by
  refine .array fun item hitem => ?_
  obtain ⟨⟨reference, d⟩, -, rfl⟩ := List.mem_map.1 hitem
  refine .array (List.forall_mem_cons.2 ⟨.string reference, List.forall_mem_singleton.2 ?_⟩)
  cases d with
  | ascending => exact .string "asc"
  | descending => exact .string "desc"

/-- A regular request's arguments are written under distinct keys, their values in key order. -/
theorem exists_entries_of_argumentsToJson {r : Request} (h : r.IsRegular)
    (hfields : r.argumentsToJson? = some (.object fields)) :
    ∃ keys cells, entries keys cells = fields ∧ keys.Nodup ∧
      ∀ cell ∈ cells, ∀ j, cell = some j → j.IsOrdered := by
  -- A batch has no arguments of this kind; each of the others names its own keys.
  cases r with
  | create r =>
      rw [argumentsToJson?, createToJson_eq] at hfields
      refine ⟨_, _, Json.object.inj (Option.some.inj hfields), by decide, ?_⟩
      simp only [List.forall_mem_cons, Option.some.injEq, forall_eq']
      refine ⟨.string r.table, .array fun item hitem => ?_, nofun⟩
      obtain ⟨row, hrow, rfl⟩ := List.mem_map.1 hitem
      exact isOrdered_rowToJson (h row hrow)
  | read r =>
      rw [argumentsToJson?, readToJson_eq] at hfields
      refine ⟨_, _, Json.object.inj (Option.some.inj hfields), by decide, ?_⟩
      simp only [List.forall_mem_cons, Option.some.injEq, forall_eq', Option.map_eq_some_iff,
        forall_exists_index, and_imp, forall_apply_eq_imp_iff₂]
      exact ⟨.string r.table, isOrdered_strings r.columns,
        fun filter hfilter => (h.1 filter hfilter).2,
        fun joins hjoins => isOrdered_joinsToJson (h.2 joins hjoins), fun n _ => .int n,
        fun terms _ => isOrdered_orderingToJson terms, nofun⟩
  | update r =>
      rw [argumentsToJson?, updateToJson_eq] at hfields
      refine ⟨_, _, Json.object.inj (Option.some.inj hfields), by decide, ?_⟩
      simp only [List.forall_mem_cons, Option.some.injEq, forall_eq']
      exact ⟨.string r.table, isOrdered_rowToJson h.1, fun filter hfilter => (h.2 filter hfilter).2,
        nofun⟩
  | delete r =>
      rw [argumentsToJson?, deleteToJson_eq] at hfields
      refine ⟨_, _, Json.object.inj (Option.some.inj hfields), by decide, ?_⟩
      simp only [List.forall_mem_cons, Option.some.injEq, forall_eq']
      exact ⟨.string r.table, fun filter hfilter => (h filter hfilter).2, nofun⟩
  | batch commands => cases hfields

/-! ## Envelopes -/

/-- An envelope as JSON. -/
def Envelope.toJson (e : Envelope) : Json :=
  .object [("cmd", .string e.command), ("kwargs", e.arguments)]

/-- Whether an envelope's arguments are those of a request. -/
def Envelope.Holds (e : Envelope) : Request → Prop
  | create r => createDecoder.ofJson e.arguments = .ok r
  | read r => readDecoder.ofJson e.arguments = .ok r
  | update r => updateDecoder.ofJson e.arguments = .ok r
  | delete r => deleteDecoder.ofJson e.arguments = .ok r
  | batch commands => batchDecoder.ofJson e.arguments = .ok commands

variable {raw : Json} {r : Request} {e : Envelope}

/-- The arguments of an envelope are decoded as they would be alone. -/
theorem Envelope.decode_eq_ok_iff {α : Type} {d : Decoder α} {a : α} :
    e.decode d = .ok a ↔ d.ofJson e.arguments = .ok a :=
  Except.mapError_eq_ok_iff

/-- What is read is what an envelope with its name holds. -/
theorem ofJson_eq_ok_iff :
    ofJson raw = .ok r ↔ ∃ e, Envelope.ofJson raw = .ok e ∧ e.command = r.name ∧ e.Holds r := by
  constructor
  · intro h
    obtain ⟨e, he, h⟩ := Except.bind_eq_ok_iff.1 h
    refine ⟨e, he, ?_⟩
    split at h
    case h_6 => cases h
    all_goals
      obtain ⟨arguments, hread, rfl⟩ := Except.map_eq_ok_iff.1 h
      exact ⟨‹_›, Envelope.decode_eq_ok_iff.1 hread⟩
  · rintro ⟨e, he, hcommand, hholds⟩
    refine Except.bind_eq_ok_iff.2 ⟨e, he, ?_⟩
    rw [hcommand]
    cases r with
    | create | read | update | delete | batch =>
      exact Except.map_eq_ok_iff.2 ⟨_, Envelope.decode_eq_ok_iff.2 hholds, rfl⟩

/-- Whatever is read from a JSON value is regular. -/
theorem isRegular_of_ofJson (h : ofJson raw = .ok r) : r.IsRegular := by
  obtain ⟨e, -, -, hholds⟩ := ofJson_eq_ok_iff.1 h
  cases r with
  | create => exact isRegular_of_createDecoder hholds
  | read => exact isRegular_of_readDecoder hholds
  | update => exact isRegular_of_updateDecoder hholds
  | delete => exact isRegular_of_deleteDecoder hholds
  | batch => exact isRegular_of_batchDecoder hholds

/-- An envelope is read from its own form, its arguments in the order of their names. -/
theorem Envelope.ofJson_toJson {command : String} (h : ∀ field ∈ written, field.2.IsOrdered) :
    ofJson (toJson ⟨command, .object written⟩)
      = .ok ⟨command, .object (Assoc.ofList written)⟩ := by
  have harguments : Decoder.json.ofJson (.object written) = .ok (.object (Assoc.ofList written)) :=
    Decoder.ofJson_json_eq_ok_iff.2 (Json.Document.toJson_ofJson_object_of_forall
      fun field hfield => Json.Document.toJson_ofJson (h field hfield))
  have hentries : [("cmd", .string command), ("kwargs", .object written)]
      = entries ["cmd", "kwargs"] [some (.string command), some (.object written)] := rfl
  exact Except.mapError_eq_ok_iff.2 (ofJson_record (by decide) (by decide)
    ((Reads.map _ (.required (Decoder.ofJson_string command))).seq (.required harguments))
    (.of_eq hentries))

/-- An envelope holds the regular request whose arguments it has, in any order. -/
theorem Envelope.holds_of_perm (hregular : r.IsRegular)
    (hfields : r.argumentsToJson? = some (.object fields)) (hwritten : written.Perm fields)
    (command : String) : Holds ⟨command, .object written⟩ r := by
  cases r with
  | create => exact ofJson_createDecoder hregular (Option.some.inj hfields) hwritten
  | read => exact ofJson_readDecoder hregular (Option.some.inj hfields) hwritten
  | update => exact ofJson_updateDecoder hregular (Option.some.inj hfields) hwritten
  | delete => exact ofJson_deleteDecoder hregular (Option.some.inj hfields) hwritten
  | batch => cases hfields

/-- A regular request is read from its arguments, written in any order. -/
theorem ofJson_of_perm (hregular : r.IsRegular)
    (hfields : r.argumentsToJson? = some (.object fields)) (hwritten : written.Perm fields) :
    ofJson (Envelope.toJson ⟨r.name, .object written⟩) = .ok r := by
  obtain ⟨keys, cells, rfl, hkeys, hcells⟩ := exists_entries_of_argumentsToJson hregular hfields
  have hvalues : ∀ field ∈ written, field.2.IsOrdered := fun field hfield =>
    forall_mem_entries hcells field (hwritten.subset hfield)
  have hdistinct : (written.map (·.1)).Nodup :=
    (hwritten.map _).nodup_iff.2 (hkeys.sublist (Fields.keys_entries_sublist keys cells))
  have hread := (Assoc.ofList_perm hdistinct).trans hwritten
  exact ofJson_eq_ok_iff.2
    ⟨_, Envelope.ofJson_toJson hvalues, rfl, Envelope.holds_of_perm hregular hfields hread r.name⟩

end Request

namespace Command

open Request (Envelope)

variable {raw : Json}

theorem ofJson_eq_ok_iff {command : Command} :
    Command.ofJson raw = .ok command ↔
      ∃ e, Envelope.ofJson raw = .ok e ∧ e.command = command.name ∧ e.Holds command.toRequest := by
  constructor
  · intro h
    obtain ⟨e, he, h⟩ := Except.bind_eq_ok_iff.1 h
    refine ⟨e, he, ?_⟩
    split at h
    case h_4 | h_5 | h_6 => cases h
    all_goals
      obtain ⟨arguments, hread, rfl⟩ := Except.map_eq_ok_iff.1 h
      exact ⟨‹_›, Envelope.decode_eq_ok_iff.1 hread⟩
  · rintro ⟨e, he, hcommand, hholds⟩
    refine Except.bind_eq_ok_iff.2 ⟨e, he, ?_⟩
    rw [hcommand]
    cases command with
    | create | update | delete =>
      exact Except.map_eq_ok_iff.2 ⟨_, Envelope.decode_eq_ok_iff.2 hholds, rfl⟩

/-- A JSON value is read as a command if it is read as the command's request. -/
theorem ofJson_eq_ok_iff_request {command : Command} :
    Command.ofJson raw = .ok command ↔ Request.ofJson raw = .ok command.toRequest := by
  rw [ofJson_eq_ok_iff, Request.ofJson_eq_ok_iff]
  cases command <;> rfl

end Command

namespace Request

/-- Every request that is read, other than a batch, is read again from its own arguments, in
whatever order they are written; and if it asks for a change, both are read as the same command. -/
theorem reads_back_of_ofJson {raw : Json} {r : Request} (h : ofJson raw = .ok r)
    (hbatch : ∀ commands, r ≠ .batch commands) :
    ∃ fields, r.argumentsToJson? = some (.object fields) ∧
      ∀ written : List (String × Json), written.Perm fields →
        ofJson (Envelope.toJson ⟨r.name, .object written⟩) = .ok r ∧
        ∀ command : Command, command.toRequest = r →
          Command.ofJson raw = .ok command ∧
          Command.ofJson (Envelope.toJson ⟨r.name, .object written⟩) = .ok command := by
  obtain ⟨fields, hfields⟩ : ∃ fields, r.argumentsToJson? = some (.object fields) := by
    cases r with
    | create | read | update | delete => exact ⟨_, rfl⟩
    | batch commands => exact absurd rfl (hbatch commands)
  refine ⟨fields, hfields, fun written hwritten => ?_⟩
  have hback := ofJson_of_perm (isRegular_of_ofJson h) hfields hwritten
  refine ⟨hback, ?_⟩
  rintro command rfl
  exact ⟨Command.ofJson_eq_ok_iff_request.2 h, Command.ofJson_eq_ok_iff_request.2 hback⟩

/-! ## Spellings -/

/-- The rows of a create, with a list in one field. -/
def cueRows : Json :=
  .array [.object [("beat", .int 2), ("track", .array [.int 1, .null])]]

/-- A create whose arguments go by their older names. -/
def olderCreate : Json :=
  .object [("cmd", .string "create"), ("kwargs", .object [
    ("entity_type", .string "Cue"), ("list_of_values", cueRows)])]

/-- The request that it is. -/
def cueCreate : CreateRequest where
  table := "Cue"
  rows := [[("beat", .int 2), ("track", .list [.int 1, .null])]]

/-- A filter for the cues before a beat. -/
def beforeBeat (x : Float) : Json :=
  .object [("lt", .object [("beat", .float x)])]

/-- The filter of the example is kept. -/
theorem isKept_beforeBeat (x : Float) : IsKept (some (beforeBeat x)) := by
  intro filter heq
  obtain rfl := Option.some.inj heq
  refine ⟨nofun, .object (List.pairwise_singleton _ _) (List.forall_mem_singleton.2 ?_)⟩
  exact .object (List.pairwise_singleton _ _) (List.forall_mem_singleton.2 (.float x))

/-- A read whose arguments are an array, with one of them null and a direction in capitals. -/
def listedRead (x : Float) : Json :=
  .object [("cmd", .string "read"), ("kwargs", .array [
    .string "Cue", .array [.string "id"], beforeBeat x, .null, .int 5,
    .array [.array [.string "id", .string "DESC"]]])]

/-- The request that it is. -/
def cueRead (x : Float) : ReadRequest where
  table := "Cue"
  columns := ["id"]
  filters := some (beforeBeat x)
  limit := some 5
  ordering := some [("id", .descending)]

/-- The create request of the example is read from its older spelling. -/
theorem ofJson_olderCreate : ofJson olderCreate = .ok (.create cueCreate) := by
  have henvelope : Envelope.ofJson olderCreate = .ok ⟨"create", .object (entries
      ["entity_type", "list_of_values"] [some (.string "Cue"), some cueRows])⟩ := by
    with_unfolding_all rfl
  have hrows : (Decoder.list rowDecoder).ofJson cueRows = .ok cueCreate.rows := by rfl
  refine ofJson_eq_ok_iff.2 ⟨_, henvelope, rfl, ?_⟩
  exact ofJson_record (by decide) (by decide)
    (((tableField_reads "Cue").map CreateRequest.mk).seq (.required hrows)) (.refl _)

/-- The read request of the example is read from a list of name and arguments. -/
theorem ofJson_listedRead (x : Float) : ofJson (listedRead x) = .ok (.read (cueRead x)) := by
  have henvelope : Envelope.ofJson (listedRead x) = .ok ⟨"read", .array [
      .string "Cue", .array [.string "id"], beforeBeat x, .null, .int 5,
      .array [.array [.string "id", .string "DESC"]]]⟩ := by with_unfolding_all rfl
  have hcapitals : directionDecoder.ofJson (.string "DESC") = .ok .descending :=
    Decoder.ofJson_variant (by
      simp [Decoder.chosen, Json.Name.mem_spellings, Json.Name.IsSpelled])
  have hterm := Decoder.ofJson_pair (Decoder.ofJson_string "id") hcapitals
  have hordering : (Decoder.list (.pair .string directionDecoder)).ofJson
      (.array [.array [.string "id", .string "DESC"]]) = .ok [("id", .descending)] := by
    rw [Decoder.ofJson_list_array, List.mapM_cons, List.mapM_nil, hterm]
    rfl
  refine ofJson_eq_ok_iff.2 ⟨_, henvelope, rfl, ?_⟩
  exact ofJson_record_array (Nat.le_refl 6)
    ((((((Reads.map _ (.required (Decoder.ofJson_string "Cue"))).seq
      (.orElse (ofJson_stringsDecoder ["id"]))).seq
      (filtersField_reads (isKept_beforeBeat x))).seq
      (.found rfl)).seq
      (.optional_some Json.noConfusion (Decoder.ofJson_natural 5))).seq
      (.optional_some Json.noConfusion hordering))

/-- The arguments of both are written under their present names, in key order, and without what is
null. -/
theorem reads_back_of_ofJson_spelled :
    ofJson olderCreate = .ok (.create cueCreate) ∧
      (∀ commands, create cueCreate ≠ .batch commands) ∧
      Command.ofJson olderCreate = .ok (.create cueCreate) ∧
      ofJson (Envelope.toJson ⟨"create", .object [("rows", cueRows), ("tablename", .string "Cue")]⟩)
        = .ok (.create cueCreate) ∧
      Command.ofJson
          (Envelope.toJson ⟨"create", .object [("rows", cueRows), ("tablename", .string "Cue")]⟩)
        = .ok (.create cueCreate) ∧
      ofJson (listedRead (Float.ofBits 0x3FF8000000000000))
        = .ok (.read (cueRead (Float.ofBits 0x3FF8000000000000))) ∧
      (∀ commands, read (cueRead (Float.ofBits 0x3FF8000000000000)) ≠ .batch commands) ∧
      ofJson (Envelope.toJson ⟨"read", .object [
          ("columns", .array [.string "id"]),
          ("filters", beforeBeat (Float.ofBits 0x3FF8000000000000)),
          ("limit", .int 5),
          ("ordering", .array [.array [.string "id", .string "desc"]]),
          ("tablename", .string "Cue")]⟩)
        = .ok (.read (cueRead (Float.ofBits 0x3FF8000000000000))) := by
  have hread := ofJson_listedRead (Float.ofBits 0x3FF8000000000000)
  obtain ⟨createFields, hcreateFields, hcreateBack⟩ := reads_back_of_ofJson ofJson_olderCreate nofun
  obtain ⟨readFields, hreadFields, hreadBack⟩ := reads_back_of_ofJson hread nofun
  obtain rfl := Json.object.inj (Option.some.inj hcreateFields)
  obtain rfl := Json.object.inj (Option.some.inj hreadFields)
  obtain ⟨hback, hcommands⟩ := hcreateBack _ (.swap _ _ _)
  obtain ⟨hcommand, hcommandBack⟩ := hcommands (.create cueCreate) rfl
  exact ⟨ofJson_olderCreate, nofun, hcommand, hback, hcommandBack, hread, nofun,
    (hreadBack _ (List.perm_append_singleton _ _)).1⟩

end Request

end Tabula
