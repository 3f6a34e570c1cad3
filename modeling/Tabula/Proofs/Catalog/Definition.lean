import Tabula.Proofs.Catalog.Consistent
import Tabula.Proofs.Sql.Schema

/-!
# Definitions of catalogs

The texts that create the tables and indexes of a catalog are read by the grammar of SQL, and what they
declare is compared with the catalog. A default is declared by a literal of the cell that the default is
stored as, or by the expression of the current time. Main statement: the texts of a catalog's definitions
declare its tables with their columns and its constraints, one text each, whatever the names and defaults
contain (`Catalog.definitions_declare`).
-/

namespace Tabula

open Decimal (Binary)
open Sql
open Store (Numeral)

/-! ## What declarations say -/

namespace Sql.Initial

/-- Whether an initial value is a literal of a cell. -/
inductive Denotes : Initial → Cell → Prop
  | null : Denotes .null .null
  | number {n : Numeral} {cell : Cell} (h : n.Denotes cell) : Denotes (.number n) cell
  | text (s : String) : Denotes (.text s) (.text s)

/-- The expression of the current time as a whole number. -/
def currentTime : Initial :=
  .expression [.word "CAST", .openBracket, .word "strftime", .openBracket, .text "%s", .comma,
    .text "now", .closeBracket, .word "AS", .word "INTEGER", .closeBracket]

/-- Whether an initial value is what a column defaults to. A literal is one of the cell that the value
is stored as, and of no other cell. -/
inductive Declares : Initial → Default → Prop
  | value {i : Initial} {v : Value} {cell : Cell} (hcell : Cell.ofValue? v = some cell)
      (h : ∀ c, i.Denotes c ↔ c = cell) : Declares i (.value v)
  | currentTimestamp : Declares currentTime .currentTimestamp

end Sql.Initial

/-- Whether a declaration is that of a column. A whole number that is the key may be null, for the store
assigns it. -/
structure Sql.ColumnDeclaration.Declares (d : ColumnDeclaration) (c : Column) : Prop where
  name : d.name = c.name
  type : d.type = c.type.sqlType
  isKey : d.isKey = c.isKey
  notNull : d.notNull = true ↔
    c.isKey = true ∧ c.type ≠ .int ∨ c.isKey = false ∧ c.nullable = false
  isUnique : d.isUnique = c.isUnique
  initial : Option.Rel Initial.Declares d.initial? c.default?

/-- Whether declarations are those of a table and of its constraints, each to be made only if its name
is free. -/
def Table.IsDeclaredBy (t : Table) (declarations : List Declaration) : Prop :=
  ∃ columns, List.Forall₂ ColumnDeclaration.Declares columns t.columns ∧
    declarations = .table true t.name columns
      :: t.unique.map fun u => .uniqueIndex true u.name t.name u.columns

/-! ## Reading defaults -/

/-- Whether a default is no float but a finite one. -/
def Default.isFinite : Default → Bool
  | .value (.float x) => x.isFinite
  | _ => true

namespace Sql.Initial

/-- A numeral that denotes what a value is stored as declares the value. -/
theorem declares_number {n : Numeral} {v : Value} {cell : Cell} (hcell : Cell.ofValue? v = some cell)
    (h : n.Denotes cell) : (number n).Declares (.value v) := by
  refine .value hcell fun c => ⟨?_, ?_⟩
  · rintro (_ | hc)
    exact hc.unique h
  · rintro rfl
    exact .number h

/-- A numeral is read from its text. -/
theorem isReadFrom_number {text : String} {n : Numeral} (hrun : isRun [.numeral] text = true)
    (h : Numeral.ofText? text = some n) : (number n).IsReadFrom [.number text] where
  isLegible := isLegible_cons hrun rfl
  read columns c := by
    show ((Numeral.ofText? text).map _).bind _ = _
    rw [h]
    rfl

end Sql.Initial

/-- What a column may default to is declared by the text of the default. -/
theorem Column.Takes.exists_initial {c : Column} {d : Default} (h : c.Takes d)
    (hfinite : d.isFinite = true) :
    ∃ i : Initial, i.Declares d ∧ i.IsReadFrom d.literal.tokens := by
  -- Bools are written as whole numbers, 0 and 1.
  have hint (k : Int64) {v : Value} (hv : Cell.ofValue? v = some (.int k)) :
      ∃ i : Initial, i.Declares (.value v) ∧ i.IsReadFrom [.number (toString k.toInt)] := by
    obtain ⟨n, hread, hdenotes, hrun⟩ := exists_numeral_int k
    exact ⟨.number n, Initial.declares_number hv hdenotes, Initial.isReadFrom_number hrun hread⟩
  cases h with
  | null =>
      refine ⟨.null, .value rfl fun cell => ⟨?_, ?_⟩, rfl, fun _ _ => rfl⟩
      · rintro ⟨⟩
        rfl
      · rintro rfl
        exact .null
  | bool _ b =>
      cases b with
      | false => exact hint 0 rfl
      | true => exact hint 1 rfl
  | int _ n => exact hint n rfl
  | float _ x =>
      have hfinite : x.isFinite = true := hfinite
      obtain ⟨n, hread, hdenotes, hrun⟩ := exists_numeral_float hfinite
      have hcell : Cell.ofValue? (.float x) = some (.real x) :=
        congrArg some (if_neg (ne_true_of_eq_false (Binary.isNaN_of_isFinite hfinite)))
      refine ⟨.number n, Initial.declares_number hcell hdenotes, ?_⟩
      rw [Default.literal, Literal.tokens, if_pos hfinite]
      exact Initial.isReadFrom_number hrun hread
  | string _ s =>
      refine ⟨.text s, .value rfl fun cell => ⟨?_, ?_⟩, rfl, fun _ _ => rfl⟩
      · rintro ⟨⟩
        rfl
      · rintro rfl
        exact .text s
  | currentTimestamp => exact ⟨.currentTime, .currentTimestamp, rfl, fun _ _ => rfl⟩

/-! ## Reading columns and tables -/

/-- The types of columns are words. -/
theorem ColumnType.isRun_sqlType (t : ColumnType) : isRun [.letters, .relation] t.sqlType = true := by
  cases t <;> decide

/-- The definition of a column is read as a declaration of it. -/
theorem Column.exists_declaration {c : Column} (htakes : ∀ d ∈ c.default?, c.Takes d)
    (hfinite : ∀ d ∈ c.default?, d.isFinite = true) :
    ∃ d : ColumnDeclaration, d.Declares c ∧ d.IsReadFrom c.definition.tokens := by
  obtain ⟨initial?, hdeclares, hread⟩ : ∃ initial?,
      Option.Rel Initial.Declares initial? c.default? ∧
      Option.Rel (fun (l : Literal) (i : Initial) => i.IsReadFrom l.tokens)
        (c.default?.map Default.literal) initial? := by
    cases hdefault : c.default? with
    | none => exact ⟨none, .none, .none⟩
    | some d =>
        obtain ⟨i, hi, hread⟩ := (htakes d hdefault).exists_initial (hfinite d hdefault)
        exact ⟨some i, .some hi, .some hread⟩
  refine ⟨_, ?_, ColumnDefinition.isReadFrom_tokens c.type.isRun_sqlType hread⟩
  exact
    { name := rfl
      type := rfl
      isKey := rfl
      notNull := by cases hkey : c.isKey <;> simp [Column.definition, hkey]
      isUnique := rfl
      initial := hdeclares }

/-- The definitions of a table are read as declarations of it. -/
theorem Table.IsWellFormed.exists_declarations {t : Table} (h : t.IsWellFormed)
    (hfinite : ∀ c ∈ t.columns, ∀ d ∈ c.default?, d.isFinite = true) :
    ∃ declarations, t.IsDeclaredBy declarations ∧
      t.definitions.map (fun d => readDeclaration d.text) = declarations.map some := by
  obtain ⟨columns, hcolumns⟩ := List.Forall₂.exists_of_forall fun c hc =>
    Column.exists_declaration (h.columns c hc).2 (hfinite c hc)
  refine ⟨_, ⟨columns, (hcolumns.imp fun _ _ hd => hd.1).flip, rfl⟩, ?_⟩
  have htable : readDeclaration (Definition.table t.name (t.columns.map Column.definition)).text
      = some (.table true t.name columns) := by
    refine readDeclaration_table (by simpa using h.columns_ne_nil) ?_
    exact List.forall₂_map_left_iff.2 (hcolumns.imp fun _ _ hd => hd.2)
  rw [Table.definitions, List.map_cons, List.map_cons, htable, List.map_map, List.map_map]
  refine congrArg _ (List.map_congr_left fun u hu => ?_)
  exact readDeclaration_index (h.unique u hu).1

/-! ## Reading catalogs -/

namespace Catalog

/-- **The texts of a catalog's definitions declare the catalog.** Each of them is read as one
declaration: for every table, in order, that of its name and of its columns, and then that of every
constraint of the table. -/
theorem definitions_declare {tables : List Table} {c : Catalog} (h : build tables = .ok c)
    (hfinite : ∀ t ∈ tables, ∀ column ∈ t.columns, ∀ d ∈ column.default?, d.isFinite = true) :
    ∃ rows, List.Forall₂ Table.IsDeclaredBy c.tables rows ∧
      (c.definitions.map Definition.text).map readDeclaration = rows.flatten.map some := by
  have hperm := tables_perm_of_build h
  have hwell := (build_eq_ok_iff_isConsistentSchema.1 h).1.isWellFormed
  obtain ⟨rows, hrows⟩ := List.Forall₂.exists_of_forall fun t ht =>
    (hwell t (hperm.mem_iff.1 ht)).exists_declarations (hfinite t (hperm.mem_iff.1 ht))
  refine ⟨rows, hrows.imp fun _ _ hrow => hrow.1, ?_⟩
  rw [List.map_map, definitions]
  clear hperm
  generalize c.tables = declared at hrows
  induction hrows with
  | nil => rfl
  | cons hrow _ ih =>
      rw [List.flatMap_cons, List.map_append, List.flatten_cons, List.map_append]
      exact congrArg₂ _ hrow.2 ih

/-- A table whose names and defaults are full of marks. -/
def quoted : Table where
  name := "The \"best\""
  columns := [{ name := "it's", type := .string, isKey := true },
    { name := "a\"b", type := .float, default? := some (.value (.float (-2.5e-7))) },
    { name := "c);", type := .string, isUnique := true,
      default? := some (.value (.string "'); --\"")) },
    { name := "low", type := .int, nullable := true,
      default? := some (.value (.int (-9223372036854775808))) },
    { name := "on", type := .bool, default? := some (.value (.bool true)) },
    { name := "at", type := .timestamp, default? := some .currentTimestamp }]
  unique := [⟨"by, \"name", ["c);", "a\"b"]⟩]

theorem definitions_declare_quoted :
    let c : Catalog := ⟨[(quoted.name, quoted)]⟩
    build [quoted] = .ok c ∧
      (∀ t ∈ [quoted], ∀ column ∈ t.columns, ∀ d ∈ column.default?, d.isFinite = true) ∧
      c.definitions.map Definition.text =
        ["CREATE TABLE IF NOT EXISTS \"The \"\"best\"\"\" (\"it's\" TEXT PRIMARY KEY NOT NULL, "
            ++ "\"a\"\"b\" REAL NOT NULL DEFAULT -2.5e-7, "
            ++ "\"c);\" TEXT NOT NULL UNIQUE DEFAULT '''); --\"', "
            ++ "\"low\" INTEGER DEFAULT -9223372036854775808, \"on\" BOOLEAN NOT NULL DEFAULT 1, "
            ++ "\"at\" INTEGER NOT NULL DEFAULT (CAST(strftime('%s', 'now') AS INTEGER)))",
          "CREATE UNIQUE INDEX IF NOT EXISTS \"by, \"\"name\" ON \"The \"\"best\"\"\" "
            ++ "(\"c);\", \"a\"\"b\")"] ∧
      ∃ rows, List.Forall₂ Table.IsDeclaredBy c.tables rows ∧
        (c.definitions.map Definition.text).map readDeclaration = rows.flatten.map some := by
  intro c
  have hbuild : build [quoted] = .ok c := by rfl
  have hfinite : ∀ t ∈ [quoted], ∀ column ∈ t.columns, ∀ d ∈ column.default?, d.isFinite = true := by
    decide +kernel
  exact ⟨hbuild, hfinite, by decide +kernel, definitions_declare hbuild hfinite⟩

end Catalog

end Tabula
