import Tabula.Catalog.Basic

/-!
# The studio catalog

The catalog that is used when none is given: projects, sequences, shots, assets, tasks and
published outputs of an animation studio.
-/

namespace Tabula.Studio

/-- The whole number key of a table. -/
def key : Column := { name := "id", type := .int, isKey := true }

/-- A text column. -/
def text (name : String) : Column := { name, type := .string }

/-- A text column that may be null. -/
def optionalText (name : String) : Column := { name, type := .string, nullable := true }

/-- A whole number column. -/
def int (name : String) : Column := { name, type := .int }

/-- A whole number column that may be null. -/
def optionalInt (name : String) : Column := { name, type := .int, nullable := true }

/-- A truth value that is false unless set. -/
def flag (name : String) : Column :=
  { name, type := .bool, nullable := true, default? := some (.value (.bool false)) }

/-- A time that may be null. -/
def time (name : String) : Column := { name, type := .timestamp, nullable := true }

/-- A column that no two rows share. -/
def unique (c : Column) : Column := { c with isUnique := true }

/-- A column that is zero unless set. -/
def zeroed (c : Column) : Column := { c with default? := some (.value (.int 0)) }

/-- Published outputs. -/
def outputs : Table where
  name := "Output"
  columns := [
    key,
    text "env", text "project", text "pipeline", text "sequence", text "shot", text "department",
    text "task",
    text "datatype", optionalText "variant", int "version", text "format", text "pathtemplate",
    unique (text "relative_path"), optionalText "frame_range", optionalText "name",
    optionalText "lod", optionalText "instance",
    flag "is_approved", time "approved_at", optionalText "approved_by",
    flag "is_starred", time "starred_at", optionalText "starred_by",
    { name := "created_at", type := .timestamp, default? := some .currentTimestamp },
    text "created_by", zeroed (optionalInt "status"), time "status_at", optionalText "status_by"]
  unique := [⟨"unique_output",
    ["env", "project", "pipeline", "sequence", "shot", "task", "datatype", "variant", "version"]⟩]

/-- The tables of the studio. -/
def tables : List Table := [
  { name := "Project", columns := [key, unique (text "name")] },
  { name := "Sequence", columns := [key, text "name", int "project_id"],
    unique := [⟨"unique_sequence_name_project_id", ["name", "project_id"]⟩] },
  { name := "Shot",
    columns := [key, text "name", int "sequence_id", optionalInt "frame_start",
      optionalInt "frame_end"],
    unique := [⟨"unique_shot_name_sequence_id", ["name", "sequence_id"]⟩] },
  { name := "Asset", columns := [key, text "type", text "name", text "variant", int "project_id"],
    unique := [⟨"unique_asset_name_project_id", ["name", "variant", "project_id"]⟩] },
  { name := "AssetXShot", columns := [int "asset_id", int "shot_id"],
    unique := [⟨"asset_shot", ["asset_id", "shot_id"]⟩] },
  { name := "Task",
    columns := [key, text "entity_table", int "entity_id", text "name", zeroed (int "status"),
      optionalText "assignee", time "due_date"],
    unique := [⟨"unique_tasks", ["entity_table", "entity_id", "name"]⟩] },
  outputs]

/-- The studio catalog. -/
def catalog : Except Error Catalog := Catalog.build tables

end Tabula.Studio
