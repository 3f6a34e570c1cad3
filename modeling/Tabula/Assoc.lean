/-!
# Associations in key order

Lists of keyed entries whose keys ascend by code point. Rows, filters, join declarations and JSON
objects are all kept in this form, so walking one visits its keys in ascending order, whatever
order they were given in. A key that is given again replaces the earlier entry.
-/

namespace Tabula

/-- Entries by key, the keys ascending. -/
abbrev Assoc (α : Type) := List (String × α)

namespace Assoc

variable {α β : Type}

/-- The entry of a key. -/
def find? (m : Assoc α) (key : String) : Option α :=
  (List.find? (fun entry => entry.1 = key) m).map (·.2)

/-- Sets the entry of a key. -/
def insert (m : Assoc α) (key : String) (value : α) : Assoc α :=
  match m with
  | [] => [(key, value)]
  | (k, v) :: rest =>
    if key < k then (key, value) :: (k, v) :: rest
    else if key = k then (key, value) :: rest
    else (k, v) :: insert rest key value

/-- Removes the entry of a key. -/
def erase (m : Assoc α) (key : String) : Assoc α :=
  m.filter fun entry => entry.1 ≠ key

/-- Entries in any order, the last one of each key kept. -/
def ofList (entries : List (String × α)) : Assoc α :=
  entries.foldl (fun m entry => insert m entry.1 entry.2) []

/-- The keys, ascending. -/
def keys (m : Assoc α) : List String :=
  m.map (·.1)

@[simp] theorem find?_nil (key : String) : find? ([] : Assoc α) key = none := rfl

@[simp] theorem keys_cons (entry : String × α) (m : Assoc α) :
    keys (entry :: m) = entry.1 :: keys m := rfl

/-- What was just set is found. -/
@[simp] theorem find?_insert_self (m : Assoc α) (key : String) (value : α) :
    find? (insert m key value) key = some value := by
  induction m with
  | nil => simp [insert, find?]
  | cons entry rest ih =>
    obtain ⟨k, v⟩ := entry
    by_cases hlt : key < k
    · simp [insert, find?, hlt]
    · by_cases heq : key = k
      · simp [insert, find?, heq]
      · have hne : ¬k = key := fun h => heq h.symm
        simpa [insert, find?, hlt, heq, hne] using ih

end Assoc

end Tabula
