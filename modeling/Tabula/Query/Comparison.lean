/-!
# Comparison methods

The ten ways in which a column can be compared, with their names in requests and their operators
in statements.
-/

namespace Tabula

/-- A comparison method. -/
inductive Comparison where
  | eq
  | ne
  | member
  | notMember
  | like
  | unlike
  | lt
  | le
  | gt
  | ge
  deriving DecidableEq, Repr

namespace Comparison

/-- All methods, in the order in which they are documented. -/
def all : List Comparison :=
  [eq, ne, member, notMember, like, unlike, lt, le, gt, ge]

/-- The name of a method in requests. -/
def name : Comparison → String
  | eq => "eq"
  | ne => "ne"
  | member => "in"
  | notMember => "not_in"
  | like => "like"
  | unlike => "unlike"
  | lt => "lt"
  | le => "le"
  | gt => "gt"
  | ge => "ge"

/-- The words of a method's operator in statements. Equality and its negation treat null as a
value like any other. -/
def operator : Comparison → List String
  | eq => ["IS"]
  | ne => ["IS", "NOT"]
  | member => ["IN"]
  | notMember => ["NOT", "IN"]
  | like => ["LIKE"]
  | unlike => ["NOT", "LIKE"]
  | lt => ["<"]
  | le => ["<="]
  | gt => [">"]
  | ge => [">="]

/-- Whether a method compares with a list of values. -/
def takesList : Comparison → Bool
  | member | notMember => true
  | _ => false

/-- The method of a name. -/
def ofName? (s : String) : Option Comparison :=
  all.find? fun c => c.name = s

@[simp] theorem ofName?_name (c : Comparison) : ofName? c.name = some c := by
  cases c <;> decide

theorem ofName?_eq_some_iff {s : String} {c : Comparison} : ofName? s = some c ↔ c.name = s := by
  constructor
  · intro h
    simpa using List.find?_some h
  · rintro rfl
    exact ofName?_name c

end Comparison

end Tabula
