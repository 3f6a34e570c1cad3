import Tabula.Store.Check

/-!
# Terms

The condition of a statement as the search for rows sees it: a conjunction of terms, of which some
tell where in a source to look. A comparison of two columns is a term for the source of either. A
disjunction of equalities of one column is also a term that the column is among some values. A
column that a term of its own makes equal to one value is settled; other terms that mention it do
not depend on its source.
-/

namespace Tabula.Store.Access

/-! ## Sets of sources -/

/-- A set of sources: the bit at position `n` tells whether source `n` is in it. -/
structure Sources where
  bits : Nat
  deriving DecidableEq, Repr

namespace Sources

/-- The set of no sources. -/
def none : Sources := ⟨0⟩

/-- The set of one source. -/
def one (n : Nat) : Sources := ⟨1 <<< n⟩

/-- The sources of either set. -/
def union (a b : Sources) : Sources := ⟨a.bits ||| b.bits⟩

/-- The sources of both sets. -/
def inter (a b : Sources) : Sources := ⟨a.bits &&& b.bits⟩

/-- The set of some sources. -/
def ofList (ns : List Nat) : Sources := ns.foldl (fun s n => s.union (one n)) none

/-- Whether a source is in a set. -/
def has (s : Sources) (n : Nat) : Bool := s.bits.testBit n

/-- Whether all sources of a set are in another. -/
def isWithin (a b : Sources) : Bool := a.inter b = a

/-- Whether two sets have a source in common. -/
def meets (a b : Sources) : Bool := (a.inter b).bits ≠ 0

/-- The sources of a set but one. -/
def remove (s : Sources) (n : Nat) : Sources := if s.has n then ⟨s.bits ^^^ (1 <<< n)⟩ else s

end Sources

/-! ## Comparisons as searches -/

/-- How a comparison narrows down where its column is looked for. -/
inductive Narrowing where
  /-- Equal to a value that is not null. -/
  | equal
  /-- Equal to a value or null with it. -/
  | same
  /-- One of so many values. -/
  | among (count : Nat)
  | below
  | atMost
  | above
  | atLeast
  deriving DecidableEq, Repr

namespace Narrowing

/-- Whether there is one value to look for. -/
def isEquality : Narrowing → Bool
  | equal | same => true
  | _ => false

/-- Whether there are values to look for. -/
def isLookup : Narrowing → Bool
  | equal | same | among _ => true
  | _ => false

/-- Whether the column has a lower bound. -/
def isLower : Narrowing → Bool
  | above | atLeast => true
  | _ => false

/-- Whether the column has an upper bound. -/
def isUpper : Narrowing → Bool
  | below | atMost => true
  | _ => false

/-- The narrowing of the other side of a comparison. -/
def swap : Narrowing → Narrowing
  | below => above
  | atMost => atLeast
  | above => below
  | atLeast => atMost
  | n => n

/-- The narrowing of a method. -/
def ofMethod? : Comparison → Option Narrowing
  | .eq => some same
  | .lt => some below
  | .le => some atMost
  | .gt => some above
  | .ge => some atLeast
  | _ => none

/-- The narrowing of a check. To be among one value is to be equal to it. -/
def ofCheck? : Check → Option Narrowing
  | .decided _ => none
  | .value _ method _ | .column _ method _ => ofMethod? method
  | .list _ .member [_] => some equal
  | .list _ .member cells => some (among cells.length)
  | .list _ _ _ => none

end Narrowing

/-! ## Atoms -/

/-- A check, with those of its columns that are settled by other terms. -/
structure Atom where
  check : Check
  settled : List Place := []
  deriving DecidableEq, Repr

/-- The places of a check that are not settled. -/
def Atom.free (a : Atom) : List Place :=
  a.check.places.filter fun p => !a.settled.contains p

/-- The column that a conjunct settles, if it does. -/
def settledBy? : Formula Check → Option Place
  | .atom (.list p .member [_]) => some p
  | _ => none

/-- The columns that conjuncts settle, each with the position of the last conjunct that does. -/
def settlements (conjuncts : List (Formula Check)) : List (Place × Nat) :=
  (conjuncts.zipIdx.filterMap fun (f, i) => (settledBy? f).map fun p => (p, i)).reverse

/-- Conjuncts with their settled columns marked; a column is free in the term that settles it. -/
def settle (conjuncts : List (Formula Check)) : List (Formula Atom) :=
  let settlements := settlements conjuncts
  conjuncts.zipIdx.map fun (f, i) => f.map fun check =>
    ⟨check, check.places.filter fun p => settlements.lookup p != some i &&
      (settlements.lookup p).isSome⟩

/-- Conjuncts with no column marked as settled. -/
def unsettled (conjuncts : List (Formula Check)) : List (Formula Atom) :=
  conjuncts.map fun f => f.map (⟨·, []⟩)

/-! ## Terms -/

/-- Where a term stands: the positions on the way to it, and whether it is the term that is written
there or derived from it. -/
structure Position where
  path : List Nat
  isDerived : Bool := false
  deriving DecidableEq, Repr

/-- How a term narrows down where a column is looked for. -/
structure Probe where
  column : Place
  narrowing : Narrowing
  /-- The column that has the value to look for, unless that is bound. -/
  key? : Option Place
  /-- Whether that column is settled. -/
  isKeySettled : Bool
  /-- The sources whose rows give the value. -/
  needs : Sources
  /-- Whether the two columns can stand for each other. -/
  isExchange : Bool := false
  deriving DecidableEq, Repr

/-- A term that is a comparison. -/
structure Leaf where
  position : Position
  check : Check
  /-- The sources that it depends on. -/
  depends : Sources
  probe? : Option Probe
  deriving DecidableEq, Repr

/-- A term: a comparison, or a disjunction with the terms of each branch. -/
inductive Term where
  | leaf (t : Leaf)
  | either (position : Position) (depends : Sources) (places : List Place)
      (branches : List (List Term))

namespace Probe

/-- Whether the column of a probe and a key of some affinity are compared as an index of some
affinity compares them. -/
def fits (p : Probe) (index : Affinity) : Bool :=
  match p.column.affinity, p.key?.map Place.affinity with
  | .text, some .text => true
  | .text, none => index = .text
  | _, _ => index ≠ .text

end Probe

/-- The sources of some places among those that are known. -/
def sourcesOf (known : Sources) (places : List Place) : Sources :=
  (Sources.ofList (places.map Place.source)).inter known

/-- Whether two columns that are equal can stand for each other in comparisons. -/
def exchangeable (a b : Place) : Bool :=
  a.affinity = b.affinity || (a.affinity.isNumeric && b.affinity.isNumeric)

/-- The probe of a comparison of `column` with `key`. -/
def probeOf (known : Sources) (a : Atom) (column : Place) (n : Narrowing) (key? : Option Place) :
    Probe where
  column := column
  narrowing := n
  key? := key?
  isKeySettled := key?.any fun key => !a.free.contains key
  needs := sourcesOf known (key?.toList.filter a.free.contains)

/-- The probes of an atom, the derived one second. A comparison of two columns has two when both
sources are known and the second column is not settled. -/
def probes (known : Sources) (a : Atom) : List Probe :=
  match Narrowing.ofCheck? a.check with
  | none => []
  | some n =>
    match a.check with
    | .column l _ r =>
      let turns := a.free.contains r && known.has r.source
      let straight := probeOf known a l n (some r)
      let turned := probeOf known a r n.swap (some l)
      let isExchange := n.isEquality && exchangeable l r
      match known.has l.source, turns with
      | true, true => [{ straight with isExchange }, { turned with isExchange }]
      | true, false => [straight]
      | false, true => [turned]
      | false, false => []
    | .value l _ _ | .list l _ _ =>
      if known.has l.source then [probeOf known a l n none] else []
    | .decided _ => []

/-- The leaves of an atom: its own, and the derived one. -/
def leavesOf (known : Sources) (path : List Nat) (a : Atom) : Leaf × Option Leaf :=
  let leaf (isDerived : Bool) (probe? : Option Probe) : Leaf :=
    ⟨⟨path, isDerived⟩, a.check, sourcesOf known a.free, probe?⟩
  match probes known a with
  | [] => (leaf false none, none)
  | [p] => (leaf false (some p), none)
  | p :: q :: _ => (leaf false (some p), some (leaf true (some q)))

/-- The column and the one value that a branch of a disjunction asks for, not counting null. -/
def valueOf? : Formula Atom → Option (Place × Cell)
  | .atom ⟨.list p .member [c], _⟩ => some (p, c)
  | _ => none

/-- The check that a column is among some values, if that is what a disjunction says. -/
def listOf? (branches : List (Formula Atom)) : Option Check := do
  let values ← branches.mapM valueOf?
  let (place, _) ← values.head?
  if values.all fun (p, _) => p = place then some (.list place .member (values.map (·.2))) else none

/-- The term that is derived from a formula. -/
def derivedOf (known : Sources) (path : List Nat) : Formula Atom → Option Leaf
  | .atom a => (leavesOf known path a).2
  | .any branches => do
    let check ← listOf? branches
    let (leaf, _) := leavesOf known path ⟨check, []⟩
    if leaf.probe?.isSome then some { leaf with position.isDerived := true } else none
  | .all _ => none

/-- The terms that are derived from formulas at the positions under a path, the last one first. -/
def derivedTerms (known : Sources) (path : List Nat) (parts : List (Formula Atom)) : List Term :=
  (parts.zipIdx.filterMap fun (f, i) => (derivedOf known (path ++ [i]) f).map Term.leaf).reverse

/-- The checks of some formulas, each with its settled columns. -/
def atomsOf (parts : List (Formula Atom)) : List Atom := parts.flatMap Formula.atoms

/-- The term that is a disjunction of formulas, of which the terms are given. -/
def eitherOf (known : Sources) (path : List Nat) (parts : List (Formula Atom))
    (branches : List (List Term)) : Term :=
  let atoms := atomsOf parts
  .either ⟨path, false⟩ (sourcesOf known (atoms.flatMap Atom.free))
    (atoms.flatMap (·.check.places)) branches

mutual

/-- The term of a part of a conjunction. -/
def termOf (known : Sources) (path : List Nat) : Formula Atom → Term
  | .atom a => .leaf (leavesOf known path a).1
  | .all parts => eitherOf known path parts [termsOf known path 0 parts]
  | .any parts => eitherOf known path parts (branchesOf known path 0 parts)

/-- The terms of the parts of a conjunction, the first of which has a number. -/
def termsOf (known : Sources) (path : List Nat) (first : Nat) : List (Formula Atom) → List Term
  | [] => []
  | part :: parts => termOf known (path ++ [first]) part :: termsOf known path (first + 1) parts

/-- The terms of a branch of a disjunction. -/
def branchOf (known : Sources) (path : List Nat) : Formula Atom → List Term
  | .atom a => [.leaf (leavesOf known path a).1]
  | .all parts => termsOf known path 0 parts ++ derivedTerms known path parts
  | .any parts => [eitherOf known path parts (branchesOf known path 0 parts)]

/-- The terms of each branch of a disjunction, the first of which has a number. -/
def branchesOf (known : Sources) (path : List Nat) (first : Nat) :
    List (Formula Atom) → List (List Term)
  | [] => []
  | part :: parts =>
    branchOf known (path ++ [first]) part :: branchesOf known path (first + 1) parts

end

namespace Term

/-- The comparison that a term is. -/
def leaf? : Term → Option Leaf
  | leaf t => some t
  | either _ _ _ _ => none

/-- Where a term stands. -/
def position : Term → Position
  | leaf t => t.position
  | either position _ _ _ => position

/-- The sources that a term depends on. -/
def depends : Term → Sources
  | leaf t => t.depends
  | either _ depends _ _ => depends

/-- The places that a term looks at. -/
def places : Term → List Place
  | leaf t => t.check.places
  | either _ _ places _ => places

/-- Whether a term asks for one value. -/
def isEquality : Term → Bool
  | leaf t => t.probe?.any fun p => p.narrowing.isEquality
  | either _ _ _ _ => false

/-- The sources in which one of some terms tells where to look. -/
def narrowed (terms : List Term) : Sources :=
  .ofList (terms.filterMap fun t => (t.leaf?.bind Leaf.probe?).map fun p => p.column.source)

end Term

/-! ## Clauses -/

/-- A conjunction of terms, with the comparisons that hold around it. -/
structure Clause where
  terms : List Term
  around : List Leaf := []

namespace Clause

/-- The clause of a conjunction. -/
def ofConjuncts (known : Sources) (parts : List (Formula Atom)) : Clause :=
  ⟨branchOf known [] (.all parts), []⟩

/-- The comparisons that hold in a clause, its own first. -/
def leaves (c : Clause) : List Leaf := c.terms.filterMap Term.leaf? ++ c.around

/-- The clause of a branch of one of the terms. -/
def branch (c : Clause) (terms : List Term) : Clause := ⟨terms, c.leaves⟩

/-- The terms that are not derived from others. -/
def base (c : Clause) : List Term := c.terms.filter fun t => !t.position.isDerived

/-- The most columns that are taken to be equal to each other. -/
def maxExchanges : Nat := 11

/-- Adds the column that a comparison shows to be equal to another. -/
def addExchange (column : Place) (found : List Place) (t : Leaf) : List Place :=
  match t.probe? with
  | some ⟨c, _, some key, false, _, true⟩ =>
    if c = column && found.length < maxExchanges && !found.contains key then found ++ [key]
    else found
  | _ => found

/-- Adds the columns that are equal to those found so far, from one position on. -/
def addExchanges (leaves : List Leaf) (position : Nat) (found : List Place) : Nat → List Place
  | 0 => found
  | steps + 1 =>
    match found[position]? with
    | none => found
    | some column =>
      addExchanges leaves (position + 1) (leaves.foldl (addExchange column) found) steps

/-- The columns that can stand for a column, itself first. -/
def exchanges (leaves : List Leaf) (column : Place) : List Place :=
  addExchanges leaves 0 [column] maxExchanges

/-- Whether a comparison tells where to look for a column, of which `origin` is one that it can
stand for, in an index of some affinity. -/
def leads (accepts : Narrowing → Bool) (index : Option Affinity) (origin column : Place)
    (t : Leaf) : Bool :=
  t.probe?.any fun p =>
    p.column = column && accepts p.narrowing && index.all p.fits &&
      !(p.narrowing.isEquality && p.key? = some origin)

/-- The comparisons that tell where to look for a column, also by columns that can stand for it. -/
def seekers (c : Clause) (accepts : Narrowing → Bool) (index : Option Affinity) (column : Place) :
    List Leaf :=
  (exchanges c.leaves column).flatMap fun other =>
    c.leaves.filter (leads accepts index column other)

end Clause

end Tabula.Store.Access
