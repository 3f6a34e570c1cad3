import Tabula.Query.Comparison
import Tabula.Store.Cell

/-!
# Comparing cells

The truth value of each comparison method on cells. Equality and its negation are always decided;
the other methods are unknown when null takes part.
-/

namespace Tabula

/-! ## Patterns -/

namespace Pattern

/-- Whether two characters match; the case of ASCII letters does not count. -/
def sameLetter (a b : Char) : Bool :=
  a.toLower = b.toLower

/-- Which rests of a text match the empty pattern: only the empty one, which comes last. -/
def emptyRow (cs : List Char) : List Bool := cs.map (fun _ => false) ++ [true]

/-- Which rests of a text match a pattern with one more character in front, when it is known which
rests match without. -/
def extendRow (cs : List Char) (p : Char) (row : List Bool) : List Bool :=
  let last := p = '%' && row.getLastD false
  (cs.zip (row.zip row.tail)).foldr (fun (c, here, next) later =>
    (match p with
      | '%' => here || later.headD false
      | '_' => next
      | _ => sameLetter p c && next) :: later) [last]

/-- Whether characters match a pattern: `%` stands for any characters, `_` for one. -/
def admits (pattern cs : List Char) : Bool :=
  (pattern.foldr (extendRow cs) (emptyRow cs)).headD false

end Pattern

namespace Cell

/-- Whether a cell is like a pattern. -/
def isLike (c pattern : Cell) : Truth :=
  match c.characters?, pattern.characters? with
  | some cs, some ps => .ofBool (Pattern.admits ps cs)
  | _, _ => .unknown

/-- A question about the order of two cells. -/
def ordered (question : Ordering → Bool) (a b : Cell) : Truth :=
  if a.isNull || b.isNull then .unknown else .ofBool (question (a.compare b))

/-- Whether a cell is among others. It is among none of none, even if it is null. -/
def isAmong (c : Cell) (others : List Cell) : Truth :=
  if others.isEmpty then .false
  else if c.isNull then .unknown
  else if others.any c.same then .true
  else if others.any isNull then .unknown
  else .false

end Cell

namespace Comparison

/-- The truth value of a comparison of two cells. -/
def holdsOn : Comparison → Cell → Cell → Truth
  | eq, a, b => .ofBool (a.same b)
  | ne, a, b => (Truth.ofBool (a.same b)).not
  | like, a, b => a.isLike b
  | unlike, a, b => (a.isLike b).not
  | lt, a, b => Cell.ordered Ordering.isLT a b
  | le, a, b => Cell.ordered Ordering.isLE a b
  | gt, a, b => Cell.ordered Ordering.isGT a b
  | ge, a, b => Cell.ordered Ordering.isGE a b
  | member, a, b => a.isAmong [b]
  | notMember, a, b => (a.isAmong [b]).not

/-- The truth value of a comparison of a cell with several. -/
def holdsOnList : Comparison → Cell → List Cell → Truth
  | member, c, others => c.isAmong others
  | notMember, c, others => (c.isAmong others).not
  | method, c, others => others.foldr (fun other t => (method.holdsOn c other).and t) .true

/-- Whether a comparison looks at its operands' text only, so that affinity plays no part. -/
def isTextual : Comparison → Bool
  | like | unlike => true
  | _ => false

end Comparison

end Tabula
