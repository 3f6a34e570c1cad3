import Tabula.Text.Width

/-!
# Grids

A table of texts drawn with lines: a header over a double line, single lines between the rows, and
every column as wide as its widest line. A text with line breaks takes several lines.
-/

namespace Tabula

/-- A header and rows of texts. -/
structure Grid where
  header : List String
  rows : List (List String)

namespace Grid

/-- The lines of a text. -/
def lines (s : String) : List String := s.splitOn "\n"

/-- The width of a text's widest line. -/
def textWidth (s : String) : Nat :=
  (lines s).foldl (fun w line => max w (Text.width line)) 0

/-- The widths of the columns, each at least one. -/
def widths (g : Grid) : List Nat :=
  g.header.zipIdx.map fun (title, i) =>
    g.rows.foldl (fun w row => max w (textWidth (row[i]?.getD ""))) (max 1 (textWidth title))

/-- A horizontal line: `left`, a stretch of `fill` for each column with `cross` between, `right`. -/
def rule (left fill cross right : String) (widths : List Nat) : String :=
  let stretch (w : Nat) := String.join (List.replicate (w + 2) fill)
  left ++ cross.intercalate (widths.map stretch) ++ right

/-- A text filled up with blanks to a width. -/
def pad (w : Nat) (s : String) : String :=
  s ++ String.ofList (List.replicate (w - Text.width s) ' ')

/-- The lines that a row of texts takes. -/
def rowLines (widths : List Nat) (row : List String) : List String :=
  let texts := row.map lines
  let height := texts.foldl (fun h ls => max h ls.length) 1
  (List.range height).map fun i =>
    let cells := (widths.zip texts).map fun (w, ls) => " " ++ pad w (ls[i]?.getD "") ++ " "
    "|" ++ "|".intercalate cells ++ "|"

/-- The drawing of a grid. -/
def draw (g : Grid) : String :=
  let w := g.widths
  let edge := rule "+" "-" "+" "+" w
  let body := (g.rows.map (rowLines w)).intersperse [rule "|" "-" "+" "|" w]
  let all := [edge] ++ rowLines w g.header ++ [rule "+" "=" "=" "+" w] ++ body.flatten ++ [edge]
  "\n".intercalate all

end Grid

end Tabula
