import CodeOutline.Console.Markup

/-!
# Tables and panels

Blocks of lines with lines drawn around them. A table gives each column the width of its widest cell;
a panel is a frame around lines, with a title in its upper edge.
-/

namespace CodeOutline.Console

open CodeOutline.Text

/-- Lines of characters. -/
abbrev Block := List (List Char)

namespace Block

/-- The number of cells that the widest line takes. -/
def width (b : Block) : Nat := (b.map Text.width).foldl max 0

end Block

/-- The line filled up with spaces to a width. -/
def padTo (w : Nat) (line : List Char) : List Char :=
  line ++ List.replicate (w - width line) ' '

/-- The line in the middle of a width. Of an odd number of free cells one more is on the right. -/
def centered (fill : Char) (w : Nat) (line : List Char) : List Char :=
  let free := w - width line
  List.replicate (free / 2) fill ++ line ++ List.replicate (free - free / 2) fill

/-- A row: each cell is a block. -/
abbrev Row := List Block

/-- The widths of the columns of rows. -/
def columnWidths : List Row → List Nat
  | [] => []
  | row :: rest => merge (row.map Block.width) (columnWidths rest)
where
  /-- The greater width of each column. -/
  merge : List Nat → List Nat → List Nat
    | a :: as, b :: bs => max a b :: merge as bs
    | as, [] => as
    | [], bs => bs

/-- The lines of a row, as cells filled up to the widths of their columns. -/
def rowLines (widths : List Nat) (row : Row) : List (List (List Char)) :=
  let height := (row.map List.length).foldl max 0
  (List.range height).map fun i =>
    (widths.zip row).map fun (w, cell) => padTo w (cell[i]?.getD [])

/-- Cells with a space on both sides, between marks. -/
def ruled (mark : Char) (cells : List (List Char)) : List Char :=
  mark :: cells.flatMap fun c => ' ' :: c ++ [' ', mark]

/-- The marks of a horizontal line: its left end, its body, its crossings and its right end. -/
structure Rule where
  left : Char
  body : Char
  crossing : Char
  right : Char

/-- A horizontal line over columns. -/
def Rule.line (r : Rule) (widths : List Nat) : List Char :=
  let parts := widths.map fun w => List.replicate (w + 2) r.body
  r.left :: [r.crossing].intercalate parts ++ [r.right]

/-- A table with drawn lines, a heavy one around the headings, and a title above. -/
def ruledTable (title : List Char) (headings : Row) (rows : List Row) : Block :=
  let widths := columnWidths (headings :: rows)
  let total := widths.foldl (fun n w => n + w + 3) 1
  centered ' ' total title ::
    (Rule.mk '┏' '━' '┳' '┓').line widths ::
    (rowLines widths headings).map (ruled '┃') ++
    (Rule.mk '┡' '━' '╇' '┩').line widths ::
    rows.flatMap (fun row => (rowLines widths row).map (ruled '│')) ++
    [(Rule.mk '└' '─' '┴' '┘').line widths]

/-- A table without lines; a space stands on both sides of each cell. -/
def plainTable (headings : Row) (rows : List Row) : Block :=
  let widths := columnWidths (headings :: rows)
  (headings :: rows).flatMap fun row =>
    (rowLines widths row).map fun cells => cells.flatMap fun c => ' ' :: c ++ [' ']

/-- Lines in a frame. -/
def panel (title : List Char) (content : Block) : Block :=
  let title := ' ' :: title ++ [' ']
  let inner := max (content.width + 2) (width title + 2)
  ('╭' :: '─' :: centered '─' (inner - 2) title ++ ['─', '╮']) ::
    content.map (fun line => '│' :: ' ' :: padTo (inner - 2) line ++ [' ', '│']) ++
    ['╰' :: List.replicate inner '─' ++ ['╯']]

end CodeOutline.Console
