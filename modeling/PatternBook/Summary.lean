import PatternBook.Number.Layout
import PatternBook.Pattern

/-!
# Summary table

One row for each pattern. Every column is as wide as its widest cell, with a space on both sides;
the counts stand at the right.
-/

namespace PatternBook.Summary

inductive Side where
  | left
  | right

structure Column where
  title : Text
  side : Side

def columns : List Column :=
  [⟨"Pattern".toList, .left⟩, ⟨"Description".toList, .left⟩, ⟨"Params".toList, .right⟩,
   ⟨"Examples".toList, .right⟩, ⟨"Metadata".toList, .left⟩]

def row (p : Pattern) : List Text :=
  [p.name, (Text.cutAt '\n' p.description).1, Text.ofNat p.parameters.length,
   Text.ofNat p.examples.length, Text.join [',', ' '] (Text.sort p.metadata.keys)]

def pad (side : Side) (width : Nat) (cell : Text) : Text :=
  let gap := List.replicate (width - cell.length) ' '
  match side with
  | .left => cell ++ gap
  | .right => gap ++ cell

/-- The widths of the columns, no less than those of the titles. -/
def widths (rows : List (List Text)) : List Nat :=
  rows.foldl (fun ws cells => ws.zipWith (fun w cell => max w cell.length) cells)
    (columns.map (·.title.length))

structure Edge where
  left : Char
  fill : Char
  cross : Char
  right : Char

def top : Edge := ⟨'┏', '━', '┳', '┓'⟩

def middle : Edge := ⟨'┡', '━', '╇', '┩'⟩

def bottom : Edge := ⟨'└', '─', '┴', '┘'⟩

def edgeLine (e : Edge) (ws : List Nat) : Text :=
  [e.left] ++ Text.join [e.cross] (ws.map fun w => List.replicate (w + 2) e.fill) ++ [e.right]

def cellLine (bar : Char) (ws : List Nat) (cells : List Text) : Text :=
  let padded := (columns.zip (ws.zip cells)).map fun (column, width, cell) =>
    [' '] ++ pad column.side width cell ++ [' ']
  [bar] ++ Text.join [bar] padded ++ [bar]

def table (ps : List Pattern) : List Text :=
  let rows := ps.map row
  let ws := widths rows
  [edgeLine top ws, cellLine '┃' ws (columns.map (·.title)), edgeLine middle ws]
    ++ rows.map (cellLine '│' ws) ++ [edgeLine bottom ws]

def lines (ps : List Pattern) : List Text :=
  [[], "Pattern Documentation".toList, List.replicate 52 '━']
    ++ (if ps.isEmpty then ["No patterns found".toList]
        else table ps ++ [[], "Summary: ".toList ++ Text.ofNat ps.length ++ " patterns".toList])
    ++ [[]]

/-- Every line ends in a line break. -/
def render (ps : List Pattern) : Text := (lines ps).flatMap (· ++ ['\n'])

end PatternBook.Summary
