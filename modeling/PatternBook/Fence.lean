import PatternBook.Indent

/-!
# Fenced code

A line of three backticks opens a code block, with the name of its syntax behind them; the next
line that has nothing but three backticks closes it. A block that is not closed runs to the end.
-/

namespace PatternBook

structure CodeBlock where
  syntaxName : Option Text := none
  code : Text
deriving DecidableEq

namespace Fence

def marks : Text := ['\x60', '\x60', '\x60']

def afterMarks? (line : Text) : Option Text := Text.after? marks (line.dropWhile Text.isIndent)

def isSyntaxChar (c : Char) : Bool := !Text.isBlank c && c != '\x60'

/-- The syntax name, possibly empty, of a line that opens a block. -/
def opening? (line : Text) : Option Text := (afterMarks? line).map (·.takeWhile isSyntaxChar)

def closes (line : Text) : Bool := (afterMarks? line).any (·.all Text.isIndent)

def block (name : Text) (body : List Text) : CodeBlock :=
  { syntaxName := if name.isEmpty then none else some name
    code := Indent.strip (Text.unlines body) }

/-- The blocks of a list of lines. Inside a block, `inside` holds its syntax name and the lines
read so far. -/
def blocksFrom (inside : Option (Text × List Text)) : List Text → List CodeBlock
  | [] =>
    match inside with
    | none => []
    | some (name, body) => [block name body]
  | line :: ls =>
    match inside with
    | none => blocksFrom ((opening? line).map fun name => (name, [])) ls
    | some (name, body) =>
      if closes line then block name body :: blocksFrom none ls
      else blocksFrom (some (name, body ++ [line])) ls

def blocks (s : Text) : List CodeBlock := blocksFrom none (Text.lines s)

end Fence

end PatternBook
