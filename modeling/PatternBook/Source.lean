import PatternBook.Block
import PatternBook.Comment

/-!
# Reading a source text
-/

namespace PatternBook.Source

def partialsOf (s : Settings) : List Text → Run ParseError (List Pattern)
  | [] => .done []
  | body :: bodies => do
    let ps ← Block.patterns s body
    let qs ← partialsOf s bodies
    return ps ++ qs

/-- The patterns of all comments, one for each name field. -/
def partials (s : Settings) (source : Text) : Run ParseError (List Pattern) :=
  partialsOf s (Comment.bodies source)

/-- The merged patterns of all comments. -/
def patterns (s : Settings) (source : Text) : Run ParseError (List Pattern) := do
  let ps ← partials s source
  return Pattern.merge ps

end PatternBook.Source
