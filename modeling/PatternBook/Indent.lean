import PatternBook.Text.Blank

/-!
# Common indentation

The indentation that all lines of a text share, blank lines apart, is taken off each of them. What
a list of texts begins with in common is what its least and its greatest text begin with in common.
A blank line that does not begin with the shared indentation loses all of its own.
-/

namespace PatternBook.Indent

def ofLine (line : Text) : Text := line.takeWhile Text.isIndent

def indents (ls : List Text) : List Text :=
  (ls.filter fun line => !Text.isBlankText line).map ofLine

def least (t : Text) (ts : List Text) : Text :=
  ts.foldl (fun m x => if Text.le m x then m else x) t

def greatest (t : Text) (ts : List Text) : Text :=
  ts.foldl (fun m x => if Text.le x m then m else x) t

/-- The indentation shared by the lines that are not blank, empty if there are none. -/
def shared (ls : List Text) : Text :=
  match indents ls with
  | [] => []
  | t :: ts => Text.commonStart (least t ts) (greatest t ts)

def dropShared (indent line : Text) : Text :=
  (Text.after? indent line).getD (line.dropWhile Text.isIndent)

def strip (s : Text) : Text :=
  let ls := Text.lines s
  let indent := shared ls
  if indent.isEmpty then s else Text.unlines (ls.map (dropShared indent))

end PatternBook.Indent
