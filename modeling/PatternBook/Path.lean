import PatternBook.Text.Basic

/-!
# Paths

A path is a sequence of names below a root or below the working directory. Empty names and single
dots are left out, double dots stay.
-/

namespace PatternBook

structure Path where
  root : Text := []
  names : List Text
deriving DecidableEq

namespace Path

/-- Two slashes in front are a root of their own; one, or more than two, are the plain root. -/
def rootOf (s : Text) : Text :=
  match (s.takeWhile (· == '/')).length with
  | 0 => []
  | 2 => ['/', '/']
  | _ => ['/']

def ofText (s : Text) : Path :=
  { root := rootOf s
    names := (Text.splitAt '/' s).filter fun name => !name.isEmpty && name != ['.'] }

def toText (p : Path) : Text :=
  if p.root.isEmpty && p.names.isEmpty then ['.'] else p.root ++ Text.join ['/'] p.names

/-- The last name from its last dot on, unless that dot is first or last in it. -/
def suffix (p : Path) : Text :=
  let name := p.names.getLast?.getD []
  let ending := (name.reverse.takeWhile (· != '.')).reverse
  let stem := name.length - ending.length - 1
  if ending.isEmpty || ending.length == name.length || stem == 0 then [] else '.' :: ending

end Path

end PatternBook
