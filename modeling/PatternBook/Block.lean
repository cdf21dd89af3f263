import PatternBook.Field.Reading
import PatternBook.Pattern
import PatternBook.Run
import PatternBook.Settings.Basic

/-!
# Reading a block

A name field opens a pattern; the fields after it are stored on the pattern opened last. Fields
before the first name, and all other lines, are stepped over.
-/

namespace PatternBook

inductive ParseError where
  | cursor (cause : CursorError)
  | parameter (cause : MalformedParameter)
deriving DecidableEq

def ParseError.message : ParseError → String
  | cursor cause => cause.message
  | parameter cause => cause.message

namespace Entry

/-- The pattern with the entry on it. A malformed parameter is an error if the settings are strict,
and left out with a notice if they are not. -/
def store (s : Settings) (p : Pattern) : Entry → Run ParseError Pattern
  | name value => .done { p with name := value }
  | description value => .done { p with description := value }
  | parameter declaration =>
    match Parameter.read (some p.name) declaration with
    | .ok q => .done (p.addParameter q)
    | .error cause =>
      if s.strict then .fail (.parameter cause) else .note (.skippedParameter cause) p
  | usage text blocks => .done (p.addExample ⟨text, blocks⟩)
  | metadata none => .note (.ignoredMetadata p.name) p
  | metadata (some (key, value)) =>
    .done (if s.accumulating.contains key then p.appendMeta key value else p.setMeta key value)
  | todo item => .done (if item.isEmpty then p else p.appendMeta ['t', 'o', 'd', 'o'] item)

end Entry

namespace Block

/-- Reads on with `current` as the pattern opened last. -/
def scan (s : Settings) (current : Option Pattern) (c : Cursor) : Run ParseError (List Pattern) :=
  match _hs : c.shift with
  | .error _ => .done current.toList
  | .ok (line, next) =>
    match Field.ofLine? line with
    | none => scan s current next
    | some f =>
      match if f.opensPattern then some {} else current with
      | none => do
        Run.note (.outsidePattern f) ()
        scan s none next
      | some p =>
        match _hr : f.read c with
        | .error cause => .fail (.cursor cause)
        | .ok (entry, rest) => do
          let p ← entry.store s p
          let ps ← scan s (some p) rest
          return (if f.opensPattern then current.toList else []) ++ ps
termination_by c.remaining
decreasing_by
  · have := Cursor.remaining_of_shift _hs; omega
  · have := Cursor.remaining_of_shift _hs; omega
  · exact Field.remaining_read _hs _hr

/-- One pattern for each name field of a block, in order. -/
def patterns (s : Settings) (body : Text) : Run ParseError (List Pattern) :=
  scan s none (Cursor.ofText body)

end Block

end PatternBook
