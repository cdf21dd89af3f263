import PatternBook.Field.Basic
import PatternBook.Indent

/-!
# Field values

A field holds the rest of its line, a key and a value, or all lines up to the next field. Those are
kept as they are, or folded: a paragraph is a run of lines that are not empty, joined by spaces, and
paragraphs are joined by line breaks.
-/

namespace PatternBook.Field

/-! ## One line -/

def isMargin (c : Char) : Bool := Text.isIndent c || c == '*'

/-- The line behind its tag. A line without the tag is taken without its margin. -/
def single (tag line : Text) : Text :=
  match Tag.after? tag line with
  | some rest => Text.strip rest
  | none => Text.strip (line.dropWhile isMargin)

/-- The text without a dash in front that stands alone: a blank follows it, or nothing. -/
def dropLoneDash (s : Text) : Text :=
  match s with
  | ['-'] => []
  | '-' :: c :: rest => if Text.isBlank c then rest.dropWhile Text.isBlank else s
  | _ => s

/-- A key, blanks and a value, with a dash between them or without. -/
def keyValue? (s : Text) : Option (Text × Text) :=
  let key := s.takeWhile fun c => !Text.isBlank c
  let rest := s.dropWhile fun c => !Text.isBlank c
  if key.isEmpty || rest.isEmpty then none
  else some (key, Text.strip (dropLoneDash (rest.dropWhile Text.isBlank)))

/-! ## Several lines -/

/-- The line without a star in front and one character of indentation behind it. The star of a
closing mark stays. -/
def dropMarker (line : Text) : Text :=
  match line.dropWhile Text.isIndent with
  | '*' :: '/' :: _ => line
  | '*' :: c :: rest => if Text.isIndent c then rest else c :: rest
  | ['*'] => []
  | _ => line

def flush (paragraph : List Text) : List Text :=
  if paragraph.isEmpty then [] else [Text.join [' '] paragraph]

def paragraphsFrom (paragraph : List Text) : List Text → List Text
  | [] => flush paragraph
  | part :: parts =>
    if part.isEmpty then flush paragraph ++ paragraphsFrom [] parts
    else paragraphsFrom (paragraph ++ [part]) parts

/-- The paragraphs of a list of parts; empty parts separate them. -/
def paragraphs (parts : List Text) : List Text := paragraphsFrom [] parts

def folded (tag : Option Text) (ls : List Text) : Text :=
  let text := Text.unlines (paragraphs (ls.map fun line => Text.strip (dropMarker line)))
  Text.strip (Indent.strip (Tag.strip tag text))

def verbatim (tag : Option Text) (ls : List Text) : Text :=
  let text := Text.unlines (ls.map fun line => Text.stripEnd (dropMarker line))
  Text.trim (· == '\n') (Indent.strip (Tag.strip tag text))

end PatternBook.Field
