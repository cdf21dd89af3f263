import PatternBook.Text.Blank
import PatternBook.Text.Word

/-!
# Tags

A tag stands at the front of a text, after a run of decoration: blanks and stars. A word has to
begin or end right behind it. The longest run is tried first; a shorter one counts only where the
tag itself begins with decoration or is empty.
-/

namespace PatternBook.Tag

def isDecoration (c : Char) : Bool := Text.isBlank c || c == '*'

/-- What follows a tag at the very front, and the indentation behind it. `before` is the character
in front of the text. -/
def here? (tag : Text) (before : Option Char) (s : Text) : Option Text :=
  match Text.after? tag s with
  | none => none
  | some rest =>
    if Text.wordBoundary (tag.getLast?.or before) rest.head? then
      some (rest.dropWhile Text.isIndent)
    else none

def afterFrom? (tag : Text) (before : Option Char) : Text → Option Text
  | [] => here? tag before []
  | c :: s =>
    match if isDecoration c then afterFrom? tag (some c) s else none with
    | some rest => some rest
    | none => here? tag before (c :: s)

/-- What follows the decoration, the tag and its indentation. -/
def after? (tag s : Text) : Option Text := afterFrom? tag none s

/-- The text without its tag. An empty tag, or none, takes nothing away. -/
def strip (tag : Option Text) (s : Text) : Text :=
  match tag with
  | none => s
  | some tag => if tag.isEmpty then s else (after? tag s).getD s

end PatternBook.Tag
