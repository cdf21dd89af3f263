import PatternBook.Text.Basic
import PatternBook.Text.Span

/-!
# Blank characters

The characters of the Unicode property White_Space, and the four information separators. The
zero-width space, the word joiner and the byte order mark are not blank.
-/

namespace PatternBook.Text

def blankSpans : List (Nat × Nat) :=
  [(0x9, 0xD), (0x1C, 0x20), (0x85, 0x85), (0xA0, 0xA0), (0x1680, 0x1680), (0x2000, 0x200A),
   (0x2028, 0x2029), (0x202F, 0x202F), (0x205F, 0x205F), (0x3000, 0x3000)]

def isBlank (c : Char) : Bool := inSpans blankSpans c.toNat

/-- The two characters that make up indentation. -/
def isIndent (c : Char) : Bool := c == ' ' || c == '\t'

/-- Without blanks at either end. -/
def strip (s : Text) : Text := trim isBlank s

def stripEnd (s : Text) : Text := trimEnd isBlank s

/-- Empty, or made of blanks only. -/
def isBlankText (s : Text) : Bool := s.all isBlank

end PatternBook.Text
