/-!
# Texts

A text is the list of its characters, so that every scan is a recursion on a list. Texts are
trimmed by a class of characters, split at one character, joined, and compared by code point.
-/

namespace PatternBook

abbrev Text := List Char

namespace Text

/-! ## Trimming -/

def trimStart (p : Char → Bool) (s : Text) : Text := s.dropWhile p

def trimEnd (p : Char → Bool) (s : Text) : Text := (s.reverse.dropWhile p).reverse

def trim (p : Char → Bool) (s : Text) : Text := trimEnd p (trimStart p s)

/-! ## Splitting and joining -/

/-- The parts between the occurrences of a character. There is always one more part than there
are occurrences. -/
def splitAt (sep : Char) : Text → List Text
  | [] => [[]]
  | c :: s =>
    if c = sep then [] :: splitAt sep s
    else
      match splitAt sep s with
      | [] => [[c]]
      | part :: parts => (c :: part) :: parts

def join (sep : Text) (parts : List Text) : Text := sep.intercalate parts

def lines (s : Text) : List Text := splitAt '\n' s

def unlines (ls : List Text) : Text := join ['\n'] ls

/-- What stands before the first occurrence of a character, and, if it occurs, what stands
after it. -/
def cutAt (sep : Char) : Text → Text × Option Text
  | [] => ([], none)
  | c :: s =>
    if c = sep then ([], some s)
    else ((c :: (cutAt sep s).1), (cutAt sep s).2)

/-- What follows a given beginning. -/
def after? : Text → Text → Option Text
  | [], s => some s
  | _ :: _, [] => none
  | c :: start, d :: s => if c = d then after? start s else none

/-! ## Order -/

/-- Lexicographic order by code point. -/
def le : Text → Text → Bool
  | [], _ => true
  | _ :: _, [] => false
  | a :: s, b :: t => decide (a < b) || (a == b && le s t)

/-- The longest text that both begin with. -/
def commonStart : Text → Text → Text
  | a :: s, b :: t => if a = b then a :: commonStart s t else []
  | _, _ => []

def sort (ts : List Text) : List Text := ts.mergeSort le

end Text

end PatternBook
