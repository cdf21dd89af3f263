/-!
# Spans of code points

A property of characters is a table of spans, both ends included and in increasing order. The
search stops at the first span that begins above the code point.
-/

namespace PatternBook.Text

def inSpans : List (Nat × Nat) → Nat → Bool
  | [], _ => false
  | (lo, hi) :: spans, n => decide (lo ≤ n) && (decide (n ≤ hi) || inSpans spans n)

end PatternBook.Text
