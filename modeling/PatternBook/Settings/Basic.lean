import PatternBook.Text.Basic

/-!
# Settings

Whether a malformed parameter ends the reading, which metadata keys collect their values, and the
encoding of source files. The keys stand in increasing order.
-/

namespace PatternBook

structure Settings where
  strict : Bool := true
  accumulating : List Text := [['t', 'o', 'd', 'o']]
  encoding : Text := ['u', 't', 'f', '-', '8']
deriving DecidableEq

end PatternBook
