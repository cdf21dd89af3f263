import PatternBook.Number.Binary64
import PatternBook.Text.Basic

/-!
# JSON values

Members of an object stand in their order. A number without fraction and exponent is a whole
number of any size.
-/

namespace PatternBook

inductive Json where
  | null
  | bool (b : Bool)
  | int (n : Int)
  | float (x : Binary64)
  | text (s : Text)
  | array (items : List Json)
  | object (members : List (Text × Json))

namespace Json

def get? (key : Text) : Json → Option Json
  | object members => members.lookup key
  | _ => none

end Json

end PatternBook
