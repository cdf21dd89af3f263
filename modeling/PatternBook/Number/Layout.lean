import PatternBook.Number.Shortest
import PatternBook.Text.Basic

/-!
# Number texts

Whole numbers are written in decimal, and in messages and keys only up to a limit. Floating-point
numbers are written with the fewest digits that read back: positionally from four places behind the
point to sixteen before it, else with an exponent of a sign and at least two digits. A positional
number always has a fraction.
-/

namespace PatternBook

namespace Text

def ofNat (n : Nat) : Text := Nat.toDigits 10 n

def ofInt : Int → Text
  | .ofNat n => ofNat n
  | .negSucc n => '-' :: ofNat (n + 1)

/-- The most digits that a number is written with in messages and keys. -/
def digitLimit : Nat := 4300

def ofInt? (n : Int) : Option Text :=
  if (ofNat n.natAbs).length ≤ digitLimit then some (ofInt n) else none

end Text

namespace Binary64

/-- `digits` with the point after the first `point` of them. -/
def positional (digits : Text) (point : Int) : Text :=
  if point ≤ 0 then ['0', '.'] ++ List.replicate (-point).toNat '0' ++ digits
  else
    let before := point.toNat
    if digits.length ≤ before then
      digits ++ List.replicate (before - digits.length) '0' ++ ['.', '0']
    else digits.take before ++ ['.'] ++ digits.drop before

def scientific (digits : Text) (exponent : Int) : Text :=
  let fraction := digits.drop 1
  let magnitude := Text.ofNat exponent.natAbs
  digits.take 1 ++ (if fraction.isEmpty then [] else '.' :: fraction)
    ++ ['e', if exponent < 0 then '-' else '+']
    ++ List.replicate (2 - magnitude.length) '0' ++ magnitude

def magnitudeText (mantissa : Nat) (exponent : Int) : Text :=
  if mantissa = 0 then ['0', '.', '0']
  else
    let (point, power) := shortest mantissa exponent
    let digits := Text.ofNat point
    let place : Int := digits.length + power
    if -4 < place && place ≤ 16 then positional digits place else scientific digits (place - 1)

def toText : Binary64 → Text
  | finite negative mantissa exponent =>
    (if negative then ['-'] else []) ++ magnitudeText mantissa exponent
  | infinite negative => (if negative then ['-'] else []) ++ ['i', 'n', 'f']
  | nan => ['n', 'a', 'n']

end Binary64

end PatternBook
