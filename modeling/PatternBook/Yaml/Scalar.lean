import PatternBook.Datum.Basic
import PatternBook.Json.Reader

/-!
# Plain YAML scalars

A scalar without quotes is null, a truth value, a number or a text, by its form alone. Whole numbers
may have a sign, low lines between digits, and the base two, eight or sixteen; a number with a point
needs a sign in its exponent.
-/

namespace PatternBook.Yaml

def nullWords : List String := ["", "~", "null", "Null", "NULL"]

def trueWords : List String := ["yes", "Yes", "YES", "true", "True", "TRUE", "on", "On", "ON"]

def falseWords : List String := ["no", "No", "NO", "false", "False", "FALSE", "off", "Off", "OFF"]

def infinityWords : List String := [".inf", ".Inf", ".INF"]

def nanWords : List String := [".nan", ".NaN", ".NAN"]

def isWordOf (words : List String) (s : Text) : Bool := words.any fun w => w.toList == s

/-- The sign in front, if any, and the rest. -/
def splitSign : Text → Bool × Text
  | '-' :: s => (true, s)
  | '+' :: s => (false, s)
  | s => (false, s)

def digitOf? (base : Nat) (c : Char) : Option Nat :=
  (Json.hexValue? c).filter (· < base)

/-- The value of digits with low lines between them. -/
def digits? (base : Nat) : Nat → Text → Option Nat
  | n, [] => some n
  | n, c :: s =>
    if c = '_' then digits? base n s
    else
      match digitOf? base c with
      | some d => digits? base (n * base + d) s
      | none => none

def natural? : Text → Option Nat
  | '0' :: 'b' :: s => if s.isEmpty then none else digits? 2 0 s
  | '0' :: 'x' :: s => if s.isEmpty then none else digits? 16 0 s
  | '0' :: s => digits? 8 0 s
  | c :: s => if c = '_' then none else digits? 10 0 (c :: s)
  | [] => none

def whole? (s : Text) : Option Int :=
  let (negative, s) := splitSign s
  (natural? s).map fun n => if negative then -(n : Int) else n

/-- The exponent at the end of a number, zero if there is none. -/
def exponent? : Text → Option Int
  | [] => some 0
  | mark :: sign :: digits =>
    if (mark = 'e' || mark = 'E') && (sign = '+' || sign = '-') && !digits.isEmpty
        && digits.all Json.isDigit then
      let n : Int := Json.digitsValue digits
      some (if sign = '-' then -n else n)
    else none
  | _ => none

def isPlace (c : Char) : Bool := Json.isDigit c || c == '_'

def pointed (negative : Bool) (before after : Text) (exponent : Int) : Binary64 :=
  let places := after.filter Json.isDigit
  Binary64.ofDecimal negative (Json.digitsValue (before.filter Json.isDigit ++ places))
    (exponent - places.length)

/-- A number with a point. Without a digit before it there is no sign, and a digit follows. -/
def pointed? (s : Text) : Option Binary64 :=
  let (negative, t) := splitSign s
  let before := t.takeWhile isPlace
  match before, t.dropWhile isPlace with
  | c :: _, '.' :: rest =>
    if c = '_' then none
    else (exponent? (rest.dropWhile isPlace)).map (pointed negative before (rest.takeWhile isPlace))
  | [], _ =>
    match s with
    | '.' :: c :: rest =>
      if Json.isDigit c then
        (exponent? (rest.dropWhile isPlace)).map (pointed false [] (c :: rest.takeWhile isPlace))
      else none
    | _ => none
  | _, _ => none

def float? (s : Text) : Option Binary64 :=
  let (negative, t) := splitSign s
  if isWordOf infinityWords t then some (.infinite negative)
  else if isWordOf nanWords s then some .nan
  else pointed? s

def plainScalar (s : Text) : Scalar :=
  if isWordOf nullWords s then .null
  else if isWordOf trueWords s then .bool true
  else if isWordOf falseWords s then .bool false
  else
    match whole? s with
    | some n => .int n
    | none =>
      match float? s with
      | some x => .float x
      | none => .text s

end PatternBook.Yaml
