import PatternBook.Assoc
import PatternBook.Json.Basic

/-!
# Reading JSON

Strict JSON, and the three names of numbers that are no decimals. A key given twice keeps its
first place and its last value. Each call of the reader spends one unit of fuel, and of two
nested calls one consumes a character, so twice the length of the text is fuel enough.
-/

namespace PatternBook.Json

def isSpace (c : Char) : Bool := c == ' ' || c == '\t' || c == '\n' || c == '\r'

def isDigit (c : Char) : Bool := decide ('0' ≤ c) && decide (c ≤ '9')

/-! ## Numbers -/

def digitsValue (ds : Text) : Nat := ds.foldl (fun n c => 10 * n + (c.toNat - 48)) 0

/-- The digits of a whole number: zero alone, or no zero in front. -/
def readWhole? (s : Text) : Option (Text × Text) :=
  match s with
  | '0' :: rest => some (['0'], rest)
  | _ =>
    let digits := s.takeWhile isDigit
    if digits.isEmpty then none else some (digits, s.dropWhile isDigit)

/-- A point and at least one digit. -/
def readFraction? : Text → Option (Text × Text)
  | '.' :: s =>
    let digits := s.takeWhile isDigit
    if digits.isEmpty then none else some (digits, s.dropWhile isDigit)
  | _ => none

/-- The mark, a sign or none, and at least one digit. -/
def readExponent? : Text → Option (Int × Text)
  | mark :: s =>
    if mark = 'e' || mark = 'E' then
      let (negative, s) := match s with
        | '-' :: s => (true, s)
        | '+' :: s => (false, s)
        | s => (false, s)
      let digits := s.takeWhile isDigit
      if digits.isEmpty then none
      else
        let n : Int := digitsValue digits
        some (if negative then -n else n, s.dropWhile isDigit)
    else none
  | [] => none

def readNumber? (s : Text) : Option (Json × Text) :=
  let (negative, s) := match s with
    | '-' :: s => (true, s)
    | s => (false, s)
  match readWhole? s with
  | none => none
  | some (whole, s) =>
    let fraction := readFraction? s
    let s := (fraction.map Prod.snd).getD s
    let exponent := readExponent? s
    let s := (exponent.map Prod.snd).getD s
    if fraction.isNone && exponent.isNone then
      let n : Int := digitsValue whole
      some (int (if negative then -n else n), s)
    else
      let places := (fraction.map Prod.fst).getD []
      let power := (exponent.map Prod.fst).getD 0
      some (float (Binary64.ofDecimal negative (digitsValue (whole ++ places))
        (power - places.length)), s)

/-! ## Strings -/

def hexValue? (c : Char) : Option Nat :=
  if '0' ≤ c && c ≤ '9' then some (c.toNat - 48)
  else if 'a' ≤ c && c ≤ 'f' then some (c.toNat - 87)
  else if 'A' ≤ c && c ≤ 'F' then some (c.toNat - 55)
  else none

def shortEscape? (c : Char) : Option Nat :=
  if c = '"' || c = '\\' || c = '/' then some c.toNat
  else if c = 'b' then some 8
  else if c = 'f' then some 12
  else if c = 'n' then some 10
  else if c = 'r' then some 13
  else if c = 't' then some 9
  else none

/-- The code points and escaped code units of a string up to its closing mark. -/
def readUnits? : Text → Option (List Nat × Text)
  | [] => none
  | '"' :: s => some ([], s)
  | '\\' :: 'u' :: a :: b :: c :: d :: s =>
    match hexValue? a, hexValue? b, hexValue? c, hexValue? d with
    | some a, some b, some c, some d =>
      (readUnits? s).map fun (units, rest) => ((((a * 16 + b) * 16 + c) * 16 + d) :: units, rest)
    | _, _, _, _ => none
  | '\\' :: c :: s =>
    match shortEscape? c with
    | some unit => (readUnits? s).map fun (units, rest) => (unit :: units, rest)
    | none => none
  | c :: s =>
    if c.toNat < 0x20 || c = '\\' then none
    else (readUnits? s).map fun (units, rest) => (c.toNat :: units, rest)

def isHighUnit (n : Nat) : Bool := decide (0xD800 ≤ n) && decide (n < 0xDC00)

def isLowUnit (n : Nat) : Bool := decide (0xDC00 ≤ n) && decide (n < 0xE000)

/-- A code point, or the replacement character for half of a pair. -/
def unitChar (n : Nat) : Char := if isHighUnit n || isLowUnit n then '\ufffd' else Char.ofNat n

/-- Two halves that stand side by side make one character. -/
def joinUnits : List Nat → Text
  | [] => []
  | [n] => [unitChar n]
  | high :: low :: units =>
    if isHighUnit high && isLowUnit low then
      Char.ofNat (0x10000 + (high - 0xD800) * 0x400 + (low - 0xDC00)) :: joinUnits units
    else unitChar high :: joinUnits (low :: units)

def readText? (s : Text) : Option (Text × Text) :=
  (readUnits? s).map fun (units, rest) => (joinUnits units, rest)

/-! ## Values -/

def constants : List (Text × Json) :=
  [(['n', 'u', 'l', 'l'], null),
   (['t', 'r', 'u', 'e'], bool true),
   (['f', 'a', 'l', 's', 'e'], bool false),
   (['N', 'a', 'N'], float .nan),
   (['I', 'n', 'f', 'i', 'n', 'i', 't', 'y'], float (.infinite false)),
   (['-', 'I', 'n', 'f', 'i', 'n', 'i', 't', 'y'], float (.infinite true))]

def readConstant? (s : Text) : Option (Json × Text) :=
  constants.findSome? fun (name, value) => (Text.after? name s).map fun rest => (value, rest)

mutual

/-- Reads a value that begins with the first character. -/
def readValue? : Nat → Text → Option (Json × Text)
  | 0, _ => none
  | fuel + 1, s =>
    match s with
    | '"' :: s => (readText? s).map fun (t, rest) => (text t, rest)
    | '[' :: s =>
      match s.dropWhile isSpace with
      | ']' :: rest => some (array [], rest)
      | s => (readItems? fuel s).map fun (items, rest) => (array items, rest)
    | '{' :: s =>
      match s.dropWhile isSpace with
      | '}' :: rest => some (object [], rest)
      | s => (readMembers? fuel s).map fun (members, rest) => (object (Assoc.ofList members), rest)
    | s => (readConstant? s).or (readNumber? s)

/-- Reads one or more items and the closing bracket. -/
def readItems? : Nat → Text → Option (List Json × Text)
  | 0, _ => none
  | fuel + 1, s =>
    match readValue? fuel s with
    | none => none
    | some (item, s) =>
      match s.dropWhile isSpace with
      | ']' :: rest => some ([item], rest)
      | ',' :: s => (readItems? fuel (s.dropWhile isSpace)).map fun (items, rest) => (item :: items, rest)
      | _ => none

/-- Reads one or more members and the closing brace. -/
def readMembers? : Nat → Text → Option (List (Text × Json) × Text)
  | 0, _ => none
  | fuel + 1, s =>
    match s with
    | '"' :: s =>
      match readText? s with
      | none => none
      | some (key, s) =>
        match s.dropWhile isSpace with
        | ':' :: s =>
          match readValue? fuel (s.dropWhile isSpace) with
          | none => none
          | some (value, s) =>
            match s.dropWhile isSpace with
            | '}' :: rest => some ([(key, value)], rest)
            | ',' :: s =>
              (readMembers? fuel (s.dropWhile isSpace)).map fun (members, rest) =>
                ((key, value) :: members, rest)
            | _ => none
        | _ => none
    | _ => none

end

/-- The value of a whole text. -/
def read? (s : Text) : Option Json :=
  match readValue? (2 * s.length + 1) (s.dropWhile isSpace) with
  | some (value, rest) => if (rest.dropWhile isSpace).isEmpty then some value else none
  | none => none

end PatternBook.Json
